import TeenyTiny.Proofs.Derivation
import TeenyTiny.Proofs.Expressions

/-! The words of the grammar: the sequences of kinds that a form derives, as a language, and the
kinds that they begin with. -/
namespace TeenyTiny
open Computability

namespace Grammar

/-- The sequences of kinds that a form derives. -/
def Form.words (f : Form) : Language Kind := {ks | Derives f ks}

section Words
variable (a b : Form)

theorem words_token (k : Kind) : (Form.token k).words = {[k]} := by
  ext ks
  constructor
  · intro h
    cases h
    rfl
  · rintro rfl
    exact .token k

theorem words_rule (r : Rule) : (Form.rule r).words = r.form.words := by
  ext ks
  constructor
  · intro h
    cases h with
    | rule h => exact h
  · exact .rule

theorem words_seq : (a * b).words = a.words * b.words := by
  ext ks
  constructor
  · intro h
    cases h with
    | seq h h' => exact Language.append_mem_mul h h'
  · rintro ⟨as,ha,bs,hb,rfl⟩
    exact .seq ha hb

theorem words_alt : (a + b).words = a.words + b.words := by
  ext ks
  constructor
  · intro h
    cases h with
    | left h => exact .inl h
    | right h => exact .inr h
  · rintro (h | h)
    · exact .left h
    · exact .right h

theorem words_opt : (Form.opt a).words = 1 + a.words := by
  ext ks
  constructor
  · intro h
    cases h with
    | absent => exact .inl rfl
    | present h => exact .inr h
  · rintro (rfl | h)
    · exact .absent
    · exact .present h

theorem words_many : (Form.many a).words = a.words∗ := by
  ext ks
  constructor
  · intro h
    generalize hf : Form.many a = f at h
    induction h with
    | done => exact Language.nil_mem_kstar _
    | more h h' _ ih =>
      cases hf
      rw [← Language.one_add_self_mul_kstar_eq_kstar]
      exact .inr (Language.append_mem_mul h (ih rfl))
    | _ => cases hf
  · rintro ⟨parts,rfl,hp⟩
    induction parts with
    | nil => exact .done
    | cons part parts ih =>
      exact .more (hp part (by simp)) (ih fun p h => hp p (by simp [h]))

end Words

/-- A sequence with such a kind in front. -/
def Starts (p : Kind → Prop) (ks : List Kind) : Prop := ∃ k rest, ks = k :: rest ∧ p k

/-- All words begin with such a kind. -/
def Begins (l : Language Kind) (p : Kind → Prop) : Prop := ∀ ks ∈ l, Starts p ks

section Begins
variable {p q : Kind → Prop} {l m : Language Kind} {k : Kind} {as bs ks : List Kind}

theorem Starts.append (h : Starts p as) (bs : List Kind) : Starts p (as ++ bs) := by
  obtain ⟨k,rest,rfl,hk⟩ := h
  exact ⟨k,rest ++ bs,rfl,hk⟩

theorem Starts.of_cons (h : Starts p (k :: ks)) : p k := by
  obtain ⟨j,rest,he,hj⟩ := h
  cases he
  exact hj

theorem Starts.of_append (h : Starts p as) (he : as ++ bs = k :: ks) : p k := by
  have hs := h.append bs
  rw [he] at hs
  exact hs.of_cons

theorem Begins.mono (h : Begins l p) (hpq : ∀ k, p k → q k) : Begins l q := by
  intro ks hks
  obtain ⟨k,rest,rfl,hk⟩ := h ks hks
  exact ⟨k,rest,rfl,hpq k hk⟩

theorem begins_singleton (k : Kind) : Begins {[k]} (· = k) := by
  rintro _ rfl
  exact ⟨k,[],rfl,rfl⟩

theorem Begins.add (h : Begins l p) (h' : Begins m p) : Begins (l + m) p := by
  rintro ks (hks | hks)
  · exact h ks hks
  · exact h' ks hks

theorem Begins.mul (h : Begins l p) (m : Language Kind) : Begins (l * m) p := by
  rintro _ ⟨as,ha,bs,-,rfl⟩
  exact (h as ha).append bs

theorem nil_or_of_mem_kstar (h : ks ∈ l∗) : ks = [] ∨ ks ∈ l * l∗ := by
  rw [← Language.one_add_self_mul_kstar_eq_kstar] at h
  exact h

theorem mem_kstar_of_mem_mul (h : ks ∈ l * l∗) : ks ∈ l∗ := by
  rw [← Language.one_add_self_mul_kstar_eq_kstar]
  exact .inr h

/-- Repetitions may be left out, and then what comes behind them is in front. -/
theorem Begins.kstar_mul (h : Begins l p) (hm : Begins m p) : Begins (l∗ * m) p := by
  rintro _ ⟨as,ha,bs,hb,rfl⟩
  rcases nil_or_of_mem_kstar ha with rfl | ha
  · exact hm bs hb
  · exact (h.mul _ as ha).append bs

end Begins

/-- One token of such a kind. -/
def single (p : Kind → Bool) : Language Kind := {ks | ∃ k, p k = true ∧ ks = [k]}

theorem begins_single (p : Kind → Bool) : Begins (single p) (p · = true) := by
  rintro _ ⟨k,hk,rfl⟩
  exact ⟨k,[],rfl,hk⟩

section Rules
open Generator

theorem words_sign : (Form.token .plus + Form.token .minus).words = single isSign := by
  rw [words_alt,words_token,words_token]
  ext ks
  constructor
  · rintro (rfl | rfl)
    · exact ⟨.plus,rfl,rfl⟩
    · exact ⟨.minus,rfl,rfl⟩
  · rintro ⟨k,hk,rfl⟩
    cases k with
    | plus => exact .inl rfl
    | minus => exact .inr rfl
    | _ => cases hk

theorem words_scaling :
    (Form.token .times + Form.token .slash).words = single isFactorOperator := by
  rw [words_alt,words_token,words_token]
  ext ks
  constructor
  · rintro (rfl | rfl)
    · exact ⟨.times,rfl,rfl⟩
    · exact ⟨.slash,rfl,rfl⟩
  · rintro ⟨k,hk,rfl⟩
    cases k with
    | times => exact .inl rfl
    | slash => exact .inr rfl
    | _ => cases hk

theorem words_comparisonOperator : comparisonOperator.words = single Kind.isComparison := by
  ext ks
  constructor
  · intro h
    unfold comparisonOperator at h
    simp only [words_alt,words_token] at h
    rcases h with ((((rfl | rfl) | rfl) | rfl) | rfl) | rfl <;> exact ⟨_,rfl,rfl⟩
  · rintro ⟨k,hk,rfl⟩
    cases k with
    | comparison op => exact derives_comparisonOperator op
    | _ => cases hk

theorem words_lineEnd : (Form.rule .lineEnd).words = {[.newline]} * {[.newline]}∗ := by
  rw [words_rule]
  change (Form.token .newline * Form.many (.token .newline)).words = _
  rw [words_seq,words_many,words_token]

theorem words_primary : (Form.rule .primary).words = {[.number]} + {[.ident]} := by
  rw [words_rule]
  change (Form.token .number + Form.token .ident).words = _
  rw [words_alt,words_token,words_token]

theorem words_unary :
    (Form.rule .unary).words = (1 + single isSign) * (Form.rule .primary).words := by
  rw [words_rule]
  change (Form.opt (.token .plus + .token .minus) * Form.rule .primary).words = _
  rw [words_seq,words_opt,words_sign]

theorem words_term : (Form.rule .term).words =
    (Form.rule .unary).words * (single isFactorOperator * (Form.rule .unary).words)∗ := by
  rw [words_rule]
  change (Form.rule .unary * Form.many ((.token .times + .token .slash) * .rule .unary)).words = _
  rw [words_seq,words_many,words_seq,words_scaling]

theorem words_expression : (Form.rule .expression).words =
    (Form.rule .term).words * (single isSign * (Form.rule .term).words)∗ := by
  rw [words_rule]
  change (Form.rule .term * Form.many ((.token .plus + .token .minus) * .rule .term)).words = _
  rw [words_seq,words_many,words_seq,words_sign]

theorem words_comparison : (Form.rule .comparison).words = (Form.rule .expression).words *
    (single Kind.isComparison * (Form.rule .expression).words *
      (single Kind.isComparison * (Form.rule .expression).words)∗) := by
  rw [words_rule]
  change (Form.rule .expression * comparisonOperator * Form.rule .expression *
    Form.many (comparisonOperator * Form.rule .expression)).words = _
  rw [words_seq,words_seq,words_seq,words_many,words_seq,words_comparisonOperator,mul_assoc,
    mul_assoc,mul_assoc]

theorem words_program : (Form.rule .program).words =
    {[.newline]}∗ * (Form.rule .statement).words∗ * {[.eof]} := by
  rw [words_rule]
  change (Form.many (.token .newline) * Form.many (.rule .statement) * Form.token .eof).words = _
  rw [words_seq,words_seq,words_many,words_many,words_token,words_token]

/-- What an operand may begin with. -/
def IsOperandStart (k : Kind) : Prop := isSign k = true ∨ k = .number ∨ k = .ident

theorem begins_primary : Begins (Form.rule .primary).words fun k => k = .number ∨ k = .ident := by
  rw [words_primary]
  exact ((begins_singleton _).mono fun _ => .inl).add ((begins_singleton _).mono fun _ => .inr)

theorem begins_unary : Begins (Form.rule .unary).words IsOperandStart := by
  rw [words_unary,add_mul,one_mul]
  exact (begins_primary.mono fun _ => .inr).add
    (((begins_single isSign).mono fun _ => .inl).mul _)

theorem begins_expression : Begins (Form.rule .expression).words IsOperandStart := by
  rw [words_expression,words_term]
  exact (begins_unary.mul _).mul _

end Rules
end Grammar
end TeenyTiny
