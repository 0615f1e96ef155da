import TeenyTiny.Proofs.LexicalFaults
import TeenyTiny.Proofs.Words

/-! Errors of syntax are found at the first token that no program goes on with. Every goal has its
words, and what may still come is made of the words of the goals on the stack. A goal is replaced
by others that have the same words as far as they begin with the current token; that is settled by
one token because the words of a goal and what follows them begin differently. -/
namespace TeenyTiny
open Computability Text Grammar Ast

namespace Generator
namespace Goal

/-- The kinds of tokens that a goal reads. -/
@[simp] def words : Goal → Language Kind
  | pass kind => {[kind]}
  | lineEnd => (Form.rule .lineEnd).words
  | feeds => {[.newline]}∗
  | operand => (Form.rule .primary).words
  | unary => (Form.rule .unary).words
  | factors => (single isFactorOperator * (Form.rule .unary).words)∗
  | summands => (single isSign * (Form.rule .term).words)∗
  | compared => single Kind.isComparison * (Form.rule .expression).words *
      (single Kind.isComparison * (Form.rule .expression).words)∗
  | comparands => (single Kind.isComparison * (Form.rule .expression).words)∗
  | print => {[.string]} + (Form.rule .expression).words
  | label | jump | input => {[.ident]}
  | target => {[.ident]} * ({[.assign]} * (Form.rule .expression).words)
  | statement => (Form.rule .statement).words
  | statements _ => (Form.rule .statement).words∗
  | start _ | finish _ | close | ending | resolve => 1

/-- The kinds that may follow the words of a goal. -/
def Ends : Goal → Kind → Prop
  | lineEnd,k | feeds,k | statement,k => k ≠ .newline
  | factors,k => endsTerm k
  | summands,k | print,k | target,k => endsExpression k
  | compared,k | comparands,k => endsComparison k
  | statements kind,k => k = kind ∧ IsClose k
  | _,_ => True

end Goal

/-- The words of goals one behind the other. -/
def wordsOf (goals : List Goal) : Language Kind := (goals.map Goal.words).prod

@[simp] theorem wordsOf_nil : wordsOf [] = 1 := rfl

@[simp] theorem wordsOf_cons (goal : Goal) (goals : List Goal) :
    wordsOf (goal :: goals) = goal.words * wordsOf goals := List.prod_cons

@[simp] theorem wordsOf_append (gs hs : List Goal) :
    wordsOf (gs ++ hs) = wordsOf gs * wordsOf hs := by
  rw [wordsOf,List.map_append,List.prod_append]
  rfl

/-- What may still come: the words of the goals, and the end. -/
def rests (goals : List Goal) : Language Kind := wordsOf goals * {[.eof]}

theorem rests_nil : rests [] = {[.eof]} := one_mul _

theorem rests_append (gs hs : List Goal) : rests (gs ++ hs) = wordsOf gs * rests hs := by
  rw [rests,wordsOf_append,mul_assoc]
  rfl

theorem rests_cons (goal : Goal) (goals : List Goal) :
    rests (goal :: goals) = goal.words * rests goals := by
  rw [rests,wordsOf_cons,mul_assoc]
  rfl

/-- Every goal has something behind it that may follow it. -/
def Fit : List Goal → Prop
  | [] => True
  | goal :: goals => Begins (rests goals) goal.Ends ∧ Fit goals

/-- The goals fit in front of what begins as given, and then begin as given. -/
def Fits (before : Kind → Prop) (gs : List Goal) (after : Kind → Prop) : Prop :=
  ∀ goals, Fit goals → Begins (rests goals) after →
    Fit (gs ++ goals) ∧ Begins (rests (gs ++ goals)) before

section Fits
variable {p q r : Kind → Prop} {goal : Goal} {gs hs : List Goal}

theorem Fits.append (h : Fits p gs q) (h' : Fits q hs r) : Fits p (gs ++ hs) r := by
  intro goals hf hb
  obtain ⟨hf',hb'⟩ := h' goals hf hb
  rw [List.append_assoc]
  exact h _ hf' hb'

theorem Fits.mono {p' r' : Kind → Prop} (h : Fits p gs r) (hp : ∀ k, p k → p' k)
    (hr : ∀ k, r' k → r k) : Fits p' gs r' := by
  intro goals hf hb
  obtain ⟨hf',hb'⟩ := h goals hf (hb.mono hr)
  exact ⟨hf',hb'.mono hp⟩

theorem fits_nil (p : Kind → Prop) : Fits p [] p := fun _ hf hb => ⟨hf,hb⟩

theorem fits_goal (hb : ∀ l, Begins l q → Begins (goal.words * l) p)
    (he : ∀ k, q k → goal.Ends k) : Fits p [goal] q := by
  intro goals hf hg
  refine ⟨⟨hg.mono he,hf⟩,?_⟩
  rw [List.singleton_append,rests_cons]
  exact hb _ hg

theorem fits_of_begins (hb : Begins goal.words p) (he : ∀ k, q k → goal.Ends k) :
    Fits p [goal] q :=
  fits_goal (fun l _ => hb.mul l) he

/-- Goals that read nothing do not matter. -/
theorem fits_empty (goal : Goal) (hw : goal.words = 1) (he : ∀ k, goal.Ends k)
    (p : Kind → Prop) : Fits p [goal] p := by
  refine fits_goal (fun l hl => ?_) fun k _ => he k
  rwa [hw,one_mul]

theorem fits_pass (k : Kind) (p : Kind → Prop) : Fits (· = k) [.pass k] p :=
  fits_of_begins (begins_singleton k) fun _ _ => trivial

theorem fits_repeat {l : Language Kind} (hw : goal.words = l∗) (hl : Begins l p)
    (hp : ∀ k, goal.Ends k → p k) : Fits p [goal] goal.Ends := by
  refine fits_goal (fun m hm => ?_) fun _ h => h
  rw [hw]
  exact hl.kstar_mul (hm.mono hp)

theorem fits_feeds : Fits (fun _ => True) [.feeds] (· ≠ .newline) :=
  fits_repeat rfl ((begins_singleton _).mono fun _ _ => trivial) fun _ _ => trivial

theorem fits_unary (p : Kind → Prop) : Fits IsOperandStart [.unary] p :=
  fits_of_begins begins_unary fun _ _ => trivial

theorem fits_term : Fits IsOperandStart [.unary,.factors] endsTerm := by
  have hf : Fits (fun _ => True) [.factors] endsTerm :=
    fits_repeat rfl (((begins_single _).mono fun _ _ => trivial).mul _) fun _ _ => trivial
  exact (fits_unary _).append hf

theorem fits_expression : Fits IsOperandStart Goal.expression endsExpression := by
  have hs : Fits endsTerm [.summands] endsExpression :=
    fits_repeat rfl (((begins_single _).mono endsTerm_of_isSign).mul _) fun _ h => h.1
  exact fits_term.append hs

theorem fits_comparands : Fits endsExpression [.comparands] endsComparison :=
  fits_repeat rfl (((begins_single _).mono endsExpression_of_isComparison).mul _) fun _ h => h.1

theorem fits_compared : Fits endsExpression [.compared] endsComparison :=
  fits_of_begins ((((begins_single _).mono endsExpression_of_isComparison).mul _).mul _)
    fun _ h => h

theorem begins_lineEnd : Begins (Form.rule .lineEnd).words (· = .newline) := by
  rw [words_lineEnd]
  exact (begins_singleton _).mul _

theorem fits_lineEnd : Fits (· = .newline) [.lineEnd] (· ≠ .newline) :=
  fits_of_begins begins_lineEnd fun _ h => h

end Fits

theorem wordsOf_unary : wordsOf [.unary] = (Form.rule .unary).words := mul_one _

theorem wordsOf_term : wordsOf [.unary,.factors] = (Form.rule .term).words := by
  rw [words_term]
  simp

theorem wordsOf_expression : wordsOf Goal.expression = (Form.rule .expression).words := by
  rw [words_expression,← wordsOf_term]
  simp [Goal.expression,← wordsOf_term,mul_assoc]

/-- An expression is read in the same way whatever it is written for. -/
theorem wordsOf_formula (f : Formula) :
    wordsOf (.start f :: (Goal.expression ++ [.finish f])) = (Form.rule .expression).words := by
  simp [wordsOf_expression]

theorem wordsOf_block (kind : BlockKind) : wordsOf (Goal.block kind) =
    (Form.rule .comparison).words * {[.keyword kind.opener]} * (Form.rule .lineEnd).words *
      (Form.rule .statement).words∗ * {[.keyword kind.closer]} := by
  simp [Goal.block,Goal.formula,wordsOf_expression,words_comparison,mul_assoc]

/-- The words of a statement, by their first kind. -/
theorem mem_statement {ks : List Kind} : ks ∈ (Form.rule .statement).words ↔
    ∃ k more, Goal.rest? k = some more ∧
      ks ∈ {[k]} * wordsOf more * (Form.rule .lineEnd).words := by
  have hform : (Form.rule .statement).words =
      ({[.keyword .print]} * wordsOf [.print] +
        {[.keyword .if_]} * wordsOf (Goal.block .conditional) +
        {[.keyword .while_]} * wordsOf (Goal.block .loop) +
        {[.keyword .label]} * wordsOf [.label] + {[.keyword .goto]} * wordsOf [.jump] +
        {[.keyword .let_]} * wordsOf [.target] + {[.keyword .input]} * wordsOf [.input]) *
      (Form.rule .lineEnd).words := by
    rw [words_rule]
    unfold Rule.form word
    simp only [words_seq,words_alt,words_many,words_token,wordsOf_block,wordsOf_cons,wordsOf_nil,
      Goal.words,mul_one,mul_assoc,BlockKind.opener,BlockKind.closer]
  rw [hform]
  constructor
  · rintro ⟨as,ha,bs,hb,rfl⟩
    rcases ha with (((((ha | ha) | ha) | ha) | ha) | ha) | ha <;>
      exact ⟨_,_,rfl,Language.append_mem_mul ha hb⟩
  · rintro ⟨k,more,hr,as,ha,bs,hb,rfl⟩
    refine Language.append_mem_mul ?_ hb
    unfold Goal.rest? at hr
    split at hr <;> cases hr
    · exact .inl (.inl (.inl (.inl (.inl (.inl ha)))))
    · exact .inl (.inl (.inl (.inl (.inl (.inr ha)))))
    · exact .inl (.inl (.inl (.inl (.inr ha))))
    · exact .inl (.inl (.inl (.inr ha)))
    · exact .inl (.inl (.inr ha))
    · exact .inl (.inr ha)
    · exact .inr ha

theorem begins_statement :
    Begins (Form.rule .statement).words fun k => (Goal.rest? k).isSome = true := by
  intro ks hks
  obtain ⟨k,more,hr,hks⟩ := mem_statement.mp hks
  refine ((begins_singleton k).mul _).mul _ |>.mono ?_ ks hks
  rintro _ rfl
  rw [hr]
  rfl

theorem rest?_eq_none_of_isClose {k : Kind} (h : IsClose k) : Goal.rest? k = none := by
  rcases h with rfl | ⟨kind,rfl⟩
  · rfl
  · cases kind <;> rfl

theorem ne_newline_of_rest? {k : Kind} (h : (Goal.rest? k).isSome = true) : k ≠ .newline := by
  rintro rfl
  cases h

section Fits

theorem fits_statements (kind : Kind) :
    Fits (· ≠ .newline) [.statements kind] fun k => k = kind ∧ IsClose k :=
  fits_repeat rfl (begins_statement.mono fun _ => ne_newline_of_rest?) fun _ h => h.2.ne_newline

theorem fits_formula (f : Formula) :
    Fits (fun _ => True) (.start f :: (Goal.expression ++ [.finish f])) endsExpression := by
  have hs := fits_empty (.start f) rfl (fun _ => trivial) IsOperandStart
  have hf := fits_empty (.finish f) rfl (fun _ => trivial) endsExpression
  exact (hs.append (fits_expression.append hf)).mono (fun _ _ => trivial) fun _ h => h

theorem fits_block (kind : BlockKind) (p : Kind → Prop) :
    Fits (fun _ => True) (Goal.block kind) p := by
  have hstart := fits_empty (.start (.condition kind)) rfl (fun _ => trivial) IsOperandStart
  have hopener : Fits endsComparison [.pass (.keyword kind.opener)] (· = .newline) :=
    (fits_pass _ _).mono (fun k hk => hk ▸ endsComparison_opener kind) fun _ h => h
  have hfinish := fits_empty (.finish (.condition kind)) rfl (fun _ => trivial)
    (· ≠ .newline)
  have hcloser : Fits (fun k => k = .keyword kind.closer ∧ IsClose k)
      [.pass (.keyword kind.closer)] p :=
    (fits_pass _ _).mono (fun k hk => ⟨hk,.inr ⟨kind,hk⟩⟩) fun _ h => h
  have hclose := fits_empty .close rfl (fun _ => trivial) p
  have hcondition := fits_expression.append (fits_compared.append
    (hopener.append (fits_lineEnd.append hfinish)))
  have hbody := (fits_statements (.keyword kind.closer)).append (hcloser.append hclose)
  exact ((hstart.append hcondition).append hbody).mono (fun _ _ => trivial) fun _ h => h

theorem fits_rest {k : Kind} {more : List Goal} (h : Goal.rest? k = some more) :
    Fits (fun _ => True) more (· = .newline) := by
  have hends : ∀ k, k = Kind.newline → endsExpression k := by
    rintro _ rfl
    exact ⟨rfl,rfl⟩
  have hident : ∀ goal : Goal, goal.words = {[.ident]} → (∀ k, goal.Ends k) →
      Fits (fun _ => True) [goal] (· = .newline) := by
    intro goal hw he
    refine fits_of_begins ?_ fun k _ => he k
    rw [hw]
    exact (begins_singleton _).mono fun _ _ => trivial
  unfold Goal.rest? at h
  split at h <;> cases h
  · refine fits_of_begins ?_ hends
    exact ((begins_singleton _).mono fun _ _ => trivial).add
      (begins_expression.mono fun _ _ => trivial)
  · exact fits_block .conditional _
  · exact fits_block .loop _
  · exact hident .label rfl fun _ => trivial
  · exact hident .jump rfl fun _ => trivial
  · refine fits_of_begins ?_ hends
    exact ((begins_singleton _).mono fun _ _ => trivial).mul _
  · exact hident .input rfl fun _ => trivial

end Fits

/-- In front of the current kind, other goals have the words of a goal. -/
structure Expands (goal : Goal) (k : Kind) (more : List Goal) : Prop where
  fits : Fits (fun _ => True) more goal.Ends
  mem_iff : ∀ {as bs ks : List Kind}, as ++ bs = k :: ks → Starts goal.Ends bs →
    (as ∈ wordsOf more ↔ as ∈ goal.words)

section Expands
variable {goal : Goal} {goals more : List Goal} {k : Kind} {l : Language Kind} {p : Kind → Bool}

theorem Expands.of_eq (hw : wordsOf more = goal.words)
    (hf : Fits (fun _ => True) more goal.Ends) : Expands goal k more :=
  ⟨hf,fun _ _ => by rw [hw]⟩

theorem Expands.fit (h : Expands goal k more) (hf : Fit (goal :: goals)) : Fit (more ++ goals) :=
  (h.fits goals hf.2 hf.1).1

theorem Expands.mem_rests (h : Expands goal k more) (hf : Fit (goal :: goals)) (ks : List Kind) :
    k :: ks ∈ rests (more ++ goals) ↔ k :: ks ∈ rests (goal :: goals) := by
  rw [rests_append,rests_cons,Language.mem_mul,Language.mem_mul]
  constructor
  · rintro ⟨as,ha,bs,hb,he⟩
    exact ⟨as,(h.mem_iff he (hf.1 bs hb)).mp ha,bs,hb,he⟩
  · rintro ⟨as,ha,bs,hb,he⟩
    exact ⟨as,(h.mem_iff he (hf.1 bs hb)).mpr ha,bs,hb,he⟩

/-- A repetition begins with its operator, and ends where there is none. -/
theorem Expands.again (hw : goal.words = (single p * l)∗) (hk : p k = true)
    (he : ∀ j, goal.Ends j → p j = false) (hm : wordsOf more = l)
    (hf : Fits (fun _ => True) (more ++ [goal]) goal.Ends) :
    Expands goal k (.pass k :: (more ++ [goal])) where
  fits := ((fits_pass k fun _ => True).append hf).mono (fun _ _ => trivial) fun _ h => h
  mem_iff {as bs ks} hs hb := by
    have hwords : wordsOf (.pass k :: (more ++ [goal])) = {[k]} * (l * goal.words) := by
      simp [hm]
    rw [hwords]
    constructor
    · rintro ⟨_,rfl,cs,hc,rfl⟩
      rw [hw] at hc ⊢
      refine mem_kstar_of_mem_mul ?_
      rw [mul_assoc]
      exact Language.append_mem_mul ⟨k,hk,rfl⟩ hc
    · intro ha
      rw [hw] at ha ⊢
      rcases nil_or_of_mem_kstar ha with rfl | ha
      · rw [List.nil_append] at hs
        rw [hs] at hb
        rw [he k hb.of_cons] at hk
        cases hk
      · rw [mul_assoc] at ha
        obtain ⟨_,⟨j,-,rfl⟩,cs,hc,rfl⟩ := ha
        obtain rfl : j = k := (List.cons_eq_cons.mp hs).1
        exact Language.append_mem_mul rfl hc

theorem Expands.skip (hw : goal.words = (single p * l)∗) (hk : p k = false) :
    Expands goal k [] where
  fits := (fits_nil _).mono (fun _ _ => trivial) fun _ h => h
  mem_iff {as bs ks} hs _ := by
    rw [wordsOf_nil,hw]
    constructor
    · rintro rfl
      exact Language.nil_mem_kstar _
    · intro ha
      rcases nil_or_of_mem_kstar ha with rfl | ha
      · rfl
      · have hj := ((((begins_single p).mul l).mul _) as ha).of_append hs
        rw [hk] at hj
        cases hj

theorem expands_feeds (k : Kind) :
    Expands .feeds k (if k = .newline then [.pass k,.feeds] else []) := by
  have hw : Goal.words .feeds = (single (fun j => decide (j = .newline)) * 1)∗ := by
    have hs : ({[.newline]} : Language Kind) = single fun j => decide (j = .newline) := by
      ext ks
      constructor
      · rintro rfl
        exact ⟨_,rfl,rfl⟩
      · rintro ⟨k,hk,rfl⟩
        rw [of_decide_eq_true hk]
        rfl
    rw [mul_one,← hs]
    rfl
  split_ifs with hk
  · exact .again hw (decide_eq_true hk) (fun _ h => decide_eq_false h) wordsOf_nil fits_feeds
  · exact .skip hw (decide_eq_false hk)

theorem expands_operand (hk : k = .number ∨ k = .ident) : Expands .operand k [.pass k] where
  fits := (fits_pass k _).mono (fun _ _ => trivial) fun _ h => h
  mem_iff {as bs ks} hs _ := by
    have hwords : wordsOf [.pass k] = {[k]} := mul_one _
    rw [hwords,Goal.words,words_primary]
    constructor
    · rintro rfl
      rcases hk with rfl | rfl
      · exact .inl rfl
      · exact .inr rfl
    · rintro (rfl | rfl)
      · rw [(List.cons_eq_cons.mp hs).1]
        rfl
      · rw [(List.cons_eq_cons.mp hs).1]
        rfl

theorem expands_unary (k : Kind) :
    Expands .unary k (if isSign k then [.pass k,.operand] else [.operand]) := by
  have hoperand : Fits (fun _ => True) [.operand] fun _ => True :=
    fits_of_begins (begins_primary.mono fun _ _ => trivial) fun _ _ => trivial
  have hprimary : ∀ k, k = Kind.number ∨ k = .ident → isSign k = false := by
    rintro _ (rfl | rfl) <;> rfl
  split_ifs with hk
  · refine ⟨((fits_pass k _).append hoperand).mono (fun _ _ => trivial) fun _ h => h,?_⟩
    intro as bs ks hs _
    have hwords : wordsOf [.pass k,.operand] = {[k]} * (Form.rule .primary).words := by
      simp
    rw [hwords,Goal.words,words_unary,add_mul,one_mul]
    constructor
    · rintro ⟨_,rfl,cs,hc,rfl⟩
      exact .inr (Language.append_mem_mul ⟨k,hk,rfl⟩ hc)
    · rintro (ha | ⟨_,⟨j,-,rfl⟩,cs,hc,rfl⟩)
      · rw [hprimary k ((begins_primary as ha).of_append hs)] at hk
        cases hk
      · obtain rfl : j = k := (List.cons_eq_cons.mp hs).1
        exact Language.append_mem_mul rfl hc
  · refine ⟨hoperand,?_⟩
    intro as bs ks hs _
    have hwords : wordsOf [.operand] = (Form.rule .primary).words := mul_one _
    rw [hwords,Goal.words,words_unary,add_mul,one_mul]
    constructor
    · exact .inl
    · rintro (ha | ha)
      · exact ha
      · exact absurd (((begins_single isSign).mul _ as ha).of_append hs) hk

theorem expands_compared (hk : k.isComparison = true) : Expands .compared k [.comparands] where
  fits := fits_comparands.mono (fun _ _ => trivial) fun _ h => h
  mem_iff {as bs ks} hs hb := by
    have hwords : wordsOf [.comparands] = Goal.words .comparands := mul_one _
    rw [hwords]
    constructor
    · intro ha
      rcases nil_or_of_mem_kstar ha with rfl | ha
      · rw [List.nil_append] at hs
        rw [hs] at hb
        rw [hb.of_cons.2] at hk
        cases hk
      · exact ha
    · exact mem_kstar_of_mem_mul

theorem expands_print (k : Kind) : Expands .print k
    (if k = .string then [.pass .string] else Goal.formula .value) := by
  split_ifs with hk
  · refine ⟨(fits_pass _ _).mono (fun _ _ => trivial) fun _ h => h,?_⟩
    intro as bs ks hs _
    have hwords : wordsOf [.pass .string] = {[.string]} := mul_one _
    rw [hwords]
    constructor
    · exact .inl
    · rintro (ha | ha)
      · exact ha
      · have hstart := (begins_expression as ha).of_append hs
        rw [hk] at hstart
        rcases hstart with h | h | h <;> cases h
  · refine ⟨fits_formula .value,?_⟩
    intro as bs ks hs _
    have hwords : wordsOf (Goal.formula .value) = (Form.rule .expression).words :=
      wordsOf_formula .value
    rw [hwords]
    constructor
    · exact .inr
    · rintro (rfl | ha)
      · exact absurd (List.cons_eq_cons.mp hs).1.symm hk
      · exact ha

theorem expands_target (n : List Char) : Expands .target .ident
    (.pass .ident :: .pass .assign :: Goal.formula (.assigned n)) := by
  refine .of_eq ?_ ?_
  · have hwords : wordsOf (Goal.formula (.assigned n)) = (Form.rule .expression).words :=
      wordsOf_formula (.assigned n)
    rw [wordsOf_cons,wordsOf_cons,hwords]
    rfl
  · exact ((fits_pass _ _).append ((fits_pass _ _).append (fits_formula (.assigned n)))).mono
      (fun _ _ => trivial) fun _ h => h

theorem expands_statement (hr : Goal.rest? k = some more) :
    Expands .statement k (.pass k :: (more ++ [.lineEnd])) where
  fits := ((fits_pass k _).append ((fits_rest hr).append fits_lineEnd)).mono (fun _ _ => trivial)
    fun _ h => h
  mem_iff {as bs ks} hs _ := by
    have hwords : wordsOf (.pass k :: (more ++ [.lineEnd])) =
        {[k]} * wordsOf more * (Form.rule .lineEnd).words := by
      simp [mul_assoc]
    rw [hwords]
    constructor
    · intro ha
      exact mem_statement.mpr ⟨k,more,hr,ha⟩
    · intro ha
      obtain ⟨j,more',hj,ha⟩ := mem_statement.mp ha
      obtain rfl := ((((begins_singleton j).mul _).mul _) as ha).of_append hs
      obtain rfl := Option.some.inj (hj.symm.trans hr)
      exact ha

theorem expands_statements {close : Kind} (hk : k ≠ close) :
    Expands (.statements close) k [.statement,.statements close] where
  fits := by
    have hs : Fits (· ≠ .newline) [.statement] (· ≠ .newline) :=
      fits_of_begins (begins_statement.mono fun _ => ne_newline_of_rest?) fun _ h => h
    exact (hs.append (fits_statements close)).mono (fun _ _ => trivial) fun _ h => h
  mem_iff {as bs ks} hs hb := by
    have hwords : wordsOf [.statement,.statements close] =
        (Form.rule .statement).words * (Form.rule .statement).words∗ := by
      simp
    rw [hwords]
    constructor
    · exact mem_kstar_of_mem_mul
    · intro ha
      rcases nil_or_of_mem_kstar ha with rfl | ha
      · rw [List.nil_append] at hs
        rw [hs] at hb
        exact absurd hb.of_cons.1 hk
      · exact ha

theorem expands_close (k : Kind) : Expands (.statements k) k [] where
  fits := (fits_nil _).mono (fun _ _ => trivial) fun _ h => h
  mem_iff {as bs ks} hs hb := by
    constructor
    · rintro rfl
      exact Language.nil_mem_kstar _
    · intro ha
      rcases nil_or_of_mem_kstar ha with rfl | hm
      · rfl
      · -- a statement does not begin with what closes the block
        have hstart := (begins_statement.mul _ as hm).of_append hs
        obtain ⟨j,-,-,rfl,hclose⟩ := hb
        rw [rest?_eq_none_of_isClose hclose] at hstart
        cases hstart

theorem Expands.loop (goal : Goal) (p : Kind → Bool) (hw : goal.words = (single p * l)∗)
    (he : ∀ j, goal.Ends j → p j = false) (hm : wordsOf more = l)
    (hf : Fits (fun _ => True) (more ++ [goal]) goal.Ends) (k : Kind) :
    Expands goal k (if p k then .pass k :: (more ++ [goal]) else []) := by
  split_ifs with hk
  · exact .again hw hk he hm hf
  · exact .skip hw (by simpa using hk)

theorem expands_of_plan? {t : Token} {passes : Bool}
    (h : goal.plan? t = some (passes,more)) :
    Expands goal t.kind (if passes then .pass t.kind :: more else more) := by
  have hpass : ∀ {goal : Goal}, goal.words = {[t.kind]} →
      Expands goal t.kind [.pass t.kind] := fun hw =>
    .of_eq ((mul_one _).trans hw.symm) ((fits_pass _ _).mono (fun _ _ => trivial) fun _ h => h)
  have hnil : ∀ {goal : Goal}, goal.words = 1 → Expands goal t.kind [] := fun hw =>
    .of_eq hw.symm ((fits_nil _).mono (fun _ _ => trivial) fun _ h => h)
  cases goal with
  | pass kind =>
    rw [Goal.plan?] at h
    split_ifs at h with hk
    cases h
    exact hpass (by rw [Goal.words,hk])
  | lineEnd =>
    rw [Goal.plan?] at h
    split_ifs at h with hk
    cases h
    rw [hk]
    refine .of_eq ?_ ?_
    · rw [Goal.words,words_lineEnd]
      simp
    · exact ((fits_pass _ _).append fits_feeds).mono (fun _ _ => trivial) fun _ h => h
  | feeds =>
    have he := expands_feeds t.kind
    rw [Goal.plan?] at h
    split_ifs at h he <;> cases h <;> exact he
  | operand =>
    rw [Goal.plan?] at h
    split_ifs at h with hk
    cases h
    exact expands_operand hk
  | unary =>
    cases h
    exact expands_unary t.kind
  | factors =>
    cases h
    exact .loop .factors isFactorOperator rfl (fun _ h => h) wordsOf_unary
      (fits_term.mono (fun _ _ => trivial) fun _ h => h) t.kind
  | summands =>
    cases h
    exact .loop .summands isSign rfl (fun _ h => h.2) wordsOf_term
      (fits_expression.mono (fun _ _ => trivial) fun _ h => h) t.kind
  | compared =>
    rw [Goal.plan?] at h
    split_ifs at h with hk
    cases h
    exact expands_compared hk
  | comparands =>
    cases h
    exact .loop .comparands Kind.isComparison rfl (fun _ h => h.2) wordsOf_expression
      ((fits_expression.append fits_comparands).mono (fun _ _ => trivial) fun _ h => h) t.kind
  | start | finish | close | resolve =>
    cases h
    exact hnil rfl
  | ending =>
    cases h
    exact .of_eq (mul_one _) ((fits_empty .resolve rfl (fun _ => trivial) _).mono
      (fun _ h => h) fun _ h => h)
  | print =>
    cases h
    exact expands_print t.kind
  | label | jump | input =>
    rw [Goal.plan?] at h
    split_ifs at h with hk
    cases h
    exact hpass (by rw [Goal.words,hk])
  | target =>
    rw [Goal.plan?] at h
    split_ifs at h with hk
    cases h
    rw [hk]
    exact expands_target t.lexeme
  | statement =>
    obtain ⟨rest,hr,h⟩ := Option.map_eq_some_iff.mp h
    cases h
    exact expands_statement hr
  | statements kind =>
    rw [Goal.plan?] at h
    split_ifs at h with hk <;> cases h
    · rw [← hk]
      exact expands_close t.kind
    · exact expands_statements hk

/-- A token that a goal refuses is not the first one of its words, or of what follows them. -/
theorem not_mem_of_plan? {t : Token} (h : goal.plan? t = none) {as bs ks : List Kind}
    (hs : as ++ bs = t.kind :: ks) (hb : Starts goal.Ends bs) : as ∉ goal.words := by
  intro ha
  have hfirst : ∀ {q : Kind → Prop}, Begins goal.words q → q t.kind :=
    fun hq => (hq as ha).of_append hs
  cases goal with
  | pass kind =>
    rw [Goal.plan?,if_pos (hfirst (begins_singleton kind))] at h
    cases h
  | lineEnd =>
    rw [Goal.plan?,if_pos (hfirst begins_lineEnd)] at h
    cases h
  | operand =>
    rw [Goal.plan?,if_pos (hfirst begins_primary)] at h
    cases h
  | compared =>
    rw [Goal.plan?,if_pos (hfirst (((begins_single _).mul _).mul _))] at h
    cases h
  | label | jump | input =>
    rw [Goal.plan?,if_pos (hfirst (begins_singleton .ident))] at h
    cases h
  | target =>
    rw [Goal.plan?,if_pos (hfirst ((begins_singleton .ident).mul _))] at h
    cases h
  | statement =>
    have hr := hfirst begins_statement
    rw [Goal.plan?,Option.map_eq_none_iff] at h
    rw [h] at hr
    cases hr
  | statements kind =>
    rw [Goal.plan?] at h
    split_ifs at h with hk he
    rcases nil_or_of_mem_kstar ha with rfl | hm
    · rw [List.nil_append] at hs
      rw [hs] at hb
      exact hk hb.of_cons.1
    · have hr := (begins_statement.mul _ as hm).of_append hs
      rw [he] at hr
      cases hr
  | _ => cases h

end Expands

theorem words_nonempty (goal : Goal) : ∃ as, as ∈ goal.words := by
  have hprimary : [.number] ∈ (Form.rule .primary).words := .rule (.left (.token _))
  have hunary : [.number] ∈ (Form.rule .unary).words := .rule (.seq .absent hprimary)
  have hterm : [.number] ∈ (Form.rule .term).words := .rule (.seq hunary .done)
  have hexpression : [.number] ∈ (Form.rule .expression).words := .rule (.seq hterm .done)
  have hlineEnd : [.newline] ∈ (Form.rule .lineEnd).words := .rule (.seq (.token _) .done)
  cases goal with
  | pass | label | jump | input => exact ⟨_,rfl⟩
  | lineEnd => exact ⟨_,hlineEnd⟩
  | feeds | factors | summands | comparands | statements => exact ⟨[],Language.nil_mem_kstar _⟩
  | operand => exact ⟨_,hprimary⟩
  | unary => exact ⟨_,hunary⟩
  | compared =>
    exact ⟨_,Language.append_mem_mul (Language.append_mem_mul ⟨.comparison .eq,rfl,rfl⟩ hexpression)
      (Language.nil_mem_kstar _)⟩
  | print => exact ⟨_,.inl rfl⟩
  | target => exact ⟨_,Language.append_mem_mul rfl (Language.append_mem_mul rfl hexpression)⟩
  | statement =>
    exact ⟨_,.rule (.seq (.left (.left (.left (.right (.seq (.token _) (.token _)))))) hlineEnd)⟩
  | start | finish | close | ending | resolve => exact ⟨[],rfl⟩

theorem rests_nonempty (goals : List Goal) : ∃ ks, ks ∈ rests goals := by
  induction goals with
  | nil => exact ⟨_,Language.append_mem_mul rfl rfl⟩
  | cons goal goals ih =>
    obtain ⟨as,ha⟩ := words_nonempty goal
    obtain ⟨bs,hb⟩ := ih
    rw [rests_cons]
    exact ⟨_,Language.append_mem_mul ha hb⟩

end Generator

/-- Some program begins with these kinds. -/
def Viable (ks : List Kind) : Prop := ∃ more, Derives (.rule .program) (ks ++ more)

theorem Viable.of_append {ks ls : List Kind} (h : Viable (ks ++ ls)) : Viable ks := by
  obtain ⟨more,h⟩ := h
  exact ⟨ls ++ more,by rwa [← List.append_assoc]⟩

namespace Generator

/-- Behind the tokens that are passed, what the goals and the end make of the current token is what
programs go on with. -/
structure Parses (passed : List Token) (goals : List Goal) (current : Token) : Prop where
  fit : Fit goals
  viable : Viable (passed.map Token.kind)
  mem_iff : ∀ ks, current.kind :: ks ∈ rests goals ↔
    Derives (.rule .program) (passed.map Token.kind ++ current.kind :: ks)

section Parses
variable {passed : List Token} {goal : Goal} {goals more : List Goal} {t u : Token}

theorem rests_start :
    rests [.feeds,.statements .eof,.ending] = (Form.rule .program).words := by
  rw [words_program]
  simp [rests]

theorem parses_start (t : Token) : Parses [] [.feeds,.statements .eof,.ending] t where
  fit := by
    have hend : Begins (rests []) fun k => k = .eof ∧ IsClose k := by
      rw [rests_nil]
      exact (begins_singleton .eof).mono fun k hk => ⟨hk,.inl hk⟩
    have hlast := fits_empty .ending rfl (fun _ => trivial) fun k => k = .eof ∧ IsClose k
    exact (fits_feeds.append ((fits_statements .eof).append hlast) [] trivial hend).1
  viable := by
    obtain ⟨ks,hk⟩ := rests_nonempty [.feeds,.statements .eof,.ending]
    rw [rests_start] at hk
    exact ⟨ks,hk⟩
  mem_iff ks := by
    rw [rests_start]
    rfl

theorem Parses.step (h : Parses passed (goal :: goals) t)
    (hp : goal.plan? t = some (false,more)) : Parses passed (more ++ goals) t := by
  have he : Expands goal t.kind more := expands_of_plan? hp
  exact ⟨he.fit h.fit,h.viable,fun ks => (he.mem_rests h.fit ks).trans (h.mem_iff ks)⟩

/-- What is behind the current token can follow it. -/
theorem Parses.pass (h : Parses passed (goal :: goals) t)
    (hp : goal.plan? t = some (true,more)) (u : Token) :
    Parses (passed ++ [t]) (more ++ goals) u := by
  have he : Expands goal t.kind (.pass t.kind :: more) := expands_of_plan? hp
  have hiff : ∀ ks, ks ∈ rests (more ++ goals) ↔
      Derives (.rule .program) ((passed ++ [t]).map Token.kind ++ ks) := by
    intro ks
    have hcons : ks ∈ rests (more ++ goals) ↔
        t.kind :: ks ∈ rests (.pass t.kind :: (more ++ goals)) := by
      rw [rests_cons]
      constructor
      · exact fun hk => ⟨_,rfl,ks,hk,rfl⟩
      · rintro ⟨_,rfl,ls,hl,he⟩
        rwa [← (List.cons_eq_cons.mp he).2]
    rw [hcons,List.map_append,List.append_assoc]
    exact (he.mem_rests h.fit ks).trans (h.mem_iff ks)
  refine ⟨(he.fit h.fit).2,?_,fun ks => hiff _⟩
  obtain ⟨ks,hk⟩ := rests_nonempty (more ++ goals)
  exact ⟨ks,(hiff ks).mp hk⟩

theorem Parses.not_viable (h : Parses passed (goal :: goals) t) (hp : goal.plan? t = none) :
    ¬Viable ((passed ++ [t]).map Token.kind) := by
  rintro ⟨ks,hd⟩
  rw [List.map_append,List.append_assoc] at hd
  have hm := (h.mem_iff ks).mpr hd
  rw [rests_cons] at hm
  obtain ⟨as,ha,bs,hb,hs⟩ := hm
  exact not_mem_of_plan? hp hs (h.fit.1 bs hb) ha

end Parses

/-- A syntax error is found at a token that no program has behind the tokens that are passed. -/
theorem program_refuses {stream : TokenStream} {fault : Fault} {g' : Generator}
    (h : program { stream := stream } = .error fault g') (hk : fault.cause.kind = .syntactic)
    (hl : ∀ fault, .error fault ∈ stream.items → fault.cause.kind = .lexical) :
    ∃ passed t more, stream.upToFault.1 = passed ++ t :: more ∧ fault.line = t.line ∧
      Viable (passed.map Token.kind) ∧ ¬Viable ((passed ++ [t]).map Token.kind) := by
  have hlex : ∀ before, stream.upToFault ≠ (before,some fault) := by
    intro before hu
    obtain ⟨rest,hi⟩ := TokenStream.upToFault_eq_some.mp hu
    rw [hl fault (by simp [hi])] at hk
    cases hk
  rcases program_fails h with ⟨before,hu⟩ | ⟨g,-,hr,hd⟩
  · exact absurd hu (hlex before)
  obtain ⟨goal,goals,g₁,⟨passed,ahead,hr,hp⟩,hf⟩ := hd.fails
    (fun goals g => ∃ passed ahead, Reached stream passed ahead goals g ∧
      Parses passed goals g.current) ⟨_,_,hr,parses_start _⟩ <| by
      rintro goal goals g more g' ⟨passed,ahead,hr,hp⟩ hg
      rcases hr.step hg with ⟨rest,hplan,-,hr'⟩ | ⟨hplan,hc,hr'⟩
      · exact ⟨_,_,hr',hp.pass hplan _⟩
      · exact ⟨_,_,hr',hc ▸ hp.step hplan⟩
  rcases hr.fails hf with hv | ⟨before,hu⟩
  · have hplan := plan?_of_error hv hk
    have hg : goal ≠ .resolve := by
      rintro rfl
      cases hplan
    obtain ⟨more,ht⟩ := hr.tokens
    exact ⟨passed,g₁.current,more,ht,(blamed_of_verdict hg hv).line_eq,hp.viable,
      hp.not_viable hplan⟩
  · exact absurd hu (hlex before)

end Generator

/-- A syntax error is on the line of the first token that no program has at its place; the tokens
in front of it begin some program. -/
theorem compileText_syntax_error {src : Bytes} {d : Diagnostic}
    (h : (compileText src).2 = .error (.diagnostic d)) (hk : d.cause.kind = .syntactic) :
    let tokens := (TokenStream.ofChars (decode (preprocess src))).upToFault.1
    ∃ k t, tokens[k]? = some t ∧ d.line = t.line ∧
      IsLeast {i | i < tokens.length ∧ ¬Viable ((tokens.take (i + 1)).map Token.kind)} k ∧
      Viable ((tokens.take k).map Token.kind) := by
  intro tokens
  obtain ⟨fault,g,hg,rfl⟩ := compileText_error_iff.mp h
  have hlex := TokenStream.lexes_ofChars (endsLine_preprocess src)
  obtain ⟨passed,t,more,ht,hl,hv,hn⟩ :=
    Generator.program_refuses hg hk fun _ hf => hlex.lexical hf
  have ht : tokens = passed ++ t :: more := ht
  have htake : tokens.take (passed.length + 1) = passed ++ [t] := by
    rw [ht,List.take_append]
    simp
  refine ⟨passed.length,t,by simp [ht],hl,⟨⟨by simp [ht],by rwa [htake]⟩,?_⟩,by simpa [ht] using hv⟩
  rintro i ⟨hi,hbad⟩
  by_contra hlt
  refine hbad ?_
  have hsplit : passed = tokens.take (i + 1) ++ passed.drop (i + 1) := by
    rw [ht,List.take_append_of_le_length (by omega),List.take_append_drop]
  rw [hsplit,List.map_append] at hv
  exact hv.of_append

/-- A block that is closed with the keyword of the block around it. -/
theorem syntax_error_of_crossed_blocks :
    let src : Bytes := "IF 1 < 2 THEN\nWHILE 1 < 2 REPEAT\nENDIF\nENDWHILE"
    let d : Diagnostic := ⟨⟨3,.grammar (.invalidStatement (.keyword .endif) "ENDIF")⟩,"ENDIF"⟩
    let tokens := (TokenStream.ofChars (decode (preprocess src))).upToFault.1
    (compileText src).2 = .error (.diagnostic d) ∧ d.cause.kind = .syntactic ∧
      ∃ k t, tokens[k]? = some t ∧ d.line = t.line ∧
        IsLeast {i | i < tokens.length ∧ ¬Viable ((tokens.take (i + 1)).map Token.kind)} k ∧
        Viable ((tokens.take k).map Token.kind) := by
  intro src d tokens
  have h : (compileText src).2 = .error (.diagnostic d) :=
    error_of_diagnostic? (by decide +kernel)
  exact ⟨h,rfl,compileText_syntax_error h rfl⟩

end TeenyTiny
