import TeenyTiny.Proofs.Statements

/-! Every list of pieces is spelled by at most one tree. Where a tree ends is seen from the kind
of the piece behind it. -/
namespace TeenyTiny
open Piece Generator

namespace Ast

/-- The first of these pieces, if there is any, may stand behind a tree. -/
def Follows (follow : Kind → Prop) (ps : List Piece) : Prop := ∀ p ∈ ps.head?, follow p.kind

theorem follows_cons {follow : Kind → Prop} {p : Piece} {ps : List Piece} :
    Follows follow (p :: ps) ↔ follow p.kind := by
  simp [Follows]

theorem Follows.mono {follow follow' : Kind → Prop} {ps : List Piece} (h : Follows follow ps)
    (hf : ∀ k, follow k → follow' k) : Follows follow' ps :=
  fun p hp => hf _ (h p hp)

/-- A tree and what follows it are told apart. -/
def Unambiguous {τ : Type} (pieces : τ → List Piece) (follow : Kind → Prop) : Prop :=
  ∀ {t t' : τ} {r r' : List Piece}, Follows follow r → Follows follow r' →
    pieces t ++ r = pieces t' ++ r' → t = t' ∧ r = r'

theorem Primary.piece_inj {p q : Primary} (h : p.piece = q.piece) : p = q := by
  cases p <;> cases q <;> simp_all [Primary.piece,Piece.number,Piece.ident]

theorem Sign.piece_inj {s t : Sign} (h : s.piece = t.piece) : s = t := by
  cases s <;> cases t <;> simp_all [Sign.piece]

theorem Scaling.piece_inj {s t : Scaling} (h : s.piece = t.piece) : s = t := by
  cases s <;> cases t <;> simp_all [Scaling.piece]

theorem comparison_inj {a b : Comparison} (h : Piece.comparison a = Piece.comparison b) :
    a = b := by
  simpa using congrArg Piece.kind h

theorem Sign.piece_ne_primary (s : Sign) (p : Primary) : s.piece ≠ p.piece := by
  cases s <;> cases p <;> simp [Sign.piece,Primary.piece,Piece.number,Piece.ident]

theorem unambiguous_unary : Unambiguous Unary.pieces (fun _ => True) := by
  rintro ⟨sign,p⟩ ⟨sign',p'⟩ r r' - - h
  cases sign with
  | none =>
    cases sign' with
    | none =>
      obtain ⟨hp,hr⟩ : p.piece = p'.piece ∧ r = r' := List.cons_eq_cons.mp h
      rw [Primary.piece_inj hp]
      exact ⟨rfl,hr⟩
    | some s => exact absurd (List.cons_eq_cons.mp h).1.symm (s.piece_ne_primary p)
  | some s =>
    cases sign' with
    | none => exact absurd (List.cons_eq_cons.mp h).1 (s.piece_ne_primary p')
    | some s' =>
      obtain ⟨hs,h⟩ := List.cons_eq_cons.mp h
      obtain ⟨hp,hr⟩ : p.piece = p'.piece ∧ r = r' := List.cons_eq_cons.mp h
      rw [Primary.piece_inj hp,Sign.piece_inj hs]
      exact ⟨rfl,hr⟩

section Chains
variable {Op Member : Type} {op : Op → Piece} {member : Member → List Piece}
  {p : Kind → Bool} {follow : Kind → Prop}

/-- Behind a member comes an operator or what may follow the chain. -/
theorem follows_tail (hop : Operators op p) (hf : ∀ k, p k = true → follow k)
    (rest : List (Op × Member)) {r : List Piece} (hr : Follows follow r) :
    Follows follow (Chain.tail op member rest ++ r) := by
  cases rest with
  | nil => exact hr
  | cons x rest => exact follows_cons.mpr (hf _ (hop.kind x.1))

/-- An operator does not follow a chain. -/
theorem tail_ne (hop : Operators op p) {x : Op × Member} {rest : List (Op × Member)}
    {r r' : List Piece} (hr : Follows (fun k => follow k ∧ p k = false) r) :
    r ≠ Chain.tail op member (x :: rest) ++ r' := by
  rintro rfl
  have hx := (follows_cons.mp hr).2
  rw [hop.kind x.1] at hx
  cases hx

theorem unambiguous_tail (hop : Operators op p) (hinj : ∀ {o o'}, op o = op o' → o = o')
    (hf : ∀ k, p k = true → follow k) (hm : Unambiguous member follow) :
    Unambiguous (Chain.tail op member) (fun k => follow k ∧ p k = false) := by
  intro rest rest' r r' hr hr' h
  induction rest generalizing rest' with
  | nil =>
    cases rest' with
    | nil => exact ⟨rfl,h⟩
    | cons x rest' => exact absurd h (tail_ne hop hr)
  | cons x rest ih =>
    cases rest' with
    | nil => exact absurd h.symm (tail_ne hop hr')
    | cons x' rest' =>
      obtain ⟨o,m⟩ := x
      obtain ⟨o',m'⟩ := x'
      simp only [Chain.tail_cons,List.cons_append,List.append_assoc,List.cons.injEq] at h
      obtain ⟨ho,h₁⟩ := h
      obtain ⟨rfl,h₂⟩ := hm (follows_tail hop hf rest (hr.mono fun _ hk => hk.1))
        (follows_tail hop hf rest' (hr'.mono fun _ hk => hk.1)) h₁
      obtain ⟨rfl,h₃⟩ := ih h₂
      rw [hinj ho]
      exact ⟨rfl,h₃⟩

theorem unambiguous_chain (hop : Operators op p) (hinj : ∀ {o o'}, op o = op o' → o = o')
    (hf : ∀ k, p k = true → follow k) (hm : Unambiguous member follow) :
    Unambiguous (Chain.pieces op member) (fun k => follow k ∧ p k = false) := by
  rintro ⟨m,rest⟩ ⟨m',rest'⟩ r r' hr hr' h
  simp only [Chain.pieces,List.append_assoc] at h
  obtain ⟨rfl,h₁⟩ := hm (follows_tail hop hf rest (hr.mono fun _ hk => hk.1))
    (follows_tail hop hf rest' (hr'.mono fun _ hk => hk.1)) h
  obtain ⟨rfl,h₂⟩ := unambiguous_tail hop hinj hf hm hr hr' h₁
  exact ⟨rfl,h₂⟩

end Chains

theorem unambiguous_term : Unambiguous Term.pieces endsTerm := by
  intro t t' r r' hr hr' h
  refine unambiguous_chain operators_scaling Scaling.piece_inj (fun _ _ => trivial)
    unambiguous_unary (hr.mono fun _ hk => ⟨trivial,hk⟩) (hr'.mono fun _ hk => ⟨trivial,hk⟩) h

theorem unambiguous_expression : Unambiguous Expression.pieces endsExpression :=
  unambiguous_chain operators_sign Sign.piece_inj endsTerm_of_isSign unambiguous_term

theorem unambiguous_condition : Unambiguous Condition.pieces endsComparison := by
  rintro ⟨c,hc⟩ ⟨c',hc'⟩ r r' hr hr' h
  obtain ⟨rfl,h₁⟩ := unambiguous_chain operators_comparison comparison_inj
    endsExpression_of_isComparison unambiguous_expression hr hr' h
  exact ⟨rfl,h₁⟩

theorem keyword_inj {k k' : Keyword} (h : Piece.keyword k = Piece.keyword k') : k = k' := by
  simpa using congrArg Piece.kind h

theorem follows_newline (r : List Piece) : Follows endsExpression (.newline :: r) :=
  follows_cons.mpr ⟨rfl,rfl⟩

/-- A kind that no statement begins with. -/
def endsBlock (k : Kind) : Prop := ∀ s : Statement, k ≠ .keyword s.start

mutual

theorem Statement.pieces_inj (s s' : Statement) {r r' : List Piece}
    (h : s.pieces ++ r = s'.pieces ++ r') : s = s' ∧ r = r' := by
  have hs : s.start = s'.start := by
    obtain ⟨ps,hp⟩ := s.pieces_head
    obtain ⟨ps',hp'⟩ := s'.pieces_head
    rw [hp,hp'] at h
    exact keyword_inj (List.cons_eq_cons.mp h).1
  cases s with
  | printText text =>
    cases s' with
    | printText text' => simpa [Statement.pieces,Piece.string] using h
    | printValue value =>
      obtain ⟨p,ps,hp,hk⟩ := value.pieces_head
      rw [Statement.pieces,Statement.pieces,hp] at h
      have hx := (List.cons_eq_cons.mp (List.cons_eq_cons.mp h).2).1
      exact absurd (congrArg Piece.kind hx).symm hk
    | block kind => cases kind <;> cases hs
    | _ => cases hs
  | printValue value =>
    cases s' with
    | printText text =>
      obtain ⟨p,ps,hp,hk⟩ := value.pieces_head
      rw [Statement.pieces,Statement.pieces,hp] at h
      have hx := (List.cons_eq_cons.mp (List.cons_eq_cons.mp h).2).1
      exact absurd (congrArg Piece.kind hx) hk
    | printValue value' =>
      simp only [Statement.pieces,List.cons_append,List.append_assoc,List.nil_append,
        List.cons.injEq,true_and] at h
      obtain ⟨rfl,h₁⟩ := unambiguous_expression (follows_newline r) (follows_newline r') h
      exact ⟨rfl,(List.cons_eq_cons.mp h₁).2⟩
    | block kind => cases kind <;> cases hs
    | _ => cases hs
  | block kind condition body =>
    cases s' with
    | block kind' condition' body' =>
      have hkind : kind = kind' := by cases kind <;> cases kind' <;> first | rfl | cases hs
      subst hkind
      simp only [Statement.pieces,List.cons_append,List.append_assoc,List.nil_append,
        List.cons.injEq,true_and] at h
      have hopen : ∀ r, Follows endsComparison (Piece.keyword kind.opener :: r) := fun r =>
        follows_cons.mpr (endsComparison_opener kind)
      have hclose : ∀ r, Follows endsBlock (Piece.keyword kind.closer :: r) := fun r =>
        follows_cons.mpr fun s hk => s.start_ne_closer kind (Kind.keyword.inj hk).symm
      obtain ⟨rfl,h₁⟩ := unambiguous_condition (hopen _) (hopen _) h
      simp only [List.cons.injEq,true_and] at h₁
      obtain ⟨rfl,h₂⟩ := Block.pieces_inj body body' (hclose _) (hclose _) h₁
      simp only [List.cons.injEq,true_and] at h₂
      exact ⟨rfl,h₂⟩
    | _ => cases kind <;> cases hs
  | label n =>
    cases s' with
    | label n' => simpa [Statement.pieces,Piece.ident] using h
    | block kind => cases kind <;> cases hs
    | _ => cases hs
  | goto n =>
    cases s' with
    | goto n' => simpa [Statement.pieces,Piece.ident] using h
    | block kind => cases kind <;> cases hs
    | _ => cases hs
  | input n =>
    cases s' with
    | input n' => simpa [Statement.pieces,Piece.ident] using h
    | block kind => cases kind <;> cases hs
    | _ => cases hs
  | assign n value =>
    cases s' with
    | assign n' value' =>
      simp only [Statement.pieces,List.cons_append,List.append_assoc,List.nil_append,
        List.cons.injEq,true_and] at h
      obtain ⟨hn,h₁⟩ := h
      obtain ⟨rfl,h₂⟩ := unambiguous_expression (follows_newline r) (follows_newline r') h₁
      obtain rfl : n = n' := congrArg Piece.lexeme hn
      exact ⟨rfl,(List.cons_eq_cons.mp h₂).2⟩
    | block kind => cases kind <;> cases hs
    | _ => cases hs

theorem Block.pieces_inj (b b' : List Statement) {r r' : List Piece} (hr : Follows endsBlock r)
    (hr' : Follows endsBlock r') (h : Block.pieces b ++ r = Block.pieces b' ++ r') :
    b = b' ∧ r = r' := by
  cases b with
  | nil =>
    cases b' with
    | nil => exact ⟨rfl,h⟩
    | cons s' b' =>
      obtain ⟨ps,hp⟩ := s'.pieces_head
      have h : r = s'.pieces ++ Block.pieces b' ++ r' := h
      rw [h,hp] at hr
      exact absurd rfl (follows_cons.mp hr s')
  | cons s b =>
    cases b' with
    | nil =>
      obtain ⟨ps,hp⟩ := s.pieces_head
      have h : s.pieces ++ Block.pieces b ++ r = r' := h
      rw [← h,hp] at hr'
      exact absurd rfl (follows_cons.mp hr' s)
    | cons s' b' =>
      simp only [Block.pieces,List.append_assoc] at h
      obtain ⟨rfl,h₁⟩ := Statement.pieces_inj s s' h
      obtain ⟨rfl,h₂⟩ := Block.pieces_inj b b' hr hr' h₁
      exact ⟨rfl,h₂⟩

end

/-- A program has one tree. -/
theorem Block.program_inj {b b' : Block} (h : b.program = b'.program) : b = b' := by
  have hr : Follows endsBlock [.eof] := follows_cons.mpr fun s hk => by cases hk
  exact (Block.pieces_inj b b' hr hr h).1

end Ast
end TeenyTiny
