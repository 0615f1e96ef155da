import TeenyTiny.Proofs.Ast

/-! Blank lines. A line may be ended by any number of line feeds, and any number may stand before
the first line; what is left without them is the same for every layout of a program. -/
namespace TeenyTiny
namespace Piece

/-- `Spread ps qs` says that `qs` is `ps` with line feeds repeated in place. -/
inductive Spread : List Piece → List Piece → Prop
  | nil : Spread [] []
  | cons (p : Piece) {ps qs : List Piece} (h : Spread ps qs) : Spread (p :: ps) (p :: qs)
  | again {ps qs : List Piece} (h : Spread (newline :: ps) qs) :
    Spread (newline :: ps) (newline :: qs)

namespace Spread

theorem refl (ps : List Piece) : Spread ps ps := by
  induction ps with
  | nil => exact nil
  | cons p ps ih => exact cons p ih

@[simp] theorem nil_iff {qs : List Piece} : Spread [] qs ↔ qs = [] := by
  constructor
  · intro h; cases h; rfl
  · rintro rfl; exact nil

theorem append {ps qs ps' qs' : List Piece} (h : Spread ps qs) (h' : Spread ps' qs') :
    Spread (ps ++ ps') (qs ++ qs') := by
  induction h with
  | nil => exact h'
  | cons p _ ih => exact cons p ih
  | again _ ih => exact again ih

theorem append_iff {ps ps' qs : List Piece} :
    Spread (ps ++ ps') qs ↔ ∃ rs rs', qs = rs ++ rs' ∧ Spread ps rs ∧ Spread ps' rs' := by
  constructor
  · intro h
    -- the cut may fall on a line feed that is repeated, which then belongs to the first part
    generalize hs : ps ++ ps' = whole at h
    induction h generalizing ps with
    | nil =>
      obtain ⟨rfl,rfl⟩ := List.append_eq_nil_iff.mp hs
      exact ⟨[],[],rfl,nil,nil⟩
    | @cons p _ qs h ih =>
      cases ps with
      | nil =>
        rw [List.nil_append] at hs
        exact ⟨[],_,rfl,nil,hs ▸ cons p h⟩
      | cons r ps =>
        obtain ⟨rfl,ht⟩ := List.cons_eq_cons.mp hs
        obtain ⟨rs,rs',rfl,hr,hr'⟩ := ih ht
        exact ⟨r :: rs,rs',rfl,cons r hr,hr'⟩
    | again h ih =>
      cases ps with
      | nil =>
        rw [List.nil_append] at hs
        exact ⟨[],_,rfl,nil,hs ▸ again h⟩
      | cons r ps =>
        obtain ⟨rs,rs',rfl,hr,hr'⟩ := ih hs
        obtain ⟨rfl,-⟩ := List.cons_eq_cons.mp hs
        exact ⟨newline :: rs,rs',rfl,again hr,hr'⟩
  · rintro ⟨rs,rs',rfl,h,h'⟩
    exact h.append h'

theorem eq_of_ne_newline {ps qs : List Piece} (hp : ∀ p ∈ ps, p.kind ≠ .newline)
    (h : Spread ps qs) : qs = ps := by
  induction h with
  | nil => rfl
  | cons p h ih => rw [ih (fun q hq => hp q (by simp [hq]))]
  | again h ih => exact absurd rfl (hp newline (by simp))

theorem length_le {ps qs : List Piece} (h : Spread ps qs) : ps.length ≤ qs.length := by
  induction h with
  | nil => exact le_rfl
  | cons p h ih => simpa using ih
  | again h ih => exact ih.trans (by simp)

theorem head_eq {p q : Piece} {ps qs : List Piece} (h : Spread (p :: ps) (q :: qs)) : q = p := by
  cases h with
  | cons _ h => rfl
  | again h => rfl

/-- Only the line feed behind the pieces of a line is repeated. -/
theorem line_iff {ps qs : List Piece} (hp : ∀ p ∈ ps, p.kind ≠ .newline) :
    Spread (ps ++ [newline]) qs ↔ ∃ feeds, qs = ps ++ feeds ∧ Spread [newline] feeds := by
  constructor
  · intro h
    obtain ⟨rs,feeds,rfl,hr,hf⟩ := append_iff.mp h
    exact ⟨feeds,by rw [eq_of_ne_newline hp hr],hf⟩
  · rintro ⟨feeds,rfl,hf⟩
    exact (refl ps).append hf

/-- One line feed stands for any positive number of them. -/
theorem newline_iff {qs : List Piece} :
    Spread [newline] qs ↔ ∃ n, qs = List.replicate (n+1) newline := by
  constructor
  · intro h
    generalize hs : [newline] = ps at h
    induction h with
    | nil => cases hs
    | cons p h ih =>
      obtain ⟨rfl,rfl⟩ := List.cons_eq_cons.mp hs
      rw [nil_iff] at h
      exact ⟨0,by simp [h]⟩
    | again h ih =>
      obtain ⟨n,rfl⟩ := ih hs
      exact ⟨n+1,rfl⟩
  · rintro ⟨n,rfl⟩
    induction n with
    | zero => exact refl [newline]
    | succ n ih => exact again ih

end Spread

/-- Leaves out line feeds behind other line feeds. -/
def squeezeAfter : (afterFeed : Bool) → List Piece → List Piece
  | _,[] => []
  | afterFeed,p :: ps =>
    if p.kind = .newline then
      if afterFeed then squeezeAfter true ps else p :: squeezeAfter true ps
    else p :: squeezeAfter false ps

/-- Leaves out the line feeds at the start and all but one of those in a row. -/
def squeeze (ps : List Piece) : List Piece := squeezeAfter true ps

@[simp] theorem squeezeAfter_newline (ps : List Piece) :
    squeezeAfter true (newline :: ps) = squeezeAfter true ps := rfl

theorem squeezeAfter_sublist (afterFeed : Bool) (ps : List Piece) :
    (squeezeAfter afterFeed ps).Sublist ps := by
  induction ps generalizing afterFeed with
  | nil => exact .slnil
  | cons p ps ih =>
    rw [squeezeAfter]
    split_ifs with hp hf
    · exact (ih true).cons p
    · exact (ih true).cons_cons p
    · exact (ih false).cons_cons p

theorem squeezeAfter_spread {ps qs : List Piece} (h : Spread ps qs) (afterFeed : Bool) :
    squeezeAfter afterFeed qs = squeezeAfter afterFeed ps := by
  induction h generalizing afterFeed with
  | nil => rfl
  | cons p h ih => simp only [squeezeAfter,ih]
  | again h ih =>
    have hf := ih true
    rw [squeezeAfter_newline] at hf
    simp only [squeezeAfter,hf,newline_kind,if_true]

theorem squeeze_replicate (n : Nat) (ps : List Piece) :
    squeeze (List.replicate n newline ++ ps) = squeeze ps := by
  induction n with
  | zero => rfl
  | succ n ih => simpa [squeeze,List.replicate_succ] using ih

end Piece

namespace Ast
open Piece

/-- Pieces other than line feeds, with one line feed behind them, stay. -/
theorem squeezeAfter_line (ps : List Piece) (h : ∀ p ∈ ps, p.kind ≠ .newline) (hne : ps ≠ [])
    (afterFeed : Bool) (rest : List Piece) :
    squeezeAfter afterFeed (ps ++ newline :: rest) = ps ++ newline :: squeezeAfter true rest := by
  induction ps generalizing afterFeed with
  | nil => exact absurd rfl hne
  | cons p ps ih =>
    have hp : p.kind ≠ .newline := h p (by simp)
    rw [List.cons_append,squeezeAfter,if_neg hp]
    cases ps with
    | nil => rfl
    | cons q ps => rw [ih (fun r hr => h r (by simp [hr])) (by simp)]; rfl

theorem ne_newline_of_isCopied {ps : List Piece} (h : ∀ p ∈ ps, p.kind.isCopied) :
    ∀ p ∈ ps, p.kind ≠ .newline := by
  intro p hp hk
  have hc := h p hp
  rw [hk] at hc
  cases hc

theorem Expression.kind_ne_newline (e : Expression) : ∀ p ∈ e.pieces, p.kind ≠ .newline :=
  ne_newline_of_isCopied e.isCopied

theorem Condition.kind_ne_newline (c : Condition) : ∀ p ∈ c.pieces, p.kind ≠ .newline :=
  ne_newline_of_isCopied c.isCopied

mutual

theorem Statement.squeezeAfter_pieces (s : Statement) (afterFeed : Bool) (rest : List Piece) :
    squeezeAfter afterFeed (s.pieces ++ rest) = s.pieces ++ squeezeAfter true rest := by
  match s with
  | .printText _ | .label _ | .goto _ | .input _ =>
    simp [Statement.pieces,squeezeAfter]
  | .printValue value =>
    have h := squeezeAfter_line (keyword .print :: value.pieces)
      (by simpa using value.kind_ne_newline) (by simp) afterFeed rest
    simpa [Statement.pieces] using h
  | .assign name value =>
    have h := squeezeAfter_line (keyword .let_ :: ident name :: Piece.assign :: value.pieces)
      (by simpa using value.kind_ne_newline) (by simp) afterFeed rest
    simpa [Statement.pieces] using h
  | .block kind condition body =>
    have hc : ∀ p ∈ keyword kind.start :: condition.pieces ++ [keyword kind.opener],
        p.kind ≠ .newline := by
      simpa [or_imp,forall_and] using condition.kind_ne_newline
    have h := squeezeAfter_line _ hc (by simp) afterFeed
      (Block.pieces body ++ ([keyword kind.closer,newline] ++ rest))
    rw [Block.squeezeAfter_pieces body] at h
    simpa [Statement.pieces,squeezeAfter] using h

theorem Block.squeezeAfter_pieces (b : List Statement) (rest : List Piece) :
    squeezeAfter true (Block.pieces b ++ rest) = Block.pieces b ++ squeezeAfter true rest := by
  match b with
  | [] => rfl
  | s :: b =>
    rw [Block.pieces,List.append_assoc,Statement.squeezeAfter_pieces s,
      Block.squeezeAfter_pieces b,List.append_assoc]

end

/-- Every layout of a program squeezes to the pieces of its tree. -/
theorem Block.squeeze_of_spread (b : Block) {qs : List Piece} (h : Spread b.program qs)
    (n : Nat) : squeeze (List.replicate n newline ++ qs) = b.program := by
  rw [squeeze_replicate,squeeze,squeezeAfter_spread h,Block.program,Block.squeezeAfter_pieces]
  rfl

end Ast
end TeenyTiny
