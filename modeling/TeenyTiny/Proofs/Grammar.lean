import Mathlib.Computability.Language
import TeenyTiny.Proofs.Layout

/-! The grammar of the language over kinds of tokens, in the notation with repetition and options
in which it is documented, and the syntax trees as its derivations. -/
namespace TeenyTiny
namespace Grammar

inductive Rule where
  | program | statement | comparison | expression | term | unary | primary | lineEnd
  deriving DecidableEq, Repr

/-- The right-hand side of a rule; `*` joins parts and `+` joins alternatives. -/
inductive Form where
  | token (k : Kind)
  | rule (r : Rule)
  | seq (a b : Form)
  | alt (a b : Form)
  | opt (a : Form)
  | many (a : Form)
  deriving DecidableEq, Repr

instance : Mul Form := ⟨.seq⟩
instance : Add Form := ⟨.alt⟩

def word (k : Keyword) : Form := .token (.keyword k)

def comparisonOperator : Form :=
  .token (.comparison .eq) + .token (.comparison .ne) + .token (.comparison .lt) +
    .token (.comparison .le) + .token (.comparison .gt) + .token (.comparison .ge)

def Rule.form : Rule → Form
  | program => .many (.token .newline) * .many (.rule statement) * .token .eof
  | statement =>
    (word .print * (.token .string + .rule expression) +
      word .if_ * .rule comparison * word .then_ * .rule lineEnd * .many (.rule statement) *
        word .endif +
      word .while_ * .rule comparison * word .repeat_ * .rule lineEnd * .many (.rule statement) *
        word .endwhile +
      word .label * .token .ident +
      word .goto * .token .ident +
      word .let_ * .token .ident * .token .assign * .rule expression +
      word .input * .token .ident) * .rule lineEnd
  | comparison =>
    .rule expression * comparisonOperator * .rule expression *
      .many (comparisonOperator * .rule expression)
  | expression => .rule term * .many ((.token .plus + .token .minus) * .rule term)
  | term => .rule unary * .many ((.token .times + .token .slash) * .rule unary)
  | unary => .opt (.token .plus + .token .minus) * .rule primary
  | primary => .token .number + .token .ident
  | lineEnd => .token .newline * .many (.token .newline)

inductive Derives : Form → List Kind → Prop
  | token (k : Kind) : Derives (.token k) [k]
  | rule {r : Rule} {ks : List Kind} (h : Derives r.form ks) : Derives (.rule r) ks
  | seq {a b : Form} {ks ls : List Kind} (h : Derives a ks) (h' : Derives b ls) :
    Derives (a * b) (ks ++ ls)
  | left {a b : Form} {ks : List Kind} (h : Derives a ks) : Derives (a + b) ks
  | right {a b : Form} {ks : List Kind} (h : Derives b ks) : Derives (a + b) ks
  | absent {a : Form} : Derives (.opt a) []
  | present {a : Form} {ks : List Kind} (h : Derives a ks) : Derives (.opt a) ks
  | done {a : Form} : Derives (.many a) []
  | more {a : Form} {ks ls : List Kind} (h : Derives a ks) (h' : Derives (.many a) ls) :
    Derives (.many a) (ks ++ ls)

/-- The pieces that a form allows, when the pieces of every rule are given. -/
def Form.language (phrases : Rule → Language Piece) : Form → Language Piece
  | token k => {ps | ∃ p, ps = [p] ∧ p.kind = k ∧ p.WellFormed}
  | rule r => phrases r
  | seq a b => a.language phrases * b.language phrases
  | alt a b => a.language phrases + b.language phrases
  | opt a => 1 + a.language phrases
  | many a => KStar.kstar (a.language phrases)

/-- The derivations are the least languages that the rules allow. -/
theorem Derives.mem_language {phrases : Rule → Language Piece}
    (hr : ∀ r, ∀ ps ∈ r.form.language phrases, ps ∈ phrases r) {f : Form} {ks : List Kind}
    (h : Derives f ks) {ps : List Piece} (hp : ∀ p ∈ ps, p.WellFormed)
    (hk : ps.map Piece.kind = ks) : ps ∈ f.language phrases := by
  induction h generalizing ps with
  | token k =>
    obtain ⟨p,rfl,rfl⟩ := List.map_eq_singleton_iff.mp hk
    exact ⟨p,rfl,rfl,hp p (by simp)⟩
  | rule h ih => exact hr _ _ (ih hp hk)
  | seq h h' ih ih' =>
    obtain ⟨qs,rs,rfl,hq,hs⟩ := List.map_eq_append_iff.mp hk
    exact Language.mem_mul.mpr ⟨qs,ih (fun p h => hp p (by simp [h])) hq,rs,
      ih' (fun p h => hp p (by simp [h])) hs,rfl⟩
  | left h ih => exact Or.inl (ih hp hk)
  | right h ih => exact Or.inr (ih hp hk)
  | absent =>
    obtain rfl := List.map_eq_nil_iff.mp hk
    exact Or.inl rfl
  | present h ih => exact Or.inr (ih hp hk)
  | done =>
    obtain rfl := List.map_eq_nil_iff.mp hk
    exact ⟨[],rfl,by simp⟩
  | more h h' ih ih' =>
    obtain ⟨qs,rs,rfl,hq,hs⟩ := List.map_eq_append_iff.mp hk
    obtain ⟨parts,rfl,hparts⟩ := ih' (fun p h => hp p (by simp [h])) hs
    refine ⟨qs :: parts,rfl,?_⟩
    intro part hm
    rcases List.mem_cons.mp hm with rfl | hm
    · exact ih (fun p h => hp p (by simp [h])) hq
    · exact hparts part hm

end Grammar
end TeenyTiny
