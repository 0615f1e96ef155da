import TeenyTiny.Proofs.Goals

/-! Layout does not matter. Two sources that have the same tokens but for repeated line feeds are
run side by side: the goals of the two runs are the same, only the line feeds between them are
passed at different times, and the tables and the faults differ in nothing but lines. -/
namespace TeenyTiny
open Text Piece Ast

/-- A cause without the line that it refers to. -/
def Cause.unlined : Cause → Cause
  | .name (.duplicateLabel n _) => .name (.duplicateLabel n 0)
  | cause => cause

theorem Cause.kind_unlined (cause : Cause) : cause.unlined.kind = cause.kind := by
  rcases cause with _ | _ | ⟨_ | _ | _ | _⟩ <;> rfl

theorem Cause.rule?_unlined (cause : Cause) : cause.unlined.rule? = cause.rule? := by
  rcases cause with _ | _ | ⟨_ | _ | _ | _⟩ <;> rfl

theorem Token.text_eq {t t₁ : Token} (h : t.piece = t₁.piece) : t.text = t₁.text :=
  congrArg encode (congrArg Piece.lexeme h)

namespace Symbols

/-- Tables with the same names, on whatever lines. -/
structure Alike (s s₁ : Symbols) : Prop where
  names : s.names = s₁.names
  labels : s.labels.map LabelLine.name = s₁.labels.map LabelLine.name
  gotos : s.gotos.map LabelLine.name = s₁.gotos.map LabelLine.name

variable {s s₁ : Symbols}

theorem Alike.refl (s : Symbols) : s.Alike s := ⟨rfl,rfl,rfl⟩

theorem isNone_findLabel? (s : Symbols) (n : Bytes) :
    (s.findLabel? n).isNone = !(s.labels.map LabelLine.name).contains n := by
  rw [Bool.eq_iff_iff]
  simp [findLabel?]

theorem Alike.isNone_findLabel? (h : s.Alike s₁) (n : Bytes) :
    (s.findLabel? n).isNone = (s₁.findLabel? n).isNone := by
  rw [Symbols.isNone_findLabel?,Symbols.isNone_findLabel?,h.labels]

theorem Alike.isDefined (h : s.Alike s₁) (n : Bytes) : s.isDefined n = s₁.isDefined n :=
  congrArg (List.contains · n) h.names

theorem Alike.define (h : s.Alike s₁) (n : Bytes) :
    (s.define n).1 = (s₁.define n).1 ∧ (s.define n).2.Alike (s₁.define n).2 := by
  unfold Symbols.define
  rw [h.isDefined]
  split
  · exact ⟨rfl,h⟩
  · exact ⟨rfl,congrArg (· ++ [n]) h.names,h.labels,h.gotos⟩

theorem Alike.referenceLabel (h : s.Alike s₁) (n : Bytes) (line line₁ : Int) :
    (s.referenceLabel n line).Alike (s₁.referenceLabel n line₁) := by
  have hany : s.gotos.any (·.name == n) = s₁.gotos.any (·.name == n) := by
    have hm := congrArg (List.any · (· == n)) h.gotos
    rw [List.any_map,List.any_map] at hm
    exact hm
  unfold Symbols.referenceLabel
  rw [hany]
  split
  · exact h
  · exact ⟨h.names,h.labels,by simp [h.gotos]⟩

/-- A label is declared already in both tables or in none. -/
theorem Alike.declareLabel (h : s.Alike s₁) (n : Bytes) (line line₁ : Int) :
    (∃ first first₁, s.declareLabel n line = (some first,s) ∧
      s₁.declareLabel n line₁ = (some first₁,s₁)) ∨
      ∃ s' s₁', s.declareLabel n line = (none,s') ∧ s₁.declareLabel n line₁ = (none,s₁') ∧
        s'.Alike s₁' := by
  have hf := h.isNone_findLabel? n
  unfold Symbols.declareLabel
  cases hs : s.findLabel? n with
  | none =>
    rw [hs] at hf
    rw [Option.isNone_iff_eq_none.mp hf.symm]
    exact .inr ⟨_,_,rfl,rfl,h.names,by simp [h.labels],h.gotos⟩
  | some first =>
    rw [hs] at hf
    obtain ⟨first₁,hs₁⟩ := Option.isSome_iff_exists.mp (Option.isNone_eq_false_iff.mp hf.symm)
    rw [hs₁]
    exact .inl ⟨first,first₁,rfl,rfl⟩

theorem map_unresolved (s : Symbols) : s.unresolved.map LabelLine.name =
    (s.gotos.map LabelLine.name).filter fun n => (s.findLabel? n).isNone := by
  rw [List.filter_map]
  rfl

theorem Alike.unresolved (h : s.Alike s₁) :
    s.unresolved.map LabelLine.name = s₁.unresolved.map LabelLine.name := by
  rw [map_unresolved,map_unresolved,h.gotos]
  exact List.filter_congr fun n _ => h.isNone_findLabel? n

end Symbols

namespace Piece

theorem headD_squeezeAfter (ps : List Piece) :
    (squeezeAfter false ps).headD eof = ps.headD eof := by
  cases ps with
  | nil => rfl
  | cons p ps =>
    rw [squeezeAfter,if_neg Bool.false_ne_true]
    split_ifs <;> rfl

theorem tail_squeezeAfter (ps : List Piece) : (squeezeAfter false ps).tail =
    squeezeAfter (decide ((ps.headD eof).kind = .newline)) ps.tail := by
  cases ps with
  | nil => rfl
  | cons p ps =>
    rw [squeezeAfter,if_neg Bool.false_ne_true]
    by_cases hp : p.kind = .newline <;> simp [hp]

/-- In front of another piece it does not matter what has been passed. -/
theorem squeezeAfter_of_headD {ps : List Piece} (h : (ps.headD eof).kind ≠ .newline) :
    squeezeAfter true ps = squeezeAfter false ps := by
  cases ps with
  | nil => rfl
  | cons p ps =>
    have hp : p.kind ≠ .newline := h
    rw [squeezeAfter,squeezeAfter,if_neg hp,if_neg hp]

theorem squeezeAfter_feed {ps : List Piece} (h : (ps.headD eof).kind = .newline) :
    squeezeAfter true ps = squeezeAfter true ps.tail := by
  cases ps with
  | nil => rfl
  | cons p ps =>
    have hp : p.kind = .newline := h
    rw [squeezeAfter,if_pos hp,if_pos rfl,List.tail_cons]

theorem squeezeAfter_concat {p : Piece} (hp : p.kind ≠ .newline) (afterFeed : Bool)
    (ps : List Piece) : squeezeAfter afterFeed (ps ++ [p]) = squeezeAfter afterFeed ps ++ [p] := by
  induction ps generalizing afterFeed with
  | nil => simp [squeezeAfter,hp]
  | cons q ps ih =>
    simp only [List.cons_append,squeezeAfter,ih]
    split_ifs <;> rfl

end Piece

namespace Generator

/-- Tokens are ahead, with no faults among them. -/
def Ahead (g : Generator) (us : List Token) : Prop :=
  ∃ k, .ok g.current :: .ok g.next :: g.stream.items =
    us.map .ok ++ List.replicate k (.ok g.stream.endToken)

section Ahead
variable {g : Generator} {us : List Token}

theorem Ahead.current_piece (h : g.Ahead us) :
    g.current.piece = (us.map Token.piece).headD eof := by
  obtain ⟨k,hk⟩ := h
  cases us with
  | nil =>
    cases k with
    | zero => cases hk
    | succ k =>
      obtain hc : g.current = g.stream.endToken := by
        simpa using (List.cons_eq_cons.mp hk).1
      rw [hc]
      rfl
  | cons t us =>
    obtain hc : g.current = t := by simpa using (List.cons_eq_cons.mp hk).1
    rw [hc]
    rfl

theorem Ahead.current_kind (h : g.Ahead us) :
    g.current.kind = ((us.map Token.piece).headD eof).kind :=
  congrArg Piece.kind h.current_piece

theorem Ahead.advance (h : g.Ahead us) :
    ∃ g', advance g = .ok () g' ∧ g'.Ahead us.tail ∧ Untouched g g' := by
  obtain ⟨g',ha⟩ := exists_advance_of_window h (by simp)
  have hw := window_next h ha
  rw [← List.map_tail] at hw
  exact ⟨g',ha,hw,untouched_of_advance ha⟩

end Ahead

/-- Two runs at the same point. Behind a line feed they may have passed another number of them. -/
structure Alike (afterFeed : Bool) (g g₁ : Generator) : Prop where
  ahead : ∃ us vs, g.Ahead us ∧ g₁.Ahead vs ∧
    squeezeAfter afterFeed (us.map Token.piece) = squeezeAfter afterFeed (vs.map Token.piece)
  symbols : g.symbols.Alike g₁.symbols
  listing : g.listing = g₁.listing

/-- Outcomes of two runs: the same success, or the same fault on whatever lines. -/
inductive Agree {α : Type} (R : α → Generator → α → Generator → Prop) :
    Outcome α → Outcome α → Prop
  | ok {a a₁ : α} {g g₁ : Generator} (h : R a g a₁ g₁) : Agree R (.ok a g) (.ok a₁ g₁)
  | error {fault fault₁ : Fault} {g g₁ : Generator}
    (hc : fault.cause.unlined = fault₁.cause.unlined) (hs : g.symbols.Alike g₁.symbols) :
    Agree R (.error fault g) (.error fault₁ g₁)

theorem Agree.bind {α β : Type} {R : α → Generator → α → Generator → Prop}
    {S : β → Generator → β → Generator → Prop} {x : Step α} {f : α → Step β}
    {g g₁ : Generator} (hx : Agree R (x g) (x g₁))
    (hf : ∀ a g' a₁ g₁', R a g' a₁ g₁' → Agree S (f a g') (f a₁ g₁')) :
    Agree S ((x >>= f) g) ((x >>= f) g₁) := by
  change Agree S (EStateM.bind x f g) (EStateM.bind x f g₁)
  unfold EStateM.bind
  revert hx
  generalize x g = r,x g₁ = r₁
  rintro (h | ⟨hc,hs⟩)
  · exact hf _ _ _ _ h
  · exact .error hc hs

/-- Goals that do not begin or end between line feeds. -/
def Goal.isFirm : Goal → Bool
  | .feeds => false
  | .pass kind => kind ≠ .newline
  | _ => true

/-- Line feeds are passed by the first goal or by none. -/
inductive Stacked : Bool → List Goal → Prop
  | firm {goals : List Goal} (h : goals.all Goal.isFirm = true) : Stacked false goals
  | feeds {goals : List Goal} (h : goals.all Goal.isFirm = true) : Stacked true (.feeds :: goals)

theorem Stacked.append {b : Bool} {more goals : List Goal} (h : Stacked b more)
    (hg : goals.all Goal.isFirm = true) : Stacked b (more ++ goals) := by
  cases h with
  | firm h => exact .firm (by rw [List.all_append,h,hg]; rfl)
  | @feeds more h =>
    have hm : (more ++ goals).all Goal.isFirm = true := by rw [List.all_append,h,hg]; rfl
    exact .feeds hm

/-- Both runs are left with the same goals. -/
def Onward (more : List Goal) (g : Generator) (more₁ : List Goal) (g₁ : Generator) : Prop :=
  more = more₁ ∧ ∃ b, Stacked b more ∧ Alike b g g₁

section Alike
variable {b : Bool} {g g₁ : Generator}

theorem Alike.current_piece (h : Alike false g g₁) : g.current.piece = g₁.current.piece := by
  obtain ⟨us,vs,hu,hv,hs⟩ := h.ahead
  rw [hu.current_piece,hv.current_piece,← headD_squeezeAfter,hs,headD_squeezeAfter]

theorem Alike.current_kind (h : Alike false g g₁) : g.current.kind = g₁.current.kind :=
  congrArg Piece.kind h.current_piece

theorem Alike.current_lexeme (h : Alike false g g₁) : g.current.lexeme = g₁.current.lexeme :=
  congrArg Piece.lexeme h.current_piece

theorem Alike.current_text (h : Alike false g g₁) : g.current.text = g₁.current.text :=
  Token.text_eq h.current_piece

theorem Alike.advance (h : Alike false g g₁) : ∃ g' g₁', advance g = .ok () g' ∧
    advance g₁ = .ok () g₁' ∧ Alike (decide (g.current.kind = .newline)) g' g₁' := by
  obtain ⟨us,vs,hu,hv,hs⟩ := h.ahead
  obtain ⟨g',ha,hu',hsym,hlist⟩ := hu.advance
  obtain ⟨g₁',ha₁,hv',hsym₁,hlist₁⟩ := hv.advance
  refine ⟨g',g₁',ha,ha₁,⟨us.tail,vs.tail,hu',hv',?_⟩,?_,?_⟩
  · have ht := congrArg List.tail hs
    rw [tail_squeezeAfter,tail_squeezeAfter,← hu.current_kind,← hv.current_kind,
      ← h.current_kind] at ht
    rw [List.map_tail,List.map_tail,ht]
  · rw [hsym,hsym₁]
    exact h.symbols
  · rw [hlist,hlist₁,h.listing]

theorem Alike.write (h : Alike b g g₁) (cs : List Char) : Alike b (g.write cs) (g₁.write cs) :=
  ⟨h.ahead,h.symbols,congrArg (Listing.emit · (encode cs)) h.listing⟩

theorem Alike.record (h : Alike b g g₁) {s s₁ : Symbols} (hs : s.Alike s₁) (cs : List Char) :
    Alike b ({ g with symbols := s }.write cs) ({ g₁ with symbols := s₁ }.write cs) :=
  ⟨h.ahead,hs,congrArg (Listing.emit · (encode cs)) h.listing⟩

theorem Alike.declared (h : Alike b g g₁) (n : Bytes) : Alike b (g.declared n) (g₁.declared n) := by
  obtain ⟨hnew,hsym⟩ := h.symbols.define n
  refine ⟨h.ahead,hsym,?_⟩
  unfold Generator.declared
  rw [hnew,h.listing]

theorem Alike.prepared (h : Alike b g g₁) (f : Formula) :
    Alike b (g.prepared f) (g₁.prepared f) := by
  cases f with
  | assigned n => exact h.declared _
  | _ => exact h

/-- Goals that are left without a line feed passed. -/
theorem Alike.onward (h : Alike false g g₁) {more : List Goal}
    (hm : more.all Goal.isFirm = true) : Agree Onward (.ok more g) (.ok more g₁) :=
  .ok ⟨rfl,false,.firm hm,h⟩

theorem Alike.stuck (h : Alike b g g₁) (cause : GrammarCause) :
    Agree Onward (g.stuck cause) (g₁.stuck cause) :=
  .error rfl h.symbols

theorem Alike.expect (h : Alike false g g₁) (kind : Kind) :
    Agree (fun t g' t₁ g₁' => t.piece = t₁.piece ∧ Alike (decide (kind = .newline)) g' g₁')
      (expect kind g) (expect kind g₁) := by
  by_cases hk : g.current.kind = kind
  · obtain ⟨g',g₁',ha,ha₁,h'⟩ := h.advance
    rw [expect_ok.mpr ⟨hk,rfl,ha⟩,expect_ok.mpr ⟨h.current_kind ▸ hk,rfl,ha₁⟩]
    exact .ok ⟨h.current_piece,hk ▸ h'⟩
  · unfold Generator.expect
    rw [currentToken_bind,currentToken_bind,← h.current_kind,← h.current_text,if_pos hk,
      if_pos hk]
    exact .error rfl h.symbols

theorem Alike.expecting (h : Alike false g g₁) {kind : Kind} {more : List Goal}
    (hm : Stacked (decide (kind = .newline)) more) :
    Agree Onward (expecting kind more g) (expecting kind more g₁) := by
  rw [expecting_eq,expecting_eq]
  exact (h.expect kind).bind fun t g' t₁ g₁' ht => .ok ⟨rfl,_,hm,ht.2⟩

theorem Alike.name (h : Alike false g g₁) (use : NameUse) :
    Agree (fun t g' t₁ g₁' => t.piece = t₁.piece ∧ Alike false g' g₁')
      (name use g) (name use g₁) := by
  unfold Generator.name
  rw [currentToken_bind,currentToken_bind,← h.current_kind,← h.current_text]
  by_cases hk : g.current.kind.isKeyword
  · rw [if_pos hk,if_pos hk]
    exact .error rfl h.symbols
  · rw [if_neg hk,if_neg hk]
    refine (h.expect .ident).bind fun t g' t₁ g₁' ht => ?_
    rw [Token.text_eq ht.1]
    split_ifs
    · exact .error rfl ht.2.symbols
    · exact .ok ht

theorem Alike.copying (h : Alike false g g₁) {p : Kind → Bool} {more otherwise : List Goal}
    (hp : p .newline = false) (hm : more.all Goal.isFirm = true)
    (ho : otherwise.all Goal.isFirm = true) :
    Agree Onward (copying p more otherwise g) (copying p more otherwise g₁) := by
  unfold Generator.copying
  rw [← h.current_kind,← h.current_lexeme]
  split_ifs with hk
  · refine (h.write _).onward ?_
    have hn : g.current.kind ≠ .newline := by
      intro hn
      rw [hn,hp] at hk
      cases hk
    simpa [Goal.isFirm,hn] using hm
  · exact h.onward ho

section Place
variable {t t₁ : Token} (ht : t.piece = t₁.piece) (h : Alike false g g₁)
include ht h

theorem agree_placeLabel : Agree Onward (placeLabel t g) (placeLabel t₁ g₁) := by
  have hl : t.lexeme = t₁.lexeme := congrArg Piece.lexeme ht
  unfold placeLabel
  rw [Token.text_eq ht,hl]
  obtain ⟨first,first₁,hs,hs₁⟩ | ⟨s,s₁,hs,hs₁,hsym⟩ :=
    h.symbols.declareLabel t₁.text t.line t₁.line
  · rw [hs,hs₁]
    exact .error rfl h.symbols
  · rw [hs,hs₁]
    exact (h.record hsym _).onward rfl

theorem agree_placeJump : Agree Onward (placeJump t g) (placeJump t₁ g₁) := by
  have hl : t.lexeme = t₁.lexeme := congrArg Piece.lexeme ht
  unfold placeJump
  rw [Token.text_eq ht,hl]
  exact (h.record (h.symbols.referenceLabel t₁.text t.line t₁.line) _).onward rfl

theorem agree_placeTarget : Agree Onward (placeTarget t g) (placeTarget t₁ g₁) := by
  have hl : t.lexeme = t₁.lexeme := congrArg Piece.lexeme ht
  unfold placeTarget
  rw [hl]
  exact h.onward rfl

theorem agree_placeInput : Agree Onward (placeInput t g) (placeInput t₁ g₁) := by
  have hl : t.lexeme = t₁.lexeme := congrArg Piece.lexeme ht
  unfold placeInput
  rw [Token.text_eq ht,hl]
  exact (((((h.declared t₁.text).write _).write _).write _).write _).onward rfl

end Place

theorem isFirm_rest {kind : Kind} {more : List Goal} (h : Goal.rest? kind = some more) :
    (Goal.pass kind :: (more ++ [.lineEnd])).all Goal.isFirm = true := by
  unfold Goal.rest? at h
  split at h <;> cases h <;> rfl

/-- Two runs at the same point perform a goal in the same way. -/
theorem Alike.perform {goal : Goal} (hf : goal.isFirm = true) (h : Alike false g g₁) :
    Agree Onward (perform goal g) (perform goal g₁) := by
  have hk := h.current_kind
  have hl := h.current_lexeme
  have ht := h.current_text
  cases goal with
  | pass kind =>
    have hn : kind ≠ .newline := by simpa [Goal.isFirm] using hf
    refine h.expecting ?_
    rw [decide_eq_false hn]
    exact .firm rfl
  | lineEnd => exact h.expecting (.feeds rfl)
  | feeds => cases hf
  | operand =>
    rw [Generator.perform,Generator.perform,← hk,← hl,← ht,← h.symbols.isDefined]
    split
    · exact (h.write _).onward rfl
    · split_ifs
      · exact (h.write _).onward rfl
      · exact .error rfl h.symbols
    · exact h.stuck _
  | unary => exact h.copying rfl rfl rfl
  | factors => exact h.copying rfl rfl rfl
  | summands => exact h.copying rfl rfl rfl
  | compared =>
    rw [Generator.perform,Generator.perform,← hk,← ht]
    split_ifs
    · exact h.onward rfl
    · exact h.stuck _
  | comparands => exact h.copying rfl rfl rfl
  | start f => exact ((h.prepared f).write _).onward rfl
  | finish f => exact (h.write _).onward rfl
  | print =>
    rw [Generator.perform,Generator.perform,← hk,← hl]
    split_ifs
    · exact (h.write _).onward rfl
    · exact h.onward rfl
  | label => exact (h.name .label).bind fun t g' t₁ g₁' hn => agree_placeLabel hn.1 hn.2
  | jump => exact (h.name .label).bind fun t g' t₁ g₁' hn => agree_placeJump hn.1 hn.2
  | target => exact (h.name .variable).bind fun t g' t₁ g₁' hn => agree_placeTarget hn.1 hn.2
  | input => exact (h.name .variable).bind fun t g' t₁ g₁' hn => agree_placeInput hn.1 hn.2
  | close => exact (h.write _).onward rfl
  | statement =>
    rw [Generator.perform,Generator.perform,← hk,← ht]
    split
    · rename_i more hr
      exact h.onward (isFirm_rest hr)
    · exact h.stuck _
  | statements close =>
    rw [Generator.perform,Generator.perform,← hk]
    split_ifs
    · exact h.onward rfl
    · exact h.stuck _
    · exact h.onward rfl
  | ending => exact ((h.write _).write _).onward rfl
  | resolve =>
    have hu := h.symbols.unresolved
    rw [Generator.perform,Generator.perform]
    cases hs : g.symbols.unresolved with
    | nil =>
      rw [hs] at hu
      rw [List.map_eq_nil_iff.mp hu.symm]
      exact h.onward rfl
    | cons target rest =>
      rw [hs] at hu
      obtain ⟨target₁,rest₁,hs₁,hn,-⟩ := List.map_eq_cons_iff.mp hu.symm
      rw [hs₁]
      exact .error (congrArg (Cause.name <| .undeclaredLabel ·) hn.symm) h.symbols

end Alike

section Runs
variable {g g₁ : Generator} {goals : List Goal} {r r₁ : Outcome Unit} {us : List Token}

theorem Ahead.perform_feeds {more : List Goal} {g' : Generator} (h : g.Ahead us)
    (hp : perform .feeds g = .ok more g') :
    (more = [] ∧ g' = g ∧ g.current.kind ≠ .newline) ∨
      more = [.feeds] ∧ g'.Ahead us.tail ∧ Untouched g g' ∧
        squeezeAfter true (us.map Token.piece) = squeezeAfter true (us.tail.map Token.piece) := by
  rw [perform] at hp
  split_ifs at hp with hk
  · obtain ⟨rfl,ha⟩ := passing_ok hp
    obtain ⟨g'',ha',hu,hs⟩ := h.advance
    rw [ha] at ha'
    cases ha'
    refine .inr ⟨rfl,hu,hs,?_⟩
    rw [List.map_tail,squeezeAfter_feed (h.current_kind ▸ hk)]
  · cases hp
    exact .inl ⟨rfl,rfl,hk⟩

theorem Ahead.perform_feeds_ne_error (h : g.Ahead us) {fault : Fault} {g' : Generator} :
    perform .feeds g ≠ .error fault g' := by
  intro hp
  obtain ⟨g'',ha,-⟩ := h.advance
  rw [perform,passing,ha] at hp
  split_ifs at hp

/-- The line feeds ahead are passed, and the run goes on behind them. -/
theorem Does.behind_feeds (hd : Does (.feeds :: goals) g r) (h : g.Ahead us) :
    ∃ g' vs, Does goals g' r ∧ g'.Ahead vs ∧ g'.current.kind ≠ .newline ∧ Untouched g g' ∧
      squeezeAfter true (vs.map Token.piece) = squeezeAfter true (us.map Token.piece) := by
  generalize hgs : Goal.feeds :: goals = gs at hd
  induction hd generalizing us with
  | done => cases hgs
  | step hp rest ih =>
    cases hgs
    obtain ⟨rfl,rfl,hk⟩ | ⟨rfl,hu,hs,hq⟩ := h.perform_feeds hp
    · exact ⟨_,us,rest,h,hk,⟨rfl,rfl⟩,rfl⟩
    · obtain ⟨g',vs,hd,hv,hk,hs',hq'⟩ := ih hu rfl
      exact ⟨g',vs,hd,hv,hk,⟨hs'.1.trans hs.1,hs'.2.trans hs.2⟩,hq'.trans hq.symm⟩
  | stop hp =>
    cases hgs
    exact absurd hp h.perform_feeds_ne_error

/-- Runs that begin alike end alike. -/
theorem Does.agree {b : Bool} (hd : Does goals g r) (hd₁ : Does goals g₁ r₁)
    (hs : Stacked b goals) (h : Alike b g g₁) :
    Agree (fun _ g _ g₁ => Alike false g g₁) r r₁ := by
  induction hd generalizing g₁ b with
  | done =>
    cases hs
    cases hd₁
    exact .ok h
  | @step goal more goals g g' r hp rest ih =>
    cases hs with
    | firm hf =>
      obtain ⟨hgoal,hgoals⟩ := Bool.and_eq_true_iff.mp hf
      have ha := h.perform hgoal
      rw [hp] at ha
      cases hd₁ with
      | step hp₁ rest₁ =>
        rw [hp₁] at ha
        cases ha with
        | ok hr =>
          obtain ⟨rfl,b,hb,h'⟩ := hr
          exact ih rest₁ (hb.append hgoals) h'
      | stop hp₁ =>
        rw [hp₁] at ha
        cases ha
    | feeds hf =>
      obtain ⟨us,vs,hu,hv,hq⟩ := h.ahead
      obtain ⟨rfl,rfl,hk⟩ | ⟨rfl,hu',hsame,hq'⟩ := hu.perform_feeds hp
      · -- the other run passes the line feeds that it still has in front of the next goal
        obtain ⟨g₂,ws,hd₂,hw,hk₂,hsame,hq'⟩ := hd₁.behind_feeds hv
        refine ih hd₂ (.firm hf) ⟨⟨us,ws,hu,hw,?_⟩,hsame.1 ▸ h.symbols,hsame.2 ▸ h.listing⟩
        rw [hu.current_kind] at hk
        rw [hw.current_kind] at hk₂
        rw [← squeezeAfter_of_headD hk,← squeezeAfter_of_headD hk₂,hq,hq']
      · exact ih hd₁ (.feeds hf)
          ⟨⟨us.tail,vs,hu',hv,hq' ▸ hq⟩,hsame.1 ▸ h.symbols,hsame.2 ▸ h.listing⟩
  | stop hp =>
    cases hs with
    | firm hf =>
      have ha := h.perform (Bool.and_eq_true_iff.mp hf).1
      rw [hp] at ha
      cases hd₁ with
      | step hp₁ rest₁ =>
        rw [hp₁] at ha
        cases ha
      | stop hp₁ =>
        rw [hp₁] at ha
        cases ha with
        | error hc hs => exact .error hc hs
    | feeds hf =>
      obtain ⟨us,vs,hu,-⟩ := h.ahead
      exact absurd hp hu.perform_feeds_ne_error

end Runs

/-- Without faults the window can be filled. -/
theorem exists_opened {stream : TokenStream} {us : List Token} (hi : stream.items = us.map .ok) :
    ∃ g, Does [.feeds,.statements .eof,.ending] (opened g) (program { stream := stream }) ∧
      (opened g).Ahead us ∧ g.symbols = {} ∧ g.listing = {} := by
  have hclean : ∀ fault, .error fault ∉ stream.items := by simp [hi]
  obtain ⟨g₁,h₁,hc₁⟩ := exists_advance_of_clean (g := { stream := stream }) hclean
  obtain ⟨g₂,h₂,-⟩ := exists_advance_of_clean hc₁
  obtain ⟨hw,hs⟩ := window_of_advance h₁ h₂
  rw [hi] at hw
  exact ⟨g₂,.program h₁ h₂,hw,hs⟩

/-- Programs that have the same tokens, but for blank lines, are generated alike. -/
theorem program_agree {stream stream₁ : TokenStream} {us vs : List Token}
    (hi : stream.items = us.map .ok) (hi₁ : stream₁.items = vs.map .ok)
    (h : squeeze (us.map Token.piece) = squeeze (vs.map Token.piece)) :
    Agree (fun _ g _ g₁ => Alike false g g₁) (program { stream := stream })
      (program { stream := stream₁ }) := by
  obtain ⟨g,hd,ha,hs,hl⟩ := exists_opened hi
  obtain ⟨g₁,hd₁,ha₁,hs₁,hl₁⟩ := exists_opened hi₁
  refine hd.agree hd₁ (.feeds rfl) ⟨⟨us,vs,ha,ha₁,h⟩,?_,?_⟩
  · change g.symbols.Alike g₁.symbols
    rw [hs,hs₁]
    exact .refl _
  · rw [opened,opened,hl,hl₁]

end Generator

/-- Sources with the same tokens, but for blank lines, are compiled to the same text or rejected
for the same reason. -/
theorem compileText_layout {src src₁ : Bytes} {ts ts₁ : List Token}
    (h : (TokenStream.ofChars (decode (preprocess src))).upToFault = (ts,none))
    (h₁ : (TokenStream.ofChars (decode (preprocess src₁))).upToFault = (ts₁,none))
    (hs : squeeze (ts.map Token.piece) = squeeze (ts₁.map Token.piece)) :
    (compileText src).1.names = (compileText src₁).1.names ∧
      ((∃ text, (compileText src).2 = .ok text ∧ (compileText src₁).2 = .ok text) ∨
        ∃ d d₁, (compileText src).2 = .error (.diagnostic d) ∧
          (compileText src₁).2 = .error (.diagnostic d₁) ∧
          d.cause.kind = d₁.cause.kind ∧ d.cause.rule? = d₁.cause.rule? ∧
          d.cause.unlined = d₁.cause.unlined) := by
  obtain ⟨us,hi,rfl⟩ := TokenStream.upToFault_eq_none.mp h
  obtain ⟨vs,hi₁,rfl⟩ := TokenStream.upToFault_eq_none.mp h₁
  have hend : ∀ ws (s : TokenStream), squeeze ((ws ++ [s.endToken]).map Token.piece) =
      squeeze (ws.map Token.piece) ++ [eof] := by
    intro ws s
    rw [List.map_append]
    exact squeezeAfter_concat (p := eof) (by simp) true _
  rw [hend,hend] at hs
  have ha : Generator.Agree _ (Generator.program { stream := streamOf src })
      (Generator.program { stream := streamOf src₁ }) :=
    Generator.program_agree hi hi₁ (List.append_cancel_right hs)
  generalize hr : Generator.program { stream := streamOf src } = r at ha
  generalize hr₁ : Generator.program { stream := streamOf src₁ } = r₁ at ha
  cases ha with
  | @ok u u₁ g g₁ ha =>
    have hp : TokenStream.Proper (streamOf src).items := TokenStream.proper_ofChars _
    obtain ⟨hw,-⟩ := Generator.program_sound hp hr
    rw [compileText_symbols hr,compileText_symbols hr₁]
    refine ⟨ha.symbols.names,.inl ⟨g.listing.code,compileText_ok.mpr ⟨g,hr,hw,rfl⟩,?_⟩⟩
    exact compileText_ok.mpr ⟨g₁,hr₁,ha.listing ▸ hw,ha.listing ▸ rfl⟩
  | @error fault fault₁ g g₁ hc ha =>
    rw [compileText_of_error hr,compileText_of_error hr₁]
    refine ⟨ha.names,.inr ⟨_,_,rfl,rfl,?_,?_,hc⟩⟩
    · change fault.cause.kind = fault₁.cause.kind
      rw [← Cause.kind_unlined,hc,Cause.kind_unlined]
    · change fault.cause.rule? = fault₁.cause.rule?
      rw [← Cause.rule?_unlined,hc,Cause.rule?_unlined]

/-- A label that is declared twice, on other lines in the second source. -/
theorem layout_of_labels :
    let src : Bytes := "LABEL a\nLABEL a"
    let src₁ : Bytes := [0xef,0xbb,0xbf] ++ ("\n# twice\nLABEL\ta # one\r\n\n LABEL a\n\n" : Bytes)
    let label := Token.mk (.keyword .label) "LABEL".toList
    let a := Token.mk .ident ['a']
    let feed := Token.mk .newline ['\n']
    let ts : List Token := [label 1,a 1,feed 1,label 2,a 2,feed 2,⟨.eof,[],3⟩]
    let ts₁ : List Token := [feed 1,feed 2,label 3,a 3,feed 3,feed 4,label 5,a 5,feed 5,feed 6,
      ⟨.eof,[],7⟩]
    (TokenStream.ofChars (decode (preprocess src))).upToFault = (ts,none) ∧
      (TokenStream.ofChars (decode (preprocess src₁))).upToFault = (ts₁,none) ∧
      squeeze (ts.map Token.piece) = squeeze (ts₁.map Token.piece) ∧
      (compileText src).1.names = (compileText src₁).1.names ∧
      ((∃ text, (compileText src).2 = .ok text ∧ (compileText src₁).2 = .ok text) ∨
        ∃ d d₁, (compileText src).2 = .error (.diagnostic d) ∧
          (compileText src₁).2 = .error (.diagnostic d₁) ∧
          d.cause.kind = d₁.cause.kind ∧ d.cause.rule? = d₁.cause.rule? ∧
          d.cause.unlined = d₁.cause.unlined) := by
  intro src src₁ label a feed ts ts₁
  have h : (TokenStream.ofChars (decode (preprocess src))).upToFault = (ts,none) :=
    Prod.ext (by decide +kernel) (Option.isNone_iff_eq_none.mp (by decide +kernel))
  have h₁ : (TokenStream.ofChars (decode (preprocess src₁))).upToFault = (ts₁,none) :=
    Prod.ext (by decide +kernel) (Option.isNone_iff_eq_none.mp (by decide +kernel))
  have hs : squeeze (ts.map Token.piece) = squeeze (ts₁.map Token.piece) := by decide +kernel
  exact ⟨h,h₁,hs,compileText_layout h h₁ hs⟩

end TeenyTiny
