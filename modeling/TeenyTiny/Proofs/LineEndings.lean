import TeenyTiny.Proofs.CarriageReturns
import TeenyTiny.Proofs.Extension

/-! Sources with carriage returns in front of their line feeds and sources without them are the same
programs. Their streams match token for token, and the generator takes the same steps over both of
them until it is done or comes to a fault, which is on the same line then. -/
namespace TeenyTiny
open Text Generator

namespace Fault.Matches
variable {fault fault₁ : Fault} (h : fault.Matches fault₁)
include h

theorem line_eq : fault.line = fault₁.line := by
  cases h <;> rfl

theorem kind_eq : fault.cause.kind = fault₁.cause.kind := by
  cases h <;> rfl

theorem rule?_eq : fault.cause.rule? = fault₁.cause.rule? := by
  cases h <;> rfl

end Fault.Matches

namespace Generator
variable {g g₁ : Generator}

/-- States that differ in nothing but the faults ahead of them. -/
structure InStep (g g₁ : Generator) : Prop extends Twin g g₁ where
  next : g₁.next = g.next
  stream : g.stream.Matches g₁.stream

/-- Outcomes of two steps: both are done and the states are in step, or they find faults that
match. -/
inductive Parallel {α : Type} : Outcome α → Outcome α → Prop
  | ok (a : α) {g g₁ : Generator} (h : InStep g g₁) : Parallel (.ok a g) (.ok a g₁)
  | error {fault fault₁ : Fault} {g g₁ : Generator} (hf : fault.Matches fault₁)
    (hs : g₁.symbols = g.symbols) : Parallel (.error fault g) (.error fault₁ g₁)

theorem InStep.advance (h : InStep g g₁) :
    Parallel (Generator.advance g) (Generator.advance g₁) := by
  obtain ⟨hitems,hlast⟩ := h.stream
  unfold Generator.advance TokenStream.pull TokenStream.endToken
  generalize hx : g.stream.items = xs at hitems
  generalize hy : g₁.stream.items = ys at hitems
  cases hitems with
  | nil =>
    rw [hlast]
    refine .ok () ⟨⟨h.next,h.symbols,h.listing⟩,rfl,?_,hlast⟩
    rw [hx,hy]
    exact .nil
  | cons hm hrest =>
    cases hm with
    | token t => exact .ok () ⟨⟨h.next,h.symbols,h.listing⟩,rfl,hrest,hlast⟩
    | fault hf => exact .error hf h.symbols

theorem InStep.settle (h : InStep g g₁)
    (result : Except Fault (List Goal × Symbols × Listing)) :
    Parallel (Generator.settle result g) (Generator.settle result g₁) := by
  cases result with
  | ok x => exact .ok x.1 ⟨⟨h.current,rfl,rfl⟩,h.next,h.stream⟩
  | error fault => exact .error (.same fault) h.symbols

/-- One step on each side. -/
theorem InStep.perform (h : InStep g g₁) (goal : Goal) :
    Parallel (Generator.perform goal g) (Generator.perform goal g₁) := by
  rw [(Twin.refl g).perform_eq,h.toTwin.perform_eq]
  unfold Verdict.follow
  split_ifs
  · have ha := h.advance
    generalize Generator.advance g = r at ha
    generalize Generator.advance g₁ = r₁ at ha
    cases ha with
    | ok _ h => exact h.settle _
    | error hf hs => exact .error hf hs
  · exact h.settle _

/-- Runs with the same goals end in the same way. -/
theorem Does.parallel {goals : List Goal} {r r₁ : Outcome Unit} (hd : Does goals g r)
    (hd₁ : Does goals g₁ r₁) (h : InStep g g₁) : Parallel r r₁ := by
  induction hd generalizing g₁ with
  | done =>
    cases hd₁
    exact .ok () h
  | @step goal _ _ _ _ _ hp _ ih =>
    have hstep := h.perform goal
    rw [hp] at hstep
    generalize hp₁ : Generator.perform goal g₁ = x at hstep
    cases hstep with
    | ok _ h => exact ih (hd₁.tail hp₁) h
  | @stop goal _ _ _ _ hp =>
    have hstep := h.perform goal
    rw [hp] at hstep
    generalize hp₁ : Generator.perform goal g₁ = x at hstep
    cases hstep with
    | error hf hs =>
      rw [hd₁.eq_error hp₁]
      exact .error hf hs

theorem InStep.opened (h : InStep g g₁) : InStep (Generator.opened g) (Generator.opened g₁) := by
  refine ⟨⟨h.current,h.symbols,?_⟩,h.next,h.stream⟩
  rw [Generator.opened,Generator.opened,h.listing]

/-- Programs of streams that match, from the filling of the window on. -/
theorem program_parallel {s s₁ : TokenStream} (h : s.Matches s₁) :
    Parallel (program { stream := s }) (program { stream := s₁ }) := by
  have hstart : InStep { stream := s } { stream := s₁ } := ⟨⟨rfl,rfl,rfl⟩,rfl,h⟩
  have hfirst := hstart.advance
  generalize h₁ : advance { stream := s } = r at hfirst
  generalize h₁' : advance { stream := s₁ } = r₁ at hfirst
  cases hfirst with
  | error hf hs =>
    rw [program,bind_error.mpr (.inl h₁),bind_error.mpr (.inl h₁')]
    exact .error hf hs
  | @ok _ g g' hg =>
    have hsecond := hg.advance
    generalize h₂ : advance g = r at hsecond
    generalize h₂' : advance g' = r₁ at hsecond
    cases hsecond with
    | error hf hs =>
      rw [program,bind_error.mpr (.inr ⟨_,_,h₁,bind_error.mpr (.inl h₂)⟩),
        bind_error.mpr (.inr ⟨_,_,h₁',bind_error.mpr (.inl h₂')⟩)]
      exact .error hf hs
    | ok _ hg => exact (Does.program h₁ h₂).parallel (Does.program h₁' h₂') hg.opened

end Generator

/-- Diagnostics of the same kind, with the same line of the source, that name the same rule. -/
structure Diagnostic.Matches (d d₁ : Diagnostic) : Prop where
  kind : d.cause.kind = d₁.cause.kind
  rule : d.cause.rule? = d₁.cause.rule?
  line : d.line = d₁.line
  snippet : d.snippet = d₁.snippet

theorem Fault.Matches.explain {fault fault₁ : Fault} {cs ds : List Char}
    (h : fault.Matches fault₁) (hs : Thinned '\r' '\n' cs ds) :
    (fault.explain cs).Matches (fault₁.explain ds) := by
  refine ⟨h.kind_eq,h.rule?_eq,h.line_eq,?_⟩
  change sourceLine cs fault.line = sourceLine ds fault₁.line
  rw [h.line_eq,hs.sourceLine_eq]

/-- Carriage returns in front of line feeds change nothing but a message that names the character at
which the lexer has stopped. -/
theorem line_endings_alike (src : Bytes) :
    (TokenStream.ofChars (decode src)).upToFault.1 =
      (TokenStream.ofChars (decode (plainFeeds src))).upToFault.1 ∧
    Option.Rel Diagnostic.Matches
      ((TokenStream.ofChars (decode src)).upToFault.2.map (Fault.explain (decode src)))
      ((TokenStream.ofChars (decode (plainFeeds src))).upToFault.2.map
        (Fault.explain (decode (plainFeeds src)))) ∧
    (compileText src).1 = (compileText (plainFeeds src)).1 ∧
    ((∃ text, (compileText src).2 = .ok text ∧ (compileText (plainFeeds src)).2 = .ok text) ∨
      ∃ d d₁, (compileText src).2 = .error (.diagnostic d) ∧
        (compileText (plainFeeds src)).2 = .error (.diagnostic d₁) ∧ d.Matches d₁) := by
  have hthin := thinned_plainFeeds src
  have hchars := hthin.decode
  obtain ⟨htokens,hfault⟩ := (TokenStream.matches_ofChars hchars).upToFault
  refine ⟨htokens,?_,?_⟩
  · generalize (TokenStream.ofChars (decode src)).upToFault.2 = f at hfault
    generalize (TokenStream.ofChars (decode (plainFeeds src))).upToFault.2 = f₁ at hfault
    cases hfault with
    | none => exact .none
    | some hf => exact .some (hf.explain hchars)
  · have hsource := hthin.preprocess.decode
    have hrun := program_parallel (TokenStream.matches_ofChars hsource)
    change Parallel (program { stream := streamOf src })
      (program { stream := streamOf (plainFeeds src) }) at hrun
    generalize hp : program { stream := streamOf src } = r at hrun
    generalize hp₁ : program { stream := streamOf (plainFeeds src) } = r₁ at hrun
    cases hrun with
    | @ok _ g g₁ hg =>
      obtain ⟨hf,-⟩ := program_sound (TokenStream.proper_ofChars _) hp
      have ht : (compileText src).2 = .ok g.listing.code := compileText_ok.mpr ⟨g,hp,hf,rfl⟩
      have ht₁ : (compileText (plainFeeds src)).2 = .ok g.listing.code := by
        rw [← hg.listing] at hf ⊢
        exact compileText_ok.mpr ⟨g₁,hp₁,hf,rfl⟩
      refine ⟨?_,.inl ⟨_,ht,ht₁⟩⟩
      rw [compileText_symbols hp,compileText_symbols hp₁,hg.symbols]
    | error hf hs =>
      rw [compileText_of_error hp,compileText_of_error hp₁]
      exact ⟨hs.symm,.inr ⟨_,_,rfl,rfl,hf.explain hsource⟩⟩

end TeenyTiny
