import TeenyTiny.Proofs.Progress
import TeenyTiny.Proofs.Verdicts

/-! What the rules of the generator take from the stream. No rule passes the end token, whatever
state it is called in and whether it succeeds or fails, and a statement passes two tokens at least.
So a program is done when it has seen the end token and pulled one more: end tokens that are written
out behind the others stay where they are. -/
namespace TeenyTiny
open Text

namespace Generator

/-- The window and the items behind it. -/
def ahead (g : Generator) : List (Except Fault Token) :=
  .ok g.current :: .ok g.next :: g.stream.items

/-- The window has moved on over these tokens, and none of them is the end token. Behind its items
a stream has end tokens, as many as are pulled. -/
structure Passes (g : Generator) (ts : List Token) (g' : Generator) : Prop where
  proper : ∀ t ∈ ts, t.kind ≠ .eof
  endToken : g'.stream.endToken = g.stream.endToken
  ahead : ∃ k, g.ahead ++ List.replicate k (.ok g.stream.endToken) = ts.map .ok ++ g'.ahead

/-- From this state a step passes no end token, and if it succeeds so many tokens at least. If it
fails some tokens are passed, and it may be that one more would have been if the next result was not
a fault. -/
structure ConsumesAt {α : Type} (g : Generator) (n : Nat) (x : Step α) : Prop where
  ok : ∀ a g', x g = .ok a g' → ∃ ts, g.Passes ts g' ∧ n ≤ ts.length
  error : ∀ fault g', x g = .error fault g' → ∃ ts g₁, g.Passes ts g₁ ∧
    (g' = g₁ ∨ g₁.current.kind ≠ .eof ∧ advance g₁ = .error fault g')

/-- The same from every state. -/
def Consumes {α : Type} (n : Nat) (x : Step α) : Prop := ∀ g, ConsumesAt g n x

section Passes
variable {g g' g'' : Generator} {ts us : List Token}

theorem Passes.of_window (hs : g'.stream = g.stream) (hc : g'.current = g.current)
    (hn : g'.next = g.next) : g.Passes [] g' :=
  ⟨by simp,by rw [hs],0,by simp [Generator.ahead,hs,hc,hn]⟩

theorem Passes.refl (g : Generator) : g.Passes [] g := .of_window rfl rfl rfl

theorem Passes.trans (h : g.Passes ts g') (h' : g'.Passes us g'') : g.Passes (ts ++ us) g'' := by
  obtain ⟨hp,he,k,hk⟩ := h
  obtain ⟨hp',he',k',hk'⟩ := h'
  refine ⟨List.forall_mem_append.mpr ⟨hp,hp'⟩,he'.trans he,k + k',?_⟩
  rw [List.replicate_add,← List.append_assoc,hk,List.append_assoc,← he,hk',List.map_append,
    List.append_assoc]

theorem passes_advance (hk : g.current.kind ≠ .eof) (h : advance g = .ok () g') :
    g.Passes [g.current] g' := by
  refine ⟨List.forall_mem_singleton.mpr hk,endToken_advance h,?_⟩
  unfold advance TokenStream.pull at h
  cases hi : g.stream.items with
  | nil =>
    rw [hi] at h
    cases h
    exact ⟨1,by simp [Generator.ahead,hi]⟩
  | cons item items =>
    rw [hi] at h
    cases item with
    | error fault => cases h
    | ok t =>
      cases h
      exact ⟨0,by simp [Generator.ahead,hi]⟩

end Passes

section Consumes
variable {α β : Type} {g : Generator} {n m : Nat} {x y : Step α}

theorem ConsumesAt.of_eq (h : ConsumesAt g n y) (he : x g = y g) : ConsumesAt g n x :=
  ⟨fun a g' hx => h.ok a g' (he ▸ hx),fun fault g' hx => h.error fault g' (he ▸ hx)⟩

theorem ConsumesAt.mono (h : ConsumesAt g n x) (hm : m ≤ n) : ConsumesAt g m x := by
  refine ⟨fun a g' hx => ?_,h.error⟩
  obtain ⟨ts,hp,hn⟩ := h.ok a g' hx
  exact ⟨ts,hp,hm.trans hn⟩

theorem ConsumesAt.bind {f : α → Step β} (hx : ConsumesAt g n x)
    (hf : ∀ a g', x g = .ok a g' → ConsumesAt g' m (f a)) : ConsumesAt g (n + m) (x >>= f) := by
  constructor
  · intro b g'' h
    obtain ⟨a,g',ha,hb⟩ := bind_ok.mp h
    obtain ⟨ts,hts,hn⟩ := hx.ok a g' ha
    obtain ⟨us,hus,hm⟩ := (hf a g' ha).ok b g'' hb
    exact ⟨ts ++ us,hts.trans hus,by rw [List.length_append]; omega⟩
  · intro fault g'' h
    rcases bind_error.mp h with h | ⟨a,g',ha,hb⟩
    · exact hx.error fault g'' h
    · obtain ⟨ts,hts,-⟩ := hx.ok a g' ha
      obtain ⟨us,g₁,hus,he⟩ := (hf a g' ha).error fault g'' hb
      exact ⟨ts ++ us,g₁,hts.trans hus,he⟩

theorem Consumes.bind {f : α → Step β} (hx : Consumes n x) (hf : ∀ a, Consumes m (f a)) :
    Consumes (n + m) (x >>= f) :=
  fun g => (hx g).bind fun a g' _ => hf a g'

theorem ConsumesAt.zero (h : ConsumesAt g n x) : ConsumesAt g 0 x := h.mono (Nat.zero_le n)

/-- A step that leaves the window as it is. -/
theorem consumesAt_of_ok {a : α} {g' : Generator} (h : x g = .ok a g') (hs : g'.stream = g.stream)
    (hc : g'.current = g.current) (hn : g'.next = g.next) : ConsumesAt g 0 x := by
  constructor
  · intro b g'' hb
    rw [h] at hb
    cases hb
    exact ⟨[],.of_window hs hc hn,le_rfl⟩
  · intro fault g'' hb
    rw [h] at hb
    cases hb

theorem consumes_pure (a : α) : Consumes 0 (pure a : Step α) :=
  fun _ => consumesAt_of_ok rfl rfl rfl rfl

theorem consumes_fail (n : Nat) (line : Int) (cause : Cause) :
    Consumes n (fail line cause : Step α) := by
  intro g
  constructor
  · rintro a g' ⟨⟩
  · rintro fault g' ⟨⟩
    exact ⟨[],g,.refl g,.inl rfl⟩

theorem consumes_emit (text : Bytes) : Consumes 0 (emit text) :=
  fun _ => consumesAt_of_ok rfl rfl rfl rfl

theorem consumes_emitLine (text : Bytes) : Consumes 0 (emitLine text) :=
  fun _ => consumesAt_of_ok rfl rfl rfl rfl

theorem consumes_declare (n : Bytes) : Consumes 0 (declare n) :=
  fun g => consumesAt_of_ok (declare_eq g n) rfl rfl rfl

theorem consumes_modify_symbols (f : Generator → Symbols) :
    Consumes 0 (modify fun g => { g with symbols := f g } : Step Unit) :=
  fun _ => consumesAt_of_ok rfl rfl rfl rfl

theorem ConsumesAt.current {f : Token → Step α} (h : ConsumesAt g n (f g.current)) :
    ConsumesAt g n (currentToken >>= f) := h.of_eq rfl

theorem ConsumesAt.state {f : Generator → Step α} (h : ConsumesAt g n (f g)) :
    ConsumesAt g n (get >>= f) := h.of_eq rfl

theorem consumesAt_advance (hk : g.current.kind ≠ .eof) : ConsumesAt g 1 advance := by
  constructor
  · intro _ g' h
    exact ⟨[g.current],passes_advance hk h,le_rfl⟩
  · intro fault g' h
    exact ⟨[],g,.refl g,.inr ⟨hk,h⟩⟩

theorem consumesAt_copyToken (hk : g.current.kind ≠ .eof) : ConsumesAt g 1 copyToken := by
  have hc : ConsumesAt g (0 + 1) (emit g.current.text >>= fun _ => advance) := by
    refine (consumes_emit _ g).bind fun _ g' h => consumesAt_advance ?_
    cases h
    exact hk
  exact ConsumesAt.current (hc.mono (by omega))

theorem consumesAt_fail_bind {line : Int} {cause : Cause} {f : α → Step β} :
    ConsumesAt g n (fail line cause >>= f) := (consumes_fail n line cause g).of_eq rfl

theorem consumes_expect {kind : Kind} (hk : kind ≠ .eof) : Consumes 1 (expect kind) := by
  intro g
  refine .current ?_
  by_cases hc : g.current.kind = kind
  · rw [if_neg (not_not.mpr hc)]
    exact (consumesAt_advance (hc ▸ hk)).bind fun _ g' _ => consumes_pure _ g'
  · rw [if_pos hc]
    exact consumesAt_fail_bind

theorem consumes_name (use : NameUse) : Consumes 1 (name use) := by
  intro g
  refine .current ?_
  split_ifs with hk
  · exact consumesAt_fail_bind
  · refine (consumes_expect (by simp) g).bind (m := 0) fun t g' _ => ?_
    split_ifs
    · exact consumesAt_fail_bind
    · exact consumes_pure _ g'

/-- A loop goes on before a token that is not the end token. -/
theorem consumes_repeatWhile {p : Kind → Bool} {step : Step Unit} (he : p .eof = false)
    (hs : ∀ g : Generator, g.current.kind ≠ .eof → ConsumesAt g 0 step) (fuel : Nat) :
    Consumes 0 (repeatWhile p step fuel) := by
  induction fuel with
  | zero => exact consumes_pure ()
  | succ fuel ih =>
    intro g
    refine .current ?_
    split_ifs with hp
    · have hk : g.current.kind ≠ .eof := by
        intro hk
        rw [hk,he] at hp
        cases hp
      exact (hs g hk).bind fun _ g' _ => ih g'
    · exact consumes_pure () g

theorem consumes_lineEnd (fuel : Nat) : Consumes 1 (lineEnd fuel) :=
  (consumes_expect (by simp)).bind fun _ =>
    consumes_repeatWhile rfl (fun _ hk => (consumesAt_advance hk).zero) fuel

theorem consumes_primary : Consumes 1 primary := by
  intro g
  refine .current ?_
  have hpass : ∀ text, g.current.kind ≠ .eof →
      ConsumesAt g (0 + 1) (emit text >>= fun _ => advance) := by
    intro text hk
    refine (consumes_emit _ g).bind fun _ g' h => consumesAt_advance ?_
    cases h
    exact hk
  cases hk : g.current.kind with
  | number => exact hpass _ (by simp [hk])
  | ident =>
    refine .state ?_
    dsimp only
    split_ifs
    · exact consumesAt_fail_bind
    · exact hpass _ (by simp [hk])
  | _ => exact consumesAt_fail_bind

theorem consumes_unary : Consumes 1 unary := by
  intro g
  refine .current ?_
  split_ifs with hs
  · have hk : g.current.kind ≠ .eof := by
      intro hk
      rw [hk] at hs
      cases hs
    refine ((consumesAt_copyToken hk).bind fun _ g' _ => consumes_primary g').mono ?_
    omega
  · exact consumes_primary g

/-- A chain of operators with something behind each of them. -/
theorem consumes_chain {p : Kind → Bool} {step : Step Unit} (he : p .eof = false)
    (hs : Consumes 1 step) (fuel : Nat) :
    Consumes 0 (repeatWhile p (do copyToken; step) fuel) := by
  refine consumes_repeatWhile he (fun g hk => ?_) fuel
  exact ((consumesAt_copyToken hk).bind fun _ g' _ => hs g').zero

theorem consumes_term (fuel : Nat) : Consumes 1 (term fuel) :=
  consumes_unary.bind fun _ => consumes_chain rfl consumes_unary fuel

theorem consumes_expression (fuel : Nat) : Consumes 1 (expression fuel) :=
  (consumes_term fuel).bind fun _ => consumes_chain rfl (consumes_term fuel) fuel

theorem consumes_comparison (fuel : Nat) : Consumes 1 (comparison fuel) := by
  refine (consumes_expression fuel).bind (m := 0) fun _ g => .current ?_
  split_ifs
  · exact consumesAt_fail_bind
  · exact consumes_chain rfl (consumes_expression fuel) fuel g

end Consumes

section Rules
variable {g : Generator} (hk : g.current.kind ≠ .eof)
include hk

theorem consumesAt_label : ConsumesAt g 1 labelStatement := by
  refine (consumesAt_advance hk).bind (m := 0) fun _ g₁ _ => ?_
  refine ((consumes_name .label g₁).bind (m := 0) fun t g₂ _ => .state ?_).zero
  dsimp only
  split
  · exact consumesAt_fail_bind
  · exact (consumes_modify_symbols _ g₂).bind fun _ g₃ _ => consumes_emitLine _ g₃

theorem consumesAt_goto : ConsumesAt g 1 gotoStatement := by
  refine (consumesAt_advance hk).bind (m := 0) fun _ g₁ _ => ?_
  refine ((consumes_name .label g₁).bind (m := 0) fun t g₂ _ => ?_).zero
  exact (consumes_modify_symbols _ g₂).bind fun _ g₃ _ => consumes_emitLine _ g₃

theorem consumesAt_input : ConsumesAt g 1 inputStatement := by
  refine (consumesAt_advance hk).bind (m := 0) fun _ g₁ _ => ?_
  refine ((consumes_name .variable g₁).bind (m := 0) fun t g₂ _ => ?_).zero
  refine (consumes_declare _ g₂).bind (m := 0) fun _ g₃ _ => ?_
  refine (consumes_emitLine _ g₃).bind (m := 0) fun _ g₄ _ => ?_
  refine (consumes_emitLine _ g₄).bind (m := 0) fun _ g₅ _ => ?_
  exact (consumes_emitLine _ g₅).bind fun _ g₆ _ => consumes_emitLine _ g₆

theorem consumesAt_let (fuel : Nat) : ConsumesAt g 1 (letStatement fuel) := by
  refine (consumesAt_advance hk).bind (m := 0) fun _ g₁ _ => ?_
  refine ((consumes_name .variable g₁).bind (m := 0) fun t g₂ _ => ?_).zero
  refine ((consumes_expect (by simp) g₂).bind (m := 0) fun _ g₃ _ => ?_).zero
  refine (consumes_declare _ g₃).bind (m := 0) fun _ g₄ _ => ?_
  refine (consumes_emit _ g₄).bind (m := 0) fun _ g₅ _ => ?_
  exact ((consumes_expression fuel g₅).bind fun _ g₆ _ => consumes_emitLine _ g₆).zero

theorem consumesAt_print (fuel : Nat) : ConsumesAt g 1 (printStatement fuel) := by
  refine (consumesAt_advance hk).bind (m := 0) fun _ g₁ _ => .current ?_
  split_ifs with hs
  · refine (consumes_emitLine _ g₁).bind fun _ g₂ h => (consumesAt_advance ?_).zero
    cases h
    change g₁.current.kind ≠ .eof
    simp [hs]
  · refine (consumes_emit _ g₁).bind (m := 0) fun _ g₂ _ => ?_
    exact ((consumes_expression fuel g₂).bind fun _ g₃ _ => consumes_emitLine _ g₃).zero

theorem consumesAt_guardedBlock {opening : Bytes} {opener closer : Keyword} {fuel : Nat}
    {body : Step Unit} (hb : Consumes 0 body) :
    ConsumesAt g 1 (guardedBlock opening opener closer fuel body) := by
  refine (consumesAt_advance hk).bind (m := 0) fun _ g₁ _ => ?_
  refine (consumes_emit _ g₁).bind (m := 0) fun _ g₂ _ => ?_
  refine ((consumes_comparison fuel g₂).bind (m := 0) fun _ g₃ _ => ?_).zero
  refine ((consumes_expect (by simp) g₃).bind (m := 0) fun _ g₄ _ => ?_).zero
  refine ((consumes_lineEnd fuel g₄).bind (m := 0) fun _ g₅ _ => ?_).zero
  refine (consumes_emitLine _ g₅).bind (m := 0) fun _ g₆ _ => (hb g₆).bind (m := 0) fun _ g₇ _ => ?_
  exact ((consumes_expect (by simp) g₇).bind fun _ g₈ _ => consumes_emitLine _ g₈).zero

end Rules

/-- The rule of a statement passes its first token at least. -/
theorem consumesAt_rule {g : Generator} {fuel : Nat} {rule : Step Unit}
    (hb : ∀ close, Consumes 0 (statementsUntil close fuel))
    (hr : rule? fuel g.current.kind = some rule) : ConsumesAt g 1 rule := by
  have hk : g.current.kind ≠ .eof := by
    intro hk
    rw [hk] at hr
    cases hr
  unfold rule? at hr
  split at hr <;> cases hr
  · exact consumesAt_print hk fuel
  · exact consumesAt_guardedBlock hk (hb _)
  · exact consumesAt_guardedBlock hk (hb _)
  · exact consumesAt_label hk
  · exact consumesAt_goto hk
  · exact consumesAt_let hk fuel
  · exact consumesAt_input hk

/-- A statement passes its keyword and the end of its line. -/
theorem consumes_statement_succ {fuel : Nat}
    (hb : ∀ close, Consumes 0 (statementsUntil close fuel)) : Consumes 2 (statement (fuel + 1)) := by
  intro g
  have hs := statement_bind (g := g) (k := pure) (n := fuel)
  rw [bind_pure] at hs
  cases hr : rule? fuel g.current.kind with
  | none =>
    rw [hr] at hs
    exact (consumes_fail 2 _ _ g).of_eq hs
  | some rule =>
    rw [hr] at hs
    have hrule := (consumesAt_rule hb hr).bind fun _ g' _ =>
      (consumes_lineEnd fuel g').bind fun _ g'' _ => consumes_pure () g''
    exact hrule.of_eq hs

theorem consumes_statementsUntil_succ {fuel : Nat} (hs : Consumes 0 (statement fuel))
    (hb : ∀ close, Consumes 0 (statementsUntil close fuel)) (close : Kind) :
    Consumes 0 (statementsUntil close (fuel + 1)) := by
  intro g
  have he : (statementsUntil close (fuel + 1) >>= pure) g = _ := statementsUntil_bind
  rw [bind_pure] at he
  split_ifs at he
  · exact (consumes_pure () g).of_eq he
  · exact (consumes_fail 0 _ _ g).of_eq he
  · refine ConsumesAt.of_eq ?_ he
    exact (hs g).bind fun _ g' _ => (hb close g').bind fun _ g'' _ => consumes_pure () g''

/-- Statements are nested in each other, so both kinds of rules go by the same fuel. -/
theorem consumes_statements (fuel : Nat) :
    Consumes 0 (statement fuel) ∧ ∀ close, Consumes 0 (statementsUntil close fuel) := by
  induction fuel with
  | zero => exact ⟨consumes_pure (),fun _ => consumes_pure ()⟩
  | succ fuel ih =>
    exact ⟨fun g => (consumes_statement_succ ih.2 g).zero,consumes_statementsUntil_succ ih.1 ih.2⟩

theorem consumes_statement (fuel : Nat) : Consumes 2 (statement (fuel + 1)) :=
  consumes_statement_succ (consumes_statements fuel).2

end Generator
end TeenyTiny
