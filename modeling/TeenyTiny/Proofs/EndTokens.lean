import TeenyTiny.Proofs.Consumption
import TeenyTiny.Proofs.Extension

/-! The end tokens that a program pulls. A stream is the same to the generator with end tokens
written out behind its items, and what is left of those shows how many of them are pulled. -/
namespace TeenyTiny
open Text

/-- The stream with end tokens written out. -/
def TokenStream.padded (s : TokenStream) (m : Nat) : TokenStream :=
  { s with items := s.items ++ List.replicate m (.ok s.endToken) }

/-- A result is the same with end tokens written out. -/
theorem TokenStream.pull_padded (s : TokenStream) (m : Nat) :
    ∃ k, (s.padded m).pull = (s.pull.1,s.pull.2.padded k) := by
  obtain ⟨items,line⟩ := s
  cases items with
  | nil =>
    cases m with
    | zero => exact ⟨0,rfl⟩
    | succ m => exact ⟨m,rfl⟩
  | cons item items => exact ⟨m,rfl⟩

namespace Generator

def padded (g : Generator) (m : Nat) : Generator := { g with stream := g.stream.padded m }

section Outcome
variable {α : Type}

/-- The outcome with another state. -/
def onState (f : Generator → Generator) : Outcome α → Outcome α
  | .ok a g => .ok a (f g)
  | .error fault g => .error fault (f g)

def finalState : Outcome α → Generator
  | .ok _ g | .error _ g => g

end Outcome

section Padded
variable {g : Generator} {goals : List Goal} {r r' : Outcome Unit}

theorem advance_padded (g : Generator) (m : Nat) :
    ∃ k, advance (g.padded m) = onState (·.padded k) (advance g) := by
  obtain ⟨k,hk⟩ := g.stream.pull_padded m
  have hs : (g.padded m).stream.pull = _ := hk
  refine ⟨k,?_⟩
  unfold advance
  rw [hs]
  rcases g.stream.pull with ⟨_ | _,_⟩ <;> rfl

theorem settle_padded (result : Except Fault (List Goal × Symbols × Listing)) (g : Generator)
    (m : Nat) : settle result (g.padded m) = onState (·.padded m) (settle result g) := by
  cases result <;> rfl

theorem Verdict.follow_padded (v : Verdict) (g : Generator) (m : Nat) :
    ∃ k, v.follow (g.padded m) = onState (·.padded k) (v.follow g) := by
  unfold follow
  split_ifs
  · obtain ⟨k,hk⟩ := advance_padded g m
    refine ⟨k,?_⟩
    rw [hk]
    cases advance g with
    | ok u g' => exact settle_padded v.result g' k
    | error fault g' => rfl
  · exact ⟨m,settle_padded v.result g m⟩

/-- No goal sees whether end tokens are written out. -/
theorem perform_padded (goal : Goal) (g : Generator) (m : Nat) :
    ∃ k, perform goal (g.padded m) = onState (·.padded k) (perform goal g) := by
  have ht : Twin g (g.padded m) := ⟨rfl,rfl,rfl⟩
  rw [ht.perform_eq,(Twin.refl g).perform_eq]
  exact (verdict goal g).follow_padded g m

theorem Does.padded (h : Does goals g r) (m : Nat) :
    ∃ k, Does goals (g.padded m) (onState (·.padded k) r) := by
  induction h generalizing m with
  | done => exact ⟨m,.done⟩
  | @step goal more goals g g' r hp _ ih =>
    obtain ⟨k,hk⟩ := perform_padded goal g m
    rw [hp] at hk
    obtain ⟨k',hk'⟩ := ih k
    exact ⟨k',.step hk hk'⟩
  | @stop goal goals g g' fault hp =>
    obtain ⟨k,hk⟩ := perform_padded goal g m
    rw [hp] at hk
    exact ⟨k,.stop hk⟩

/-- The machine has no choice. -/
theorem Does.unique (h : Does goals g r) (h' : Does goals g r') : r = r' := by
  induction h with
  | done =>
    cases h'
    rfl
  | step hp _ ih => exact ih (h'.tail hp)
  | stop hp => exact (h'.eq_error hp).symm

/-- The program comes to the same with end tokens written out. -/
theorem program_padded (stream : TokenStream) (m : Nat) : ∃ k,
    program { stream := stream.padded m } =
      onState (·.padded k) (program { stream := stream }) := by
  obtain ⟨k₁,hk₁⟩ := advance_padded { stream := stream } m
  cases h₁ : advance { stream := stream } with
  | error fault g =>
    rw [h₁] at hk₁
    have hp : program { stream := stream } = .error fault g := bind_error.mpr (.inl h₁)
    rw [hp]
    exact ⟨k₁,bind_error.mpr (.inl hk₁)⟩
  | ok _ g₁ =>
    rw [h₁] at hk₁
    obtain ⟨k₂,hk₂⟩ := advance_padded g₁ k₁
    cases h₂ : advance g₁ with
    | error fault g =>
      rw [h₂] at hk₂
      have hp : program { stream := stream } = .error fault g :=
        bind_error.mpr (.inr ⟨_,_,h₁,bind_error.mpr (.inl h₂)⟩)
      rw [hp]
      exact ⟨k₂,bind_error.mpr (.inr ⟨_,_,hk₁,bind_error.mpr (.inl hk₂)⟩)⟩
    | ok _ g₂ =>
      rw [h₂] at hk₂
      obtain ⟨k,hk⟩ := (Does.program h₁ h₂).padded k₂
      exact ⟨k,(Does.program hk₁ hk₂).unique hk⟩

end Padded

/-- What a program does when its window is filled. -/
def filled : Step Unit := do
  headerLine "#include <stdio.h>"
  headerLine "int main(void)\x7b"
  let fuel := (← get).stream.items.length + 3
  repeatWhile (· = .newline) advance fuel
  statementsUntil .eof fuel
  emitLine "return 0;"
  emitLine "\x7d"
  match (← get).symbols.unresolved with
  | [] => pure ()
  | target :: _ => fail target.line (.name (.undeclaredLabel target.name))

theorem program_eq : program = (do advance; advance; filled) := rfl

theorem consumes_filled : Consumes 0 filled := by
  have hline : ∀ text, Consumes 0 (headerLine text) :=
    fun text _ => consumesAt_of_ok rfl rfl rfl rfl
  intro g
  refine (hline _ g).bind (m := 0) fun _ g₁ _ => (hline _ g₁).bind (m := 0) fun _ g₂ _ => .state ?_
  have hfeeds := consumes_repeatWhile (p := (· = .newline)) rfl
    (fun g hk => (consumesAt_advance (g := g) hk).zero) (g₂.stream.items.length + 3)
  refine (hfeeds g₂).bind (m := 0) fun _ g₃ _ => ?_
  refine ((consumes_statements _).2 .eof g₃).bind (m := 0) fun _ g₄ _ => ?_
  refine (consumes_emitLine _ g₄).bind (m := 0) fun _ g₅ _ => ?_
  refine (consumes_emitLine _ g₅).bind (m := 0) fun _ g₆ _ => .state ?_
  cases g₆.symbols.unresolved with
  | nil => exact consumes_pure () g₆
  | cons target targets => exact consumes_fail 0 _ _ g₆

/-- A run fails to fill its window, or from there the machine, which has no fuel to run out of,
comes to the same outcome. -/
def Returns (stream : TokenStream) : Prop :=
  (∃ fault g, advance { stream := stream } = .error fault g ∧
    program { stream := stream } = .error fault g) ∨
  (∃ g₁ fault g, advance { stream := stream } = .ok () g₁ ∧ advance g₁ = .error fault g ∧
    program { stream := stream } = .error fault g) ∨
  ∃ g₁ g₂, advance { stream := stream } = .ok () g₁ ∧ advance g₁ = .ok () g₂ ∧
    Does [.feeds,.statements .eof,.ending] (opened g₂) (program { stream := stream })

theorem program_returns (stream : TokenStream) : Returns stream := by
  cases h₁ : advance { stream := stream } with
  | error fault g => exact .inl ⟨fault,g,h₁,bind_error.mpr (.inl h₁)⟩
  | ok _ g₁ =>
    cases h₂ : advance g₁ with
    | error fault g =>
      exact .inr (.inl ⟨g₁,fault,g,h₁,h₂,bind_error.mpr (.inr ⟨_,_,h₁,bind_error.mpr (.inl h₂)⟩)⟩)
    | ok _ g₂ => exact .inr (.inr ⟨g₁,g₂,h₁,h₂,.program h₁ h₂⟩)

section Count
variable {g g' : Generator} {items rest rest' : List (Except Fault Token)} {ts : List Token}
  {t : Token} {fault : Fault}

/-- Tokens in front of the end token are no more than the items there. -/
theorem length_le_of_proper (h : items ++ .ok t :: rest = ts.map .ok ++ rest') (ht : t.kind = .eof)
    (hp : ∀ u ∈ ts, u.kind ≠ .eof) : ts.length ≤ items.length := by
  rcases List.append_eq_append_iff.mp h with ⟨more,hm,hr⟩ | ⟨more,hm,-⟩
  · cases more with
    | nil =>
      have hl := congrArg List.length hm
      simp at hl
      omega
    | cons item more =>
      rw [List.cons_append,List.cons_eq_cons] at hr
      have hmem : (.ok t : Except Fault Token) ∈ ts.map .ok := by
        rw [hm,← hr.1]
        simp
      obtain ⟨u,hu,he⟩ := List.mem_map.mp hmem
      cases he
      exact absurd ht (hp t hu)
  · have hl := congrArg List.length hm
    simp at hl
    omega

theorem length_advance (g : Generator) :
    g.stream.items.length ≤ (finalState (advance g)).stream.items.length + 1 := by
  unfold advance TokenStream.pull
  rcases g.stream.items with _ | ⟨_ | _,_⟩
  · exact Nat.zero_le _
  · exact le_rfl
  · exact le_rfl

/-- When the window is filled from a stream with two items or more, it and the items behind it are
those of the stream. -/
theorem ahead_of_filled {stream : TokenStream} {g₁ g₂ : Generator} (hl : 2 ≤ stream.items.length)
    (h₁ : advance { stream := stream } = .ok () g₁) (h₂ : advance g₁ = .ok () g₂) :
    g₂.ahead = stream.items := by
  obtain ⟨items,line⟩ := stream
  rcases items with _ | ⟨a,_ | ⟨b,items⟩⟩
  · simp at hl
  · simp at hl
  · cases a <;> cases h₁
    cases b <;> cases h₂
    rfl

/-- Of what stands behind the end token a step leaves all but one item. -/
theorem Consumes.left {α : Type} {x : Step α} {n : Nat} (hx : Consumes n x)
    (hg : g.ahead = items ++ .ok t :: rest) (ht : t.kind = .eof) :
    rest.length ≤ (finalState (x g)).stream.items.length + 1 := by
  have hcount : ∀ {ts : List Token} {g₁ : Generator} {k : Nat},
      g.ahead ++ List.replicate k (.ok g.stream.endToken) = ts.map .ok ++ g₁.ahead →
      rest.length + items.length ≤ g₁.stream.items.length + 1 + ts.length := by
    intro ts g₁ k he
    have hl := congrArg List.length he
    rw [hg] at hl
    simp only [Generator.ahead,List.length_append,List.length_cons,List.length_map] at hl
    omega
  have hbefore : ∀ {ts : List Token} {more : List (Except Fault Token)} {k : Nat},
      g.ahead ++ List.replicate k (.ok g.stream.endToken) = ts.map .ok ++ more →
      (∀ u ∈ ts, u.kind ≠ .eof) → ts.length ≤ items.length := by
    intro ts more k he hp
    rw [hg,List.append_assoc,List.cons_append] at he
    exact length_le_of_proper he ht hp
  cases h : x g with
  | ok a g' =>
    obtain ⟨ts,⟨hp,-,k,hk⟩,-⟩ := (hx g).ok a g' h
    have hl := hcount hk
    have hts := hbefore hk hp
    change rest.length ≤ g'.stream.items.length + 1
    omega
  | error fault g' =>
    obtain ⟨ts,g₁,⟨hp,-,k,hk⟩,hg'⟩ := (hx g).error fault g' h
    have hl := hcount hk
    have hts := hbefore hk hp
    change rest.length ≤ g'.stream.items.length + 1
    rcases hg' with rfl | ⟨hc,ha⟩
    · omega
    · -- the token that is left in the window is in front of the end token too
      have hmore : g.ahead ++ List.replicate k (.ok g.stream.endToken) =
          (ts ++ [g₁.current]).map .ok ++ .ok g₁.next :: g₁.stream.items := by
        simpa [Generator.ahead] using hk
      have hts := hbefore hmore
        (List.forall_mem_append.mpr ⟨hp,List.forall_mem_singleton.mpr hc⟩)
      rw [advance_error ha,List.length_cons] at hl
      rw [List.length_append,List.length_singleton] at hts
      omega

/-- Two of the end tokens are pulled at most. -/
theorem pulled_le (stream : TokenStream) (m : Nat) : (stream.padded m).items.length ≤
    (finalState (program { stream := stream.padded m })).stream.items.length +
      (stream.items.length + 2) := by
  have hlen : (stream.padded m).items.length = stream.items.length + m := by
    simp [TokenStream.padded]
  have hl₁ := length_advance { stream := stream.padded m }
  cases h₁ : advance { stream := stream.padded m } with
  | error fault g =>
    have hp : program { stream := stream.padded m } = .error fault g := bind_error.mpr (.inl h₁)
    rw [h₁] at hl₁
    rw [hp]
    change (stream.padded m).items.length ≤ g.stream.items.length + 1 at hl₁
    change _ ≤ g.stream.items.length + _
    omega
  | ok _ g₁ =>
    rw [h₁] at hl₁
    have hl₂ := length_advance g₁
    cases h₂ : advance g₁ with
    | error fault g =>
      have hp : program { stream := stream.padded m } = .error fault g :=
        bind_error.mpr (.inr ⟨_,_,h₁,bind_error.mpr (.inl h₂)⟩)
      rw [h₂] at hl₂
      rw [hp]
      change (stream.padded m).items.length ≤ g₁.stream.items.length + 1 at hl₁
      change g₁.stream.items.length ≤ g.stream.items.length + 1 at hl₂
      change _ ≤ g.stream.items.length + _
      omega
    | ok _ g₂ =>
      have hp : program { stream := stream.padded m } = filled g₂ := by
        rw [program_eq,advance_bind h₁,advance_bind h₂]
      rw [hp]
      rcases m with _ | _ | m
      · omega
      · omega
      · have ha : g₂.ahead = stream.items ++ .ok stream.endToken ::
            List.replicate (m + 1) (.ok stream.endToken) := ahead_of_filled (by omega) h₁ h₂
        have hleft := consumes_filled.left ha rfl
        rw [List.length_replicate] at hleft
        omega

end Count

/-- Reading comes to an end: every call of the lexer passes a character or gives the end token, for
good, and a program pulls no more than two of those. -/
theorem reading_ends (source : List Char) :
    (∀ cursor, Cursor.Reached source cursor →
      source.drop (cursor.offset source) = cursor.rest ∧
      (cursor.offset source < cursor.next.2.offset source ∧
          cursor.next.2.offset source ≤ source.length ∨
        ∃ t, cursor.next.1 = .ok t ∧ t.kind = .eof) ∧
      ∀ t, cursor.next.1 = .ok t → t.kind = .eof →
        cursor.next.2.offset source = source.length) ∧
    (∀ n, source.length ≤ n → ((Cursor.start source).after n).next.1 =
      .ok ⟨.eof,[],1 + source.count '\n'⟩) ∧
    (∀ n, ((TokenStream.ofChars source).after n).pull.1 =
      ((Cursor.start source).after n).next.1) ∧
    (∀ t, .ok t ∈ (TokenStream.ofChars source).items → t.kind ≠ .eof) ∧
    Returns (.ofChars source) ∧
    (∀ m, (∃ k, program { stream := (TokenStream.ofChars source).padded m } =
        onState (·.padded k) (program { stream := .ofChars source })) ∧
      ((TokenStream.ofChars source).padded m).items.length ≤
        (finalState (program { stream := (TokenStream.ofChars source).padded m })).stream.items.length +
          ((TokenStream.ofChars source).items.length + 2)) ∧
    (∀ fuel, Consumes 2 (statement (fuel + 1)) ∧
      (∀ close, Consumes 0 (statementsUntil close fuel)) ∧ Consumes 1 (comparison fuel) ∧
      Consumes 1 (expression fuel) ∧ Consumes 1 (term fuel) ∧ Consumes 1 (lineEnd fuel)) ∧
    Consumes 1 unary ∧ Consumes 1 primary ∧ ∀ use, Consumes 1 (name use) := by
  refine ⟨fun cursor hc => ⟨hc.drop_offset,?_,fun t ht hk => ?_⟩,fun n => Cursor.next_after,
    TokenStream.pull_ofChars source,fun t ht => (TokenStream.proper_ofChars source t ht).2,
    program_returns _,fun m => ⟨program_padded _ m,pulled_le _ m⟩,fun fuel => ?_,consumes_unary,
    consumes_primary,consumes_name⟩
  · have hl := hc.suffix.length_le
    refine cursor.length_next_lt.imp_left fun h => ⟨?_,Nat.sub_le _ _⟩
    unfold Cursor.offset
    omega
  · rw [(Cursor.next_eof ht hk).2.1]
    rfl
  · exact ⟨consumes_statement fuel,(consumes_statements fuel).2,consumes_comparison fuel,
      consumes_expression fuel,consumes_term fuel,consumes_lineEnd fuel⟩

/-- Three faults, a line and an operator that is the last character. -/
theorem reading_ends_of_faults :
    let source := "GOTO @\"a%\n=".toList
    let cursor := (Cursor.start source).after 5
    let first : Token := ⟨.keyword .goto,"GOTO".toList,1⟩
    let last : Token := ⟨.eof,[],2⟩
    (Cursor.Reached source cursor ∧ cursor.next.1 = .ok last ∧ last.kind = .eof ∧
      source.length ≤ 11 ∧ .ok first ∈ (TokenStream.ofChars source).items) ∧
    source.drop (cursor.offset source) = cursor.rest ∧
    cursor.next.2.offset source = source.length ∧
    ((Cursor.start source).after 11).next.1 = .ok ⟨.eof,[],1 + source.count '\n'⟩ ∧
    first.kind ≠ .eof := by
  intro source cursor first last
  obtain ⟨hcursor,hafter,-,hitems,-⟩ := reading_ends source
  have hr : Cursor.Reached source cursor := Cursor.reached_after source 5
  have hn : cursor.next.1 = .ok last := rfl
  have hm : .ok first ∈ (TokenStream.ofChars source).items := .head _
  obtain ⟨hd,-,he⟩ := hcursor cursor hr
  exact ⟨⟨hr,hn,rfl,by decide,hm⟩,hd,he last hn rfl,hafter 11 (by decide),hitems first hm⟩

end Generator
end TeenyTiny
