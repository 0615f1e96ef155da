import TeenyTiny.Proofs.LayoutIndependence

/-! What a goal comes to is settled by the current token, the table and the listing. Of the tokens
behind the current one nothing is seen, except that a fault among them is found when the window
moves on to it. So a fault of the generator is about the current token, and runs that have the same
token in front of them go the same way. -/
namespace TeenyTiny
open Text Ast

/-- The end token was found where another one was wanted. -/
def GrammarCause.isAtEnd : GrammarCause → Bool
  | expected _ found _ | invalidStatement found _ | missingComparison found _
  | invalidOperand found _ => found = .eof
  | unclosedBlock _ => true
  | keywordAsName _ => false

/-- An error of syntax at the end token. -/
def Cause.isAtEnd : Cause → Bool
  | grammar cause => cause.isAtEnd
  | _ => false

/-- The fault is one of syntax or of names, and it is found at this token. -/
inductive Token.Blamed (t : Token) : Fault → Prop
  | grammar {cause : GrammarCause} (h : cause.isAtEnd = decide (t.kind = .eof)) :
    Blamed t ⟨t.line,.grammar cause⟩
  | name {cause : NameCause} (hk : t.kind = .ident)
    (h : (Cause.name cause).rule? ≠ some .labelDeclared) : Blamed t ⟨t.line,.name cause⟩

namespace Generator

/-- What becomes of a goal: whether the current token is passed, and then the fault that is found,
or the goals that are left, with the table and the listing. -/
structure Verdict where
  passes : Bool
  result : Except Fault (List Goal × Symbols × Listing)

/-- An outcome without the window. -/
def entered : Outcome (List Goal) → Except Fault (List Goal × Symbols × Listing)
  | .ok more g => .ok (more,g.symbols,g.listing)
  | .error fault _ => .error fault

def settle (result : Except Fault (List Goal × Symbols × Listing)) (g : Generator) :
    Outcome (List Goal) :=
  match result with
  | .ok (more,symbols,listing) => .ok more { g with symbols, listing }
  | .error fault => .error fault g

def Verdict.follow (v : Verdict) (g : Generator) : Outcome (List Goal) :=
  if v.passes then
    match advance g with
    | .ok _ g' => settle v.result g'
    | .error fault g' => .error fault g'
  else settle v.result g

def refusal (cause : GrammarCause) (g : Generator) : Verdict :=
  ⟨false,.error ⟨g.current.line,.grammar cause⟩⟩

def passage (kind : Kind) (result : Except Fault (List Goal × Symbols × Listing))
    (g : Generator) : Verdict :=
  if g.current.kind = kind then ⟨true,result⟩
  else g.refusal (.expected kind g.current.kind g.current.text)

/-- A name is passed before it is known whether it may be used. -/
def naming (use : NameUse) (result : Except Fault (List Goal × Symbols × Listing))
    (g : Generator) : Verdict :=
  if g.current.kind.isKeyword then g.refusal (.keywordAsName g.current.text)
  else g.passage .ident <|
    if isReserved use g.current.text then
      .error ⟨g.current.line,.name (.reservedName g.current.text)⟩
    else result

def verdict : Goal → Generator → Verdict
  | .pass kind,g => g.passage kind (entered (.ok [] g))
  | .lineEnd,g => g.passage .newline (entered (.ok [.feeds] g))
  | .feeds,g =>
    if g.current.kind = .newline then ⟨true,entered (.ok [.feeds] g)⟩
    else ⟨false,entered (.ok [] g)⟩
  | .label,g => g.naming .label (entered (placeLabel g.current g))
  | .jump,g => g.naming .label (entered (placeJump g.current g))
  | .target,g => g.naming .variable (entered (placeTarget g.current g))
  | .input,g => g.naming .variable (entered (placeInput g.current g))
  | goal,g => ⟨false,entered (perform goal g)⟩

/-- States that look the same to every goal. -/
structure Twin (g g₁ : Generator) : Prop where
  current : g₁.current = g.current
  symbols : g₁.symbols = g.symbols
  listing : g₁.listing = g.listing

section Verdict
variable {g g' g₁ : Generator} {goal : Goal} {fault : Fault}

theorem Twin.refl (g : Generator) : Twin g g := ⟨rfl,rfl,rfl⟩

theorem Twin.eq (h : Twin g g₁) : g₁ = { g with stream := g₁.stream, next := g₁.next } := by
  obtain ⟨hc,hs,hl⟩ := h
  cases g₁
  cases hc
  cases hs
  cases hl
  rfl

/-- A state that is untouched has another window and nothing else. -/
theorem Untouched.eq (hu : Untouched g g') :
    g' = { g with stream := g'.stream, current := g'.current, next := g'.next } := by
  obtain ⟨hs,hl⟩ := hu
  cases g'
  cases hs
  cases hl
  rfl

theorem Twin.untouched (h : Twin g g₁) (hu : Untouched g₁ g') : Untouched g g' :=
  ⟨hu.1.trans h.symbols,hu.2.trans h.listing⟩

theorem Twin.expecting (h : Twin g g₁) (kind : Kind) (more : List Goal) :
    expecting kind more g₁ = (g.passage kind (entered (.ok more g))).follow g₁ := by
  unfold Generator.expecting passage
  rw [h.current]
  split_ifs
  · have hu := untouched_advance g₁
    unfold passing Verdict.follow
    cases ha : advance g₁ with
    | ok u g' =>
      rw [ha] at hu
      obtain ⟨hs,hl⟩ := h.untouched hu
      simp only [if_true,entered,settle,← hs,← hl]
    | error fault g' => rfl
  · rw [stuck,h.current]
    rfl

theorem expect_eq (kind : Kind) (g : Generator) : expect kind g =
    if g.current.kind = kind then
      match advance g with
      | .ok _ g' => .ok g.current g'
      | .error fault g' => .error fault g'
    else .error ⟨g.current.line,.grammar (.expected kind g.current.kind g.current.text)⟩ g := by
  change (if g.current.kind ≠ kind then _ else _ : Step Token) g = _
  by_cases hk : g.current.kind = kind
  · rw [if_neg (not_not.mpr hk),if_pos hk]
    change EStateM.bind _ _ g = _
    unfold EStateM.bind
    cases advance g <;> rfl
  · rw [if_pos hk,if_neg hk]
    rfl

theorem name_eq (use : NameUse) (g : Generator) : name use g =
    if g.current.kind.isKeyword then
      .error ⟨g.current.line,.grammar (.keywordAsName g.current.text)⟩ g
    else if g.current.kind = .ident then
      match advance g with
      | .ok _ g' =>
        if isReserved use g.current.text then
          .error ⟨g.current.line,.name (.reservedName g.current.text)⟩ g'
        else .ok g.current g'
      | .error fault g' => .error fault g'
    else .error ⟨g.current.line,.grammar (.expected .ident g.current.kind g.current.text)⟩ g := by
  change (if g.current.kind.isKeyword then _ else _ : Step Token) g = _
  by_cases hk : g.current.kind.isKeyword
  · rw [if_pos hk,if_pos hk]
    rfl
  rw [if_neg hk,if_neg hk]
  change EStateM.bind _ _ g = _
  unfold EStateM.bind
  rw [expect_eq]
  by_cases hi : g.current.kind = .ident
  · rw [if_pos hi,if_pos hi]
    cases advance g with
    | ok u g' =>
      dsimp only
      split_ifs <;> rfl
    | error fault g' => rfl
  · rw [if_neg hi,if_neg hi]

/-- What is done with a name does not depend on the tokens behind it. -/
theorem Twin.naming (h : Twin g g₁) {use : NameUse} {place : Token → Step (List Goal)}
    (hp : ∀ g', Untouched g g' → place g.current g' = settle (entered (place g.current g)) g') :
    (name use >>= place) g₁ = (g.naming use (entered (place g.current g))).follow g₁ := by
  have hu := untouched_advance g₁
  change EStateM.bind _ _ g₁ = _
  unfold EStateM.bind Generator.naming passage
  rw [name_eq,h.current]
  split_ifs with hk hi hr
  · rfl
  · unfold Verdict.follow
    cases ha : advance g₁ <;> rfl
  · unfold Verdict.follow
    cases ha : advance g₁ with
    | ok u g' =>
      rw [ha] at hu
      exact hp g' (h.untouched hu)
    | error fault g' => rfl
  · rfl

/-- The same verdict is followed wherever the window shows the same token. -/
theorem Twin.perform_eq (h : Twin g g₁) (goal : Goal) :
    perform goal g₁ = (verdict goal g).follow g₁ := by
  cases goal with
  | pass kind => exact h.expecting kind []
  | lineEnd => exact h.expecting .newline [.feeds]
  | feeds =>
    have hp := h.expecting .newline [.feeds]
    unfold Generator.expecting passage at hp
    rw [perform,verdict]
    rw [h.current] at hp ⊢
    split_ifs at hp ⊢
    · exact hp
    · rw [h.eq]
      rfl
  | label =>
    refine h.naming fun g' hu => ?_
    rw [hu.eq]
    unfold placeLabel
    dsimp only
    split <;> rfl
  | jump | target | input =>
    refine h.naming fun g' hu => ?_
    rw [hu.eq]
    rfl
  | operand =>
    rw [h.eq]
    change _ = settle (entered (perform .operand g)) _
    rw [perform,perform]
    dsimp only
    cases g.current.kind with
    | ident =>
      dsimp only
      split_ifs <;> rfl
    | _ => rfl
  | unary | factors | summands | comparands =>
    rw [h.eq]
    change _ = settle (entered (copying _ _ _ g)) _
    rw [perform]
    unfold copying
    dsimp only
    split_ifs <;> rfl
  | compared | print | statements =>
    rw [h.eq]
    change _ = settle (entered (perform _ g)) _
    rw [perform,perform]
    dsimp only
    split_ifs <;> rfl
  | start f =>
    rw [h.eq]
    cases f <;> rfl
  | finish | close | ending =>
    rw [h.eq]
    rfl
  | statement =>
    rw [h.eq]
    change _ = settle (entered (perform .statement g)) _
    rw [perform,perform]
    dsimp only
    cases Goal.rest? g.current.kind <;> rfl
  | resolve =>
    rw [h.eq]
    change _ = settle (entered (perform .resolve g)) _
    rw [perform,perform]
    dsimp only
    cases g.symbols.unresolved <;> rfl

theorem blamed_of_passage {kind : Kind} {result : Except Fault (List Goal × Symbols × Listing)}
    (hr : g.current.kind = kind → result = .error fault → g.current.Blamed fault)
    (h : (g.passage kind result).result = .error fault) : g.current.Blamed fault := by
  unfold passage at h
  split_ifs at h with hk
  · exact hr hk h
  · cases h
    exact .grammar rfl

theorem blamed_of_naming {use : NameUse} {result : Except Fault (List Goal × Symbols × Listing)}
    (hr : g.current.kind = .ident → result = .error fault → g.current.Blamed fault)
    (h : (g.naming use result).result = .error fault) : g.current.Blamed fault := by
  unfold naming at h
  split_ifs at h with hk
  · cases h
    refine .grammar (decide_eq_false fun he => ?_).symm
    rw [he] at hk
    cases hk
  · refine blamed_of_passage (fun hi _ => ?_) h
    cases ‹Except.error _ = _›
    exact .name hi (by simp [Cause.rule?])
  · exact blamed_of_passage hr h

/-- All faults but missing labels are found at the current token. -/
theorem blamed_of_verdict (hg : goal ≠ .resolve) (h : (verdict goal g).result = .error fault) :
    g.current.Blamed fault := by
  cases goal with
  | pass | lineEnd => exact blamed_of_passage (fun _ h => by cases h) h
  | feeds =>
    rw [verdict] at h
    split_ifs at h <;> cases h
  | label =>
    refine blamed_of_naming (fun hi h => ?_) h
    unfold placeLabel at h
    split at h
    · cases h
      exact .name hi (by simp [Cause.rule?])
    · cases h
  | jump | target | input => exact blamed_of_naming (fun _ h => by cases h) h
  | operand =>
    change entered (perform .operand g) = _ at h
    rw [perform] at h
    split at h
    · cases h
    · split_ifs at h
      · cases h
      · cases h
        exact .name ‹_› (by simp [Cause.rule?])
    · cases h
      exact .grammar rfl
  | unary | factors | summands | comparands =>
    change entered (copying _ _ _ g) = _ at h
    unfold copying at h
    split_ifs at h <;> cases h
  | compared =>
    change entered (perform .compared g) = _ at h
    rw [perform] at h
    split_ifs at h <;> cases h
    exact .grammar rfl
  | start | finish | close | ending => cases h
  | print =>
    change entered (perform .print g) = _ at h
    rw [perform] at h
    split_ifs at h <;> cases h
  | statement =>
    change entered (perform .statement g) = _ at h
    rw [perform] at h
    split at h <;> cases h
    exact .grammar rfl
  | statements close =>
    change entered (perform (.statements close) g) = _ at h
    rw [perform] at h
    split_ifs at h with hc he <;> cases h
    exact .grammar (decide_eq_true he).symm
  | resolve => exact absurd rfl hg

theorem labelDeclared_of_resolve (h : (verdict .resolve g).result = .error fault) :
    fault.cause.rule? = some .labelDeclared := by
  change entered (perform .resolve g) = _ at h
  rw [perform] at h
  split at h <;> cases h
  rfl

/-- A goal that is performed passes the current token or leaves the window as it is. -/
theorem perform_ok {more : List Goal} (h : perform goal g = .ok more g') :
    ∃ g₁ symbols listing, (verdict goal g).result = .ok (more,symbols,listing) ∧
      g' = { g₁ with symbols, listing } ∧
      ((verdict goal g).passes = true ∧ advance g = .ok () g₁ ∨
        (verdict goal g).passes = false ∧ g₁ = g) := by
  have hsettle : ∀ {result g₁}, settle result g₁ = .ok more g' → ∃ symbols listing,
      result = .ok (more,symbols,listing) ∧ g' = { g₁ with symbols, listing } := by
    intro result g₁ h
    cases result with
    | ok x =>
      cases h
      exact ⟨_,_,rfl,rfl⟩
    | error fault => cases h
  rw [(Twin.refl g).perform_eq,Verdict.follow] at h
  split_ifs at h with hp
  · cases ha : advance g with
    | ok u g₁ =>
      rw [ha] at h
      obtain ⟨symbols,listing,hr,hg⟩ := hsettle h
      exact ⟨g₁,symbols,listing,hr,hg,.inl ⟨hp,rfl⟩⟩
    | error fault g₁ =>
      rw [ha] at h
      cases h
  · obtain ⟨symbols,listing,hr,hg⟩ := hsettle h
    exact ⟨g,symbols,listing,hr,hg,.inr ⟨by simpa using hp,rfl⟩⟩

/-- A goal fails because the window cannot be moved on, or by its verdict. -/
theorem perform_error (h : perform goal g = .error fault g') :
    advance g = .error fault g' ∨ (verdict goal g).result = .error fault := by
  have hsettle : ∀ {result g₁}, settle result g₁ = .error fault g' → result = .error fault := by
    intro result g₁ h
    cases result <;> cases h
    rfl
  rw [(Twin.refl g).perform_eq,Verdict.follow] at h
  split_ifs at h
  · cases ha : advance g with
    | ok u g₁ =>
      rw [ha] at h
      exact .inr (hsettle h)
    | error _ g₁ =>
      rw [ha] at h
      cases h
      exact .inl rfl
  · exact .inr (hsettle h)

end Verdict

/-- The items that are still to be read, the current token first. The window is padded with end
tokens. -/
def Shows (g : Generator) (ahead : List (Except Fault Token)) : Prop :=
  ∃ k, .ok g.current :: .ok g.next :: g.stream.items =
    ahead ++ List.replicate k (.ok g.stream.endToken)

section Shows
variable {g g' : Generator} {goal : Goal} {ahead : List (Except Fault Token)} {fault : Fault}

theorem advance_error (h : advance g = .error fault g') :
    g.stream.items = .error fault :: g'.stream.items := by
  unfold advance TokenStream.pull at h
  cases hi : g.stream.items with
  | nil =>
    rw [hi] at h
    cases h
  | cons item items =>
    rw [hi] at h
    cases item <;> cases h
    rfl

theorem endToken_advance (h : advance g = .ok () g') :
    g'.stream.endToken = g.stream.endToken := by
  unfold advance TokenStream.pull at h
  cases hi : g.stream.items with
  | nil =>
    rw [hi] at h
    cases h
    rfl
  | cons item items =>
    rw [hi] at h
    cases item <;> cases h
    rfl

theorem Shows.perform {more : List Goal} (hs : g.Shows ahead)
    (h : perform goal g = .ok more g') :
    g'.Shows (if (verdict goal g).passes then ahead.tail else ahead) ∧
      g'.stream.endToken = g.stream.endToken := by
  obtain ⟨g₁,symbols,listing,-,rfl,⟨hp,ha⟩ | ⟨hp,rfl⟩⟩ := perform_ok h
  · have hw := window_next hs ha
    have he := endToken_advance ha
    rw [if_pos hp]
    exact ⟨hw,he⟩
  · rw [if_neg (by simp [hp])]
    exact ⟨hs,rfl⟩

/-- The current token is the first item ahead, or nothing is ahead of the end. -/
theorem Shows.current (hs : g.Shows ahead) :
    (∃ rest, ahead = .ok g.current :: rest) ∨ ahead = [] ∧ g.current = g.stream.endToken := by
  obtain ⟨k,hk⟩ := hs
  cases ahead with
  | nil =>
    cases k with
    | zero => cases hk
    | succ k => exact .inr ⟨rfl,by simpa using (List.cons_eq_cons.mp hk).1⟩
  | cons item rest => exact .inl ⟨rest,by rw [(List.cons_eq_cons.mp hk).1]⟩

/-- A fault is found when it is behind the two tokens of the window. -/
theorem Shows.of_advance_error (hs : g.Shows ahead) (h : advance g = .error fault g') :
    ∃ rest, ahead = .ok g.current :: .ok g.next :: .error fault :: rest := by
  obtain ⟨k,hk⟩ := hs
  rw [advance_error h] at hk
  have hpad : ∀ {items : List (Except Fault Token)}, .error fault ∈ items →
      items ≠ List.replicate k (.ok g.stream.endToken) := by
    rintro _ hm rfl
    cases List.eq_of_mem_replicate hm
  rcases ahead with _ | ⟨t,_ | ⟨u,_ | ⟨item,rest⟩⟩⟩
  · exact absurd hk (hpad (by simp))
  · exact absurd (List.cons_eq_cons.mp hk).2 (hpad (by simp))
  · exact absurd (List.cons_eq_cons.mp (List.cons_eq_cons.mp hk).2).2 (hpad (by simp))
  · simp only [List.cons_append,List.cons.injEq] at hk
    obtain ⟨rfl,rfl,rfl,-⟩ := hk
    exact ⟨rest,rfl⟩

end Shows

/-- A run that fails does so at some goal; what every step before it keeps holds there. -/
theorem Does.fails (Inv : List Goal → Generator → Prop) {goals : List Goal} {g g' : Generator}
    {fault : Fault} (hd : Does goals g (.error fault g')) (h : Inv goals g)
    (step : ∀ goal goals g more g', Inv (goal :: goals) g → perform goal g = .ok more g' →
      Inv (more ++ goals) g') :
    ∃ goal goals g₁, Inv (goal :: goals) g₁ ∧ perform goal g₁ = .error fault g' := by
  generalize hr : EStateM.Result.error fault g' = r at hd
  induction hd with
  | done => cases hr
  | step hp _ ih => exact ih (step _ _ _ _ _ h hp) hr
  | stop hp =>
    cases hr
    exact ⟨_,_,_,h,hp⟩

/-- What a goal comes to as far as the grammar goes: whether the token is passed and the goals that
are left, or nothing if the token cannot stand there. -/
def Goal.plan? : Goal → Token → Option (Bool × List Goal)
  | .pass kind,t => if t.kind = kind then some (true,[]) else none
  | .lineEnd,t => if t.kind = .newline then some (true,[.feeds]) else none
  | .feeds,t => some (if t.kind = .newline then (true,[.feeds]) else (false,[]))
  | .operand,t =>
    if t.kind = .number ∨ t.kind = .ident then some (false,[.pass t.kind]) else none
  | .unary,t => some (false,if isSign t.kind then [.pass t.kind,.operand] else [.operand])
  | .factors,t =>
    some (false,if isFactorOperator t.kind then [.pass t.kind,.unary,.factors] else [])
  | .summands,t => some (false,if isSign t.kind then .pass t.kind :: Goal.expression else [])
  | .compared,t => if t.kind.isComparison then some (false,[.comparands]) else none
  | .comparands,t =>
    some (false,if t.kind.isComparison then .pass t.kind :: (Goal.expression ++ [.comparands])
      else [])
  | .print,t => some (false,if t.kind = .string then [.pass .string] else Goal.formula .value)
  | .label,t | .jump,t | .input,t => if t.kind = .ident then some (true,[]) else none
  | .target,t =>
    if t.kind = .ident then some (true,.pass .assign :: Goal.formula (.assigned t.lexeme)) else none
  | .statement,t =>
    (Goal.rest? t.kind).map fun more => (false,.pass t.kind :: (more ++ [.lineEnd]))
  | .statements kind,t =>
    if t.kind = kind then some (false,[])
    else if t.kind = .eof then none
    else some (false,[.statement,.statements kind])
  | .start _,_ | .finish _,_ | .close,_ | .resolve,_ => some (false,[])
  | .ending,_ => some (false,[.resolve])

/-- The verdict goes by the plan, unless a name is at fault. -/
def Verdict.GoesBy (v : Verdict) (plan : Option (Bool × List Goal)) : Prop :=
  match v.result with
  | .ok (more,_,_) => plan = some (v.passes,more)
  | .error fault => fault.cause.kind = .syntactic → plan = none

section Plan
variable {g g' : Generator} {goal : Goal} {goals more : List Goal}

theorem goesBy_passage {kind : Kind} {result : Except Fault (List Goal × Symbols × Listing)}
    (h : Verdict.GoesBy ⟨true,result⟩ (some (true,more))) : (g.passage kind result).GoesBy
      (if g.current.kind = kind then some (true,more) else none) := by
  unfold passage
  split_ifs
  · exact h
  · exact fun _ => rfl

theorem goesBy_naming {use : NameUse} {result : Except Fault (List Goal × Symbols × Listing)}
    (h : Verdict.GoesBy ⟨true,result⟩ (some (true,more))) : (g.naming use result).GoesBy
      (if g.current.kind = .ident then some (true,more) else none) := by
  unfold naming
  by_cases hk : g.current.kind.isKeyword
  · have hi : g.current.kind ≠ .ident := by
      intro hi
      rw [hi] at hk
      cases hk
    rw [if_pos hk,if_neg hi]
    exact fun _ => rfl
  · rw [if_neg hk]
    refine goesBy_passage ?_
    split_ifs
    · intro h
      cases h
    · exact h

theorem goesBy_verdict (goal : Goal) (g : Generator) :
    (verdict goal g).GoesBy (goal.plan? g.current) := by
  cases goal with
  | pass | lineEnd => exact goesBy_passage rfl
  | feeds =>
    rw [verdict,Goal.plan?]
    split_ifs <;> rfl
  | label =>
    refine goesBy_naming ?_
    unfold placeLabel
    split
    · intro h
      cases h
    · rfl
  | jump | target | input => exact goesBy_naming rfl
  | operand =>
    change Verdict.GoesBy ⟨false,entered (perform .operand g)⟩ _
    rw [perform,Goal.plan?]
    cases hk : g.current.kind with
    | ident =>
      by_cases hd : g.symbols.isDefined g.current.text
      · rw [if_pos hd]
        rfl
      · rw [if_neg hd]
        intro h
        cases h
    | number => rfl
    | _ => exact fun _ => rfl
  | unary | factors | summands | comparands =>
    change Verdict.GoesBy ⟨false,entered (copying _ _ _ g)⟩ _
    rw [Goal.plan?]
    unfold copying
    split_ifs <;> rfl
  | compared =>
    change Verdict.GoesBy ⟨false,entered (perform .compared g)⟩ _
    rw [perform,Goal.plan?]
    split_ifs
    · rfl
    · exact fun _ => rfl
  | start | finish | close | ending => rfl
  | print =>
    change Verdict.GoesBy ⟨false,entered (perform .print g)⟩ _
    rw [perform,Goal.plan?]
    split_ifs <;> rfl
  | statement =>
    change Verdict.GoesBy ⟨false,entered (perform .statement g)⟩ _
    rw [perform,Goal.plan?]
    cases Goal.rest? g.current.kind with
    | some more => rfl
    | none => exact fun _ => rfl
  | statements close =>
    change Verdict.GoesBy ⟨false,entered (perform (.statements close) g)⟩ _
    rw [perform,Goal.plan?]
    split_ifs
    · rfl
    · exact fun _ => rfl
    · rfl
  | resolve =>
    change Verdict.GoesBy ⟨false,entered (perform .resolve g)⟩ _
    rw [perform]
    cases g.symbols.unresolved with
    | nil => rfl
    | cons target targets =>
      intro h
      cases h

theorem plan?_of_ok (h : perform goal g = .ok more g') :
    goal.plan? g.current = some ((verdict goal g).passes,more) := by
  obtain ⟨g₁,symbols,listing,hr,-⟩ := perform_ok h
  have hv := goesBy_verdict goal g
  rw [Verdict.GoesBy,hr] at hv
  exact hv

theorem plan?_of_error {fault : Fault} (h : (verdict goal g).result = .error fault)
    (hc : fault.cause.kind = .syntactic) : goal.plan? g.current = none := by
  have hv := goesBy_verdict goal g
  rw [Verdict.GoesBy,h] at hv
  exact hv hc

end Plan

/-- Goals inside the program, which leave its end to others. -/
def Goal.isInner : Goal → Bool
  | .pass kind | .statements kind => kind ≠ .eof
  | .ending | .resolve => false
  | _ => true

theorem Goal.eq_pass_of_plan? {goal : Goal} {t : Token} {more : List Goal}
    (h : goal.plan? t = some (true,more)) :
    goal = .pass t.kind ∨ t.kind = .newline ∨ t.kind = .ident := by
  cases goal with
  | pass kind =>
    rw [plan?] at h
    split_ifs at h with hk
    exact .inl (by rw [hk])
  | lineEnd =>
    rw [plan?] at h
    split_ifs at h with hk
    exact .inr (.inl hk)
  | feeds =>
    rw [plan?] at h
    split_ifs at h with hk <;> cases h
    exact .inr (.inl hk)
  | label | jump | input | target =>
    rw [plan?] at h
    split_ifs at h with hk
    exact .inr (.inr hk)
  | operand | compared | statements =>
    rw [plan?] at h
    split_ifs at h <;> cases h
  | statement =>
    obtain ⟨rest,-,h⟩ := Option.map_eq_some_iff.mp h
    cases h
  | _ => cases h

theorem Goal.isInner_rest? {kind : Kind} {more : List Goal} (h : rest? kind = some more) :
    (pass kind :: (more ++ [lineEnd])).all isInner = true := by
  unfold rest? at h
  split at h <;> cases h <;> rfl

theorem Goal.isInner_plan? {goal : Goal} {t : Token} {passes : Bool} {more : List Goal}
    (hg : goal.isInner = true) (h : goal.plan? t = some (passes,more)) :
    more.all isInner = true := by
  have hif : ∀ {p : Kind → Bool} {out otherwise : List Goal}, p .eof = false →
      out.all isInner = true → otherwise.all isInner = true →
      (if p t.kind then .pass t.kind :: out else otherwise).all isInner = true := by
    intro p out otherwise hp ho hn
    split_ifs with hk
    · have he : t.kind ≠ .eof := by
        intro he
        rw [he,hp] at hk
        cases hk
      simp [isInner,he,ho]
    · exact hn
  cases goal with
  | pass | lineEnd | label | jump | input | target | compared =>
    rw [plan?] at h
    split_ifs at h
    cases h
    rfl
  | feeds =>
    rw [plan?] at h
    split_ifs at h <;> cases h <;> rfl
  | operand =>
    rw [plan?] at h
    split_ifs at h with hk
    cases h
    rcases hk with hk | hk <;> simp [isInner,hk]
  | unary | factors | summands | comparands =>
    cases h
    exact hif rfl rfl rfl
  | start | finish | close =>
    cases h
    rfl
  | print =>
    cases h
    split_ifs <;> rfl
  | statement =>
    obtain ⟨rest,hr,h⟩ := Option.map_eq_some_iff.mp h
    cases h
    exact isInner_rest? hr
  | statements kind =>
    rw [plan?] at h
    split_ifs at h <;> cases h
    · rfl
    · simpa [isInner] using hg
  | ending | resolve => cases hg

/-- The goals of a program. Its end is left for the last and begins at the end token. -/
inductive Stage : List Goal → Kind → Prop
  | inside (goals : List Goal) {kind : Kind} (h : goals.all Goal.isInner = true) :
    Stage (goals ++ [.statements .eof,.ending]) kind
  | ending : Stage [.ending] .eof
  | resolve : Stage [.resolve] .eof
  | done : Stage [] .eof

section Stage
variable {g g' : Generator} {goal : Goal} {goals more : List Goal}

/-- A goal that passes nothing leaves the current token. -/
theorem current_of_plan? {plan : List Goal} (hp : goal.plan? g.current = some (false,plan))
    (h : perform goal g = .ok more g') : more = plan ∧ g'.current = g.current := by
  rw [plan?_of_ok h,Option.some_inj,Prod.mk.injEq] at hp
  obtain ⟨g₁,symbols,listing,-,rfl,⟨ht,-⟩ | ⟨-,rfl⟩⟩ := perform_ok h
  · rw [ht] at hp
    cases hp.1
  · exact ⟨hp.2,rfl⟩

theorem Stage.step (hs : Stage (goal :: goals) g.current.kind)
    (h : perform goal g = .ok more g') : Stage (more ++ goals) g'.current.kind := by
  generalize hk : g.current.kind = kind at hs
  generalize hgs : goal :: goals = all at hs
  cases hs with
  | inside pre hin =>
    rcases pre with _ | ⟨first,pre⟩
    · -- the block of the program is closed by the end token
      cases hgs
      by_cases he : g.current.kind = .eof
      · obtain ⟨rfl,hc⟩ := current_of_plan? (by rw [Goal.plan?,if_pos he]) h
        rw [hc,he]
        exact .ending
      · obtain ⟨rfl,-⟩ := current_of_plan? (by rw [Goal.plan?,if_neg he,if_neg he]) h
        exact .inside [.statement] rfl
    · rw [List.cons_append] at hgs
      obtain ⟨rfl,rfl⟩ := List.cons_eq_cons.mp hgs
      rw [List.all_cons,Bool.and_eq_true] at hin
      rw [← List.append_assoc]
      refine .inside _ ?_
      rw [List.all_append,Goal.isInner_plan? hin.1 (plan?_of_ok h),hin.2]
      rfl
  | ending =>
    cases hgs
    obtain ⟨rfl,hc⟩ := current_of_plan? rfl h
    rw [hc,hk]
    exact .resolve
  | resolve =>
    cases hgs
    obtain ⟨rfl,hc⟩ := current_of_plan? rfl h
    rw [hc,hk]
    exact .done
  | done => cases hgs

end Stage

/-- Where a run stands in the stream: the tokens that are passed and the items ahead. -/
structure Reached (stream : TokenStream) (passed : List Token) (ahead : List (Except Fault Token))
    (goals : List Goal) (g : Generator) : Prop where
  items : stream.items = passed.map .ok ++ ahead
  shows : g.Shows ahead
  endToken : g.stream.endToken = stream.endToken
  stage : Stage goals g.current.kind

section Reached
variable {stream : TokenStream} {passed : List Token} {ahead : List (Except Fault Token)}
  {goals more : List Goal} {goal : Goal} {g g' : Generator} {fault : Fault}

/-- The end token is never passed. -/
theorem Stage.kind_ne_eof {t : Token} (hs : Stage (goal :: goals) t.kind)
    (h : goal.plan? t = some (true,more)) : t.kind ≠ .eof := by
  intro he
  generalize t.kind = kind at hs
  generalize hgs : goal :: goals = all at hs
  cases hs with
  | inside pre hin =>
    rcases pre with _ | ⟨first,pre⟩
    · cases hgs
      rw [Goal.plan?,if_pos he] at h
      cases h
    · obtain ⟨rfl,-⟩ := List.cons_eq_cons.mp hgs
      rw [List.all_cons,Bool.and_eq_true] at hin
      rcases Goal.eq_pass_of_plan? h with rfl | hk | hk
      · simp [Goal.isInner,he] at hin
      · simp [he] at hk
      · simp [he] at hk
  | ending | resolve =>
    cases hgs
    cases h
  | done => cases hgs

theorem Reached.step (hr : Reached stream passed ahead (goal :: goals) g)
    (h : perform goal g = .ok more g') :
    (∃ rest, goal.plan? g.current = some (true,more) ∧ ahead = .ok g.current :: rest ∧
      Reached stream (passed ++ [g.current]) rest (more ++ goals) g') ∨
    goal.plan? g.current = some (false,more) ∧ g'.current = g.current ∧
      Reached stream passed ahead (more ++ goals) g' := by
  have hplan := plan?_of_ok h
  obtain ⟨hs,he⟩ := hr.shows.perform h
  have hst := hr.stage.step h
  cases hp : (verdict goal g).passes with
  | true =>
    rw [hp] at hplan hs
    have hk := hr.stage.kind_ne_eof hplan
    rcases hr.shows.current with ⟨rest,ha⟩ | ⟨-,hc⟩
    · refine .inl ⟨rest,hplan,ha,?_,?_,he.trans hr.endToken,hst⟩
      · rw [hr.items,ha]
        simp
      · rwa [ha] at hs
    · rw [hc] at hk
      exact absurd rfl hk
  | false =>
    rw [hp] at hplan hs
    exact .inr ⟨hplan,(current_of_plan? hplan h).2,hr.items,hs,he.trans hr.endToken,hst⟩

/-- Missing labels are looked for at the end. -/
theorem Stage.kind_eq_eof {kind : Kind} (hs : Stage (.resolve :: goals) kind) : kind = .eof := by
  generalize hgs : Goal.resolve :: goals = all at hs
  cases hs with
  | inside pre hin =>
    rcases pre with _ | ⟨first,pre⟩
    · cases hgs
    · obtain ⟨rfl,-⟩ := List.cons_eq_cons.mp hgs
      cases hin
  | resolve => rfl
  | _ => cases hgs

/-- Before the end no token is an end token. -/
theorem Reached.ahead_nil (hr : Reached stream passed ahead goals g)
    (hp : TokenStream.Proper stream.items) (hk : g.current.kind = .eof) : ahead = [] := by
  rcases hr.shows.current with ⟨rest,rfl⟩ | ⟨rfl,-⟩
  · exact absurd hk (hp g.current (by simp [hr.items])).2
  · rfl

/-- The current token is the next one before the first fault, or the end token. -/
theorem Reached.tokens (hr : Reached stream passed ahead goals g) :
    ∃ more, stream.upToFault.1 = passed ++ g.current :: more := by
  have hsplit := TokenStream.splitAtFault_append stream.endToken [] passed ahead
  rw [← hr.items,List.append_nil] at hsplit
  rw [TokenStream.upToFault,hsplit]
  rcases hr.shows.current with ⟨rest,rfl⟩ | ⟨rfl,hc⟩
  · obtain ⟨more,hm⟩ := TokenStream.exists_splitAtFault stream.endToken
      (g.current :: passed.reverse) rest
    exact ⟨more,by simpa [TokenStream.splitAtFault] using hm⟩
  · refine ⟨[],?_⟩
    rw [hc,hr.endToken]
    simp [TokenStream.splitAtFault]

/-- A goal fails by its verdict or because of the first fault in the stream. -/
theorem Reached.fails (hr : Reached stream passed ahead (goal :: goals) g)
    (h : perform goal g = .error fault g') : (verdict goal g).result = .error fault ∨
      ∃ before, stream.upToFault = (before,some fault) := by
  rcases perform_error h with h | h
  · obtain ⟨rest,rfl⟩ := hr.shows.of_advance_error h
    refine .inr ⟨passed ++ [g.current,g.next],TokenStream.upToFault_eq_some.mpr ⟨rest,?_⟩⟩
    rw [hr.items]
    simp
  · exact .inl h

/-- A program fails when its window cannot be filled, or in the run from there. -/
theorem program_fails (h : program { stream := stream } = .error fault g') :
    (∃ before, stream.upToFault = (before,some fault)) ∨ ∃ g, g.symbols = {} ∧
      Reached stream [] stream.items [.feeds,.statements .eof,.ending] (opened g) ∧
        Does [.feeds,.statements .eof,.ending] (opened g) (.error fault g') := by
  cases h₁ : advance { stream := stream } with
  | error fault₁ g₁ =>
    have hf : program { stream := stream } = .error fault₁ g₁ := bind_error.mpr (.inl h₁)
    rw [h] at hf
    cases hf
    exact .inl ⟨[],TokenStream.upToFault_eq_some.mpr ⟨_,advance_error h₁⟩⟩
  | ok u g₁ =>
    have hs : Shows { stream := stream } (.ok ⟨.eof,[],0⟩ :: .ok ⟨.eof,[],0⟩ :: stream.items) :=
      ⟨0,by simp⟩
    have hs₁ := window_next hs h₁
    cases h₂ : advance g₁ with
    | error fault₂ g₂ =>
      have hf : program { stream := stream } = .error fault₂ g₂ :=
        bind_error.mpr (.inr ⟨_,_,h₁,bind_error.mpr (.inl h₂)⟩)
      rw [h] at hf
      cases hf
      obtain ⟨rest,hr⟩ := Shows.of_advance_error hs₁ h₂
      exact .inl ⟨[g₁.next],TokenStream.upToFault_eq_some.mpr ⟨rest,(List.cons_eq_cons.mp hr).2⟩⟩
    | ok u g₂ =>
      have hs₂ := window_next hs₁ h₂
      have he := (endToken_advance h₂).trans (endToken_advance h₁)
      exact .inr ⟨g₂,(window_of_advance h₁ h₂).2.1,⟨rfl,hs₂,he,.inside [.feeds] rfl⟩,
        h ▸ .program h₁ h₂⟩

end Reached
end Generator
end TeenyTiny
