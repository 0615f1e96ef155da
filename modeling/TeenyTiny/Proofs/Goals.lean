import TeenyTiny.Proofs.Programs

/-! The generator as a machine with a stack of goals. One goal at a time is performed, and may
leave others in its place; the stack tells what is still to be done wherever the run stops. A run
of the generator is a run of the machine, and the machine needs no fuel. -/
namespace TeenyTiny
open Text Ast

namespace Generator

/-- What an expression or a comparison is written for. -/
inductive Formula where
  | value
  | condition (kind : BlockKind)
  | assigned (name : List Char)
  deriving DecidableEq

namespace Formula

def opening : Formula → List Char
  | value => Code.valueStart
  | condition kind => kind.code
  | assigned name => name ++ Code.equals

def closing : Formula → List Char
  | value => Code.valueEnd
  | condition _ => Code.bodyStart
  | assigned _ => Code.semicolon

end Formula

inductive Goal where
  /-- Passes a token of this kind. -/
  | pass (kind : Kind)
  | lineEnd
  /-- Passes line feeds. -/
  | feeds
  /-- Writes a number or a variable. -/
  | operand
  | unary
  /-- The rest of a term, of an expression, of a comparison. -/
  | factors | summands | compared | comparands
  | start (formula : Formula)
  | finish (formula : Formula)
  /-- The rest of a statement behind its keyword. -/
  | print | label | jump | target | input
  /-- Writes the end of a block. -/
  | close
  | statement
  | statements (close : Kind)
  /-- Writes the end of the program. -/
  | ending
  /-- Looks for labels that are missing. -/
  | resolve
  deriving DecidableEq

namespace Goal

def expression : List Goal := [unary,factors,summands]

def formula : Formula → List Goal
  | .condition kind => start (.condition kind) :: (expression ++
      [compared,pass (.keyword kind.opener),lineEnd,finish (.condition kind)])
  | f => start f :: (expression ++ [finish f])

def block (kind : BlockKind) : List Goal :=
  formula (.condition kind) ++
    [statements (.keyword kind.closer),pass (.keyword kind.closer),close]

/-- The goals of a statement behind its first token. -/
def rest? : Kind → Option (List Goal)
  | .keyword .print => some [print]
  | .keyword .if_ => some (block .conditional)
  | .keyword .while_ => some (block .loop)
  | .keyword .label => some [label]
  | .keyword .goto => some [jump]
  | .keyword .let_ => some [target]
  | .keyword .input => some [input]
  | _ => none

end Goal

abbrev Outcome (α : Type) := EStateM.Result Fault Generator α

def write (g : Generator) (cs : List Char) : Generator :=
  { g with listing := g.listing.emit (encode cs) }

def declared (g : Generator) (n : Bytes) : Generator :=
  { g with
    symbols := (g.symbols.define n).2
    listing := if (g.symbols.define n).1 then g.listing.headerLine ("float " ++ n ++ ";")
      else g.listing }

def prepared (g : Generator) : Formula → Generator
  | .assigned n => g.declared (encode n)
  | _ => g

def stuck (g : Generator) (cause : GrammarCause) : Outcome (List Goal) :=
  .error ⟨g.current.line,.grammar cause⟩ g

def passing (more : List Goal) (g : Generator) : Outcome (List Goal) :=
  match advance g with
  | .ok _ g' => .ok more g'
  | .error fault g' => .error fault g'

def expecting (kind : Kind) (more : List Goal) (g : Generator) : Outcome (List Goal) :=
  if g.current.kind = kind then passing more g
  else g.stuck (.expected kind g.current.kind g.current.text)

/-- Writes the current token if it is one of these. -/
def copying (p : Kind → Bool) (more otherwise : List Goal) (g : Generator) : Outcome (List Goal) :=
  if p g.current.kind then .ok (.pass g.current.kind :: more) (g.write g.current.lexeme)
  else .ok otherwise g

def placeLabel (t : Token) (g : Generator) : Outcome (List Goal) :=
  match g.symbols.declareLabel t.text t.line with
  | (some first,_) => .error ⟨t.line,.name (.duplicateLabel t.text first.line)⟩ g
  | (none,symbols) => .ok [] ({ g with symbols }.write (Code.label t.lexeme))

def placeJump (t : Token) (g : Generator) : Outcome (List Goal) :=
  .ok [] ({ g with symbols := g.symbols.referenceLabel t.text t.line }.write (Code.goto t.lexeme))

def placeTarget (t : Token) (g : Generator) : Outcome (List Goal) :=
  .ok (.pass .assign :: Goal.formula (.assigned t.lexeme)) g

def placeInput (t : Token) (g : Generator) : Outcome (List Goal) :=
  .ok [] (((((g.declared t.text).write (Code.readStart ++ t.lexeme ++ Code.readEnd)).write
    (t.lexeme ++ Code.zero)).write Code.skipWord).write Code.bodyEnd)

/-- Performs a goal, and gives those that are left in its place. A goal that fails has written
nothing. -/
def perform : Goal → Generator → Outcome (List Goal)
  | .pass kind,g => expecting kind [] g
  | .lineEnd,g => expecting .newline [.feeds] g
  | .feeds,g => if g.current.kind = .newline then passing [.feeds] g else .ok [] g
  | .operand,g =>
    match g.current.kind with
    | .number => .ok [.pass .number] (g.write (cNumber g.current.lexeme))
    | .ident =>
      if g.symbols.isDefined g.current.text then .ok [.pass .ident] (g.write g.current.lexeme)
      else .error ⟨g.current.line,.name (.undeclaredVariable g.current.text)⟩ g
    | kind => g.stuck (.invalidOperand kind g.current.text)
  | .unary,g => copying isSign [.operand] [.operand] g
  | .factors,g => copying isFactorOperator [.unary,.factors] [] g
  | .summands,g => copying isSign Goal.expression [] g
  | .compared,g =>
    if g.current.kind.isComparison then .ok [.comparands] g
    else g.stuck (.missingComparison g.current.kind g.current.text)
  | .comparands,g => copying Kind.isComparison (Goal.expression ++ [.comparands]) [] g
  | .start formula,g => .ok [] ((g.prepared formula).write formula.opening)
  | .finish formula,g => .ok [] (g.write formula.closing)
  | .print,g =>
    if g.current.kind = .string then
      .ok [.pass .string] (g.write (Code.printText g.current.lexeme))
    else .ok (Goal.formula .value) g
  | .label,g => (name .label >>= placeLabel) g
  | .jump,g => (name .label >>= placeJump) g
  | .target,g => (name .variable >>= placeTarget) g
  | .input,g => (name .variable >>= placeInput) g
  | .close,g => .ok [] (g.write Code.bodyEnd)
  | .statement,g =>
    match Goal.rest? g.current.kind with
    | some more => .ok (.pass g.current.kind :: (more ++ [.lineEnd])) g
    | none => g.stuck (.invalidStatement g.current.kind g.current.text)
  | .statements close,g =>
    if g.current.kind = close then .ok [] g
    else if g.current.kind = .eof then g.stuck (.unclosedBlock close)
    else .ok [.statement,.statements close] g
  | .ending,g => .ok [.resolve] ((g.write "return 0;\n".toList).write Code.bodyEnd)
  | .resolve,g =>
    match g.symbols.unresolved with
    | [] => .ok [] g
    | target :: _ => .error ⟨target.line,.name (.undeclaredLabel target.name)⟩ g

/-- A run of the machine: it ends when there are no goals left or one of them fails. -/
inductive Does : List Goal → Generator → Outcome Unit → Prop
  | done {g : Generator} : Does [] g (.ok () g)
  | step {goal : Goal} {more goals : List Goal} {g g' : Generator} {r : Outcome Unit}
    (h : perform goal g = .ok more g') (rest : Does (more ++ goals) g' r) :
    Does (goal :: goals) g r
  | stop {goal : Goal} {goals : List Goal} {g g' : Generator} {fault : Fault}
    (h : perform goal g = .error fault g') : Does (goal :: goals) g (.error fault g')

/-- An upper bound for the tokens that are not passed yet. -/
def left (g : Generator) : Nat :=
  g.stream.items.length + (if g.current.kind = .eof then 0 else 1) +
    (if g.next.kind = .eof then 0 else 1)

theorem left_advance {g g' : Generator} (h : advance g = .ok () g')
    (hk : g.current.kind ≠ .eof) : g'.left < g.left := by
  unfold advance TokenStream.pull at h
  cases hi : g.stream.items with
  | nil =>
    rw [hi] at h
    cases h
    simp [left,hi,hk,TokenStream.endToken]
  | cons item items =>
    rw [hi] at h
    cases item with
    | error fault => cases h
    | ok t =>
      cases h
      simp only [left,hi,hk,if_false,List.length_cons]
      split_ifs <;> omega

theorem current_eq_eof {g : Generator} (h : g.left = 0) : g.current.kind = .eof := by
  unfold left at h
  by_contra hk
  rw [if_neg hk] at h
  omega

section Performs
variable {α : Type} {g : Generator} {goals : List Goal} {k : Unit → Step Unit}

/-- What is left of a goal leads to the rest of the run. -/
def Leads (o : Outcome (List Goal)) (goals : List Goal) (r : Outcome Unit) : Prop :=
  match o with
  | .ok more g => Does (more ++ goals) g r
  | .error fault g => r = .error fault g

theorem Does.of_leads {goal : Goal} {r : Outcome Unit} (h : Leads (perform goal g) goals r) :
    Does (goal :: goals) g r := by
  cases hp : perform goal g with
  | ok more g' =>
    rw [hp] at h
    exact .step hp h
  | error fault g' =>
    rw [hp] at h
    obtain rfl := h
    exact .stop hp

theorem Leads.bind {x : Step α} {f : α → Step (List Goal)} {k : α → Step Unit}
    (h : ∀ a g', x g = .ok a g' → Leads (f a g') goals (k a g')) :
    Leads ((x >>= f) g) goals ((x >>= k) g) := by
  change Leads (EStateM.bind x f g) goals (EStateM.bind x k g)
  unfold EStateM.bind
  cases hx : x g with
  | ok a g' => exact h a g' hx
  | error fault g' => exact rfl

/-- A goal whose performance is a step of the generator. -/
theorem Does.of_step {goal : Goal} {x : Step α} {k : α → Step Unit} (more : α → List Goal)
    (hp : perform goal g = (x >>= fun a => pure (more a)) g)
    (h : ∀ a g', x g = .ok a g' → Does (more a ++ goals) g' (k a g')) :
    Does (goal :: goals) g ((x >>= k) g) :=
  .of_leads (hp ▸ Leads.bind h)

theorem Does.pop {goal : Goal} {g' : Generator} {r : Outcome Unit}
    (h : perform goal g = .ok [] g') (rest : Does goals g' r) : Does (goal :: goals) g r :=
  .step h rest

theorem passing_eq (more : List Goal) (g : Generator) :
    passing more g = (advance >>= fun _ => pure more) g := by
  change _ = EStateM.bind _ _ g
  unfold passing EStateM.bind
  cases advance g <;> rfl

theorem expecting_eq (kind : Kind) (more : List Goal) (g : Generator) :
    expecting kind more g = (expect kind >>= fun _ => pure more) g := by
  unfold expecting
  change _ = ((if g.current.kind ≠ kind then _ else _ : Step Token) >>= _) g
  by_cases hk : g.current.kind = kind
  · rw [if_pos hk,if_neg (not_not.mpr hk),bind_assoc,passing_eq]
    rfl
  · rw [if_neg hk,if_pos hk]
    rfl

/-- The rest of a run begins behind the current token. -/
theorem Does.advance {kind : Kind} (hk : g.current.kind = kind) (he : kind ≠ .eof)
    (h : ∀ g', g'.left < g.left → Does goals g' (k () g')) :
    Does (.pass kind :: goals) g ((Generator.advance >>= k) g) := by
  refine .of_step (fun _ => []) ?_ fun _ g' ha => h g' (left_advance ha (hk ▸ he))
  rw [perform,expecting,if_pos hk,passing_eq]

theorem Does.expect {kind : Kind} {k : Token → Step Unit} (he : kind ≠ .eof)
    (h : ∀ t g', g'.left < g.left → Does goals g' (k t g')) :
    Does (.pass kind :: goals) g ((Generator.expect kind >>= k) g) := by
  refine .of_step (fun _ => []) (expecting_eq kind [] g) fun t g' ht => ?_
  obtain ⟨hk,-,ha⟩ := expect_ok.mp ht
  exact h t g' (left_advance ha (hk ▸ he))

/-- The step does these goals, whatever comes after them. -/
def Performs (n : Nat) (x : Step Unit) (goals : List Goal) : Prop :=
  ∀ g rest (k : Unit → Step Unit), left g ≤ n →
    (∀ g', left g' ≤ left g → Does rest g' (k () g')) → Does (goals ++ rest) g ((x >>= k) g)

theorem Performs.bind {n : Nat} {x y : Step Unit} {gs hs : List Goal} (hx : Performs n x gs)
    (hy : Performs n y hs) : Performs n (x >>= fun _ => y) (gs ++ hs) := by
  intro g rest k hn h
  rw [bind_assoc,List.append_assoc]
  exact hx g _ _ hn fun g₁ h₁ => hy g₁ _ _ (h₁.trans hn) fun g₂ h₂ => h g₂ (h₂.trans h₁)

theorem repeatWhile_succ_bind {p : Kind → Bool} {step : Step Unit} {n : Nat} :
    (repeatWhile p step (n + 1) >>= k) g =
      if p g.current.kind then (step >>= fun _ => repeatWhile p step n >>= k) g else k () g := by
  rw [repeatWhile]
  change ((if p g.current.kind then _ else _ : Step Unit) >>= k) g = _
  split_ifs
  · rw [bind_assoc]
  · rfl

theorem performs_feeds (n : Nat) :
    Performs n (repeatWhile (· = .newline) advance n) [.feeds] := by
  induction n with
  | zero =>
    intro g rest k hn h
    have hk : g.current.kind ≠ .newline := by
      rw [current_eq_eof (Nat.le_zero.mp hn)]
      simp
    exact .pop (by rw [perform,if_neg hk]) (h g le_rfl)
  | succ n ih =>
    intro g rest k hn h
    rw [repeatWhile_succ_bind]
    by_cases hk : g.current.kind = .newline
    · rw [if_pos (by simpa using hk)]
      refine .of_step (fun _ => [.feeds]) ?_ fun _ g₁ ha => ?_
      · rw [perform,if_pos hk,passing_eq]
      · have hl := left_advance ha (by simp [hk])
        exact ih g₁ rest k (by omega) fun g₂ h₂ => h g₂ (by omega)
    · rw [if_neg (by simpa using hk)]
      exact .pop (by rw [perform,if_neg hk]) (h g le_rfl)

theorem Does.lineEnd {n : Nat} (hn : g.left ≤ n)
    (h : ∀ g', g'.left < g.left → Does goals g' (k () g')) :
    Does (.lineEnd :: goals) g ((Generator.lineEnd n >>= k) g) := by
  unfold Generator.lineEnd
  rw [bind_assoc]
  refine .of_step (fun _ => [.feeds]) (expecting_eq .newline [.feeds] g) fun t g₁ ht => ?_
  obtain ⟨hk,-,ha⟩ := expect_ok.mp ht
  have hl := left_advance ha (by simp [hk])
  exact performs_feeds n g₁ goals k (by omega) fun g₂ h₂ => h g₂ (by omega)

theorem copyToken_bind : (copyToken >>= k) g = (advance >>= k) (g.write g.current.lexeme) := rfl

/-- The step behind an operator, if there is one, and what follows the operator in its place. -/
theorem Does.copying {goal : Goal} {p : Kind → Bool} {more otherwise : List Goal}
    {r : Outcome Unit} (hg : perform goal g = Generator.copying p more otherwise g)
    (he : p .eof = false) (hp : p g.current.kind = true →
      ∀ g', g'.left < g.left → Does (more ++ goals) g' (k () g'))
    (hn : p g.current.kind = false → Does (otherwise ++ goals) g r) :
    Does (goal :: goals) g (if p g.current.kind then (copyToken >>= k) g else r) := by
  unfold Generator.copying at hg
  split_ifs at hg ⊢ with h
  · refine .step hg ?_
    rw [copyToken_bind,List.cons_append]
    refine .advance rfl (fun hk => ?_) (hp h)
    have hk : g.current.kind = .eof := hk
    rw [hk,he] at h
    cases h
  · exact .step hg (hn (by simpa using h))

theorem currentToken_bind {f : Token → Step α} : (currentToken >>= f) g = f g.current g := rfl

theorem Does.operand (h : ∀ g', g'.left < g.left → Does goals g' (k () g')) :
    Does (.operand :: goals) g ((primary >>= k) g) := by
  unfold primary
  rw [bind_assoc,currentToken_bind]
  cases hk : g.current.kind with
  | number =>
    have hp : perform .operand g = .ok [.pass .number] (g.write (cNumber g.current.lexeme)) := by
      rw [perform,hk]
    exact .step hp (.advance hk (by simp) h)
  | ident =>
    change Does _ _ (((if !g.symbols.isDefined g.current.text then _ else _ : Step Unit) >>= k) g)
    cases hd : g.symbols.isDefined g.current.text with
    | true =>
      have hp : perform .operand g = .ok [.pass .ident] (g.write g.current.lexeme) := by
        rw [perform,hk]
        exact if_pos hd
      exact .step hp (.advance hk (by simp) h)
    | false =>
      refine .stop ?_
      rw [perform,hk]
      exact if_neg (by simp [hd])
  | _ =>
    refine .stop ?_
    rw [perform,hk]
    rfl

theorem performs_unary (n : Nat) : Performs n unary [.unary] := by
  intro g rest k hn h
  have hu : (unary >>= k) g =
      if isSign g.current.kind then (copyToken >>= fun _ => primary >>= k) g
      else (primary >>= k) g := by
    change ((if isSign g.current.kind then _ else _ : Step Unit) >>= k) g = _
    split_ifs
    · rw [bind_assoc]
    · rfl
  rw [hu]
  refine .copying rfl rfl (fun _ g₁ h₁ => .operand fun g₂ h₂ => h g₂ ?_)
    fun _ => .operand fun g₁ h₁ => h g₁ h₁.le
  omega

/-- A loop over operators with a step behind each of them. -/
theorem Performs.loop {goal : Goal} {p : Kind → Bool} {x : Step Unit} {gs : List Goal} {n m : Nat}
    (hx : Performs n x gs) (hg : ∀ g, perform goal g = copying p (gs ++ [goal]) [] g)
    (he : p .eof = false) (hm : m ≤ n) :
    Performs m (repeatWhile p (do copyToken; x) m) [goal] := by
  induction m with
  | zero =>
    intro g rest k hn h
    refine .pop ?_ (h g le_rfl)
    rw [hg,copying,if_neg (by simp [current_eq_eof (Nat.le_zero.mp hn),he])]
  | succ m ih =>
    intro g rest k hn h
    rw [repeatWhile_succ_bind,bind_assoc]
    refine .copying (hg g) he (fun _ g₁ h₁ => ?_) fun _ => h g le_rfl
    rw [List.append_assoc]
    refine hx g₁ _ _ (by omega) fun g₂ h₂ => ?_
    exact ih (by omega) g₂ rest k (by omega) fun g₃ h₃ => h g₃ (by omega)

theorem performs_term (n : Nat) : Performs n (term n) [.unary,.factors] :=
  (performs_unary n).bind ((performs_unary n).loop (fun _ => rfl) rfl le_rfl)

theorem performs_expression (n : Nat) : Performs n (expression n) Goal.expression :=
  (performs_term n).bind ((performs_term n).loop (fun _ => rfl) rfl le_rfl)

theorem performs_comparison (n : Nat) :
    Performs n (comparison n) (Goal.expression ++ [.compared]) := by
  refine (performs_expression n).bind fun g rest k hn h => ?_
  have hc : Performs n _ [.comparands] := (performs_expression n).loop (fun _ => rfl) rfl le_rfl
  rw [bind_assoc,currentToken_bind]
  cases hk : g.current.kind.isComparison with
  | true =>
    have hp : perform .compared g = .ok [.comparands] g := by rw [perform,if_pos hk]
    exact .step hp (hc g rest k hn h)
  | false => exact .stop (by rw [perform,if_neg (by simp [hk])]; rfl)

theorem emit_bind {text : Bytes} {cs : List Char} (ht : text = encode cs) :
    (emit text >>= k) g = k () (g.write cs) := by
  rw [ht]
  rfl

theorem emitLine_bind {text : Bytes} {cs : List Char} (ht : text ++ [10] = encode cs) :
    (emitLine text >>= k) g = k () (g.write cs) :=
  emit_bind ht

theorem declare_bind {n : Bytes} : (declare n >>= k) g = k () (g.declared n) := by
  change EStateM.bind _ _ g = _
  unfold EStateM.bind
  rw [declare_eq]
  rfl

theorem left_name {use : NameUse} {t : Token} {g' : Generator} (h : name use g = .ok t g') :
    g'.left < g.left := by
  obtain ⟨hk,-,-,ha⟩ := name_ok.mp h
  exact left_advance ha (by simp [hk])

theorem get_bind {f : Generator → Step α} : ((get : Step Generator) >>= f) g = f g g := rfl

section Rules
variable {n : Nat} (h : ∀ g', g'.left < g.left → Does goals g' (k () g'))
include h

theorem Does.label (hk : g.current.kind = .keyword .label) :
    Does (.pass (.keyword .label) :: .label :: goals) g ((labelStatement >>= k) g) := by
  unfold labelStatement
  rw [bind_assoc]
  refine .advance hk (by simp) fun g₁ h₁ => ?_
  rw [bind_assoc]
  refine .of_leads (Leads.bind fun t g₂ ht => ?_)
  have h₂ := left_name ht
  unfold placeLabel
  rw [bind_assoc,get_bind]
  rcases g₂.symbols.declareLabel t.text t.line with ⟨_ | first,symbols⟩
  · refine (congrArg (Does goals _) ?_).mpr (h _ (h₂.trans h₁))
    exact emitLine_bind (label_bytes t.lexeme)
  · rfl

theorem Does.jump (hk : g.current.kind = .keyword .goto) :
    Does (.pass (.keyword .goto) :: .jump :: goals) g ((gotoStatement >>= k) g) := by
  unfold gotoStatement
  rw [bind_assoc]
  refine .advance hk (by simp) fun g₁ h₁ => ?_
  rw [bind_assoc]
  refine .of_leads (Leads.bind fun t g₂ ht => ?_)
  refine (congrArg (Does goals _) ?_).mpr (h _ ((left_name ht).trans h₁))
  exact emitLine_bind (goto_bytes t.lexeme)

theorem Does.input (hk : g.current.kind = .keyword .input) :
    Does (.pass (.keyword .input) :: .input :: goals) g ((inputStatement >>= k) g) := by
  unfold inputStatement
  rw [bind_assoc]
  refine .advance hk (by simp) fun g₁ h₁ => ?_
  rw [bind_assoc]
  refine .of_leads (Leads.bind fun t g₂ ht => ?_)
  rw [bind_assoc,declare_bind,Token.text,bind_assoc,emitLine_bind (read_bytes t.lexeme),
    bind_assoc,emitLine_bind (zero_bytes t.lexeme),bind_assoc,emitLine_bind skipWord_bytes,
    emitLine_bind bodyEnd_bytes]
  exact h _ ((left_name ht).trans h₁)

theorem Does.target (hn : g.left ≤ n + 1) (hk : g.current.kind = .keyword .let_) :
    Does (.pass (.keyword .let_) :: .target :: goals) g ((letStatement n >>= k) g) := by
  unfold letStatement
  rw [bind_assoc]
  refine .advance hk (by simp) fun g₁ h₁ => ?_
  rw [bind_assoc]
  refine .of_leads (Leads.bind fun t g₂ ht => ?_)
  have h₂ := left_name ht
  rw [bind_assoc]
  refine Does.expect (by simp) fun _ g₃ h₃ => .pop rfl ?_
  rw [bind_assoc,declare_bind,Token.text,bind_assoc,emit_bind (assign_bytes t.lexeme),
    bind_assoc]
  refine performs_expression n _ _ _ (by change g₃.left ≤ n; omega) fun g₄ h₄ => .pop rfl ?_
  have h₄ : g₄.left ≤ g₃.left := h₄
  rw [emitLine_bind semicolon_bytes]
  exact h _ (by change g₄.left < g.left; omega)

theorem Does.print (hn : g.left ≤ n + 1) (hk : g.current.kind = .keyword .print) :
    Does (.pass (.keyword .print) :: .print :: goals) g ((printStatement n >>= k) g) := by
  unfold printStatement
  rw [bind_assoc]
  refine .advance hk (by simp) fun g₁ h₁ => ?_
  rw [bind_assoc,currentToken_bind]
  by_cases hs : g₁.current.kind = .string
  · have hp : perform .print g₁ =
        .ok [.pass .string] (g₁.write (Code.printText g₁.current.lexeme)) := by
      rw [perform,if_pos hs]
    rw [if_pos hs,bind_assoc,Token.text,emitLine_bind (printText_bytes g₁.current.lexeme)]
    exact .step hp (.advance hs (by simp) fun g₂ h₂ => h g₂ (h₂.trans h₁))
  · have hp : perform .print g₁ = .ok (Goal.formula .value) g₁ := by rw [perform,if_neg hs]
    rw [if_neg hs,bind_assoc,emit_bind valueStart_bytes,bind_assoc]
    refine .step hp (.pop rfl ?_)
    refine performs_expression n _ _ _ (by change g₁.left ≤ n; omega) fun g₂ h₂ => .pop rfl ?_
    have h₂ : g₂.left ≤ g₁.left := h₂
    rw [emitLine_bind valueEnd_bytes]
    exact h _ (by change g₂.left < g.left; omega)

theorem Does.block (kind : BlockKind) {opening : Bytes} {body : Step Unit}
    (ho : opening = encode kind.code) (hn : g.left ≤ n + 1)
    (hk : g.current.kind = .keyword kind.start)
    (hb : ∀ g' rest (k : Unit → Step Unit), g'.left < n →
      (∀ g'', g''.left ≤ g'.left → Does rest g'' (k () g'')) →
        Does (.statements (.keyword kind.closer) :: rest) g' ((body >>= k) g')) :
    Does (.pass (.keyword kind.start) :: (Goal.block kind ++ goals)) g
      ((guardedBlock opening kind.opener kind.closer n body >>= k) g) := by
  unfold guardedBlock
  rw [bind_assoc]
  refine .advance hk (by simp) fun g₁ h₁ => ?_
  rw [bind_assoc,emit_bind ho,bind_assoc]
  refine .pop rfl ?_
  refine performs_comparison n _ _ _ (by change g₁.left ≤ n; omega) fun g₂ h₂ => ?_
  have h₂ : g₂.left ≤ g₁.left := h₂
  rw [bind_assoc]
  refine .expect (by simp) fun _ g₃ h₃ => ?_
  rw [bind_assoc]
  refine .lineEnd (by omega) fun g₄ h₄ => ?_
  rw [bind_assoc,emitLine_bind bodyStart_bytes,bind_assoc]
  refine .pop rfl (hb _ _ _ (by change g₄.left < n; omega) fun g₅ h₅ => ?_)
  have h₅ : g₅.left ≤ g₄.left := h₅
  rw [bind_assoc]
  refine .expect (by simp) fun _ g₆ h₆ => ?_
  rw [emitLine_bind bodyEnd_bytes]
  exact .pop rfl (h _ (by change g₆.left < g.left; omega))

end Rules

/-- The goals of a statement do its rule. -/
theorem Does.rule {n : Nat} {rule : Step Unit} (hr : rule? n g.current.kind = some rule)
    (hn : g.left ≤ n + 1)
    (hb : ∀ (kind : BlockKind) g' rest (k : Unit → Step Unit), g'.left < n →
      (∀ g'', g''.left ≤ g'.left → Does rest g'' (k () g'')) →
        Does (.statements (.keyword kind.closer) :: rest) g'
          ((statementsUntil (.keyword kind.closer) n >>= k) g'))
    (h : ∀ g', g'.left < g.left → Does goals g' (k () g')) :
    ∃ more, Goal.rest? g.current.kind = some more ∧
      Does (.pass g.current.kind :: (more ++ goals)) g ((rule >>= k) g) := by
  cases hk : g.current.kind with
  | keyword word =>
    rw [hk] at hr
    cases word with
    | print =>
      obtain rfl := Option.some.inj hr
      exact ⟨_,rfl,.print h hn hk⟩
    | if_ =>
      obtain rfl := Option.some.inj hr
      exact ⟨_,rfl,.block h .conditional rfl hn hk (hb .conditional)⟩
    | while_ =>
      obtain rfl := Option.some.inj hr
      exact ⟨_,rfl,.block h .loop rfl hn hk (hb .loop)⟩
    | label =>
      obtain rfl := Option.some.inj hr
      exact ⟨_,rfl,.label h hk⟩
    | goto =>
      obtain rfl := Option.some.inj hr
      exact ⟨_,rfl,.jump h hk⟩
    | let_ =>
      obtain rfl := Option.some.inj hr
      exact ⟨_,rfl,.target h hn hk⟩
    | input =>
      obtain rfl := Option.some.inj hr
      exact ⟨_,rfl,.input h hk⟩
    | _ => cases hr
  | _ =>
    rw [hk] at hr
    cases hr

theorem rest?_eq_none {n : Nat} {kind : Kind} (h : rule? n kind = none) :
    Goal.rest? kind = none := by
  cases kind with
  | keyword word =>
    cases word with
    | print | if_ | while_ | label | goto | let_ | input => cases h
    | _ => rfl
  | _ => rfl

theorem statement_bind {n : Nat} : (statement (n + 1) >>= k) g =
    match rule? n g.current.kind with
    | some rule => (rule >>= fun _ => Generator.lineEnd n >>= k) g
    | none => .error ⟨g.current.line,
        .grammar (.invalidStatement g.current.kind g.current.text)⟩ g := by
  rw [statement,bind_assoc,currentToken_bind]
  cases hk : g.current.kind with
  | keyword word =>
    cases word with
    | print | if_ | while_ | label | goto | let_ | input => simp only [rule?,bind_assoc]
    | _ => rfl
  | _ => rfl

theorem statementsUntil_bind {n : Nat} {close : Kind} :
    (statementsUntil close (n + 1) >>= k) g =
      if g.current.kind = close then k () g
      else if g.current.kind = .eof then
        .error ⟨g.current.line,.grammar (.unclosedBlock close)⟩ g
      else (statement n >>= fun _ => statementsUntil close n >>= k) g := by
  rw [statementsUntil,bind_assoc,currentToken_bind]
  by_cases hk : g.current.kind = close
  · rw [if_neg (not_not.mpr hk),if_pos hk]
    rfl
  · rw [if_pos hk,if_neg hk]
    split_ifs
    · rfl
    · rw [bind_assoc]

/-- Statements do their goals if there is fuel for every token that is left. -/
theorem Does.statements {n : Nat} (close : Kind) (hn : g.left < n)
    (h : ∀ g', g'.left ≤ g.left → Does goals g' (k () g')) :
    Does (.statements close :: goals) g ((statementsUntil close n >>= k) g) := by
  induction n using Nat.strongRecOn generalizing g goals k close with
  | ind n ih =>
    obtain ⟨n,rfl⟩ := Nat.exists_eq_add_one_of_ne_zero (n := n) (by omega)
    rw [statementsUntil_bind]
    by_cases hk : g.current.kind = close
    · rw [if_pos hk]
      exact .pop (by rw [perform,if_pos hk]) (h g le_rfl)
    by_cases he : g.current.kind = .eof
    · rw [if_neg hk,if_pos he]
      exact .stop (by rw [perform,if_neg hk,if_pos he]; rfl)
    have hp : perform (.statements close) g = .ok [.statement,.statements close] g := by
      rw [perform,if_neg hk,if_neg he]
    rw [if_neg hk,if_neg he]
    refine .step hp ?_
    -- a token is left, so there is fuel for one more call
    have hpos : 0 < g.left := by
      simp only [left,he,if_false]
      omega
    obtain ⟨m,rfl⟩ := Nat.exists_eq_add_one_of_ne_zero (n := n) (by omega)
    rw [statement_bind]
    cases hr : rule? m g.current.kind with
    | none => exact .stop (by rw [perform,rest?_eq_none hr]; rfl)
    | some rule =>
      have hl : ∀ g₁, g₁.left < g.left → Does (.lineEnd :: .statements close :: goals) g₁
          ((Generator.lineEnd m >>= fun _ => statementsUntil close (m + 1) >>= k) g₁) :=
        fun g₁ h₁ => .lineEnd (by omega) fun g₂ h₂ =>
          ih (m + 1) (by omega) close (by omega) fun g₃ h₃ => h g₃ (by omega)
      obtain ⟨more,hm,hd⟩ := Does.rule (k := fun _ => _) hr (by omega)
        (fun kind g' rest k h' => ih m (by omega) _ h') hl
      refine .step (by rw [perform,hm]) ?_
      simpa using hd

end Performs

section Inversion
variable {α β : Type} {g g' : Generator} {fault : Fault}

theorem bind_error {x : Step α} {f : α → Step β} : (x >>= f) g = .error fault g' ↔
    x g = .error fault g' ∨ ∃ a g₁, x g = .ok a g₁ ∧ f a g₁ = .error fault g' := by
  change EStateM.bind x f g = _ ↔ _
  unfold EStateM.bind
  cases x g with
  | ok a g₁ => simp
  | error e g₁ => simp

/-- Nothing but the window is another. -/
def Untouched (g g' : Generator) : Prop := g'.symbols = g.symbols ∧ g'.listing = g.listing

theorem untouched_advance (g : Generator) : match advance g with
    | .ok _ g' | .error _ g' => Untouched g g' := by
  unfold advance
  rcases g.stream.pull with ⟨_ | _,_⟩ <;> exact ⟨rfl,rfl⟩

theorem untouched_of_advance (h : advance g = .ok () g') : Untouched g g' := by
  have hu := untouched_advance g
  rwa [h] at hu

theorem untouched_of_advance_error (h : advance g = .error fault g') : Untouched g g' := by
  have hu := untouched_advance g
  rwa [h] at hu

theorem passing_ok {more more' : List Goal} (h : passing more g = .ok more' g') :
    more' = more ∧ advance g = .ok () g' := by
  unfold passing at h
  cases ha : advance g with
  | ok u g₁ =>
    rw [ha] at h
    cases h
    exact ⟨rfl,rfl⟩
  | error fault g₁ =>
    rw [ha] at h
    cases h

theorem expecting_ok {kind : Kind} {more more' : List Goal}
    (h : expecting kind more g = .ok more' g') :
    g.current.kind = kind ∧ more' = more ∧ advance g = .ok () g' := by
  unfold expecting at h
  split_ifs at h with hk
  · exact ⟨hk,passing_ok h⟩
  · cases h

theorem placeLabel_ok {t : Token} {more : List Goal} (h : placeLabel t g = .ok more g') :
    (g.symbols.declareLabel t.text t.line).1 = none ∧ more = [] ∧
      g' = { g with symbols := (g.symbols.declareLabel t.text t.line).2 }.write
        (Code.label t.lexeme) := by
  unfold placeLabel at h
  rcases hd : g.symbols.declareLabel t.text t.line with ⟨_ | first,symbols⟩
  · rw [hd] at h
    cases h
    exact ⟨rfl,rfl,rfl⟩
  · rw [hd] at h
    cases h

theorem untouched_of_passing {more : List Goal} (h : passing more g = .error fault g') :
    Untouched g g' := by
  unfold passing at h
  cases ha : advance g with
  | ok u g₁ =>
    rw [ha] at h
    cases h
  | error fault g₁ =>
    rw [ha] at h
    cases h
    exact untouched_of_advance_error ha

theorem untouched_of_expect {kind : Kind} (h : expect kind g = .error fault g') :
    Untouched g g' := by
  change (if g.current.kind ≠ kind then _ else _ : Step Token) g = _ at h
  split_ifs at h
  · cases h
    exact ⟨rfl,rfl⟩
  · rcases bind_error.mp h with h | ⟨_,_,_,h⟩
    · exact untouched_of_advance_error h
    · cases h

theorem untouched_of_name {use : NameUse} (h : name use g = .error fault g') :
    Untouched g g' := by
  change (if g.current.kind.isKeyword then _ else _ : Step Token) g = _ at h
  split_ifs at h
  · cases h
    exact ⟨rfl,rfl⟩
  · rcases bind_error.mp h with h | ⟨t,g₁,ht,h⟩
    · exact untouched_of_expect h
    · obtain ⟨-,-,ha⟩ := expect_ok.mp ht
      split_ifs at h
      · cases h
        exact untouched_of_advance ha
      · cases h

theorem untouched_of_expecting {kind : Kind} {more : List Goal}
    (h : expecting kind more g = .error fault g') : Untouched g g' := by
  unfold expecting at h
  split_ifs at h
  · exact untouched_of_passing h
  · cases h
    exact ⟨rfl,rfl⟩

theorem copying_ne_error {p : Kind → Bool} {more otherwise : List Goal} :
    copying p more otherwise g ≠ .error fault g' := by
  unfold copying
  split_ifs <;> simp

theorem eq_of_placeLabel_error {t : Token} (h : placeLabel t g = .error fault g') : g' = g := by
  unfold placeLabel at h
  split at h
  · cases h
    rfl
  · cases h

/-- A goal that fails has changed nothing but the window. -/
theorem untouched_of_perform {goal : Goal} (h : perform goal g = .error fault g') :
    Untouched g g' := by
  have hstuck : ∀ {cause : GrammarCause}, g.stuck cause = .error fault g' → Untouched g g' := by
    rintro cause ⟨⟩
    exact ⟨rfl,rfl⟩
  cases goal with
  | pass | lineEnd => exact untouched_of_expecting h
  | feeds =>
    rw [perform] at h
    split_ifs at h
    exact untouched_of_passing h
  | operand =>
    rw [perform] at h
    split at h
    · cases h
    · split_ifs at h
      cases h
      exact ⟨rfl,rfl⟩
    · exact hstuck h
  | unary | factors | summands | comparands => exact absurd h copying_ne_error
  | compared =>
    rw [perform] at h
    split_ifs at h
    exact hstuck h
  | label =>
    rcases bind_error.mp h with h | ⟨t,g₁,ht,h⟩
    · exact untouched_of_name h
    · obtain ⟨-,-,-,ha⟩ := name_ok.mp ht
      rw [eq_of_placeLabel_error h]
      exact untouched_of_advance ha
  | jump | target | input =>
    rcases bind_error.mp h with h | ⟨t,g₁,ht,h⟩
    · exact untouched_of_name h
    · cases h
  | start | finish | close | ending => cases h
  | print =>
    rw [perform] at h
    split_ifs at h
  | statement =>
    rw [perform] at h
    split at h
    · cases h
    · exact hstuck h
  | statements =>
    rw [perform] at h
    split_ifs at h
    exact hstuck h
  | resolve =>
    rw [perform] at h
    split at h
    · cases h
    · cases h
      exact ⟨rfl,rfl⟩

end Inversion

theorem advance_bind {k : Unit → Step Unit} {g g' : Generator} (h : advance g = .ok () g') :
    (advance >>= k) g = k () g' := by
  change EStateM.bind advance k g = _
  rw [EStateM.bind,h]

/-- When the window is filled a program opens the text; from then on it is a run of the machine. -/
theorem Does.program {stream : TokenStream} {g₁ g₂ : Generator}
    (h₁ : Generator.advance { stream := stream } = .ok () g₁)
    (h₂ : Generator.advance g₁ = .ok () g₂) :
    Does [.feeds,.statements .eof,.ending] (opened g₂) (program { stream := stream }) := by
  unfold Generator.program
  rw [advance_bind h₁,advance_bind h₂]
  -- the fuel is taken from the stream when two tokens are in the window already
  have hl : (opened g₂).left ≤ g₂.stream.items.length + 2 := by
    unfold left
    split_ifs <;> simp [opened]
  change Does _ _ ((repeatWhile (· = .newline) Generator.advance (g₂.stream.items.length + 3) >>=
    fun _ => statementsUntil .eof (g₂.stream.items.length + 3) >>= fun _ => _) (opened g₂))
  refine performs_feeds _ (opened g₂) _ _ (by omega) fun g₃ h₃ => ?_
  refine .statements .eof (by omega) fun g₄ _ => ?_
  rw [emitLine_bind epilogue_bytes,emitLine_bind bodyEnd_bytes,get_bind]
  refine .step rfl (.of_leads ?_)
  rw [perform]
  rcases (((g₄.write "return 0;\n".toList).write Code.bodyEnd).symbols.unresolved) with _ | ⟨t,ts⟩
  · exact .done
  · rfl

/-- A program that does not fill its window has written nothing. -/
theorem program_does (stream : TokenStream) :
    (∃ fault g, program { stream := stream } = .error fault g ∧ g.symbols = {} ∧
      g.listing = {}) ∨
      ∃ g₁ g₂, advance { stream := stream } = .ok () g₁ ∧ advance g₁ = .ok () g₂ ∧
        Does [.feeds,.statements .eof,.ending] (opened g₂) (program { stream := stream }) := by
  cases h₁ : advance { stream := stream } with
  | error fault g =>
    exact .inl ⟨fault,g,bind_error.mpr (.inl h₁),untouched_of_advance_error h₁⟩
  | ok _ g₁ =>
    have hu := untouched_of_advance h₁
    cases h₂ : advance g₁ with
    | error fault g =>
      have hu' := untouched_of_advance_error h₂
      exact .inl ⟨fault,g,bind_error.mpr (.inr ⟨_,_,h₁,bind_error.mpr (.inl h₂)⟩),
        hu'.1.trans hu.1,hu'.2.trans hu.2⟩
    | ok _ g₂ => exact .inr ⟨g₁,g₂,rfl,h₂,.program h₁ h₂⟩

end Generator
end TeenyTiny
