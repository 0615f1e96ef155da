import TeenyTiny.Output.File
import TeenyTiny.Output.Memory
import TeenyTiny.Proofs.Programs

/-! Fills. A fill writes block after block and may go on whatever becomes of them, so that it is a
tree of writes; what every write keeps, the fill keeps. A record of the writes says which of them
were accepted. -/
namespace TeenyTiny

/-- The verdict of a compilation whose text was handed over. -/
def delivered {ε : Type} (written : Written ε) : Except (CompileError ε) Unit :=
  match written.failure with
  | none => .ok ()
  | some e => .error (.delivery (.write e))

/-- A compilation has a diagnostic and writes nothing, or it has a text and writes that, once and
in one piece, whatever it is written to. -/
theorem compile_cases (src : Bytes) :
    (∃ symbols d, compileToBlock src = (symbols,.error (.diagnostic d)) ∧
      ∀ {m : Type → Type} [Monad m] {ε : Type} (write : ByteArray → m (Written ε)),
        compile write src = pure (symbols,.error (.diagnostic d))) ∨
    ∃ symbols block, compileToBlock src = (symbols,.ok block) ∧
      ∀ {m : Type → Type} [Monad m] [LawfulMonad m] {ε : Type} (write : ByteArray → m (Written ε)),
        compile write src = write block >>= fun written => pure (symbols,delivered written) := by
  unfold compileToBlock
  cases hg : Generator.program { stream := streamOf src } with
  | error fault g =>
    have hc : ∀ {m : Type → Type} [Monad m] {ε : Type} (write : ByteArray → m (Written ε)),
        compile write src =
          pure (g.symbols,.error (.diagnostic (fault.explain (Text.decode (preprocess src))))) := by
      intro m _ ε write
      unfold streamOf at hg
      unfold compile
      dsimp only
      rw [hg]
    refine .inl ⟨g.symbols,_,?_,hc⟩
    rw [hc]
    rfl
  | ok u g =>
    obtain ⟨hf,-⟩ := Generator.program_sound (TokenStream.proper_ofChars _) hg
    have hc : ∀ {m : Type → Type} [Monad m] [LawfulMonad m] {ε : Type}
        (write : ByteArray → m (Written ε)), compile write src =
          write g.listing.block >>= fun written => pure (g.symbols,delivered written) := by
      intro m _ _ ε write
      unfold streamOf at hg
      unfold compile Listing.finalize delivered
      dsimp only
      rw [hg]
      simp only [hf,Bool.false_eq_true,if_false,bind_assoc,pure_bind]
      congr 1
      funext written
      rcases written with ⟨accepted,failure | e⟩ <;> rfl
    refine .inr ⟨g.symbols,_,?_,hc⟩
    rw [hc]
    rfl

/-- A fill as a tree: it ends, or it writes a block and goes on by what becomes of that. -/
inductive Writing (β : Type) where
  | done (result : β)
  | write (block : ByteArray) (next : Written WriteError → Writing β)

namespace Writing
variable {β γ : Type}

def bind (x : Writing β) (f : β → Writing γ) : Writing γ :=
  match x with
  | done b => f b
  | write block next => write block fun written => (next written).bind f

instance : Monad Writing where
  pure := done
  bind := bind

/-- A single write. -/
def emit (block : ByteArray) : Writing (Written WriteError) := write block done

instance : LawfulMonad Writing := LawfulMonad.mk' Writing
  (by
    intro β x
    induction x with
    | done b => rfl
    | write block next ih => exact congrArg _ (funext ih))
  (fun _ _ => rfl)
  (by
    intro β γ δ x f g
    induction x with
    | done b => rfl
    | write block next ih => exact congrArg _ (funext ih))

/-- Makes the writes of a tree. -/
def run {m : Type → Type} [Monad m] (emit : ByteArray → m (Written WriteError)) :
    Writing β → m β
  | done b => pure b
  | write block next => do (next (← emit block)).run emit

variable {m : Type → Type} [Monad m] (out : ByteArray → m (Written WriteError))

@[simp] theorem run_pure (b : β) : (pure b : Writing β).run out = pure b := rfl

variable [LawfulMonad m]

@[simp] theorem run_emit (block : ByteArray) : (emit block).run out = out block :=
  bind_pure (out block)

@[simp] theorem run_bind (x : Writing β) (f : β → Writing γ) :
    (x >>= f).run out = x.run out >>= fun b => (f b).run out := by
  induction x with
  | done b =>
    change (f b).run out = pure b >>= fun b => (f b).run out
    rw [pure_bind]
  | write block next ih =>
    change out block >>= (fun written => (next written >>= f).run out) =
      (out block >>= fun written => (next written).run out) >>= _
    rw [bind_assoc]
    exact congrArg _ (funext ih)

@[simp] theorem run_map (f : β → γ) (x : Writing β) : (f <$> x).run out = f <$> x.run out := by
  rw [← bind_pure_comp,← bind_pure_comp,run_bind]
  rfl

end Writing

namespace FillStep

/-- The block that a step has to write. -/
def block? : FillStep → Option ByteArray
  | write block | tryWrite block => some block
  | compile src => (compileToBlock src).2.toOption
  | refuse _ => none

/-- Is a failure of the write passed over? -/
def isTolerant : FillStep → Bool
  | tryWrite _ => true
  | _ => false

end FillStep

namespace Fill
variable {ε α : Type}

/-- A step has nothing to write and fails, or it makes one write and judges it. -/
theorem takeStep_cases (step : FillStep) :
    (∃ e, step.block? = none ∧
      ∀ {m : Type → Type} [Monad m] [LawfulMonad m] (out : ByteArray → m (Written WriteError)),
        takeStep out step = pure (.error e)) ∨
    ∃ block, ∃ verdict : Written WriteError → Except FillError Unit, step.block? = some block ∧
      (∀ written, (verdict written).isOk = (written.failure.isNone || step.isTolerant)) ∧
      ∀ {m : Type → Type} [Monad m] [LawfulMonad m] (out : ByteArray → m (Written WriteError)),
        takeStep out step = out block >>= fun written => pure (verdict written) := by
  cases step with
  | write block =>
    refine .inr ⟨block,fun written => (written.failure.elim (.ok ()) fun e => .error (.write e)),
      rfl,?_,?_⟩
    · rintro ⟨accepted,failure | e⟩ <;> rfl
    · intro m _ _ out
      rw [takeStep]
      congr 1
      funext written
      rcases written with ⟨accepted,failure | e⟩ <;> rfl
  | tryWrite block =>
    refine .inr ⟨block,fun _ => .ok (),rfl,fun written => ?_,fun _ => rfl⟩
    exact (Bool.or_true written.failure.isNone).symm
  | compile src =>
    rcases compile_cases src with ⟨symbols,d,hc,h⟩ | ⟨symbols,block,hc,h⟩
    · refine .inl ⟨.compile (.diagnostic d),?_,?_⟩
      · rw [FillStep.block?,hc]
        rfl
      · intro m _ _ out
        simp [takeStep,ofSource,h]
        rfl
    · refine .inr ⟨block,fun written => (delivered written).mapError .compile,?_,?_,?_⟩
      · rw [FillStep.block?,hc]
        rfl
      · rintro ⟨accepted,failure | e⟩ <;> rfl
      · intro m _ _ out
        simp [takeStep,ofSource,h]
  | refuse message => exact .inl ⟨.refused message,rfl,fun _ => rfl⟩

/-- The tree of a fill. -/
def tree (fill : Fill ε α) : Writing (α × Except ε Unit) := fill Writing.emit

/-- Does a fill do the same whatever it writes to? -/
def Uniform (fill : Fill ε α) : Prop :=
  ∀ {m : Type → Type} [Monad m] [LawfulMonad m] (out : ByteArray → m (Written WriteError)),
    fill out = (tree fill).run out

theorem run_takeStep {m : Type → Type} [Monad m] [LawfulMonad m]
    (out : ByteArray → m (Written WriteError)) (step : FillStep) :
    takeStep out step = (takeStep Writing.emit step).run out := by
  rcases takeStep_cases step with ⟨e,-,h⟩ | ⟨block,verdict,-,-,h⟩
  · rw [h,h,Writing.run_pure]
  · rw [h,h,Writing.run_bind,Writing.run_emit]
    rfl

theorem run_takeSteps {m : Type → Type} [Monad m] [LawfulMonad m]
    (out : ByteArray → m (Written WriteError)) (steps : List FillStep) :
    takeSteps out steps = (takeSteps Writing.emit steps).run out := by
  induction steps with
  | nil => rfl
  | cons step rest ih =>
    rw [takeSteps,takeSteps,run_takeStep out step,Writing.run_bind]
    congr 1
    funext outcome
    cases outcome with
    | error e => rfl
    | ok _ => exact ih

theorem uniform_ofSteps (steps : List FillStep) : Uniform (ofSteps steps) := by
  intro m _ _ out
  simp [tree,ofSteps,run_takeSteps out steps]

end Fill

/-- One write of a fill, with what became of it. -/
structure Attempt where
  block : ByteArray
  written : Written WriteError

/-- The blocks that were accepted. -/
def accepted (attempts : List Attempt) : List ByteArray :=
  (attempts.filter (·.written.failure.isNone)).map Attempt.block

/-- Blocks one behind the other. -/
def joined (blocks : List ByteArray) : ByteArray := blocks.foldr (· ++ ·) ByteArray.empty

@[simp] theorem joined_nil : joined [] = ByteArray.empty := rfl

@[simp] theorem joined_cons (block : ByteArray) (blocks : List ByteArray) :
    joined (block :: blocks) = block ++ joined blocks := rfl

@[simp] theorem joined_append (blocks more : List ByteArray) :
    joined (blocks ++ more) = joined blocks ++ joined more := by
  induction blocks with
  | nil => simp
  | cons block blocks ih => simp [ih,ByteArray.append_assoc]

@[simp] theorem accepted_nil : accepted [] = [] := rfl

theorem accepted_concat (attempts : List Attempt) (a : Attempt) :
    accepted (attempts ++ [a]) =
      accepted attempts ++ if a.written.failure.isNone then [a.block] else [] := by
  unfold accepted
  rw [List.filter_append,List.map_append,List.filter_cons]
  split <;> rfl

section
variable {m : Type → Type} [Monad m]

/-- A writer that keeps a record. -/
def recording (out : ByteArray → m (Written WriteError)) (block : ByteArray) :
    StateT (List Attempt) m (Written WriteError) := do
  let written ← out block
  modify (· ++ [⟨block,written⟩])
  return written

/-- A fill that also gives its writes, in order. -/
def Fill.recorded {ε α : Type} (fill : Fill ε α) : Fill ε (α × List Attempt) := fun out => do
  let (result,attempts) ← (fill (recording out)).run []
  return ((result.1,attempts),result.2)

variable [LawfulMonad m]

theorem run_recording {β : Type} (x : Writing β) (out : ByteArray → m (Written WriteError))
    (attempts : List Attempt) :
    Prod.fst <$> (x.run (recording out)).run attempts = x.run out := by
  induction x generalizing attempts with
  | done b => simp [Writing.run]
  | write block next ih =>
    simp [Writing.run,recording,ih]

/-- Keeping a record changes nothing. -/
theorem Fill.Uniform.recorded_eq {ε α : Type} {fill : Fill ε α} (h : fill.Uniform)
    (out : ByteArray → m (Written WriteError)) :
    (fun r => (r.1.1,r.2)) <$> fill.recorded out = fill out := by
  rw [h out,← run_recording (Fill.tree fill) out [],Fill.recorded,h (recording out)]
  simp

end

section
variable {σ : Type} (out : ByteArray → StateM σ (Written WriteError))

theorem run_limited (block : ByteArray) (used : Nat) (s : σ) :
    ((limited out block).run used).run s =
      if maxOutputSize < used + block.size then ((⟨0,some .tooLarge⟩,used),s)
      else
        let r := (out block).run s
        ((r.1,used + r.1.accepted),r.2) := by
  unfold limited
  split <;> rename_i h
  · simp [h]
    rfl
  · simp [h]
    rfl

/-- What every write of a fill keeps, the whole fill keeps. -/
theorem run_recording_keeps {β : Type} (x : Writing β)
    (out : ByteArray → StateT Nat (StateM σ) (Written WriteError))
    (I : List Attempt → Nat → σ → Prop)
    (step : ∀ attempts used s block, I attempts used s →
      I (attempts ++ [⟨block,(((out block).run used).run s).1.1⟩])
        (((out block).run used).run s).1.2 (((out block).run used).run s).2)
    (attempts : List Attempt) (used : Nat) (s : σ) (h : I attempts used s) :
    let r := (((x.run (recording out)).run attempts).run used).run s
    I r.1.1.2 r.1.2 r.2 := by
  induction x generalizing attempts used s with
  | done b => exact h
  | write block next ih => exact ih _ _ _ _ (step _ _ _ block h)

/-- Behind the limit, a fill keeps what says that its accepted blocks are there, if the writer
accepts blocks as a whole. -/
theorem Fill.Uniform.recorded_keeps {ε α : Type} {fill : Fill ε α} (hf : fill.Uniform)
    (I : ByteArray → σ → Prop)
    (hout : ∀ content s block, I content s →
      (((out block).run s).1 = ⟨block.size,none⟩ ∧ I (content ++ block) ((out block).run s).2) ∨
        ∃ e, ((out block).run s).1 = ⟨0,some e⟩ ∧ I content ((out block).run s).2)
    {s : σ} (hs : I ByteArray.empty s) :
    let r := ((fill.recorded (limited out)).run 0).run s
    let content := joined (accepted r.1.1.1.2)
    content.size ≤ maxOutputSize ∧ I content r.2 := by
  have hkeep := run_recording_keeps (Fill.tree fill) (limited out)
    (fun attempts used s => used = (joined (accepted attempts)).size ∧ used ≤ maxOutputSize ∧
      I (joined (accepted attempts)) s) ?_ [] 0 s ?_
  · unfold Fill.recorded
    rw [hf]
    exact ⟨hkeep.1 ▸ hkeep.2.1,hkeep.2.2⟩
  · rintro attempts used s block ⟨rfl,hle,hi⟩
    rw [run_limited,accepted_concat]
    split <;> rename_i hsize
    · simpa using ⟨hle,hi⟩
    · rcases hout _ s block hi with ⟨hw,hi⟩ | ⟨e,hw,hi⟩
      · dsimp only
        rw [hw]
        simp [hi]
        omega
      · dsimp only
        rw [hw]
        simpa using ⟨hle,hi⟩
  · simpa using hs

end

end TeenyTiny
