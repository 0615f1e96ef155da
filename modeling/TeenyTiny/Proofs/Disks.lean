import TeenyTiny.Model.Host
import TeenyTiny.Proofs.FileTrees

/-! Machines that keep files. A request is refused and changes nothing, or it changes the files as
it should; which of the two is left open, except that a file is always removed on request. -/
namespace TeenyTiny
open Model

/-- Files, and the place where relative paths start. -/
structure Disk where
  tree : FileTree
  here : Place

/-- The files without what a path names. -/
def Disk.without (d : Disk) (p : Path) : Disk :=
  match d.tree.find d.here false p with
  | .ok found => ⟨d.tree.erase found.1,d.here⟩
  | .error _ => d

section
variable {σ β γ : Type} (disk : σ → Disk)

/-- Whatever happens, the files are changed as a relation says. -/
def Moves (R : Disk → Disk → Prop) (x : StateM σ β) : Prop := ∀ s, R (disk s) (disk (x.run s).2)

/-- A request that is refused, or that changes the files in its way. -/
def Changes (step : FileTree → Place → Except Errno FileTree) (x : StateM σ (Except Errno Unit)) :
    Prop :=
  ∀ s, (∃ cause, (x.run s).1 = .error cause ∧ disk (x.run s).2 = disk s) ∨
    ∃ tree, (x.run s).1 = .ok () ∧ step (disk s).tree (disk s).here = .ok tree ∧
      disk (x.run s).2 = ⟨tree,(disk s).here⟩

/-- A request that changes no file. -/
abbrev Asks (x : StateM σ β) : Prop := Moves disk (fun d d' => d' = d) x

/-- A host whose files are those of a disk. -/
structure Host.Honest (host : Host (StateM σ)) : Prop where
  workingDirectory : Asks disk host.workingDirectory
  info : ∀ p, Asks disk (host.info p)
  linkInfo : ∀ p, Asks disk (host.linkInfo p)
  read : ∀ p, Asks disk (host.read p)
  makeDirectory : ∀ p mode,
    Changes disk (fun t here => t.makeDirectory here p mode) (host.makeDirectory p mode)
  createFile : ∀ p,
    Changes disk (fun t here => t.create here p (.file 0o600 ByteArray.empty)) (host.createFile p)
  append : ∀ p block,
    Changes disk (fun t here => t.modifyFile here p (· ++ block)) (host.append p block)
  setMode : ∀ p mode, Changes disk (fun t here => t.setMode here p mode) (host.setMode p mode)
  close : ∀ p, Asks disk (host.close p)
  rename : ∀ p q, Changes disk (fun t here => t.rename here p q) (host.rename p q)
  remove : ∀ p, Moves disk (fun d d' => d' = d.without p) (host.remove p)
  randomNumber : Asks disk host.randomNumber
  timeOfDay : Asks disk host.timeOfDay

variable {disk}

theorem run_bind_state (x : StateM σ β) (f : β → StateM σ γ) (s : σ) :
    (x >>= f).run s = (f (x.run s).1).run (x.run s).2 := rfl

theorem Moves.pure {R : Disk → Disk → Prop} (hr : ∀ d, R d d) (b : β) :
    Moves disk R (pure b : StateM σ β) := fun s => hr (disk s)

theorem Moves.bind {R : Disk → Disk → Prop} (ht : ∀ {a b c}, R a b → R b c → R a c)
    {x : StateM σ β} {f : β → StateM σ γ} (hx : Moves disk R x) (hf : ∀ b, Moves disk R (f b)) :
    Moves disk R (x >>= f) := fun s => ht (hx s) (hf _ _)

theorem Asks.moves {R : Disk → Disk → Prop} (hr : ∀ d, R d d) {x : StateM σ β} (hx : Asks disk x) :
    Moves disk R x := fun s => by
  rw [hx s]
  exact hr (disk s)

theorem Asks.pure (b : β) : Asks disk (pure b : StateM σ β) := Moves.pure (fun _ => rfl) b

theorem Asks.bind {x : StateM σ β} {f : β → StateM σ γ} (hx : Asks disk x)
    (hf : ∀ b, Asks disk (f b)) : Asks disk (x >>= f) :=
  Moves.bind (fun hab hbc => hbc.trans hab) hx hf

end

/-! ## The modelled machine -/

namespace Model.Machine

/-- The files of the machine. -/
def disk (machine : Machine) : Disk := ⟨machine.tree,machine.workingDirectory⟩

theorem changes_modifyTree (step : FileTree → Place → Except Errno FileTree) :
    Changes disk step (modifyTree step) := by
  intro s
  cases hstep : step s.tree s.workingDirectory with
  | error cause =>
    have hrun : (modifyTree step).run s = (.error cause,s) := by
      simp [modifyTree,hstep]
      rfl
    rw [hrun]
    exact .inl ⟨cause,rfl,rfl⟩
  | ok tree =>
    have hrun : (modifyTree step).run s = (.ok (),{ s with tree }) := by
      simp [modifyTree,hstep]
      rfl
    rw [hrun]
    exact .inr ⟨tree,rfl,hstep,rfl⟩

theorem moves_erase (p : Path) :
    Moves disk (fun d d' => d' = d.without p) (erase p FileTree.erase) := by
  intro s
  have hmodify : ∀ f : Machine → Machine, ((modify f : StateM Machine Unit).run s).2 = f s :=
    fun _ => rfl
  unfold Disk.without erase
  rw [hmodify]
  cases hfind : s.tree.find s.workingDirectory false p with
  | error cause => simp [disk,hfind]
  | ok found => simp [disk,hfind]

theorem honest_hostWith (execute : Executor) : (hostWith execute).Honest disk where
  workingDirectory _ := rfl
  info _ _ := rfl
  linkInfo _ _ := rfl
  read _ _ := rfl
  makeDirectory _ _ := changes_modifyTree _
  createFile _ := changes_modifyTree _
  append _ _ := changes_modifyTree _
  setMode _ _ := changes_modifyTree _
  close _ _ := rfl
  rename _ _ := changes_modifyTree _
  remove := moves_erase
  randomNumber _ := rfl
  timeOfDay _ := rfl

/-- The machine with nothing but its files: no program can be started. -/
def storage : Host (StateM Machine) :=
  hostWith fun machine _ _ _ _ _ => (.error .notExecutable,machine)

theorem honest_storage : storage.Honest disk := honest_hostWith _

end Model.Machine

/-! ## Machines with faults -/

/-- Faults to come: for each of the next requests, whether it is refused, and why. -/
abbrev Faults := List (Option Errno)

section
variable {σ β : Type}

/-- A request that the next fault may meet. -/
def orFault (x : StateM σ (Except Errno β)) : StateM (σ × Faults) (Except Errno β) := fun s =>
  match s.2 with
  | some cause :: faults => (.error cause,s.1,faults)
  | faults => ((x.run s.1).1,(x.run s.1).2,faults.tail)

/-- A request that no fault meets. -/
def faultless (x : StateM σ β) : StateM (σ × Faults) β := fun s =>
  ((x.run s.1).1,(x.run s.1).2,s.2)

/-- A host some of whose requests are refused without a reason in its files. Files are removed
all the same. -/
def Host.faulty (host : Host (StateM σ)) : Host (StateM (σ × Faults)) where
  workingDirectory := orFault host.workingDirectory
  info p := orFault (host.info p)
  linkInfo p := orFault (host.linkInfo p)
  read p := orFault (host.read p)
  makeDirectory p mode := orFault (host.makeDirectory p mode)
  createFile p := orFault (host.createFile p)
  append p block := orFault (host.append p block)
  setMode p mode := orFault (host.setMode p mode)
  close p := orFault (host.close p)
  rename p q := orFault (host.rename p q)
  remove p := faultless (host.remove p)
  removeTree p := faultless (host.removeTree p)
  randomNumber := faultless host.randomNumber
  timeOfDay := faultless host.timeOfDay
  execute p arguments stdin streams limit := orFault (host.execute p arguments stdin streams limit)

variable {disk : σ → Disk}

theorem Moves.faultless {R : Disk → Disk → Prop} {x : StateM σ β} (hx : Moves disk R x) :
    Moves (fun s : σ × Faults => disk s.1) R (faultless x) := fun s => hx s.1

theorem run_orFault (x : StateM σ (Except Errno β)) (s : σ × Faults) :
    (∃ cause, (orFault x).run s = (.error cause,s.1,s.2.tail)) ∨
      (orFault x).run s = ((x.run s.1).1,(x.run s.1).2,s.2.tail) := by
  rcases s with ⟨s,_ | ⟨_ | cause,faults⟩⟩
  · exact .inr rfl
  · exact .inr rfl
  · exact .inl ⟨cause,rfl⟩

theorem Asks.orFault {x : StateM σ (Except Errno β)} (hx : Asks disk x) :
    Asks (fun s : σ × Faults => disk s.1) (orFault x) := by
  intro s
  rcases run_orFault x s with ⟨cause,h⟩ | h
  · rw [h]
  · rw [h]
    exact hx s.1

theorem Changes.orFault {step : FileTree → Place → Except Errno FileTree}
    {x : StateM σ (Except Errno Unit)} (hx : Changes disk step x) :
    Changes (fun s : σ × Faults => disk s.1) step (orFault x) := by
  intro s
  rcases run_orFault x s with ⟨cause,h⟩ | h
  · rw [h]
    exact .inl ⟨cause,rfl,rfl⟩
  · rw [h]
    exact hx s.1

/-- Faults change no file on their own. -/
theorem Host.Honest.faulty {host : Host (StateM σ)} (h : host.Honest disk) :
    host.faulty.Honest (fun s : σ × Faults => disk s.1) where
  workingDirectory := h.workingDirectory.orFault
  info p := (h.info p).orFault
  linkInfo p := (h.linkInfo p).orFault
  read p := (h.read p).orFault
  makeDirectory p mode := (h.makeDirectory p mode).orFault
  createFile p := (h.createFile p).orFault
  append p block := (h.append p block).orFault
  setMode p mode := (h.setMode p mode).orFault
  close p := (h.close p).orFault
  rename p q := (h.rename p q).orFault
  remove p := (h.remove p).faultless
  randomNumber := h.randomNumber.faultless
  timeOfDay := h.timeOfDay.faultless

end
end TeenyTiny
