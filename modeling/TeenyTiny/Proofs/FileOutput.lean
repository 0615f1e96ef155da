import TeenyTiny.Proofs.Disks
import TeenyTiny.Proofs.Fills

/-! Output files. A file comes to its place complete or not at all: at every failure, whichever
request is refused and whatever the fill does, the files are those that were there before, and all
that may have come are directories above the place. -/
namespace TeenyTiny
open Text Model

namespace Disk

/-- The files of one disk are those of another one, and of directories above a path. -/
def Grows (p : Path) (d d' : Disk) : Prop :=
  d'.here = d.here ∧ (d.tree.WellFormed →
    FileTree.Grown d.here p d.tree d'.tree ∧ d'.tree.WellFormed)

theorem Grows.refl {p : Path} (d : Disk) : Grows p d d :=
  ⟨rfl,fun hw => ⟨.refl _ _ _,hw⟩⟩

theorem Grows.trans {p : Path} {a b c : Disk} (hab : Grows p a b) (hbc : Grows p b c) :
    Grows p a c := by
  refine ⟨hbc.1.trans hab.1,fun hw => ?_⟩
  obtain ⟨hg,hw⟩ := hab.2 hw
  obtain ⟨hg',hw⟩ := hbc.2 hw
  exact ⟨hg.trans (hab.1 ▸ hg'),hw⟩

theorem Grows.of_parent {p : Path} {d d' : Disk} (h : Grows (Path.parent p) d d') :
    Grows p d d' :=
  ⟨h.1,fun hw => ⟨(h.2 hw).1.of_parent,(h.2 hw).2⟩⟩

/-- Two disks have the same files. -/
structure Same (d d' : Disk) : Prop where
  here : d'.here = d.here
  wellFormed : d'.tree.WellFormed
  get? : ∀ q, d'.tree.get? q = d.tree.get? q

/-- A path at which a file may be made. -/
structure Free (d : Disk) (temporary : Path) (place : Place) : Prop where
  wellFormed : d.tree.WellFormed
  located : d.tree.locate d.here false temporary = .ok place
  named : FileTree.hasTrailingSlash temporary = false
  free : d.tree.get? place = none

/-- The files of a disk and one more, which is being written. -/
structure Draft (d : Disk) (place : Place) (mode : Nat) (content : ByteArray) (d' : Disk) :
    Prop where
  here : d'.here = d.here
  planted : d.tree.Planted place (.file mode content) d'.tree

section
variable {d d' : Disk} {temporary : Path} {place : Place} {mode : Nat} {content : ByteArray}
  (hf : d.Free temporary place) (h : d.Draft place mode content d')
include hf h

theorem Draft.find (follow : Bool) :
    d'.tree.find d'.here follow temporary = .ok (place,d.tree.next,.file mode content) := by
  rw [h.here]
  exact h.planted.find hf.wellFormed (FileTree.isDirectoryAt_of_free hf.free)
    (FileTree.isLinkAt_of_free hf.free) hf.located hf.named follow

theorem Draft.setNode (mode' : Nat) (content' : ByteArray) : d.Draft place mode' content'
    ⟨d'.tree.setNode d.tree.next (.file mode' content'),d'.here⟩ :=
  ⟨h.here,h.planted.setNode hf.wellFormed _⟩

/-- Without the draft, the files are as they were. -/
theorem Draft.without : d.Same (d'.without temporary) := by
  unfold Disk.without
  rw [h.find hf]
  exact ⟨h.here,h.planted.wellFormed_erase hf.wellFormed hf.free,
    h.planted.get?_erase hf.wellFormed hf.free⟩

end

/-- The files of a disk with a complete file at the place that a path names. The path leads to it
afterwards, unless a link was there, through which it may have led itself. -/
structure Published (d : Disk) (p : Path) (target : Place) (content : ByteArray) (d' : Disk) :
    Prop where
  here : d'.here = d.here
  wellFormed : d'.tree.WellFormed
  located : d.tree.locate d.here false p = .ok target
  replaced : d.tree.isDirectoryAt target = false
  get? : ∀ q, d'.tree.get? q =
    if q = target then some (.file OutputFile.fileMode content) else d.tree.get? q
  found : d.tree.isLinkAt target = false → ∃ number,
    d'.tree.find d'.here true p = .ok (target,number,.file OutputFile.fileMode content)

theorem Free.published {d d' : Disk} {temporary p : Path} {place : Place} {content : ByteArray}
    {tree : FileTree} (hf : d.Free temporary place)
    (h : d.Draft place OutputFile.fileMode content d')
    (hr : d'.tree.rename d'.here temporary p = .ok tree) :
    ∃ target, d.Published p target content ⟨tree,d'.here⟩ := by
  rw [h.here] at hr ⊢
  obtain ⟨target,hlocated,hslash,hno,hlast⟩ :=
    h.planted.rename hf.wellFormed hf.free hf.located hf.named hr
  have hw := hf.wellFormed.erase_of_free hf.free
  have hget := FileTree.get?_erase_of_free hf.free
  have hkeep : d.tree.Keeps (d.tree.erase place) := fun q => .inl (hget q)
  have hno' : (d.tree.erase place).isDirectoryAt target = false := by
    rwa [FileTree.isDirectoryAt,hget]
  have hdir := hkeep.isDirectoryAt (FileTree.isDirectoryAt_of_locate hf.wellFormed hlocated)
  refine ⟨target,rfl,hlast.wellFormed hw hno' hdir,hlocated,hno,fun q => ?_,fun hlink => ?_⟩
  · rw [hlast.get? hw (FileTree.ne_nil_of_isDirectoryAt hno),hget]
  · exact ⟨_,hlast.find hw hno' (hkeep.isLinkAt hlink) (hkeep.locate hlocated) hslash true⟩

end Disk

section
variable {σ : Type} {host : Host (StateM σ)} {disk : σ → Disk}

theorem Disk.Grows.pure {β : Type} (p : Path) (b : β) :
    Moves disk (Grows p) (pure b : StateM σ β) := Moves.pure Grows.refl b

theorem Disk.Grows.bind {β γ : Type} {p : Path} {x : StateM σ β} {f : β → StateM σ γ}
    (hx : Moves disk (Grows p) x) (hf : ∀ b, Moves disk (Grows p) (f b)) :
    Moves disk (Grows p) (x >>= f) := Moves.bind (fun hab hbc => hab.trans hbc) hx hf

namespace Host.Honest
variable (hh : host.Honest disk)
include hh

theorem isDirectory (p : Path) : Asks disk (host.isDirectory p) := by
  refine (hh.info p).bind fun info => ?_
  cases info <;> exact .pure _

theorem isOwnDirectory (p : Path) : Asks disk (host.isOwnDirectory p) := by
  refine (hh.linkInfo p).bind fun info => ?_
  cases info <;> exact .pure _

theorem checkPath (p : Path) : Asks disk (OutputFile.checkPath host p) := by
  unfold OutputFile.checkPath
  cases OutputFile.checkText p with
  | error e => exact .pure _
  | ok _ => exact (hh.isDirectory p).bind fun _ => .pure _

theorem grows_makeDirectory (p : Path) :
    Moves disk (Disk.Grows p) (host.makeDirectory p Host.directoryMode) := by
  intro s
  rcases hh.makeDirectory p Host.directoryMode s with ⟨cause,-,hd⟩ | ⟨tree,-,hstep,hd⟩
  · rw [hd]
    exact .refl _
  · rw [hd]
    exact ⟨rfl,fun hw => FileTree.makeDirectory_ok hw hstep⟩

/-- Directories are made on the way to a path, however far that gets. -/
theorem grows_makeDirectoriesWithin (depth : Nat) (p : Path) :
    Moves disk (Disk.Grows p) (host.makeDirectoriesWithin depth p) := by
  induction depth generalizing p with
  | zero => exact Disk.Grows.pure _ _
  | succ depth ih =>
    have hlast : ∀ f : Except Errno Unit → StateM σ (Except HostError Unit),
        Asks disk (f (.ok ())) → (∀ cause, Asks disk (f (.error cause))) →
          Moves disk (Disk.Grows p) (host.makeDirectory p Host.directoryMode >>= f) := by
      intro f hok herror
      refine Disk.Grows.bind (hh.grows_makeDirectory p) fun made => ?_
      cases made with
      | ok _ => exact hok.moves Disk.Grows.refl
      | error cause => exact (herror cause).moves Disk.Grows.refl
    have hagain : ∀ cause, Asks disk (do
        return if ← host.isOwnDirectory p then .ok () else .error (.path "mkdir" p cause) :
          StateM σ (Except HostError Unit)) :=
      fun cause => (hh.isOwnDirectory p).bind fun _ => .pure _
    unfold Host.makeDirectoriesWithin
    refine Disk.Grows.bind ((hh.info p).moves Disk.Grows.refl) fun info => ?_
    cases info with
    | ok info => exact Disk.Grows.pure _ _
    | error _ =>
      dsimp only
      split
      · refine Disk.Grows.bind (fun s => (ih (Path.parent p) s).of_parent) fun above => ?_
        cases above with
        | error e => exact Disk.Grows.pure _ _
        | ok _ => exact hlast _ (.pure _) hagain
      · exact hlast _ (.pure _) hagain

theorem createFresh (operation : String) (before after : Bytes) (taken : HostError)
    (attempts : Nat) (s : σ) :
    let r := (host.createFresh operation host.createFile before after taken attempts).run s
    (∃ e, r.1 = .error e ∧ disk r.2 = disk s) ∨
      ∃ temporary tree, r.1 = .ok temporary ∧
        (disk s).tree.create (disk s).here temporary (.file 0o600 ByteArray.empty) = .ok tree ∧
        disk r.2 = ⟨tree,(disk s).here⟩ := by
  induction attempts generalizing s with
  | zero => exact .inl ⟨_,rfl,rfl⟩
  | succ attempts ih =>
    have hnumber := hh.randomNumber s
    have hcreate := hh.createFile (before ++ decimal (host.randomNumber.run s).1 ++ after)
      (host.randomNumber.run s).2
    rw [hnumber] at hcreate
    unfold Host.createFresh
    rw [run_bind_state]
    dsimp only
    rw [run_bind_state]
    rcases hcreate with ⟨cause,hr,hd⟩ | ⟨tree,hr,hstep,hd⟩
    · rw [hr]
      cases cause with
      | exists_ =>
        have hnext := ih ((host.createFile (before ++ decimal (host.randomNumber.run s).1 ++
          after)).run (host.randomNumber.run s).2).2
        rwa [hd] at hnext
      | _ => exact .inl ⟨_,rfl,hd⟩
    · rw [hr]
      exact .inr ⟨_,tree,rfl,hstep,hd⟩

/-- A temporary file is an empty draft at a place where nothing was. -/
theorem createTemporaryFile (directory : Path) (before after : Bytes) {s : σ}
    (hw : (disk s).tree.WellFormed) :
    let r := (host.createTemporaryFile directory before after).run s
    (∃ e, r.1 = .error e ∧ disk r.2 = disk s) ∨
      ∃ temporary place, r.1 = .ok temporary ∧ (disk s).Free temporary place ∧
        (disk s).Draft place 0o600 ByteArray.empty (disk r.2) := by
  rcases hh.createFresh "open" (Path.child directory before) after _ 10000 s with
    hrefused | ⟨temporary,tree,hr,hstep,hd⟩
  · exact .inl hrefused
  · obtain ⟨hnamed,place,hlocated,hfree,rfl⟩ := FileTree.create_ok hstep
    refine .inr ⟨temporary,place,hr,⟨hw,hlocated,hnamed,hfree⟩,?_⟩
    exact hd.symm ▸ ⟨rfl,.insert hw place _⟩

theorem replace (source target : Path) (s : σ) :
    let r := (host.replace source target).run s
    (∃ e, r.1 = .error e ∧ disk r.2 = disk s) ∨
      ∃ tree, r.1 = .ok () ∧ (disk s).tree.rename (disk s).here source target = .ok tree ∧
        disk r.2 = ⟨tree,(disk s).here⟩ := by
  unfold Host.replace
  rw [run_bind_state]
  have hown := hh.isOwnDirectory target s
  generalize (host.isOwnDirectory target).run s = own at hown
  rcases own with ⟨own,s'⟩
  cases own with
  | true =>
    have hinfo := hh.linkInfo source s'
    simp only [if_true]
    rw [run_bind_state]
    generalize (host.linkInfo source).run s' = info at hinfo
    rcases info with ⟨info,s''⟩
    refine .inl ?_
    cases info <;> exact ⟨_,rfl,hinfo.trans hown⟩
  | false =>
    simp only [Bool.false_eq_true,if_false]
    rw [run_bind_state]
    rcases hh.rename source target s' with ⟨cause,hr,hd⟩ | ⟨tree,hr,hstep,hd⟩
    · rw [hr]
      exact .inl ⟨_,rfl,hd.trans hown⟩
    · rw [hr]
      rw [hown] at hstep hd
      exact .inr ⟨tree,rfl,hstep,hd⟩

section
variable {d : Disk} {temporary : Path} {place : Place} {mode : Nat} {content : ByteArray} {s : σ}
  (hf : d.Free temporary place) (h : d.Draft place mode content (disk s))
include hf h

/-- A write to the draft is accepted as a whole and comes behind its content, or it leaves the
draft as it is. -/
theorem appendBlock (block : ByteArray) :
    let r := (OutputFile.appendBlock host temporary block).run s
    (r.1 = ⟨block.size,none⟩ ∧ d.Draft place mode (content ++ block) (disk r.2)) ∨
      ∃ e, r.1 = ⟨0,some e⟩ ∧ d.Draft place mode content (disk r.2) := by
  unfold OutputFile.appendBlock
  rw [run_bind_state]
  rcases hh.append temporary block s with ⟨cause,hr,hd⟩ | ⟨tree,hr,hstep,hd⟩
  · rw [hr]
    exact .inr ⟨_,rfl,hd.symm ▸ h⟩
  · rw [hr]
    cases (FileTree.modifyFile_of_find (h.find hf true) _).symm.trans hstep
    exact .inl ⟨rfl,hd.symm ▸ h.setNode hf _ _⟩

/-- A draft is published with the mode of complete files, or it stays a draft. -/
theorem publish (p : Path) :
    let r := (OutputFile.publish host temporary p).run s
    (∃ e mode, r.1 = .error e ∧ d.Draft place mode content (disk r.2)) ∨
      ∃ target, r.1 = .ok () ∧ d.Published p target content (disk r.2) := by
  unfold OutputFile.publish
  rw [run_bind_state]
  rcases hh.setMode temporary OutputFile.fileMode s with ⟨cause,hr,hd⟩ | ⟨tree,hr,hstep,hd⟩
  · rw [hr]
    exact .inl ⟨_,mode,rfl,hd.symm ▸ h⟩
  · rw [hr]
    have hn : d.tree.next ≠ 0 := Nat.ne_of_gt hf.wellFormed.next_pos
    cases (FileTree.setMode_of_find (h.find hf true) hn _).symm.trans hstep
    have hfile := h.setNode hf OutputFile.fileMode content
    rw [← hd] at hfile
    generalize ((host.setMode temporary OutputFile.fileMode).run s).2 = s₁ at hfile
    dsimp only
    rw [run_bind_state]
    have hclose := hh.close temporary s₁
    rw [← hclose] at hfile
    generalize (host.close temporary).run s₁ = closed at hfile
    rcases closed with ⟨closed | _,s₂⟩
    · exact .inl ⟨_,_,rfl,hfile⟩
    · rcases hh.replace temporary p s₂ with ⟨e,hr,hd⟩ | ⟨tree,hr,hstep,hd⟩
      · exact .inl ⟨e,_,hr,hd.symm ▸ hfile⟩
      · obtain ⟨target,hp⟩ := hf.published hfile hstep
        exact .inr ⟨target,hr,hd.symm ▸ hp⟩

end

end Host.Honest
end

namespace OutputFile

section
variable {m : Type → Type} [Monad m] {ε α : Type}

/-- What comes before a fill: the path of the temporary file. -/
def prepare (host : Host m) (p : Path) : m (Except (CommitError ε) Path) := do
  if let .error e ← checkPath host p then
    return .error (.invalidPath e)
  let directory := Path.directory p
  if let .error e ← host.makeDirectories directory then
    return .error (.host e)
  return (← host.createTemporaryFile directory ("." ++ Path.base p ++ ".") ".tmp").mapError .host

/-- What comes after a fill. -/
def conclude (host : Host m) (temporary p : Path) (value : α) :
    Except ε Unit → m (Option α × Except (CommitError ε) Unit)
  | .error e => do
    let _ ← host.close temporary
    host.remove temporary
    return (some value,.error (.fill e))
  | .ok _ => do
    match ← publish host temporary p with
    | .ok _ => return (some value,.ok ())
    | .error e =>
      let _ ← host.close temporary
      host.remove temporary
      return (some value,.error (.host e))

/-- A fill and what comes after it, if there is a temporary file. -/
def complete (host : Host m) (p : Path) (fill : Fill ε α) :
    Except (CommitError ε) Path → m (Option α × Except (CommitError ε) Unit)
  | .error e => return (none,.error e)
  | .ok temporary => do
    let r ← (fill (limited (appendBlock host temporary))).run 0
    conclude host temporary p r.1.1 r.1.2

variable [LawfulMonad m]

theorem commit_eq (host : Host m) (p : Path) (fill : Fill ε α) :
    commit host p fill = prepare host p >>= complete host p fill := by
  unfold commit prepare
  simp only [bind_assoc]
  congr 1
  funext checked
  cases checked with
  | error e => simp [complete]
  | ok _ =>
    simp only [bind_assoc]
    congr 1
    funext made
    cases made with
    | error e => simp [complete]
    | ok _ =>
      simp only [bind_assoc]
      congr 1
      funext created
      cases created with
      | error e => simp [complete,Except.mapError]
      | ok temporary =>
        simp only [Except.mapError,pure_bind]
        rfl

/-- Keeping a record of the writes changes nothing else. -/
theorem commit_recorded (host : Host m) (p : Path) {fill : Fill ε α} (hf : fill.Uniform) :
    commit host p fill =
      (fun r => (r.1.map Prod.fst,r.2)) <$> commit host p fill.recorded := by
  rw [commit_eq,commit_eq,map_bind]
  congr 1
  funext prepared
  cases prepared with
  | error e => simp [complete]
  | ok temporary =>
    simp only [complete]
    rw [← hf.recorded_eq]
    simp only [StateT.run_map,map_bind,bind_map_left]
    congr 1
    funext r
    rcases r with ⟨⟨value,e | _⟩,used⟩
    · simp [conclude]
    · simp only [conclude,map_bind]
      congr 1
      funext published
      cases published <;> simp

end

section
variable {σ ε α : Type} {host : Host (StateM σ)} {disk : σ → Disk}

/-- Is every request granted, from the first look at the path to the last name of the file, and
does the fill succeed in between? -/
def Granted (host : Host (StateM σ)) (p : Path) (fill : Fill ε α) (s : σ) : Prop :=
  ∃ temporary s₁, (prepare host p : StateM σ (Except (CommitError ε) Path)).run s =
      (.ok temporary,s₁) ∧
    let filled := ((fill (limited (appendBlock host temporary))).run 0).run s₁
    filled.1.1.2 = .ok () ∧ ((publish host temporary p).run filled.2).1 = .ok ()

theorem run_conclude_ok_iff {temporary p : Path} {value : α} {outcome : Except ε Unit} {s : σ} :
    ((conclude host temporary p value outcome).run s).1.2 = .ok () ↔
      outcome = .ok () ∧ ((publish host temporary p).run s).1 = .ok () := by
  cases outcome with
  | error e =>
    constructor
    · intro h
      cases h
    · rintro ⟨h,-⟩
      cases h
  | ok _ =>
    unfold conclude
    rw [run_bind_state]
    generalize (publish host temporary p).run s = published
    rcases published with ⟨e | _,s₁⟩
    · constructor
      · intro h
        cases h
      · rintro ⟨-,h⟩
        cases h
    · exact ⟨fun _ => ⟨rfl,rfl⟩,fun _ => rfl⟩

theorem run_commit_ok_iff {p : Path} {fill : Fill ε α} {s : σ} :
    ((commit host p fill).run s).1.2 = .ok () ↔ Granted host p fill s := by
  rw [commit_eq,run_bind_state,Granted]
  generalize (prepare host p).run s = prepared
  rcases prepared with ⟨e | temporary,s₁⟩
  · constructor
    · intro h
      cases h
    · rintro ⟨temporary,s₁,h,-⟩
      cases h
  · constructor
    · exact fun h => ⟨temporary,s₁,rfl,run_conclude_ok_iff.mp h⟩
    · rintro ⟨temporary,s₁,⟨⟩,h⟩
      exact run_conclude_ok_iff.mpr h

variable (hh : host.Honest disk)
include hh

/-- Before a fill, directories were made, and perhaps an empty draft. -/
theorem run_prepare (p : Path) {s : σ} (hw : (disk s).tree.WellFormed) :
    let r := (prepare host p : StateM σ (Except (CommitError ε) Path)).run s
    ∃ grown, (disk s).Grows (Path.directory p) grown ∧ grown.tree.WellFormed ∧
      ((∃ e, r.1 = .error e ∧ disk r.2 = grown) ∨
        ∃ temporary place, r.1 = .ok temporary ∧ grown.Free temporary place ∧
          grown.Draft place 0o600 ByteArray.empty (disk r.2)) := by
  unfold prepare
  rw [run_bind_state]
  have hcheck := hh.checkPath p s
  generalize (checkPath host p).run s = checked at hcheck
  rcases checked with ⟨e | _,s₁⟩
  · exact ⟨disk s,.refl _,hw,.inl ⟨_,rfl,hcheck⟩⟩
  · dsimp only at hcheck ⊢
    rw [run_bind_state]
    have hgrows := hh.grows_makeDirectoriesWithin ((Path.directory p).length + 1)
      (Path.directory p) s₁
    rw [hcheck] at hgrows
    change Disk.Grows _ _ (disk ((host.makeDirectories (Path.directory p)).run s₁).2) at hgrows
    generalize (host.makeDirectories (Path.directory p)).run s₁ = made at hgrows
    have hw := (hgrows.2 hw).2
    rcases made with ⟨e | _,s₂⟩
    · exact ⟨_,hgrows,hw,.inl ⟨_,rfl,rfl⟩⟩
    · refine ⟨_,hgrows,hw,?_⟩
      dsimp only
      rw [run_bind_state]
      rcases hh.createTemporaryFile (Path.directory p) ("." ++ Path.base p ++ ".") ".tmp" hw with
        ⟨e,hr,hd⟩ | ⟨temporary,place,hr,hfree,hdraft⟩
      · rw [hr]
        exact .inl ⟨_,rfl,hd⟩
      · rw [hr]
        exact .inr ⟨temporary,place,rfl,hfree,hdraft⟩

section
variable {d : Disk} {temporary : Path} {place : Place} {mode : Nat} {content : ByteArray} {s : σ}
  (hf : d.Free temporary place) (h : d.Draft place mode content (disk s))
include hf h

/-- A draft that is given up is gone. -/
theorem run_giveUp {β : Type} (b : β) :
    d.Same (disk ((do
      let _ ← host.close temporary
      host.remove temporary
      return b : StateM σ β).run s).2) := by
  rw [run_bind_state,run_bind_state]
  change d.Same (disk ((host.remove temporary).run ((host.close temporary).run s).2).2)
  rw [hh.remove temporary,hh.close temporary]
  exact h.without hf

/-- After a fill, the draft is gone or published. -/
theorem run_conclude (p : Path) (value : α) (outcome : Except ε Unit) :
    let r := (conclude host temporary p value outcome).run s
    (∃ e, r.1 = (some value,.error e) ∧ d.Same (disk r.2)) ∨
      ∃ target, r.1 = (some value,.ok ()) ∧ d.Published p target content (disk r.2) := by
  cases outcome with
  | error e => exact .inl ⟨_,rfl,run_giveUp hh hf h _⟩
  | ok _ =>
    unfold conclude
    rw [run_bind_state]
    rcases hh.publish hf h p with ⟨e,mode,hr,hdraft⟩ | ⟨target,hr,hpublished⟩
    · rw [hr]
      exact .inl ⟨_,rfl,run_giveUp hh hf hdraft _⟩
    · rw [hr]
      exact .inr ⟨target,rfl,hpublished⟩

end

/-- A commit leaves the files as they are, or puts the accepted writes of its fill into one of them;
the second exactly if the fill succeeds and every request is granted. -/
theorem commit_atomic (p : Path) {fill : Fill ε α} (hf : fill.Uniform) {s : σ}
    (hw : (disk s).tree.WellFormed) :
    let r := (commit host p fill.recorded).run s
    (commit host p fill).run s = ((r.1.1.map Prod.fst,r.1.2),r.2) ∧
      (r.1.2 = .ok () ↔ Granted host p fill s) ∧
      ∃ grown : Disk, grown.here = (disk s).here ∧
        FileTree.Grown (disk s).here (Path.directory p) (disk s).tree grown.tree ∧
        ((∃ e, r.1.2 = .error e ∧ grown.Same (disk r.2)) ∨
          ∃ value attempts target, r.1 = (some (value,attempts),.ok ()) ∧
            (joined (accepted attempts)).size ≤ maxOutputSize ∧
            grown.Published p target (joined (accepted attempts)) (disk r.2)) := by
  have hrecord : (commit host p fill).run s =
      let r := (commit host p fill.recorded).run s
      ((r.1.1.map Prod.fst,r.1.2),r.2) := by
    rw [commit_recorded host p hf]
    rfl
  refine ⟨hrecord,?_,?_⟩
  · have hverdict := congrArg (·.1.2) hrecord
    dsimp only at hverdict
    rw [← hverdict]
    exact run_commit_ok_iff
  · rw [commit_eq,run_bind_state]
    obtain ⟨grown,hgrows,hwg,hprepared⟩ := run_prepare (ε := ε) hh p hw
    refine ⟨grown,hgrows.1,(hgrows.2 hw).1,?_⟩
    rcases hprepared with ⟨e,hr,rfl⟩ | ⟨temporary,place,hr,hfree,hdraft⟩
    · rw [hr]
      exact .inl ⟨e,rfl,rfl,hwg,fun _ => rfl⟩
    · rw [hr]
      -- through the whole fill the draft holds what was accepted so far, and all else is as before
      obtain ⟨hsize,hfilled⟩ := hf.recorded_keeps (appendBlock host temporary)
        (fun content s => grown.Draft place 0o600 content (disk s))
        (fun content s block hdraft => hh.appendBlock hfree hdraft block) hdraft
      rcases run_conclude hh hfree hfilled p _ _ with ⟨e,hr,hsame⟩ | ⟨target,hr,hpublished⟩
      · exact .inl ⟨e,congrArg Prod.snd hr,hsame⟩
      · exact .inr ⟨_,_,target,hr,hsize,hpublished⟩

end

/-- A directory with a file in it. -/
def oldFiles : FileTree where
  names := [(["d","a.c"],2),(["d"],1)]
  nodes := [(1,.directory 0o755),(2,.file 0o600 ⟨#[111]⟩)]
  next := 3

def twoWrites : Fill FillError Unit := Fill.ofSteps [.write ⟨#[110]⟩,.write ⟨#[111,112]⟩]

/-- A commit over these files in which some requests are refused. -/
def overwriting (faults : Faults) :
    (Option Unit × Except (CommitError FillError) Unit) × Machine × Faults :=
  (commit Machine.storage.faulty "d/a.c" twoWrites).run ({ tree := oldFiles },faults)

/-- A commit whose last request is refused leaves the old file, and no new one; when every request
is granted, the file holds both writes and has the mode of a complete file. -/
theorem commit_refused_and_granted :
    let r := overwriting [none,none,none,none,none,none,none,none,some .noSpace]
    let r' := overwriting []
    Machine.storage.faulty.Honest (fun s : Machine × Faults => s.1.disk) ∧
      twoWrites.Uniform ∧ oldFiles.WellFormed ∧ r.1.2.isOk = false ∧
      r.2.1.tree.get? ["d","a.c"] = some (.file 0o600 ⟨#[111]⟩) ∧
      (∀ q mode block, r.2.1.tree.get? q = some (.file mode block) →
        oldFiles.get? q = some (.file mode block)) ∧
      Granted Machine.storage.faulty "d/a.c" twoWrites ({ tree := oldFiles },[]) ∧
      r'.1.2.isOk = true ∧
      r'.2.1.tree.get? ["d","a.c"] = some (.file 0o644 ⟨#[110,111,112]⟩) := by
  intro r r'
  have hh := Machine.honest_storage.faulty
  have hf : twoWrites.Uniform := Fill.uniform_ofSteps _
  have hw : oldFiles.WellFormed := ⟨by decide,by decide,by decide⟩
  have hfails : r.1.2.isOk = false := by decide +kernel
  have hdone : r'.1.2.isOk = true := by decide +kernel
  have hholds : (overwriting []).2.1.tree.get? ["d","a.c"] =
      some (.file 0o644 ⟨#[110,111,112]⟩) := by
    with_unfolding_all rfl
  have hgranted : Granted Machine.storage.faulty "d/a.c" twoWrites ({ tree := oldFiles },[]) := by
    obtain ⟨hrecord,hiff,grown,-,-,hend⟩ := commit_atomic hh "d/a.c" hf hw
      (s := ({ tree := oldFiles },[]))
    have hr : r' = _ := hrecord
    rw [hr] at hdone
    rcases hend with ⟨e,herror,-⟩ | ⟨value,attempts,target,hok,-⟩
    · rw [herror] at hdone
      cases hdone
    · exact hiff.mp (congrArg Prod.snd hok)
  obtain ⟨hrecord,-,grown,-,hgrown,hend⟩ := commit_atomic hh "d/a.c" hf hw
    (s := ({ tree := oldFiles },[none,none,none,none,none,none,none,none,some .noSpace]))
  have hr : r = _ := hrecord
  rcases hend with ⟨e,-,hsame⟩ | ⟨value,attempts,target,hok,-⟩
  · have hget : ∀ q, r.2.1.tree.get? q = grown.tree.get? q := by
      rw [hr]
      exact hsame.get?
    refine ⟨hh,hf,hw,hfails,?_,fun q mode block hq => ?_,hgranted,hdone,hholds⟩
    · rw [hget]
      rcases hgrown ["d","a.c"] with h | ⟨h,-⟩
      · exact h
      · cases h
    · rw [hget] at hq
      rcases hgrown q with h | ⟨-,h,-⟩
      · exact h.symm.trans hq
      · rw [h] at hq
        cases hq
  · rw [hr] at hfails
    rw [hok] at hfails
    cases hfails

end OutputFile
end TeenyTiny
