import TeenyTiny.Command.Execute
import TeenyTiny.Proofs.FileOutput
import TeenyTiny.Proofs.MemoryOutput

/-! Ways out for a translation. Whatever the text is handed to, a writer, a file or a memory, it is
the same text, and there is none if there is a diagnostic. -/
namespace TeenyTiny
open Text Model

section
variable {m : Type → Type} [Monad m] {ε : Type}

/-- Hands a text over in one piece; a diagnostic stays as it is. -/
def handOver (write : ByteArray → m (Written ε)) (symbols : Symbols) :
    Except Diagnostic Bytes → m (Symbols × Except (CompileError ε) Unit)
  | .error d => return (symbols,.error (.diagnostic d))
  | .ok text => do return (symbols,delivered (← write text.toByteArray))

end

/-- What an output of limited size takes of a translation. -/
def capped : Except Diagnostic Bytes → Except FillError ByteArray
  | .error d => .error (.compile (.diagnostic d))
  | .ok text =>
    if text.length ≤ maxOutputSize then .ok text.toByteArray
    else .error (.compile (.delivery (.write .tooLarge)))

/-- Are these the symbols and the diagnostic or the text of a source, whoever gets them? -/
def Translates (src : Bytes) (symbols : Symbols) (outcome : Except Diagnostic Bytes) : Prop :=
  ∀ {m : Type → Type} [Monad m] [LawfulMonad m] {ε : Type} (write : ByteArray → m (Written ε)),
    compile write src = handOver write symbols outcome

theorem toByteArray_toList (block : ByteArray) : block.data.toList.toByteArray = block :=
  ByteArray.ext (Array.toList_inj.mp List.toList_data_toByteArray)

/-- The parts of a translation: the symbols, and a diagnostic or a text. -/
theorem compileText_cases (src : Bytes) : ∃ (symbols : Symbols) (outcome : Except Diagnostic Bytes),
    compileText src = (symbols,outcome.mapError .diagnostic) ∧
      Translates src symbols outcome := by
  rcases compile_cases src with ⟨symbols,d,hb,h⟩ | ⟨symbols,block,hb,h⟩
  · refine ⟨symbols,.error d,?_,fun write => h write⟩
    rw [compileText,hb]
    rfl
  · refine ⟨symbols,.ok block.data.toList,?_,?_⟩
    · rw [compileText,hb]
      rfl
    · intro m _ _ ε write
      rw [h,handOver,toByteArray_toList]

section
variable {src : Bytes} {symbols : Symbols} {outcome : Except Diagnostic Bytes}

theorem capped_eq_ok {block : ByteArray} (h : capped outcome = .ok block) :
    ∃ text, outcome = .ok text ∧ text.length ≤ maxOutputSize ∧ block = text.toByteArray := by
  cases outcome with
  | error d => cases h
  | ok text =>
    rw [capped] at h
    split at h
    · exact ⟨text,rfl,‹_›,(Except.ok.inj h).symm⟩
    · cases h

theorem capped_eq_error {e : FillError} (h : capped outcome = .error e) :
    (∃ d, outcome = .error d ∧ e = .compile (.diagnostic d)) ∨
      ∃ text, outcome = .ok text ∧ maxOutputSize < text.length ∧
        e = .compile (.delivery (.write .tooLarge)) := by
  cases outcome with
  | error d => exact .inl ⟨d,rfl,(Except.error.inj h).symm⟩
  | ok text =>
    rw [capped] at h
    split at h
    · cases h
    · exact .inr ⟨text,rfl,by omega,(Except.error.inj h).symm⟩

variable {σ : Type} {out : ByteArray → StateM σ (Written WriteError)}

/-- A fill that has nothing to deliver, or too much, writes nothing. -/
theorem run_ofSource_error (hc : Translates src symbols outcome) {e : FillError}
    (h : capped outcome = .error e) (s : σ) :
    ((Fill.ofSource src (limited out)).run 0).run s = (((symbols,.error e),0),s) := by
  unfold Fill.ofSource
  rw [hc,run_bind_run]
  rcases capped_eq_error h with ⟨d,rfl,rfl⟩ | ⟨text,rfl,hlarge,rfl⟩
  · rfl
  · rw [handOver,run_bind_run,run_limited,if_pos (by simpa using hlarge)]
    rfl

/-- Otherwise it makes one write, and judges that. -/
theorem run_ofSource_ok (hc : Translates src symbols outcome) {block : ByteArray}
    (h : capped outcome = .ok block) (s : σ) :
    ((Fill.ofSource src (limited out)).run 0).run s =
      let written := (out block).run s
      (((symbols,(delivered written.1).mapError .compile),written.1.accepted),written.2) := by
  unfold Fill.ofSource
  rw [hc,run_bind_run]
  obtain ⟨text,rfl,hsize,rfl⟩ := capped_eq_ok h
  rw [handOver,run_bind_run,run_limited,if_neg (by simpa using hsize)]
  dsimp only
  rw [Nat.zero_add]
  rfl

/-- A memory takes the text, or it stays as it is. -/
theorem Memory.commit_ofSource (hc : Translates src symbols outcome) (memory : Memory) :
    memory.commit (Fill.ofSource src) =
      ((symbols,(capped outcome).map fun _ => ()),
        ((capped outcome).toOption.map fun block => ⟨some block⟩).getD memory) := by
  unfold Memory.commit
  cases h : capped outcome with
  | error e =>
    rw [run_ofSource_error hc h]
    rfl
  | ok block =>
    rw [run_ofSource_ok hc h]
    have happend : (appendTo block : StateM ByteArray (Written WriteError)).run ByteArray.empty =
        (⟨block.size,none⟩,block) := by
      change ((⟨block.size,none⟩ : Written WriteError),ByteArray.empty ++ block) = _
      rw [ByteArray.empty_append]
    rw [happend]
    rfl

end

/-! ## Files -/

/-- The files of a disk, with one at a path if there is a block for it. -/
def Disk.Holds (d : Disk) (p : Path) : Except FillError ByteArray → Disk → Prop
  | .ok block,d' => ∃ target, d.Published p target block d'
  | .error _,d' => d.Same d'

namespace OutputFile
variable {σ : Type} {host : Host (StateM σ)}

/-- Is every request granted that an output file makes, with a block to write or without? -/
def Grants (host : Host (StateM σ)) (p : Path) (verdict : Except FillError ByteArray) (s : σ) :
    Prop :=
  ∃ temporary s₁, (prepare host p : StateM σ (Except (CommitError FillError) Path)).run s =
      (.ok temporary,s₁) ∧
    ∀ block, verdict = .ok block →
      let written := (host.append temporary block).run s₁
      written.1 = .ok () ∧ ((publish host temporary p).run written.2).1 = .ok ()

theorem run_appendBlock {temporary : Path} {block : ByteArray} {s : σ}
    (h : ((host.append temporary block).run s).1 = .ok ()) :
    (appendBlock host temporary block).run s =
      (⟨block.size,none⟩,((host.append temporary block).run s).2) := by
  unfold appendBlock
  rw [run_bind_state,h]
  rfl

/-- Where every request is granted, a file takes the text, or the files stay as they are. -/
theorem run_commit_ofSource {disk : σ → Disk} (hh : host.Honest disk) {src : Bytes}
    {symbols : Symbols} {outcome : Except Diagnostic Bytes}
    (hc : Translates src symbols outcome) {p : Path} {s : σ} (hw : (disk s).tree.WellFormed)
    (hg : Grants host p (capped outcome) s) :
    let r := (commit host p (Fill.ofSource src)).run s
    r.1 = (some symbols,((capped outcome).map fun _ => ()).mapError .fill) ∧
      ∃ grown : Disk, grown.here = (disk s).here ∧
        FileTree.Grown (disk s).here (Path.directory p) (disk s).tree grown.tree ∧
        grown.Holds p (capped outcome) (disk r.2) := by
  obtain ⟨temporary,s₁,hprepare,hsteps⟩ := hg
  obtain ⟨grown,hgrows,-,hprepared⟩ := run_prepare (ε := FillError) hh p hw
  rw [hprepare] at hprepared
  rcases hprepared with ⟨e,he,-⟩ | ⟨_,place,⟨⟩,hfree,hdraft⟩
  · cases he
  rw [commit_eq,run_bind_state,hprepare]
  dsimp only
  rw [complete,run_bind_state]
  cases hverdict : capped outcome with
  | error e =>
    rw [run_ofSource_error hc hverdict]
    exact ⟨rfl,grown,hgrows.1,(hgrows.2 hw).1,run_giveUp hh hfree hdraft _⟩
  | ok block =>
    obtain ⟨happend,hpublish⟩ := hsteps block hverdict
    have hfile := hh.appendBlock hfree hdraft block
    rw [run_appendBlock happend] at hfile
    rw [run_ofSource_ok hc hverdict,run_appendBlock happend]
    rcases hfile with ⟨-,hfile⟩ | ⟨e,he,-⟩
    · rw [ByteArray.empty_append] at hfile
      rcases run_conclude hh hfree hfile p symbols (.ok () : Except FillError Unit) with
        ⟨e,hr,-⟩ | ⟨target,hr,hpublished⟩
      · cases (congrArg Prod.snd hr).symm.trans (run_conclude_ok_iff.mpr ⟨rfl,hpublish⟩)
      · exact ⟨hr,grown,hgrows.1,(hgrows.2 hw).1,target,hpublished⟩
    · cases congrArg Written.failure he

end OutputFile

/-! ## Commands -/

namespace Command
variable {σ β γ : Type}

/-- Runs an action on a machine. -/
def Action.on (x : Action (StateM σ) β) (printed : Printed) (s : σ) :
    (Except CommandError β × Printed) × σ := (x.run.run printed).run s

theorem on_bind_ok {x : Action (StateM σ) β} {f : β → Action (StateM σ) γ} {printed : Printed}
    {s : σ} {b : β} {printed' : Printed} {s' : σ} (h : x.on printed s = ((.ok b,printed'),s')) :
    Action.on (x >>= f) printed s = (f b).on printed' s' := by
  change (((ExceptT.bindCont f) (x.on printed s).1.1).run (x.on printed s).1.2).run
    (x.on printed s).2 = _
  rw [h]
  rfl

theorem on_bind_error {x : Action (StateM σ) β} {f : β → Action (StateM σ) γ} {printed : Printed}
    {s : σ} {e : CommandError} {printed' : Printed} {s' : σ}
    (h : x.on printed s = ((.error e,printed'),s')) :
    Action.on (x >>= f) printed s = ((.error e,printed'),s') := by
  change (((ExceptT.bindCont f) (x.on printed s).1.1).run (x.on printed s).1.2).run
    (x.on printed s).2 = _
  rw [h]
  rfl

theorem on_ask (x : StateM σ β) (printed : Printed) (s : σ) :
    (ask x).on printed s = ((.ok (x.run s).1,printed),(x.run s).2) := rfl

theorem toList_addOut (text : Bytes) (printed : Printed) :
    (printed.addOut text).out.data.toList = printed.out.data.toList ++ text :=
  Listing.toList_foldl_push text printed.out

variable (host : Host (StateM σ)) (o : Options)

/-- The machine after a line for users who want to see the progress, which has the time on it. -/
def clocked (s : σ) : σ := if o.verbose then (host.timeOfDay.run s).2 else s

theorem disk_clocked {disk : σ → Disk} (hh : host.Honest disk) (s : σ) :
    disk (clocked host o s) = disk s := by
  unfold clocked
  split
  · exact hh.timeOfDay s
  · rfl

/-- Progress is not written to where the output goes. -/
theorem on_log (text : Bytes) (printed : Printed) (s : σ) : ∃ printed' : Printed,
    printed'.out = printed.out ∧
      (log host o text).on printed s = ((.ok (),printed'),clocked host o s) := by
  unfold log clocked
  cases o.verbose with
  | false => exact ⟨printed,rfl,rfl⟩
  | true => exact ⟨printed.addErr _,rfl,rfl⟩

section
variable {host o} {source : Path} {file : SourceFile} {s s₀ s₁ : σ}
  (hread : (SourceFile.read host source).run s = (.ok file,s₀))
  {commit : Fill FillError Symbols →
    StateM σ (β × Option Symbols × Except (CommitError FillError) Unit)}
  (onSymbols : Symbols → Action (StateM σ) Unit) {result : β} {symbols : Symbols}
include hread

theorem on_readSource (printed : Printed) :
    (readSource host source).on printed s = ((.ok file,printed),s₀) := by
  have hask : (ask (SourceFile.read host source)).on printed s = ((.ok (.ok file),printed),s₀) := by
    rw [on_ask,hread]
  exact on_bind_ok hask

/-- A compilation ends as the commit into its output does. -/
theorem on_compileTo {verdict : Except (CommitError FillError) Unit}
    (hc : (commit (Fill.ofSource file.text)).run (clocked host o s₀) =
      ((result,some symbols,verdict),s₁))
    (hs : ∀ printed : Printed, ∃ printed' : Printed, printed'.out = printed.out ∧
      (onSymbols symbols).on printed s₁ = ((.ok (),printed'),s₁)) (printed : Printed) :
    ∃ (printed' : Printed) (s' : σ), printed'.out = printed.out ∧
      (s' = s₁ ∨ s' = clocked host o s₁) ∧
      (compileTo host o source commit onSymbols).on printed s =
        (((verdict.map fun _ => (result,symbols)).mapError (.compilation source),printed'),s') := by
  obtain ⟨printed₁,hout₁,hlog₁⟩ := on_log host o ("compiling " ++ file.fullPath) printed s₀
  have hask : (ask (commit (Fill.ofSource file.text))).on printed₁ (clocked host o s₀) =
      ((.ok (result,some symbols,verdict),printed₁),s₁) := by
    rw [on_ask,hc]
  unfold compileTo
  rw [on_bind_ok (on_readSource hread printed),on_bind_ok hlog₁,on_bind_ok hask]
  cases verdict with
  | error e =>
    obtain ⟨printed₂,hout₂,hshow⟩ := hs printed₁
    exact ⟨printed₂,s₁,hout₂.trans hout₁,.inl rfl,on_bind_ok hshow⟩
  | ok _ =>
    obtain ⟨printed₂,hout₂,hlog₂⟩ :=
      on_log host o (decimal symbols.names.length ++ " variables declared") printed₁ s₁
    exact ⟨printed₂,_,hout₂.trans hout₁,.inr rfl,on_bind_ok hlog₂⟩

end

/-- A failure of an output, as a command reports it. -/
def reported (source : Path) (verdict : Except FillError β) : Except CommandError β :=
  verdict.mapError fun e => .compilation source (.fill e)

/-- What is shown of a translation: the text and the symbols, or nothing. -/
def shown (symbols : Symbols) : Except FillError ByteArray → Bytes
  | .ok block => "Generated C\n" ++ block.data.toList ++ "\n" ++ symbols.dump
  | .error _ => []

section
variable {host o} {source : Path} {file : SourceFile} {s s₀ : σ}
  (hread : (SourceFile.read host source).run s = (.ok file,s₀))
  {symbols : Symbols} {outcome : Except Diagnostic Bytes}
  (hc : Translates file.text symbols outcome)
include hread hc

theorem on_compileToMemory (printed : Printed) : ∃ (printed' : Printed) (s' : σ),
    printed'.out = printed.out ∧ (compileToMemory host o source).on printed s =
      ((reported source ((capped outcome).map fun block => (⟨some block⟩,symbols)),printed'),
        s') := by
  let commit (fill : Fill FillError Symbols) :
      StateM σ (Memory × Option Symbols × Except (CommitError FillError) Unit) := do
    let r := ({} : Memory).commit fill
    return (r.2,some r.1.1,r.1.2.mapError .fill)
  have hcommit : (commit (Fill.ofSource file.text)).run (clocked host o s₀) =
      ((((capped outcome).toOption.map fun block => ⟨some block⟩).getD {},some symbols,
        ((capped outcome).map fun _ => ()).mapError .fill),clocked host o s₀) := by
    dsimp only [commit]
    rw [Memory.commit_ofSource hc]
    rfl
  have hshow : ∀ printed : Printed, ∃ printed' : Printed, printed'.out = printed.out ∧
      (printErr symbols.dump).on printed (clocked host o s₀) =
        ((.ok (),printed'),clocked host o s₀) :=
    fun printed => ⟨printed.addErr symbols.dump,rfl,rfl⟩
  obtain ⟨printed',s',hout,-,hrun⟩ :=
    on_compileTo hread (fun symbols => printErr symbols.dump) hcommit hshow printed
  refine ⟨printed',s',hout,hrun.trans ?_⟩
  cases capped outcome <;> rfl

theorem on_dump (printed : Printed) : ∃ (printed' : Printed) (s' : σ),
    printed'.out.data.toList = printed.out.data.toList ++ shown symbols (capped outcome) ∧
      (dump host o source).on printed s =
        ((reported source ((capped outcome).map fun _ => ()),printed'),s') := by
  obtain ⟨printed',s',hout,hrun⟩ := on_compileToMemory hread hc printed
  unfold dump
  cases hverdict : capped outcome with
  | error e =>
    rw [hverdict] at hrun
    refine ⟨printed',s',?_,on_bind_error hrun⟩
    rw [hout,shown,List.append_nil]
  | ok block =>
    rw [hverdict] at hrun
    refine ⟨_,s',?_,(on_bind_ok hrun).trans rfl⟩
    rw [toList_addOut,hout]
    rfl

/-- Where every request is granted, a command ends with the text in its file, or with the failure
and the files as they were. -/
theorem on_compileToFile {disk : σ → Disk} (hh : host.Honest disk) {out : Path}
    (hw : (disk s₀).tree.WellFormed)
    (hg : OutputFile.Grants host out (capped outcome) (clocked host o s₀)) (printed : Printed) :
    ∃ (printed' : Printed) (s' : σ) (grown : Disk), printed'.out = printed.out ∧
      (compileToFile host o source out).on printed s =
        ((reported source ((capped outcome).map fun _ => ()),printed'),s') ∧
      grown.here = (disk s₀).here ∧
      FileTree.Grown (disk s₀).here (Path.directory out) (disk s₀).tree grown.tree ∧
      grown.Holds out (capped outcome) (disk s') := by
  let commit (fill : Fill FillError Symbols) :
      StateM σ (Unit × Option Symbols × Except (CommitError FillError) Unit) := do
    return ((),← OutputFile.commit host out fill)
  rw [← disk_clocked host o hh] at hw ⊢
  obtain ⟨hr,grown,hhere,hgrown,hholds⟩ := OutputFile.run_commit_ofSource hh hc hw hg
  have hcommit : (commit (Fill.ofSource file.text)).run (clocked host o s₀) =
      (((),some symbols,((capped outcome).map fun _ => ()).mapError .fill),
        ((OutputFile.commit host out (Fill.ofSource file.text)).run (clocked host o s₀)).2) := by
    dsimp only [commit]
    rw [run_bind_state,hr]
    rfl
  obtain ⟨printed',s',hout,hs',hrun⟩ :=
    on_compileTo hread (fun _ => pure ()) hcommit (fun printed => ⟨printed,rfl,rfl⟩) printed
  have hdisk : disk s' = disk
      ((OutputFile.commit host out (Fill.ofSource file.text)).run (clocked host o s₀)).2 := by
    rcases hs' with rfl | rfl
    · rfl
    · exact disk_clocked host o hh _
  refine ⟨printed',s',grown,hout,?_,hhere,hgrown,hdisk.symm ▸ hholds⟩
  unfold compileToFile
  cases hverdict : capped outcome with
  | error e =>
    rw [hverdict] at hrun
    exact on_bind_error hrun
  | ok block =>
    rw [hverdict] at hrun
    exact on_bind_ok hrun

end

theorem asks_read {host : Host (StateM σ)} {disk : σ → Disk} (hh : host.Honest disk) (p : Path) :
    Asks disk (SourceFile.read host p) := by
  have habsolute : Asks disk (host.absolute p) := by
    unfold Host.absolute
    split
    · exact .pure _
    · refine hh.workingDirectory.bind fun here => ?_
      cases here <;> exact .pure _
  unfold SourceFile.read
  refine habsolute.bind fun fullPath => ?_
  cases fullPath with
  | error e => exact .pure _
  | ok fullPath =>
    refine (hh.info fullPath).bind fun info => ?_
    cases info with
    | error cause => exact .pure _
    | ok info =>
      dsimp only
      split
      · exact .pure _
      · refine (hh.read fullPath).bind fun block => ?_
        cases block <;> exact .pure _

/-- However a translation is delivered, the text is the same one, and the failure too. What takes
the text takes all of it, or nothing if it is too large. -/
theorem deliveries_agree (src : Bytes) : ∃ (symbols : Symbols) (outcome : Except Diagnostic Bytes),
    compileText src = (symbols,outcome.mapError .diagnostic) ∧
    Translates src symbols outcome ∧
    (∀ memory : Memory, memory.commit (Fill.ofSource src) =
      ((symbols,(capped outcome).map fun _ => ()),
        ((capped outcome).toOption.map fun block => ⟨some block⟩).getD memory)) ∧
    ∀ {σ : Type} {host : Host (StateM σ)} {disk : σ → Disk} (o : Options) (source out : Path)
      (printed : Printed) (s s₀ : σ) (file : SourceFile), host.Honest disk →
      (disk s).tree.WellFormed → (SourceFile.read host source).run s = (.ok file,s₀) →
      file.text = src → OutputFile.Grants host out (capped outcome) (clocked host o s₀) →
      let memory := (compileToMemory host o source).on printed s
      let dumped := (dump host o source).on printed s
      let written := (compileToFile host o source out).on printed s
      memory.1.1 = reported source ((capped outcome).map fun block => (⟨some block⟩,symbols)) ∧
        dumped.1.1 = reported source ((capped outcome).map fun _ => ()) ∧
        dumped.1.2.out.data.toList = printed.out.data.toList ++ shown symbols (capped outcome) ∧
        written.1.1 = reported source ((capped outcome).map fun _ => ()) ∧
        ∃ grown : Disk, grown.here = (disk s).here ∧
          FileTree.Grown (disk s).here (Path.directory out) (disk s).tree grown.tree ∧
          grown.Holds out (capped outcome) (disk written.2) := by
  obtain ⟨symbols,outcome,htext,hc⟩ := compileText_cases src
  refine ⟨symbols,outcome,htext,hc,Memory.commit_ofSource hc,?_⟩
  rintro σ host disk o source out printed s s₀ file hh hw hread rfl hg
  have hdisk : disk s₀ = disk s := by
    have h := asks_read hh source s
    rwa [hread] at h
  rw [← hdisk] at hw ⊢
  obtain ⟨_,_,-,hmemory⟩ := on_compileToMemory (o := o) hread hc printed
  obtain ⟨_,_,hshown,hdump⟩ := on_dump (o := o) hread hc printed
  obtain ⟨_,_,grown,-,hfile,hhere,hgrown,hholds⟩ := on_compileToFile hread hc hh hw hg printed
  dsimp only
  rw [hmemory,hdump,hfile]
  exact ⟨rfl,rfl,hshown,rfl,grown,hhere,hgrown,hholds⟩

/-- A program that prints a word, and its translation. -/
def greeting : Bytes := "PRINT \"hello\"\n"
def greetingText : Bytes :=
  "#include <stdio.h>\nint main(void)\x7b\nprintf(\"hello\\n\");\nreturn 0;\n\x7d\n"

/-- A machine with the program in a file. -/
def desk : Machine where
  tree := { names := [(["p"],1)], nodes := [(1,.file 0o644 greeting.toByteArray)], next := 2 }

/-- The program is shown and written alike. -/
theorem deliveries_of_greeting :
    (compileText greeting).2 = .ok greetingText ∧ desk.tree.WellFormed ∧
      ((dump Machine.storage {} "p").on {} desk).1.1 = .ok () ∧
      ((compileToFile Machine.storage {} "p" "o.c").on {} desk).1.1 = .ok () ∧
      ((dump Machine.storage {} "p").on {} desk).1.2.out.data.toList =
        "Generated C\n" ++ greetingText ++ "\n" ++ (compileText greeting).1.dump ∧
      ∃ target, ((compileToFile Machine.storage {} "p" "o.c").on {} desk).2.tree.get? target =
        some (.file OutputFile.fileMode greetingText.toByteArray) := by
  have htext : (compileText greeting).2 = .ok greetingText := ok_of_toOption (by decide +kernel)
  have hw : desk.disk.tree.WellFormed := ⟨by decide,by decide,by decide⟩
  have hread : (SourceFile.read Machine.storage "p").run desk =
      (.ok ⟨"/p",greeting.toByteArray⟩,desk) := by rfl
  obtain ⟨symbols,outcome,hcompile,-,-,h⟩ := deliveries_agree greeting
  have houtcome : outcome = .ok greetingText := by
    rw [hcompile] at htext
    cases outcome with
    | error d => cases htext
    | ok other => exact congrArg _ (Except.ok.inj htext)
  have hcapped : capped outcome = .ok greetingText.toByteArray := by
    rw [houtcome,capped,if_pos (show greetingText.length ≤ maxOutputSize by decide +kernel)]
  have hg : OutputFile.Grants Machine.storage "o.c" (capped outcome)
      (clocked Machine.storage {} desk) := by
    refine ⟨"./.o.c.1000000000.tmp",{ desk with
      tree := desk.tree.insert [".o.c.1000000000.tmp"] (.file 0o600 ByteArray.empty)
      nextNumber := 1000000001 },by rfl,fun block hblock => ?_⟩
    cases hcapped.symm.trans hblock
    exact ⟨by rfl,by rfl⟩
  obtain ⟨-,hdumped,hshown,hwritten,grown,-,-,hholds⟩ := h {} "p" "o.c" {} desk desk
    ⟨"/p",greeting.toByteArray⟩ Machine.honest_storage hw hread List.toList_data_toByteArray hg
  rw [hcapped] at hdumped hshown hwritten hholds
  obtain ⟨target,hpublished⟩ := hholds
  have hempty : ({} : Printed).out.data.toList = [] := rfl
  have hreported : ∀ block : ByteArray,
    reported "p" (.map (fun _ => ()) (.ok block)) = .ok () := fun _ => rfl
  have htree : ∀ machine : Machine, machine.disk.tree = machine.tree := fun _ => rfl
  have hsymbols : (compileText greeting).1 = symbols := by rw [hcompile]
  have hget := (hpublished.get? target).trans (if_pos rfl)
  rw [hreported] at hdumped hwritten
  rw [hempty,List.nil_append,shown,List.toList_data_toByteArray] at hshown
  rw [htree] at hget
  rw [hsymbols]
  exact ⟨htext,hw,hdumped,hwritten,hshown,target,hget⟩

end Command
end TeenyTiny
