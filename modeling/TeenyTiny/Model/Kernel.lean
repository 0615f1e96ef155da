import TeenyTiny.Model.Machine

/-! What calls do, and the order in which programs take their steps: the one whose time comes first
goes first. A call that cannot be answered yet lets its program wait. -/
namespace TeenyTiny.Model
open Text

namespace Machine

/-- What a call makes of the machine and of the program, with the reply. -/
abbrev Answer := Machine × Job × Reply

/-- Changes the files if that is possible. -/
def change (machine : Machine) (job : Job) (tree : Except Errno FileTree) : Answer :=
  match tree with
  | .ok tree => ({ machine with tree },job,.done)
  | .error cause => (machine,job,.refused cause)

/-- The mode of a new file with some of the rights masked out. -/
def masked (mode mask : Nat) : Nat := mode - (mode &&& mask)

/-- The node that is to be opened, which may be made first, and its number. -/
def nodeToOpen (machine : Machine) (job : Job) (p : Path) (how : Access) :
    Except Errno (FileTree × Nat × Node) := do
  let tree := machine.tree
  let place ← tree.locate job.workingDirectory true p
  match tree.numberAt? place,tree.get? place with
  | some number,some node =>
    match node with
    | .directory _ => if how.writes then throw .isDirectory
    | .file mode _ =>
      if FileTree.hasTrailingSlash p then throw .notDirectory
      if how.isExclusive then throw .exists_
      if how.truncates then
        return (tree.setNode number (.file mode ByteArray.empty),number,node)
    | .utility _ => if how.writes then throw .permissionDenied
    | _ => pure ()
    return (tree,number,node)
  | _,_ =>
    if !how.creates then throw .notFound
    if FileTree.hasTrailingSlash p then throw .isDirectory
    let node := Node.file (masked 0o666 job.mask) ByteArray.empty
    return (tree.insert place node,tree.next,node)

def openFile (machine : Machine) (job : Job) (p : Path) (how : Access) : Answer :=
  match machine.nodeToOpen job p how with
  | .error cause => (machine,job,.refused cause)
  | .ok (_,_,.device (.descriptor n)) =>
    match job.stream? n with
    | none => (machine,job,.refused .notFound)
    | some id =>
      let descriptor := job.freeDescriptor 0
      (machine,job.setStream descriptor id,.number descriptor)
  | .ok (tree,number,_) =>
    let (machine,job,descriptor) :=
      openStream { machine with tree } job (.node number 0 how)
    (machine,job,.number descriptor)

/-- A block with another one written over it from a position on. -/
def overwrite (block : ByteArray) (position : Nat) (piece : ByteArray) : ByteArray :=
  let gap := ByteArray.mk (Array.replicate (position - block.size) 0)
  block.extract 0 position ++ gap ++ piece ++ block.extract (position + piece.size) block.size

def readStream (machine : Machine) (job : Job) (id : Nat) (stream : Stream) (limit : Nat) :
    Option Answer :=
  match stream with
  | .kept _ | .pipeOutput _ => some (machine,job,.refused .badDescriptor)
  | .pipeInput pipe =>
    let block := machine.pipe pipe
    if block.isEmpty && machine.isOpen (· = .pipeOutput pipe) then none
    else
      some (machine.setPipe pipe (block.extract limit block.size),job,
        .block (block.extract 0 limit))
  | .node number position how =>
    match machine.tree.node? number with
    | some (.directory _) => some (machine,job,.refused .isDirectory)
    | some (.file _ block) =>
      if !how.reads then some (machine,job,.refused .badDescriptor)
      else
        let piece := block.extract position (position + limit)
        some (machine.setStream id (.node number (position + piece.size) how),job,.block piece)
    | some (.device .zero) | some (.device .full) =>
      some (machine,job,.block (ByteArray.mk (Array.replicate limit 0)))
    | _ => some (machine,job,.block ByteArray.empty)

/-- How much a pipe takes before a program has to wait. -/
def pipeSize : Nat := 65536

def writeStream (machine : Machine) (job : Job) (id : Nat) (stream : Stream) (piece : ByteArray) :
    Option Answer :=
  match stream with
  | .kept channel => some ({ machine with kept := (channel,piece) :: machine.kept },job,.done)
  | .pipeInput _ => some (machine,job,.refused .badDescriptor)
  | .pipeOutput pipe =>
    let block := machine.pipe pipe
    if !machine.isOpen (· = .pipeInput pipe) then
      some (machine,job.receive machine.clock 13,.refused .brokenPipe)
    else if block.size ≥ pipeSize then none
    else some (machine.setPipe pipe (block ++ piece),job,.done)
  | .node number position how =>
    if !how.writes then some (machine,job,.refused .badDescriptor)
    else match machine.tree.node? number with
      | some (.file mode block) =>
        let position := if how.appends then block.size else position
        let tree := machine.tree.setNode number (.file mode (overwrite block position piece))
        some ({ machine.setStream id (.node number (position + piece.size) how) with tree },job,
          .done)
      | some (.device .full) => some (machine,job,.refused .noSpace)
      | _ => some (machine,job,.done)

/-- The end of a program that was started, if it has ended. -/
def waitFor (machine : Machine) (job : Job) (number : Option Nat) (isInterruptible : Bool) :
    Option Answer :=
  let isMeant (n parent : Nat) : Bool := parent = job.number && number.all (· = n)
  match machine.ended.find? fun (n,parent,_) => isMeant n parent with
  | some (n,_,status) =>
    some ({ machine with ended := machine.ended.filter (·.1 ≠ n) },job,.ended n status)
  | none =>
    if isInterruptible && job.pending ≠ [] then some (machine,job,.signals job.pending)
    else if machine.jobs.any fun other => isMeant other.number other.parent then none
    else some (machine,job,.refused .noChild)

/-- Sends a signal. A program that has ended and is still known takes every signal. -/
def kill (machine : Machine) (job : Job) (number signal : Nat) : Answer :=
  if number = job.number then
    (machine,if signal = 0 then job else job.receive machine.clock signal,.done)
  else match machine.job? number with
    | some target =>
      (if signal = 0 then machine else machine.putJob (target.receive machine.clock signal),job,
        .done)
    | none =>
      (machine,job,
        if machine.ended.any (·.1 = number) then .done else .refused .noProcess)

/-- Answers a call, or `none` if the program has to wait. -/
def perform (machine : Machine) (job : Job) (c : Call) : Option Answer :=
  let tree := machine.tree
  let here := job.workingDirectory
  match c with
  | .pause _ => some (machine,job,.done)
  | .openFile p how => some (machine.openFile job p how)
  | .close descriptor => some (machine,job.close descriptor,.done)
  | .closeFrom least =>
    some (machine,{ job with descriptors := job.descriptors.filter (·.1 < least) },.done)
  | .load p =>
    some (machine,job,match tree.load here p with
      | .ok program => .program program
      | .error cause => .refused cause)
  | .copy source target =>
    some (match job.stream? source with
      | some id => (machine,job.setStream target id,.done)
      | none => (machine,job,.refused .badDescriptor))
  | .copyFrom source least =>
    some (match job.stream? source with
      | some id =>
        let descriptor := job.freeDescriptor least
        (machine,job.setStream descriptor id,.number descriptor)
      | none => (machine,job,.refused .badDescriptor))
  | .pipe =>
    let pipe := machine.nextId
    let (machine,job,input) :=
      openStream { machine with nextId := pipe + 1 } job (.pipeInput pipe)
    let (machine,job,output) := machine.openStream job (.pipeOutput pipe)
    some (machine,job,.pair input output)
  | .read descriptor limit =>
    match machine.streamOf? job descriptor with
    | some (id,stream) => machine.readStream job id stream limit
    | none => some (machine,job,.refused .badDescriptor)
  | .write descriptor piece =>
    match machine.streamOf? job descriptor with
    | some (id,stream) => machine.writeStream job id stream piece
    | none => some (machine,job,.refused .badDescriptor)
  | .info p follow =>
    some (machine,job,match tree.find here follow p with
      | .ok (place,number,node) => .node place number node
      | .error cause => .refused cause)
  | .opened descriptor =>
    some (machine,job,match machine.streamOf? job descriptor with
      | some (_,.node number _ _) =>
        match tree.node? number with
        | some node => .node [] number node
        | none => .refused .notFound
      | some _ => .done
      | none => .refused .badDescriptor)
  | .list p =>
    some (machine,job,match tree.find here true p with
      | .ok (place,_,.directory _) => .names (tree.namesIn place)
      | .ok _ => .refused .notDirectory
      | .error cause => .refused cause)
  | .makeDirectory p mode =>
    some (machine.change job (tree.makeDirectory here p (masked mode job.mask)))
  | .removeDirectory p => some (machine.change job (tree.removeDirectory here p))
  | .unlink p => some (machine.change job (tree.unlink here p))
  | .rename source target => some (machine.change job (tree.rename here source target))
  | .link source target => some (machine.change job (tree.link here source target))
  | .symlink target p => some (machine.change job (tree.create here p (.link target)))
  | .create p node => some (machine.change job (tree.create here p node))
  | .setMode p mode => some (machine.change job (tree.setMode here p mode))
  | .resize p size =>
    some (machine.change job (tree.modifyFile here p fun block =>
      overwrite (block.extract 0 size) size ByteArray.empty))
  | .setMask mask => some (machine,{ job with mask },.number job.mask)
  | .mask => some (machine,job,.number job.mask)
  | .changeDirectory p =>
    some (match tree.find here true p with
      | .ok (place,_,.directory _) => (machine,{ job with workingDirectory := place },.done)
      | .ok _ => (machine,job,.refused .notDirectory)
      | .error cause => (machine,job,.refused cause))
  | .workingDirectory => some (machine,job,.place here)
  | .processNumber => some (machine,job,.number job.number)
  | .wait number isInterruptible => machine.waitFor job number isInterruptible
  | .kill number signal => some (machine.kill job number signal)
  | .handle signal handling =>
    some (machine,
      { job with handlings := (signal,handling) :: job.handlings.filter (·.1 ≠ signal) },.done)
  | .takeSignals =>
    some (machine,{ job with pending := [] },.signals job.pending)

/-- The nanoseconds that a call takes, and those that each byte takes that is read or written. -/
def callTime : Nat := 2000
def byteTime : Nat := 10

/-- The nanoseconds until a program goes on after a call with its reply. -/
def duration : Call → Reply → Nat
  | .pause nanoseconds,_ => nanoseconds
  | .write _ block,_ => callTime + byteTime * block.size
  | _,.block b => callTime + byteTime * b.size
  | _,_ => callTime

/-- The nanoseconds until a program goes on that has started another one, and until that one
starts. -/
def forkTime : Nat := 100000
def childTime : Nat := 300000

/-- Starts a program with what another one has open. -/
def startJob (machine : Machine) (job : Job) (child : Process) : Machine × Nat :=
  let number := machine.nextId
  let started : Job :=
    { job with
      number, parent := job.number, process := child,
      readyAt := machine.clock + childTime, pending := [] }
  ({ machine with jobs := machine.jobs ++ [started], nextId := number + 1 },number)

/-- The number that stands for the one who uses the machine, and for the one who takes over
programs whose parents have ended. -/
def user : Nat := 0
def keeper : Nat := 1

/-- Ends a program. Its parent may ask how it ended. -/
def finishJob (machine : Machine) (job : Job) (status : ExitStatus) : Machine :=
  let isAsked := job.parent = user || (machine.job? job.parent).isSome
  { machine with
    jobs := (machine.jobs.filter (·.number ≠ job.number)).map fun other =>
      if other.parent = job.number then { other with parent := keeper } else other
    ended := machine.ended.filter (·.2.1 ≠ job.number) ++
      if isAsked then [(job.number,job.parent,status)] else [] }

/-- The next step of a program, if it need not wait. -/
def advance (machine : Machine) (job : Job) : Option Machine :=
  let now := max machine.clock job.readyAt
  let machine := { machine with clock := now }
  match job.doom,job.process with
  | some signal,_ => some (machine.finishJob job (.signaled signal))
  | none,.finish status =>
    if job.isStopped then none else some (machine.finishJob job status)
  | none,.fork child next =>
    if job.isStopped then none
    else
      let (machine,number) := machine.startJob job child
      some (machine.putJob { job with process := next number, readyAt := now + forkTime })
  | none,.call c next =>
    if job.isStopped then none
    else (machine.perform job c).map fun (machine,job,reply) =>
      machine.putJob
        { job with
          process := next reply
          readyAt := if job.doom.isSome then now else now + duration c reply }

/-- The programs in the order of their times. -/
def byTime (machine : Machine) : List Job :=
  machine.jobs.mergeSort fun a b => a.readyAt ≤ b.readyAt

/-- The next step of the machine, if any program can take one. -/
def step (machine : Machine) : Option Machine := machine.byTime.findSome? machine.advance

/-- Ends a program that takes too long. -/
def expire (machine : Machine) (number deadline : Nat) : Machine :=
  let machine := { machine with clock := max machine.clock deadline }
  match machine.job? number with
  | some job => machine.putJob (job.receive machine.clock 9)
  | none => machine

/-- Lets the machine run until a program has ended. It is ended when its deadline comes, but not the
ones it has started. -/
def runUntilEnd (number : Nat) (deadline : Option Nat) : (fuel : Nat) → Machine → Machine
  | 0,machine => machine
  | fuel + 1,machine =>
    let runs := (machine.job? number).any (·.doom.isNone)
    if (machine.job? number).isNone then machine
    else
      match machine.step,deadline,runs with
      | some after,some time,true =>
        if time ≤ after.clock then runUntilEnd number deadline fuel (machine.expire number time)
        else runUntilEnd number deadline fuel after
      | some after,_,_ => runUntilEnd number deadline fuel after
      | none,some time,true => runUntilEnd number deadline fuel (machine.expire number time)
      | none,_,_ => machine

/-- May a program add to the output that is kept? -/
def isKeptOpen (machine : Machine) : Bool :=
  machine.isOpen fun
    | .kept _ => true
    | _ => false

/-- Lets the machine run, up to a time, until nothing may add to the output that is kept. -/
def runWhileKept (until_ : Option Nat) : (fuel : Nat) → Machine → Machine
  | 0,machine => machine
  | fuel + 1,machine =>
    if !machine.isKeptOpen then machine
    else match machine.step with
      | some after =>
        if until_.any (· < after.clock) then machine else runWhileKept until_ fuel after
      | none => machine

/-- More steps than programs that end take. -/
def maxSteps : Nat := 3000000

/-- The time it takes to start a program. -/
def startTime : Nat := 1000000

/-- The time it takes to notice the end of a program. -/
def noticeTime : Nat := 500000

/-- Runs a program with standard input. The limit counts from the start. -/
def run (machine : Machine) (program : Process) (stdin : ByteArray) (streams : Streams)
    (limit : Option Nat) : Finished × Machine :=
  let deadline := limit.map (machine.clock + ·)
  let number := machine.nextId
  let start : Machine := { machine with clock := machine.clock + startTime, nextId := number + 2 }
  let first : Job :=
    { number, parent := user, process := program,
      readyAt := start.clock, workingDirectory := machine.workingDirectory }
  let start := (start.setPipe (number + 1) stdin)
  let (start,first,_) := start.openStream first (.pipeInput (number + 1))
  let (start,first,_) := start.openStream first (.kept .out)
  let (start,first,_) := start.openStream first (.kept .err)
  let after := runUntilEnd number deadline maxSteps { start with jobs := start.jobs ++ [first] }
  let after := runWhileKept
    (match streams with
      | .captured => none
      | .shared => some (after.clock + noticeTime)) maxSteps after
  let status := match after.ended.find? (·.1 = number) with
    | some (_,_,status) => status
    | none => .signaled 9
  let finished : Finished :=
    { status, isOverdue := deadline.any (· ≤ after.clock), output := after.kept.reverse }
  (finished,{ after with kept := [], ended := after.ended.filter (·.1 ≠ number) })

/-- What programs that were left behind write until none has the output open. -/
def lateOutput (machine : Machine) : List (Channel × ByteArray) × Machine :=
  let after := machine.runWhileKept none maxSteps
  (after.kept.reverse,{ after with kept := [] })

end Machine
end TeenyTiny.Model
