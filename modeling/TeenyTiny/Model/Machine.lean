import TeenyTiny.Model.Process

/-! A machine that is modelled: its files, the programs that run on it, what they have open, and
its clock. -/
namespace TeenyTiny.Model
open Text

/-- Something open. Descriptors that mean the same stream share its position. -/
inductive Stream where
  | node (number : Nat) (position : Nat) (how : Access)
  | pipeInput (pipe : Nat)
  | pipeOutput (pipe : Nat)
  /-- Output that is kept for the one who started the program. -/
  | kept (channel : Channel)
  deriving DecidableEq, Repr

/-- A running program. -/
structure Job where
  number : Nat
  parent : Nat
  process : Process
  /-- The time of its next step. -/
  readyAt : Nat := 0
  /-- Descriptors and the numbers of their streams. -/
  descriptors : List (Nat × Nat) := []
  workingDirectory : Place := []
  mask : Nat := 0o022
  handlings : List (Nat × Handling) := []
  /-- Signals to act on. -/
  pending : List Nat := []
  isStopped : Bool := false
  /-- The signal that ends the program. -/
  doom : Option Nat := none

namespace Job

def stream? (job : Job) (descriptor : Nat) : Option Nat :=
  (job.descriptors.find? (·.1 = descriptor)).map (·.2)

def close (job : Job) (descriptor : Nat) : Job :=
  { job with descriptors := job.descriptors.filter (·.1 ≠ descriptor) }

def setStream (job : Job) (descriptor stream : Nat) : Job :=
  { job with descriptors := (descriptor,stream) :: (job.close descriptor).descriptors }

/-- The first descriptor from a number on that is not in use. -/
def freeDescriptor (job : Job) (least : Nat) : Nat :=
  let candidates := (List.range (job.descriptors.length + 1)).map (least + ·)
  (candidates.find? fun n => (job.stream? n).isNone).getD least

def handlingOf (job : Job) (signal : Nat) : Handling :=
  ((job.handlings.find? (·.1 = signal)).map (·.2)).getD .default

/-- Signals that a program passes over unless it asks for them. -/
def isPassedOver (signal : Nat) : Bool := [0,17,18,20,21,22,23,28].contains signal

/-- What a signal does to a program. The signals 9 and 19 cannot be ignored. -/
def receive (job : Job) (now signal : Nat) : Job :=
  let doomed := { job with doom := some signal, readyAt := now }
  if signal = 9 then doomed
  else if signal = 18 then { job with isStopped := false }
  else if signal = 19 then { job with isStopped := true }
  else match job.handlingOf signal with
    | .ignore => job
    | .catch_ => { job with pending := job.pending ++ [signal] }
    | .default => if isPassedOver signal then job else doomed

end Job

/-- A machine. Programs that are not waited for go on as long as the clock does. -/
structure Machine where
  tree : FileTree := {}
  workingDirectory : Place := []
  /-- The values that programs find by name. -/
  environment : List (Bytes × Bytes) := []
  /-- A source of numbers. -/
  nextNumber : Nat := 1000000000
  clock : Nat := 0
  jobs : List Job := []
  /-- Programs that have ended: their numbers, those of their parents, and how they ended. -/
  ended : List (Nat × Nat × ExitStatus) := []
  streams : List (Nat × Stream) := []
  pipes : List (Nat × ByteArray) := []
  /-- The number of the next program, stream or pipe. -/
  nextId : Nat := 100
  /-- The output that is kept, the last piece first. -/
  kept : List (Channel × ByteArray) := []

namespace Machine

def workingPath (machine : Machine) : Path :=
  Path.slash :: [Path.slash].intercalate machine.workingDirectory

def job? (machine : Machine) (number : Nat) : Option Job :=
  machine.jobs.find? (·.number = number)

def putJob (machine : Machine) (job : Job) : Machine :=
  { machine with
    jobs := machine.jobs.map fun other => if other.number = job.number then job else other }

def setStream (machine : Machine) (id : Nat) (stream : Stream) : Machine :=
  { machine with streams := (id,stream) :: machine.streams.filter (·.1 ≠ id) }

/-- What a descriptor of a program leads to, with the number of the stream. -/
def streamOf? (machine : Machine) (job : Job) (descriptor : Nat) : Option (Nat × Stream) :=
  (job.stream? descriptor).bind fun id => machine.streams.find? (·.1 = id)

/-- Opens a stream at the first free descriptor. -/
def openStream (machine : Machine) (job : Job) (stream : Stream) : Machine × Job × Nat :=
  let descriptor := job.freeDescriptor 0
  let id := machine.nextId
  ({ machine.setStream id stream with nextId := id + 1 },job.setStream descriptor id,descriptor)

/-- Has a program open what the test accepts? -/
def isOpen (machine : Machine) (test : Stream → Bool) : Bool :=
  machine.jobs.any fun job => job.descriptors.any fun (descriptor,_) =>
    (machine.streamOf? job descriptor).any fun (_,stream) => test stream

def pipe (machine : Machine) (id : Nat) : ByteArray :=
  ((machine.pipes.find? (·.1 = id)).map (·.2)).getD ByteArray.empty

def setPipe (machine : Machine) (id : Nat) (block : ByteArray) : Machine :=
  { machine with pipes := (id,block) :: machine.pipes.filter (·.1 ≠ id) }

end Machine

/-- Programs of the machine. -/
def utilityNames : List String :=
  ["[","basename","cat","chmod","cmp","cp","cut","dash","dirname","echo","env","expr",
   "false","grep","head","id","kill","link","ln","ls","mkdir","mv","nohup","printenv",
   "printf","pwd","readlink","realpath","rm","rmdir","sed","seq","sh","sleep","sort",
   "stat","sync","tac","tail","tee","test","timeout","touch","tr","true","truncate",
   "uname","uniq","unlink","wc","whoami","xargs","yes"]

/-- The files of a machine that nobody has used yet: the utilities, the devices, and some
directories. -/
def FileTree.standard : FileTree :=
  let directories : List Place :=
    [["bin"],["usr"],["usr","bin"],["dev"],["etc"],["home"],["lib"],["opt"],["root"],
     ["tmp"],["var"]]
  let devices : List (String × Device) :=
    [("null",.null),("zero",.zero),("full",.full),("stdin",.descriptor 0),
     ("stdout",.descriptor 1),("stderr",.descriptor 2)]
  let entries : List (Place × Node) :=
    directories.map (·,.directory 0o755) ++
    devices.map (fun (name,d) => ([ofString "dev",ofString name],.device d)) ++
    [[ofString "usr",ofString "bin"],[ofString "bin"]].flatMap fun directory =>
      utilityNames.map fun name => (directory ++ [ofString name],.utility (ofString name))
  entries.foldl (fun tree (place,node) => tree.insert place node) {}

end TeenyTiny.Model
