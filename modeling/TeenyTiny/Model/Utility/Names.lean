import TeenyTiny.Model.Utility.Lines

/-! Utilities that tell about names, places and the machine. -/
namespace TeenyTiny.Model.Utility
open Text

def basename (arguments : List Bytes) : Task Nat := do
  match arguments with
  | [] => misuse "basename" "missing operand"
  | [p] =>
    say (Path.base p ++ [10])
    return 0
  | [p,ending] =>
    let name := Path.base p
    let cut := if ending.isSuffixOf name && ending ≠ name then
        name.take (name.length - ending.length) else name
    say (cut ++ [10])
    return 0
  | _ :: _ :: extra :: _ => misuse "basename" ("extra operand " ++ quoted extra)

/-- The text in front of the last part of a path. -/
def aboveText (p : Path) : Path :=
  let above := ((p.reverse.dropWhile (· = Path.slash)).dropWhile (· ≠ Path.slash)).dropWhile
    (· = Path.slash)
  if above ≠ [] then above.reverse else if p.isAbsolute then [Path.slash] else [Path.dot]

def dirname (arguments : List Bytes) : Task Nat := do
  if arguments = [] then return ← misuse "dirname" "missing operand"
  say (arguments.flatMap fun p => aboveText p ++ [10])
  return 0

def pwd : Task Nat := do
  say ((← Task.workingPath) ++ [10])
  return 0

def placePath (place : Place) : Path := Path.slash :: [Path.slash].intercalate place

/-- The path from the root without links. Only the last part may be missing. -/
def canonical (p : Path) : Task (Except Errno Path) := do
  match ← Task.find p with
  | .ok (place,_,_) => return .ok (placePath place)
  | .error .notFound =>
    match ← Task.find (aboveText p) with
    | .ok (place,_,node) =>
      if node.isDirectory then return .ok (placePath (place ++ [Path.base p]))
      return .error .notDirectory
    | .error cause => return .error cause
  | .error cause => return .error cause

def readlink (arguments : List Bytes) : Task Nat :=
  withOptions "readlink" { plain := ['f','e','m','n'] } arguments fun o => do
    if o.operands = [] then return ← misuse "readlink" "missing operand"
    let ending : Bytes := if o.has 'n' then [] else [10]
    forOperands o.operands fun p => do
      if o.has 'f' || o.has 'm' || o.has 'e' then
        match ← canonical p with
        | .ok full =>
          if o.has 'e' && (← Task.node? p).isNone then return 1
          say (full ++ ending)
          return 0
        | .error _ => return 1
      else match ← Task.node? p false with
        | some (.link target) =>
          say (target ++ ending)
          return 0
        | _ => return 1

def realpath (arguments : List Bytes) : Task Nat :=
  withOptions "realpath" { plain := ['e','m','s'] } arguments fun o => do
    if o.operands = [] then return ← misuse "realpath" "missing operand"
    forOperands o.operands fun p => do
      match ← canonical p with
      | .ok full =>
        say (full ++ [10])
        return 0
      | .error cause => fail "realpath" (plainWording p cause)

/-- The names in a directory that are shown. -/
def shownNames (o : Options) (names : List Bytes) : List Bytes :=
  if o.has 'a' then [Path.dot] :: [Path.dot,Path.dot] :: names
  else if o.has 'A' then names
  else names.filter (·.head? ≠ some Path.dot)

def ls (arguments : List Bytes) : Task Nat :=
  let table : OptionTable := { plain := ['1','a','A','d','r','p','F'], status := 2 }
  withOptions "ls" table arguments fun o => do
    let operands := if o.operands = [] then [[Path.dot]] else o.operands
    let sorted := operands.mergeSort fun a b => !decide (b < a)
    let found ← sorted.mapM fun p => do return (p,← Task.node? p,← Task.node? p false)
    let mut status := 0
    for (p,node,own) in found do
      if node.isNone && own.isNone then
        status := 2
        complain "ls" ("cannot access " ++ quoted p ++ ": " ++ reason .notFound)
    let isListed (node : Option Node) : Bool := node.any Node.isDirectory && !o.has 'd'
    let ordered (names : List Bytes) : List Bytes := if o.has 'r' then names.reverse else names
    let files := found.filterMap fun (p,node,own) =>
      if (node.isSome || own.isSome) && !isListed node then some p else none
    let directories := found.filterMap fun (p,node,_) => if isListed node then some p else none
    say ((ordered files).flatMap (· ++ [10]))
    for (p,n) in directories.zip (List.range directories.length) do
      if operands.length > 1 then
        let gap : Bytes := if n = 0 && files = [] then [] else [10]
        say (gap ++ p ++ ":\n")
      let names := (← Task.namesIn p).toOption.getD []
      say ((ordered (shownNames o names)).flatMap (· ++ [10]))
    return status

/-- The word for the kind of a node. -/
def kindWord : Node → String
  | .directory _ => "directory"
  | .file _ block => if block.isEmpty then "regular empty file" else "regular file"
  | .link _ => "symbolic link"
  | .utility _ => "regular file"
  | .device _ => "character special file"

def sizeOf : Node → Nat
  | .file _ block => block.size
  | .link target => target.length
  | .directory _ => 4096
  | _ => 0

/-- A format with what it says about a file. -/
def statText (p : Path) (node : Node) : Bytes → Bytes
  | [] => []
  | 37 :: letter :: rest =>
    (match Char.ofUInt8 letter with
      | 'a' => digitsIn 8 node.mode
      | 's' => digitsIn 10 (sizeOf node)
      | 'n' => p
      | 'F' => kindWord node
      | 'u' | 'g' => "0"
      | 'U' | 'G' => "root"
      | '%' => "%"
      | _ => "?") ++ statText p node rest
  | b :: rest => b :: statText p node rest

def stat (arguments : List Bytes) : Task Nat :=
  withOptions "stat" { plain := ['L'], valued := ['c'], long := [("format",'c')] } arguments
    fun o => do
      if o.operands = [] then return ← misuse "stat" "missing operand"
      forOperands o.operands fun p => do
        match ← Task.find p (o.has 'L') with
        | .error cause => fail "stat" ("cannot statx " ++ quoted p ++ ": " ++ reason cause)
        | .ok (_,_,node) =>
          say (statText p node ((o.value? 'c').getD "%n") ++ [10])
          return 0

end TeenyTiny.Model.Utility
