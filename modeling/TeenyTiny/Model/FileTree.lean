import TeenyTiny.Host

/-! A file system. Names lead to nodes by number, so that a node may have several names, and a node
may be a link, whose path is walked in its place. -/
namespace TeenyTiny.Model
open Text

/-- Files that keep nothing. A descriptor stands for what is open there. -/
inductive Device where
  | null | zero | full
  | descriptor (n : Nat)
  deriving DecidableEq, Repr

inductive Node where
  | directory (mode : Nat)
  | file (mode : Nat) (block : ByteArray)
  | link (target : Path)
  /-- A program that the machine comes with. -/
  | utility (name : Bytes)
  | device (d : Device)

namespace Node

def isDirectory : Node → Bool
  | directory _ => true
  | _ => false

def mode : Node → Nat
  | directory mode => mode
  | file mode _ => mode
  | link _ => 0o777
  | utility _ => 0o755
  | device _ => 0o666

def setMode (mode : Nat) : Node → Node
  | directory _ => directory mode
  | file _ block => file mode block
  | node => node

def info (node : Node) : FileInfo := ⟨node.isDirectory,node.mode⟩

end Node

/-- The names on the way from the root. -/
abbrev Place := List Bytes

structure FileTree where
  names : List (Place × Nat) := []
  nodes : List (Nat × Node) := []
  /-- The number of the next new node. -/
  next : Nat := 1

namespace FileTree

/-- The number of the node at a place. The root has the number 0. -/
def numberAt? (t : FileTree) (place : Place) : Option Nat :=
  if place = [] then some 0 else (t.names.find? (·.1 = place)).map (·.2)

/-- The node with a number. The root is always a directory. -/
def node? (t : FileTree) (number : Nat) : Option Node :=
  if number = 0 then some (.directory 0o755)
  else (t.nodes.find? (·.1 = number)).map (·.2)

/-- What is at a place. -/
def get? (t : FileTree) (place : Place) : Option Node := (t.numberAt? place).bind t.node?

/-- Is nothing but a directory there? -/
def isDirectoryAt (t : FileTree) (place : Place) : Bool := (t.get? place).any Node.isDirectory

def setNode (t : FileTree) (number : Nat) (node : Node) : FileTree :=
  { t with nodes := (number,node) :: t.nodes.filter (·.1 ≠ number) }

/-- Takes a name away. Other names of its node stay. -/
def erase (t : FileTree) (place : Place) : FileTree :=
  { t with names := t.names.filter (·.1 ≠ place) }

/-- Lets a name lead to a node. -/
def tie (t : FileTree) (place : Place) (number : Nat) : FileTree :=
  { t with names := (place,number) :: (t.erase place).names }

/-- Puts a new node at a place. -/
def insert (t : FileTree) (place : Place) (node : Node) : FileTree :=
  { t.tie place t.next with nodes := (t.next,node) :: t.nodes, next := t.next + 1 }

/-- Takes away a name and everything below it. -/
def eraseBelow (t : FileTree) (place : Place) : FileTree :=
  { t with names := t.names.filter fun entry => !place.isPrefixOf entry.1 }

/-- The names in a directory, in the order of their bytes. -/
def namesIn (t : FileTree) (place : Place) : List Bytes :=
  (t.names.filterMap fun (other,_) =>
    if other.dropLast = place then other.getLast? else none).mergeSort fun a b => !decide (b < a)

/-- The longest name, and one more than the longest path. -/
def maxName : Nat := 255
def maxPath : Nat := 4096

/-- How many links a walk may follow. -/
def maxLinks : Nat := 40

/-- A walk along the parts of a path. Everything on the way exists; the last place need not. A link
at the end is followed only if `follow` says so. -/
def walk (t : FileTree) (follow : Bool) :
    (fuel links : Nat) → Place → List Bytes → Except Errno Place
  | 0,_,_,_ => .error .loop
  | _ + 1,_,place,[] => .ok place
  | fuel + 1,links,place,part :: rest =>
    match t.get? place with
    | none => .error .notFound
    | some node =>
      if !node.isDirectory then .error .notDirectory
      else if part = [Path.dot] then t.walk follow fuel links place rest
      else if part = [Path.dot,Path.dot] then t.walk follow fuel links place.dropLast rest
      else if part.length > maxName then .error .nameTooLong
      else
        match t.get? (place ++ [part]) with
        | some (.link target) =>
          if rest.isEmpty && !follow then .ok (place ++ [part])
          else if links = 0 then .error .loop
          else t.walk follow fuel (links - 1) (if target.isAbsolute then [] else place)
            (Path.parts target ++ rest)
        | _ => t.walk follow fuel links (place ++ [part]) rest

def hasTrailingSlash (p : Path) : Bool := p.getLast? = some Path.slash

/-- The place that a path names. -/
def locate (t : FileTree) (workingDirectory : Place) (follow : Bool) (p : Path) :
    Except Errno Place :=
  if p.contains 0 then .error .invalidArgument
  else if p = [] then .error .notFound
  else if p.length ≥ maxPath then .error .nameTooLong
  else t.walk (follow || hasTrailingSlash p) ((maxLinks + 1) * maxPath) maxLinks
    (if p.isAbsolute then [] else workingDirectory) (Path.parts p)

/-- What a path names, and where. A path that ends in a slash names directories only. -/
def find (t : FileTree) (workingDirectory : Place) (follow : Bool) (p : Path) :
    Except Errno (Place × Nat × Node) := do
  let place ← t.locate workingDirectory follow p
  match t.numberAt? place,t.get? place with
  | some number,some node =>
    if hasTrailingSlash p && !node.isDirectory then throw .notDirectory
    return (place,number,node)
  | _,_ => throw .notFound

/-- The place that a path names, at which nothing may be. -/
def locateFree (t : FileTree) (workingDirectory : Place) (p : Path) : Except Errno Place := do
  let place ← t.locate workingDirectory false p
  if (t.get? place).isSome then throw .exists_
  return place

def makeDirectory (t : FileTree) (workingDirectory : Place) (p : Path) (mode : Nat) :
    Except Errno FileTree := do
  return t.insert (← t.locateFree workingDirectory p) (.directory mode)

/-- Puts a file or a link where nothing was. -/
def create (t : FileTree) (workingDirectory : Place) (p : Path) (node : Node) :
    Except Errno FileTree := do
  if hasTrailingSlash p then throw .isDirectory
  return t.insert (← t.locateFree workingDirectory p) node

/-- Gives a node, which is no directory, one more name. -/
def link (t : FileTree) (workingDirectory : Place) (source target : Path) :
    Except Errno FileTree := do
  let (_,number,node) ← t.find workingDirectory false source
  let place ← t.locateFree workingDirectory target
  if node.isDirectory then throw .notPermitted
  return t.tie place number

/-- Changes a file that exists. -/
def modifyFile (t : FileTree) (workingDirectory : Place) (p : Path)
    (change : ByteArray → ByteArray) : Except Errno FileTree := do
  match ← t.find workingDirectory true p with
  | (_,number,.file mode block) => return t.setNode number (.file mode (change block))
  | (_,_,.directory _) => throw .isDirectory
  | _ => throw .permissionDenied

def setMode (t : FileTree) (workingDirectory : Place) (p : Path) (mode : Nat) :
    Except Errno FileTree := do
  let (_,number,node) ← t.find workingDirectory true p
  return if number = 0 then t else t.setNode number (node.setMode mode)

def unlink (t : FileTree) (workingDirectory : Place) (p : Path) : Except Errno FileTree := do
  let (place,_,node) ← t.find workingDirectory false p
  if node.isDirectory then throw .isDirectory
  return t.erase place

def removeDirectory (t : FileTree) (workingDirectory : Place) (p : Path) :
    Except Errno FileTree := do
  let (place,_,node) ← t.find workingDirectory false p
  let own ← t.find workingDirectory false (p.reverse.dropWhile (· = Path.slash)).reverse
  if !node.isDirectory || !own.2.2.isDirectory then throw .notDirectory
  if t.namesIn place ≠ [] then throw .notEmpty
  return t.erase place

/-- Moves what is at a place, with everything below it. -/
def move (t : FileTree) (source target : Place) : FileTree :=
  { t with names := (t.erase target).names.map fun (place,number) =>
      (if source.isPrefixOf place then target ++ place.drop source.length else place,number) }

/-- Gives something a new name. A file that has the name already is replaced, and so is a directory
by a directory if it is empty. -/
def rename (t : FileTree) (workingDirectory : Place) (source target : Path) :
    Except Errno FileTree := do
  let (sourcePlace,number,node) ← t.find workingDirectory false source
  let targetPlace ← t.locate workingDirectory false target
  if node.isDirectory && sourcePlace ≠ targetPlace && sourcePlace.isPrefixOf targetPlace then
    throw .invalidArgument
  if hasTrailingSlash target && !node.isDirectory then throw .notDirectory
  match t.numberAt? targetPlace,t.get? targetPlace with
  | some other,some old =>
    if other = number then return t
    if node.isDirectory && !old.isDirectory then throw .notDirectory
    if !node.isDirectory && old.isDirectory then throw .isDirectory
    if old.isDirectory && t.namesIn targetPlace ≠ [] then throw .notEmpty
    return t.move sourcePlace targetPlace
  | _,_ => return t.move sourcePlace targetPlace

/-- Makes the directories above a place that are missing. -/
def withParents (t : FileTree) (place : Place) : FileTree :=
  ((List.range place.length).map place.take).foldl (fun t above =>
    if (t.get? above).isSome then t else t.insert above (.directory 0o755)) t

/-- Everything below a directory with its path from there, in the order of the bytes of the
paths. -/
def below (t : FileTree) (place : Place) : List (Bytes × Node) :=
  let found := t.names.filterMap fun (other,number) =>
    if place.isPrefixOf other && place ≠ other then
      (t.node? number).map ([Path.slash].intercalate (other.drop place.length),·)
    else none
  found.mergeSort fun a b => !decide (b.1 < a.1)

end FileTree
end TeenyTiny.Model
