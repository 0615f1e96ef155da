import TeenyTiny.Text.Layout

/-! Paths with slashes, taken apart and simplified by their text alone. -/
namespace TeenyTiny
open Text

/-- A path as it was given. -/
abbrev Path := Bytes

namespace Path

def slash : UInt8 := 47

def dot : UInt8 := 46

def isAbsolute (p : Path) : Bool := p.head? = some slash

/-- The parts between the slashes, without empty ones. -/
def parts (p : Path) : List Bytes := (splitOn slash p).filter (· ≠ [])

/-- Adds a part to a simplified path, whose last part comes first. Above the root is the root. -/
def push (rooted : Bool) (above : List Bytes) (part : Bytes) : List Bytes :=
  if part = [dot] then above
  else if part = [dot,dot] then
    match above with
    | [] => if rooted then [] else [part]
    | last :: rest => if last = part then part :: above else rest
  else part :: above

/-- The shortest path with the same meaning, as far as the text shows it: no empty parts, no `.`
parts, no `..` behind a name. -/
def clean (p : Path) : Path :=
  let kept := ((parts p).foldl (push p.isAbsolute) []).reverse
  let joined := [slash].intercalate kept
  if p.isAbsolute then slash :: joined
  else if kept = [] then [dot]
  else joined

/-- The last part; `.` for the empty path and `/` for a path of slashes. -/
def base (p : Path) : Bytes :=
  if p = [] then [dot]
  else match (p.reverse.dropWhile (· = slash)).takeWhile (· ≠ slash) with
    | [] => [slash]
    | last => last.reverse

/-- The end of the text from its last dot on, if that is behind the last slash. -/
def extension (p : Path) : Bytes :=
  let last := p.reverse.takeWhile (· ≠ slash)
  if last.contains dot then dot :: (last.takeWhile (· ≠ dot)).reverse else []

def dropExtension (p : Path) : Path := p.take (p.length - (extension p).length)

/-- The text up to the last slash, simplified. -/
def directory (p : Path) : Path := clean (p.reverse.dropWhile (· ≠ slash)).reverse

/-- A name inside a directory. -/
def child (directory : Path) (name : Bytes) : Path :=
  if directory.getLast? = some slash then directory ++ name else directory ++ slash :: name

/-- The same path from the root, seen from a working directory. -/
def absolute (workingDirectory p : Path) : Path :=
  if p.isAbsolute then clean p else clean (workingDirectory ++ slash :: p)

/-- The path above, as text; empty if there is none. -/
def parent (p : Path) : Path :=
  (((p.reverse.dropWhile (· = slash)).dropWhile (· ≠ slash)).drop 1).reverse

end Path
end TeenyTiny
