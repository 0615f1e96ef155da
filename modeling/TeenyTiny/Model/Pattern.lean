import TeenyTiny.Model.Script

/-! Patterns for names and texts: `*`, `?` and sets between brackets. -/
namespace TeenyTiny.Model
open Text

/-- A text with marks on the bytes that stand for themselves because they are quoted. -/
abbrev Marked := List (UInt8 × Bool)

namespace Marked

def bytes (m : Marked) : Bytes := m.map (·.1)

def ofBytes (isQuoted : Bool) (b : Bytes) : Marked := b.map (·,isQuoted)

end Marked

namespace Pattern

inductive Piece where
  | byte (b : UInt8)
  | any
  | many
  | oneOf (isNegated : Bool) (ranges : List (UInt8 × UInt8))
  deriving DecidableEq, Repr

/-- The named sets. -/
def classes : List (String × List (UInt8 × UInt8)) :=
  [("alpha",[(65,90),(97,122)]),("digit",[(48,57)]),("upper",[(65,90)]),("lower",[(97,122)]),
   ("alnum",[(48,57),(65,90),(97,122)]),("space",[(9,13),(32,32)]),("blank",[(9,9),(32,32)]),
   ("punct",[(33,47),(58,64),(91,96),(123,126)]),("xdigit",[(48,57),(65,70),(97,102)]),
   ("cntrl",[(0,31),(127,127)]),("print",[(32,126)]),("graph",[(33,126)])]

/-- The named set that a text begins with, behind its opening bracket, and what follows. -/
def readClass? (m : Marked) : Option (List (UInt8 × UInt8) × Marked) :=
  match m with
  | (58,false) :: rest =>
    let name := Marked.bytes (rest.takeWhile (·.1 ≠ 58))
    match rest.drop name.length,classes.find? (ofString ·.1 = name) with
    | (58,_) :: (93,_) :: after,some (_,ranges) => some (ranges,after)
    | _,_ => none
  | _ => none

/-- The ranges up to the closing bracket. A bracket that comes first stands for itself. -/
def readRanges : (fuel : Nat) → (isFirst : Bool) → Marked → Option (List (UInt8 × UInt8) × Marked)
  | 0,_,_ => none
  | _,_,[] => none
  | fuel + 1,isFirst,(b,isQuoted) :: rest =>
    if b = 93 && !isQuoted && !isFirst then some ([],rest)
    else
      let (ranges,after) : List (UInt8 × UInt8) × Marked :=
        match (if b = 91 && !isQuoted then readClass? rest else none) with
        | some found => found
        | none =>
          match rest with
          | (45,false) :: (c,d) :: after =>
            if c = 93 && !d then ([(b,b)],rest) else ([(b,c)],after)
          | _ => ([(b,b)],rest)
      (readRanges fuel false after).map fun (more,after) => (ranges ++ more,after)

/-- The set behind an opening bracket, and what follows. -/
def readSet? (m : Marked) : Option (Piece × Marked) :=
  let (isNegated,inner) := match m with
    | (b,false) :: rest => if b = 33 || b = 94 then (true,rest) else (false,m)
    | _ => (false,m)
  (readRanges (inner.length + 1) true inner).map fun (ranges,after) =>
    (.oneOf isNegated ranges,after)

def parseAfter : (fuel : Nat) → Marked → List Piece
  | 0,_ => []
  | _,[] => []
  | fuel + 1,(b,isQuoted) :: rest =>
    if isQuoted then .byte b :: parseAfter fuel rest
    else if b = 42 then .many :: parseAfter fuel rest
    else if b = 63 then .any :: parseAfter fuel rest
    else if b = 91 then
      match readSet? rest with
      | some (piece,after) => piece :: parseAfter fuel after
      | none => .byte b :: parseAfter fuel rest
    else .byte b :: parseAfter fuel rest

def parse (m : Marked) : List Piece := parseAfter (m.length + 1) m

def Piece.accepts (b : UInt8) : Piece → Bool
  | byte c => b = c
  | any => true
  | many => true
  | oneOf isNegated ranges => (ranges.any fun (low,high) => low ≤ b && b ≤ high) != isNegated

/-- Does the pattern describe the whole text? -/
def accepts : List Piece → Bytes → Bool
  | [],text => text.isEmpty
  | .many :: pieces,[] => accepts pieces []
  | .many :: pieces,b :: text => accepts pieces (b :: text) || accepts (.many :: pieces) text
  | _ :: _,[] => false
  | piece :: pieces,b :: text => piece.accepts b && accepts pieces text
termination_by pieces text => pieces.length + text.length

/-- Does the text have a sign that makes it a pattern? -/
def isPattern (m : Marked) : Bool :=
  m.any fun (b,isQuoted) => !isQuoted && (b = 42 || b = 63 || b = 91)

/-- The text without the part at its end that the pattern describes, the shortest such part or the
longest one. -/
def dropEnd (isLongest : Bool) (pieces : List Piece) (text : Bytes) : Bytes :=
  let starts := List.range (text.length + 1)
  let starts := if isLongest then starts else starts.reverse
  match starts.find? fun n => accepts pieces (text.drop n) with
  | some n => text.take n
  | none => text

/-- The text without the part at its start that the pattern describes. -/
def dropStart (isLongest : Bool) (pieces : List Piece) (text : Bytes) : Bytes :=
  let ends := List.range (text.length + 1)
  let ends := if isLongest then ends.reverse else ends
  match ends.find? fun n => accepts pieces (text.take n) with
  | some n => text.drop n
  | none => text

end Pattern
end TeenyTiny.Model
