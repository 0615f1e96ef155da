import TeenyTiny.Model.Pattern

/-! Regular expressions in their two spellings, the basic and the extended one, and the search for
them in a line. -/
namespace TeenyTiny.Model
open Text

inductive Regex where
  | byte (b : UInt8)
  | any
  | oneOf (isNegated : Bool) (ranges : List (UInt8 × UInt8))
  | lineStart
  | lineEnd
  | alternatives (first second : List Regex)
  | repeated (r : Regex) (least : Nat) (most : Option Nat)
  | group (number : Nat) (inner : List Regex)
  | sameAs (number : Nat)
  /-- The end of a group that began at a position. -/
  | groupEnd (number start : Nat)
  /-- Something must have been found since a position. -/
  | progress (start : Nat)

namespace Regex

/-- The positions of the groups, the last ones first. -/
abbrev Groups := List (Nat × Nat × Nat)

/-- Tries to find what the list says from a position on; the result is the end. -/
def matchFrom (text : ByteArray) :
    (fuel : Nat) → List Regex → (position : Nat) → Groups → Option (Nat × Groups)
  | 0,_,_,_ => none
  | _,[],position,groups => some (position,groups)
  | fuel + 1,r :: rest,position,groups =>
    let next (test : UInt8 → Bool) : Option (Nat × Groups) :=
      if h : position < text.size then
        if test text[position] then matchFrom text fuel rest (position + 1) groups else none
      else none
    match r with
    | byte b => next (· = b)
    | any => next fun _ => true
    | oneOf isNegated ranges =>
      next fun b => (ranges.any fun (low,high) => low ≤ b && b ≤ high) != isNegated
    | lineStart => if position = 0 then matchFrom text fuel rest position groups else none
    | lineEnd => if position = text.size then matchFrom text fuel rest position groups else none
    | alternatives first second =>
      match matchFrom text fuel (first ++ rest) position groups with
      | some found => some found
      | none => matchFrom text fuel (second ++ rest) position groups
    | repeated inner least most =>
      let fewer := repeated inner (least - 1) (most.map (· - 1))
      if most = some 0 then matchFrom text fuel rest position groups
      else if least > 0 then matchFrom text fuel (inner :: fewer :: rest) position groups
      else
        match matchFrom text fuel (inner :: progress position :: fewer :: rest) position groups with
        | some found => some found
        | none => matchFrom text fuel rest position groups
    | group number inner =>
      matchFrom text fuel (inner ++ groupEnd number position :: rest) position groups
    | groupEnd number start =>
      matchFrom text fuel rest position ((number,start,position) :: groups)
    | progress start => if position = start then none else matchFrom text fuel rest position groups
    | sameAs number =>
      match groups.find? (·.1 = number) with
      | none => none
      | some (_,first,last) =>
        let size := last - first
        if text.extract position (position + size) = text.extract first last then
          matchFrom text fuel rest (position + size) groups
        else none

/-- More steps than a line takes. -/
def maxMatch : Nat := 100000

/-- The first place from a position on where the expression is found: its start, its end and its
groups. -/
def search (r : List Regex) (text : ByteArray) (start : Nat) : Option (Nat × Nat × Groups) :=
  (List.range (text.size + 1 - start)).findSome? fun n =>
    (matchFrom text maxMatch r (start + n) []).map fun (stop,groups) => (start + n,stop,groups)

/-! Reading. An operator is written with a backslash in the basic spelling and without one in the
extended spelling. -/

/-- One sign of a written expression. -/
inductive Sign where
  | byte (b : UInt8)
  /-- A byte that is an operator in the spelling at hand. -/
  | operator (b : UInt8)
  | set (isNegated : Bool) (ranges : List (UInt8 × UInt8))
  deriving DecidableEq, Repr

/-- Operators that change sides between the spellings: `( ) { } + ? |`. -/
def isSwitched (b : UInt8) : Bool := [40,41,123,125,43,63,124].contains b

/-- Operators of both spellings: `. * ^ $`. -/
def isCommon (b : UInt8) : Bool := [46,42,94,36].contains b

def signsAfter (isExtended : Bool) : (fuel : Nat) → Bytes → List Sign
  | 0,_ => []
  | _,[] => []
  | fuel + 1,b :: rest =>
    if b = 92 then
      match rest with
      | [] => [.byte 92]
      | c :: after =>
        if (49 ≤ c && c ≤ 57) || (isSwitched c && !isExtended) then
          .operator c :: signsAfter isExtended fuel after
        else if c = 110 then .byte 10 :: signsAfter isExtended fuel after
        else if c = 116 then .byte 9 :: signsAfter isExtended fuel after
        else .byte c :: signsAfter isExtended fuel after
    else if b = 91 then
      let (isNegated,inner) := match rest with
        | 94 :: inner => (true,inner)
        | _ => (false,rest)
      match Pattern.readRanges (inner.length + 1) true (Marked.ofBytes false inner) with
      | some (ranges,after) => .set isNegated ranges :: signsAfter isExtended fuel after.bytes
      | none => .byte b :: signsAfter isExtended fuel rest
    else if isCommon b || (isSwitched b && isExtended) then
      .operator b :: signsAfter isExtended fuel rest
    else .byte b :: signsAfter isExtended fuel rest

abbrev Read := StateM (Nat × List Sign)

/-- A number in a bound. -/
def readBound : Read (Option Nat) := do
  let (count,signs) ← get
  let digits := signs.takeWhile fun
    | .byte b => 48 ≤ b && b ≤ 57
    | _ => false
  set (count,signs.drop digits.length)
  if digits = [] then return none
  return some (digits.foldl (fun n u => match u with
    | .byte b => n * 10 + (b.toNat - 48)
    | _ => n) 0)

/-- Takes the next sign if it is the one asked for. -/
def accept (u : Sign) : Read Bool := do
  match ← get with
  | (count,first :: rest) =>
    if first = u then
      set (count,rest)
      return true
    return false
  | _ => return false

/-- The signs behind an expression that say how often it may come. -/
def readCount : (fuel : Nat) → Regex → Read Regex
  | 0,r => return r
  | fuel + 1,r => do
    if ← accept (.operator 42) then readCount fuel (.repeated r 0 none)
    else if ← accept (.operator 43) then readCount fuel (.repeated r 1 none)
    else if ← accept (.operator 63) then readCount fuel (.repeated r 0 (some 1))
    else if ← accept (.operator 123) then
      let least ← readBound
      let most ← if ← accept (.byte 44) then readBound else pure least
      let _ ← accept (.operator 125)
      readCount fuel (.repeated r (least.getD 0) most)
    else return r

mutual

/-- Expressions side by side, with their alternatives. -/
def readAll : (fuel : Nat) → Read (List Regex)
  | 0 => return []
  | fuel + 1 => do
    let first ← readSequence fuel true
    if ← accept (.operator 124) then return [.alternatives first (← readAll fuel)]
    return first

def readSequence : (fuel : Nat) → (isFirst : Bool) → Read (List Regex)
  | 0,_ => return []
  | fuel + 1,isFirst => do
    let (count,signs) ← get
    match signs with
    | [] => return []
    | u :: rest =>
      if u = .operator 41 || u = .operator 124 then return []
      set (count,rest)
      let isLast := match rest with
        | [] => true
        | v :: _ => v = .operator 41 || v = .operator 124
      let single ← match u with
        | .byte b => pure (.byte b)
        | .set isNegated ranges => pure (.oneOf isNegated ranges)
        | .operator b =>
          if b = 46 then pure .any
          else if b = 94 && isFirst then pure .lineStart
          else if b = 36 && isLast then pure .lineEnd
          else if b = 40 then readGroup fuel
          else if 49 ≤ b && b ≤ 57 then pure (.sameAs (b.toNat - 48))
          else pure (.byte b)
      let r ← match single with
        | .lineStart => pure .lineStart
        | r => readCount fuel r
      return r :: (← readSequence fuel false)

def readGroup : (fuel : Nat) → Read Regex
  | 0 => return .any
  | fuel + 1 => do
    let (count,signs) ← get
    set (count + 1,signs)
    let inner ← readAll fuel
    let _ ← accept (.operator 41)
    return .group (count + 1) inner

end

/-- The expression that a text spells. -/
def parse (isExtended : Bool) (text : Bytes) : List Regex :=
  let signs := signsAfter isExtended (text.length + 1) text
  (readAll (4 * signs.length + 4)).run (0,signs) |>.1

/-- The expression that is a text, sign by sign. -/
def ofText (text : Bytes) : List Regex := text.map .byte

end Regex
end TeenyTiny.Model
