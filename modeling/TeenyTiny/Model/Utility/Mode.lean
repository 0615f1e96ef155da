import TeenyTiny.Model.Utility.Print

/-! Modes of files as they are written: octal numbers, or clauses such as `u=rw,go-x`. -/
namespace TeenyTiny.Model.Utility.Mode
open Text

/-- The bits of a class of users: the owner, the group, others, or all. -/
def whoBits : Char → Nat
  | 'u' => 0o4700
  | 'g' => 0o2070
  | 'o' => 0o1007
  | _ => 0o7777

/-- Three bits for each of the classes. -/
def spread (bits : Nat) : Nat := bits * 0o111

def without (mode bits : Nat) : Nat := mode - (mode &&& bits)

/-- The bits that a letter stands for, seen from a mode. -/
def letterBits (isDirectory : Bool) (mode : Nat) : Char → Nat
  | 'r' => spread 4
  | 'w' => spread 2
  | 'x' => spread 1
  | 'X' => if isDirectory || mode &&& 0o111 ≠ 0 then spread 1 else 0
  | 's' => 0o6000
  | 't' => 0o1000
  | 'u' => spread (mode / 64 % 8)
  | 'g' => spread (mode / 8 % 8)
  | _ => spread (mode % 8)

/-- One change: `+`, `-` or `=` with letters. Without classes the mask says what stays out. -/
def apply (mask : Nat) (isDirectory : Bool) (who : List Char) (operator : Char)
    (letters : List Char) (mode : Nat) : Nat :=
  let affected := who.foldl (fun bits c => bits ||| whoBits c) 0
  let named := letters.foldl (fun bits c => bits ||| letterBits isDirectory mode c) 0
  let value := if who = [] then without named mask else named &&& affected
  match operator with
  | '+' => mode ||| value
  | '-' => without mode value
  | _ => (if who = [] then 0 else without mode affected) ||| value

def isOperator (c : Char) : Bool := ['+','-','='].contains c

/-- The changes of a clause behind its classes. -/
def applyAll (mask : Nat) (isDirectory : Bool) (who : List Char) :
    (fuel : Nat) → List Char → Nat → Option Nat
  | 0,_,mode => some mode
  | _,[],mode => some mode
  | fuel + 1,operator :: rest,mode =>
    let letters := rest.takeWhile (!isOperator ·)
    let isKnown := letters.all ['r','w','x','X','s','t','u','g','o'].contains
    if isOperator operator && isKnown then
      applyAll mask isDirectory who fuel (rest.drop letters.length)
        (apply mask isDirectory who operator letters mode)
    else none

def clause (mask : Nat) (isDirectory : Bool) (mode : Nat) (text : Bytes) : Option Nat :=
  let cs := decode text
  let isWho (c : Char) : Bool := ['u','g','o','a'].contains c
  let changes := cs.dropWhile isWho
  if changes = [] then none
  else applyAll mask isDirectory (cs.takeWhile isWho) (changes.length + 1) changes mode

/-- The mode that an argument makes of a mode. -/
def change? (argument : Bytes) (mask : Nat) (isDirectory : Bool) (mode : Nat) : Option Nat :=
  match readOctal argument.length 0 argument with
  | (value,[]) => if argument = [] || value > 0o7777 then none else some value
  | _ => (splitOn 44 argument).foldlM (clause mask isDirectory) mode

end TeenyTiny.Model.Utility.Mode
