import TeenyTiny.Model.Utility.Basic

/-! Printing arguments, as they are or by a format. -/
namespace TeenyTiny.Model.Utility
open Text

def octalDigit? (b : UInt8) : Option Nat := if 48 ≤ b && b ≤ 55 then some (b.toNat - 48) else none

/-- The value of at most so many octal digits, and what follows them. -/
def readOctal : (digits : Nat) → (value : Nat) → Bytes → Nat × Bytes
  | digits + 1,value,b :: rest =>
    match octalDigit? b with
    | some digit => readOctal digits (value * 8 + digit) rest
    | none => (value,b :: rest)
  | _,value,rest => (value,rest)

/-- The byte that a backslash and the next byte stand for. -/
def escape? (b : UInt8) : Option UInt8 :=
  match Char.ofUInt8 b with
  | 'a' => some 7
  | 'b' => some 8
  | 't' => some 9
  | 'n' => some 10
  | 'v' => some 11
  | 'f' => some 12
  | 'r' => some 13
  | 'e' => some 27
  | '\\' => some 92
  | _ => none

/-- What stands behind a backslash in a format: the byte it is, and what follows. A backslash that
means nothing stands for itself. -/
def readEscape (rest : Bytes) : UInt8 × Bytes :=
  match rest with
  | [] => (92,[])
  | c :: after =>
    match escape? c,octalDigit? c with
    | some byte,_ => (byte,after)
    | none,some _ =>
      let (value,after) := readOctal 3 0 rest
      (UInt8.ofNat value,after)
    | none,none => (92,rest)

/-- A text with its escapes replaced, in which `\0` begins an octal number and `\c` ends
everything; with whether it was ended so. -/
def unescape : (fuel : Nat) → Bytes → Bytes × Bool
  | 0,_ => ([],false)
  | _,[] => ([],false)
  | fuel + 1,b :: rest =>
    if b ≠ 92 then
      let (text,isEnded) := unescape fuel rest
      (b :: text,isEnded)
    else match rest with
      | 99 :: _ => ([],true)
      | 48 :: digits =>
        let (value,after) := readOctal 3 0 digits
        let (text,isEnded) := unescape fuel after
        (UInt8.ofNat value :: text,isEnded)
      | _ =>
        let (byte,after) := readEscape rest
        let (text,isEnded) := unescape fuel after
        (byte :: text,isEnded)

/-- The arguments in one line. A first argument `-n` leaves out the line feed. -/
def echoText (hasEscapes : Bool) (arguments : List Bytes) : Bytes :=
  let (isPlain,words) := match arguments with
    | first :: rest => if first = ofString "-n" then (true,rest) else (false,arguments)
    | [] => (false,[])
  let text := [32].intercalate words
  let (text,isEnded) := if hasEscapes then unescape (text.length + 1) text else (text,false)
  if isPlain || isEnded then text else text ++ [10]

/-- The `echo` of scripts, which replaces escapes. -/
def echo (arguments : List Bytes) : Task Nat := do
  say (echoText true arguments)
  return 0

/-- The `echo` that is a program of its own; it replaces escapes if it is told to. -/
def echoProgram : List Bytes → Task Nat
  | first :: rest => do
    match decode first with
    | ['-','e'] => say (echoText true rest)
    | ['-','n','e'] | ['-','e','n'] => say (echoText true (ofString "-n" :: rest))
    | ['-','E'] => say (echoText false rest)
    | _ => say (echoText false (first :: rest))
    return 0
  | [] => do
    say (echoText false [])
    return 0

/-- A directive of a format: flags, width, precision and the letter that says what is printed. -/
structure Directive where
  /-- The directive as it is written. -/
  text : Bytes
  flags : Bytes := []
  width : Nat := 0
  precision : Option Nat := none
  letter : UInt8

/-- A text in a field; a dash puts it to the left. -/
def Directive.pad (d : Directive) (text : Bytes) : Bytes :=
  let gap := List.replicate (d.width - text.length) 32
  if d.flags.contains 45 then text ++ gap else gap ++ text

/-- Digits of a number in a field, which zeros may fill. -/
def Directive.padNumber (d : Directive) (sign digits : Bytes) : Bytes :=
  let digits := List.replicate (d.precision.getD 1 - digits.length) 48 ++ digits
  if d.flags.contains 48 && !d.flags.contains 45 && d.precision.isNone then
    sign ++ List.replicate (d.width - sign.length - digits.length) 48 ++ digits
  else d.pad (sign ++ digits)

/-- How much of an argument is a number. -/
inductive Numeric where
  | whole | start | nothing
  deriving DecidableEq, Repr

/-- The value of an argument that should be a number, and how much of it is one. A quote in front
gives the number of a character. -/
def numericArgument (argument : Bytes) : Int × Numeric :=
  let (sign,digits) : Int × List Char := match argument.map Char.ofUInt8 with
    | '-' :: rest => (-1,rest)
    | '+' :: rest => (1,rest)
    | cs => (1,cs)
  let isHex (c : Char) : Bool := c.isDigit || ('a' ≤ c && c ≤ 'f') || ('A' ≤ c && c ≤ 'F')
  let value (c : Char) : Nat :=
    if c.isDigit then c.toNat - 48 else if c.isUpper then c.toNat - 55 else c.toNat - 87
  let inBase (base : Nat) (isDigit : Char → Bool) (digits : List Char) : Int × Numeric :=
    let found := digits.takeWhile isDigit
    (sign * found.foldl (fun n c => n * base + value c) 0,
      if found = [] then .nothing else if found.length = digits.length then .whole else .start)
  match digits with
  | [] => (0,if argument = [] then .whole else .nothing)
  | '\'' :: c :: _ | '"' :: c :: _ => (sign * c.toNat,.whole)
  | '0' :: 'x' :: more | '0' :: 'X' :: more => inBase 16 isHex more
  | '0' :: _ => inBase 8 (fun c => '0' ≤ c && c ≤ '7') digits
  | _ => inBase 10 Char.isDigit digits

def digitsIn (base : Nat) (n : Nat) : Bytes := encode (Nat.toDigits base n)

/-- A run of a format: what is printed, the arguments that are left, complaints, and whether
everything is to end. -/
structure Formatted where
  text : Bytes := []
  rest : List Bytes
  faults : List Bytes := []
  isEnded : Bool := false

/-- Prints one directive. -/
def Formatted.add (f : Formatted) (d : Directive) : Formatted :=
  let argument := f.rest.headD []
  let used := { f with rest := f.rest.drop 1 }
  let print (text : Bytes) : Formatted := { used with text := f.text ++ text }
  let number (render : Int → Bytes) : Formatted :=
    let (n,extent) := numericArgument argument
    let faults := match extent with
      | .whole => []
      | .start => [argument ++ ": not completely converted"]
      | .nothing => [argument ++ ": expected numeric value"]
    { used with text := f.text ++ render n, faults := f.faults ++ faults }
  let sign (n : Int) : Bytes :=
    if n < 0 then [45] else if d.flags.contains 43 then [43]
    else if d.flags.contains 32 then [32] else []
  let unsigned (n : Int) : Nat := (n % 18446744073709551616).toNat
  match Char.ofUInt8 d.letter with
  | 's' => print (d.pad (match d.precision with
      | some n => argument.take n
      | none => argument))
  | 'c' => print (d.pad (argument.take 1))
  | 'b' =>
    let (text,isEnded) := unescape (argument.length + 1) argument
    { print (d.pad text) with isEnded }
  | 'd' | 'i' => number fun n => d.padNumber (sign n) (digitsIn 10 n.natAbs)
  | 'u' => number fun n => d.padNumber [] (digitsIn 10 (unsigned n))
  | 'o' => number fun n =>
    d.padNumber (if d.flags.contains 35 then "0" else []) (digitsIn 8 (unsigned n))
  | 'x' => number fun n =>
    d.padNumber (if d.flags.contains 35 then "0x" else []) (digitsIn 16 (unsigned n))
  | 'X' => number fun n =>
    d.padNumber (if d.flags.contains 35 then "0X" else [])
      ((digitsIn 16 (unsigned n)).map fun b => if 97 ≤ b then b - 32 else b)
  | _ => { f with faults := f.faults ++ [d.text ++ ": invalid directive"], isEnded := true }

/-- A number in a directive: digits, or a star, which takes an argument. -/
def readWidth (f : Formatted) (rest : Bytes) : Nat × Bytes × Formatted :=
  match rest with
  | 42 :: after =>
    ((numericArgument (f.rest.headD [])).1.toNat,after,{ f with rest := f.rest.drop 1 })
  | _ => (digitsValue (rest.takeWhile isDigit),rest.dropWhile isDigit,f)

/-- One pass over a format. -/
def formatOnce : (fuel : Nat) → Bytes → Formatted → Formatted
  | 0,_,f => f
  | _,[],f => f
  | fuel + 1,b :: rest,f =>
    if f.isEnded then f
    else if b = 92 then
      let (byte,after) := readEscape rest
      formatOnce fuel after { f with text := f.text ++ [byte] }
    else if b ≠ 37 then formatOnce fuel rest { f with text := f.text ++ [b] }
    else match rest with
      | 37 :: after => formatOnce fuel after { f with text := f.text ++ [37] }
      | _ =>
        let isFlag (b : UInt8) : Bool := [35,45,43,32,48].contains b
        let flags := rest.takeWhile isFlag
        let (width,after,f) := readWidth f (rest.dropWhile isFlag)
        let (precision,after,f) := match after with
          | 46 :: after =>
            let (n,after,f) := readWidth f after
            (some n,after,f)
          | _ => (none,after,f)
        match after with
        | [] =>
          { f with faults := f.faults ++ [ofString "missing format character"], isEnded := true }
        | letter :: after =>
          let text := 37 :: rest.take (rest.length - after.length)
          formatOnce fuel after (f.add { text, flags, width, precision, letter })

/-- The format as often as it takes to use up the arguments. -/
def formatAll (format : Bytes) : (fuel : Nat) → Formatted → Formatted
  | 0,f => f
  | fuel + 1,f =>
    let after := formatOnce (format.length + 1) format f
    if after.rest ≠ [] && after.rest.length < f.rest.length && !after.isEnded then
      formatAll format fuel after
    else after

/-- Prints by a format; complaints go through `warn`. -/
def printf (warn : Bytes → Task Unit) (arguments : List Bytes) : Task Nat := do
  let arguments := if arguments.head? = some (ofString "--") then arguments.drop 1 else arguments
  match arguments with
  | [] =>
    warn "usage: printf format [arg ...]"
    return 2
  | format :: rest =>
    let f := formatAll format (rest.length + 1) { rest }
    say f.text
    for fault in f.faults do warn fault
    return if f.faults = [] then 0 else if f.isEnded then 2 else 1

end TeenyTiny.Model.Utility
