import TeenyTiny.Text.Layout
import TeenyTiny.Text.Quoted

/-! Durations in nanoseconds: their text, such as `1h30m0s` or `1.5ms`, and the way back. -/
namespace TeenyTiny
open Text

/-- A span of time in nanoseconds. -/
abbrev Duration := Int

namespace Duration

def microsecond : Nat := 1000
def millisecond : Nat := 1000 * microsecond
def second : Nat := 1000 * millisecond
def minute : Nat := 60 * second
def hour : Nat := 60 * minute

/-- How many units `n` is, with a decimal point where it is needed and no zeros at the end. The unit
is a power of ten. -/
def decimalIn (unit n : Nat) : List Char :=
  let whole := Nat.toDigits 10 (n / unit)
  let fraction := Nat.toDigits 10 (unit + n % unit)
  match (fraction.drop 1).reverse.dropWhile (· = '0') with
  | [] => whole
  | kept => whole ++ '.' :: kept.reverse

/-- The text of a span that is not negative. -/
def chars (n : Nat) : List Char :=
  if n = 0 then ['0','s']
  else if n < microsecond then Nat.toDigits 10 n ++ ['n','s']
  else if n < millisecond then decimalIn microsecond n ++ [Char.ofNat 0xb5,'s']
  else if n < second then decimalIn millisecond n ++ ['m','s']
  else
    let seconds := decimalIn second (n % minute) ++ ['s']
    if n < minute then seconds
    else
      let minutes := Nat.toDigits 10 (n / minute % 60) ++ 'm' :: seconds
      if n < hour then minutes else Nat.toDigits 10 (n / hour) ++ 'h' :: minutes

def text : Duration → Bytes
  | .ofNat n => encode (chars n)
  | .negSucc n => encode ('-' :: chars (n + 1))

/-- Why a text is no duration. -/
inductive ParseError where
  | invalid (text : Bytes)
  | missingUnit (text : Bytes)
  | unknownUnit (unit text : Bytes)
  deriving DecidableEq, Repr

/-- Double quotes around a text in which every byte outside of printable ASCII is an escape. -/
def quotedAscii (b : Bytes) : Bytes :=
  "\"" ++ b.flatMap (fun byte =>
    if byte < 0x20 || 0x80 ≤ byte then encode ('\\' :: 'x' :: hexDigits 2 byte.toNat)
    else if byte = 34 || byte = 92 then [92,byte]
    else [byte]) ++ "\""

def ParseError.message : ParseError → Bytes
  | invalid text => "time: invalid duration " ++ quotedAscii text
  | missingUnit text => "time: missing unit in duration " ++ quotedAscii text
  | unknownUnit unit text =>
    "time: unknown unit " ++ quotedAscii unit ++ " in duration " ++ quotedAscii text

def isDigit (b : UInt8) : Bool := 48 ≤ b && b ≤ 57

def digitValue (b : UInt8) : Nat := b.toNat - 48

/-- One more than the longest span. A span of this length is allowed below zero. -/
def bound : Nat := 0x8000000000000000

/-- The value of digits, unless it goes over the bound. -/
def wholeValue? (digits : Bytes) : Option Nat :=
  let value := digits.foldl (fun n b => n * 10 + digitValue b) 0
  if value ≤ bound then some value else none

/-- The digits after a point as a numerator and a power of ten, which is rounded with every digit;
digits that would make the numerator too large are passed over. -/
def fractionValue (digits : Bytes) : Nat × Float :=
  let (numerator,denominator,_) := digits.foldl (fun (n,d,full) b =>
    if full || n > (bound - 1) / 10 || n * 10 + digitValue b > bound then (n,d,true)
    else (n * 10 + digitValue b,d * 10,false)) (0,(1 : Float),false)
  (numerator,denominator)

def unitValue? (unit : Bytes) : Option Nat :=
  ([("ns",1),("us",microsecond),("µs",microsecond),("μs",microsecond),
    ("ms",millisecond),("s",second),("m",minute),("h",hour)].find?
      fun entry => ofString entry.1 = unit).map (·.2)

/-- The part of a unit that a fraction is, rounded as binary floating point numbers are. -/
def fractionOf (unit numerator : Nat) (denominator : Float) : Nat :=
  (numerator.toUInt64.toFloat * (unit.toUInt64.toFloat / denominator)).toUInt64.toNat

/-- Sums are taken modulo this number. Of two parts of `bound` each, nothing is left. -/
def modulus : Nat := 0x10000000000000000

/-- Adds up numbers with units; each round reads at least one byte. -/
def parseParts (text : Bytes) : (fuel : Nat) → (sum : Nat) → Bytes → Except ParseError Nat
  | _,sum,[] => .ok sum
  | 0,sum,_ => .ok sum
  | fuel + 1,sum,b => do
    let whole := b.takeWhile isDigit
    let (fraction,rest) := match b.dropWhile isDigit with
      | 46 :: rest => (rest.takeWhile isDigit,rest.dropWhile isDigit)
      | rest => ([],rest)
    let some value := wholeValue? whole | throw (.invalid text)
    if whole = [] && fraction = [] then throw (.invalid text)
    let unit := rest.takeWhile fun c => !(isDigit c || c = 46)
    if unit = [] then throw (.missingUnit text)
    let some scale := unitValue? unit | throw (.unknownUnit unit text)
    if value > bound / scale then throw (.invalid text)
    let (numerator,denominator) := fractionValue fraction
    let total := value * scale +
      (if numerator = 0 then 0 else fractionOf scale numerator denominator)
    let sum := (sum + total) % modulus
    if total > bound || sum > bound then throw (.invalid text)
    parseParts text fuel sum (rest.drop unit.length)

/-- Reads a duration: a sign, then decimal numbers with units, or just `0`. -/
def parse (text : Bytes) : Except ParseError Duration := do
  let (negative,rest) := match text with
    | 45 :: rest => (true,rest)
    | 43 :: rest => (false,rest)
    | _ => (false,text)
  if rest = [48] then return 0
  if rest = [] then throw (.invalid text)
  let sum ← parseParts text rest.length 0 rest
  if negative then return -sum
  if sum ≥ bound then throw (.invalid text)
  return sum

end Duration
end TeenyTiny
