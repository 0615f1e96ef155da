import TeenyTiny.Text.Utf8
import TeenyTiny.Text.Printable

/-! Quoted text: printable characters stand for themselves, everything else is written as an
escape, so that a quoted text is one line of valid UTF-8 whatever it quotes. -/
namespace TeenyTiny.Text

def hexDigit (n : Nat) : Char := if n < 10 then Char.ofNat (48 + n) else Char.ofNat (87 + n)

/-- The last `width` hexadecimal digits of `n`. -/
def hexDigits : (width : Nat) → Nat → List Char
  | 0,_ => []
  | width + 1,n => hexDigits width (n / 16) ++ [hexDigit (n % 16)]

/-- The letter after the backslash, for the characters that have an escape of their own. -/
def shortEscape? (c : Char) : Option Char :=
  match c.toNat with
  | 7 => some 'a'
  | 8 => some 'b'
  | 9 => some 't'
  | 10 => some 'n'
  | 11 => some 'v'
  | 12 => some 'f'
  | 13 => some 'r'
  | _ => none

/-- A character inside quotes; the delimiter and the backslash are escaped. -/
def quoteChar (delimiter c : Char) : List Char :=
  if c = delimiter ∨ c = '\\' then ['\\',c]
  else if isPrintable c then [c]
  else match shortEscape? c with
    | some letter => ['\\',letter]
    | none =>
      if c.toNat < 0x20 ∨ c.toNat = 0x7f then '\\' :: 'x' :: hexDigits 2 c.toNat
      else if c.toNat < 0x10000 then '\\' :: 'u' :: hexDigits 4 c.toNat
      else '\\' :: 'U' :: hexDigits 8 c.toNat

def quoteGlyph (delimiter : Char) : Glyph → List Char
  | .char c => quoteChar delimiter c
  | .stray b => '\\' :: 'x' :: hexDigits 2 b.toNat

/-- A text in double quotes. -/
def quoted (b : Bytes) : Bytes :=
  encode ('"' :: (glyphs b).flatMap (quoteGlyph '"') ++ ['"'])

/-- A character in single quotes. -/
def quotedChar (c : Char) : Bytes :=
  encode ('\'' :: quoteChar '\'' c ++ ['\''])

end TeenyTiny.Text
