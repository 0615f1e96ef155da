import TeenyTiny.Text.Ranges
import TeenyTiny.Text.Utf8

/-! Blank characters and the text between the blanks at both ends. -/
namespace TeenyTiny.Text

def blankRanges : Ranges :=
  [(0x9,0xd),(0x20,0x20),(0x85,0x85),(0xa0,0xa0),(0x1680,0x1680),(0x2000,0x200a),
   (0x2028,0x2029),(0x202f,0x202f),(0x205f,0x205f),(0x3000,0x3000)]

def isBlank (c : Char) : Bool := blankRanges.contains c.toNat

def Glyph.isBlank : Glyph → Bool
  | .char c => Text.isBlank c
  | .stray _ => false

/-- A list without the elements at both ends that satisfy `p`. -/
def trimBoth {α : Type} (p : α → Bool) (l : List α) : List α :=
  ((l.dropWhile p).reverse.dropWhile p).reverse

/-- Characters without the blanks at both ends. -/
def trimChars (cs : List Char) : List Char := trimBoth isBlank cs

/-- A text without the blanks at both ends; stray bytes are no blanks. -/
def trim (b : Bytes) : Bytes := (trimBoth Glyph.isBlank (glyphs b)).flatMap Glyph.bytes

end TeenyTiny.Text
