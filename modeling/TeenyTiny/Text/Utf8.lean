/-! Byte strings, the characters they spell, and the way back. A byte that belongs to no valid
sequence stands for itself among the glyphs and for U+FFFD among the characters. -/
namespace TeenyTiny

/-- A text as it is stored: bytes, which need not spell characters. -/
abbrev Bytes := List UInt8

namespace Text

/-- One unit of a text: a character, or a byte that is part of none. -/
inductive Glyph where
  | char (c : Char)
  | stray (b : UInt8)
  deriving DecidableEq, Repr

/-- The character that the text begins with, if its first bytes spell one. Below 0x80 a byte is a
character of its own. -/
def headChar? : Bytes → Option Char
  | [] => none
  | b :: rest =>
    if b < 0x80 then some (Char.ofUInt8 b)
    else (b :: rest.take 3).toByteArray.utf8DecodeChar? 0

/-- The glyphs after the first `skip` bytes, put after `found`, which is in reverse order. -/
def glyphsAfter : (skip : Nat) → (found : List Glyph) → Bytes → List Glyph
  | _,found,[] => found.reverse
  | skip + 1,found,_ :: rest => glyphsAfter skip found rest
  | 0,found,b :: rest =>
    match headChar? (b :: rest) with
    | some c => glyphsAfter (c.utf8Size - 1) (.char c :: found) rest
    | none => glyphsAfter 0 (.stray b :: found) rest

def glyphs (b : Bytes) : List Glyph := glyphsAfter 0 [] b

/-- The character that stands for bytes which spell none. -/
def replacement : Char := Char.ofNat 0xFFFD

def Glyph.toChar : Glyph → Char
  | .char c => c
  | .stray _ => replacement

def Glyph.bytes : Glyph → Bytes
  | .char c => String.utf8EncodeChar c
  | .stray b => [b]

/-- The characters of a text; each stray byte gives one U+FFFD. -/
def decode (b : Bytes) : List Char := (glyphs b).map Glyph.toChar

/-- The UTF-8 bytes of a list of characters. -/
def encode (cs : List Char) : Bytes := cs.flatMap String.utf8EncodeChar

@[simp] theorem encode_nil : encode [] = [] := rfl

@[simp] theorem encode_cons (c : Char) (cs : List Char) :
    encode (c :: cs) = String.utf8EncodeChar c ++ encode cs := rfl

@[simp] theorem encode_append (cs ds : List Char) :
    encode (cs ++ ds) = encode cs ++ encode ds := by simp [encode]

/-- The bytes of a text that is written out in the program. -/
def ofString (s : String) : Bytes := encode s.toList

instance : Coe String Bytes := ⟨ofString⟩

end Text
end TeenyTiny
