import TeenyTiny.Text.Blank
import TeenyTiny.Text.Layout

/-! Source texts: what is read before the first token, and their lines. -/
namespace TeenyTiny
open Text

/-- A byte order mark at the start is dropped, and the last line is ended if the text is not
empty. -/
def preprocess (src : Bytes) : Bytes :=
  let body := match src with
    | 0xEF :: 0xBB :: 0xBF :: rest => rest
    | _ => src
  if body = [] then [] else endLine body

/-- The line behind so many line feeds, if there are so many. -/
def lineAfter? : (feeds : Nat) → List Char → Option (List Char)
  | 0,source => some (source.takeWhile (· ≠ '\n'))
  | feeds + 1,source =>
    match source.dropWhile (· ≠ '\n') with
    | [] => none
    | _ :: rest => lineAfter? feeds rest

/-- The text of a 1-based line without the blanks around it, empty if there is no such line. -/
def sourceLine (source : List Char) (line : Int) : Bytes :=
  if line < 1 then []
  else match lineAfter? (line.toNat - 1) source with
    | some cs => encode (trimChars cs)
    | none => []

end TeenyTiny
