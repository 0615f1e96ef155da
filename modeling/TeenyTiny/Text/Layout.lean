import TeenyTiny.Text.Utf8

/-! Decimal numbers, columns and lines. -/
namespace TeenyTiny.Text

def decimal : Int → Bytes
  | .ofNat n => encode (Nat.toDigits 10 n)
  | .negSucc n => encode ('-' :: Nat.toDigits 10 (n + 1))

theorem decimal_eq (n : Int) : decimal n = ofString (toString n) := by
  cases n with
  | ofNat n =>
    change _ = encode (Nat.repr n).toList
    rw [Nat.repr,String.toList_ofList]
    rfl
  | negSucc n =>
    change _ = encode ("-" ++ Nat.repr (n + 1)).toList
    rw [String.toList_append,Nat.repr,String.toList_ofList,String.toList_ofList]
    rfl

/-- Fills a text up with spaces to a width that is counted in glyphs. Longer text is not cut. -/
def padTo (width : Nat) (b : Bytes) : Bytes :=
  b ++ List.replicate (width - (glyphs b).length) 32

/-- The parts of a list between the separators; `n` separators make `n + 1` parts. -/
def splitOn {α : Type} [DecidableEq α] (sep : α) (l : List α) : List (List α) :=
  l.foldr (fun a parts =>
    if a = sep then [] :: parts
    else match parts with
      | [] => [[a]]
      | part :: rest => (a :: part) :: rest) [[]]

/-- The text, ended by a line feed if it does not end in one already. -/
def endLine (b : Bytes) : Bytes := if b.getLast? = some 10 then b else b ++ [10]

end TeenyTiny.Text
