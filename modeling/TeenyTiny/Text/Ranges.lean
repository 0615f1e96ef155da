/-! Character classes given as tables of code point ranges. -/
namespace TeenyTiny.Text

/-- A table of inclusive ranges of code points, in increasing order. -/
abbrev Ranges := List (Nat × Nat)

/-- Membership in an increasing table; the search stops at the first range that begins later. -/
def Ranges.contains : Ranges → Nat → Bool
  | [],_ => false
  | (lo,hi) :: rest,n => if n < lo then false else n ≤ hi || Ranges.contains rest n

end TeenyTiny.Text
