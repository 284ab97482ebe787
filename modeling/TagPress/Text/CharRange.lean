/-!
# Ranges of code points

Character properties are given as ascending lists of closed code point ranges. `inRanges` stops at
the first range that starts above the code point, so a look-up of a small code point is short.
-/

namespace TagPress.Text

/-- Whether `n` lies in one of the ranges of an ascending list. -/
def inRanges (n : Nat) : List (Nat × Nat) → Bool
  | [] => false
  | (lo, hi) :: rest => if n < lo then false else if n ≤ hi then true else inRanges n rest

end TagPress.Text
