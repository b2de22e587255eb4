namespace Listing.Text

/-!
# Sets of characters by code point ranges

* `inRanges` — membership of a character in a list of closed code point ranges.
-/

/-- Whether the code point of `c` lies in one of the closed ranges. -/
def inRanges (ranges : List (Nat × Nat)) (c : Char) : Bool :=
  ranges.any fun range => decide (range.1 ≤ c.toNat ∧ c.toNat ≤ range.2)

end Listing.Text
