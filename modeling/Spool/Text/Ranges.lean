namespace Spool.Text

-- Whether one of the inclusive ranges holds the number.
def inRanges (ranges : List (Nat × Nat)) (n : Nat) : Bool :=
  ranges.any fun range => range.1 ≤ n && n ≤ range.2

end Spool.Text
