/-! # Sets of characters as ranges

A property of characters is a list of closed ranges of code points, in
increasing order and disjoint. -/

namespace Reckoner.Unicode

/-- Closed ranges of code points in increasing order. -/
abbrev Ranges := List (Nat × Nat)

namespace Ranges

/-- Looks a code point up, stopping at the first range above it. -/
def containsCode : Ranges → Nat → Bool
  | [], _ => false
  | (low, high) :: rest, code =>
      if code < low then false
      else if code ≤ high then true
      else containsCode rest code

def contains (ranges : Ranges) (c : Char) : Bool :=
  ranges.containsCode c.toNat

theorem containsCode_sound {ranges : Ranges} {code : Nat}
    (found : ranges.containsCode code = true) :
    ∃ range ∈ ranges, range.1 ≤ code ∧ code ≤ range.2 := by
  induction ranges with
  | nil => simp [containsCode] at found
  | cons range rest ih =>
      simp only [containsCode] at found
      split at found
      · simp at found
      · split at found
        · exact ⟨range, by simp, by omega, by omega⟩
        · obtain ⟨other, member, bounds⟩ := ih found
          exact ⟨other, by simp [member], bounds⟩

end Ranges
end Reckoner.Unicode
