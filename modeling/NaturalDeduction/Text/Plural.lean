/-!
# Counting in words
-/

namespace NaturalDeduction.Text

/-- A number and what it counts, whose plural takes an `s`. -/
def count (n : Nat) (noun : String) : String :=
  toString n ++ " " ++ noun ++ if n = 1 then "" else "s"

end NaturalDeduction.Text
