/-!
# Powers

The powers of two and ten by which numbers are scaled.
-/

namespace Worklog.Decimal

/-- The power of two with an exponent. -/
def twoTo (k : Nat) : Nat := Nat.pow 2 k

/-- The power of ten with an exponent. -/
def tenTo (k : Nat) : Nat := Nat.pow 10 k

end Worklog.Decimal
