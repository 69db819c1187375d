/-!
# Decimal digits
-/

namespace RestGateway.Digits

/-- The number that decimal digits stand for. -/
def value (digits : List Char) : Nat := digits.foldl (fun n c => n * 10 + (c.toNat - 48)) 0

end RestGateway.Digits
