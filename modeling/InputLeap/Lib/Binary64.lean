import InputLeap.Lib.Binary32

/-! Rounding to double precision, for numbers that are not beyond the largest double. -/

namespace InputLeap.Lib.Binary64

/-- The exponent of the last of the 53 digits of a double, at least that of the subnormal doubles. -/
def exponent (q : ℚ) : ℤ := max (Int.log 2 |q| - 52) (-1074)

def round (q : ℚ) : ℚ := Binary32.nearest (q / 2 ^ exponent q) * 2 ^ exponent q

end InputLeap.Lib.Binary64
