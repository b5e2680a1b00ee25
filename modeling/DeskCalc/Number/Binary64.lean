/-
  DeskCalc.Number.Binary64 — a double as a sign and a magnitude.

  The 64 bits of a double are one sign bit over 63 bits of magnitude. Read as a
  natural number the magnitude orders the absolute values: the finite ones come
  first, then infinity, then what is not a number. A finite magnitude stands for a
  whole count of units, the unit being 2^-1074, the least positive double; exact
  questions about doubles are so questions about natural numbers.

  Proved:
  - `units_of_lt`: in the first two binades magnitude and count of units are one number.
  - `isFinite_iff`: a double is finite exactly when its magnitude is below infinity's.
-/

namespace DeskCalc.Number.Binary64

/-- The sign bit, 2^63: below it lie the magnitudes. -/
abbrev signBit : Nat := 0x8000000000000000

/-- A binade, 2^52 magnitudes with one spacing between their values. -/
abbrev binade : Nat := 0x10000000000000

/-- The magnitude of infinity. -/
def infinity : Nat := 2047 * binade

/-- How many units make one. -/
def one : Nat := Nat.pow 2 1074

def magnitude (x : Float) : Nat := x.toBits.toNat % signBit

def isNegative (x : Float) : Bool := decide (signBit ≤ x.toBits.toNat)

def isFinite (x : Float) : Bool := decide (magnitude x < infinity)

def ofMagnitude (negative : Bool) (m : Nat) : Float :=
  Float.ofBits (UInt64.ofNat (if negative then signBit + m else m))

/-- What is not a number. -/
def nan : Float := ofMagnitude false (infinity + binade / 2)

/-- The value of a finite magnitude, in units. In the first two binades doubles are one unit apart;
    then the spacing doubles from one binade to the next. -/
def units (m : Nat) : Nat :=
  if m < 2 * binade then m else (binade + m % binade) * Nat.pow 2 (m / binade - 1)

/-- The whole number a finite double is, its sign left aside. -/
def whole? (x : Float) : Option Nat :=
  if isFinite x ∧ units (magnitude x) % one = 0 then some (units (magnitude x) / one) else none

/-- The whole number from zero on that a double is; both zeros are zero. -/
def natural? (x : Float) : Option Nat := (whole? x).filter fun n => !isNegative x || n == 0

theorem units_of_lt {m : Nat} (h : m < 2 * binade) : units m = m := if_pos h

theorem isFinite_iff (x : Float) : isFinite x = true ↔ magnitude x < infinity := decide_eq_true_iff

end DeskCalc.Number.Binary64
