/-!
# Floating-point numbers of 64 bits

A finite number is a sign, a significand below 2^53 and a power of two. The operations
take exact quotients of naturals to the nearest such number. A half goes to the even neighbour.
-/

set_option autoImplicit false

namespace DataClasses.Number

def roundDiv (num den : Nat) : Nat :=
  let low := num / den
  let rest := num % den
  if 2 * rest < den then low
  else if den < 2 * rest then low + 1
  else if low % 2 == 0 then low else low + 1

def scale (base : Nat) (num den : Nat) (power : Int) : Nat × Nat :=
  if 0 ≤ power then (num * base.pow power.toNat, den) else (num, den * base.pow (-power).toNat)

/-- The exponent of the greatest power of `base` that is at most `num / den`, found from
a guess that is at most one too high. -/
def floorLog (base num den : Nat) (guess : Int) : Int :=
  let (n, d) := scale base num den (-guess)
  if d ≤ n then guess else guess - 1

end DataClasses.Number

namespace DataClasses

structure Binary64 where
  negative : Bool
  significand : Nat
  exponent : Int
  deriving DecidableEq, Repr

namespace Binary64

open Number

def zero : Binary64 := ⟨false, 0, 0⟩

def isZero (x : Binary64) : Bool := x.significand == 0

def ratio (x : Binary64) : Nat × Nat := scale 2 x.significand 1 x.exponent

def lastBit (num den : Nat) : Int :=
  max (floorLog 2 num den ((num.log2 : Int) - den.log2) - 52) (-1074)

/-- The number nearest to a quotient, or none when it is past the greatest. -/
def nearest? (num den : Nat) : Option Binary64 :=
  if num == 0 then some zero
  else
    let q := lastBit num den
    let (n, d) := scale 2 num den (-q)
    let m := roundDiv n d
    let (m, q) := if m == 1 <<< 53 then (1 <<< 52, q + 1) else (m, q)
    if 971 < q then none else some ⟨false, m, q⟩

def mul? (x y : Binary64) : Option Binary64 :=
  let (a, b) := x.ratio
  let (c, d) := y.ratio
  nearest? (a * c) (b * d)

def div? (x y : Binary64) : Option Binary64 :=
  let (a, b) := x.ratio
  let (c, d) := y.ratio
  nearest? (a * d) (b * c)

def powerOfTen (k : Nat) : Binary64 := (nearest? (Nat.pow 10 k) 1).getD zero

/-- Division by a power of ten, in steps of at most 308 places. -/
def shiftDown (x : Binary64) (places : Nat) : Option Binary64 :=
  if places ≤ 308 then x.div? (powerOfTen places)
  else if x.isZero then some x
  else (x.div? (powerOfTen 308)).bind fun y => shiftDown y (places - 308)
termination_by places

def shiftUp (x : Binary64) (places : Nat) : Option Binary64 :=
  if places ≤ 308 then x.mul? (powerOfTen places)
  else if x.isZero then some x
  else none

/-- The number read for `significand · 10^exponent`. The significand is rounded first
and then the product with, or the quotient by, the rounded power of ten, so the result
can be one unit off the nearest. None when it is past the greatest number. -/
def ofDecimal? (negative : Bool) (significand : Nat) (exponent : Int) : Option Binary64 :=
  (nearest? significand 1).bind fun x =>
    (if 0 ≤ exponent then x.shiftUp exponent.toNat else x.shiftDown (-exponent).toNat).map
      fun y => { y with negative }

end Binary64
end DataClasses
