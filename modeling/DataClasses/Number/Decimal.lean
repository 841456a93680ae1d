import DataClasses.Number.Binary64

/-!
# Decimal text of floating-point numbers

Scientific text with a fixed count of places, and the fewest digits that read back,
written in two ways.
-/

set_option autoImplicit false

namespace DataClasses.Binary64

open Number

def digitsOf (n : Nat) : List Char := Nat.toDigits 10 n

def floorLog10 (num den : Nat) : Int :=
  let digits (n : Nat) : Int := (digitsOf n).length
  floorLog 10 num den (digits num - digits den)

/-- The digits and the decimal exponent of a number that is not zero, rounded to
`places` digits behind the first. -/
def roundedDigits (places : Nat) (x : Binary64) : Nat × Int :=
  let (num, den) := x.ratio
  let e := floorLog10 num den
  let (n, d) := scale 10 num den (places - e)
  let m := roundDiv n d
  if m == Nat.pow 10 (places + 1) then (Nat.pow 10 places, e + 1) else (m, e)

def signText (x : Binary64) : String := if x.negative then "-" else ""

/-- One digit, a point, `places` digits and the decimal exponent, as in `1.50e3`. -/
def scientific (places : Nat) (x : Binary64) : String :=
  let (m, e) := if x.isZero then (0, 0) else roundedDigits places x
  let digits := digitsOf m
  let padded := List.replicate (places + 1 - digits.length) '0' ++ digits
  x.signText ++ String.ofList (padded.take 1) ++ "." ++ String.ofList (padded.drop 1) ++
    "e" ++ toString e

/-- Whether `m · 10^e` reads back as the number: it lies between the two points halfway
to the neighbours, or on one of them if the significand is even. -/
def readsBack (x : Binary64) (m : Nat) (e : Int) : Bool :=
  let (n, d) := scale 10 m 1 e
  match nearest? n d with
  | some y => y.significand == x.significand && y.exponent == x.exponent
  | none => false

def withDigits? (x : Binary64) (count : Nat) : Option (Nat × Int) :=
  let (num, den) := x.ratio
  let e := floorLog10 num den - (count - 1 : Nat)
  let (n, d) := scale 10 num den (-e)
  let low := n / d
  let near := roundDiv n d
  let far := if near == low then low + 1 else low
  if x.readsBack near e then some (near, e)
  else if x.readsBack far e then some (far, e)
  else none

def dropZeros : List Char → List Char
  | '0' :: cs => dropZeros cs
  | cs => cs

/-- The fewest digits that read back and the decimal exponent of the last of them. -/
def shortest (x : Binary64) : List Char × Int :=
  if x.isZero then (['0'], 0)
  else
    match (List.range 17).findSome? fun k => x.withDigits? (k + 1) with
    | some (m, e) =>
      let digits := digitsOf m
      let kept := (dropZeros digits.reverse).reverse
      (kept, e + (digits.length - kept.length : Nat))
    | none => (['0'], 0)

def zeros (n : Int) : List Char := List.replicate n.toNat '0'

/-- The shortest text without an exponent; a whole number has `.0` behind it. -/
def positional (x : Binary64) : String :=
  let (digits, e) := x.shortest
  let point := digits.length + e
  let body :=
    if 0 ≤ e then digits ++ zeros e ++ ".0".toList
    else if 0 < point then digits.take point.toNat ++ '.' :: digits.drop point.toNat
    else "0.".toList ++ zeros (-point) ++ digits
  x.signText ++ String.ofList body

/-- The shortest text, positional from 1e-5 to below 1e16 and with an exponent past
these. -/
def shortestText (x : Binary64) : String :=
  let (digits, e) := x.shortest
  let point := digits.length + e
  if -5 < point ∧ point ≤ 16 then x.positional
  else
    let body := match digits with
      | [d] => [d]
      | d :: ds => d :: '.' :: ds
      | [] => []
    x.signText ++ String.ofList body ++ "e" ++ toString (point - 1)

end DataClasses.Binary64
