import DataClasses.Json.Cursor
import DataClasses.Json.Value

/-!
# Numbers in JSON text

The parts of a number as it is written, and the value they denote: an integer where one
of 64 bits, signed or unsigned, holds it, and a floating-point number otherwise.
-/

set_option autoImplicit false

namespace DataClasses.Json

open Reader

structure Numeral where
  negative : Bool
  whole : List Char
  fraction : List Char
  power : Option (Bool × List Char)
  deriving Repr

/-- Appends digits to a number as long as the result stays within `limit`, and counts
the digits that were appended. -/
def gather (limit : Nat) : Nat → List Char → Nat × Nat
  | n, [] => (n, 0)
  | n, c :: cs =>
    let m := Nat.ofDigitChars 10 [c] n
    if limit < m then (n, 0)
    else
      let (k, count) := gather limit m cs
      (k, count + 1)

def wordLimit : Nat := 0xffffffffffffffff
def powerLimit : Nat := 0x7fffffff

namespace Numeral

def isWhole (n : Numeral) : Bool := n.fraction.isEmpty && n.power.isNone

/-- The leading digits that fit 64 bits and the power of ten they are multiplied by,
the written exponent apart. -/
def significand (n : Numeral) : Nat × Int :=
  let (head, taken) := gather wordLimit 0 n.whole
  let (all, more) := gather wordLimit head n.fraction
  (all, (n.whole.length - taken : Nat) - (more : Int))

/-- The floating-point value, or how many written characters stand behind the place at
which the number is known to be too large. -/
def float (n : Numeral) : Except Nat Binary64 :=
  let (s, e) := n.significand
  let read (e : Int) : Except Nat Binary64 :=
    match Binary64.ofDecimal? n.negative s e with
    | some x => .ok x
    | none => .error 0
  match n.power with
  | none => read e
  | some (down, digits) =>
    let (p, taken) := gather powerLimit 0 digits
    if taken < digits.length then
      if s != 0 && !down then .error (digits.length - taken - 1)
      else .ok { Binary64.zero with negative := n.negative }
    else read (if down then e - p else e + p)

def value (n : Numeral) : Except Nat Json :=
  let (s, taken) := gather wordLimit 0 n.whole
  if n.isWhole && taken == n.whole.length then
    if !n.negative then .ok (.integer s)
    else if 0 < s && s ≤ 0x8000000000000000 then .ok (.integer (-(s : Int)))
    else n.float.map .float
  else n.float.map .float

end Numeral

/-- Digits, at least one. `atEnd` is the fault where the text ends instead. -/
def someDigits (atEnd : Cause) : Reader (List Char) := do
  let digits ← takeWhile Char.isDigit
  if digits.isEmpty then
    match ← peek? with
    | none => failNext atEnd
    | some _ => failNext .invalidNumber
  else pure digits

def wholeDigits (atEnd : Cause) : Reader (List Char) := do
  match ← peek? with
  | some '0' =>
    skip
    match ← peek? with
    | some c => if c.isDigit then failNext .invalidNumber else pure ['0']
    | none => pure ['0']
  | _ => someDigits atEnd

def fractionDigits (atEnd : Cause) : Reader (List Char) := do
  match ← peek? with
  | some '.' =>
    skip
    someDigits atEnd
  | _ => pure []

def powerDigits (atEnd : Cause) : Reader (Option (Bool × List Char)) := do
  match ← peek? with
  | some c =>
    if c == 'e' || c == 'E' then
      skip
      let sign ← peek?
      if sign == some '+' || sign == some '-' then skip
      let digits ← someDigits atEnd
      pure (some (sign == some '-', digits))
    else pure none
  | none => pure none

def numeral (atEnd : Cause) : Reader Numeral := do
  let negative := (← peek?) == some '-'
  if negative then skip
  let whole ← wholeDigits atEnd
  let fraction ← fractionDigits atEnd
  let power ← powerDigits atEnd
  pure ⟨negative, whole, fraction, power⟩

def number : Reader Json := do
  let n ← numeral .endInValue
  match n.value with
  | .ok v => pure v
  | .error behind => fun s => .error ⟨.numberOutOfRange, s.line, s.column - behind⟩

end DataClasses.Json
