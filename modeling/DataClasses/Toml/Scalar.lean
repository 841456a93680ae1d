import DataClasses.Number.Decimal
import DataClasses.Timestamp
import DataClasses.Toml.Scan
import DataClasses.Toml.Value

/-!
# Numbers and moments in TOML text

Unquoted values: truth values, integers in four bases, floating-point numbers, and dates and
times. Underscores may stand between digits.
-/

set_option autoImplicit false

namespace DataClasses.Toml

def groups (cs : List Char) : List (List Char) := cs.splitOn '_'

/-- Whether the first or the last character of a group is a digit. A group of a single
character has no last one besides. -/
def beginsWell (p : Char → Bool) (group : List Char) : Bool := group.head?.any p
def endsWell (p : Char → Bool) (group : List Char) : Bool :=
  group.length == 1 || group.getLast?.any p

/-- Groups behind the first: each follows an underscore, and all but the last are followed
by one. -/
def followWell (p : Char → Bool) : List (List Char) → Bool
  | [] => true
  | [group] => beginsWell p group
  | group :: rest => beginsWell p group && endsWell p group && followWell p rest

/-- Whether underscores stand between digits only. -/
def isGrouped (p : Char → Bool) (cs : List Char) : Bool :=
  match groups cs with
  | [] => true
  | [_] => true
  | group :: rest => !group.isEmpty && endsWell p group && followWell p rest

def ungroup (cs : List Char) : List Char := cs.filter (· != '_')

def digitsValue (base : Nat) (cs : List Char) : Nat :=
  cs.foldl (fun n c => base * n + (Text.hexValue? c).getD 0) 0

def splitSign : List Char → Option Bool × List Char
  | '+' :: cs => (some false, cs)
  | '-' :: cs => (some true, cs)
  | cs => (none, cs)

def isPlain (digits : List Char) : Bool := digits.length ≤ 1 || digits.head? != some '0'

/-- The integer that digits stand for, if they are digits and 128 bits hold it. -/
def integerOf (base : Nat) (negative : Bool) (digits : List Char) : Toml :=
  if digits.isEmpty || !digits.all (fun c => (Text.hexValue? c).any (· < base)) then .unreadable
  else
    let n : Int := digitsValue base digits
    let n := if negative then -n else n
    if -(Int.ofNat (1 <<< 127)) ≤ n && n < Int.ofNat (1 <<< 128) then .integer n else .unreadable

def based? (base : Nat) (cs : List Char) : Option Toml :=
  let isDigit (c : Char) : Bool := (Text.hexValue? c).any (· < base)
  if (ungroup cs).all isDigit && (cs.head?.all isDigit) && isGrouped Text.isHexDigit cs then
    some (integerOf base false (ungroup cs))
  else none

/-- A decimal integer. Behind its first underscore it is looked at by those only who need its
value. -/
def decimal? (cs : List Char) : Option Toml :=
  let (sign, body) := splitSign cs
  let tail := body.dropWhile Char.isDigit
  if isPlain body && !body.isEmpty && (tail.isEmpty || tail.head? == some '_') &&
      isGrouped Text.isHexDigit cs then
    some (integerOf 10 (sign == some true) (ungroup body))
  else none

def floatOf (negative : Bool) (whole fraction : List Char) (power : Int) : Toml :=
  let num := digitsValue 10 (whole ++ fraction)
  let e := power - fraction.length
  let magnitude :=
    if num == 0 || e < -(2000 + fraction.length + whole.length : Nat) then some Binary64.zero
    else if 2000 < e then none
    else
      let (n, d) := Number.scale 10 num 1 e
      Binary64.nearest? n d
  match magnitude with
  | some x => .float { x with negative }.positional
  | none => .unreadable

def isPower (c : Char) : Bool := c == 'e' || c == 'E'

def fractional? (cs : List Char) : Option Toml :=
  let (sign, grouped) := splitSign cs
  let body := ungroup grouped
  let mantissa := body.takeWhile (!isPower ·)
  let whole := mantissa.takeWhile (· != '.')
  let fraction := mantissa.drop (whole.length + 1)
  let (down, power) := splitSign (body.drop (mantissa.length + 1))
  let hasPoint := whole.length < mantissa.length
  let hasPower := mantissa.length < body.length
  let isDigits (ds : List Char) : Bool := !ds.isEmpty && ds.all Char.isDigit
  if isGrouped Char.isDigit cs && isDigits whole && isPlain whole &&
      (!hasPoint || isDigits fraction) && (!hasPower || isDigits power) then
    let p : Int := digitsValue 10 power
    some (floatOf (sign == some true) whole fraction (if down == some true then -p else p))
  else none

def number? (cs : List Char) : Option Toml :=
  let (sign, body) := splitSign cs
  if body == "inf".toList then some (.float (if sign == some true then "-inf" else "inf"))
  else if body == "nan".toList then some (.float "NaN")
  else
    match cs with
    | '0' :: 'x' :: digits => based? 16 digits
    | '0' :: 'o' :: digits => based? 8 digits
    | '0' :: 'b' :: digits => based? 2 digits
    | _ =>
      if body.any fun c => c == '.' || isPower c then fractional? cs else decimal? cs

open Timestamp in
def clock : Timestamp.Scan Unit := do
  let hour ← digits 2 (some 2)
  literal (· == ':')
  let minute ← digits 2 (some 2)
  match ← get with
  | ':' :: _ =>
    literal (· == ':')
    let second ← digits 2 (some 2)
    fraction
    if isTime hour minute second then pure () else failure
  | _ => if isTime hour minute 0 then pure () else failure

open Timestamp in
def day : Timestamp.Scan Unit := do
  let year ← digits 4 (some 4)
  literal (· == '-')
  let month ← digits 2 (some 2)
  literal (· == '-')
  let day ← digits 2 (some 2)
  if isDate year month day then pure () else failure

open Timestamp in
def isMoment (cs : List Char) : Bool :=
  let both : Timestamp.Scan Unit := do
    day
    literal fun c => c == 'T' || c == 't' || c == ' '
    clock
  matchesAll day cs || matchesAll clock cs || matchesAll both cs ||
    matchesAll (do both; offset) cs

def isScalarChar (c : Char) : Bool := !"=,[]\x7b\x7d \t#\r\n".toList.contains c

def scalarText : Scan (List Char) := do
  let head ← Scan.takeWhile isScalarChar
  match ← Scan.rest with
  | ' ' :: c :: _ =>
    if Timestamp.matchesAll day head && c.isDigit then
      Scan.drop 1
      let tail ← Scan.takeWhile isScalarChar
      pure (head ++ ' ' :: tail)
    else pure head
  | _ => pure head

def scalar : Scan Toml := do
  let cs ← scalarText
  if cs == "true".toList then pure (.bool true)
  else if cs == "false".toList then pure (.bool false)
  else if isMoment cs then pure (.moment (String.ofList cs))
  else
    match number? cs with
    | some v => pure v
    | none => Scan.refuse

end DataClasses.Toml
