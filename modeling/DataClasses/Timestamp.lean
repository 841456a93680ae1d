import DataClasses.Text.Basic

/-!
# Texts that are moments in time

A text is a timestamp if it is a date and time of the internet, with an offset; a local
date and time in one of three layouts; or a count of milliseconds in `/Date(…)/`.
-/

set_option autoImplicit false

namespace DataClasses.Timestamp

abbrev Scan := StateT (List Char) Option

def literal (p : Char → Bool) : Scan Unit := fun cs =>
  match cs with
  | c :: rest => if p c then some ((), rest) else none
  | [] => none

/-- A run of digits, cut after `most` of them; there have to be `least`. -/
def digits (least : Nat) (most : Option Nat) : Scan Nat := fun cs =>
  let run := cs.takeWhile Char.isDigit
  let taken := match most with
    | some n => run.take n
    | none => run
  if taken.length < least then none else some (Nat.ofDigitChars 10 taken 0, cs.drop taken.length)

def isLeap (year : Int) : Bool := year % 4 == 0 && (year % 100 != 0 || year % 400 == 0)

def daysIn (year : Int) (month : Nat) : Nat :=
  if month == 2 then (if isLeap year then 29 else 28)
  else if month == 4 || month == 6 || month == 9 || month == 11 then 30
  else 31

def isDate (year : Int) (month day : Nat) : Bool :=
  -262143 ≤ year && year ≤ 262142 && 1 ≤ month && month ≤ 12 && 1 ≤ day &&
    day ≤ daysIn year month

def isTime (hour minute second : Nat) : Bool := hour ≤ 23 && minute ≤ 59 && second ≤ 60

def fraction : Scan Unit := fun cs =>
  match cs with
  | '.' :: rest =>
    let tail := rest.dropWhile Char.isDigit
    if tail.length < rest.length then some ((), tail) else none
  | _ => some ((), cs)

def offset : Scan Unit := fun cs =>
  match cs with
  | 'z' :: rest => some ((), rest)
  | 'Z' :: rest => some ((), rest)
  | _ =>
    (do
      literal fun c => c == '+' || c == '-' || c == '\u2212'
      let hours ← digits 2 (some 2)
      literal (· == ':')
      let minutes ← digits 2 (some 2)
      if hours ≤ 23 && minutes ≤ 59 then pure () else failure : Scan Unit) cs

/-- The common order of the parts of a moment. `tail` takes what follows the minute. -/
def dateTime (year : Scan Int) (field : Scan Nat) (separator : Char → Bool) (tail : Scan Nat) :
    Scan Unit := do
  let year ← year
  literal (· == '-')
  let month ← field
  literal (· == '-')
  let day ← field
  literal separator
  let hour ← field
  literal (· == ':')
  let minute ← field
  let second ← tail
  if isDate year month day && isTime hour minute second then pure () else failure

def yearDigits (least : Nat) (most : Option Nat) : Scan Int := do
  let n ← digits least most
  pure (n : Int)

def internetTail : Scan Nat := do
  literal (· == ':')
  let second ← digits 2 (some 2)
  fraction
  offset
  pure second

/-- Fields of fixed width and an offset, as in `2024-01-15T10:30:00Z`. -/
def internet : Scan Unit :=
  dateTime (yearDigits 4 (some 4)) (digits 2 (some 2))
    (fun c => c == 'T' || c == 't' || c == ' ') internetTail

def blanks : Scan Unit := fun cs => some ((), cs.dropWhile Text.isBlank)

def field : Scan Nat := do
  blanks
  digits 1 (some 2)

def signedYear : Scan Int := fun cs =>
  match cs with
  | '-' :: rest =>
    (do
      let n ← yearDigits 1 none
      pure (-n) : Scan Int) rest
  | '+' :: rest => yearDigits 1 none rest
  | _ => yearDigits 1 (some 4) cs

def yearField : Scan Int := do
  blanks
  signedYear

def localTime (second : Scan Nat) : Scan Unit := dateTime yearField field (· == 'T') second

def wholeSecond : Scan Nat := do
  literal (· == ':')
  field

def splitSecond : Scan Nat := do
  let n ← wholeSecond
  fraction
  pure n

def matchesAll (scan : Scan Unit) (cs : List Char) : Bool := scan cs == some ((), [])

def allDigits (cs : List Char) : Bool := !cs.isEmpty && cs.all Char.isDigit

def isSign (c : Char) : Bool := c == '+' || c == '-'

def isUnsigned (body : List Char) : Bool :=
  match body.dropWhile (!isSign ·) with
  | [] => allDigits body
  | _ :: zone => allDigits (body.takeWhile (!isSign ·)) && zone.length == 4 && allDigits zone

def isMillis (cs : List Char) : Bool :=
  match cs with
  | '-' :: rest => isUnsigned rest
  | _ => isUnsigned cs

def between? (opening closing cs : List Char) : Option (List Char) :=
  if opening.isPrefixOf cs then
    let rest := cs.drop opening.length
    if closing.isSuffixOf rest then some (rest.take (rest.length - closing.length)) else none
  else none

def isEpoch (cs : List Char) : Bool :=
  match between? "/Date(".toList ")/".toList cs with
  | some inner => isMillis inner
  | none => false

def isTimestamp (text : String) : Bool :=
  let cs := text.toList
  matchesAll internet cs || matchesAll (localTime splitSecond) cs ||
    matchesAll (localTime wholeSecond) cs || matchesAll (localTime (pure 0)) cs || isEpoch cs

end DataClasses.Timestamp
