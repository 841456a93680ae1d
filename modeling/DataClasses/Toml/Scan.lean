import DataClasses.Text.Basic
import DataClasses.Text.Rounds

/-!
# Pieces of TOML text

Blanks, comments, line ends and the four kinds of strings.
-/

set_option autoImplicit false

namespace DataClasses.Toml

inductive Fault where
  | form
  | longKey
  | shape (message : String)
  deriving DecidableEq, Repr

structure Left where
  rest : List Char
  longKey : Bool := false

abbrev Scan := StateT Left (Except Fault)

namespace Scan

def fail {α : Type} : Scan α := fun _ => .error .form

/-- Stops at a value or a key that is no good. A key of too many parts is told before what
comes behind it, but not before a text that does not go on as it has to. -/
def refuse {α : Type} : Scan α := fun s => .error (if s.longKey then .longKey else .form)

def peek? : Scan (Option Char) := fun s => .ok (s.rest.head?, s)

def rest : Scan (List Char) := fun s => .ok (s.rest, s)

def drop (n : Nat) : Scan Unit := modify fun s => { s with rest := s.rest.drop n }

def startsWith (word : List Char) : Scan Bool := fun s => .ok (word.isPrefixOf s.rest, s)

def expect (word : List Char) : Scan Unit := do
  if ← startsWith word then drop word.length else fail

def takeWhile (p : Char → Bool) : Scan (List Char) := fun s =>
  .ok (s.rest.takeWhile p, { s with rest := s.rest.dropWhile p })

def loop {σ α : Type} (close : σ → α) (round : σ → Scan (Round σ α)) (x : σ) : Scan α :=
  readRounds (·.rest.length) close round x

end Scan

open Scan

def isBlank (c : Char) : Bool := c == ' ' || c == '\t'

def blanks : Scan Unit := do
  let _ ← takeWhile isBlank

def isPrintable (c : Char) : Bool := c == '\t' || (32 ≤ c.toNat && c.toNat != 127)

def comment : Scan Unit := do
  match ← peek? with
  | some '#' =>
    let _ ← takeWhile isPrintable
  | _ => pure ()

def lineEnd? : Scan Bool := do
  if ← startsWith ['\n'] then
    drop 1
    pure true
  else if ← startsWith ['\r', '\n'] then
    drop 2
    pure true
  else pure false

def restOfLine : Scan Unit := do
  blanks
  comment
  let ended ← lineEnd?
  if !ended && !(← rest).isEmpty then fail

def gap : Scan Unit :=
  loop id (fun _ => do
    blanks
    comment
    if ← lineEnd? then pure (.again ()) else pure (.done ())) ()

def codePoint (digits : Nat) : Scan Char := do
  let cs := (← rest).take digits
  if cs.length < digits then refuse
  else
    match Text.hexNumber? cs with
    | some n =>
      if n < 0xD800 || (0xDFFF < n && n < 0x110000) then
        drop digits
        pure (Char.ofNat n)
      else refuse
    | none => refuse

def escape : Scan Char := do
  let c ← peek?
  drop 1
  match c with
  | some 'b' => pure '\x08'
  | some 't' => pure '\t'
  | some 'n' => pure '\n'
  | some 'f' => pure '\x0c'
  | some 'r' => pure '\r'
  | some 'e' => pure '\x1b'
  | some '"' => pure '"'
  | some '\\' => pure '\\'
  | some 'x' => codePoint 2
  | some 'u' => codePoint 4
  | some 'U' => codePoint 8
  | _ => refuse

def basicRest : Scan String :=
  loop (fun acc => String.ofList acc) (fun acc => do
    let plain ← takeWhile fun c => isPrintable c && c != '"' && c != '\\'
    let acc := acc ++ plain
    match ← peek? with
    | some '"' =>
      drop 1
      pure (.done (String.ofList acc))
    | some '\\' =>
      drop 1
      pure (.again (acc ++ [← escape]))
    | _ => refuse) []

def literalRest : Scan String := do
  let plain ← takeWhile fun c => isPrintable c && c != '\''
  if ← startsWith ['\''] then
    drop 1
    pure (String.ofList plain)
  else refuse

/-- Three quotes at least end a string of several lines; up to two more belong to it. -/
def quotesInside (quotes : Nat) : Option Nat :=
  if 3 ≤ quotes && quotes ≤ 5 then some (quotes - 3) else none

/-- A backslash at the end of a line takes the blanks and line ends behind it away. -/
def lineContinues : Scan Bool := do
  let before ← get
  blanks
  if ← lineEnd? then
    let _ ← loop id (fun _ => do
      blanks
      if ← lineEnd? then pure (.again ()) else pure (.done ())) ()
    pure true
  else
    set before
    pure false

def manyLines (quote : Char) (escapes : Bool) : Scan String := do
  let _ ← lineEnd?
  loop (fun acc => String.ofList acc) (fun acc => do
    let plain ← takeWhile fun c => isPrintable c && c != quote && !(escapes && c == '\\')
    let acc := acc ++ plain
    match ← peek? with
    | some '\\' =>
      drop 1
      if ← lineContinues then pure (.again acc) else pure (.again (acc ++ [← escape]))
    | some c =>
      if c == quote then
        let run ← takeWhile (· == quote)
        match quotesInside run.length with
        | some n => pure (.done (String.ofList (acc ++ List.replicate n quote)))
        | none => if run.length < 3 then pure (.again (acc ++ run)) else refuse
      else if ← startsWith ['\r', '\n'] then
        drop 2
        pure (.again (acc ++ ['\r', '\n']))
      else if c == '\n' then
        drop 1
        pure (.again (acc ++ ['\n']))
      else refuse
    | none => refuse) []

def string? : Scan (Option String) := do
  if ← startsWith "\"\"\"".toList then
    drop 3
    return some (← manyLines '"' true)
  else if ← startsWith "'''".toList then
    drop 3
    return some (← manyLines '\'' false)
  else if ← startsWith ['"'] then
    drop 1
    return some (← basicRest)
  else if ← startsWith ['\''] then
    drop 1
    return some (← literalRest)
  else pure none

end DataClasses.Toml
