import DataClasses.Json.Cursor
import DataClasses.Text.Basic

/-!
# Strings in JSON text

The characters that a quoted text denotes. Characters beyond 16 bits are escaped as two
surrogates, which have to stand side by side.
-/

set_option autoImplicit false

namespace DataClasses.Json

open Reader

/-- The value of four hexadecimal digits. They are four bytes, whatever these are. -/
def fourDigits : Reader Nat := fun s =>
  let digits := s.rest.take 4
  if digits.foldl (fun n c => n + c.utf8Size) 0 < 4 then
    failAfter 4 .endInString s
  else
    match Text.hexNumber? digits with
    | some n => (do skipAll digits; pure n : Reader Nat) s
    | none => failAfter 4 .invalidEscape s

def isLeading (n : Nat) : Bool := 0xD800 ≤ n && n ≤ 0xDBFF
def isTrailing (n : Nat) : Bool := 0xDC00 ≤ n && n ≤ 0xDFFF

def joinSurrogates (high low : Nat) : Nat :=
  (high - 0xD800) * 0x400 + (low - 0xDC00) + 0x10000

def expectEscape (c : Char) : Reader Unit := do
  match ← peek? with
  | none => failHere .endInString
  | some d => if d == c then skip else failNext .endOfHexEscape

def hexEscape : Reader Char := do
  let high ← fourDigits
  if isTrailing high then failHere .loneSurrogate
  else if isLeading high then
    expectEscape '\\'
    expectEscape 'u'
    let low ← fourDigits
    if isTrailing low then pure (Char.ofNat (joinSurrogates high low))
    else failHere .loneSurrogate
  else pure (Char.ofNat high)

def shortEscape? (c : Char) : Option Char :=
  match c with
  | '"' => some '"'
  | '\\' => some '\\'
  | '/' => some '/'
  | 'b' => some '\x08'
  | 'f' => some '\x0c'
  | 'n' => some '\n'
  | 'r' => some '\r'
  | 't' => some '\t'
  | _ => none

def escape : Reader Char := do
  match ← peek? with
  | none => failHere .endInString
  | some 'u' =>
    skip
    hexEscape
  | some c =>
    match shortEscape? c with
    | some d =>
      skip
      pure d
    | none => failNext .invalidEscape

def isPlain (c : Char) : Bool := c != '"' && c != '\\' && 32 ≤ c.toNat

def quotedRest : Reader String :=
  loop (fun acc => String.ofList acc) (fun acc => do
    let plain ← takeWhile isPlain
    match ← peek? with
    | none => failHere .endInString
    | some '"' =>
      skip
      pure (.done (String.ofList (acc ++ plain)))
    | some '\\' =>
      skip
      let c ← escape
      pure (.again (acc ++ plain ++ [c]))
    | some _ => failNext .controlCharacter) []

def skipQuotedRest : Reader Unit :=
  loop (fun _ => ()) (fun _ => do
    let _ ← takeWhile isPlain
    match ← peek? with
    | none => failHere .endInString
    | some '"' =>
      skip
      pure (.done ())
    | some '\\' =>
      skip
      match ← peek? with
      | none => failHere .endInString
      | some 'u' =>
        skip
        let _ ← fourDigits
        pure (.again ())
      | some c =>
        if (shortEscape? c).isSome then
          skip
          pure (.again ())
        else failNext .invalidEscape
    | some _ => failHere .controlCharacter) ()

end DataClasses.Json
