import DataClasses.Json.Fault
import DataClasses.Text.Rounds

/-!
# Reading with a place

The text that is left together with the place where it begins, and readers that move
forward over it or stop at a fault.
-/

set_option autoImplicit false

namespace DataClasses.Json

structure Cursor where
  rest : List Char
  line : Nat := 1
  column : Nat := 0
  deriving DecidableEq, Repr

def placeAfter : Nat → List Char → Nat × Nat → Nat × Nat
  | _, [], place => place
  | bytes, c :: cs, (line, column) =>
    if bytes == 0 then (line, column)
    else if c == '\n' then placeAfter (bytes - 1) cs (line + 1, 0)
    else if bytes < c.utf8Size then (line, column + bytes)
    else placeAfter (bytes - c.utf8Size) cs (line, column + c.utf8Size)

abbrev Reader := StateT Cursor (Except Fault)

namespace Reader

def peek? : Reader (Option Char) := fun s => .ok (s.rest.head?, s)

def skip : Reader Unit := fun s =>
  match s.rest with
  | [] => .ok ((), s)
  | c :: cs =>
    .ok ((), if c == '\n' then ⟨cs, s.line + 1, 0⟩ else ⟨cs, s.line, s.column + c.utf8Size⟩)

def failAfter {α : Type} (bytes : Nat) (cause : Cause) : Reader α := fun s =>
  let (line, column) := placeAfter bytes s.rest (s.line, s.column)
  .error ⟨cause, line, column⟩

def failHere {α : Type} (cause : Cause) : Reader α := failAfter 0 cause

def failNext {α : Type} (cause : Cause) : Reader α := failAfter 1 cause

def skipAll : List Char → Reader Unit
  | [] => pure ()
  | _ :: cs => do skip; skipAll cs

def takeWhile (p : Char → Bool) : Reader (List Char) := do
  let s ← get
  let taken := s.rest.takeWhile p
  skipAll taken
  pure taken

def isSpace (c : Char) : Bool := c == ' ' || c == '\n' || c == '\t' || c == '\r'

def next? : Reader (Option Char) := do
  let _ ← takeWhile isSpace
  peek?

def loop {σ α : Type} (close : σ → α) (round : σ → Reader (Round σ α)) (x : σ) : Reader α :=
  readRounds (fun s : Cursor => s.rest.length) close round x

end Reader
end DataClasses.Json
