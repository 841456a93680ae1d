import DataClasses.Text.Rounds

/-!
# Unpacking

Packed data as it is read bit by bit, with what has been unpacked of it, and what several methods
of packing have in common: prefix codes, rows of symbols in the order of their last use, and
pieces that repeat what is there already.
-/

set_option autoImplicit false

namespace DataClasses.Unpacking

structure State where
  data : ByteArray
  position : Nat := 0
  unpacked : ByteArray := ByteArray.empty

def State.remaining (s : State) : Nat := 8 * s.data.size - s.position

/-- Why unpacking stops: the data does not begin as packed data does, it is none further on, or
it ends before it says so. What has been unpacked by then is known. -/
inductive Halt where
  | foreign
  | corrupt
  | dataEnds (unpacked : ByteArray)

abbrev Reader := StateT State (Except Halt)

def fail {α : Type} : Reader α := throw .corrupt

def loop {σ α : Type} (close : σ → α) (round : σ → Reader (Round σ α)) (x : σ) : Reader α :=
  readRounds State.remaining close round x

def push (byte : UInt8) : Reader Unit :=
  modify fun s => { s with unpacked := s.unpacked.push byte }

def bitBy (place : Nat → Nat) : Reader Nat := do
  let s ← get
  match s.data[s.position / 8]? with
  | some byte =>
    set { s with position := s.position + 1 }
    pure (byte.toNat >>> place (s.position % 8) % 2)
  | none => throw (.dataEnds s.unpacked)

def lowBit : Reader Nat := bitBy id

def highBit : Reader Nat := bitBy (7 - ·)

def lowBits : Nat → Reader Nat
  | 0 => pure 0
  | n + 1 => do
    let low ← lowBit
    return low + 2 * (← lowBits n)

def highBits : Nat → Reader Nat
  | 0 => pure 0
  | n + 1 => do
    let high ← highBit
    return high <<< n + (← highBits n)

def expect (bits : Nat → Reader Nat) (halt : Halt) : List Nat → Reader Unit
  | [] => pure ()
  | byte :: rest => do
    if (← bits 8) != byte then throw halt
    expect bits halt rest

def toByte : Reader Unit := modify fun s => { s with position := (s.position + 7) / 8 * 8 }

/-- The symbols of a prefix code by the lengths of their words, from one bit upwards. The words
of one length follow on each other. -/
abbrev Code := List (List Nat)

def Code.ofLengths (lengths : List Nat) : Code :=
  (List.range (lengths.foldl max 0)).map fun n =>
    (List.range lengths.length).filter fun symbol => lengths.getD symbol 0 == n + 1

/-- Reads a symbol; `word` are the bits so far and `first` is the first word of their length. -/
def symbolFrom (bit : Reader Nat) : Code → Nat → Nat → Reader Nat
  | [], _, _ => fail
  | level :: deeper, word, first => do
    let word := word + (← bit)
    match level[word - first]? with
    | some symbol => pure symbol
    | none => symbolFrom bit deeper (2 * word) (2 * (first + level.length))

def symbol (bit : Reader Nat) (code : Code) : Reader Nat := symbolFrom bit code 0 0

def toFront {α : Type} (row : List α) (place : Nat) : List α :=
  match row[place]? with
  | some x => x :: row.eraseIdx place
  | none => row

def copyPiece (distance : Nat) : Nat → ByteArray → ByteArray
  | 0, out => out
  | n + 1, out => copyPiece distance n (out.push (out[out.size - distance]?.getD 0))

end DataClasses.Unpacking
