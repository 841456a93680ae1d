import DataClasses.Archive.Unpacking

/-!
# LZMA

The method that guesses each bit. What has been unpacked tells with which chance the next bit is
a zero; a range of numbers is divided in the proportion of the chances, and a code tells in which
part it lies. The chances learn from each bit.
-/

set_option autoImplicit false

namespace DataClasses.Lzma

open Unpacking (Halt copyPiece toFront)

/-- How many bits of the place and of the byte before choose the chances: of the byte before for a
byte, of the place for a byte, and of the place for the rest. -/
structure Shape where
  before : Nat
  place : Nat
  turn : Nat

def Shape.ofByte? (byte : Nat) : Option Shape :=
  if byte < 225 then some ⟨byte % 9, byte / 9 % 5, byte / 45⟩ else none

/-- Packed data and how many of its bytes have been read, the range and the code in it, the
chances, what has been unpacked and where in it pieces may begin, the last distances with the
latest first, and what kind of steps the last ones were. -/
structure State where
  data : ByteArray
  position : Nat := 0
  range : Nat := 0
  code : Nat := 0
  shape : Shape
  chances : Array Nat := #[]
  unpacked : ByteArray := ByteArray.empty
  start : Nat := 0
  distances : List Nat := [0, 0, 0, 0]
  kind : Nat := 0

abbrev Reader := StateT State (Except Halt)

def fail {α : Type} : Reader α := throw .corrupt

def byte : Reader Nat := do
  let s ← get
  match s.data[s.position]? with
  | some byte =>
    set { s with position := s.position + 1 }
    pure byte.toNat
  | none => throw (.dataEnds s.unpacked)

def number : Nat → Reader Nat
  | 0 => pure 0
  | n + 1 => do
    let high ← byte
    return high <<< (8 * n) + (← number n)

def openRange : Reader Unit := do
  if (← byte) != 0 then fail
  let code ← number 4
  modify fun s => { s with range := 0xffffffff, code }

def widen : Reader Unit := do
  let s ← get
  if s.range < 0x1000000 then
    let low ← byte
    modify fun s => { s with range := s.range * 256, code := (s.code * 256 + low) % 0x100000000 }

def bit (place : Nat) : Reader Nat := do
  widen
  let s ← get
  let chance := s.chances[place]?.getD 1024
  let part := s.range / 2048 * chance
  if s.code < part then
    set { s with
      range := part
      chances := s.chances.setIfInBounds place (chance + (2048 - chance) / 32) }
    return 0
  else
    set { s with
      range := s.range - part
      code := s.code - part
      chances := s.chances.setIfInBounds place (chance - chance / 32) }
    return 1

def evenBits : Nat → Reader Nat
  | 0 => pure 0
  | n + 1 => do
    widen
    let s ← get
    let half := s.range / 2
    let high := if s.code < half then 0 else 1
    set { s with range := half, code := s.code - high * half }
    return high <<< n + (← evenBits n)

/-- The bits of a number, the greatest first, each with a chance for what has been read of it;
`path` is this behind a one. -/
def tree (place : Nat) : Nat → Nat → Reader Nat
  | 0, path => pure path
  | n + 1, path => do tree place n (2 * path + (← bit (place + path)))

def numberBy (place width : Nat) : Reader Nat := return (← tree place width 1) - 1 <<< width

def lowTree (place : Nat) : Nat → Nat → Reader Nat
  | 0, _ => pure 0
  | n + 1, path => do
    let low ← bit (place + path)
    return low + 2 * (← lowTree place n (2 * path + low))

def literalOrPiece (kind turn : Nat) : Nat := 16 * kind + turn
def newOrUsed (kind : Nat) : Nat := 192 + kind
def lastOrOlder (kind : Nat) : Nat := 204 + kind
def secondOrOlder (kind : Nat) : Nat := 216 + kind
def thirdOrFourth (kind : Nat) : Nat := 228 + kind
def byteOrLonger (kind turn : Nat) : Nat := 240 + 16 * kind + turn
def distanceClass (length : Nat) : Nat := 432 + 64 * min length 3
def distanceBits : Nat := 688
def lowDistanceBits : Nat := 803
def newLength : Nat := 819
def usedLength : Nat := 1333
def literals : Nat := 1847

def restart (shape : Shape) : Reader Unit :=
  modify fun s =>
    { s with
      shape
      chances := Array.replicate (literals + 768 <<< (shape.before + shape.place)) 1024
      distances := [0, 0, 0, 0]
      kind := 0 }

def State.byteBack (s : State) (distance : Nat) : Nat :=
  (s.unpacked[s.unpacked.size - (distance + 1)]?.getD 0).toNat

def State.turn (s : State) : Nat := (s.unpacked.size - s.start) % 1 <<< s.shape.turn

def State.reaches (s : State) (distance : Nat) : Bool := distance < s.unpacked.size - s.start

/-- The byte at the place of the chances, guessed by the one that the last piece would go on with
for as long as they agree. -/
def likeByte (place like : Nat) : Nat → Nat → Reader Nat
  | 0, path => pure path
  | n + 1, path => do
    let expected := (like >>> n) % 2
    let b ← bit (place + 256 * (1 + expected) + path)
    if b == expected then likeByte place like n (2 * path + b) else tree place n (2 * path + b)

def literal : Reader Unit := do
  let s ← get
  let before := if s.reaches 0 then s.byteBack 0 else 0
  let place := (s.unpacked.size - s.start) % 1 <<< s.shape.place
  let chosen := place <<< s.shape.before + before >>> (8 - s.shape.before)
  let chances := literals + 768 * chosen
  let path ←
    if s.kind < 7 then tree chances 8 1
    else likeByte chances (s.byteBack (s.distances.headD 0)) 8 1
  modify fun s =>
    { s with
      unpacked := s.unpacked.push path.toUInt8
      kind := if s.kind < 4 then 0 else if s.kind < 10 then s.kind - 3 else s.kind - 6 }

def length (place turn : Nat) : Reader Nat := do
  if (← bit place) == 0 then numberBy (place + 2 + 8 * turn) 3
  else if (← bit (place + 1)) == 0 then return 8 + (← numberBy (place + 130 + 8 * turn) 3)
  else return 16 + (← numberBy (place + 258) 8)

def distance (length : Nat) : Reader Nat := do
  let c ← numberBy (distanceClass length) 6
  if c < 4 then return c
  let width := c / 2 - 1
  let least := (2 + c % 2) <<< width
  if c < 14 then return least + (← lowTree (distanceBits + least - c) width 1)
  let high ← evenBits (width - 4)
  return least + 16 * high + (← lowTree lowDistanceBits 4 1)

def piece (limit length : Nat) : Reader Unit := do
  let s ← get
  let distance := s.distances.headD 0
  if !s.reaches distance || limit < s.unpacked.size + length then fail
  set { s with unpacked := copyPiece (distance + 1) length s.unpacked }

/-- Makes a distance the last one, and tells what kind of step is taken: the first kind behind
bytes, the second behind pieces. -/
def turnTo (place afterBytes afterPieces : Nat) : Reader Unit :=
  modify fun s =>
    { s with
      distances := toFront s.distances place
      kind := if s.kind < 7 then afterBytes else afterPieces }

def usedDistance (kind turn : Nat) : Reader (Nat × Bool) := do
  if (← bit (lastOrOlder kind)) == 0 then return (0, (← bit (byteOrLonger kind turn)) == 0)
  if (← bit (secondOrOlder kind)) == 0 then return (1, false)
  return (2 + (← bit (thirdOrFourth kind)), false)

def usedPiece (limit kind turn : Nat) : Reader Unit := do
  let (place, isByte) ← usedDistance kind turn
  if isByte then
    turnTo 0 9 11
    piece limit 1
  else
    let length ← length usedLength turn
    turnTo place 8 11
    piece limit (length + 2)

def newPiece (limit turn : Nat) : Reader Unit := do
  let length ← length newLength turn
  let distance ← distance length
  modify fun s => { s with distances := distance :: s.distances.take 3 }
  turnTo 0 7 10
  piece limit (length + 2)

def oneStep (limit : Nat) : Reader Unit := do
  let s ← get
  let turn := s.turn
  if (← bit (literalOrPiece s.kind turn)) == 0 then literal
  else if (← bit (newOrUsed s.kind)) == 0 then newPiece limit turn
  else usedPiece limit s.kind turn

def upTo (limit : Nat) : Reader Unit :=
  readRounds (fun s : State => limit - s.unpacked.size) id
    (fun _ => do
      if limit ≤ (← get).unpacked.size then return .done ()
      oneStep limit
      return .again ()) ()

inductive Flaw where
  | stop (s : Halt)
  | headLength (length : Nat)

/-- The bytes that an entry stands for. Its head tells the length of the rest of the head, which is
the shape and how far back pieces reach. -/
def unpack (size : Nat) (data : ByteArray) : Except Flaw ByteArray :=
  let littleAt (place : Nat) : Nat :=
    (data[place]?.getD 0).toNat + 256 * (data[place + 1]?.getD 0).toNat
  if data.size < 4 then .error (.stop (.dataEnds ByteArray.empty))
  else if littleAt 2 != 5 then .error (.headLength (littleAt 2))
  else if data.size < 9 then .error (.stop (.dataEnds ByteArray.empty))
  else
    match Shape.ofByte? (data[4]?.getD 0).toNat with
    | none => .error (.stop .corrupt)
    | some shape =>
      match (do restart shape; openRange; upTo size : Reader Unit).run
          { data, position := 9, shape } with
      | .ok (_, s) => .ok s.unpacked
      | .error stop => .error (.stop stop)

end DataClasses.Lzma
