import DataClasses.Archive.Lzma

/-!
# Xz

Blocks of chunks. A chunk holds bytes as they are, or packed ones that may go on with what has been
learnt in the chunk before. What stands behind the last block, and the checksums, are passed over.
-/

set_option autoImplicit false

namespace DataClasses.Xz

open Unpacking (Halt)
open Lzma

def loop {σ α : Type} (close : σ → α) (round : σ → Reader (Round σ α)) (x : σ) : Reader α :=
  readRounds (fun s : State => s.data.size - s.position) close round x

def skip (count : Nat) : Reader Unit := do
  let s ← get
  if s.data.size < s.position + count then throw (.dataEnds s.unpacked)
  set { s with position := s.position + count }

def forget : Reader Unit := modify fun s => { s with start := s.unpacked.size }

def plainBytes : Nat → Reader Unit
  | 0 => pure ()
  | n + 1 => do
    let b ← byte
    modify fun s => { s with unpacked := s.unpacked.push b.toUInt8 }
    plainBytes n

def plainChunk : Reader Unit := do plainBytes ((← number 2) + 1)

/-- What a chunk takes over: all that has been learnt, only its shape, not even that, or not even
the bytes before. -/
def takeOver (mode : Nat) : Reader Unit := do
  if mode == 3 then forget
  if mode == 1 then restart (← get).shape
  if 2 ≤ mode then
    match Shape.ofByte? (← byte) with
    | some shape => restart shape
    | none => fail

def packedChunk (control : Nat) : Reader Unit := do
  let size := control % 32 * 65536 + (← number 2) + 1
  let packed := (← number 2) + 1
  takeOver (control / 32 % 4)
  let s ← get
  if s.data.size < s.position + packed then throw (.dataEnds s.unpacked)
  openRange
  upTo (s.unpacked.size + size)
  modify fun t => { t with position := s.position + packed }

def chunks : Reader Unit :=
  loop id (fun _ => do
    let control ← byte
    if control == 0 then return .done ()
    if control == 1 then forget
    if 128 ≤ control then packedChunk control
    else if control ≤ 2 then plainChunk
    else fail
    return .again ()) ()

/-- Moves over a number of seven bits a byte; the greatest bit tells that a byte follows. -/
def skipNumber : Nat → Reader Unit
  | 0 => fail
  | n + 1 => do if 128 ≤ (← byte) then skipNumber n

/-- Moves over the head of a block, which may tell sizes and has to tell just one method: that of
chunks. `length` is the length of what is left of it. -/
def blockHead (length : Nat) : Reader Unit := do
  let start := (← get).position
  let flags ← byte
  if flags % 4 != 0 then fail
  if flags / 64 % 2 == 1 then skipNumber 9
  if 128 ≤ flags then skipNumber 9
  if (← byte) != 0x21 then fail
  skip (start + length - (← get).position)

def checkLength (kind : Nat) : Nat :=
  if kind == 0 then 0 else 4 <<< ((kind - 1) / 3)

def blocks (kind : Nat) : Reader Unit :=
  loop id (fun _ => do
    let length ← byte
    if length == 0 then return .done ()
    blockHead (4 * length + 3)
    let start := (← get).position
    chunks
    skip ((4 - ((← get).position - start) % 4) % 4)
    skip (checkLength kind)
    return .again ()) ()

def expect : List Nat → Reader Unit
  | [] => pure ()
  | first :: rest => do
    if (← byte) != first then throw .foreign
    expect rest

def stream : Reader Unit := do
  if (← get).data.size < 6 then throw (.dataEnds ByteArray.empty)
  expect [0xfd, 0x37, 0x7a, 0x58, 0x5a, 0]
  if (← byte) != 0 then fail
  let kind ← byte
  if 16 ≤ kind then fail
  skip 4
  blocks kind

def unpack (data : ByteArray) : Except Halt ByteArray :=
  (stream.run { data, shape := ⟨0, 0, 0⟩ }).map fun x => x.2.unpacked

end DataClasses.Xz
