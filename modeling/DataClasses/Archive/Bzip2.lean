import DataClasses.Archive.Unpacking

/-!
# Bzip2

The method that sorts. A block of bytes is written as the last column of its sorted rotations, in
which equal bytes stand together; of this column the places of its bytes in the order of their last
use are written in prefix codes. All numbers have their greatest bit first.
-/

set_option autoImplicit false

namespace DataClasses.Bzip2

open Unpacking

def shift (r : UInt32) : UInt32 :=
  if r &&& 0x80000000 == 0 then r <<< 1 else (r <<< 1) ^^^ 0x04c11db7

def step (r : UInt32) (byte : UInt8) : UInt32 :=
  (List.range 8).foldl (fun r _ => shift r) (r ^^^ (byte.toUInt32 <<< 24))

def checksum (bytes : ByteArray) : Nat :=
  (bytes.foldl step 0xffffffff ^^^ 0xffffffff).toNat

def joined (all block : Nat) : Nat := (2 * all % 0x100000000 + all >>> 31) ^^^ block

/-- The bytes whose sorted rotations end in a column, beginning with the rotation at a place. The
rotation that begins with a byte of the column stands where sorting the column puts this byte. -/
def unsorted (column : ByteArray) (place : Nat) : List UInt8 :=
  let byteAt (n : Nat) : UInt8 := column[n]?.getD 0
  let order := ((List.range column.size).mergeSort fun m n => byteAt m ≤ byteAt n).toArray
  let walk := (List.range column.size).foldl
    (fun (stand, bytes) _ =>
      let next := order[stand]?.getD 0
      (next, byteAt next :: bytes)) (place, [])
  walk.2.reverse

/-- Adds bytes, of which four equal ones are followed by the number of those that have been left
out behind them. -/
def spread (out : ByteArray) : List UInt8 → ByteArray
  | a :: b :: c :: d :: more :: rest =>
    if a == b && b == c && c == d then
      spread ((List.replicate (4 + more.toNat) a).foldl ByteArray.push out) rest
    else spread (out.push a) (b :: c :: d :: more :: rest)
  | rest => rest.foldl ByteArray.push out
termination_by bytes => bytes.length

def flags : Nat → Reader (List Bool)
  | 0 => pure []
  | n + 1 => do
    let flag ← highBit
    return (flag == 1) :: (← flags n)

def usedBytes : Reader (List UInt8) := do
  let rows ← flags 16
  let cells ← rows.mapM fun row => if row then flags 16 else pure (List.replicate 16 false)
  return ((List.range 256).zip cells.flatten).filterMap fun (n, isUsed) =>
    if isUsed then some n.toUInt8 else none

def ones : Nat → Reader Nat
  | 0 => fail
  | bound + 1 => do
    if (← highBit) == 0 then return 0
    return 1 + (← ones bound)

def choices : Nat → List Nat → Reader (List Nat)
  | 0, _ => pure []
  | n + 1, row => do
    let row := toFront row (← ones row.length)
    return row.headD 0 :: (← choices n row)

def wordLength (before : Nat) : Reader Nat :=
  loop id (fun length => do
    if length < 1 || 20 < length then fail
    if (← highBit) == 0 then return .done length
    return .again (if (← highBit) == 0 then length + 1 else length - 1)) before

def wordLengths : Nat → Nat → Reader (List Nat)
  | 0, _ => pure []
  | n + 1, before => do
    let length ← wordLength before
    return length :: (← wordLengths n length)

def codes (symbols : Nat) : Nat → Reader (List Code)
  | 0 => pure []
  | n + 1 => do
    let lengths ← wordLengths symbols (← highBits 5)
    return .ofLengths lengths :: (← codes symbols n)

def groupSize : Nat := 50

/-- A column as far as it is written: the codes still to come with the present one first, the
symbols left for that, the bytes in the order of their last use, and how often the first of these
is to be repeated with what the next digit of this number is worth. -/
structure Column where
  codes : List Code
  left : Nat := groupSize
  row : List UInt8
  repeated : Nat := 0
  worth : Nat := 1
  bytes : ByteArray := ByteArray.empty

namespace Column

def ready (c : Column) : Column :=
  if c.left == 0 then { c with codes := c.codes.drop 1, left := groupSize } else c

def settled (c : Column) : Column :=
  { c with
    repeated := 0
    worth := 1
    bytes := (List.replicate c.repeated (c.row.headD 0)).foldl ByteArray.push c.bytes }

def round (limit : Nat) (column : Column) : Reader (Round Column ByteArray) := do
  let c := column.ready
  let symbol ← symbol highBit (c.codes.headD [])
  let c := { c with left := c.left - 1 }
  if symbol ≤ 1 then
    let repeated := c.repeated + (symbol + 1) * c.worth
    if limit < c.bytes.size + repeated then fail
    return .again { c with repeated, worth := 2 * c.worth }
  let c := c.settled
  if symbol == c.row.length + 1 then return .done c.bytes
  if limit ≤ c.bytes.size then fail
  let row := toFront c.row (symbol - 1)
  return .again { c with row, bytes := c.bytes.push (row.headD 0) }

end Column

def block (limit : Nat) : Reader Nat := do
  let sum ← highBits 32
  if (← highBit) == 1 then fail
  let place ← highBits 24
  let row ← usedBytes
  let groups ← highBits 3
  if row.isEmpty || groups < 2 || 6 < groups then fail
  let count ← highBits 15
  if count == 0 then fail
  let chosen ← choices count (List.range groups)
  let codes ← codes (row.length + 2) groups
  let column ← loop Column.bytes (Column.round limit)
    { codes := chosen.map fun n => codes.getD n [], row }
  if column.size ≤ place then fail
  let bytes := spread ByteArray.empty (unsorted column place)
  if checksum bytes != sum then fail
  modify fun s => { s with unpacked := s.unpacked ++ bytes }
  return sum

def blocks (limit : Nat) : Reader Unit :=
  loop (fun _ => ()) (fun all => do
    if (← highBits 8) == 0x17 then
      expect highBits .corrupt [0x72, 0x45, 0x38, 0x50, 0x90]
      if (← highBits 32) != all then fail
      return .done ()
    modify fun s => { s with position := s.position - 8 }
    expect highBits .corrupt [0x31, 0x41, 0x59, 0x26, 0x53, 0x59]
    return .again (joined all (← block limit))) 0

def head : Reader Nat := do
  expect highBits .foreign [0x42, 0x5a, 0x68]
  let digit ← highBits 8
  if digit < 0x31 || 0x39 < digit then throw .foreign
  return 100000 * (digit - 0x30)

def unpack (data : ByteArray) : Except Halt ByteArray :=
  ((head >>= blocks).run { data }).map fun x => x.2.unpacked

end DataClasses.Bzip2
