import DataClasses.Archive.Zstd.States

/-!
# Literals

The bytes of a block that are not repeated from elsewhere. They are written as they are, as one
byte for all, or in a prefix code, which is the one before or comes with them: each byte has a
weight, and the greater the weight, the shorter its word.
-/

set_option autoImplicit false

namespace DataClasses.Zstd

open Unpacking

/-- A prefix code for bytes: the bytes, with the lengths of their words, by the bits that begin with
these. -/
structure ByteCode where
  width : Nat
  cells : Array (Nat × Nat)

def ByteCode.ofWeights? (weights : List Nat) : Option ByteCode :=
  let used := (weights.filter (0 < ·)).foldl (fun n weight => n + 1 <<< (weight - 1)) 0
  let width := Nat.log2 used + 1
  let last := 1 <<< width - used
  if used == 0 || 11 < width || 255 < weights.length || 1 <<< Nat.log2 last != last then none
  else
    let all := (weights ++ [Nat.log2 last + 1]).zipIdx
    let cells := (List.range width).flatMap fun n =>
      all.flatMap fun (weight, byte) =>
        if weight == n + 1 then List.replicate (1 <<< n) (byte, width - n) else []
    some ⟨width, cells.toArray⟩

/-- A byte by the bits at the end; bits that are missing count as zeros but may not be used. -/
def ByteCode.byte (c : ByteCode) : BackReader UInt8 := do
  let b ← get
  let known := min b.left c.width
  let ahead := bitsAt b.data (b.left - known) known <<< (c.width - known)
  let (byte, length) := c.cells[ahead]?.getD (0, 0)
  if b.left < length then failure
  set { b with left := b.left - length }
  return byte.toUInt8

def ByteCode.bytes (c : ByteCode) : Nat → ByteArray → BackReader ByteArray
  | 0, out => pure out
  | n + 1, out => do c.bytes n (out.push (← c.byte))

def ByteCode.unpack? (c : ByteCode) (data : ByteArray) (count : Nat) : Option ByteArray := do
  let (bytes, b) ← (c.bytes count ByteArray.empty).run (← Backward.ofBytes? data)
  if b.left == 0 then some bytes else none

def inTurn (t : StateTable) : Nat → Nat → Nat → BackReader (List Nat)
  | 0, _, _ => failure
  | room + 1, now, other => do
    let cell := t.cell now
    if (← get).left < cell.width then return [cell.symbol, (t.cell other).symbol]
    let next := cell.least + (← takeBack cell.width)
    return cell.symbol :: (← inTurn t room other next)

def wanted {α : Type} : Option α → Reader α
  | some x => pure x
  | none => fail

def bytes (count : Nat) : Reader ByteArray := do
  let s ← get
  let start := s.position / 8
  if s.data.size < start + count then throw (.dataEnds s.unpacked)
  set { s with position := 8 * (start + count) }
  return s.data.extract start (start + count)

def weightsOf? (t : StateTable) (data : ByteArray) : Option (List Nat) := do
  let start : BackReader (Nat × Nat) := do
    let now ← takeBack t.width
    return (now, ← takeBack t.width)
  let ((now, other), b) ← start.run (← Backward.ofBytes? data)
  let (weights, _) ← (inTurn t 255 now other).run b
  some weights

def packedWeights (length : Nat) : Reader (List Nat) := do
  let stop := (← get).position / 8 + length
  let t ← stateTable 256 6
  let start := (← get).position / 8
  if stop < start then fail
  wanted (weightsOf? t (← bytes (stop - start)))

def halfBytes (count : Nat) : Reader (List Nat) := do
  let pairs ← (List.range ((count + 1) / 2)).mapM fun _ => do
    let low ← lowBits 4
    return [(← lowBits 4), low]
  return pairs.flatten.take count

def byteCode : Reader ByteCode := do
  let head ← lowBits 8
  let weights ← if head < 128 then packedWeights head else halfBytes (head - 127)
  wanted (ByteCode.ofWeights? weights)

def fourPieces (c : ByteCode) (length count : Nat) : Reader ByteArray := do
  let first ← lowBits 16
  let second ← lowBits 16
  let third ← lowBits 16
  if length < 6 + first + second + third then fail
  let part := (count + 3) / 4
  if count < 3 * part then fail
  let one ← wanted (c.unpack? (← bytes first) part)
  let two ← wanted (c.unpack? (← bytes second) part)
  let three ← wanted (c.unpack? (← bytes third) part)
  let four ← wanted (c.unpack? (← bytes (length - 6 - first - second - third)) (count - 3 * part))
  return one ++ two ++ three ++ four

def plainCount : Reader Nat := do
  if (← lowBit) == 0 then lowBits 5
  else if (← lowBit) == 0 then lowBits 12
  else lowBits 20

def codedLiterals (code : Reader ByteCode) : Reader (ByteArray × ByteCode) := do
  let form ← lowBits 2
  let width := [10, 10, 14, 18].getD form 0
  let count ← lowBits width
  let length ← lowBits width
  let start := (← get).position / 8
  let code ← code
  let used := (← get).position / 8 - start
  if length < used then fail
  if form == 0 then return (← wanted (code.unpack? (← bytes (length - used)) count), code)
  return (← fourPieces code (length - used) count, code)

def literals (before : Option ByteCode) : Reader (ByteArray × Option ByteCode) := do
  match ← lowBits 2 with
  | 0 => return (← bytes (← plainCount), before)
  | 1 =>
    let count ← plainCount
    return (⟨Array.replicate count (← lowBits 8).toUInt8⟩, before)
  | 2 =>
    let (content, code) ← codedLiterals byteCode
    return (content, some code)
  | _ =>
    let (content, code) ← codedLiterals (wanted before)
    return (content, some code)

end DataClasses.Zstd
