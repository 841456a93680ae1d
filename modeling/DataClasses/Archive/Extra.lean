import DataClasses.Archive.Basic
import DataClasses.Checksum
import DataClasses.Text.Rounds

/-!
# Extra fields

What the listing of an archive says of an entry, and the extra fields that can change it: wide
numbers where four bytes do not hold a size or a place, a name or a comment in UTF-8, and the
note that an entry is sealed. Fields of other kinds are passed over; those with moments must
have the form that they say.
-/

set_option autoImplicit false

namespace DataClasses

structure ListedEntry where
  rawName : List UInt8
  name : String
  comment : String
  isLocked : Bool
  isSealed : Bool := false
  method : Nat
  checksum : Nat
  size : Nat
  packedSize : Nat
  header : Nat

namespace ListedEntry

abbrev Reader := StateT (List UInt8) (Except ArchiveFault)

def skip (count : Nat) (fault : ArchiveFault) : Reader Unit := do
  if (← get).length < count then throw fault
  modify (·.drop count)

def take (count : Nat) (fault : ArchiveFault) : Reader (List UInt8) := do
  let bytes := (← get).take count
  skip count fault
  pure bytes

def number (width : Nat) (fault : ArchiveFault) : Reader Nat := do
  return (← take width fault).foldr (fun byte n => byte.toNat + 256 * n) 0

def widened (isWide : Bool) (n : Nat) : Reader Nat :=
  if isWide then number 8 (.invalid .wideNumberCutOff) else pure n

def isFull (n : Nat) : Bool := n == 0xffffffff

def wideNumbers (length : Nat) (e : ListedEntry) : Reader ListedEntry := do
  let isWide (n : Nat) : Bool := 24 ≤ length || isFull n
  let size ← widened (isWide e.size) e.size
  let packedSize ← widened (isWide e.packedSize) e.packedSize
  let header ← widened (isWide e.header) e.header
  let used := 8 * [e.size, e.packedSize, e.header].countP isWide
  if length < used then throw (.invalid .wideNumberLength)
  skip (length - used) (.invalid .wideNumberCutOff)
  pure { e with size, packedSize, header }

def times (length : Nat) : Reader Unit := do
  if length != 32 then throw (.unsupported .timesLength)
  skip 4 .tooShort
  if (← number 2 .tooShort) != 1 then throw (.unsupported .timesTag)
  if (← number 2 .tooShort) != 24 then throw (.unsupported .timesSize)
  skip 24 .tooShort

def binary (n : Nat) : String :=
  String.ofList ((List.range 8).reverse.map fun i => if n.testBit i then '1' else '0')

/-- Up to three moments, with flags that say which are there. A field of five bytes has one,
whatever its flags say. -/
def flaggedTimes (length : Nat) : Reader Unit := do
  let flags ← number 1 .tooShort
  let count := (List.range 8).countP flags.testBit
  if length != 5 && length != 1 + 4 * count then
    throw (.file ("flags and len don't match in extended timestamp field len=" ++
      toString length ++ " flags=" ++ binary flags))
  if 8 ≤ flags then
    throw (.file ("found unsupported timestamps in the extended timestamp header flags=" ++
      binary flags))
  skip (length - 1) .tooShort

def sealing (length : Nat) (e : ListedEntry) : Reader ListedEntry := do
  if length != 7 then throw (.unsupported .sealLength)
  let version ← number 2 .tooShort
  let vendor ← number 2 .tooShort
  let strength ← number 1 (.invalid .sealCutOff)
  let method ← number 2 .tooShort
  if vendor != 0x4541 then throw (.invalid .sealVendor)
  if version != 1 && version != 2 then throw (.invalid .sealVersion)
  if strength == 0 || 3 < strength then throw (.invalid .sealStrength)
  pure { e with method, isSealed := true }

def otherText (length : Nat) (replaced : List UInt8) : Reader (List UInt8 × String) := do
  skip 1 .tooShort
  let checksum ← number 4 .tooShort
  if length < 5 then throw (.invalid .otherNameTooShort)
  let bytes ← take (length - 5) .tooShort
  if (Crc32.ofBytes replaced.toByteArray).toNat != checksum then
    throw (.invalid .otherNameChecksum)
  match String.fromUTF8? bytes.toByteArray with
  | some text => pure (bytes, text)
  | none => throw (.invalid .otherNameNotText)

def field (e : ListedEntry) : Reader ListedEntry := do
  if (← get).length < 2 then
    set ([] : List UInt8)
    return e
  let kind ← number 2 .tooShort
  let length ← number 2 (.invalid .extraHeadCutOff)
  match kind with
  | 0x0001 => wideNumbers length e
  | 0x000a =>
    times length
    pure e
  | 0x5455 =>
    flaggedTimes length
    pure e
  | 0x9901 => sealing length e
  | 0x6375 =>
    let (_, comment) ← otherText length e.comment.toUTF8.data.toList
    pure { e with comment }
  | 0x7075 =>
    let (rawName, name) ← otherText length e.rawName
    pure { e with rawName, name }
  | _ =>
    skip length (.invalid .extraCutOff)
    pure e

def fields (e : ListedEntry) : Reader ListedEntry :=
  readRounds List.length id (fun e => do
    if (← get).isEmpty then pure (.done e) else return .again (← field e)) e

def extended (e : ListedEntry) (extra : List UInt8) : Except ArchiveFault ListedEntry := do
  let (e, _) ← fields e extra
  if e.method == 99 && !e.isSealed then throw (.invalid .noSeal)
  pure e

end ListedEntry
end DataClasses
