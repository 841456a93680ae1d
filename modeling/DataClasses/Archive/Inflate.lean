import DataClasses.Archive.Unpacking

/-!
# Deflated contents

The method by which archives mostly make contents shorter. Packed data is a row of blocks; a block
holds bytes as they are, or symbols in a prefix code. A symbol stands for a byte, for the end
of the block, or for a piece of what has been unpacked already. A wider form of the method allows
longer pieces from further back.
-/

set_option autoImplicit false

namespace DataClasses.Inflate

open Unpacking

def wordsUsed (lengths : List Nat) : Nat :=
  (lengths.filter (0 < ·)).foldl (fun n length => n + 1 <<< (15 - length)) 0

def isComplete (lengths : List Nat) : Bool := wordsUsed lengths == 1 <<< 15

/-- Whether a code may be used: it is complete, or it has no word but one of one bit. -/
def isUsable (lengths : List Nat) : Bool :=
  isComplete lengths || (lengths.all (· ≤ 1) && lengths.countP (0 < ·) ≤ 1)

def fixedLengths : List Nat :=
  List.replicate 144 8 ++ List.replicate 112 9 ++ List.replicate 24 7 ++ List.replicate 8 8

/-- The least lengths of the pieces for the symbols from 257 on, and the least distances by
symbol, each with the number of bits that follow. -/
structure Pieces where
  lengths : List (Nat × Nat)
  distances : List (Nat × Nat)

def sharedLengths : List (Nat × Nat) :=
  [(3, 0), (4, 0), (5, 0), (6, 0), (7, 0), (8, 0), (9, 0), (10, 0), (11, 1), (13, 1), (15, 1),
   (17, 1), (19, 2), (23, 2), (27, 2), (31, 2), (35, 3), (43, 3), (51, 3), (59, 3), (67, 4),
   (83, 4), (99, 4), (115, 4), (131, 5), (163, 5), (195, 5), (227, 5)]

def sharedDistances : List (Nat × Nat) :=
  [(1, 0), (2, 0), (3, 0), (4, 0), (5, 1), (7, 1), (9, 2), (13, 2), (17, 3), (25, 3), (33, 4),
   (49, 4), (65, 5), (97, 5), (129, 6), (193, 6), (257, 7), (385, 7), (513, 8), (769, 8),
   (1025, 9), (1537, 9), (2049, 10), (3073, 10), (4097, 11), (6145, 11), (8193, 12), (12289, 12),
   (16385, 13), (24577, 13)]

def Pieces.usual : Pieces := ⟨sharedLengths ++ [(258, 0)], sharedDistances⟩

def Pieces.wide : Pieces :=
  ⟨sharedLengths ++ [(3, 16)], sharedDistances ++ [(32769, 14), (49153, 14)]⟩

def sized (table : List (Nat × Nat)) (i : Nat) : Reader Nat :=
  match table[i]? with
  | some (least, width) => return least + (← lowBits width)
  | none => fail

def piece (pieces : Pieces) (distances : Code) (s : Nat) : Reader Unit := do
  let length ← sized pieces.lengths (s - 257)
  let distance ← sized pieces.distances (← symbol lowBit distances)
  if (← get).unpacked.size < distance then fail
  modify fun s => { s with unpacked := copyPiece distance length s.unpacked }

def symbols (pieces : Pieces) (literals distances : Code) : Reader Unit :=
  loop id (fun _ => do
    let s ← symbol lowBit literals
    if s == 256 then return .done ()
    if s < 256 then push s.toUInt8 else piece pieces distances s
    return .again ()) ()

def plainBytes : Nat → Reader Unit
  | 0 => pure ()
  | n + 1 => do
    push (← lowBits 8).toUInt8
    plainBytes n

def plainBlock : Reader Unit := do
  toByte
  let length ← lowBits 16
  let complement ← lowBits 16
  if length + complement == 65535 then plainBytes length else fail

def lengthOrder : List Nat :=
  [16, 17, 18, 0, 8, 7, 9, 6, 10, 5, 11, 4, 12, 3, 13, 2, 14, 1, 15]

def lengthCode : Nat → List Nat → List Nat → Reader Code
  | n + 1, place :: places, lengths => do
    let length ← lowBits 3
    lengthCode n places (lengths.set place length)
  | _, _, lengths => if isComplete lengths then pure (.ofLengths lengths) else fail

def lengths (code : Code) (count : Nat) : Reader (List Nat) :=
  loop id (fun acc => do
    if count ≤ acc.length then pure (.done acc)
    else
      match ← symbol lowBit code with
      | 16 =>
        match acc with
        | last :: _ => return .again (List.replicate (3 + (← lowBits 2)) last ++ acc)
        | [] => fail
      | 17 => return .again (List.replicate (3 + (← lowBits 3)) 0 ++ acc)
      | 18 => return .again (List.replicate (11 + (← lowBits 7)) 0 ++ acc)
      | n => pure (.again (n :: acc))) []

def ownCodes (pieces : Pieces) : Reader (Code × Code) := do
  let literals := 257 + (← lowBits 5)
  let distances := 1 + (← lowBits 5)
  let count := 4 + (← lowBits 4)
  if 286 < literals || pieces.distances.length < distances then fail
  let code ← lengthCode count lengthOrder (List.replicate 19 0)
  let all := (← lengths code (literals + distances)).reverse
  let own := all.take literals
  let back := all.drop literals
  if all.length == literals + distances && own.getD 256 0 != 0 && isUsable own && isUsable back then
    pure (.ofLengths own, .ofLengths back)
  else fail

def block (pieces : Pieces) : Reader Unit := do
  match ← lowBits 2 with
  | 0 => plainBlock
  | 1 =>
    let distances := List.replicate pieces.distances.length 5
    symbols pieces (.ofLengths fixedLengths) (.ofLengths distances)
  | 2 =>
    let (literals, distances) ← ownCodes pieces
    symbols pieces literals distances
  | _ => fail

def blocks (pieces : Pieces) : Reader Unit :=
  loop id (fun _ => do
    let last ← lowBit
    block pieces
    pure (if last == 1 then .done () else .again ())) ()

def unpack? (pieces : Pieces) (data : ByteArray) : Option ByteArray :=
  match (blocks pieces).run { data } with
  | .ok (_, s) => some s.unpacked
  | .error (.dataEnds unpacked) => some unpacked
  | .error _ => none

end DataClasses.Inflate
