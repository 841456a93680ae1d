import DataClasses.Archive.Zstd.Literals

/-!
# Zstandard

Frames of blocks. A block holds bytes as they are, one byte for all, or literals with sequences: a
sequence takes some literals and then a piece of what has been unpacked already. The lengths and
the distances are written with three machines. Checksums are passed over.
-/

set_option autoImplicit false

namespace DataClasses.Zstd

open Unpacking

abbrev Sizes := List (Nat × Nat)

def literalSizes : Sizes :=
  (List.range 16).map (·, 0) ++
    [(16, 1), (18, 1), (20, 1), (22, 1), (24, 2), (28, 2), (32, 3), (40, 3), (48, 4), (64, 6)] ++
    (List.range 10).map fun n => (1 <<< (n + 7), n + 7)

def pieceSizes : Sizes :=
  (List.range 32).map (fun n => (n + 3, 0)) ++
    [(35, 1), (37, 1), (39, 1), (41, 1), (43, 2), (47, 2), (51, 3), (59, 3), (67, 4), (83, 4),
     (99, 5)] ++
    (List.range 10).map fun n => (1 <<< (n + 7) + 3, n + 7)

def distanceSizes : Sizes := (List.range 32).map fun n => (1 <<< n, n)

/-- What is written of one of the three numbers of sequences: the sizes by symbol, the machine that
is taken if none comes, and how wide a machine may be. -/
structure Kind where
  sizes : Sizes
  usual : StateTable
  widest : Nat

def literalKind : Kind where
  sizes := literalSizes
  usual := .ofShares 6
    ([4, 3] ++ List.replicate 11 2 ++ [1, 1, 1] ++ List.replicate 9 2 ++ [3, 2] ++
      List.replicate 5 1 ++ List.replicate 4 (-1))
  widest := 9

def pieceKind : Kind where
  sizes := pieceSizes
  usual := .ofShares 6
    ([1, 4, 3] ++ List.replicate 6 2 ++ List.replicate 37 1 ++ List.replicate 7 (-1))
  widest := 9

def distanceKind : Kind where
  sizes := distanceSizes
  usual := .ofShares 5
    (List.replicate 6 1 ++ [2, 2, 2] ++ List.replicate 15 1 ++ List.replicate 5 (-1))
  widest := 8

structure Memory where
  code : Option ByteCode := none
  literals : Option StateTable := none
  distances : Option StateTable := none
  pieces : Option StateTable := none
  recent : List Nat := [1, 4, 8]

def machine (kind : Kind) (before : Option StateTable) : Nat → Reader StateTable
  | 0 => pure kind.usual
  | 1 => return .single (← lowBits 8)
  | 2 => stateTable kind.sizes.length kind.widest
  | _ => wanted before

def sequenceCount : Reader Nat := do
  let first ← lowBits 8
  if first < 128 then return first
  let second ← lowBits 8
  if first < 255 then return 256 * (first - 128) + second
  return 0x7f00 + second + 256 * (← lowBits 8)

def sized (sizes : Sizes) (t : StateTable) (state : Nat) : BackReader Nat := do
  match sizes[(t.cell state).symbol]? with
  | some (least, width) => return least + (← takeBack width)
  | none => failure

def nextState (t : StateTable) (state : Nat) : BackReader Nat := do
  let cell := t.cell state
  return cell.least + (← takeBack cell.width)

/-- The distance that is meant and the last three with it. The first three numbers stand for the
last distances, and behind no literals for the second, the third, and one less than the first. -/
def meant (number literals : Nat) (recent : List Nat) : List Nat :=
  if 3 < number then (number - 3) :: recent.take 2
  else
    let place := if literals == 0 then number else number - 1
    if place < 3 then toFront recent place else (recent.headD 0 - 1) :: recent.take 2

structure Work where
  literals : ByteArray
  used : Nat := 0
  recent : List Nat
  unpacked : ByteArray

def Work.sequence? (start count number length : Nat) (w : Work) : Option Work :=
  let recent := meant number count w.recent
  let distance := recent.headD 0
  let unpacked := w.unpacked ++ w.literals.extract w.used (w.used + count)
  if w.literals.size < w.used + count || distance == 0 || unpacked.size - start < distance then none
  else
    some { w with
      used := w.used + count
      recent
      unpacked := copyPiece distance length unpacked }

/-- Reads sequences and does what they say. The states are those of literals, distances and
pieces; behind the last sequence there are no more. -/
def sequences (start : Nat) (literals distances pieces : StateTable) :
    Nat → Nat × Nat × Nat → Work → BackReader Work
  | 0, _, w => pure w
  | n + 1, (l, d, p), w => do
    let number ← sized distanceSizes distances d
    let length ← sized pieceSizes pieces p
    let count ← sized literalSizes literals l
    match w.sequence? start count number length with
    | none => failure
    | some w =>
      if n == 0 then return w
      let l ← nextState literals l
      let p ← nextState pieces p
      let d ← nextState distances d
      sequences start literals distances pieces n (l, d, p) w

def sequencesOf? (start count : Nat) (literals distances pieces : StateTable) (w : Work)
    (data : ByteArray) : Option Work := do
  let all : BackReader Work := do
    let l ← takeBack literals.width
    let d ← takeBack distances.width
    let p ← takeBack pieces.width
    sequences start literals distances pieces count (l, d, p) w
  let (w, b) ← all.run (← Backward.ofBytes? data)
  if b.left == 0 then some w else none

def packedBlock (start : Nat) (m : Memory) : Reader Memory := do
  let (content, code) ← literals m.code
  let count ← sequenceCount
  let w : Work := { literals := content, recent := m.recent, unpacked := (← get).unpacked }
  if count == 0 then
    modify fun s => { s with unpacked := s.unpacked ++ content }
    return { m with code }
  let rest ← lowBits 2
  if rest != 0 then fail
  let ofPieces ← lowBits 2
  let ofDistances ← lowBits 2
  let ofLiterals ← lowBits 2
  let literals ← machine literalKind m.literals ofLiterals
  let distances ← machine distanceKind m.distances ofDistances
  let pieces ← machine pieceKind m.pieces ofPieces
  let s ← get
  let data ← bytes (s.data.size - s.position / 8)
  let w ← wanted (sequencesOf? start count literals distances pieces w data)
  modify fun s => { s with unpacked := w.unpacked ++ content.extract w.used content.size }
  return ⟨code, literals, distances, pieces, w.recent⟩

def innerBlock (start : Nat) (m : Memory) (data : ByteArray) : Reader Memory := do
  let s ← get
  match (packedBlock start m).run { data, unpacked := s.unpacked } with
  | .ok (m, inner) =>
    set { s with unpacked := inner.unpacked }
    return m
  | .error _ => fail

def frameBlocks (start most : Nat) : Reader Unit :=
  loop (fun _ => ()) (fun m => do
    let last ← lowBit
    let form ← lowBits 2
    let size ← lowBits 21
    if form != 1 && most < size then fail
    let m ← match form with
      | 0 =>
        let content ← bytes size
        modify fun s => { s with unpacked := s.unpacked ++ content }
        pure m
      | 1 =>
        let content : ByteArray := ⟨Array.replicate size (← lowBits 8).toUInt8⟩
        modify fun s => { s with unpacked := s.unpacked ++ content }
        pure m
      | 2 => innerBlock start m (← bytes size)
      | _ => fail
    return if last == 1 then .done () else .again m) ({} : Memory)

def window : Reader Nat := do
  let eighths ← lowBits 3
  return (8 + eighths) <<< (7 + (← lowBits 5))

def contentSize (form : Nat) (isSingle : Bool) : Reader (Option Nat) := do
  match form with
  | 0 => if isSingle then return some (← lowBits 8) else return none
  | 1 => return some (256 + (← lowBits 16))
  | 2 => return some (← lowBits 32)
  | _ => return some (← lowBits 64)

/-- A frame behind its mark. Its head may tell how far back pieces reach, a dictionary, which is
passed over, and how long the content is. -/
def frame : Reader Unit := do
  let dictionary ← lowBits 2
  let hasChecksum ← lowBit
  let reserved ← lowBit
  let _ ← lowBit
  let isSingle ← lowBit
  let form ← lowBits 2
  if reserved == 1 then fail
  let reach ← if isSingle == 1 then pure 0 else window
  let _ ← bytes ([0, 1, 2, 4].getD dictionary 0)
  let told ← contentSize form (isSingle == 1)
  let reach := if isSingle == 1 then told.getD 0 else reach
  let start := (← get).unpacked.size
  frameBlocks start (min reach (1 <<< 17))
  let size := (← get).unpacked.size - start
  if told.any (· != size) then fail
  if hasChecksum == 1 then
    let _ ← bytes 4

/-- Frames up to the end of the data; there has to be one. Frames with marks of another kind are
passed over. -/
def frames : Reader Unit := do
  if (← get).data.size == 0 then throw (.dataEnds ByteArray.empty)
  loop id (fun _ => do
    let s ← get
    if 8 * s.data.size ≤ s.position then return .done ()
    let first ← lowBits 8
    if first == 0x28 then
      expect lowBits .foreign [0xb5, 0x2f, 0xfd]
      frame
    else if first / 16 == 5 then
      expect lowBits .foreign [0x2a, 0x4d, 0x18]
      let _ ← bytes (← lowBits 32)
    else throw .foreign
    return .again ()) ()

def unpack (data : ByteArray) : Except Halt ByteArray :=
  (frames.run { data }).map fun x => x.2.unpacked

end DataClasses.Zstd
