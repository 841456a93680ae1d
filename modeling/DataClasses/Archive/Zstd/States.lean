import DataClasses.Archive.Unpacking

/-!
# Tables of states

A symbol is written as a state of a machine: the state tells the symbol, and together with the bits
that follow it the next state. A symbol has a share of all states, and the more of them it has, the
fewer bits follow. Data in this form is read from its end to its beginning.
-/

set_option autoImplicit false

namespace DataClasses.Zstd

open Unpacking

structure Backward where
  data : ByteArray
  left : Nat

abbrev BackReader := StateT Backward Option

def bitsAt (data : ByteArray) (start width : Nat) : Nat :=
  (List.range width).foldr
    (fun n high =>
      let place := start + n
      (data[place / 8]?.getD 0).toNat >>> (place % 8) % 2 + 2 * high) 0

/-- Data begins, at its end, behind the last bit that is one. -/
def Backward.ofBytes? (data : ByteArray) : Option Backward :=
  match data[data.size - 1]? with
  | none => none
  | some last =>
    if last == 0 then none else some ⟨data, 8 * (data.size - 1) + Nat.log2 last.toNat⟩

def takeBack (width : Nat) : BackReader Nat := do
  let b ← get
  if b.left < width then failure
  set { b with left := b.left - width }
  return bitsAt b.data (b.left - width) width

structure StateCell where
  symbol : Nat
  width : Nat
  least : Nat

structure StateTable where
  width : Nat
  cells : Array StateCell

def StateTable.cell (t : StateTable) (state : Nat) : StateCell := t.cells[state]?.getD ⟨0, 0, 0⟩

def StateTable.single (symbol : Nat) : StateTable := ⟨0, #[⟨symbol, 0, 0⟩]⟩

def frequent (shares : List Int) : List Nat :=
  shares.zipIdx.flatMap fun (share, symbol) => List.replicate share.toNat symbol

def rare (shares : List Int) : List Nat :=
  shares.zipIdx.filterMap fun (share, symbol) => if share < 0 then some symbol else none

/-- The symbols by states. The rare ones have the last states; the others are scattered over the
rest in wide steps. -/
def scattered (width : Nat) (shares : List Int) : Array Nat :=
  let size := 1 <<< width
  let last := rare shares
  let stride := size / 2 + size / 8 + 3
  let places :=
    ((List.range size).map fun n => n * stride % size).filter fun n => n < size - last.length
  let placed := places.zip (frequent shares) ++
    last.zipIdx.map fun (symbol, n) => (size - 1 - n, symbol)
  placed.foldl (fun symbols (place, symbol) => symbols.setIfInBounds place symbol)
    (Array.replicate size 0)

/-- The machine in which symbols have some shares, -1 for the rare ones. The states of a symbol are
numbered from its share on, and the greater a number the fewer bits follow. -/
def StateTable.ofShares (width : Nat) (shares : List Int) : StateTable :=
  let first := (shares.map fun share => if share < 0 then 1 else share.toNat).toArray
  let cells := (scattered width shares).foldl
    (fun (next, cells) symbol =>
      let number : Nat := next[symbol]?.getD 1
      let follow := width - Nat.log2 number
      (next.setIfInBounds symbol (number + 1),
        cells.push ⟨symbol, follow, number <<< follow - 1 <<< width⟩))
    (first, (#[] : Array StateCell))
  ⟨width, cells.2⟩

def absent : Reader Nat :=
  loop id (fun count => do
    let more ← lowBits 2
    return if more == 3 then .again (count + 3) else .done (count + more)) 0

def numberUpTo (bound : Nat) : Reader Nat := do
  let width := Nat.log2 bound
  let short := 1 <<< (width + 1) - 1 - bound
  let low ← lowBits width
  if low < short then return low
  if (← lowBit) == 0 then return low
  return low + 1 <<< width - short

def shares (most states : Nat) : Reader (List Int) := do
  let all ← loop (fun x => x.2) (fun (left, acc) => do
    if left == 0 then return .done acc
    let number ← numberUpTo (left + 1)
    let acc := ((number : Int) - 1) :: acc
    if number == 1 then return .again (left, List.replicate (← absent) 0 ++ acc)
    return .again (left - (if number == 0 then 1 else number - 1), acc)) (states, [])
  if most < all.length then fail
  toByte
  return all.reverse

def stateTable (most widest : Nat) : Reader StateTable := do
  let width := 5 + (← lowBits 4)
  if widest < width then fail
  return .ofShares width (← shares most (1 <<< width))

end DataClasses.Zstd
