/-!
# Text from bytes

Two ways to read bytes as text. As old programs write names, each byte is a character of code page
437: ASCII, and 128 characters more. As UTF-8, each piece that is none is one replacement character;
a piece ends where no character can go on as it does.
-/

set_option autoImplicit false

namespace DataClasses.Text.Page437

def upper : List Char :=
  ("ÇüéâäàåçêëèïîìÄÅÉæÆôöòûùÿÖÜ¢£¥₧ƒ" ++
    "áíóúñÑªº¿⌐¬½¼¡«»░▒▓│┤╡╢╖╕╣║╗╝╜╛┐" ++
    "└┴┬├─┼╞╟╚╔╩╦╠═╬╧╨╤╥╙╘╒╓╫╪┘┌█▄▌▐▀" ++
    "αßΓπΣσµτΦΘΩδ∞φε∩≡±≥≤⌠⌡÷≈°∙·√ⁿ²■\u00a0").toList

def char (byte : UInt8) : Char :=
  if byte < 128 then Char.ofNat byte.toNat else upper.getD (byte.toNat - 128) '?'

def decode (bytes : List UInt8) : String := String.ofList (bytes.map char)

end DataClasses.Text.Page437

namespace DataClasses.Text.Repaired

def follow? (lead : Nat) : Option (Nat × Nat × Nat) :=
  if lead < 0xC2 || 0xF4 < lead then none
  else if lead < 0xE0 then some (1, 0x80, 0xBF)
  else if lead < 0xF0 then
    some (2, if lead == 0xE0 then 0xA0 else 0x80, if lead == 0xED then 0x9F else 0xBF)
  else some (3, if lead == 0xF0 then 0x90 else 0x80, if lead == 0xF4 then 0x8F else 0xBF)

def following : Nat → Nat → Nat → Nat → List UInt8 → Option Nat × List UInt8
  | 0, _, _, sum, bytes => (some sum, bytes)
  | _ + 1, _, _, _, [] => (none, [])
  | count + 1, low, high, sum, byte :: bytes =>
    if low ≤ byte.toNat && byte.toNat ≤ high then
      following count 0x80 0xBF (64 * sum + (byte.toNat - 0x80)) bytes
    else (none, byte :: bytes)

theorem following_length_le (count low high sum : Nat) (bytes : List UInt8) :
    (following count low high sum bytes).2.length ≤ bytes.length := by
  fun_induction following count low high sum bytes with
  | case1 => exact Nat.le_refl _
  | case2 => exact Nat.le_refl _
  | case3 _ _ _ _ _ _ _ ih => exact Nat.le_succ_of_le ih
  | case4 => exact Nat.le_refl _

def leadBits (lead count : Nat) : Nat := lead % 1 <<< (6 - count)

def chars : List UInt8 → List Char
  | [] => []
  | byte :: bytes =>
    if byte < 128 then Char.ofNat byte.toNat :: chars bytes
    else
      match follow? byte.toNat with
      | none => '\ufffd' :: chars bytes
      | some (count, low, high) =>
        let next := following count low high (leadBits byte.toNat count) bytes
        (match next.1 with
          | some n => Char.ofNat n
          | none => '\ufffd') :: chars next.2
termination_by bytes => bytes.length
decreasing_by
  · simp
  · simp
  · exact Nat.lt_succ_of_le (following_length_le ..)

def decode (bytes : List UInt8) : String := String.ofList (chars bytes)

end DataClasses.Text.Repaired
