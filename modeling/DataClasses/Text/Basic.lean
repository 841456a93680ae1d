/-!
# Characters and texts

The white space of Unicode and its control characters, sets of code points as ranges, texts with
points in them, hexadecimal digits, and texts as string literals of C#.
-/

set_option autoImplicit false

namespace DataClasses.Text

def isBlank (c : Char) : Bool :=
  let n := c.toNat
  (9 ≤ n && n ≤ 13) || n == 0x20 || n == 0x85 || n == 0xA0 || n == 0x1680 ||
    (0x2000 ≤ n && n ≤ 0x200A) || n == 0x2028 || n == 0x2029 || n == 0x202F ||
    n == 0x205F || n == 0x3000

def isControl (c : Char) : Bool :=
  let n := c.toNat
  n < 0x20 || (0x7F ≤ n && n ≤ 0x9F)

def allBlank (s : String) : Bool := s.toList.all isBlank

def inRanges (ranges : List (Nat × Nat)) (n : Nat) : Bool :=
  ranges.any fun r => r.1 ≤ n && n ≤ r.2

theorem inRanges_iff {ranges : List (Nat × Nat)} {n : Nat} :
    inRanges ranges n = true ↔ ∃ r ∈ ranges, r.1 ≤ n ∧ n ≤ r.2 := by
  simp [inRanges]

def dottedParts (text : String) : List String := (text.toList.splitOn '.').map String.ofList

theorem dottedParts_ne_nil (text : String) : dottedParts text ≠ [] := by
  simp [dottedParts, List.splitOn_ne_nil]

theorem intercalate_dottedParts (text : String) : ".".intercalate (dottedParts text) = text := by
  rw [← String.toList_inj, String.toList_intercalate, dottedParts, List.map_map]
  simp [Function.comp_def, List.intercalate_splitOn]

theorem dottedParts_intercalate {parts : List String} (hne : parts ≠ [])
    (h : ∀ p ∈ parts, '.' ∉ p.toList) : dottedParts (".".intercalate parts) = parts := by
  have hsplit : List.splitOn '.' (List.intercalate ['.'] (parts.map String.toList)) =
      parts.map String.toList := by
    refine List.splitOn_intercalate '.' ?_ (by simpa using hne)
    intro l hl
    obtain ⟨p, hp, rfl⟩ := List.mem_map.mp hl
    exact h p hp
  rw [dottedParts, String.toList_intercalate]
  rw [show ".".toList = ['.'] from rfl, hsplit, List.map_map]
  simp [Function.comp_def]

def hexDigit (n : Nat) : Char :=
  if n < 10 then Char.ofNat (48 + n) else Char.ofNat (87 + n)

def hexValue? (c : Char) : Option Nat :=
  if '0' ≤ c ∧ c ≤ '9' then some (c.toNat - 48)
  else if 'a' ≤ c ∧ c ≤ 'f' then some (c.toNat - 87)
  else if 'A' ≤ c ∧ c ≤ 'F' then some (c.toNat - 55)
  else none

def isHexDigit (c : Char) : Bool := (hexValue? c).isSome

def hexDigits : Nat → Nat → List Char
  | 0, _ => []
  | width + 1, n => hexDigits width (n / 16) ++ [hexDigit (n % 16)]

def hexNumber? : List Char → Option Nat :=
  List.foldlM (fun n c => (hexValue? c).map (16 * n + ·)) 0

theorem hexValue?_hexDigit {n : Nat} (h : n < 16) : hexValue? (hexDigit n) = some n := by
  have all : ∀ m ∈ List.range 16, hexValue? (hexDigit m) = some m := by decide
  exact all n (List.mem_range.mpr h)

theorem length_hexDigits (width n : Nat) : (hexDigits width n).length = width := by
  induction width generalizing n with
  | zero => rfl
  | succ width ih => simp [hexDigits, ih]

def hexOfBytes (bytes : List UInt8) : String :=
  String.ofList (bytes.flatMap fun b => hexDigits 2 b.toNat)

/-- A character of a string literal. Control characters and the two separators of lines and
paragraphs are escaped, so that a literal stays on its line. -/
def quoteChar (c : Char) : List Char :=
  match c with
  | '"' => ['\\', '"']
  | '\\' => ['\\', '\\']
  | '\n' => ['\\', 'n']
  | '\r' => ['\\', 'r']
  | '\t' => ['\\', 't']
  | '\x00' => ['\\', '0']
  | _ =>
    if isControl c || c == '\u2028' || c == '\u2029' then '\\' :: 'u' :: hexDigits 4 c.toNat
    else [c]

def quote (text : String) : String :=
  String.ofList ('"' :: text.toList.flatMap quoteChar ++ ['"'])

end DataClasses.Text
