import DataClasses.Identifier.Naming

/-!
# What identifiers are made of

No blank is a character of an identifier, and the upper case of a character that may begin
one may begin one too. Hence every key becomes an identifier, in either style.
-/

set_option autoImplicit false

namespace DataClasses.Identifier

theorem of_ascii {p : Char → Bool} (hp : ∀ n < 128, p (Char.ofNat n) = true) {c : Char}
    (hc : c.toNat < 128) : p c = true := by
  have h := hp c.toNat hc
  rwa [Char.ofNat_toNat] at h

def wideBlanks : List (Nat × Nat) :=
  [(0x85, 0x85), (0xA0, 0xA0), (0x1680, 0x1680), (0x2000, 0x200A), (0x2028, 0x2029),
   (0x202F, 0x202F), (0x205F, 0x205F), (0x3000, 0x3000)]

theorem in_wideBlanks {c : Char} (hc : 128 ≤ c.toNat) (h : Text.isBlank c = true) :
    Text.inRanges wideBlanks c.toNat = true := by
  simp only [Text.isBlank, Bool.or_eq_true, Bool.and_eq_true, decide_eq_true_eq, beq_iff_eq] at h
  simp only [wideBlanks, Text.inRanges, List.any_cons, List.any_nil, Bool.or_eq_true,
    Bool.and_eq_true, decide_eq_true_eq]
  omega

theorem wideBlanks_apart : (Letters.ranges ++ Marks.ranges).all (fun q =>
    wideBlanks.all fun b => q.2 < b.1 || b.2 < q.1) = true := by
  decide +kernel

theorem wideBlank_not_part {n : Nat} (h : Text.inRanges wideBlanks n = true) :
    Text.inRanges (Letters.ranges ++ Marks.ranges) n = false := by
  obtain ⟨b, hb, hb1, hb2⟩ := Text.inRanges_iff.mp h
  cases hn : Text.inRanges (Letters.ranges ++ Marks.ranges) n with
  | false => rfl
  | true =>
    obtain ⟨q, hq, hq1, hq2⟩ := Text.inRanges_iff.mp hn
    have apart := List.all_eq_true.mp (List.all_eq_true.mp wideBlanks_apart q hq) b hb
    simp only [Bool.or_eq_true, decide_eq_true_eq] at apart
    omega

theorem blank_not_part {c : Char} (h : Text.isBlank c = true) : isPart c = false := by
  by_cases hc : c.toNat < 128
  · have ascii : (!Text.isBlank c || !isPart c) = true :=
      of_ascii (p := fun c => !Text.isBlank c || !isPart c) (by decide) hc
    simpa [h] using ascii
  · have apart := wideBlank_not_part (in_wideBlanks (by omega) h)
    simpa [isPart, isStart, isMark, hc, Text.inRanges] using apart

theorem part_not_blank {c : Char} (h : isPart c = true) : Text.isBlank c = false := by
  cases hb : Text.isBlank c with
  | false => rfl
  | true => simp [blank_not_part hb] at h

theorem digit_lt {c : Char} (h : c.isDigit = true) : c.toNat < 128 := by
  simp only [Char.isDigit, Bool.and_eq_true, decide_eq_true_eq, UInt32.le_iff_toNat_le] at h
  have : c.val.toNat = c.toNat := rfl
  have : '9'.val.toNat = 57 := rfl
  omega

theorem digit_part {c : Char} (h : c.isDigit = true) : isPart c = true := by
  simp [isPart, isMark, digit_lt h, h]

theorem digit_not_start {c : Char} (h : c.isDigit = true) : isStart c = false := by
  have ascii : (!c.isDigit || !isStart c) = true :=
    of_ascii (p := fun c => !c.isDigit || !isStart c) (by decide) (digit_lt h)
  simpa [h] using ascii

def runPoints (r : Text.CaseRun) : List Nat :=
  (List.range ((r.last - r.first) / r.step + 1)).map fun i => r.first + i * r.step

theorem mem_runPoints {r : Text.CaseRun} {n : Nat} (h : r.covers n = true) : n ∈ runPoints r := by
  simp only [Text.CaseRun.covers, Bool.and_eq_true, decide_eq_true_eq, beq_iff_eq] at h
  obtain ⟨⟨hf, hl⟩, hm⟩ := h
  have hn : r.first + (n - r.first) / r.step * r.step = n := by
    have := Nat.div_add_mod (n - r.first) r.step
    rw [hm, Nat.mul_comm] at this
    omega
  rw [runPoints, List.mem_map]
  refine ⟨(n - r.first) / r.step, List.mem_range.mpr ?_, hn⟩
  exact Nat.lt_succ_of_le (Nat.div_le_div_right (by omega))

def runTarget (r : Text.CaseRun) (n : Nat) : Nat := (n + r.shift).toNat

def keepsLetters (r : Text.CaseRun) : Bool :=
  Letters.ranges.any (fun q => q.1 ≤ runTarget r r.first && runTarget r r.last ≤ q.2) ||
    Letters.ranges.all (fun q => q.2 < r.first || r.last < q.1) ||
    (runPoints r).all fun n => isStart (Char.ofNat (runTarget r n))

theorem runs_keep_letters : Text.caseRuns.all keepsLetters = true := by decide +kernel

theorem letters_are_characters :
    Letters.ranges.all (fun q => 128 ≤ q.1 && (q.2 < 0xD800 || (0xE000 ≤ q.1 && q.2 < 0x110000)))
      = true := by
  decide +kernel

theorem isStart_ofNat {n : Nat} (h : Text.inRanges Letters.ranges n = true) :
    isStart (Char.ofNat n) = true := by
  obtain ⟨q, hq, hlow, hhigh⟩ := Text.inRanges_iff.mp h
  have hc := List.all_eq_true.mp letters_are_characters q hq
  simp only [Bool.and_eq_true, Bool.or_eq_true, decide_eq_true_eq] at hc
  have hv : n.isValidChar := by simp only [Nat.isValidChar]; omega
  have hn : (Char.ofNat n).toNat = n := by
    rw [Char.ofNat, dif_pos hv]
    rfl
  rw [isStart, hn, if_neg (by omega)]
  exact h

theorem start_runTarget {r : Text.CaseRun} (hr : r ∈ Text.caseRuns) {n : Nat}
    (hn : r.covers n = true) (h : Text.inRanges Letters.ranges n = true) :
    isStart (Char.ofNat (runTarget r n)) = true := by
  have hk := List.all_eq_true.mp runs_keep_letters r hr
  have hc : r.first ≤ n ∧ n ≤ r.last := by
    simp only [Text.CaseRun.covers, Bool.and_eq_true, decide_eq_true_eq] at hn
    exact hn.1
  simp only [keepsLetters, Bool.or_eq_true, List.any_eq_true, Bool.and_eq_true,
    List.all_eq_true, decide_eq_true_eq] at hk
  rcases hk with (⟨q, hq, hlow, hhigh⟩ | hapart) | hpoints
  · apply isStart_ofNat
    refine Text.inRanges_iff.mpr ⟨q, hq, ?_, ?_⟩ <;> simp only [runTarget] at * <;> omega
  · obtain ⟨q, hq, hlow, hhigh⟩ := Text.inRanges_iff.mp h
    have := hapart q hq
    omega
  · exact hpoints n (mem_runPoints hn)

/-- A letter that has an upper case has a letter for it. -/
theorem start_upperChar {c : Char} (h : isStart c = true) : isStart (Text.upperChar c) = true := by
  by_cases hc : c.toNat < 128
  · have ascii : (!isStart c || isStart (Text.upperChar c)) = true :=
      of_ascii (p := fun c => !isStart c || isStart (Text.upperChar c)) (by decide) hc
    simpa [h] using ascii
  · have hl : Text.inRanges Letters.ranges c.toNat = true := by simpa [isStart, hc] using h
    simp only [Text.upperChar, hc, if_false, Text.upperOutsideAscii]
    split
    · next r hr => exact start_runTarget (List.mem_of_find?_eq_some hr) (List.find?_some hr :) hl
    · rwa [Char.ofNat_toNat]

end DataClasses.Identifier
