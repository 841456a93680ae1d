import DataClasses.Proofs.Timestamp.Layouts

/-!
# Which texts are timestamps

A date and time in its documented shape has four digits for the year and two for every other field, a
`T` between date and time, and perhaps seconds with a fraction and an offset. What is accepted is
wider: the exact set of accepted texts, and which of them have another shape than the documented one.
-/

set_option autoImplicit false

namespace DataClasses.Timestamp

def Moment.Documented : Moment → Prop :=
  Written (IsDigits 4) (IsDigits 2) ['T', 't'] fun hasSecond offset =>
    offset = [] ∨ hasSecond = true ∧ IsOffset ['+', '-'] offset

def IsDocumented (cs : List Char) : Prop := IsEpochText cs ∨ ∃ m : Moment, m.chars = cs ∧ m.Documented

/-- A text that is accepted though it has none of the documented shapes: it has a blank for the
separator or another sign before the offset, or a year or field of other than the documented digits. -/
def IsLoose (cs : List Char) : Prop :=
  ∃ m : Moment, m.chars = cs ∧
    (m.Internet ∧ (m.separator = ' ' ∨ m.offset.head? = some '\u2212') ∨
      m.Local ∧ ¬m.Documented)

def IsPart (cs : List Char) : Prop :=
  ∃ lead ds, cs = lead ++ ds ∧ (∀ c ∈ lead, c.isDigit = false) ∧ AllDigits ds ∧ 1 ≤ ds.length

theorem not_digit_of_blank {c : Char} (h : Text.isBlank c = true) : c.isDigit = false := by
  cases hc : c.isDigit with
  | false => rfl
  | true => rw [not_blank_of_digit hc] at h; contradiction

theorem IsDigits.isPart {count : Nat} {cs : List Char} (h : IsDigits (count + 1) cs) : IsPart cs :=
  ⟨[], cs, rfl, List.forall_mem_nil _, h.1, h.2 ▸ Nat.le_add_left 1 count⟩

theorem IsField.isPart {cs : List Char} (h : IsField cs) : IsPart cs := by
  obtain ⟨blanks, ds, rfl, hblanks, hds, hone, -⟩ := h
  exact ⟨blanks, ds, rfl, fun c hc => not_digit_of_blank (hblanks c hc), hds, hone⟩

theorem IsYear.isPart {cs : List Char} (h : IsYear cs) : IsPart cs := by
  obtain ⟨blanks, sign, ds, rfl, hblanks, hds, hone, hsign⟩ := h
  refine ⟨blanks ++ sign, ds, (List.append_assoc ..).symm, ?_, hds, hone⟩
  rw [List.forall_mem_append]
  refine ⟨fun c hc => not_digit_of_blank (hblanks c hc), ?_⟩
  rcases hsign with ⟨rfl, -⟩ | rfl | rfl
  · exact List.forall_mem_nil _
  · exact List.forall_mem_singleton.mpr rfl
  · exact List.forall_mem_singleton.mpr rfl

/-- Where a text begins with digits, a part of it is these digits. -/
theorem part_unique {count : Nat} {ds cs rest left : List Char} (hds : IsDigits (count + 1) ds)
    (hcs : IsPart cs) (hrest : Stops rest) (hleft : Stops left) (h : ds ++ rest = cs ++ left) :
    ds = cs ∧ rest = left := by
  obtain ⟨lead, es, rfl, hlead, hes, -⟩ := hcs
  cases lead with
  | nil => exact run_unique hds.1 hes hrest hleft h
  | cons c lead =>
    have hdigit := head_digits hds.1 (hds.2 ▸ Nat.le_add_left 1 count) rest c (by rw [h]; rfl)
    rw [hlead c List.mem_cons_self] at hdigit
    contradiction

theorem fraction_unique {fraction other rest left : List Char} (hfraction : IsFraction fraction)
    (hother : IsFraction other) (hrest : Stops rest ∧ rest.head? ≠ some '.')
    (hleft : Stops left ∧ left.head? ≠ some '.') (h : fraction ++ rest = other ++ left) :
    rest = left := by
  rcases hfraction with rfl | ⟨ds, rfl, hds, -⟩ <;> rcases hother with rfl | ⟨es, rfl, hes, -⟩
  · exact h
  · exact absurd (congrArg List.head? h) hrest.2
  · exact absurd (congrArg List.head? h).symm hleft.2
  · exact (run_unique hds hes hrest.1 hleft.1 (List.tail_eq_of_cons_eq h)).2

theorem IsOffset.mono {signs more offset : List Char} (hsigns : signs ⊆ more) (h : IsOffset signs offset) :
    IsOffset more offset := by
  rcases h with h | h | ⟨sign, hours, minutes, heq, hsign, hwritten⟩
  · exact .inl h
  · exact .inr (.inl h)
  · exact .inr (.inr ⟨sign, hours, minutes, heq, hsigns hsign, hwritten⟩)

namespace Moment

variable {m n : Moment}

theorem stops_seconds (second : List Char × List Char) (rest : List Char) :
    Stops (secondChars (some second) ++ rest) := stops_cons (by decide)

/-- A documented moment has no offset without a second. -/
theorem Documented.stops (h : n.Documented) : Stops (secondChars n.second ++ n.offset) := by
  cases hsecond : n.second with
  | some second => exact stops_seconds second _
  | none =>
    have hoffset := h.offset
    simp only [hsecond, Option.isSome_none, Bool.false_eq_true, false_and, or_false] at hoffset
    rw [hoffset]
    exact nofun

theorem Documented.stops_offset (h : n.Documented) : Stops n.offset ∧ n.offset.head? ≠ some '.' := by
  rcases h.offset with hnone | ⟨-, hoffset⟩
  · rw [hnone]
    exact ⟨nofun, by simp⟩
  · exact (hoffset.mono (by decide)).stops

/-- A moment of the characters of a documented one has the same parts up to the minute. -/
theorem Documented.parts (hn : n.Documented) (hyear : IsPart m.year)
    (hfields : ∀ part ∈ m.fields, IsPart part)
    (hseparator : m.separator.isDigit = false) (hstops : Stops (secondChars m.second ++ m.offset))
    (h : n.chars = m.chars) :
    n.year = m.year ∧ n.fields = m.fields ∧ n.separator = m.separator ∧
      secondChars n.second ++ n.offset = secondChars m.second ++ m.offset := by
  obtain ⟨isMonth, isDay, isHour, isMinute⟩ :
      IsDigits 2 n.month ∧ IsDigits 2 n.day ∧ IsDigits 2 n.hour ∧ IsDigits 2 n.minute := by
    simpa [fields] using hn.fields
  obtain ⟨hmonth, hday, hhour, hminute⟩ :
      IsPart m.month ∧ IsPart m.day ∧ IsPart m.hour ∧ IsPart m.minute := by
    simpa [fields] using hfields
  have hdash (cs : List Char) : Stops ('-' :: cs) := stops_cons (by decide)
  have hcolon (cs : List Char) : Stops (':' :: cs) := stops_cons (by decide)
  have hown : n.separator.isDigit = false := by
    rcases List.mem_cons.mp hn.separator with hsame | hsame
    · rw [hsame]; decide
    · rw [List.mem_singleton.mp hsame]; decide
  obtain ⟨sameYear, h⟩ := part_unique hn.year hyear (hdash _) (hdash _) h
  obtain ⟨sameMonth, h⟩ := part_unique isMonth hmonth (hdash _) (hdash _) (List.tail_eq_of_cons_eq h)
  obtain ⟨sameDay, h⟩ := part_unique isDay hday (stops_cons hown) (stops_cons hseparator)
    (List.tail_eq_of_cons_eq h)
  have sameSeparator := List.head_eq_of_cons_eq h
  obtain ⟨sameHour, h⟩ := part_unique isHour hhour (hcolon _) (hcolon _) (List.tail_eq_of_cons_eq h)
  obtain ⟨sameMinute, h⟩ := part_unique isMinute hminute hn.stops hstops (List.tail_eq_of_cons_eq h)
  exact ⟨sameYear, by simp [fields, sameMonth, sameDay, sameHour, sameMinute], sameSeparator, h⟩

/-- A documented moment has a second if what follows its minute begins with one, and the same one. -/
theorem Documented.second_of_tail (hn : n.Documented) {second fraction rest : List Char}
    (hsecond : IsPart second) (hrest : Stops (fraction ++ rest))
    (h : secondChars n.second ++ n.offset = secondChars (some (second, fraction)) ++ rest) :
    IsDigits 2 second ∧ ∃ other, IsFraction other ∧ other ++ n.offset = fraction ++ rest := by
  cases hown : n.second with
  | none =>
    have hoffset := hn.offset
    simp only [hown, Option.isSome_none, Bool.false_eq_true, false_and, or_false] at hoffset
    rw [hown, hoffset] at h
    contradiction
  | some s =>
    obtain ⟨ownSecond, ownFraction⟩ := s
    obtain ⟨hdigits, hfraction⟩ := hn.second _ hown
    rw [hown] at h
    simp only [secondChars, List.cons_append, List.append_assoc, List.cons.injEq, true_and] at h
    obtain ⟨rfl, hsame⟩ := part_unique hdigits hsecond (hfraction.stops hn.stops_offset.1) hrest h
    exact ⟨hdigits, ownFraction, hfraction, hsame⟩

theorem Local.documented (hm : m.Local) (hn : n.Documented) (h : n.chars = m.chars) : m.Documented := by
  obtain ⟨-, hyear, hfields, hseparator, hsecond, hoffset⟩ := hm
  have hT : m.separator = 'T' := List.mem_singleton.mp hseparator
  have hstops : Stops (secondChars m.second ++ m.offset) := by
    rw [hoffset, List.append_nil]
    cases m.second with
    | none => exact nofun
    | some second => exact stops_cons (by decide)
  have hparts : ∀ part ∈ m.fields, IsPart part := fun part hpart => (hfields part hpart).isPart
  obtain ⟨sameYear, sameFields, -, htail⟩ :=
    hn.parts hyear.isPart hparts (by rw [hT]; decide) hstops h
  refine ⟨sameYear ▸ hn.year, sameFields ▸ hn.fields, by rw [hT]; decide, ?_, .inl hoffset⟩
  rintro ⟨second, fraction⟩ hsome
  obtain ⟨hfield, hfraction⟩ := hsecond _ hsome
  rw [Option.mem_def.mp hsome] at htail
  have hrest : Stops (fraction ++ m.offset) := hfraction.stops (by rw [hoffset]; exact nofun)
  exact ⟨(hn.second_of_tail hfield.isPart hrest htail).1, hfraction⟩

theorem Internet.not_loose (hm : m.Internet) (hn : n.Documented) (h : n.chars = m.chars) :
    m.separator ≠ ' ' ∧ m.offset.head? ≠ some '\u2212' := by
  obtain ⟨-, hyear, hfields, hseparator, hsecond, hsome, hoffset⟩ := hm
  obtain ⟨⟨second, fraction⟩, hsome⟩ := Option.isSome_iff_exists.mp hsome
  obtain ⟨hdigits, hfraction⟩ := hsecond _ hsome
  have hdigit : m.separator.isDigit = false := by
    have hall : ['T', 't', ' '].all (!·.isDigit) = true := by decide
    simpa using List.all_eq_true.mp hall _ hseparator
  have hrest : Stops (fraction ++ m.offset) := hfraction.stops hoffset.stops.1
  have hparts : ∀ part ∈ m.fields, IsPart part := fun part hpart => (hfields part hpart).isPart
  obtain ⟨-, -, sameSeparator, htail⟩ :=
    hn.parts hyear.isPart hparts hdigit (by rw [hsome]; exact stops_seconds _ _) h
  rw [hsome] at htail
  obtain ⟨-, other, hother, hsame⟩ := hn.second_of_tail hdigits.isPart hrest htail
  have sameOffset := fraction_unique hother hfraction hn.stops_offset hoffset.stops hsame
  constructor
  · intro hblank
    have hmem := hn.separator
    rw [sameSeparator, hblank] at hmem
    exact absurd hmem (by decide)
  · rw [← sameOffset]
    rcases hn.offset with hnone | ⟨-, hZ | hz | ⟨sign, hours, minutes, heq, hsign, -⟩⟩
    · rw [hnone]; simp
    · rw [hZ]; decide
    · rw [hz]; decide
    · rw [heq]
      rintro ⟨⟩
      exact absurd hsign (by decide)

end Moment

/-- An accepted moment begins with a blank, a sign or a digit. -/
theorem Moment.head_chars {m : Moment} (h : m.Internet ∨ m.Local) :
    ∀ c ∈ m.chars.head?, c ≠ '/' := by
  have hyear : IsYear m.year := by
    rcases h with ⟨-, ⟨hdigits, hfour⟩, -⟩ | ⟨-, hyear, -⟩
    · exact ⟨[], [], m.year, rfl, List.forall_mem_nil _, hdigits, by omega, .inl ⟨rfl, hfour.le⟩⟩
    · exact hyear
  obtain ⟨blanks, sign, ds, hsplit, hblanks, hds, hone, hsign⟩ := hyear
  have hslash : Text.isBlank '/' = false ∧ Char.isDigit '/' = false := by decide
  rintro c hc rfl
  rw [Moment.chars, hsplit, List.append_assoc, List.append_assoc] at hc
  cases blanks with
  | cons b blanks =>
    cases hc
    rw [hblanks '/' List.mem_cons_self] at hslash
    exact absurd hslash.1 (by decide)
  | nil =>
    rcases hsign with ⟨rfl, -⟩ | rfl | rfl
    · rw [head_digits hds hone _ '/' hc] at hslash
      exact absurd hslash.2 (by decide)
    · exact absurd (Option.mem_some.mp hc) (by decide)
    · exact absurd (Option.mem_some.mp hc) (by decide)

/-- A loose text is accepted, and has none of the documented shapes. -/
theorem IsLoose.not_documented {cs : List Char} (h : IsLoose cs) : ¬IsDocumented cs := by
  obtain ⟨m, rfl, hm⟩ := h
  have haccepted : m.Internet ∨ m.Local := hm.imp And.left And.left
  rintro (⟨sign, millis, zone, hepoch, -⟩ | ⟨n, hn, hdocumented⟩)
  · exact Moment.head_chars haccepted '/' (by rw [hepoch]; rfl) rfl
  · rcases hm with ⟨hinternet, hloose⟩ | ⟨hlocal, hloose⟩
    · obtain ⟨hseparator, hoffset⟩ := hinternet.not_loose hdocumented hn
      exact hloose.elim hseparator hoffset
    · exact hloose (hlocal.documented hdocumented hn)

/-- An accepted moment that is not loose has the documented shape. -/
theorem Moment.documented_of_not_loose {m : Moment} (h : m.Internet ∨ m.Local)
    (hloose : ¬IsLoose m.chars) :
    m.Documented := by
  rcases h with hm | hm
  · have hplain : m.separator ≠ ' ' ∧ m.offset.head? ≠ some '\u2212' :=
      not_or.mp fun hsome => hloose ⟨m, rfl, .inl ⟨hm, hsome⟩⟩
    obtain ⟨-, hyear, hfields, hseparator, hsecond, hsome, hoffset⟩ := hm
    refine ⟨hyear, hfields, by simpa [hplain.1] using hseparator, hsecond, .inr ⟨hsome, ?_⟩⟩
    rcases hoffset with h | h | ⟨sign, hours, minutes, heq, hsign, hwritten⟩
    · exact .inl h
    · exact .inr (.inl h)
    · have hsign' : sign ≠ '\u2212' := by
        rintro rfl
        exact hplain.2 (by rw [heq]; rfl)
      exact .inr (.inr ⟨sign, hours, minutes, heq, by simpa [hsign'] using hsign, hwritten⟩)
  · by_contra hnot
    exact hloose ⟨m, rfl, .inr ⟨hm, hnot⟩⟩

/-- The accepted texts, and those among them that have none of the documented shapes. -/
theorem isTimestamp_iff (text : String) :
    (isTimestamp text = true ↔
      IsEpochText text.toList ∨ ∃ m : Moment, m.chars = text.toList ∧ (m.Internet ∨ m.Local)) ∧
    (isTimestamp text = true ∧ ¬IsDocumented text.toList ↔ IsLoose text.toList) := by
  refine ⟨isTimestamp_eq, fun ⟨haccepted, hshape⟩ => ?_,
    fun hloose => ⟨?_, hloose.not_documented⟩⟩
  · rcases isTimestamp_eq.mp haccepted with hepoch | ⟨m, hchars, hm⟩
    · exact absurd (.inl hepoch) hshape
    · by_contra hloose
      rw [← hchars] at hloose hshape
      exact hshape (.inr ⟨m, rfl, Moment.documented_of_not_loose hm hloose⟩)
  · obtain ⟨m, hchars, hm⟩ := hloose
    exact isTimestamp_eq.mpr (.inr ⟨m, hchars, hm.imp And.left And.left⟩)

/-- Fields without the leading zeros are accepted. -/
theorem unpadded_accepted : isTimestamp "2024-1-5T9:30" = true ∧ ¬IsDocumented "2024-1-5T9:30".toList := by
  have hfield {ds : List Char} (hds : AllDigits ds) (hone : 1 ≤ ds.length) (htwo : ds.length ≤ 2) :
      IsField ds := ⟨[], ds, rfl, List.forall_mem_nil _, hds, hone, htwo⟩
  let m : Moment :=
    { year := "2024".toList, month := ['1'], day := ['5'], separator := 'T', hour := ['9'],
      minute := "30".toList, second := none, offset := [] }
  have hlocal : m.Local := by
    have hyear : IsYear m.year :=
      ⟨[], [], "2024".toList, rfl, List.forall_mem_nil _, by decide, by decide, .inl (by decide)⟩
    refine ⟨by decide, hyear, ?_, List.mem_cons_self, nofun, rfl⟩
    rintro part (_ | ⟨_, _ | ⟨_, _ | ⟨_, _ | ⟨_, ⟨⟩⟩⟩⟩⟩)
    all_goals exact hfield (by decide) (by decide) (by decide)
  have hunpadded : ¬m.Documented := fun h => absurd (h.fields ['1'] List.mem_cons_self).2 (by decide)
  exact ⟨by decide, IsLoose.not_documented ⟨m, rfl, .inr ⟨hlocal, hunpadded⟩⟩⟩

end DataClasses.Timestamp
