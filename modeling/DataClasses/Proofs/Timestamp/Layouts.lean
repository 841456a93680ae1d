import DataClasses.Proofs.Timestamp.Scans

/-!
# Layouts of a moment

A moment is a date and a time as they are written. Each layout is read as the moments of one shape, and
the texts that are timestamps are those of the moments that a layout is read as and the counts of
milliseconds.
-/

set_option autoImplicit false

namespace DataClasses.Timestamp

structure Moment where
  year : List Char
  month : List Char
  day : List Char
  separator : Char
  hour : List Char
  minute : List Char
  second : Option (List Char × List Char)
  offset : List Char

namespace Moment

def secondChars : Option (List Char × List Char) → List Char
  | none => []
  | some (second, fraction) => ':' :: (second ++ fraction)

def chars (m : Moment) : List Char :=
  m.year ++ '-' :: (m.month ++ '-' :: (m.day ++ m.separator :: (m.hour ++ ':' ::
    (m.minute ++ (secondChars m.second ++ m.offset)))))

def fields (m : Moment) : List (List Char) := [m.month, m.day, m.hour, m.minute]

def valueOfSecond (second : Option (List Char × List Char)) : Nat :=
  (second.map fun s => fieldValue s.1).getD 0

def IsReal (m : Moment) : Prop :=
  isDate (yearValue m.year) (fieldValue m.month) (fieldValue m.day) = true ∧
    isTime (fieldValue m.hour) (fieldValue m.minute) (valueOfSecond m.second) = true

instance (m : Moment) : Decidable m.IsReal := inferInstanceAs (Decidable (_ ∧ _))

structure Written (year field : List Char → Prop) (separators : List Char)
    (offset : Bool → List Char → Prop) (m : Moment) : Prop where
  year : year m.year
  fields : ∀ part ∈ m.fields, field part
  separator : m.separator ∈ separators
  second : ∀ s ∈ m.second, field s.1 ∧ IsFraction s.2
  offset : offset m.second.isSome m.offset

/-- A moment of the internet: like the documented shape, but also with a blank for the separator, and
with the sign for subtraction before an offset. -/
def Internet (m : Moment) : Prop :=
  m.IsReal ∧ m.Written (IsDigits 4) (IsDigits 2) ['T', 't', ' '] fun hasSecond offset =>
    hasSecond = true ∧ IsOffset ['+', '-', '\u2212'] offset

def Local (m : Moment) : Prop :=
  m.IsReal ∧ m.Written IsYear IsField ['T'] fun _ offset => offset = []

end Moment

def IsEpochText (cs : List Char) : Prop :=
  ∃ sign millis zone, cs = "/Date(".toList ++ (sign ++ (millis ++ (zone ++ ")/".toList))) ∧
    (sign = [] ∨ sign = ['-']) ∧ AllDigits millis ∧ 1 ≤ millis.length ∧
    (zone = [] ∨ ∃ c ds, zone = c :: ds ∧ (c = '+' ∨ c = '-') ∧ IsDigits 4 ds)

theorem matchesAll_iff {scan : Scan Unit} {cs : List Char} :
    matchesAll scan cs = true ↔ scan cs = some ((), []) := beq_iff_eq

theorem IsOffset.stops {offset : List Char} (h : IsOffset ['+', '-', '\u2212'] offset) :
    Stops offset ∧ offset.head? ≠ some '.' := by
  rcases h with rfl | rfl | ⟨sign, hours, minutes, rfl, hsign, -⟩
  · exact ⟨stops_cons (by decide), by decide⟩
  · exact ⟨stops_cons (by decide), by decide⟩
  · rcases List.mem_cons.mp hsign with rfl | hsign
    · exact ⟨stops_cons (by decide), by simp⟩
    · rcases List.mem_cons.mp hsign with rfl | hsign
      · exact ⟨stops_cons (by decide), by simp⟩
      · obtain rfl := List.mem_singleton.mp hsign
        exact ⟨stops_cons (by decide), by simp⟩

structure TakesTail (s : Scan Nat) (T : Option (List Char × List Char) → List Char → Prop) : Prop where
  taken : ∀ cs n, s cs = some (n, []) → ∃ second offset, cs = Moment.secondChars second ++ offset ∧
    T second offset ∧ Moment.valueOfSecond second = n
  scans : ∀ second offset, T second offset →
    s (Moment.secondChars second ++ offset) = some (Moment.valueOfSecond second, [])
  stops : ∀ second offset, T second offset → Stops (Moment.secondChars second ++ offset)

section

variable {year : Scan Int} {field tail : Scan Nat} {separator : Char → Bool} {Y F : List Char → Prop}
  {T : Option (List Char × List Char) → List Char → Prop} {cs : List Char}

theorem dateTime_iff (hyear : Takes year Y yearValue Stops) (hfield : Takes field F fieldValue Stops)
    (hseparator : ∀ c, separator c = true → c.isDigit = false) (htail : TakesTail tail T) :
    dateTime year field separator tail cs = some ((), []) ↔
      ∃ m : Moment, m.chars = cs ∧ m.IsReal ∧ separator m.separator = true ∧ Y m.year ∧
        (∀ part ∈ m.fields, F part) ∧ T m.second m.offset := by
  constructor
  · intro h
    simp only [dateTime, bind_eq, literal_eq, guard_eq, Bool.and_eq_true, beq_iff_eq] at h
    obtain ⟨_, _, first, -, _, ⟨_, rfl, rfl⟩, _, _, next, -, _, ⟨_, rfl, rfl⟩, _, _, third, -, _,
      ⟨separator, hsep, rfl⟩, _, _, fourth, -, _, ⟨_, rfl, rfl⟩, _, _, fifth, _, _, last, hreal,
      rfl⟩ := h
    obtain ⟨year, rfl, isYear, rfl⟩ := hyear.taken _ _ _ first
    obtain ⟨month, rfl, isMonth, rfl⟩ := hfield.taken _ _ _ next
    obtain ⟨day, rfl, isDay, rfl⟩ := hfield.taken _ _ _ third
    obtain ⟨hour, rfl, isHour, rfl⟩ := hfield.taken _ _ _ fourth
    obtain ⟨minute, rfl, isMinute, rfl⟩ := hfield.taken _ _ _ fifth
    obtain ⟨second, offset, rfl, isTail, rfl⟩ := htail.taken _ _ last
    refine ⟨⟨year, month, day, separator, hour, minute, second, offset⟩, rfl, hreal, hsep, isYear, ?_,
      isTail⟩
    simp only [Moment.fields, List.forall_mem_cons]
    exact ⟨isMonth, isDay, isHour, isMinute, List.forall_mem_nil _⟩
  · rintro ⟨m, rfl, hreal, hsep, isYear, isField, isTail⟩
    have hfields : F m.month ∧ F m.day ∧ F m.hour ∧ F m.minute := by
      simpa [Moment.fields] using isField
    obtain ⟨isMonth, isDay, isHour, isMinute⟩ := hfields
    have hdash (cs : List Char) : Stops ('-' :: cs) := stops_cons (by decide)
    refine (bind_some (hyear.scans _ _ isYear (hdash _))).trans ?_
    refine (bind_some (literal_cons rfl _)).trans ?_
    refine (bind_some (hfield.scans _ _ isMonth (hdash _))).trans ?_
    refine (bind_some (literal_cons rfl _)).trans ?_
    refine (bind_some (hfield.scans _ _ isDay (stops_cons (hseparator _ hsep)))).trans ?_
    refine (bind_some (literal_cons hsep _)).trans ?_
    refine (bind_some (hfield.scans _ _ isHour (stops_cons (by decide)))).trans ?_
    refine (bind_some (literal_cons rfl _)).trans ?_
    refine (bind_some (hfield.scans _ _ isMinute (htail.stops _ _ isTail))).trans ?_
    refine (bind_some (htail.scans _ _ isTail)).trans ?_
    exact guard_eq.mpr ⟨Bool.and_eq_true_iff.mpr hreal, rfl⟩

end

theorem Takes.mono {α : Type} {s : Scan α} {P : List Char → Prop} {value : List Char → α}
    {B C : List Char → Prop} (h : Takes s P value B) (hbefore : ∀ cs, C cs → B cs) :
    Takes s P value C :=
  ⟨h.taken, fun part rest hpart hrest => h.scans part rest hpart (hbefore rest hrest)⟩

def InternetTail (second : Option (List Char × List Char)) (offset : List Char) : Prop :=
  (∃ s ∈ second, IsDigits 2 s.1 ∧ IsFraction s.2) ∧ IsOffset ['+', '-', '\u2212'] offset

theorem takes_internetTail : TakesTail internetTail InternetTail where
  taken cs n h := by
    simp only [internetTail, bind_eq, literal_eq, pure_eq, beq_iff_eq] at h
    obtain ⟨-, _, ⟨_, rfl, rfl⟩, _, _, first, _, _, next, _, _, last, rfl, rfl⟩ := h
    obtain ⟨second, rfl, isSecond, rfl⟩ := (takes_exact 2).taken _ _ _ first
    obtain ⟨fraction, rfl, isFraction, -⟩ := takes_fraction.taken _ _ _ next
    obtain ⟨offset, rfl, isOffset, -⟩ := takes_offset.taken _ _ _ last
    exact ⟨some (second, fraction), offset, by simp [Moment.secondChars],
      ⟨⟨_, rfl, isSecond, isFraction⟩, isOffset⟩, rfl⟩
  scans second offset h := by
    obtain ⟨⟨⟨second, fraction⟩, rfl, isSecond, isFraction⟩, isOffset⟩ := h
    simp only [Moment.secondChars, List.cons_append, List.append_assoc]
    refine (bind_some (literal_cons rfl _)).trans ?_
    refine (bind_some ((takes_exact 2).scans second _ isSecond trivial)).trans ?_
    refine (bind_some (takes_fraction.scans fraction _ isFraction isOffset.stops)).trans ?_
    have hoffset := takes_offset.scans offset [] isOffset trivial
    rw [List.append_nil] at hoffset
    exact (bind_some hoffset).trans rfl
  stops second offset h := by
    obtain ⟨⟨second, rfl, -⟩, -⟩ := h
    exact stops_cons (by decide)

def LocalTail (P : List Char × List Char → Prop) (second : Option (List Char × List Char))
    (offset : List Char) : Prop :=
  (∃ s ∈ second, P s) ∧ offset = []

theorem takes_wholeSecond : TakesTail wholeSecond (LocalTail fun s => IsField s.1 ∧ s.2 = []) where
  taken cs n h := by
    simp only [wholeSecond, bind_eq, literal_eq, beq_iff_eq] at h
    obtain ⟨-, _, ⟨_, rfl, rfl⟩, h⟩ := h
    obtain ⟨second, rfl, isSecond, rfl⟩ := takes_field.taken _ _ _ h
    exact ⟨some (second, []), [], by simp [Moment.secondChars],
      ⟨⟨_, rfl, isSecond, rfl⟩, rfl⟩, rfl⟩
  scans second offset h := by
    obtain ⟨⟨⟨second, _⟩, rfl, isSecond, rfl⟩, rfl⟩ := h
    simp only [Moment.secondChars, List.cons_append, List.append_assoc]
    refine (bind_some (literal_cons rfl _)).trans ?_
    exact takes_field.scans second _ isSecond nofun
  stops second offset h := by
    obtain ⟨⟨second, rfl, -⟩, -⟩ := h
    exact stops_cons (by decide)

theorem takes_splitSecond : TakesTail splitSecond (LocalTail fun s => IsField s.1 ∧ IsFraction s.2) where
  taken cs n h := by
    simp only [splitSecond, wholeSecond, bind_eq, literal_eq, pure_eq, beq_iff_eq] at h
    obtain ⟨_, _, ⟨-, _, ⟨_, rfl, rfl⟩, first⟩, _, _, next, rfl, rfl⟩ := h
    obtain ⟨second, rfl, isSecond, rfl⟩ := takes_field.taken _ _ _ first
    obtain ⟨fraction, rfl, isFraction, -⟩ := takes_fraction.taken _ _ _ next
    exact ⟨some (second, fraction), [], by simp [Moment.secondChars],
      ⟨⟨_, rfl, isSecond, isFraction⟩, rfl⟩, rfl⟩
  scans second offset h := by
    obtain ⟨⟨⟨second, fraction⟩, rfl, isSecond, isFraction⟩, rfl⟩ := h
    have hstops : Stops (fraction ++ []) := isFraction.stops nofun
    have hwhole : wholeSecond (Moment.secondChars (some (second, fraction)) ++ []) =
        some (fieldValue second, fraction ++ []) := by
      simp only [Moment.secondChars, List.cons_append, List.append_assoc]
      exact (bind_some (literal_cons rfl _)).trans (takes_field.scans second _ isSecond hstops)
    refine (bind_some hwhole).trans ?_
    exact (bind_some (takes_fraction.scans fraction [] isFraction ⟨nofun, by simp⟩)).trans rfl
  stops second offset h := by
    obtain ⟨⟨second, rfl, -⟩, -⟩ := h
    exact stops_cons (by decide)

theorem takes_noSecond : TakesTail (pure 0) fun second offset => second = none ∧ offset = [] where
  taken cs n h := by
    obtain ⟨rfl, rfl⟩ := pure_eq.mp h
    exact ⟨none, [], rfl, ⟨rfl, rfl⟩, rfl⟩
  scans second offset h := by
    obtain ⟨rfl, rfl⟩ := h
    rfl
  stops second offset h := by
    obtain ⟨rfl, rfl⟩ := h
    exact nofun

theorem internet_iff {cs : List Char} :
    matchesAll internet cs = true ↔ ∃ m : Moment, m.chars = cs ∧ m.Internet := by
  rw [matchesAll_iff, internet, dateTime_iff takes_exactYear ((takes_exact 2).mono fun _ _ => trivial)
    (by simp only [Bool.or_eq_true, beq_iff_eq]; rintro c ((rfl | rfl) | rfl) <;> decide) takes_internetTail]
  constructor
  · rintro ⟨m, hchars, hreal, hseparator, hyear, hfields, ⟨second, hsecond, hwritten⟩, hoffset⟩
    refine ⟨m, hchars, hreal, hyear, hfields, by simpa [or_assoc] using hseparator, ?_, ?_, hoffset⟩
    · rw [hsecond]
      rintro _ ⟨⟩
      exact hwritten
    · rw [hsecond]
      rfl
  · rintro ⟨m, hchars, hreal, hyear, hfields, hseparator, hsecond, hsome, hoffset⟩
    obtain ⟨second, hsame⟩ := Option.isSome_iff_exists.mp hsome
    exact ⟨m, hchars, hreal, by simpa [or_assoc] using hseparator, hyear, hfields,
      ⟨second, hsame, hsecond second hsame⟩, hoffset⟩

/-- The three local layouts together: with a second and a fraction, with a second, and without. -/
theorem local_iff {cs : List Char} :
    (matchesAll (localTime splitSecond) cs = true ∨ matchesAll (localTime wholeSecond) cs = true) ∨
        matchesAll (localTime (pure 0)) cs = true ↔
      ∃ m : Moment, m.chars = cs ∧ m.Local := by
  have hseparator : ∀ c : Char, (c == 'T') = true → c.isDigit = false := by
    intro c hc
    rw [beq_iff_eq.mp hc]
    decide
  simp only [matchesAll_iff, localTime, dateTime_iff takes_year takes_field hseparator takes_splitSecond,
    dateTime_iff takes_year takes_field hseparator takes_wholeSecond,
    dateTime_iff takes_year takes_field hseparator takes_noSecond]
  constructor
  · rintro ((h | h) | h)
    all_goals obtain ⟨m, hchars, hreal, hsep, hyear, hfields, hsecond, hoffset⟩ := h
    all_goals refine ⟨m, hchars, hreal, hyear, hfields, by simpa using hsep, fun s hs => ?_, hoffset⟩
    · obtain ⟨t, ht, hwritten⟩ := hsecond
      obtain rfl := Option.mem_unique hs ht
      exact hwritten
    · obtain ⟨t, ht, hfield, hnone⟩ := hsecond
      obtain rfl := Option.mem_unique hs ht
      exact ⟨hfield, .inl hnone⟩
    · rw [hsecond] at hs
      cases hs
  · rintro ⟨m, hchars, hreal, hyear, hfields, hsep, hsecond, hoffset⟩
    have hsep : (m.separator == 'T') = true := by simpa using hsep
    cases hsome : m.second with
    | none => exact .inr ⟨m, hchars, hreal, hsep, hyear, hfields, hsome, hoffset⟩
    | some second =>
      have hwritten := hsecond second hsome
      exact .inl (.inl ⟨m, hchars, hreal, hsep, hyear, hfields, ⟨second, hsome, hwritten⟩, hoffset⟩)

theorem between?_eq_some {opening closing cs inner : List Char} :
    between? opening closing cs = some inner ↔ cs = opening ++ (inner ++ closing) := by
  rw [between?]
  constructor
  · intro h
    split at h
    · next hopening =>
      obtain ⟨rest, rfl⟩ := List.isPrefixOf_iff_prefix.mp hopening
      dsimp only at h
      rw [List.drop_left] at h
      split at h
      · next hclosing =>
        obtain ⟨found, rfl⟩ := List.isSuffixOf_iff_suffix.mp hclosing
        cases h
        simp
      · contradiction
    · contradiction
  · rintro rfl
    simp [List.isSuffixOf_iff_suffix]

theorem allDigits_iff {cs : List Char} : allDigits cs = true ↔ AllDigits cs ∧ 1 ≤ cs.length := by
  cases cs with
  | nil => simp [allDigits]
  | cons c cs => simp [allDigits, AllDigits]

theorem not_sign_of_digit {c : Char} (h : c.isDigit = true) : isSign c = false := by
  cases hc : isSign c with
  | false => rfl
  | true =>
    simp only [isSign, Bool.or_eq_true, beq_iff_eq] at hc
    rcases hc with rfl | rfl <;> contradiction

theorem isUnsigned_iff {body : List Char} :
    isUnsigned body = true ↔ ∃ millis zone, body = millis ++ zone ∧ AllDigits millis ∧
      1 ≤ millis.length ∧ (zone = [] ∨
        ∃ c ds, zone = c :: ds ∧ (c = '+' ∨ c = '-') ∧ IsDigits 4 ds) := by
  rw [isUnsigned]
  constructor
  · intro h
    have hsplit : body.takeWhile (!isSign ·) ++ body.dropWhile (!isSign ·) = body :=
      List.takeWhile_append_dropWhile
    have hhead := List.head?_dropWhile_not (!isSign ·) body
    split at h
    · exact ⟨body, [], by simp, (allDigits_iff.mp h).1, (allDigits_iff.mp h).2, .inl rfl⟩
    · next c zone hzone =>
      simp only [Bool.and_eq_true, beq_iff_eq, allDigits_iff] at h
      rw [hzone] at hsplit hhead
      have hsign : c = '+' ∨ c = '-' := by simpa [isSign, or_iff_not_imp_left] using hhead
      exact ⟨_, _, hsplit.symm, h.1.1.1, h.1.1.2, .inr ⟨c, zone, rfl, hsign, h.2.1, h.1.2⟩⟩
  · rintro ⟨millis, zone, rfl, hmillis, hone, hzone⟩
    have hplain : ∀ c ∈ millis, (!isSign c) = true :=
      fun c hc => by rw [not_sign_of_digit (hmillis c hc)]; rfl
    rw [List.dropWhile_append_of_pos hplain, List.takeWhile_append_of_pos hplain]
    rcases hzone with rfl | ⟨c, ds, rfl, hsign, hds, hfour⟩
    · simpa using allDigits_iff.mpr ⟨hmillis, hone⟩
    · have hc : isSign c = true := by simpa [isSign] using hsign
      simp only [List.dropWhile_cons, List.takeWhile_cons, hc, Bool.not_true, Bool.false_eq_true, if_false,
        List.append_nil, hfour, beq_self_eq_true, Bool.and_true, Bool.and_eq_true, allDigits_iff]
      exact ⟨⟨hmillis, hone⟩, hds, by omega⟩

theorem isMillis_of_ne {cs : List Char} (h : ∀ rest, cs ≠ '-' :: rest) : isMillis cs = isUnsigned cs := by
  rw [isMillis]
  exact h

theorem isMillis_iff {cs : List Char} :
    isMillis cs = true ↔ ∃ sign millis zone, cs = sign ++ (millis ++ zone) ∧
      (sign = [] ∨ sign = ['-']) ∧ AllDigits millis ∧ 1 ≤ millis.length ∧
      (zone = [] ∨ ∃ c ds, zone = c :: ds ∧ (c = '+' ∨ c = '-') ∧ IsDigits 4 ds) := by
  constructor
  · intro h
    by_cases hminus : ∃ rest, cs = '-' :: rest
    · obtain ⟨rest, rfl⟩ := hminus
      obtain ⟨millis, zone, rfl, hwritten⟩ := isUnsigned_iff.mp h
      exact ⟨['-'], millis, zone, rfl, .inr rfl, hwritten⟩
    · rw [isMillis_of_ne (not_exists.mp hminus)] at h
      obtain ⟨millis, zone, rfl, hwritten⟩ := isUnsigned_iff.mp h
      exact ⟨[], millis, zone, rfl, .inl rfl, hwritten⟩
  · rintro ⟨sign, millis, zone, rfl, rfl | rfl, hwritten⟩
    · have hminus : ∀ rest, [] ++ (millis ++ zone) ≠ '-' :: rest := by
        intro rest heq
        have hdigit := head_digits hwritten.1 hwritten.2.1 zone '-' (congrArg List.head? heq)
        contradiction
      rw [isMillis_of_ne hminus]
      exact isUnsigned_iff.mpr ⟨millis, zone, rfl, hwritten⟩
    · exact isUnsigned_iff.mpr ⟨millis, zone, rfl, hwritten⟩

theorem isEpoch_iff {cs : List Char} : isEpoch cs = true ↔ IsEpochText cs := by
  rw [isEpoch]
  constructor
  · intro h
    split at h
    · next inner hinner =>
      obtain ⟨sign, millis, zone, rfl, hsign, hmillis, hone, hzone⟩ := isMillis_iff.mp h
      exact ⟨sign, millis, zone, by simpa using between?_eq_some.mp hinner, hsign, hmillis, hone, hzone⟩
    · contradiction
  · rintro ⟨sign, millis, zone, rfl, hsign, hmillis, hone, hzone⟩
    have hinner : between? "/Date(".toList ")/".toList
        ("/Date(".toList ++ (sign ++ (millis ++ (zone ++ ")/".toList)))) =
        some (sign ++ (millis ++ zone)) := between?_eq_some.mpr (by simp)
    rw [hinner]
    exact isMillis_iff.mpr ⟨sign, millis, zone, rfl, hsign, hmillis, hone, hzone⟩

theorem isTimestamp_eq {text : String} :
    isTimestamp text = true ↔
      IsEpochText text.toList ∨ ∃ m : Moment, m.chars = text.toList ∧ (m.Internet ∨ m.Local) := by
  simp only [isTimestamp, Bool.or_eq_true, isEpoch_iff, internet_iff]
  constructor
  · rintro ((((⟨m, hchars, hm⟩ | hsplit) | hwhole) | hnone) | hepoch)
    · exact .inr ⟨m, hchars, .inl hm⟩
    · obtain ⟨m, hchars, hm⟩ := local_iff.mp (.inl (.inl hsplit))
      exact .inr ⟨m, hchars, .inr hm⟩
    · obtain ⟨m, hchars, hm⟩ := local_iff.mp (.inl (.inr hwhole))
      exact .inr ⟨m, hchars, .inr hm⟩
    · obtain ⟨m, hchars, hm⟩ := local_iff.mp (.inr hnone)
      exact .inr ⟨m, hchars, .inr hm⟩
    · exact .inl hepoch
  · rintro (hepoch | ⟨m, hchars, hm | hm⟩)
    · exact .inr hepoch
    · exact .inl (.inl (.inl (.inl ⟨m, hchars, hm⟩)))
    · rcases local_iff.mpr ⟨m, hchars, hm⟩ with (hsplit | hwhole) | hnone
      · exact .inl (.inl (.inl (.inr hsplit)))
      · exact .inl (.inl (.inr hwhole))
      · exact .inl (.inr hnone)

end DataClasses.Timestamp
