import DataClasses.Proofs.Identifier.Alphabet
import DataClasses.Timestamp
import Mathlib.Data.List.TakeWhile

/-!
# Scans of the parts of a moment

Each scan takes a part of one form from the front of a text, and takes every part of that form if what
stands behind it cannot belong to it. What a part stands for is told from its characters.
-/

set_option autoImplicit false

namespace DataClasses.Timestamp

def AllDigits (cs : List Char) : Prop := ∀ c ∈ cs, c.isDigit = true

instance (cs : List Char) : Decidable (AllDigits cs) := List.decidableBAll _ cs

def IsDigits (count : Nat) (cs : List Char) : Prop := AllDigits cs ∧ cs.length = count

def IsField (cs : List Char) : Prop :=
  ∃ blanks ds, cs = blanks ++ ds ∧ (∀ b ∈ blanks, Text.isBlank b = true) ∧ AllDigits ds ∧
    1 ≤ ds.length ∧ ds.length ≤ 2

def IsYear (cs : List Char) : Prop :=
  ∃ blanks sign ds, cs = blanks ++ (sign ++ ds) ∧ (∀ b ∈ blanks, Text.isBlank b = true) ∧
    AllDigits ds ∧ 1 ≤ ds.length ∧ (sign = [] ∧ ds.length ≤ 4 ∨ sign = ['+'] ∨ sign = ['-'])

def IsFraction (cs : List Char) : Prop :=
  cs = [] ∨ ∃ ds, cs = '.' :: ds ∧ AllDigits ds ∧ 1 ≤ ds.length

def fieldValue (cs : List Char) : Nat := Nat.ofDigitChars 10 (cs.dropWhile Text.isBlank) 0

def IsOffset (signs : List Char) (cs : List Char) : Prop :=
  cs = ['Z'] ∨ cs = ['z'] ∨
    ∃ sign hours minutes, cs = sign :: (hours ++ ':' :: minutes) ∧ sign ∈ signs ∧ IsDigits 2 hours ∧
      IsDigits 2 minutes ∧ fieldValue hours ≤ 23 ∧ fieldValue minutes ≤ 59

def yearValue (cs : List Char) : Int :=
  match cs.dropWhile Text.isBlank with
  | '-' :: ds => -(Nat.ofDigitChars 10 ds 0 : Int)
  | '+' :: ds => Nat.ofDigitChars 10 ds 0
  | ds => Nat.ofDigitChars 10 ds 0

theorem not_blank_of_digit {c : Char} (h : c.isDigit = true) : Text.isBlank c = false :=
  Identifier.part_not_blank (Identifier.digit_part h)

def Stops (cs : List Char) : Prop := ∀ c ∈ cs.head?, c.isDigit = false

section

variable {ds es cs rest left : List Char}

theorem stops_cons {c : Char} (h : c.isDigit = false) : Stops (c :: cs) := by
  rintro d ⟨⟩
  exact h

theorem IsFraction.stops {fraction : List Char} (h : IsFraction fraction) (hrest : Stops rest) :
    Stops (fraction ++ rest) := by
  rcases h with rfl | ⟨ds, rfl, -⟩
  · exact hrest
  · exact stops_cons (by decide)

theorem takeWhile_of_stops (hds : AllDigits ds) (hrest : Stops rest) :
    (ds ++ rest).takeWhile Char.isDigit = ds := by
  rw [List.takeWhile_append_of_pos hds]
  cases rest with
  | nil => simp
  | cons c rest => simp [hrest c rfl]

/-- A text begins with one run of digits only. -/
theorem run_unique (hds : AllDigits ds) (hes : AllDigits es) (hrest : Stops rest) (hleft : Stops left)
    (h : ds ++ rest = es ++ left) : ds = es ∧ rest = left := by
  have hsame : ds = es := by
    rw [← takeWhile_of_stops hds hrest, h, takeWhile_of_stops hes hleft]
  subst hsame
  exact ⟨rfl, List.append_cancel_left h⟩

theorem dropWhile_blank (hds : AllDigits ds) : ds.dropWhile Text.isBlank = ds := by
  cases ds with
  | nil => rfl
  | cons d ds => rw [List.dropWhile_cons, not_blank_of_digit (hds d List.mem_cons_self)]; rfl

theorem fieldValue_of_digits (hds : AllDigits ds) : fieldValue ds = Nat.ofDigitChars 10 ds 0 := by
  rw [fieldValue, dropWhile_blank hds]

theorem head_digits {ds : List Char} (hds : AllDigits ds) (hone : 1 ≤ ds.length) (rest : List Char) :
    ∀ c ∈ (ds ++ rest).head?, c.isDigit = true := by
  cases ds with
  | nil => simp at hone
  | cons d ds =>
    rintro c ⟨⟩
    exact hds d List.mem_cons_self

end

section

variable {α β : Type} {cs rest : List Char}

theorem bind_eq {s : Scan α} {f : α → Scan β} {b : β} :
    (s >>= f) cs = some (b, rest) ↔ ∃ a mid, s cs = some (a, mid) ∧ f a mid = some (b, rest) := by
  change (s cs >>= fun x => f x.1 x.2) = _ ↔ _
  rw [Option.bind_eq_bind, Option.bind_eq_some_iff, Prod.exists]

theorem bind_some {s : Scan α} {f : α → Scan β} {a : α} {mid : List Char} (h : s cs = some (a, mid)) :
    (s >>= f) cs = f a mid := by
  change (s cs >>= fun x => f x.1 x.2) = _
  rw [h]
  rfl

theorem pure_eq {a b : α} : (pure a : Scan α) cs = some (b, rest) ↔ a = b ∧ cs = rest := by
  change some (a, cs) = _ ↔ _
  simp

theorem guard_eq {p : Prop} [Decidable p] {u : Unit} :
    (if p then pure () else failure : Scan Unit) cs = some (u, rest) ↔ p ∧ cs = rest := by
  by_cases hp : p
  · simp only [hp, if_true, pure_eq, true_and]
  · simp only [hp, if_false, false_and, iff_false]
    exact fun h => nomatch h

theorem literal_eq {p : Char → Bool} {u : Unit} :
    literal p cs = some (u, rest) ↔ ∃ c, p c = true ∧ cs = c :: rest := by
  constructor
  · intro h
    rw [literal.eq_def] at h
    split at h
    · next c left =>
      split at h
      · next hc => cases h; exact ⟨c, hc, rfl⟩
      · contradiction
    · contradiction
  · rintro ⟨c, hc, rfl⟩
    exact if_pos hc

theorem literal_cons {p : Char → Bool} {c : Char} (h : p c = true) (cs : List Char) :
    literal p (c :: cs) = some ((), cs) := if_pos h

/-- A scan takes parts of a form from the front of a text, if it is before a text of a kind. -/
structure Takes (s : Scan α) (P : List Char → Prop) (value : List Char → α)
    (Before : List Char → Prop) : Prop where
  taken : ∀ cs a rest, s cs = some (a, rest) → ∃ part, cs = part ++ rest ∧ P part ∧ value part = a
  scans : ∀ part rest, P part → Before rest → s (part ++ rest) = some (value part, rest)

/-- Digits are a beginning of the first run of them. -/
theorem digits_eq (least : Nat) (most : Option Nat) (cs : List Char) :
    ∃ ds, ds <+: cs.takeWhile Char.isDigit ∧
      ds = (match most with
        | some k => (cs.takeWhile Char.isDigit).take k
        | none => cs.takeWhile Char.isDigit) ∧
      digits least most cs =
        if ds.length < least then none else some (Nat.ofDigitChars 10 ds 0, cs.drop ds.length) := by
  cases most with
  | none => exact ⟨_, List.prefix_rfl, rfl, rfl⟩
  | some k => exact ⟨_, List.take_prefix k _, rfl, rfl⟩

theorem digits_some {least n : Nat} {most : Option Nat} (h : digits least most cs = some (n, rest)) :
    ∃ ds, cs = ds ++ rest ∧ AllDigits ds ∧ least ≤ ds.length ∧ (∀ k ∈ most, ds.length ≤ k) ∧
      Nat.ofDigitChars 10 ds 0 = n := by
  obtain ⟨ds, hbegins, hds, heq⟩ := digits_eq least most cs
  rw [heq] at h
  split at h
  · contradiction
  · next hleast =>
    cases h
    refine ⟨ds, ?_, fun c hc => List.mem_takeWhile_imp (hbegins.subset hc), by omega, ?_, rfl⟩
    · exact (List.prefix_iff_eq_append.mp (hbegins.trans (List.takeWhile_prefix _))).symm
    · rintro k ⟨⟩
      rw [hds]
      exact List.length_take_le k _

theorem digits_append {least : Nat} {most : Option Nat} {ds : List Char} (hds : AllDigits ds)
    (hleast : least ≤ ds.length)
    (hmost : most = some ds.length ∨ (∀ k ∈ most, ds.length ≤ k) ∧ Stops rest) :
    digits least most (ds ++ rest) = some (Nat.ofDigitChars 10 ds 0, rest) := by
  obtain ⟨es, -, hes, heq⟩ := digits_eq least most (ds ++ rest)
  have hsame : es = ds := by
    rcases hmost with rfl | ⟨hmost, hrest⟩
    · rw [hes, List.takeWhile_append_of_pos hds]
      exact List.take_left
    · rw [hes, takeWhile_of_stops hds hrest]
      cases most with
      | none => rfl
      | some k => exact List.take_of_length_le (hmost k rfl)
  rw [heq, hsame, if_neg (by omega), List.drop_left]

theorem takes_exact (count : Nat) :
    Takes (digits count (some count)) (IsDigits count) fieldValue fun _ => True where
  taken cs a rest h := by
    obtain ⟨ds, rfl, hds, hleast, hmost, rfl⟩ := digits_some h
    exact ⟨ds, rfl, ⟨hds, Nat.le_antisymm (hmost count rfl) hleast⟩, fieldValue_of_digits hds⟩
  scans part rest h _ := by
    rw [fieldValue_of_digits h.1]
    exact digits_append h.1 h.2.ge (.inl (by rw [h.2]))

theorem blanks_append {blanks : List Char} (hblanks : ∀ b ∈ blanks, Text.isBlank b = true)
    (hrest : ∀ c ∈ rest.head?, Text.isBlank c = false) :
    (blanks ++ rest).dropWhile Text.isBlank = rest := by
  rw [List.dropWhile_append_of_pos hblanks]
  cases rest with
  | nil => rfl
  | cons c rest => rw [List.dropWhile_cons, hrest c rfl]; rfl

theorem blanks_eq {u : Unit} : blanks cs = some (u, rest) ↔ cs.dropWhile Text.isBlank = rest := by
  simp [blanks]

/-- A text is what stands behind its blanks, with blanks before it. -/
theorem exists_blanks (cs : List Char) :
    ∃ blanks, cs = blanks ++ cs.dropWhile Text.isBlank ∧ ∀ b ∈ blanks, Text.isBlank b = true :=
  ⟨cs.takeWhile Text.isBlank, List.takeWhile_append_dropWhile.symm, fun _ hb => List.mem_takeWhile_imp hb⟩

theorem takes_field : Takes field IsField fieldValue Stops where
  taken cs a rest h := by
    obtain ⟨u, mid, hmid, h⟩ := bind_eq.mp h
    obtain rfl := blanks_eq.mp hmid
    obtain ⟨ds, hsplit, hds, hleast, hmost, rfl⟩ := digits_some h
    obtain ⟨blanks, hcs, hblanks⟩ := exists_blanks cs
    refine ⟨blanks ++ ds, ?_, ⟨blanks, ds, rfl, hblanks, hds, hleast, hmost 2 rfl⟩, ?_⟩
    · rw [hcs, hsplit, List.append_assoc]
    · rw [fieldValue, List.dropWhile_append_of_pos hblanks, dropWhile_blank hds]
  scans part rest h hrest := by
    obtain ⟨blanks, ds, rfl, hblanks, hds, hleast, hmost⟩ := h
    refine bind_eq.mpr ⟨(), ds ++ rest, blanks_eq.mpr ?_, ?_⟩
    · rw [List.append_assoc]
      exact blanks_append hblanks fun c hc => not_blank_of_digit (head_digits hds hleast rest c hc)
    · rw [fieldValue, List.dropWhile_append_of_pos hblanks, dropWhile_blank hds]
      refine digits_append hds hleast (.inr ⟨?_, hrest⟩)
      rintro k ⟨⟩
      exact hmost

theorem yearDigits_some {least : Nat} {most : Option Nat} {a : Int}
    (h : yearDigits least most cs = some (a, rest)) :
    ∃ ds, cs = ds ++ rest ∧ AllDigits ds ∧ least ≤ ds.length ∧ (∀ k ∈ most, ds.length ≤ k) ∧
      (Nat.ofDigitChars 10 ds 0 : Int) = a := by
  obtain ⟨n, mid, hdigits, hpure⟩ := bind_eq.mp h
  obtain ⟨rfl, rfl⟩ := pure_eq.mp hpure
  obtain ⟨ds, hsplit, hds, hleast, hmost, rfl⟩ := digits_some hdigits
  exact ⟨ds, hsplit, hds, hleast, hmost, rfl⟩

theorem yearDigits_append {least : Nat} {most : Option Nat} {ds : List Char} (hds : AllDigits ds)
    (hleast : least ≤ ds.length)
    (hmost : most = some ds.length ∨ (∀ k ∈ most, ds.length ≤ k) ∧ Stops rest) :
    yearDigits least most (ds ++ rest) = some ((Nat.ofDigitChars 10 ds 0 : Int), rest) :=
  (bind_some (digits_append hds hleast hmost)).trans rfl

/-- The number behind the blanks and the sign of a year. -/
theorem yearValue_eq {blanks sign ds : List Char} (hblanks : ∀ b ∈ blanks, Text.isBlank b = true)
    (hds : AllDigits ds) (hsign : sign = [] ∨ sign = ['+'] ∨ sign = ['-']) :
    yearValue (blanks ++ (sign ++ ds)) =
      if sign = ['-'] then -(Nat.ofDigitChars 10 ds 0 : Int) else Nat.ofDigitChars 10 ds 0 := by
  rw [yearValue, List.dropWhile_append_of_pos hblanks]
  rcases hsign with rfl | rfl | rfl
  · rw [List.nil_append, dropWhile_blank hds]
    cases ds with
    | nil => rfl
    | cons d ds =>
      have hd := hds d List.mem_cons_self
      split
      · next h =>
        cases h
        contradiction
      · next h =>
        cases h
        contradiction
      · rfl
  · rfl
  · rfl

theorem yearValue_of_digits {ds : List Char} (hds : AllDigits ds) :
    yearValue ds = (Nat.ofDigitChars 10 ds 0 : Int) := by
  have hsign : ([] : List Char) = [] ∨ ([] : List Char) = ['+'] ∨ ([] : List Char) = ['-'] := .inl rfl
  have h := yearValue_eq (List.forall_mem_nil _) hds hsign
  exact h.trans (if_neg (by decide))

theorem takes_exactYear : Takes (yearDigits 4 (some 4)) (IsDigits 4) yearValue Stops where
  taken cs a rest h := by
    obtain ⟨ds, rfl, hds, hleast, hmost, rfl⟩ := yearDigits_some h
    exact ⟨ds, rfl, ⟨hds, Nat.le_antisymm (hmost 4 rfl) hleast⟩, yearValue_of_digits hds⟩
  scans part rest h _ := by
    rw [yearValue_of_digits h.1]
    exact yearDigits_append h.1 h.2.ge (.inl (by rw [h.2]))

theorem signedYear_some {a : Int} (h : signedYear cs = some (a, rest)) :
    ∃ sign ds, cs = sign ++ (ds ++ rest) ∧ AllDigits ds ∧ 1 ≤ ds.length ∧
      (sign = [] ∧ ds.length ≤ 4 ∨ sign = ['+'] ∨ sign = ['-']) ∧
        (if sign = ['-'] then -(Nat.ofDigitChars 10 ds 0 : Int) else Nat.ofDigitChars 10 ds 0) = a := by
  rw [signedYear.eq_def] at h
  split at h
  · obtain ⟨n, mid, hdigits, hpure⟩ := bind_eq.mp h
    obtain ⟨rfl, rfl⟩ := pure_eq.mp hpure
    obtain ⟨ds, rfl, hds, hleast, -, rfl⟩ := yearDigits_some hdigits
    exact ⟨['-'], ds, rfl, hds, hleast, .inr (.inr rfl), rfl⟩
  · obtain ⟨ds, rfl, hds, hleast, -, ha⟩ := yearDigits_some h
    exact ⟨['+'], ds, rfl, hds, hleast, .inr (.inl rfl), ha⟩
  · obtain ⟨ds, rfl, hds, hleast, hmost, ha⟩ := yearDigits_some h
    exact ⟨[], ds, rfl, hds, hleast, .inl ⟨rfl, hmost 4 rfl⟩, ha⟩

theorem signedYear_append {sign ds : List Char} (hds : AllDigits ds) (hleast : 1 ≤ ds.length)
    (hsign : sign = [] ∧ ds.length ≤ 4 ∨ sign = ['+'] ∨ sign = ['-']) (hrest : Stops rest) :
    signedYear (sign ++ (ds ++ rest)) =
      some (if sign = ['-'] then -(Nat.ofDigitChars 10 ds 0 : Int) else Nat.ofDigitChars 10 ds 0,
        rest) := by
  have hnone : yearDigits 1 none (ds ++ rest) = some ((Nat.ofDigitChars 10 ds 0 : Int), rest) :=
    yearDigits_append hds hleast (.inr ⟨nofun, hrest⟩)
  rcases hsign with ⟨rfl, hmost⟩ | rfl | rfl
  · have hfour : yearDigits 1 (some 4) (ds ++ rest) = some ((Nat.ofDigitChars 10 ds 0 : Int), rest) :=
      yearDigits_append hds hleast (.inr ⟨by rintro k ⟨⟩; exact hmost, hrest⟩)
    rw [List.nil_append, signedYear.eq_def]
    split
    · next h => exact absurd (head_digits hds hleast rest '-' (by rw [h]; rfl)) (by decide)
    · next h => exact absurd (head_digits hds hleast rest '+' (by rw [h]; rfl)) (by decide)
    · exact hfour
  · exact hnone
  · exact (bind_some hnone).trans rfl

theorem takes_year : Takes yearField IsYear yearValue Stops where
  taken cs a rest h := by
    obtain ⟨u, mid, hmid, h⟩ := bind_eq.mp h
    obtain rfl := blanks_eq.mp hmid
    obtain ⟨sign, ds, hsplit, hds, hleast, hsign, rfl⟩ := signedYear_some h
    obtain ⟨blanks, hcs, hblanks⟩ := exists_blanks cs
    refine ⟨blanks ++ (sign ++ ds), ?_, ⟨blanks, sign, ds, rfl, hblanks, hds, hleast, hsign⟩, ?_⟩
    · rw [hcs, hsplit, List.append_assoc, List.append_assoc]
    · exact yearValue_eq hblanks hds (hsign.imp_left And.left)
  scans part rest h hrest := by
    obtain ⟨blanks, sign, ds, rfl, hblanks, hds, hleast, hsign⟩ := h
    have hmid : ∀ c ∈ (sign ++ (ds ++ rest)).head?, Text.isBlank c = false := by
      rcases hsign with ⟨rfl, -⟩ | rfl | rfl
      · exact fun c hc => not_blank_of_digit (head_digits hds hleast rest c hc)
      · rintro c ⟨⟩; decide
      · rintro c ⟨⟩; decide
    rw [yearValue_eq hblanks hds (hsign.imp_left And.left), List.append_assoc, List.append_assoc]
    exact bind_eq.mpr ⟨(), _, blanks_eq.mpr (blanks_append hblanks hmid),
      signedYear_append hds hleast hsign hrest⟩

theorem takes_fraction :
    Takes fraction IsFraction (fun _ => ()) fun rest => Stops rest ∧ rest.head? ≠ some '.' where
  taken cs a rest h := by
    rw [fraction.eq_def] at h
    split at h
    · next digits =>
      dsimp only at h
      split at h
      · next hless =>
        cases h
        refine ⟨'.' :: digits.takeWhile Char.isDigit, ?_, .inr ⟨_, rfl, ?_, ?_⟩, rfl⟩
        · rw [List.cons_append, List.takeWhile_append_dropWhile]
        · exact fun c hc => List.mem_takeWhile_imp hc
        · have hlength := congrArg List.length
            (List.takeWhile_append_dropWhile (p := Char.isDigit) (l := digits))
          rw [List.length_append] at hlength
          omega
      · contradiction
    · cases h
      exact ⟨[], rfl, .inl rfl, rfl⟩
  scans part rest h hrest := by
    rcases h with rfl | ⟨ds, rfl, hds, hone⟩
    · rw [fraction.eq_def]
      split
      · next heq => exact absurd (congrArg List.head? heq) hrest.2
      · rfl
    · have hdrop : (ds ++ rest).dropWhile Char.isDigit = rest := by
        rw [List.dropWhile_append_of_pos hds]
        cases rest with
        | nil => rfl
        | cons c rest => rw [List.dropWhile_cons, hrest.1 c rfl]; rfl
      simp only [List.cons_append, fraction, hdrop, List.length_append]
      exact if_pos (by omega)

theorem takes_offset :
    Takes offset (IsOffset ['+', '-', '\u2212']) (fun _ => ()) fun _ => True where
  taken cs a rest h := by
    rw [offset.eq_def] at h
    split at h
    · cases h
      exact ⟨['z'], rfl, .inr (.inl rfl), rfl⟩
    · cases h
      exact ⟨['Z'], rfl, .inl rfl, rfl⟩
    · simp only [bind_eq, literal_eq, guard_eq] at h
      obtain ⟨-, _, ⟨sign, hsign, rfl⟩, _, _, first, -, _, ⟨colon, hcolon, rfl⟩, _, _, last, hlow,
        rfl⟩ := h
      obtain ⟨hours, rfl, hhours, rfl⟩ := (takes_exact 2).taken _ _ _ first
      obtain ⟨minutes, rfl, hminutes, rfl⟩ := (takes_exact 2).taken _ _ _ last
      obtain rfl := beq_iff_eq.mp hcolon
      simp only [Bool.and_eq_true, decide_eq_true_eq] at hlow
      refine ⟨sign :: (hours ++ ':' :: minutes), by simp, .inr (.inr ⟨sign, hours, minutes, rfl, ?_,
        hhours, hminutes, hlow⟩), rfl⟩
      simpa [or_assoc] using hsign
  scans part rest h _ := by
    rcases h with rfl | rfl | ⟨sign, hours, minutes, rfl, hsign, hhours, hminutes, hlow⟩
    · rfl
    · rfl
    · have hother : sign ≠ 'z' ∧ sign ≠ 'Z' := by
        constructor <;> rintro rfl <;> exact absurd hsign (by decide)
      rw [offset.eq_def]
      split
      · next heq => exact absurd (List.head_eq_of_cons_eq heq) hother.1
      · next heq => exact absurd (List.head_eq_of_cons_eq heq) hother.2
      · have hsign : (sign == '+' || sign == '-' || sign == '\u2212') = true := by
          simpa [or_assoc] using hsign
        rw [List.cons_append, List.append_assoc]
        refine (bind_some (literal_cons hsign _)).trans ?_
        refine (bind_some ((takes_exact 2).scans hours _ hhours trivial)).trans ?_
        refine (bind_some (literal_cons rfl _)).trans ?_
        refine (bind_some ((takes_exact 2).scans minutes rest hminutes trivial)).trans ?_
        exact guard_eq.mpr ⟨by simpa using hlow, rfl⟩

end

end DataClasses.Timestamp
