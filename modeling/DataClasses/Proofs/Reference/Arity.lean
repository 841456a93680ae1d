import DataClasses.Proofs.Reference.Registered
import Mathlib.Data.List.TakeWhile

/-!
# The written form of exported types

A library writes a generic type with its number of parameters in digits behind an accent. A plus sign
and zeros before the number are accepted as well, and then several texts stand for one type.
-/

set_option autoImplicit false

namespace DataClasses.Assembly

open Identifier (IsName)

section

variable {c : Char} {ds : List Char} {n : Nat}

theorem digit_lt_ten (h : c.isDigit = true) : c.toNat - 48 < 10 := by
  have hrange := Char.isDigit_iff_toNat.mp h
  change 48 ≤ c.toNat ∧ c.toNat ≤ 57 at hrange
  omega

theorem digitChar_of_isDigit (h : c.isDigit = true) : Nat.digitChar (c.toNat - 48) = c := by
  have hrange := Char.isDigit_iff_toNat.mp h
  change 48 ≤ c.toNat ∧ c.toNat ≤ 57 at hrange
  apply Char.toNat_inj.mp
  rw [Nat.toNat_digitChar_of_lt_ten (digit_lt_ten h)]
  omega

/-- Digits behind a number that is not zero end the number that they go on to. -/
theorem toDigits_append (hds : ∀ d ∈ ds, d.isDigit = true) (hn : 0 < n) :
    Nat.toDigits 10 (Nat.ofDigitChars 10 ds n) = Nat.toDigits 10 n ++ ds := by
  induction ds generalizing n with
  | nil => rw [Nat.ofDigitChars_nil, List.append_nil]
  | cons d ds ih =>
    have hd := hds d List.mem_cons_self
    have hone : Nat.toDigits 10 n ++ [d] = Nat.toDigits 10 (10 * n + (d.toNat - 48)) := by
      rw [← Nat.toDigits_append_toDigits (by decide) hn (digit_lt_ten hd),
        Nat.toDigits_of_lt_base (digit_lt_ten hd), digitChar_of_isDigit hd]
    calc Nat.toDigits 10 (Nat.ofDigitChars 10 (d :: ds) n)
        = Nat.toDigits 10 (Nat.ofDigitChars 10 ds (10 * n + (d.toNat - 48))) := by
          rw [Nat.ofDigitChars_cons]; rfl
      _ = Nat.toDigits 10 (10 * n + (d.toNat - 48)) ++ ds :=
          ih (fun e he => hds e (List.mem_cons_of_mem _ he)) (by omega)
      _ = Nat.toDigits 10 n ++ (d :: ds) := by rw [← hone, List.append_assoc]; rfl

/-- Digits are those of their number, with zeros before them. -/
theorem zeros_of_digits (hds : ∀ d ∈ ds, d.isDigit = true) (hpos : 0 < Nat.ofDigitChars 10 ds 0) :
    ∃ zeros, ds = List.replicate zeros '0' ++ Nat.toDigits 10 (Nat.ofDigitChars 10 ds 0) := by
  induction ds with
  | nil => simp at hpos
  | cons d ds ih =>
    have hd := hds d List.mem_cons_self
    have hrest : ∀ e ∈ ds, e.isDigit = true := fun e he => hds e (List.mem_cons_of_mem _ he)
    have hvalue : Nat.ofDigitChars 10 (d :: ds) 0 = Nat.ofDigitChars 10 ds (d.toNat - 48) := by
      rw [Nat.ofDigitChars_cons]
      exact congrArg _ (Nat.zero_add _)
    by_cases hzero : d.toNat - 48 = 0
    · have hd0 : d = '0' := by rw [← digitChar_of_isDigit hd, hzero]; rfl
      rw [hvalue, hzero] at hpos ⊢
      obtain ⟨zeros, hsplit⟩ := ih hrest hpos
      refine ⟨zeros + 1, ?_⟩
      rw [List.replicate_succ, List.cons_append, ← hsplit, hd0]
    · refine ⟨0, ?_⟩
      rw [hvalue, toDigits_append hrest (by omega), Nat.toDigits_of_lt_base (digit_lt_ten hd),
        digitChar_of_isDigit hd]
      rfl

/-- The digits of a number do not begin with a zero. -/
theorem head_toDigits (hn : 0 < n) : ∀ c ∈ (Nat.toDigits 10 n).head?, c ≠ '+' ∧ c ≠ '0' := by
  have hdigits : ∀ d ∈ Nat.toDigits 10 n, d.isDigit = true := fun d hd =>
    Nat.isDigit_of_mem_toDigits (by decide) (by decide) hd
  have hvalue : Nat.ofDigitChars 10 (Nat.toDigits 10 n) 0 = n := Nat.ofDigitChars_ten_toDigits
  intro c hc
  refine ⟨?_, ?_⟩
  · rintro rfl
    exact absurd (hdigits '+' (List.mem_of_head? hc)) (by decide)
  · rintro rfl
    -- Without its first zero the number would have fewer digits.
    obtain ⟨rest, hrest⟩ := List.head?_eq_some_iff.mp hc
    rw [hrest, Nat.ofDigitChars_cons] at hvalue
    have hsame : Nat.ofDigitChars 10 rest 0 = n := hvalue
    have hmore : ∀ d ∈ rest, d.isDigit = true := fun d hd =>
      hdigits d (by rw [hrest]; exact List.mem_cons_of_mem _ hd)
    obtain ⟨zeros, hsplit⟩ := zeros_of_digits hmore (by rw [hsame]; exact hn)
    have hlength := congrArg List.length hsplit
    rw [hsame, hrest, List.length_append, List.length_cons] at hlength
    omega

end

def canonical (name : String) (arity : Nat) : String :=
  if arity = 0 then name else name ++ "`" ++ toString arity

def IsLead (lead : List Char) : Prop :=
  ∃ sign zeros, lead = sign ++ List.replicate zeros '0' ∧ (sign = [] ∨ sign = ['+'])

def Spells (raw name : String) (arity : Nat) : Prop :=
  arity = 0 ∧ raw = name ∨
    0 < arity ∧ ∃ lead, IsLead lead ∧ raw = name ++ "`" ++ String.ofList lead ++ toString arity

def IsPlain (raw : String) : Prop :=
  ∀ c ∈ ((raw.toList.dropWhile (· != '`')).drop 1).head?, c ≠ '+' ∧ c ≠ '0'

instance (raw : String) : Decidable (IsPlain raw) := Option.decidableForallMem _

section

variable {raw name : String} {arity : Nat} {cs lead suffix : List Char} {n : Nat}

theorem unsigned?_eq_some :
    unsigned? cs = some n ↔ cs ≠ [] ∧ (∀ d ∈ cs, d.isDigit = true) ∧
      Nat.ofDigitChars 10 cs 0 = n ∧
      n < arityLimit := by
  simp only [unsigned?]
  simp only [ite_eq_iff, reduceCtorEq, and_false, false_or, or_false, Option.some.injEq, Bool.or_eq_true,
    List.isEmpty_iff, Bool.not_eq_true', not_or, Bool.not_eq_false, List.all_eq_true, and_assoc]
  constructor
  · rintro ⟨hne, hds, hlimit, rfl⟩
    exact ⟨hne, hds, rfl, hlimit⟩
  · rintro ⟨hne, hds, rfl, hlimit⟩
    exact ⟨hne, hds, hlimit, rfl⟩

theorem number?_of_ne (h : ∀ rest, cs ≠ '+' :: rest) : number? cs = unsigned? cs := by
  rw [number?]
  exact h

theorem number?_eq_some :
    number? cs = some n ↔ ∃ sign ds, cs = sign ++ ds ∧ (sign = [] ∨ sign = ['+']) ∧ ds ≠ [] ∧
      (∀ d ∈ ds, d.isDigit = true) ∧ Nat.ofDigitChars 10 ds 0 = n ∧ n < arityLimit := by
  constructor
  · intro h
    by_cases hplus : ∃ rest, cs = '+' :: rest
    · obtain ⟨rest, rfl⟩ := hplus
      exact ⟨['+'], rest, rfl, .inr rfl, unsigned?_eq_some.mp h⟩
    · rw [number?_of_ne (not_exists.mp hplus)] at h
      exact ⟨[], cs, rfl, .inl rfl, unsigned?_eq_some.mp h⟩
  · rintro ⟨sign, ds, rfl, rfl | rfl, hne, hds, hvalue⟩
    · have hplus : ∀ rest, [] ++ ds ≠ '+' :: rest := by
        rintro rest rfl
        exact absurd (hds '+' List.mem_cons_self) (by decide)
      rw [number?_of_ne hplus]
      exact unsigned?_eq_some.mpr ⟨hne, hds, hvalue⟩
    · exact unsigned?_eq_some.mpr ⟨hne, hds, hvalue⟩

/-- A number that is not zero, with what may stand before it. -/
theorem number?_iff (hn : 0 < n) :
    number? cs = some n ↔ n < arityLimit ∧ ∃ lead, IsLead lead ∧ cs = lead ++ Nat.toDigits 10 n := by
  rw [number?_eq_some]
  constructor
  · rintro ⟨sign, ds, rfl, hsign, -, hds, rfl, hlimit⟩
    obtain ⟨zeros, hsplit⟩ := zeros_of_digits hds hn
    exact ⟨hlimit, sign ++ List.replicate zeros '0', ⟨sign, zeros, rfl, hsign⟩, by
      rw [List.append_assoc, ← hsplit]⟩
  · rintro ⟨hlimit, lead, ⟨sign, zeros, rfl, hsign⟩, rfl⟩
    refine ⟨sign, List.replicate zeros '0' ++ Nat.toDigits 10 n, List.append_assoc .., hsign, ?_, ?_, ?_,
      hlimit⟩
    · exact fun h => Nat.toDigits_ne_nil (List.append_eq_nil_iff.mp h).2
    · intro d hd
      rcases List.mem_append.mp hd with hd | hd
      · rw [List.eq_of_mem_replicate hd]
        decide
      · exact Nat.isDigit_of_mem_toDigits (by decide) (by decide) hd
    · rw [Nat.ofDigitChars_append, Nat.ofDigitChars_replicate_zero, Nat.mul_zero]
      exact Nat.ofDigitChars_ten_toDigits

theorem accent_notMem (h : IsName name) : ∀ c ∈ name.toList, (c != '`') = true := by
  intro c hc
  rw [bne_iff_ne]
  rintro rfl
  exact absurd (Identifier.isPart_of_mem h '`' hc) (by decide)

theorem splitArity_name (h : IsName name) : splitArity name = (name, 0) := by
  have hplain := accent_notMem h
  rw [splitArity, List.dropWhile_eq_nil_iff.mpr hplain, List.takeWhile_eq_self_iff.mpr hplain,
    String.ofList_toList]

theorem splitArity_generic (h : IsName name) (suffix : List Char) :
    splitArity (name ++ "`" ++ String.ofList suffix) = (name, (number? suffix).getD 0) := by
  have hplain := accent_notMem h
  have hcs : (name ++ "`" ++ String.ofList suffix).toList = name.toList ++ '`' :: suffix := by simp
  have hdrop : ('`' :: suffix).dropWhile (· != '`') = '`' :: suffix := by simp
  have htake : ('`' :: suffix).takeWhile (· != '`') = [] := by simp
  rw [splitArity, hcs, List.dropWhile_append_of_pos hplain, List.takeWhile_append_of_pos hplain, hdrop, htake,
    List.append_nil, String.ofList_toList]

/-- A text is one name, or a name before an accent and what follows it. -/
theorem exists_split (raw : String) :
    '`' ∉ raw.toList ∧ (splitArity raw).1 = raw ∨
      '`' ∈ raw.toList ∧ ∃ suffix, (splitArity raw).1 ++ "`" ++ String.ofList suffix = raw := by
  have hname : (splitArity raw).1 = String.ofList (raw.toList.takeWhile (· != '`')) := by
    rw [splitArity]
    split <;> rfl
  have hsplit : raw.toList.takeWhile (· != '`') ++ raw.toList.dropWhile (· != '`') = raw.toList :=
    List.takeWhile_append_dropWhile
  rw [hname]
  cases hdrop : raw.toList.dropWhile (· != '`') with
  | nil =>
    rw [hdrop, List.append_nil] at hsplit
    refine .inl ⟨fun hmem => ?_, by rw [hsplit, String.ofList_toList]⟩
    exact absurd (List.dropWhile_eq_nil_iff.mp hdrop '`' hmem) (by decide)
  | cons c suffix =>
    have hc : c = '`' := by
      have hhead := List.head?_dropWhile_not (· != '`') raw.toList
      rw [hdrop] at hhead
      simpa using hhead
    rw [hdrop, hc] at hsplit
    refine .inr ⟨by rw [← hsplit]; simp, suffix, ?_⟩
    rw [← String.toList_inj]
    simpa using hsplit

theorem spells_generic (lead : List Char) :
    name ++ "`" ++ String.ofList lead ++ toString arity =
      name ++ "`" ++ String.ofList (lead ++ Nat.toDigits 10 arity) := by
  rw [String.ofList_append, Nat.toString_eq_ofList_toDigits, String.append_assoc]

/-- The accepted types: a name, and with an accent a number that is not zero and below the limit. -/
theorem isTypeName_iff :
    isTypeName raw = true ∧ splitArity raw = (name, arity) ↔
      IsName name ∧ arity < arityLimit ∧ Spells raw name arity := by
  constructor
  · rintro ⟨htype, hsplit⟩
    simp only [isTypeName, hsplit, Bool.and_eq_true, Bool.not_eq_true', Bool.and_eq_false_iff,
      List.contains_eq_mem, decide_eq_false_iff_not, beq_eq_false_iff_ne] at htype
    obtain ⟨hname, hnumber⟩ := htype
    refine ⟨hname, ?_⟩
    rcases exists_split raw with ⟨-, hraw⟩ | ⟨haccent, suffix, hraw⟩
    · rw [hsplit] at hraw
      rw [← hraw, splitArity_name hname] at hsplit
      obtain ⟨-, rfl⟩ := Prod.mk.inj hsplit
      exact ⟨by decide, .inl ⟨rfl, hraw.symm⟩⟩
    · have hpos : 0 < arity := Nat.pos_of_ne_zero (hnumber.resolve_left (not_not_intro haccent))
      rw [hsplit] at hraw
      rw [← hraw, splitArity_generic hname] at hsplit
      obtain ⟨-, hvalue⟩ := Prod.mk.inj hsplit
      have hsome : number? suffix = some arity := by
        cases hnone : number? suffix with
        | none =>
          rw [hnone] at hvalue
          exact absurd hvalue hpos.ne
        | some n =>
          rw [hnone] at hvalue
          exact congrArg some hvalue
      obtain ⟨hlimit, lead, hlead, rfl⟩ := (number?_iff hpos).mp hsome
      exact ⟨hlimit, .inr ⟨hpos, lead, hlead, by rw [spells_generic, ← hraw]⟩⟩
  · rintro ⟨hname, hlimit, ⟨rfl, rfl⟩ | ⟨hpos, lead, hlead, rfl⟩⟩
    · refine ⟨?_, splitArity_name hname⟩
      have haccent : '`' ∉ raw.toList := fun hmem => absurd (accent_notMem hname '`' hmem) (by decide)
      rw [isTypeName, splitArity_name hname]
      simp only [List.contains_eq_mem, haccent, decide_false, Bool.false_and, Bool.not_false, Bool.and_true]
      exact hname
    · rw [spells_generic]
      have hsplit := splitArity_generic hname (lead ++ Nat.toDigits 10 arity)
      rw [(number?_iff hpos).mpr ⟨hlimit, lead, hlead, rfl⟩] at hsplit
      refine ⟨?_, hsplit⟩
      rw [isTypeName, hsplit]
      simp only [Option.getD_some, beq_eq_false_iff_ne.mpr hpos.ne', Bool.and_false, Bool.not_false,
        Bool.and_true]
      exact hname

theorem canonical_iff (hname : IsName name) (h : Spells raw name arity) :
    raw = canonical name arity ↔ IsPlain raw := by
  have hplain := accent_notMem hname
  rcases h with ⟨rfl, rfl⟩ | ⟨hpos, lead, ⟨sign, zeros, rfl, hsign⟩, rfl⟩
  · refine iff_of_true rfl ?_
    rw [IsPlain, List.dropWhile_eq_nil_iff.mpr hplain]
    exact nofun
  · have hcs (suffix : List Char) :
        (((name ++ "`" ++ String.ofList suffix).toList.dropWhile (· != '`')).drop 1) = suffix := by
      have hsplit : (name ++ "`" ++ String.ofList suffix).toList = name.toList ++ '`' :: suffix := by simp
      rw [hsplit, List.dropWhile_append_of_pos hplain]
      simp
    have hcanonical : canonical name arity = name ++ "`" ++ String.ofList (Nat.toDigits 10 arity) := by
      rw [canonical, if_neg hpos.ne', Nat.toString_eq_ofList_toDigits]
    rw [IsPlain, spells_generic, hcs, hcanonical]
    constructor
    · intro h
      have hsame : sign ++ List.replicate zeros '0' ++ Nat.toDigits 10 arity = Nat.toDigits 10 arity :=
        String.ofList_injective (String.append_right_inj _ |>.mp h)
      rw [hsame]
      exact head_toDigits hpos
    · intro h
      rcases hsign with rfl | rfl
      · cases zeros with
        | zero => rfl
        | succ zeros => exact absurd rfl (h '0' rfl).2
      · exact absurd rfl (h '+' rfl).1

end

section

variable {a : Assembly}

/-- Every type of an accepted library is written as it may be, and as it should be without a plus
sign or a zero behind the accent; of such types no two that are written differently have the same
name and number. -/
theorem ofText_canonical_iff {path text : String} (h : ofText path text = .ok a) :
    (∀ n ∈ a.namespaces, ∀ raw ∈ n.types,
      IsName (splitArity raw).1 ∧ (splitArity raw).2 < arityLimit ∧
        Spells raw (splitArity raw).1 (splitArity raw).2 ∧
        (raw = canonical (splitArity raw).1 (splitArity raw).2 ↔ IsPlain raw)) ∧
      ∀ n ∈ a.namespaces, ∀ raw ∈ n.types, ∀ m ∈ a.namespaces, ∀ other ∈ m.types,
        IsPlain raw → IsPlain other → splitArity raw = splitArity other → raw = other := by
  have htypes : ∀ n ∈ a.namespaces, ∀ raw ∈ n.types, IsName (splitArity raw).1 ∧
      (splitArity raw).2 < arityLimit ∧ Spells raw (splitArity raw).1 (splitArity raw).2 :=
    fun n hn raw hraw => isTypeName_iff.mp
      ⟨((fault?_eq_none.mp (fault?_of_ofText h)).2.2 n hn).2 raw hraw, rfl⟩
  have hcanonical : ∀ n ∈ a.namespaces, ∀ raw ∈ n.types,
      (raw = canonical (splitArity raw).1 (splitArity raw).2 ↔ IsPlain raw) := fun n hn raw hraw =>
    canonical_iff (htypes n hn raw hraw).1 (htypes n hn raw hraw).2.2
  constructor
  · intro n hn raw hraw
    obtain ⟨hname, hlimit, hspells⟩ := htypes n hn raw hraw
    exact ⟨hname, hlimit, hspells, hcanonical n hn raw hraw⟩
  · intro n hn raw hraw m hm other hother hplain hplainOther hsame
    rw [(hcanonical n hn raw hraw).mpr hplain, (hcanonical m hm other hother).mpr hplainOther, hsame]

end

def ofList (raw : String) : Assembly := ⟨"Acme", "1.0.0.0", [⟨"Acme", [raw]⟩], "Acme.toml"⟩

def listText (raw : String) : String :=
  "name=\"Acme\"\nnamespace=[\x7bname=\"Acme\",types=[\"" ++ raw ++ "\"]\x7d]\nversion=\"1.0.0.0\""

theorem ofText_listText :
    ofText "Acme.toml" (listText "List`1") = .ok (ofList "List`1") ∧
      ofText "Acme.toml" (listText "List`+1") = .ok (ofList "List`+1") :=
  ⟨ofText_of_isFile (by decide +kernel) (by decide +kernel),
    ofText_of_isFile (by decide +kernel) (by decide +kernel)⟩

theorem list_canonical :
    ofText "Acme.toml" (listText "List`1") = .ok (ofList "List`1") ∧
      "List`1" = canonical (splitArity "List`1").1 (splitArity "List`1").2 := by
  have hmem : ⟨"Acme", ["List`1"]⟩ ∈ (ofList "List`1").namespaces := List.mem_cons_self
  have htypes := (ofText_canonical_iff ofText_listText.1).1 _ hmem "List`1" List.mem_cons_self
  exact ⟨ofText_listText.1, htypes.2.2.2.mpr (by decide)⟩

/-- A number with a plus sign is accepted, and stands for the same type as the number alone. -/
theorem signed_list_accepted :
    ofText "Acme.toml" (listText "List`+1") = .ok (ofList "List`+1") ∧
      splitArity "List`+1" = splitArity "List`1" ∧
      "List`+1" ≠ canonical (splitArity "List`+1").1 (splitArity "List`+1").2 :=
  ⟨ofText_listText.2, by decide, by decide⟩

end DataClasses.Assembly
