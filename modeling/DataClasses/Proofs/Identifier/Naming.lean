import DataClasses.ClassTree.Inference
import DataClasses.Proofs.Identifier.Alphabet
import Mathlib.Data.List.Nodup
import Mathlib.Data.List.Perm.Subperm

/-!
# Names made from keys

A sanitized key is an identifier and stays one when it is capitalised, made singular or
given a number. The name chosen for a member is free of the names before it.
-/

set_option autoImplicit false

namespace DataClasses.Identifier

def IsName (name : String) : Prop := isIdentifier name.toList = true

instance (name : String) : Decidable (IsName name) := inferInstanceAs (Decidable (_ = true))

theorem isIdentifier_iff {cs : List Char} :
    isIdentifier cs = true ↔ ∃ c ds, cs = c :: ds ∧ isStart c = true ∧
      ∀ d ∈ ds, isPart d = true := by
  cases cs with
  | nil => simp [isIdentifier]
  | cons c ds => simp [isIdentifier]

theorem isPart_of_mem {cs : List Char} (h : isIdentifier cs = true) : ∀ c ∈ cs, isPart c = true := by
  obtain ⟨c, ds, rfl, hc, hds⟩ := isIdentifier_iff.mp h
  intro d hd
  rcases List.mem_cons.mp hd with rfl | hd
  · exact isPart_of_isStart hc
  · exact hds d hd

theorem isIdentifier_append {cs ds : List Char} (h : isIdentifier cs = true)
    (hd : ∀ d ∈ ds, isPart d = true) : isIdentifier (cs ++ ds) = true := by
  obtain ⟨c, es, rfl, hc, hes⟩ := isIdentifier_iff.mp h
  refine isIdentifier_iff.mpr ⟨c, es ++ ds, rfl, hc, ?_⟩
  intro d hmem
  rcases List.mem_append.mp hmem with hmem | hmem
  · exact hes d hmem
  · exact hd d hmem

theorem maskForeign_part (afterBlank : Bool) (cs : List Char) :
    ∀ d ∈ maskForeign afterBlank cs, isPart d = true := by
  induction cs generalizing afterBlank with
  | nil => simp [maskForeign]
  | cons c cs ih =>
    have hunder : isPart '_' = true := by decide
    intro d hd
    rw [maskForeign] at hd
    split at hd
    · split at hd
      · exact ih true d hd
      · rcases List.mem_cons.mp hd with rfl | hd
        · exact hunder
        · exact ih true d hd
    · rcases List.mem_cons.mp hd with rfl | hd
      · split
        · assumption
        · exact hunder
      · exact ih false d hd

theorem maskForeign_ne_nil {cs : List Char} (h : cs ≠ []) : maskForeign false cs ≠ [] := by
  cases cs with
  | nil => exact absurd rfl h
  | cons c cs => rw [maskForeign]; split <;> simp

theorem replaceEntities_ne_nil {cs : List Char} (h : cs ≠ []) : replaceEntities cs ≠ [] := by
  fun_cases replaceEntities cs with
  | case1 => simp
  | case2 => simp
  | case3 => exact absurd rfl h

theorem startSafely_isIdentifier {cs : List Char} (hne : cs ≠ [])
    (h : ∀ d ∈ cs, isPart d = true) : isIdentifier (startSafely cs) = true := by
  cases cs with
  | nil => exact absurd rfl hne
  | cons c cs =>
    rw [startSafely]
    split
    · next hc => exact isIdentifier_iff.mpr ⟨c, cs, rfl, hc, fun d hd => h d (by simp [hd])⟩
    · exact isIdentifier_append (by decide) h

theorem sanitize_isName (key : String) : IsName (sanitize key) := by
  rw [sanitize]
  split
  · decide
  · next hne =>
    have hkey : key.toList ≠ [] := by simpa [String.isEmpty_iff] using hne
    rw [IsName, String.toList_ofList]
    exact startSafely_isIdentifier (maskForeign_ne_nil (replaceEntities_ne_nil hkey))
      (maskForeign_part false _)

theorem capitalize_isName (enabled : Bool) {name : String} (h : IsName name) :
    IsName (capitalize enabled name) := by
  cases enabled with
  | false => exact h
  | true =>
    obtain ⟨c, cs, hname, hc, hcs⟩ := isIdentifier_iff.mp h
    rw [capitalize, if_pos rfl, IsName, String.toList_ofList, hname, capitalizeFirst]
    exact isIdentifier_iff.mpr ⟨_, cs, rfl, start_upperChar hc, hcs⟩

theorem singular_isName {name : String} (h : IsName name) : IsName (singular name) := by
  rw [singular]
  split
  · next c cs hrev =>
    have hname : name.toList = (c :: cs).reverse ++ ['s'] := by
      have := congrArg List.reverse hrev
      simpa using this
    rw [IsName, String.toList_ofList]
    rw [IsName, hname] at h
    generalize hfront : (c :: cs).reverse = front at h ⊢
    cases front with
    | nil => simp at hfront
    | cons d ds =>
      obtain ⟨e, es, heq, he, hes⟩ := isIdentifier_iff.mp h
      simp only [List.cons_append, List.cons.injEq] at heq
      obtain ⟨rfl, rfl⟩ := heq
      exact isIdentifier_iff.mpr ⟨d, ds, rfl, he, fun x hx => hes x (by simp [hx])⟩
  · rw [IsName, String.toList_append]
    exact isIdentifier_append h (List.all_eq_true.mp (by decide))

end DataClasses.Identifier

namespace DataClasses.ClassTree

open Identifier (IsName)

theorem numbered_isName {name : String} (h : IsName name) (k : Nat) : IsName (numbered name k) := by
  rw [numbered, String.append_assoc, IsName, String.toList_append]
  refine Identifier.isIdentifier_append h ?_
  intro d hd
  rw [String.toList_append, List.mem_append] at hd
  rcases hd with hd | hd
  · have hunder : "_".toList.all Identifier.isPart = true := by decide
    exact List.all_eq_true.mp hunder d hd
  · have hdigit : d.isDigit = true := by
      rw [Nat.toString_eq_repr, Nat.toList_repr] at hd
      exact Nat.isDigit_of_mem_toDigits (by decide) (by decide) hd
    exact Identifier.digit_part hdigit

theorem numbered_inj {name : String} {j k : Nat} (h : numbered name j = numbered name k) : j = k := by
  rw [numbered, numbered, String.append_right_inj] at h
  have hdigits : Nat.toDigits 10 j = Nat.toDigits 10 k := by
    rw [← Nat.toList_repr, ← Nat.toList_repr]
    exact congrArg String.toList h
  have hvalue := congrArg (fun ds => Nat.ofDigitChars 10 ds 0) hdigits
  simpa [Nat.ofDigitChars_toDigits] using hvalue

theorem numbered_ne (name : String) (k : Nat) : numbered name k ≠ name := by
  intro h
  have hlength := congrArg (fun s => s.toList.length) h
  simp [numbered] at hlength

theorem candidateNames_nodup (used : List String) (name : String) :
    (candidateNames used name).Nodup := by
  rw [candidateNames, List.nodup_cons]
  constructor
  · rw [List.mem_map]
    rintro ⟨k, -, hk⟩
    exact numbered_ne name _ hk
  · refine List.Nodup.map ?_ List.nodup_range
    intro j k hjk
    have := numbered_inj hjk
    omega

/-- There are more candidates than used names, so one of them is free. -/
theorem exists_free (used : List String) (name : String) :
    ∃ n ∈ candidateNames used name, n ∉ used := by
  by_contra hno
  push Not at hno
  have hlength := ((candidateNames_nodup used name).subperm hno).length_le
  simp only [candidateNames, List.length_cons, List.length_map, List.length_range] at hlength
  omega

theorem freeName_not_mem (used : List String) (name : String) : freeName used name ∉ used := by
  obtain ⟨n, hn, hfree⟩ := exists_free used name
  rw [freeName]
  cases hfind : (candidateNames used name).find? (!used.contains ·) with
  | none =>
    have := List.find?_eq_none.mp hfind n hn
    simp [hfree] at this
  | some m =>
    have := List.find?_some hfind
    simpa using this

/-- A name in use gets the least number from 2 on with which it is free, and finds it after no more
tries than there are names in use. -/
theorem freeName_numbered {used : List String} {name : String} (h : name ∈ used) :
    ∃ k, 2 ≤ k ∧ k ≤ used.length + 1 ∧ freeName used name = numbered name k ∧
      numbered name k ∉ used ∧ ∀ j, 2 ≤ j → j < k → numbered name j ∈ used := by
  have hfree := freeName_not_mem used name
  rw [freeName, candidateNames, List.find?_cons_of_neg (by simpa using h), List.find?_map] at hfree ⊢
  cases hfind : (List.range used.length).find? ((!used.contains ·) ∘ fun k => numbered name (k + 2)) with
  | none =>
    rw [hfind] at hfree
    exact absurd h hfree
  | some i =>
    rw [hfind] at hfree
    rw [List.find?_range_eq_some] at hfind
    obtain ⟨-, hi, hbefore⟩ := hfind
    have hlt := List.mem_range.mp hi
    refine ⟨i + 2, by omega, by omega, rfl, hfree, ?_⟩
    intro j hj hji
    have hused := hbefore (j - 2) (by omega)
    rw [Function.comp_apply, Nat.sub_add_cancel hj] at hused
    simpa using hused

theorem freeName_isName (used : List String) {name : String} (h : IsName name) :
    IsName (freeName used name) := by
  rw [freeName]
  cases hfind : (candidateNames used name).find? (!used.contains ·) with
  | none => exact h
  | some m =>
    have hm := List.mem_of_find?_eq_some hfind
    rcases List.mem_cons.mp hm with rfl | hm
    · exact h
    · obtain ⟨k, -, rfl⟩ := List.mem_map.mp hm
      exact numbered_isName h _

theorem memberNames_length (capitalize : Bool) (used keys : List String) :
    (memberNames capitalize used keys).length = keys.length := by
  induction keys generalizing used with
  | nil => rfl
  | cons key keys ih => simp [memberNames, ih]

theorem memberNames_isName (capitalize : Bool) (used keys : List String) :
    ∀ n ∈ memberNames capitalize used keys, IsName n := by
  induction keys generalizing used with
  | nil => simp [memberNames]
  | cons key keys ih =>
    intro n hn
    rcases List.mem_cons.mp hn with rfl | hn
    · exact freeName_isName used
        (Identifier.capitalize_isName capitalize (Identifier.sanitize_isName key))
    · exact ih _ n hn

theorem memberNames_not_used (capitalize : Bool) (used keys : List String) :
    ∀ n ∈ memberNames capitalize used keys, n ∉ used := by
  induction keys generalizing used with
  | nil => simp [memberNames]
  | cons key keys ih =>
    intro n hn
    rcases List.mem_cons.mp hn with rfl | hn
    · exact freeName_not_mem _ _
    · intro hused
      exact ih _ n hn (by simp [hused])

theorem memberNames_nodup (capitalize : Bool) (used keys : List String) :
    (memberNames capitalize used keys).Nodup := by
  induction keys generalizing used with
  | nil => simp [memberNames]
  | cons key keys ih =>
    refine List.nodup_cons.mpr ⟨?_, ih _⟩
    intro hmem
    exact memberNames_not_used _ _ _ _ hmem (by simp)

theorem namesOf_length (capitalize : Bool) (members : List (String × Json)) :
    (namesOf capitalize members).length = members.length := by
  rw [namesOf, memberNames_length, List.length_map]

theorem namesOf_isName (capitalize : Bool) (members : List (String × Json)) :
    ∀ n ∈ namesOf capitalize members, IsName n := memberNames_isName capitalize [] _

theorem namesOf_nodup (capitalize : Bool) (members : List (String × Json)) :
    (namesOf capitalize members).Nodup := memberNames_nodup capitalize [] _

end DataClasses.ClassTree
