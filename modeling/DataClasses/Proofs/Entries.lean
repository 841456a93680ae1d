import DataClasses.Entries
import Mathlib.Data.List.Nodup

/-!
# Look-up in entries

Where keys are not repeated, what is looked up is what is there, and giving a key its value adds no
key but that one.
-/

set_option autoImplicit false

namespace DataClasses

namespace Entries

variable {α : Type} {entries : Entries α} {key : String} {value : α}

theorem get?_of_mem (hnodup : (entries.map (·.1)).Nodup) (h : (key, value) ∈ entries) :
    entries.get? key = some value := by
  induction entries with
  | nil => simp at h
  | cons entry rest ih =>
    rw [List.map_cons, List.nodup_cons] at hnodup
    rcases List.mem_cons.mp h with rfl | h
    · simp [get?]
    · have hne : entry.1 ≠ key := by
        rintro rfl
        exact hnodup.1 (List.mem_map_of_mem (f := (·.1)) h)
      have hrest := ih hnodup.2 h
      simp only [get?] at hrest
      simpa [get?, hne] using hrest

theorem mem_keys_put {other : String} :
    other ∈ (entries.put key value).map (·.1) ↔ other = key ∨ other ∈ entries.map (·.1) := by
  rw [keys_put]
  split
  · next h =>
    constructor
    · exact .inr
    · rintro (rfl | hother)
      · exact h
      · exact hother
  · rw [List.mem_append, List.mem_singleton, or_comm]

theorem mem_put {entry : String × α} (h : entry ∈ entries.put key value) :
    entry = (key, value) ∨ entry ∈ entries := by
  induction entries with
  | nil => exact .inl (List.mem_singleton.mp h)
  | cons first rest ih =>
    rw [put] at h
    split at h
    · rcases List.mem_cons.mp h with h | h
      · exact .inl h
      · exact .inr (List.mem_cons_of_mem _ h)
    · rcases List.mem_cons.mp h with rfl | h
      · exact .inr List.mem_cons_self
      · exact (ih h).imp_right (List.mem_cons_of_mem _)

theorem keys_put_nodup (h : (entries.map (·.1)).Nodup) :
    ((entries.put key value).map (·.1)).Nodup := by
  rw [keys_put]
  split
  · exact h
  · next hkey =>
    rw [List.nodup_append]
    refine ⟨h, List.nodup_singleton key, ?_⟩
    rintro other hother _ hmem rfl
    exact hkey (List.mem_singleton.mp hmem ▸ hother)

theorem has_iff : entries.has key = true ↔ key ∈ entries.map (·.1) := by
  simp [has]

theorem mem_of_get? (h : entries.get? key = some value) : (key, value) ∈ entries := by
  simp only [get?, Option.map_eq_some_iff] at h
  obtain ⟨⟨k, v⟩, hfind, rfl⟩ := h
  have hkey : k = key := by simpa using List.find?_some hfind
  exact hkey ▸ List.mem_of_find?_eq_some hfind

theorem get?_eq_none_iff : entries.get? key = none ↔ key ∉ entries.map (·.1) := by
  simp only [get?, Option.map_eq_none_iff, List.find?_eq_none, beq_iff_eq, List.mem_map, not_exists,
    not_and]

theorem get?_erase (entries : Entries α) (key other : String) :
    (entries.erase key).get? other = if key = other then none else entries.get? other := by
  simp only [get?, erase, List.find?_filter]
  split
  · next h => simp [h]
  · next h =>
    congr 2
    funext entry
    by_cases hentry : entry.1 = other
    · simp [hentry, Ne.symm h]
    · simp [hentry]

theorem put_of_new (h : key ∉ entries.map (·.1)) : entries.put key value = entries ++ [(key, value)] := by
  induction entries with
  | nil => rfl
  | cons entry rest ih =>
    rw [List.map_cons, List.mem_cons, not_or] at h
    rw [put, if_neg (by simpa using Ne.symm h.1), ih h.2, List.cons_append]

end Entries

end DataClasses
