/-!
# Entries in the order of their first appearance

A list of pairs in which each key has one place, that of its first appearance, and the
value it was given last.
-/

set_option autoImplicit false

namespace DataClasses

abbrev Entries (α : Type) := List (String × α)

namespace Entries

variable {α : Type}

def get? (entries : Entries α) (key : String) : Option α :=
  (entries.find? (·.1 == key)).map (·.2)

def has (entries : Entries α) (key : String) : Bool := entries.any (·.1 == key)

def put : Entries α → String → α → Entries α
  | [], key, value => [(key, value)]
  | entry :: rest, key, value =>
    if entry.1 == key then (key, value) :: rest else entry :: put rest key value

def erase (entries : Entries α) (key : String) : Entries α :=
  entries.filter (·.1 != key)

theorem get?_put (entries : Entries α) (key other : String) (value : α) :
    (entries.put key value).get? other =
      if key = other then some value else entries.get? other := by
  induction entries with
  | nil =>
    by_cases h : key = other <;> simp [put, get?, h]
  | cons entry rest ih =>
    simp only [get?] at ih
    by_cases h : entry.1 = key
    · by_cases hk : key = other <;> simp [put, get?, h, hk]
    · by_cases he : entry.1 = other
      · subst he
        simp [put, get?, h, Ne.symm h]
      · simp [put, get?, h, he, ih]

/-- The keys keep their places, and a new one comes last. -/
theorem keys_put (entries : Entries α) (key : String) (value : α) :
    (entries.put key value).map (·.1) =
      if key ∈ entries.map (·.1) then entries.map (·.1) else entries.map (·.1) ++ [key] := by
  induction entries with
  | nil => simp [put]
  | cons entry rest ih =>
    by_cases h : entry.1 = key
    · simp [put, h]
    · simp only [put, beq_iff_eq, h, if_false, List.map_cons, ih, List.mem_cons,
        Ne.symm h, false_or]
      split <;> rfl

end Entries
end DataClasses
