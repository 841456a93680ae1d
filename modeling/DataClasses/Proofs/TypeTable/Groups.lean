import DataClasses.TypeTable.Basic
import Mathlib.Data.List.Nodup
import Mathlib.Data.List.Pairwise

/-!
# Tables as groups of entries

Each type of a table is made up of the entries about it: it stands where the first of them does, is
what that one says, and has the members of all of them. Entries about different types make up a table as
they are, and no entry is without one in the table that has its name.
-/

set_option autoImplicit false

namespace DataClasses

def TypeEntry.identity (t : TypeEntry) : String × String × Nat :=
  (t.scope, t.name, t.typeParameters.length)

namespace TypeTable

theorem sameType_eq (t u : TypeEntry) : t.sameType u = (u.identity == t.identity) := by
  have hsame : t.sameType u = true ↔ u.identity = t.identity := by
    rw [eq_comm (a := u.identity)]
    simp only [TypeEntry.sameType, TypeEntry.identity, Bool.and_eq_true, beq_iff_eq, Prod.mk.injEq,
      and_assoc]
  by_cases h : u.identity = t.identity
  · rw [hsame.mpr h, h, beq_self_eq_true]
  · rw [beq_eq_false_iff_ne.mpr h]
    exact Bool.eq_false_iff.mpr fun htrue => h (hsame.mp htrue)

/-- What is inserted goes to the first type of a table or past it. -/
theorem foldl_insert_cons (entries : List TypeEntry) (t : TypeEntry) (rest : List TypeEntry) :
    entries.foldl insert (t :: rest) =
      (entries.filter (·.identity == t.identity)).foldl TypeEntry.merge t ::
        (entries.filter fun u => !u.identity == t.identity).foldl insert rest := by
  induction entries generalizing t rest with
  | nil => rfl
  | cons u entries ih =>
    have hmerge : (t.merge u).identity = t.identity := rfl
    rw [List.foldl_cons, insert, sameType_eq]
    by_cases h : u.identity = t.identity
    · simp [h, ih, hmerge]
    · simp [h, ih]

theorem foldl_merge (entries : List TypeEntry) (t : TypeEntry) :
    (entries.foldl TypeEntry.merge t).identity = t.identity ∧
      (entries.foldl TypeEntry.merge t).kind = t.kind ∧
      (entries.foldl TypeEntry.merge t).typeParameters = t.typeParameters ∧
      (entries.foldl TypeEntry.merge t).members = t.members ++ entries.flatMap (·.members) := by
  induction entries generalizing t with
  | nil => simp
  | cons u entries ih =>
    obtain ⟨hidentity, hkind, hparameters, hmembers⟩ := ih (t.merge u)
    refine ⟨hidentity, hkind, hparameters, ?_⟩
    rw [List.foldl_cons, hmembers]
    simp [TypeEntry.merge]

def others (t : TypeEntry) (entries : List TypeEntry) : List TypeEntry :=
  entries.filter fun u => !u.identity == t.identity

theorem filter_others {t : TypeEntry} {identity : String × String × Nat} (h : identity ≠ t.identity)
    (entries : List TypeEntry) :
    (others t entries).filter (·.identity == identity) =
      (t :: entries).filter (·.identity == identity) := by
  rw [others, List.filter_filter, List.filter_cons_of_neg (by simpa using Ne.symm h)]
  apply List.filter_congr
  intro u _
  by_cases hu : u.identity = identity
  · simp [hu, h]
  · simp [hu]

structure Grouped (types entries : List TypeEntry) : Prop where
  identities : types.map (·.identity) = (entries.map (·.identity)).eraseDups
  first : ∀ t ∈ types, ∃ u, (entries.filter (·.identity == t.identity)).head? = some u ∧
    t.kind = u.kind ∧ t.typeParameters = u.typeParameters
  members : ∀ t ∈ types,
    t.members = (entries.filter (·.identity == t.identity)).flatMap (·.members)

/-- The first entry and all that are about the same type make up the first type. -/
theorem Grouped.cons {t : TypeEntry} {entries types : List TypeEntry}
    (h : Grouped types (others t entries)) :
    Grouped ((entries.filter (·.identity == t.identity)).foldl TypeEntry.merge t :: types)
      (t :: entries) := by
  obtain ⟨hidentity, hkind, hparameters, hmembers⟩ :=
    foldl_merge (entries.filter (·.identity == t.identity)) t
  have hsame : (t :: entries).filter (·.identity == t.identity) =
      t :: entries.filter (·.identity == t.identity) := by
    simp
  have hother : ∀ u ∈ types, (others t entries).filter (·.identity == u.identity) =
      (t :: entries).filter (·.identity == u.identity) := by
    intro u hu
    apply filter_others
    have hmem : u.identity ∈ ((others t entries).map (·.identity)).eraseDups :=
      h.identities ▸ List.mem_map_of_mem (f := (·.identity)) hu
    obtain ⟨x, hx, hxu⟩ := List.mem_map.mp (List.mem_eraseDups.mp hmem)
    have hne := (List.mem_filter.mp hx).2
    simp only [Bool.not_eq_true', beq_eq_false_iff_ne] at hne
    exact hxu ▸ hne
  constructor
  · rw [List.map_cons, List.map_cons, hidentity, List.eraseDups_cons, h.identities, others,
      List.filter_map]
    rfl
  · intro u hu
    rcases List.mem_cons.mp hu with rfl | hu
    · exact ⟨t, by rw [hidentity, hsame]; rfl, hkind, hparameters⟩
    · rw [← hother u hu]
      exact h.first u hu
  · intro u hu
    rcases List.mem_cons.mp hu with rfl | hu
    · rw [hidentity, hsame, hmembers, List.flatMap_cons]
    · rw [← hother u hu]
      exact h.members u hu

theorem foldl_insert_grouped (entries : List TypeEntry) : Grouped (entries.foldl insert []) entries := by
  induction hlength : entries.length using Nat.strongRecOn generalizing entries with
  | _ length ih =>
    cases entries with
    | nil => exact ⟨by simp, by simp, by simp⟩
    | cons t entries =>
      rw [List.foldl_cons, insert, foldl_insert_cons]
      apply Grouped.cons
      have hshorter : (others t entries).length < length := by
        rw [← hlength, List.length_cons]
        exact Nat.lt_succ_of_le (List.length_filter_le _ _)
      exact ih _ hshorter _ rfl

theorem eraseDups_nodup {α : Type} [BEq α] [LawfulBEq α] (l : List α) : l.eraseDups.Nodup := by
  induction hlength : l.length using Nat.strongRecOn generalizing l with
  | _ length ih =>
    cases l with
    | nil => simp
    | cons a l =>
      have hshorter := List.length_filter_le (fun b => !b == a) l
      rw [List.length_cons] at hlength
      rw [List.eraseDups_cons, List.nodup_cons]
      refine ⟨?_, ih _ (by omega) _ rfl⟩
      simp [List.mem_eraseDups]

/-- No two types of a table are the same. -/
theorem Grouped.nodup {types entries : List TypeEntry} (h : Grouped types entries) :
    (types.map (·.identity)).Nodup := by
  rw [h.identities]
  exact eraseDups_nodup _

theorem ofEntries_grouped (entries : List TypeEntry) : Grouped (ofEntries entries).types entries :=
  foldl_insert_grouped entries

end TypeTable

end DataClasses

namespace DataClasses.TypeTable

theorem insert_new {entries : List TypeEntry} {u : TypeEntry}
    (h : ∀ t ∈ entries, t.sameType u = false) : insert entries u = entries ++ [u] := by
  induction entries with
  | nil => rfl
  | cons t entries ih =>
    rw [insert, h t (by simp), ih fun x hx => h x (by simp [hx])]
    rfl

theorem ofEntries_distinct {entries : List TypeEntry}
    (h : entries.Pairwise fun t u => t.sameType u = false) : ofEntries entries = ⟨entries⟩ := by
  have hfold (before entries : List TypeEntry)
      (h : (before ++ entries).Pairwise fun t u => t.sameType u = false) :
      entries.foldl insert before = before ++ entries := by
    induction entries generalizing before with
    | nil => simp
    | cons u entries ih =>
      have hnew : ∀ t ∈ before, t.sameType u = false := by
        intro t ht
        exact (List.pairwise_append.mp h).2.2 t ht u (by simp)
      rw [List.foldl_cons, insert_new hnew, ih _ (by simpa using h), List.append_assoc,
        List.singleton_append]
  exact congrArg TypeTable.mk (hfold [] entries h)

theorem mem_insert_name {entries : List TypeEntry} {t u : TypeEntry} (h : t = u ∨ t ∈ entries) :
    ∃ x ∈ insert entries u, x.name = t.name := by
  induction entries with
  | nil =>
    rcases h with rfl | h
    · exact ⟨t, by simp [insert], rfl⟩
    · simp at h
  | cons first entries ih =>
    rw [insert]
    split
    · next hsame =>
      rcases h with rfl | h
      · refine ⟨first.merge t, List.mem_cons_self, ?_⟩
        simp only [TypeEntry.sameType, Bool.and_eq_true, beq_iff_eq] at hsame
        exact hsame.1.2
      · rcases List.mem_cons.mp h with rfl | h
        · exact ⟨t.merge u, List.mem_cons_self, rfl⟩
        · exact ⟨t, List.mem_cons_of_mem _ h, rfl⟩
    · rcases h with rfl | h
      · obtain ⟨x, hx, hname⟩ := ih (.inl rfl)
        exact ⟨x, List.mem_cons_of_mem _ hx, hname⟩
      · rcases List.mem_cons.mp h with rfl | h
        · exact ⟨t, List.mem_cons_self, rfl⟩
        · obtain ⟨x, hx, hname⟩ := ih (.inr h)
          exact ⟨x, List.mem_cons_of_mem _ hx, hname⟩

theorem mem_ofEntries_name {entries : List TypeEntry} {t : TypeEntry} (h : t ∈ entries) :
    ∃ x ∈ (ofEntries entries).types, x.name = t.name := by
  have hfold (before entries : List TypeEntry) (t : TypeEntry)
      (h : (∃ x ∈ before, x.name = t.name) ∨ t ∈ entries) :
      ∃ x ∈ entries.foldl insert before, x.name = t.name := by
    induction entries generalizing before with
    | nil => simpa using h
    | cons u entries ih =>
      rw [List.foldl_cons]
      refine ih _ ?_
      rcases h with ⟨x, hx, hname⟩ | h
      · obtain ⟨y, hy, hyname⟩ := mem_insert_name (u := u) (.inr hx)
        exact .inl ⟨y, hy, hyname.trans hname⟩
      · rcases List.mem_cons.mp h with rfl | h
        · exact .inl (mem_insert_name (.inl rfl))
        · exact .inr h
  exact hfold [] entries t (.inr h)

end DataClasses.TypeTable
