import DataClasses.Proofs.ClassTree.Occurrences
import DataClasses.Proofs.Json.Keys

/-!
# Consistent trees

In the tree of any document the members of a class differ in their names and in their keys, all names
are identifiers, and no member refers to a class that is missing, whatever classes of one name took the
place of each other.
-/

set_option autoImplicit false

namespace DataClasses

namespace ClassTree

open Identifier (IsName)

/-- A tree whose members are told apart by name and by key in each class, whose names are
identifiers, and whose other classes are told apart by name and include all that members refer to.
-/
structure Consistent (tree : ClassTree) : Prop where
  names : ∀ c ∈ tree.classes, (c.properties.map (·.name)).Nodup
  keys : ∀ c ∈ tree.classes, (c.properties.map (·.key)).Nodup
  members : ∀ c ∈ tree.classes, ∀ p ∈ c.properties, IsName p.name
  others : ∀ c ∈ tree.others, IsName c.name
  distinct : (tree.others.map (·.name)).Nodup
  closed : ∀ c ∈ tree.classes, ∀ p ∈ c.properties, ∀ n ∈ p.type.class?,
    ∃ d ∈ tree.others, d.name = n

theorem keys_zipWith {names : List String} {members : List (String × Json)}
    (h : names.length = members.length) :
    (List.zipWith propertyOf names members).map (·.key) = members.map (·.1) := by
  induction names generalizing members with
  | nil => rw [List.length_eq_zero_iff.mp h.symm]; rfl
  | cons name names ih =>
    cases members with
    | nil => cases h
    | cons member members => exact congrArg _ (ih (Nat.succ.inj h))

/-- The members of a class have the keys of the object that it is made of. -/
theorem keys_namesOf (capitalize : Bool) (members : List (String × Json)) :
    (List.zipWith propertyOf (namesOf capitalize members) members).map (·.key) = members.map (·.1) := by
  apply keys_zipWith
  exact namesOf_length capitalize members

variable (capitalize : Bool)

mutual

theorem occurrencesIn_keysDistinct (className : String) : (value : Json) → value.KeysDistinct →
    ∀ o ∈ Occurrence.allPreorder (occurrencesIn capitalize className value),
      (Json.obj o.members).KeysDistinct
  | .null, _ => List.forall_mem_nil _
  | .bool _, _ => List.forall_mem_nil _
  | .integer _, _ => List.forall_mem_nil _
  | .float _, _ => List.forall_mem_nil _
  | .str _, _ => List.forall_mem_nil _
  | .arr [], _ => List.forall_mem_nil _
  | .arr (item :: _), .arr h => occurrencesIn_keysDistinct className item (h item List.mem_cons_self)
  | .obj members, .obj hkeys h => by
    rw [occurrencesIn, Occurrence.allPreorder, Occurrence.allPreorder, Occurrence.preorder, List.append_nil]
    exact List.forall_mem_cons.mpr
      ⟨.obj hkeys h, memberOccurrences_keysDistinct (namesOf capitalize members) members h⟩

theorem memberOccurrences_keysDistinct : (names : List String) → (members : List (String × Json)) →
    (∀ m ∈ members, m.2.KeysDistinct) →
    ∀ o ∈ Occurrence.allPreorder (memberOccurrences capitalize names members),
      (Json.obj o.members).KeysDistinct
  | name :: names, (key, value) :: members, h => by
    obtain ⟨hvalue, hmembers⟩ := List.forall_mem_cons.mp h
    rw [memberOccurrences, Occurrence.allPreorder_append]
    exact List.forall_mem_append.mpr
      ⟨occurrencesIn_keysDistinct (classNameOf name value) value hvalue,
        memberOccurrences_keysDistinct names members hmembers⟩
  | [], [], _ => List.forall_mem_nil _
  | [], _ :: _, _ => List.forall_mem_nil _
  | _ :: _, [], _ => List.forall_mem_nil _

end

theorem rootMembers_keysDistinct {document : Json} (h : document.KeysDistinct) :
    (Json.obj (rootMembers document)).KeysDistinct := by
  have hempty : (Json.obj []).KeysDistinct := .obj List.nodup_nil (List.forall_mem_nil _)
  cases h with
  | obj hkeys hmembers => exact .obj hkeys hmembers
  | @arr items hitems =>
    cases items with
    | nil => exact hempty
    | cons first rest =>
      cases hitems first List.mem_cons_self with
      | obj hkeys hmembers => exact .obj hkeys hmembers
      | _ => exact hempty
  | _ => exact hempty

theorem occurrences_keysDistinct {document : Json} (h : document.KeysDistinct) :
    ∀ o ∈ Occurrence.allPreorder (occurrences capitalize document),
      (Json.obj o.members).KeysDistinct := by
  cases rootMembers_keysDistinct h with
  | obj _ hmembers => exact memberOccurrences_keysDistinct capitalize _ _ hmembers

theorem root_keys (document : Json) (settings : Settings) :
    (ofDocument document settings).root.properties.map (·.key) = (rootMembers document).map (·.1) := by
  obtain ⟨found, htree, -, -⟩ := ofDocument_finished document settings
  rw [htree]
  exact keys_namesOf settings.capitalizeNames (rootMembers document)

theorem keys_nodup {document : Json} (h : document.KeysDistinct) (settings : Settings) :
    ∀ c ∈ (ofDocument document settings).classes, (c.properties.map (·.key)).Nodup := by
  intro c hc
  rcases List.mem_cons.mp hc with rfl | hc
  · rw [root_keys]
    cases rootMembers_keysDistinct h with
    | obj hkeys _ => exact hkeys
  · obtain ⟨o, hlast, rfl⟩ := others_shape document settings hc
    have ho := (Occurrence.allPreorder_perm _).mem_iff.mpr (Occurrence.last?_eq_some hlast).1
    rw [Occurrence.shape, keys_namesOf]
    cases occurrences_keysDistinct _ h o ho with
    | obj hkeys _ => exact hkeys

theorem consistent_of_keysDistinct {document : Json} (h : document.KeysDistinct) (settings : Settings) :
    (ofDocument document settings).Consistent := by
  obtain ⟨hothers, hdistinct, hmembers⟩ := ofDocument_named document settings
  exact {
    names := fun c hc => (hmembers c hc).1
    keys := keys_nodup h settings
    members := fun c hc p hp => ((hmembers c hc).2 p hp).1
    others := hothers
    distinct := hdistinct
    closed := fun c hc p hp n hn => List.mem_map.mp (((hmembers c hc).2 p hp).2 n hn) }

/-- The tree of a document with distinct keys, as all have that are read, is consistent, and its
root has the keys of the document in their order. Where a name is in use already, one of the numbers
from 2 on makes it free, and it gets the first that does. -/
theorem ofDocument_consistent {document : Json} (h : document.KeysDistinct) (settings : Settings) :
    (ofDocument document settings).Consistent ∧
      (ofDocument document settings).root.properties.map (·.key) = (rootMembers document).map (·.1) ∧
      ∀ (used : List String) (name : String), name ∈ used →
        ∃ k, 2 ≤ k ∧ k ≤ used.length + 1 ∧ freeName used name = numbered name k ∧
          numbered name k ∉ used ∧ ∀ j, 2 ≤ j → j < k → numbered name j ∈ used :=
  ⟨consistent_of_keysDistinct h settings, root_keys document settings, fun _ _ => freeName_numbered⟩

def crowded : Json :=
  .obj [("a b", .null), ("a-b", .bool true),
    ("items", .arr [.arr [.obj [("id", .integer 1), ("Id", .str "x")]]]),
    ("item", .obj [("item", .obj []), ("", .integer 2)])]

theorem crowded_keysDistinct : crowded.KeysDistinct := by
  have hids : (Json.obj [("id", .integer 1), ("Id", .str "x")]).KeysDistinct :=
    .obj (by decide) (by simp [Json.KeysDistinct.integer, Json.KeysDistinct.str])
  have hitems : (Json.arr [.arr [.obj [("id", .integer 1), ("Id", .str "x")]]]).KeysDistinct :=
    .arr (List.forall_mem_singleton.mpr (.arr (List.forall_mem_singleton.mpr hids)))
  have hitem : (Json.obj [("item", .obj []), ("", .integer 2)]).KeysDistinct :=
    .obj (by decide) (by simp [Json.KeysDistinct.integer, Json.KeysDistinct.obj])
  exact .obj (by decide) (by simp [Json.KeysDistinct.null, Json.KeysDistinct.bool, hitems, hitem])

theorem crowded_consistent :
    (ofDocument crowded {}).classes.map (fun c => (c.name, c.properties.map (·.name))) =
        [("Root", ["A_b", "A_b_2", "Items", "Item"]), ("Item", ["Item", "EmptyProperty"])] ∧
      (ofDocument crowded {}).Consistent ∧
      (ofDocument crowded {}).root.properties.map (·.key) = ["a b", "a-b", "items", "item"] := by
  have hconsistent := ofDocument_consistent crowded_keysDistinct {}
  exact ⟨by decide, hconsistent.1, hconsistent.2.1⟩

end ClassTree

/-- Whatever the text of a sample is, its tree is consistent if there is one. -/
theorem classesFor_consistent {text : String} {settings : Settings} {tree : ClassTree}
    (h : classesFor text settings = .ok tree) : tree.Consistent := by
  rw [classesFor] at h
  cases hread : Sample.read text with
  | error failure =>
    rw [hread] at h
    cases h
  | ok document =>
    rw [hread] at h
    cases h
    exact ClassTree.consistent_of_keysDistinct (Sample.read_keysDistinct hread) settings

end DataClasses
