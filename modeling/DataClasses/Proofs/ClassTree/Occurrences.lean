import DataClasses.Proofs.ClassTree.Inference

/-!
# The objects that classes are made of

The objects of a document below its root, each with the name of its class. The classes stand in the
order in which the first objects of their names begin, and a class is what the object of its name
that ends last makes of it.
-/

set_option autoImplicit false

namespace DataClasses.ClassTree

def classNameOf (name : String) : Json → String
  | .arr _ => Identifier.singular name
  | _ => name

def valueType (className : String) : Json → MemberType
  | .null => .primitive .object
  | .bool _ => .primitive .boolean
  | .integer _ => .primitive .integer
  | .float _ => .primitive .float
  | .str s => .primitive (if Timestamp.isTimestamp s then .timestamp else .text)
  | .arr [] => .listOf (.primitive .object)
  | .arr (item :: _) => .listOf (valueType className item)
  | .obj _ => .classNamed className

def propertyOf (name : String) (member : String × Json) : Property :=
  ⟨member.1, name, valueType (classNameOf name member.2) member.2⟩

inductive Occurrence where
  | mk (name : String) (members : List (String × Json)) (inside : List Occurrence)

namespace Occurrence

def name : Occurrence → String
  | mk name _ _ => name

def members : Occurrence → List (String × Json)
  | mk _ members _ => members

def shape (capitalize : Bool) (o : Occurrence) : ClassShape :=
  ⟨o.name, false, List.zipWith propertyOf (namesOf capitalize o.members) o.members⟩

mutual

def preorder : Occurrence → List Occurrence
  | mk name members inside => mk name members inside :: allPreorder inside

def allPreorder : List Occurrence → List Occurrence
  | [] => []
  | o :: rest => preorder o ++ allPreorder rest

end

mutual

def postorder : Occurrence → List Occurrence
  | mk name members inside => allPostorder inside ++ [mk name members inside]

def allPostorder : List Occurrence → List Occurrence
  | [] => []
  | o :: rest => postorder o ++ allPostorder rest

end

def last? (os : List Occurrence) (name : String) : Option Occurrence :=
  (os.filter (·.name == name)).getLast?

end Occurrence

mutual

def occurrencesIn (capitalize : Bool) (className : String) : Json → List Occurrence
  | .obj members =>
    [.mk className members (memberOccurrences capitalize (namesOf capitalize members) members)]
  | .arr (item :: _) => occurrencesIn capitalize className item
  | _ => []

def memberOccurrences (capitalize : Bool) : List String → List (String × Json) → List Occurrence
  | name :: names, (_, value) :: members =>
    occurrencesIn capitalize (classNameOf name value) value ++ memberOccurrences capitalize names members
  | _, _ => []

end

def occurrences (capitalize : Bool) (document : Json) : List Occurrence :=
  memberOccurrences capitalize (namesOf capitalize (rootMembers document)) (rootMembers document)

/-- The classes found after objects of some names have begun and some have ended: a name has its
place from the first object that began, and its class from the last that ended. -/
structure History (capitalize : Bool) (begun : List String) (ended : List Occurrence) (found : Found) :
    Prop where
  places : placed found = begun.eraseDups
  started : ∀ o ∈ ended, o.name ∈ begun
  classes : ∀ n ∈ begun, found.get? n = some ((Occurrence.last? ended n).map (·.shape capitalize))

theorem eraseDups_concat (names : List String) (name : String) :
    (names ++ [name]).eraseDups =
      if name ∈ names then names.eraseDups else names.eraseDups ++ [name] := by
  rw [List.eraseDups_append]
  split
  · next h => simp [List.removeAll, h]
  · next h => simp [List.removeAll, h, List.eraseDups_cons]

namespace Occurrence

theorem last?_concat (os : List Occurrence) (o : Occurrence) (name : String) :
    last? (os ++ [o]) name = if o.name = name then some o else last? os name := by
  rw [last?, List.filter_append]
  split
  · next h => simp [h]
  · next h => simp [h, last?]

theorem last?_eq_none {os : List Occurrence} {name : String} (h : ∀ o ∈ os, o.name ≠ name) :
    last? os name = none := by
  have hnone : os.filter (·.name == name) = [] := by
    rw [List.filter_eq_nil_iff]
    intro o ho
    rw [beq_iff_eq]
    exact h o ho
  rw [last?, hnone]
  rfl

end Occurrence

namespace History

variable {capitalize : Bool} {begun : List String} {ended : List Occurrence} {found : Found}

theorem empty (capitalize : Bool) : History capitalize [] [] [] :=
  ⟨rfl, List.forall_mem_nil _, List.forall_mem_nil _⟩

theorem mem_placed (h : History capitalize begun ended found) (name : String) :
    name ∈ placed found ↔ name ∈ begun := by
  rw [h.places, List.mem_eraseDups]

/-- An object begins. -/
theorem begins (h : History capitalize begun ended found) (name : String) :
    History capitalize (begun ++ [name]) ended (reserve found name) := by
  have hstarted : ∀ o ∈ ended, o.name ∈ begun ++ [name] :=
    fun o ho => List.mem_append_left _ (h.started o ho)
  rw [reserve]
  split
  · next hhas =>
    have hname : name ∈ begun := (h.mem_placed name).mp (Entries.has_iff.mp hhas)
    refine ⟨?_, hstarted, ?_⟩
    · rw [eraseDups_concat, if_pos hname, h.places]
    · intro n hn
      apply h.classes n
      rcases List.mem_append.mp hn with hn | hn
      · exact hn
      · exact List.mem_singleton.mp hn ▸ hname
  · next hhas =>
    have hname : name ∉ begun := fun hmem => hhas (Entries.has_iff.mpr ((h.mem_placed name).mpr hmem))
    refine ⟨?_, hstarted, ?_⟩
    · rw [placed, Entries.put_of_new (fun hmem => hname ((h.mem_placed name).mp hmem)), List.map_append,
        eraseDups_concat, if_neg hname, ← h.places]
      rfl
    · intro n hn
      rw [Entries.get?_put]
      split
      · next heq =>
        -- No object of a new name has ended.
        have hnone : Occurrence.last? ended n = none :=
          Occurrence.last?_eq_none fun o ho hon => hname (heq ▸ hon ▸ h.started o ho)
        rw [hnone]
        rfl
      · next hne =>
        apply h.classes n
        rcases List.mem_append.mp hn with hn | hn
        · exact hn
        · exact absurd (List.mem_singleton.mp hn).symm hne

/-- An object ends. -/
theorem ends (h : History capitalize begun ended found) (o : Occurrence) (ho : o.name ∈ begun) :
    History capitalize begun (ended ++ [o]) (found.put o.name (some (o.shape capitalize))) := by
  refine ⟨?_, ?_, ?_⟩
  · have hplaced : o.name ∈ found.map (·.1) := (h.mem_placed o.name).mpr ho
    rw [← h.places, placed, Entries.keys_put, if_pos hplaced]
    rfl
  · exact List.forall_mem_append.mpr ⟨h.started, List.forall_mem_singleton.mpr ho⟩
  · intro n hn
    rw [Entries.get?_put, Occurrence.last?_concat]
    split
    · rfl
    · exact h.classes n hn

end History

/-- Reading gives a value whatever was found before, and in the course of it some objects begin and
end. -/
structure Visits {α : Type} (capitalize : Bool) (read : Found → α × Found) (value : α)
    (os : List Occurrence) : Prop where
  value : ∀ found, (read found).1 = value
  history : ∀ {begun : List String} {ended : List Occurrence} {found : Found},
    History capitalize begun ended found →
      History capitalize (begun ++ (Occurrence.allPreorder os).map Occurrence.name)
        (ended ++ Occurrence.allPostorder os) (read found).2

namespace Occurrence

theorem allPreorder_append (first rest : List Occurrence) :
    allPreorder (first ++ rest) = allPreorder first ++ allPreorder rest := by
  induction first with
  | nil => rfl
  | cons o first ih => rw [List.cons_append, allPreorder, allPreorder, ih, List.append_assoc]

theorem allPostorder_append (first rest : List Occurrence) :
    allPostorder (first ++ rest) = allPostorder first ++ allPostorder rest := by
  induction first with
  | nil => rfl
  | cons o first ih => rw [List.cons_append, allPostorder, allPostorder, ih, List.append_assoc]

mutual

theorem preorder_perm : (o : Occurrence) → o.preorder.Perm o.postorder
  | mk _ _ inside =>
    ((allPreorder_perm inside).cons _).trans (List.perm_append_singleton _ _).symm

theorem allPreorder_perm : (os : List Occurrence) → (allPreorder os).Perm (allPostorder os)
  | [] => .nil
  | o :: rest => (preorder_perm o).append (allPreorder_perm rest)

end

end Occurrence

namespace Visits

variable {α β : Type} {capitalize : Bool}

theorem none (value : α) : Visits capitalize (fun found => (value, found)) value [] := by
  refine ⟨fun _ => rfl, ?_⟩
  intro begun ended found h
  rwa [Occurrence.allPreorder, Occurrence.allPostorder, List.map_nil, List.append_nil, List.append_nil]

theorem map {read : Found → α × Found} {value : α} {os : List Occurrence}
    (h : Visits capitalize read value os) (f : α → β) :
    Visits capitalize (fun found => (f (read found).1, (read found).2)) (f value) os :=
  ⟨fun found => congrArg f (h.value found), h.history⟩

theorem both {γ : Type} {read : Found → α × Found} {value : α} {os : List Occurrence}
    (h : Visits capitalize read value os) {next : Found → β × Found} {value' : β} {os' : List Occurrence}
    (h' : Visits capitalize next value' os') (f : α → β → γ) :
    Visits capitalize
      (fun found => (f (read found).1 (next (read found).2).1, (next (read found).2).2)) (f value value')
      (os ++ os') := by
  constructor
  · intro found
    rw [h.value, h'.value]
  · intro begun ended found hfound
    have hboth := h'.history (h.history hfound)
    rwa [List.append_assoc, List.append_assoc, ← List.map_append, ← Occurrence.allPreorder_append,
      ← Occurrence.allPostorder_append] at hboth

/-- An object begins before those inside of it and ends behind them. -/
theorem object {name : String} {members : List (String × Json)} {read : Found → List Property × Found}
    {inside : List Occurrence}
    (h : Visits capitalize read (List.zipWith propertyOf (namesOf capitalize members) members) inside) :
    Visits capitalize
      (fun found =>
        (MemberType.classNamed name,
          (read (reserve found name)).2.put name (some ⟨name, false, (read (reserve found name)).1⟩)))
      (.classNamed name) [.mk name members inside] := by
  refine ⟨fun _ => rfl, ?_⟩
  intro begun ended found hfound
  have hinside := h.history (hfound.begins name)
  have hname : name ∈ begun ++ [name] ++ (Occurrence.allPreorder inside).map Occurrence.name := by simp
  have hends := hinside.ends (.mk name members inside) hname
  rw [List.append_assoc, List.append_assoc] at hends
  rw [Occurrence.allPreorder, Occurrence.allPreorder, Occurrence.preorder, Occurrence.allPostorder,
    Occurrence.allPostorder, Occurrence.postorder, List.append_nil, List.append_nil, h.value]
  exact hends

end Visits

variable (capitalize : Bool)

-- The classes found before are left open in `Visits`, for an object is read after all that begin before it.
mutual

theorem typeOf_visits (name : String) : (value : Json) →
    Visits capitalize (typeOf capitalize name value) (valueType (classNameOf name value) value)
      (occurrencesIn capitalize (classNameOf name value) value)
  | .null => .none _
  | .bool _ => .none _
  | .integer _ => .none _
  | .float _ => .none _
  | .str _ => .none _
  | .arr items => listType_visits (Identifier.singular name) items
  | .obj members => (propertiesOf_visits (namesOf capitalize members) members).object

theorem listType_visits (name : String) : (items : List Json) →
    Visits capitalize (listType capitalize name items) (valueType name (.arr items))
      (occurrencesIn capitalize name (.arr items))
  | [] => .none _
  | .arr inner :: _ => (listType_visits name inner).map MemberType.listOf
  | .null :: _ => .none _
  | .bool _ :: _ => .none _
  | .integer _ :: _ => .none _
  | .float _ :: _ => .none _
  | .str _ :: _ => .none _
  | .obj members :: _ => (typeOf_visits name (.obj members)).map MemberType.listOf

theorem propertiesOf_visits : (names : List String) → (members : List (String × Json)) →
    Visits capitalize (propertiesOf capitalize names members) (List.zipWith propertyOf names members)
      (memberOccurrences capitalize names members)
  | name :: names, (key, value) :: members =>
    (typeOf_visits name value).both (propertiesOf_visits names members) fun type rest =>
      Property.mk key name type :: rest
  | [], [] => .none _
  | [], _ :: _ => .none _
  | _ :: _, [] => .none _

end

theorem Occurrence.last?_eq_some {os : List Occurrence} {name : String} {o : Occurrence}
    (h : last? os name = some o) : o ∈ os ∧ o.name = name := by
  have hmem := List.mem_of_getLast? h
  rw [List.mem_filter, beq_iff_eq] at hmem
  exact hmem

theorem Occurrence.exists_last? {os : List Occurrence} {o : Occurrence} (ho : o ∈ os) :
    ∃ l, last? os o.name = some l := by
  have hne : os.filter (·.name == o.name) ≠ [] :=
    List.ne_nil_of_mem (List.mem_filter.mpr ⟨ho, beq_self_eq_true o.name⟩)
  exact ⟨_, List.getLast?_eq_some_getLast hne⟩

/-- Once all objects that have begun have ended, each name has its class from the last of them. -/
theorem History.finished {capitalize : Bool} {os : List Occurrence} {found : Found}
    (h : History capitalize ((Occurrence.allPreorder os).map Occurrence.name)
      (Occurrence.allPostorder os) found) (hnodup : (placed found).Nodup) :
    ∀ entry ∈ found, ∃ o, Occurrence.last? (Occurrence.allPostorder os) entry.1 = some o ∧
      o.name = entry.1 ∧ entry.2 = some (o.shape capitalize) := by
  rintro ⟨n, value⟩ hentry
  have hbegun := (h.mem_placed n).mp (List.mem_map_of_mem hentry)
  obtain ⟨o, ho, rfl⟩ := List.mem_map.mp hbegun
  obtain ⟨l, hl⟩ := Occurrence.exists_last? ((Occurrence.allPreorder_perm os).mem_iff.mp ho)
  have hclass := h.classes _ hbegun
  rw [Entries.get?_of_mem hnodup hentry, hl, Option.some.injEq] at hclass
  exact ⟨l, hl, (Occurrence.last?_eq_some hl).2, hclass⟩

section

variable (document : Json) (settings : Settings)

/-- What is found in a document by the end, and the members of its root. -/
theorem ofDocument_finished :
    ∃ found : Found,
      ofDocument document settings =
          { root := ⟨settings.rootClass, true,
              List.zipWith propertyOf (namesOf settings.capitalizeNames (rootMembers document))
                (rootMembers document)⟩
            others := found.filterMap (·.2) } ∧
        placed found =
          ((Occurrence.allPreorder (occurrences settings.capitalizeNames document)).map
            Occurrence.name).eraseDups ∧
        ∀ entry ∈ found, ∃ o, Occurrence.last? (Occurrence.allPostorder
            (occurrences settings.capitalizeNames document)) entry.1 = some o ∧
          o.name = entry.1 ∧ entry.2 = some (o.shape settings.capitalizeNames) := by
  have hvisits := propertiesOf_visits settings.capitalizeNames
    (namesOf settings.capitalizeNames (rootMembers document)) (rootMembers document)
  have hread := propertiesOf_read settings.capitalizeNames
    (namesOf_isName settings.capitalizeNames (rootMembers document)) (rootMembers document) sound_nil
  have hhistory := hvisits.history (.empty settings.capitalizeNames)
  rw [List.nil_append, List.nil_append] at hhistory
  refine ⟨_, ?_, hhistory.places, hhistory.finished hread.sound.nodup⟩
  rw [← hvisits.value []]
  rfl

/-- Every class apart from the root is what the object of its name that ends last makes of it. -/
theorem others_shape {c : ClassShape} (hc : c ∈ (ofDocument document settings).others) :
    ∃ o, Occurrence.last? (Occurrence.allPostorder
        (occurrences settings.capitalizeNames document)) c.name = some o ∧
      c = o.shape settings.capitalizeNames := by
  obtain ⟨found, htree, -, hfinished⟩ := ofDocument_finished document settings
  rw [htree] at hc
  obtain ⟨entry, hentry, hvalue⟩ := List.mem_filterMap.mp hc
  obtain ⟨o, hlast, hname, hclass⟩ := hfinished entry hentry
  obtain rfl : o.shape settings.capitalizeNames = c := Option.some.inj (hclass.symm.trans hvalue)
  exact ⟨o, (congrArg _ hname).trans hlast, rfl⟩

/-- The other classes have the names of the objects below the root, each at the place of the first
object of the name that begins. -/
theorem others_names :
    (ofDocument document settings).others.map (·.name) =
      ((Occurrence.allPreorder (occurrences settings.capitalizeNames document)).map
        Occurrence.name).eraseDups := by
  obtain ⟨found, htree, hplaces, hfinished⟩ := ofDocument_finished document settings
  rw [htree, ← hplaces]
  apply names_filterMap
  intro entry hentry
  obtain ⟨o, -, hname, hclass⟩ := hfinished entry hentry
  exact ⟨_, hclass, hname⟩

/-- The names of the other classes stand in the order in which the first objects of them begin, and each
class is what the object of its name that ends last makes of it. -/
theorem others_from_last_ended :
    (ofDocument document settings).others.map (·.name) =
        ((Occurrence.allPreorder (occurrences settings.capitalizeNames document)).map
          Occurrence.name).eraseDups ∧
      ∀ c ∈ (ofDocument document settings).others, c.isRoot = false ∧
        ∃ o, Occurrence.last? (Occurrence.allPostorder
            (occurrences settings.capitalizeNames document)) c.name = some o ∧
          c = o.shape settings.capitalizeNames := by
  refine ⟨others_names document settings, fun c hc => ?_⟩
  obtain ⟨o, hlast, rfl⟩ := others_shape document settings hc
  exact ⟨rfl, o, hlast, rfl⟩

end

/-- The object inside of its namesake begins later and ends earlier, so the outer one makes the
class. -/
example :
    (ofDocument (.obj [("a", .obj [("a", .obj [("x", .null)]), ("y", .null)])]) {}).others.map
      (fun c => (c.name, c.properties.map (·.key))) = [("A", ["a", "y"])] := by
  decide

end DataClasses.ClassTree
