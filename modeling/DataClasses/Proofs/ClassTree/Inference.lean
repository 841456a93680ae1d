import DataClasses.Generation
import DataClasses.Proofs.ClassTree.Layout
import DataClasses.Proofs.Entries

/-!
# The classes of a document

Whatever a document holds, the names that are made for it are identifiers, no two members of a
class share one, nor do two classes apart from the root, and every class that a member refers
to is there.
-/

set_option autoImplicit false

namespace DataClasses

namespace ClassTree

open Identifier (IsName)

def placed (found : Found) : List String := found.map (·.1)

/-- Members whose names are identifiers, and which refer to classes of given names only. -/
def RefersTo (names : List String) (ps : List Property) : Prop :=
  ∀ p ∈ ps, IsName p.name ∧ ∀ n ∈ p.type.class?, n ∈ names

theorem RefersTo.mono {names more : List String} {ps : List Property} (h : RefersTo names ps)
    (hsub : names ⊆ more) : RefersTo more ps :=
  fun p hp => ⟨(h p hp).1, fun n hn => hsub ((h p hp).2 n hn)⟩

structure Sound (found : Found) : Prop where
  nodup : (placed found).Nodup
  named : ∀ n ∈ placed found, IsName n
  shape : ∀ n c, found.get? n = some (some c) →
    c.name = n ∧ (c.properties.map (·.name)).Nodup ∧ RefersTo (placed found) c.properties

structure Extends (found after : Found) : Prop where
  placed : placed found ⊆ placed after
  pending : ∀ n, after.get? n = some none → found.get? n = some none

theorem Extends.refl (found : Found) : Extends found found := ⟨fun _ h => h, fun _ h => h⟩

theorem Extends.trans {a b c : Found} (hab : Extends a b) (hbc : Extends b c) : Extends a c :=
  ⟨fun _ h => hbc.placed (hab.placed h), fun n hn => hab.pending n (hbc.pending n hn)⟩

theorem sound_nil : Sound [] := ⟨by simp [placed], by simp [placed], by simp [Entries.get?]⟩

theorem placed_reserve (found : Found) (name : String) :
    name ∈ placed (reserve found name) ∧ placed found ⊆ placed (reserve found name) := by
  rw [reserve]
  split
  · next h => exact ⟨Entries.has_iff.mp h, fun _ h => h⟩
  · exact ⟨Entries.mem_keys_put.mpr (.inl rfl), fun n hn => Entries.mem_keys_put.mpr (.inr hn)⟩

theorem reserve_pending {found : Found} {name n : String}
    (h : (reserve found name).get? n = some none) : n = name ∨ found.get? n = some none := by
  rw [reserve] at h
  split at h
  · exact .inr h
  · rw [Entries.get?_put] at h
    split at h
    · next heq => exact .inl heq.symm
    · exact .inr h

theorem reserve_sound {found : Found} {name : String} (h : Sound found) (hname : IsName name) :
    Sound (reserve found name) := by
  have hsub := (placed_reserve found name).2
  refine ⟨?_, ?_, ?_⟩
  · rw [reserve]
    split
    · exact h.nodup
    · exact Entries.keys_put_nodup h.nodup
  · intro n hn
    rw [reserve] at hn
    split at hn
    · exact h.named n hn
    · rcases Entries.mem_keys_put.mp hn with rfl | hn
      · exact hname
      · exact h.named n hn
  · intro n c hc
    have hbefore : found.get? n = some (some c) := by
      rw [reserve] at hc
      split at hc
      · exact hc
      · rw [Entries.get?_put] at hc
        split at hc
        · simp at hc
        · exact hc
    obtain ⟨hn, hnodup, hrefers⟩ := h.shape n c hbefore
    exact ⟨hn, hnodup, hrefers.mono hsub⟩

theorem put_sound {found : Found} {name : String} {ps : List Property} (h : Sound found)
    (hname : name ∈ placed found) (hnodup : (ps.map (·.name)).Nodup)
    (hrefers : RefersTo (placed found) ps) : Sound (found.put name (some ⟨name, false, ps⟩)) := by
  have hplaced : placed (found.put name (some ⟨name, false, ps⟩)) = placed found := by
    rw [placed, Entries.keys_put]
    exact if_pos hname
  refine ⟨?_, ?_, ?_⟩
  · rw [hplaced]
    exact h.nodup
  · rw [hplaced]
    exact h.named
  · intro n c hc
    rw [hplaced]
    rw [Entries.get?_put] at hc
    split at hc
    · next heq =>
      simp only [Option.some.injEq] at hc
      subst hc
      exact ⟨heq, hnodup, hrefers⟩
    · exact h.shape n c hc

theorem put_extends {found : Found} {name : String} {c : ClassShape} :
    placed found ⊆ placed (found.put name (some c)) ∧
      ∀ n, (found.put name (some c)).get? n = some none → n ≠ name ∧ found.get? n = some none := by
  constructor
  · intro n hn
    exact Entries.mem_keys_put.mpr (.inr hn)
  · intro n hn
    rw [Entries.get?_put] at hn
    split at hn
    · simp at hn
    · next hne => exact ⟨Ne.symm hne, hn⟩

structure Read (found : Found) (result : MemberType × Found) : Prop where
  sound : Sound result.2
  growth : Extends found result.2
  type : ∀ n ∈ result.1.class?, n ∈ placed result.2

theorem read_primitive {found : Found} (h : Sound found) (kind : Primitive) :
    Read found (.primitive kind, found) :=
  ⟨h, .refl found, by simp [MemberType.class?]⟩

theorem Read.list {found : Found} {result : MemberType × Found} (h : Read found result) :
    Read found (.listOf result.1, result.2) :=
  ⟨h.sound, h.growth, h.type⟩

structure ReadMembers (found : Found) (names : List String) (result : List Property × Found) :
    Prop where
  sound : Sound result.2
  growth : Extends found result.2
  names : result.1.map (·.name) <+: names
  refers : RefersTo (placed result.2) result.1

theorem readMembers_none {found : Found} (h : Sound found) (names : List String) :
    ReadMembers found names ([], found) :=
  ⟨h, .refl found, List.nil_prefix, fun _ hp => absurd hp List.not_mem_nil⟩

theorem read_object {found : Found} {name : String} {names : List String}
    {result : List Property × Found} (hnodup : names.Nodup)
    (hread : ReadMembers (reserve found name) names result) :
    Read found (.classNamed name, result.2.put name (some ⟨name, false, result.1⟩)) := by
  have hplace := hread.growth.placed (placed_reserve found name).1
  have hnames : (result.1.map (·.name)).Nodup := hnodup.sublist hread.names.sublist
  refine ⟨put_sound hread.sound hplace hnames hread.refers, ⟨?_, ?_⟩, ?_⟩
  · intro n hn
    exact put_extends.1 (hread.growth.placed ((placed_reserve found name).2 hn))
  · intro n hn
    obtain ⟨hne, hpending⟩ := put_extends.2 n hn
    rcases reserve_pending (hread.growth.pending n hpending) with heq | hbefore
    · exact absurd heq hne
    · exact hbefore
  · intro n hn
    simp only [MemberType.class?, Option.mem_def, Option.some.injEq] at hn
    exact hn ▸ put_extends.1 hplace

variable (capitalize : Bool)

mutual

theorem typeOf_read {name : String} (hname : IsName name) :
    ∀ (value : Json) {found : Found}, Sound found → Read found (typeOf capitalize name value found)
  | .null, _, h => read_primitive h .object
  | .bool _, _, h => read_primitive h .boolean
  | .integer _, _, h => read_primitive h .integer
  | .float _, _, h => read_primitive h .float
  | .str _, _, h => read_primitive h _
  | .arr items, _, h => listType_read (Identifier.singular_isName hname) items h
  | .obj members, _, h =>
    read_object (namesOf_nodup capitalize members)
      (propertiesOf_read (namesOf_isName capitalize members) members (reserve_sound h hname))

theorem listType_read {name : String} (hname : IsName name) :
    ∀ (items : List Json) {found : Found}, Sound found →
      Read found (listType capitalize name items found)
  | [], _, h => (read_primitive h .object).list
  | .arr inner :: _, _, h => (listType_read hname inner h).list
  | .null :: _, _, h => (read_primitive h .object).list
  | .bool _ :: _, _, h => (read_primitive h .boolean).list
  | .integer _ :: _, _, h => (read_primitive h .integer).list
  | .float _ :: _, _, h => (read_primitive h .float).list
  | .str _ :: _, _, h => (read_primitive h _).list
  | .obj members :: _, _, h => (typeOf_read hname (.obj members) h).list

theorem propertiesOf_read :
    ∀ {names : List String} (_ : ∀ n ∈ names, IsName n) (members : List (String × Json))
      {found : Found}, Sound found →
      ReadMembers found names (propertiesOf capitalize names members found)
  | name :: names, hnames, (key, value) :: members, _, h => by
    have hfirst := typeOf_read (hnames name (by simp)) value h
    have hothers : ∀ n ∈ names, IsName n := fun n hn => hnames n (by simp [hn])
    have hrest := propertiesOf_read hothers members hfirst.sound
    refine ⟨hrest.sound, hfirst.growth.trans hrest.growth, ?_, ?_⟩
    · exact List.cons_prefix_cons.mpr ⟨rfl, hrest.names⟩
    · intro p hp
      rcases List.mem_cons.mp hp with rfl | hp
      · exact ⟨hnames name (by simp), fun n hn => hrest.growth.placed (hfirst.type n hn)⟩
      · exact hrest.refers p hp
  | [], _, members, found, h => by
    have hnone : propertiesOf capitalize [] members found = ([], found) := by
      simp [propertiesOf]
    exact hnone ▸ readMembers_none h []
  | name :: names, _, [], found, h => by
    have hnone : propertiesOf capitalize (name :: names) [] found = ([], found) := by
      simp [propertiesOf]
    exact hnone ▸ readMembers_none h (name :: names)

end

/-- A tree whose names are identifiers, whose members have names of their own in each class, and
in which every class that a member refers to is one of the others, which have names of their
own. -/
structure WellNamed (tree : ClassTree) : Prop where
  root : IsName tree.root.name
  others : ∀ c ∈ tree.others, IsName c.name
  nodup : (tree.others.map (·.name)).Nodup
  members : ∀ c ∈ tree.classes, (c.properties.map (·.name)).Nodup ∧
    RefersTo (tree.others.map (·.name)) c.properties

theorem WellNamed.isName {tree : ClassTree} (h : tree.WellNamed) :
    ∀ c ∈ tree.classes, IsName c.name := by
  intro c hc
  rcases List.mem_cons.mp hc with rfl | hc
  · exact h.root
  · exact h.others c hc

theorem WellNamed.allNamed {tree : ClassTree} (h : tree.WellNamed) :
    ∀ c ∈ tree.classes, AllNamed c := by
  intro c hc
  refine ⟨h.isName c hc, fun p hp => ?_⟩
  obtain ⟨hname, hrefers⟩ := (h.members c hc).2 p hp
  refine ⟨hname, fun n hn => ?_⟩
  obtain ⟨d, hd, rfl⟩ := List.mem_map.mp (hrefers n hn)
  exact h.others d hd

theorem names_filterMap {found : Found}
    (h : ∀ entry ∈ found, ∃ c : ClassShape, entry.2 = some c ∧ c.name = entry.1) :
    (found.filterMap (·.2)).map (·.name) = placed found := by
  induction found with
  | nil => rfl
  | cons entry found ih =>
    obtain ⟨c, hc, hname⟩ := h entry (by simp)
    have hrest := ih fun e he => h e (by simp [he])
    simp only [placed] at hrest
    simp [placed, hc, hname, hrest]

/-- Whatever the root is called, the other names of a document's tree are as they should be. -/
theorem ofDocument_named (document : Json) (settings : Settings) :
    (∀ c ∈ (ofDocument document settings).others, IsName c.name) ∧
      ((ofDocument document settings).others.map (·.name)).Nodup ∧
      ∀ c ∈ (ofDocument document settings).classes, (c.properties.map (·.name)).Nodup ∧
        RefersTo ((ofDocument document settings).others.map (·.name)) c.properties := by
  have hread := propertiesOf_read settings.capitalizeNames
    (namesOf_isName settings.capitalizeNames (rootMembers document)) (rootMembers document) sound_nil
  have hnodup := (namesOf_nodup settings.capitalizeNames (rootMembers document)).sublist hread.names.sublist
  rw [ofDocument]
  generalize propertiesOf settings.capitalizeNames _ (rootMembers document) [] = result at hread hnodup ⊢
  obtain ⟨ps, found⟩ := result
  have hfinished : ∀ entry ∈ found, ∃ c, entry.2 = some c ∧ found.get? entry.1 = some (some c) := by
    rintro ⟨n, value⟩ hmem
    have hget := Entries.get?_of_mem hread.sound.nodup hmem
    cases value with
    | none => simpa [Entries.get?] using hread.growth.pending n hget
    | some c => exact ⟨c, rfl, hget⟩
  have hnames : (found.filterMap (·.2)).map (·.name) = placed found := by
    refine names_filterMap fun entry hentry => ?_
    obtain ⟨c, hc, hget⟩ := hfinished entry hentry
    exact ⟨c, hc, (hread.sound.shape _ c hget).1⟩
  have hothers : ∀ c ∈ found.filterMap (·.2), IsName c.name ∧ (c.properties.map (·.name)).Nodup ∧
      RefersTo (placed found) c.properties := by
    intro c hc
    obtain ⟨entry, hentry, hvalue⟩ := List.mem_filterMap.mp hc
    obtain ⟨d, hd, hget⟩ := hfinished entry hentry
    obtain rfl : d = c := by simpa [hd] using hvalue
    obtain ⟨hname, hshape⟩ := hread.sound.shape _ d hget
    exact ⟨hname ▸ hread.sound.named _ (List.mem_map_of_mem hentry), hshape⟩
  refine ⟨fun c hc => (hothers c hc).1, ?_, ?_⟩
  · rw [hnames]
    exact hread.sound.nodup
  · intro c hc
    rw [hnames]
    rcases List.mem_cons.mp hc with rfl | hc
    · exact ⟨hnodup, hread.refers⟩
    · exact (hothers c hc).2

theorem ofDocument_wellNamed (document : Json) {settings : Settings}
    (hroot : IsName settings.rootClass) : (ofDocument document settings).WellNamed := by
  obtain ⟨hothers, hnodup, hmembers⟩ := ofDocument_named document settings
  exact ⟨hroot, hothers, hnodup, hmembers⟩

end ClassTree
end DataClasses
