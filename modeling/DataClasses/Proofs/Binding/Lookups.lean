import DataClasses.Proofs.Binding.Imports

/-!
# What the names in generated source mean

Inside of a class, the name of a class of the tree means that class. The other names that generated
source refers to mean the types that the libraries have for them, unless a class has the same name.
-/

set_option autoImplicit false

namespace DataClasses.Binding

open Identifier (IsName)
open Assembly (standard homes)
open ClassTree
open Symbols (beginnings)

def outerScopes (current : String) (parts : List String) : List Scope :=
  ((beginnings current parts.dropLast).map fun name => ({ name } : Scope)).reverse

theorem openScopes_eq {parts : List String} (hne : parts ≠ []) (place : Place) (current : String) :
    openScopes place current parts =
      ({ place with scopes := outerScopes current parts ++ place.scopes },
        parts.foldl joinNames current) := by
  induction parts generalizing place current with
  | nil => exact absurd rfl hne
  | cons part parts ih =>
    cases parts with
    | nil => rfl
    | cons next rest =>
      rw [openScopes, ih (List.cons_ne_nil next rest)]
      · simp [outerScopes, beginnings]
      · exact List.cons_ne_nil next rest

def placeIn (settings : Settings) (root : Scope) : Place where
  scopes :=
    { name := settings.container } :: (outerScopes "" (Text.dottedParts settings.container) ++ [root])

def memberPlace (settings : Settings) (root : Scope) (name : String) : Place :=
  { placeIn settings root with enclosing := [joinNames settings.container name] }

abbrev classPlace (settings : Settings) (name : String) : Place :=
  memberPlace settings (rootScope settings) name

section

variable {tree : ClassTree} {settings : Settings} {name other : String}
  (hb : Bindable tree settings)

include hb

/-- A name is that of a class in a namespace apart from the libraries only if it is the name of a
class, and the namespace that of the tree. -/
theorem hasType_joinNames {outer : String} (houter : ¬Rooted (joinNames outer name))
    (hname : IsName name) :
    (symbolsOf tree settings).hasType (joinNames outer name) 0 = true ↔
      outer = settings.container ∧ name ∈ tree.classes.map (·.name) := by
  rw [hasType_not_rooted hb houter]
  constructor
  · rintro ⟨-, c, hc, heq⟩
    obtain ⟨rfl, rfl⟩ := joinNames_inj (hb.named c hc) hname heq
    exact ⟨rfl, List.mem_map_of_mem hc⟩
  · rintro ⟨rfl, hmem⟩
    obtain ⟨c, hc, rfl⟩ := List.mem_map.mp hmem
    exact ⟨rfl, c, hc, rfl⟩

theorem container_not_rooted (name : String) : ¬Rooted (joinNames settings.container name) := by
  rw [rooted_joinNames hb.apart.ne_empty]
  exact hb.apart.root

theorem inEnclosing_none (hname : IsName name) (hother : IsName other) :
    inEnclosing (symbolsOf tree settings) name 0 (joinNames settings.container other) = none := by
  have hne : joinNames settings.container other ≠ settings.container := by
    intro heq
    have hparts := congrArg List.length (congrArg partsOf heq)
    rw [partsOf_joinNames _ hother, List.length_append, List.length_singleton] at hparts
    omega
  have hrooted : ¬Rooted (joinNames (joinNames settings.container other) name) := by
    rw [rooted_joinNames (joinNames_ne_empty hb.apart.ne_empty other)]
    exact container_not_rooted hb other
  have htype : (symbolsOf tree settings).hasType
      (joinNames (joinNames settings.container other) name) 0 = false := by
    rw [Bool.eq_false_iff, Ne, hasType_joinNames hb hrooted hname]
    exact fun h => hne h.1
  simp [inEnclosing, htype]

theorem inScope_class (hmem : name ∈ tree.classes.map (·.name)) :
    inScope (symbolsOf tree settings) name 0 { name := settings.container } =
      some (.ok (.type (joinNames settings.container name))) := by
  have hname : IsName name := by
    obtain ⟨c, hc, rfl⟩ := List.mem_map.mp hmem
    exact hb.named c hc
  have htype := (hasType_joinNames hb
    (container_not_rooted hb name) hname).mpr ⟨rfl, hmem⟩
  simp [inScope, htype]

theorem lookup_class (hmem : name ∈ tree.classes.map (·.name)) (hother : IsName other) :
    lookupSimple (symbolsOf tree settings) (classPlace settings other) name 0 =
      .ok (.type (joinNames settings.container name)) := by
  have hname : IsName name := by
    obtain ⟨c, hc, rfl⟩ := List.mem_map.mp hmem
    exact hb.named c hc
  have henclosing := inEnclosing_none hb hname hother
  have hscope := inScope_class hb hmem
  simp [lookupSimple, memberPlace, placeIn, henclosing, hscope]

omit hb in
structure Wanted (settings : Settings) (name home : String) : Prop where
  mem : (name, home) ∈ homes
  imported : home ∈ importNames settings
  exported : (joinNames home name, 0) ∈ (librarySymbols settings.runtime settings.library).types

omit hb in
theorem Wanted.isName {home : String} (h : Wanted settings name home) :
    IsName name ∧ ¬Rooted name ∧ name ∉ Assembly.roots := by
  have hall : ∀ pair ∈ homes, IsName pair.1 ∧ pair.1 ∉ Assembly.roots := by
    decide +kernel
  obtain ⟨hname, hroot⟩ := hall _ h.mem
  refine ⟨hname, ?_, hroot⟩
  rintro ⟨root, hmem, hhead⟩
  rw [partsOf_of_ne hname.ne_empty, hname.dottedParts] at hhead
  simp only [List.head?_cons, Option.some.injEq] at hhead
  exact hroot (hhead ▸ hmem)

theorem importedTypes_wanted {home : String} (h : Wanted settings name home) :
    importedTypes (symbolsOf tree settings) (rootScope settings) name 0 = [joinNames home name] := by
  have htype : ∀ scope ∈ importNames settings,
      (symbolsOf tree settings).hasType (joinNames scope name) 0 = (scope == home) := by
    intro scope hscope
    have hne := (import_rooted hscope).ne_empty
    have hrooted := (rooted_joinNames hne name).mpr (import_rooted hscope)
    rw [Bool.eq_iff_iff, hasType_rooted hb.toPlaced hrooted, beq_iff_eq]
    constructor
    · intro htype
      obtain ⟨scope', raw, -, htidy, hparts⟩ := library_type htype
      rw [partsOf_joinNames scope h.isName.1] at hparts
      obtain ⟨hscope', hstem⟩ := List.append_inj' hparts rfl
      rw [partsOf_inj hscope']
      exact htidy.home _ h.mem (by simpa using hstem.symm)
    · rintro rfl
      exact h.exported
  have hfilter : (importNames settings).filter
      (fun scope => (symbolsOf tree settings).hasType (joinNames scope name) 0) = [home] := by
    rw [List.filter_congr htype, List.filter_beq,
      List.count_eq_one_of_mem (importNames_nodup settings) h.imported]
    rfl
  rw [importedTypes, rootScope, List.filter_map]
  exact congrArg (List.map (joinNames · name)) hfilter

/-- What a namespace does not know: neither a class nor a namespace has the name in it. -/
theorem unknown_in {home outer : String} (h : Wanted settings name home)
    (hroot : ¬Rooted (joinNames outer name))
    (hclass : outer = settings.container → name ∉ tree.classes.map (·.name)) :
    (symbolsOf tree settings).hasType (joinNames outer name) 0 = false ∧
      (symbolsOf tree settings).isNamespace (joinNames outer name) = false := by
  have hname := h.isName.1
  rw [Bool.eq_false_iff, Bool.eq_false_iff, Ne, Ne, hasType_joinNames hb hroot hname]
  refine ⟨fun htype => hclass htype.1 htype.2, fun hnamespace => ?_⟩
  obtain ⟨p, -, hbegins, hparts⟩ :=
    parts_of_beginning hb.apart.named (isNamespace_not_rooted hroot hnamespace)
  rw [partsOf_joinNames outer hname, partsOf_empty, List.nil_append] at hparts
  exact hb.apart.home _ h.mem (hbegins.subset (hparts ▸ by simp))

theorem outer_not_rooted {outer : String}
    (houter : outer ∈ beginnings "" (Text.dottedParts settings.container).dropLast) (name : String) :
    outer ≠ settings.container ∧ ¬Rooted (joinNames outer name) := by
  have hnamed : ∀ part ∈ (Text.dottedParts settings.container).dropLast, IsName part :=
    fun part hpart => hb.apart.named part (List.dropLast_subset _ hpart)
  obtain ⟨p, hne, hbegins, hparts⟩ := parts_of_beginning hnamed houter
  rw [partsOf_empty, List.nil_append] at hparts
  have hcontainer := partsOf_of_ne hb.apart.ne_empty
  have houter_ne : outer ≠ "" := by
    rintro rfl
    exact hne hparts.symm
  constructor
  · rintro rfl
    have hlength := hbegins.length_le
    rw [← hparts, hcontainer, List.length_dropLast] at hlength
    have hpos := List.length_pos_iff.mpr (Text.dottedParts_ne_nil settings.container)
    omega
  · rw [rooted_joinNames houter_ne]
    rintro ⟨root, hroot, hhead⟩
    refine hb.apart.root ⟨root, hroot, ?_⟩
    obtain ⟨rest, hrest⟩ := hbegins.trans (List.dropLast_prefix _)
    rw [hcontainer, ← hrest, ← hparts, List.head?_append, hhead]
    rfl

theorem inScope_outer {home : String} (h : Wanted settings name home) {scope : Scope}
    (hscope : scope ∈ outerScopes "" (Text.dottedParts settings.container)) :
    inScope (symbolsOf tree settings) name 0 scope = none := by
  simp only [outerScopes, List.mem_reverse, List.mem_map] at hscope
  obtain ⟨outer, houter, rfl⟩ := hscope
  obtain ⟨hne, hrooted⟩ := outer_not_rooted hb houter name
  obtain ⟨htype, hnamespace⟩ := unknown_in hb h hrooted fun heq => absurd heq hne
  simp [inScope, htype, hnamespace, importedTypes, Entries.get?]

theorem inScope_root {home : String} (h : Wanted settings name home) :
    inScope (symbolsOf tree settings) name 0 (rootScope settings) =
      some (.ok (.type (joinNames home name))) := by
  have himported := importedTypes_wanted hb h
  have hrooted : ¬Rooted (joinNames "" name) := by
    rw [joinNames_empty]
    exact h.isName.2.1
  obtain ⟨htype, hnamespace⟩ := unknown_in hb h hrooted fun heq => absurd heq.symm hb.apart.ne_empty
  simp only [inScope, himported]
  simp [rootScope, htype, hnamespace, Entries.get?]

def meantBy (tree : ClassTree) (settings : Settings) (name home : String) : String :=
  if name ∈ tree.classes.map (·.name) then joinNames settings.container name else joinNames home name

/-- The name of a type of the libraries means that type, unless a class of the tree has it. -/
theorem lookup_wanted {home : String} (h : Wanted settings name home) (hother : IsName other) :
    lookupSimple (symbolsOf tree settings) (classPlace settings other) name 0 =
      .ok (.type (meantBy tree settings name home)) := by
  rw [meantBy]
  split
  · next hmem => exact lookup_class hb hmem hother
  · next hmem =>
    have henclosing := inEnclosing_none hb h.isName.1 hother
    obtain ⟨htype, hnamespace⟩ := unknown_in hb h (container_not_rooted hb name) fun _ => hmem
    have hscope : inScope (symbolsOf tree settings) name 0 { name := settings.container } = none := by
      simp [inScope, htype, hnamespace, importedTypes, Entries.get?]
    have houter : (outerScopes "" (Text.dottedParts settings.container)).findSome?
        (inScope (symbolsOf tree settings) name 0) = none :=
      List.findSome?_eq_none_iff.mpr fun scope hscope => inScope_outer hb h hscope
    simp [lookupSimple, memberPlace, placeIn, henclosing, hscope, houter, inScope_root hb h]

end

theorem wanted_timestamp (settings : Settings) : Wanted settings "DateTime" "System" := by
  refine ⟨by simp [homes], by simp [importNames, baseImports], ?_⟩
  refine library_type_iff.mpr ⟨.systemRuntime, by simp [standard], ?_⟩
  refine ⟨_, List.mem_cons_self, "DateTime", by simp, ?_⟩
  decide

def attributeType (l : JsonLibrary) : String := l.keyAttribute ++ "Attribute"

def attributeHome : JsonLibrary → String
  | .newtonsoft => "Newtonsoft.Json"
  | .systemText => "System.Text.Json.Serialization"

theorem exported_attribute (r : Runtime) (l : JsonLibrary) :
    (joinNames (attributeHome l) (attributeType l), 0) ∈ (librarySymbols r l).types := by
  refine library_type_iff.mpr ⟨Assembly.ofLibrary l, by simp [standard], ?_⟩
  cases l with
  | newtonsoft =>
    refine ⟨_, List.mem_cons_self, "JsonPropertyAttribute", by simp, ?_⟩
    decide
  | systemText =>
    refine ⟨_, List.mem_cons_of_mem _ (List.mem_cons_of_mem _ List.mem_cons_self),
      "JsonPropertyNameAttribute", by simp, ?_⟩
    decide

theorem wanted_attribute (settings : Settings) :
    Wanted settings (attributeType settings.library) (attributeHome settings.library) := by
  refine ⟨?_, ?_, exported_attribute settings.runtime settings.library⟩
  · cases settings.library <;> decide
  · rw [importNames]
    cases settings.library <;> simp [baseImports, JsonLibrary.namespaces, attributeHome]

end DataClasses.Binding
