import DataClasses.Proofs.Binding.Placed
import DataClasses.Proofs.Binding.Types
import DataClasses.Proofs.Declaration.Words

/-!
# Names within reach

Full names that are not left when the words of a source are joined to them. The names of all that stands
around a place of the source, and of all that can be meant there, are among these.
-/

set_option autoImplicit false

namespace DataClasses

open Binding

namespace Binding

/-- Among these full names there is the root of all namespaces and, with each one, what comes of
joining a word to it, be it with the suffix of an attribute. -/
structure Closed (reach : String → Prop) (words : List String) : Prop where
  root : reach ""
  joined : ∀ w ∈ words, ∀ outer, reach outer → reach (joinNames outer w)
  suffixed : ∀ w ∈ words, ∀ outer, reach outer → reach (joinNames outer (w ++ "Attribute"))

namespace Closed

variable {reach : String → Prop} {words fewer : List String}

theorem subset (h : Closed reach words) (hfewer : fewer ⊆ words) : Closed reach fewer where
  root := h.root
  joined := fun w hw => h.joined w (hfewer hw)
  suffixed := fun w hw => h.suffixed w (hfewer hw)

theorem left {others : List String} (h : Closed reach (words ++ others)) : Closed reach words :=
  h.subset (List.subset_append_left _ _)

theorem right {others : List String} (h : Closed reach (others ++ words)) : Closed reach words :=
  h.subset (List.subset_append_right _ _)

theorem tail {w : String} (h : Closed reach (w :: words)) : Closed reach words :=
  h.subset (List.subset_cons_self _ _)

theorem item {α : Type} {items : List α} {wordsOf : α → List String}
    (h : Closed reach (items.flatMap wordsOf)) {a : α} (ha : a ∈ items) : Closed reach (wordsOf a) :=
  h.subset fun _ hw => List.mem_flatMap.mpr ⟨a, ha, hw⟩

end Closed

def Joins (reach : String → Prop) (name : String) : Prop :=
  ∀ outer, reach outer → reach (joinNames outer name)

theorem joins_parts {reach : String → Prop} {parts : List String} (h : ∀ w ∈ parts, Joins reach w) :
    ∀ part ∈ parts.map fun part => (part, 0), Joins reach part.1 := by
  intro part hpart
  obtain ⟨w, hw, rfl⟩ := List.mem_map.mp hpart
  exact h w hw

structure Scope.Within (reach : String → Prop) (s : Scope) : Prop where
  name : reach s.name
  imported : ∀ n ∈ s.imported, reach n
  aliases : ∀ a ∈ s.aliases, reach a.2.name

structure Place.Within (reach : String → Prop) (p : Place) : Prop where
  scopes : ∀ s ∈ p.scopes, s.Within reach
  enclosing : ∀ n ∈ p.enclosing, reach n

variable {reach : String → Prop} {symbols : Symbols} {place : Place}

theorem Means.within (hroot : reach "") (hplace : place.Within reach) {name : String}
    (hname : Joins reach name) {arity : Nat} {m : Meaning} (h : Means symbols place name arity m) :
    reach m.name := by
  cases h with
  | typeParameter => exact hname "" hroot
  | enclosed houter _ => exact hname _ (hplace.enclosing _ houter)
  | given hscope hgives =>
    have hscope := hplace.scopes _ hscope
    cases hgives with
    | type _ => exact hname _ hscope.name
    | inner => exact hname _ hscope.name
    | shortName halias => exact hscope.aliases _ halias
    | imported houter _ => exact hname _ (hscope.imported _ houter)
  | native => exact hname "" hroot

/-- All names that are tried are within reach. -/
theorem candidates_within (hplace : place.Within reach) {name : String} (hname : Joins reach name) :
    ∀ full ∈ candidates place name, reach full := by
  intro full hfull
  rcases List.mem_append.mp hfull with hfull | hfull
  · obtain ⟨outer, houter, rfl⟩ := List.mem_map.mp hfull
    exact hname _ (hplace.enclosing outer houter)
  · obtain ⟨scope, hscope, hfull⟩ := List.mem_flatMap.mp hfull
    have hscope := hplace.scopes scope hscope
    rcases List.mem_cons.mp hfull with rfl | hfull
    · exact hname _ hscope.name
    · obtain ⟨outer, houter, rfl⟩ := List.mem_map.mp hfull
      exact hname _ (hscope.imported outer houter)

theorem lookupFirst_within (hroot : reach "") (hplace : place.Within reach) {part : String × Nat}
    (hpart : Joins reach part.1) {fromRoot : Bool} {m : Meaning}
    (h : lookupFirst symbols place fromRoot part = .ok m) : reach m.name := by
  rw [lookupFirst] at h
  split at h
  · rw [(of_lookupRoot h).1]
    exact hpart "" hroot
  · exact (means_of_lookupSimple h).within hroot hplace hpart

theorem foldl_within {parts : List String} (hparts : ∀ part ∈ parts, Joins reach part) {outer : String}
    (houter : reach outer) : reach (parts.foldl joinNames outer) := by
  induction parts generalizing outer with
  | nil => exact houter
  | cons part parts ih =>
    obtain ⟨hpart, hrest⟩ := List.forall_mem_cons.mp hparts
    exact ih hrest (hpart outer houter)

/-- A name within reach is meant by a dotted name. -/
theorem lookup_within (hroot : reach "") (hplace : place.Within reach) {parts : List (String × Nat)}
    (hparts : ∀ part ∈ parts, Joins reach part.1) {fromRoot : Bool} {m : Meaning}
    (h : lookup symbols place parts fromRoot = .ok m) : reach m.name := by
  cases parts with
  | nil => cases h
  | cons part rest =>
    obtain ⟨hpart, hrest⟩ := List.forall_mem_cons.mp hparts
    rw [lookup_cons] at h
    obtain ⟨first, hfirst, hmeant⟩ := ok_of_bind h
    rw [(of_lookupRest hmeant).1]
    exact foldl_within (List.forall_mem_map.mpr hrest) (lookupFirst_within hroot hplace hpart hfirst)

theorem Scope.Within.plain {name : String} (h : reach name) : Scope.Within reach { name } :=
  ⟨h, List.forall_mem_nil _, List.forall_mem_nil _⟩

theorem Place.Within.addScope (hplace : place.Within reach) {scope : Scope} (hscope : scope.Within reach) :
    Place.Within reach { place with scopes := scope :: place.scopes } :=
  ⟨List.forall_mem_cons.mpr ⟨hscope, hplace.scopes⟩, hplace.enclosing⟩

theorem bindImport_within {scope : Scope} (hscope : scope.Within reach) (i : Import) {m : Meaning}
    (hm : reach m.name) : (bindImport scope i m).value.Within reach := by
  unfold bindImport
  split
  · next name _ =>
    refine ⟨hscope.name, hscope.imported, ?_⟩
    intro entry hentry
    rcases Entries.mem_put hentry with rfl | hentry
    · exact hm
    · exact hscope.aliases entry hentry
  · split
    · split
      · exact hscope
      · refine ⟨hscope.name, ?_, hscope.aliases⟩
        exact List.forall_mem_append.mpr ⟨hscope.imported, List.forall_mem_singleton.mpr hm⟩
    · exact hscope
    · exact hscope
    · exact hscope

theorem bindImportsInto_within (hplace : place.Within reach) {scope : Scope}
    (hscope : scope.Within reach) {imports : List Import}
    (hwords : Closed reach (imports.flatMap (·.words))) :
    (bindImportsInto symbols place scope imports).value.Within reach := by
  induction imports generalizing scope with
  | nil => exact hscope
  | cons i imports ih =>
    rw [List.flatMap_cons] at hwords
    rw [bindImportsInto]
    split
    · exact ih hscope hwords.right
    · split
      · exact ih hscope hwords.right
      · next m hm =>
        refine ih (bindImport_within hscope i ?_) hwords.right
        exact lookup_within hwords.root hplace (joins_parts hwords.left.joined) hm

theorem bindImports_within (hplace : place.Within reach) {name : String} (hname : reach name)
    {imports : List Import} (hwords : Closed reach (imports.flatMap (·.words))) :
    (bindImports symbols place name imports).value.Within reach :=
  bindImportsInto_within (hplace.addScope (.plain hname)) (.plain hname) hwords

theorem Place.Within.scopeName (hroot : reach "") (h : place.Within reach) : reach place.scopeName := by
  rw [Place.scopeName]
  cases hscopes : place.scopes with
  | nil => exact hroot
  | cons scope scopes => exact (h.scopes scope (hscopes ▸ List.mem_cons_self)).name

theorem openScopes_within {parts : List String} (hparts : ∀ part ∈ parts, Joins reach part)
    {current : String} (hplace : place.Within reach) (hcurrent : reach current) :
    (openScopes place current parts).1.Within reach ∧ reach (openScopes place current parts).2 := by
  fun_induction openScopes place current parts with
  | case1 place current => exact ⟨hplace, hcurrent⟩
  | case2 place current part => exact ⟨hplace, hparts part List.mem_cons_self current hcurrent⟩
  | case3 place current part rest hne full ih =>
    obtain ⟨hpart, hrest⟩ := List.forall_mem_cons.mp hparts
    have hfull : reach full := hpart current hcurrent
    exact ih hrest (hplace.addScope (.plain hfull)) hfull

theorem ScopeHead.inside_within {head : ScopeHead} (hwords : Closed reach head.words)
    (hplace : place.Within reach) : (head.inside symbols place).Within reach := by
  obtain ⟨hopened, hfull⟩ := openScopes_within hwords.left.joined hplace (hplace.scopeName hwords.root)
  exact hopened.addScope (bindImports_within hopened hfull hwords.right)

theorem Place.Within.into (hplace : place.Within reach) (head : TypeHead) {full : String}
    (hfull : reach full) : (place.into head full).Within reach :=
  ⟨hplace.scopes, List.forall_mem_cons.mpr ⟨hfull, hplace.enclosing⟩⟩

end Binding

structure PlacedPart.Within (reach : String → Prop) (p : PlacedPart) : Prop where
  full : reach p.full
  inside : p.inside.Within reach

variable {reach : String → Prop}

namespace Member

mutual

theorem placedIn_within {scope : String} {around : List (String × Nat)} {place : Place}
    (hfull : reach (containerIn scope around).full) (hplace : place.Within reach) (site : List Nat) :
    (m : Member) → Closed reach m.words → ∀ p ∈ m.placedIn scope around place site, p.Within reach
  | .nested head members, hwords => by
    rw [placedIn]
    split
    · exact List.forall_mem_nil _
    · have hname : reach ((containerIn scope around).into head).full :=
        hwords.joined head.name List.mem_cons_self _ hfull
      have hinside := hplace.into head hname
      have haround : reach (containerIn scope (around ++ [head.level])).full := by
        rw [containerIn_concat]
        exact hname
      exact List.forall_mem_cons.mpr
        ⟨⟨hname, hinside⟩, allPlacedIn_within haround hinside site 0 members hwords.right⟩
  | .field _, _ => List.forall_mem_nil _
  | .property _, _ => List.forall_mem_nil _
  | .method _, _ => List.forall_mem_nil _
  | .constructor _, _ => List.forall_mem_nil _
  | .enumValue _, _ => List.forall_mem_nil _

theorem allPlacedIn_within {scope : String} {around : List (String × Nat)} {place : Place}
    (hfull : reach (containerIn scope around).full) (hplace : place.Within reach) (site : List Nat) :
    (i : Nat) → (ms : List Member) → Closed reach (allWords ms) →
      ∀ p ∈ allPlacedIn scope around place site i ms, p.Within reach
  | _, [], _ => List.forall_mem_nil _
  | i, m :: rest, hwords => List.forall_mem_append.mpr
    ⟨placedIn_within hfull hplace (i :: site) m hwords.left,
      allPlacedIn_within hfull hplace site (i + 1) rest hwords.right⟩

end

end Member

theorem Declaration.allPlacedIn_within {symbols : Symbols} {place : Place} (hplace : place.Within reach)
    (site : List Nat) : (i : Nat) → (ds : List Declaration) → Closed reach (allWords ds) →
      ∀ p ∈ allPlacedIn symbols place site i ds, p.Within reach
  | _, [], _ => by
    rw [allPlacedIn]
    exact List.forall_mem_nil _
  | i, .scope head members :: rest, hwords => by
    rw [allPlacedIn]
    exact List.forall_mem_append.mpr
      ⟨allPlacedIn_within (ScopeHead.inside_within hwords.left.left hplace) (i :: site) 0 members
          hwords.left.right,
        allPlacedIn_within hplace site (i + 1) rest hwords.right⟩
  | i, .type head members :: rest, hwords => by
    rw [allPlacedIn]
    exact List.forall_mem_append.mpr
      ⟨Member.placedIn_within (hplace.scopeName hwords.root) hplace (i :: site) (.nested head members)
          hwords.left,
        allPlacedIn_within hplace site (i + 1) rest hwords.right⟩

namespace SourceUnit

variable (u : SourceUnit)

theorem rootPlace_within (symbols : Symbols) (hwords : Closed reach u.words) :
    (u.rootPlace symbols).Within reach := by
  have hempty : Place.Within reach {} := ⟨List.forall_mem_nil _, List.forall_mem_nil _⟩
  exact hempty.addScope (bindImports_within hempty hwords.root hwords.left)

theorem placed_within (references : List Assembly) (hwords : Closed reach u.words) :
    ∀ p ∈ u.placed references, p.Within reach :=
  Declaration.allPlacedIn_within (u.rootPlace_within _ hwords) [] 0 u.members hwords.right

end SourceUnit

end DataClasses
