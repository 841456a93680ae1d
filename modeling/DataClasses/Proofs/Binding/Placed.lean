import DataClasses.Proofs.Binding.Parts
import Mathlib.Data.List.Forall2

/-!
# Type declarations at their places

Each type declaration of a source with the place at which its names are looked up. All entries of a
source are those of its type declarations at their places, and what is reported of these is reported
of the source. The table that it is bound to has one type for all declarations in one namespace with
one dotted name and one number of type parameters.
-/

set_option autoImplicit false

namespace DataClasses

open Binding

structure PlacedPart extends TypePart where
  place : Place

def Binding.containerIn (scope : String) (around : List (String × Nat)) : Container where
  scope := scope
  full := (around.map (·.1)).foldl joinNames scope
  outer := TypePart.dotted around

theorem Binding.containerIn_concat (scope : String) (around : List (String × Nat)) (head : TypeHead) :
    containerIn scope (around ++ [head.level]) = (containerIn scope around).into head := by
  simp [containerIn, Container.into, TypePart.dotted, TypeHead.level]

namespace PlacedPart

def container (p : PlacedPart) : Container := containerIn p.scope p.around

def full (p : PlacedPart) : String := (p.container.into p.head).full

def inside (p : PlacedPart) : Place := p.place.into p.head p.full

def bound (symbols : Symbols) (p : PlacedPart) : Reported TypeEntry :=
  bindHead symbols p.place p.container p.head p.members

theorem bound_entryOf (symbols : Symbols) (p : PlacedPart) : EntryOf (p.bound symbols).value p.toTypePart :=
  bindHead_entryOf symbols p.place rfl p.head p.members p.site

theorem bound_claims (symbols : Symbols) (p : PlacedPart) :
    ∀ d ∈ (claimsOf p.toTypePart p.full).reports, d ∈ (p.bound symbols).reports :=
  bindHead_claims symbols p.place p.container p.around p.head p.members p.site

end PlacedPart

namespace Member

mutual

def placedIn (scope : String) (around : List (String × Nat)) (place : Place) (site : List Nat) :
    Member → List PlacedPart
  | nested head members =>
    if head.name.isEmpty then []
    else
      let p : PlacedPart := ⟨⟨site, scope, around, head, members⟩, place⟩
      p :: allPlacedIn scope (around ++ [head.level]) p.inside site 0 members
  | _ => []

def allPlacedIn (scope : String) (around : List (String × Nat)) (place : Place) (site : List Nat) :
    Nat → List Member → List PlacedPart
  | _, [] => []
  | i, m :: rest =>
    placedIn scope around place (i :: site) m ++ allPlacedIn scope around place site (i + 1) rest

end

end Member

def ScopeHead.inside (symbols : Symbols) (place : Place) (head : ScopeHead) : Place :=
  let opened := openScopes place place.scopeName head.name.parts
  let scope := (bindImports symbols opened.1 opened.2 head.imports).value
  { opened.1 with scopes := scope :: opened.1.scopes }

def Declaration.allPlacedIn (symbols : Symbols) (place : Place) (site : List Nat) :
    Nat → List Declaration → List PlacedPart
  | _, [] => []
  | i, .scope head members :: rest =>
    allPlacedIn symbols (head.inside symbols place) (i :: site) 0 members ++
      allPlacedIn symbols place site (i + 1) rest
  | i, .type head members :: rest =>
    (Member.nested head members).placedIn place.scopeName [] place (i :: site) ++
      allPlacedIn symbols place site (i + 1) rest

def SourceUnit.rootPlace (u : SourceUnit) (symbols : Symbols) : Place :=
  { scopes := [(bindImports symbols {} "" u.imports).value] }

def SourceUnit.placed (u : SourceUnit) (references : List Assembly) : List PlacedPart :=
  Declaration.allPlacedIn (u.symbols references) (u.rootPlace (u.symbols references)) [] 0 u.members

namespace Member

mutual

theorem placedIn_parts (scope : String) (around : List (String × Nat)) (place : Place)
    (site : List Nat) : (m : Member) →
      (m.placedIn scope around place site).map (·.toTypePart) = m.partsIn scope around site
  | .nested head members => by
    rw [placedIn, partsIn]
    split
    · rfl
    · exact congrArg (_ :: ·) (allPlacedIn_parts scope _ _ site 0 members)
  | .field _ => rfl
  | .property _ => rfl
  | .method _ => rfl
  | .constructor _ => rfl
  | .enumValue _ => rfl

theorem allPlacedIn_parts (scope : String) (around : List (String × Nat)) (place : Place)
    (site : List Nat) : (i : Nat) → (ms : List Member) →
      (allPlacedIn scope around place site i ms).map (·.toTypePart) = allPartsIn scope around site i ms
  | _, [] => rfl
  | i, m :: rest => by
    rw [allPlacedIn, allPartsIn, List.map_append, placedIn_parts scope around place (i :: site) m,
      allPlacedIn_parts scope around place site (i + 1) rest]

end

end Member

theorem Binding.openScopes_name (place : Place) (current : String) (parts : List String) :
    (openScopes place current parts).2 = parts.foldl joinNames current := by
  cases parts with
  | nil => rfl
  | cons part parts => rw [openScopes_eq (List.cons_ne_nil part parts)]

theorem ScopeHead.inside_name (symbols : Symbols) (place : Place) (head : ScopeHead) :
    (head.inside symbols place).scopeName = head.name.parts.foldl joinNames place.scopeName := by
  rw [← openScopes_name place]
  exact bindImportsInto_name _ _ _

theorem Declaration.allPlacedIn_parts (symbols : Symbols) (place : Place) (site : List Nat) :
    (i : Nat) → (ds : List Declaration) →
      (allPlacedIn symbols place site i ds).map (·.toTypePart) = allPartsIn place.scopeName site i ds
  | _, [] => by rw [allPlacedIn, allPartsIn, List.map_nil]
  | i, .scope head members :: rest => by
    rw [allPlacedIn, allPartsIn, partsIn, List.map_append, ← ScopeHead.inside_name symbols,
      allPlacedIn_parts symbols _ (i :: site) 0 members,
      allPlacedIn_parts symbols place site (i + 1) rest]
  | i, .type head members :: rest => by
    rw [allPlacedIn, allPartsIn, partsIn, List.map_append, Member.placedIn_parts,
      allPlacedIn_parts symbols place site (i + 1) rest]

/-- The type declarations of a source, each with its place. -/
theorem SourceUnit.placed_parts (u : SourceUnit) (references : List Assembly) :
    (u.placed references).map (·.toTypePart) = u.parts := by
  have hroot : (u.rootPlace (u.symbols references)).scopeName = "" := bindImportsInto_name _ _ _
  rw [placed, Declaration.allPlacedIn_parts, hroot, parts]

namespace Binding

structure Gathers (symbols : Symbols) (x : Reported (List TypeEntry)) (ps : List PlacedPart) : Prop where
  entries : x.value = ps.map fun p => (p.bound symbols).value
  reports : ∀ p ∈ ps, (p.bound symbols).reports ⊆ x.reports

namespace Gathers

variable {α : Type} {symbols : Symbols} {x y : Reported (List TypeEntry)} {ps qs : List PlacedPart}

theorem none : Gathers symbols (pure []) [] := ⟨rfl, by simp⟩

theorem behind {said : Reported α} {f : α → Reported (List TypeEntry)}
    (h : Gathers symbols (f said.value) ps) : Gathers symbols (said >>= f) ps := by
  refine ⟨h.entries, ?_⟩
  intro p hp d hd
  exact List.mem_append_right _ (h.reports p hp hd)

theorem append (hx : Gathers symbols x ps) (hy : Gathers symbols y qs) :
    Gathers symbols (do let a ← x; let b ← y; pure (a ++ b)) (ps ++ qs) := by
  constructor
  · rw [List.map_append, ← hx.entries, ← hy.entries]
    rfl
  · intro p hp d hd
    rcases List.mem_append.mp hp with hp | hp
    · exact List.mem_append_left _ (hx.reports p hp hd)
    · exact List.mem_append_right _ (List.mem_append_left _ (hy.reports p hp hd))

theorem cons (p : PlacedPart) (hx : Gathers symbols x ps) :
    Gathers symbols (do let t ← p.bound symbols; let ts ← x; pure (t :: ts)) (p :: ps) := by
  constructor
  · rw [List.map_cons, ← hx.entries]
    rfl
  · intro q hq d hd
    rcases List.mem_cons.mp hq with rfl | hq
    · exact List.mem_append_left _ hd
    · exact List.mem_append_right _ (List.mem_append_left _ (hx.reports q hq hd))

end Gathers

variable (symbols : Symbols)

mutual

theorem bindInner_gathers (scope : String) (around : List (String × Nat)) (place : Place)
    (site : List Nat) : (m : Member) →
      Gathers symbols (bindInner symbols place (containerIn scope around) m)
        (m.placedIn scope around place site)
  | .nested head members => by
    rw [bindInner, Member.placedIn]
    split
    · exact .none
    · have hinside := bindNested_gathers scope (around ++ [head.level])
        (place.into head ((containerIn scope around).into head).full) site 0 members
      rw [containerIn_concat] at hinside
      exact .cons ⟨⟨site, scope, around, head, members⟩, place⟩ hinside
  | .field _ => .none
  | .property _ => .none
  | .method _ => .none
  | .constructor _ => .none
  | .enumValue _ => .none

theorem bindNested_gathers (scope : String) (around : List (String × Nat)) (place : Place)
    (site : List Nat) : (i : Nat) → (ms : List Member) →
      Gathers symbols (bindNested symbols place (containerIn scope around) ms)
        (Member.allPlacedIn scope around place site i ms)
  | _, [] => .none
  | i, m :: rest =>
    (bindInner_gathers scope around place (i :: site) m).append
      (bindNested_gathers scope around place site (i + 1) rest)

end

theorem bindDeclarations_gathers (place : Place) (site : List Nat) :
    (i : Nat) → (ds : List Declaration) →
      Gathers symbols (bindDeclarations symbols place ds)
        (Declaration.allPlacedIn symbols place site i ds)
  | _, [] => by
    rw [bindDeclarations, Declaration.allPlacedIn]
    exact .none
  | i, .scope head members :: rest => by
    rw [bindDeclarations, Declaration.allPlacedIn]
    apply Gathers.behind
    exact .append (bindDeclarations_gathers _ (i :: site) 0 members)
      (bindDeclarations_gathers place site (i + 1) rest)
  | i, .type head members :: rest => by
    rw [bindDeclarations, Declaration.allPlacedIn]
    exact .append (bindInner_gathers symbols place.scopeName [] place (i :: site) (.nested head members))
      (bindDeclarations_gathers place site (i + 1) rest)

structure Records (x : Reported (List TypeEntry)) (parts : List TypePart) : Prop where
  entries : List.Forall₂ EntryOf x.value parts
  claims : ∀ p ∈ parts, ∃ full, ∀ d ∈ (claimsOf p full).reports, d ∈ x.reports

end Binding

namespace SourceUnit

variable (u : SourceUnit) (references : List Assembly)

theorem bindUnit_gathers :
    Gathers (u.symbols references) (bindUnit (u.symbols references) u) (u.placed references) := by
  apply Gathers.behind
  apply Gathers.behind
  exact bindDeclarations_gathers (u.symbols references) _ [] 0 u.members

/-- What is reported of a type declaration at its place is reported of the source. -/
theorem placed_reported {p : PlacedPart} (hp : p ∈ u.placed references) :
    (p.bound (u.symbols references)).reports ⊆ (u.bind references).diagnostics := by
  intro d hd
  exact mem_distinct.mpr ((u.bindUnit_gathers references).reports p hp hd)

theorem bound_records :
    Records (bindUnit ((Symbols.ofAssemblies references).append (Symbols.ofUnit u)) u) u.parts := by
  have hgathers := u.bindUnit_gathers references
  rw [← u.placed_parts references]
  constructor
  · change List.Forall₂ EntryOf (bindUnit (u.symbols references) u).value _
    rw [hgathers.entries, List.forall₂_map_left_iff, List.forall₂_map_right_iff, List.forall₂_same]
    exact fun p _ => p.bound_entryOf _
  · intro p hp
    obtain ⟨q, hq, rfl⟩ := List.mem_map.mp hp
    exact ⟨q.full, fun d hd => hgathers.reports q hq (q.bound_claims _ d hd)⟩

end SourceUnit

namespace Binding

section

variable {entries : List TypeEntry} {parts : List TypePart} (h : List.Forall₂ EntryOf entries parts)

include h

theorem identities_eq : entries.map (·.identity) = parts.map (·.identity) := by
  induction h with
  | nil => rfl
  | cons hentry _ ih => rw [List.map_cons, List.map_cons, hentry.identity, ih]

theorem filter_entryOf (identity : String × String × Nat) :
    List.Forall₂ EntryOf (entries.filter (·.identity == identity))
      (parts.filter (·.identity == identity)) := by
  induction h with
  | nil => exact .nil
  | cons hentry _ ih =>
    rw [List.filter_cons, List.filter_cons, hentry.identity]
    split
    · exact .cons hentry ih
    · exact ih

theorem members_entryOf :
    (entries.flatMap (·.members)).map (fun m => (m.name, m.kind)) = parts.flatMap (·.shown) := by
  induction h with
  | nil => rfl
  | cons hentry _ ih => rw [List.flatMap_cons, List.flatMap_cons, List.map_append, hentry.members, ih]

theorem head_entryOf {t : TypeEntry} (ht : entries.head? = some t) :
    ∃ p, parts.head? = some p ∧ EntryOf t p := by
  cases h with
  | nil => cases ht
  | cons hentry _ =>
    cases ht
    exact ⟨_, rfl, hentry⟩

end

end Binding

namespace SourceUnit

variable (u : SourceUnit) (references : List Assembly)

theorem table_grouped :
    TypeTable.Grouped (u.bind references).table.types
      (bindUnit ((Symbols.ofAssemblies references).append (Symbols.ofUnit u)) u).value :=
  TypeTable.ofEntries_grouped _

theorem table_identities :
    (u.bind references).table.types.map (·.identity) = (u.parts.map (·.identity)).eraseDups := by
  rw [← identities_eq (u.bound_records references).entries]
  exact (u.table_grouped references).identities

theorem table_members {t : TypeEntry} (ht : t ∈ (u.bind references).table.types) :
    t.members.map (fun m => (m.name, m.kind)) =
      (u.parts.filter (·.identity == t.identity)).flatMap (·.shown) := by
  rw [(u.table_grouped references).members t ht,
    members_entryOf (filter_entryOf (u.bound_records references).entries t.identity)]

theorem table_first {t : TypeEntry} (ht : t ∈ (u.bind references).table.types) :
    ∃ p, (u.parts.filter (·.identity == t.identity)).head? = some p ∧
      t.kind = p.head.kind ∧ t.typeParameters = p.head.typeParameters := by
  obtain ⟨first, hfirst, hkind, hparameters⟩ := (u.table_grouped references).first t ht
  obtain ⟨p, hp, hentry⟩ :=
    head_entryOf (filter_entryOf (u.bound_records references).entries t.identity) hfirst
  exact ⟨p, hp, hkind.trans hentry.kind, hparameters.trans hentry.typeParameters⟩

/-- The types of a table are the type declarations of the source in the order in which they begin, those
with one namespace, dotted name and number of type parameters at the place of the first, which says what
kind of type it is. Its members are those of all of them, one declaration after the other. -/
theorem table_groups_parts :
    (u.bind references).table.types.map (·.identity) = (u.parts.map (·.identity)).eraseDups ∧
      ((u.bind references).table.types.map (·.identity)).Nodup ∧
      ∀ t ∈ (u.bind references).table.types,
        (∃ p, (u.parts.filter (·.identity == t.identity)).head? = some p ∧
          t.kind = p.head.kind ∧ t.typeParameters = p.head.typeParameters) ∧
        t.members.map (fun m => (m.name, m.kind)) =
          (u.parts.filter (·.identity == t.identity)).flatMap (·.shown) :=
  ⟨u.table_identities references, (u.table_grouped references).nodup, fun _ ht =>
    ⟨u.table_first references ht, u.table_members references ht⟩⟩

/-- A type of the table has the members of the declarations about it. -/
theorem members_placed {t : TypeEntry} (ht : t ∈ (u.bind references).table.types) :
    t.members = ((u.placed references).filter (·.identity == t.identity)).flatMap
      fun p => (p.bound (u.symbols references)).value.members := by
  have hgathers := (u.bindUnit_gathers references).entries
  rw [(u.table_grouped references).members t ht]
  change ((bindUnit (u.symbols references) u).value.filter (·.identity == t.identity)).flatMap _ = _
  rw [hgathers, List.filter_map, List.flatMap_map]
  congr 1
  apply List.filter_congr
  intro p _
  exact congrArg (· == t.identity) (p.bound_entryOf _).identity

end SourceUnit

end DataClasses
