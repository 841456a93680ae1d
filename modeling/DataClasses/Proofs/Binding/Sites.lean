import DataClasses.Proofs.Binding.Parts
import DataClasses.Proofs.Declaration.Extent
import DataClasses.Proofs.Binding.Repeats

/-!
# Where type declarations stand

No two type declarations have one site, and the one around a type declaration stands where its site
says. Their names are those they were read with, and the declarations that are looked through for
repetitions are the same.
-/

set_option autoImplicit false

namespace DataClasses

open Binding
open Identifier (IsName)

structure TypePart.StandsAt (p : TypePart) (i : Nat) (outer : TypePart) : Prop where
  site : p.site = i :: outer.site
  scope : p.scope = outer.scope
  around : p.around = outer.around ++ [outer.head.level]
  member : outer.members[i]? = some (.nested p.head p.members)

namespace Member

mutual

theorem partsIn_outer (scope : String) (around : List (String × Nat)) (site : List Nat) :
    (m : Member) → ∀ p ∈ m.partsIn scope around site,
      (p.site = site ∧ p.scope = scope ∧ p.around = around ∧ m = .nested p.head p.members) ∨
        ∃ outer ∈ m.partsIn scope around site, ∃ i, p.StandsAt i outer
  | .nested head members => by
    intro p hp
    rw [partsIn] at hp ⊢
    split at hp
    · cases hp
    · next hname =>
      rw [if_neg hname]
      rcases List.mem_cons.mp hp with rfl | hp
      · exact .inl ⟨rfl, rfl, rfl, rfl⟩
      · right
        rcases allPartsIn_outer scope _ site 0 members p hp with
          ⟨i, hsite, hscope, haround, hmember⟩ | ⟨outer, houter, i, hstands⟩
        · rw [Nat.zero_add] at hsite
          exact ⟨_, List.mem_cons_self, i, hsite, hscope, haround, hmember⟩
        · exact ⟨outer, List.mem_cons_of_mem _ houter, i, hstands⟩
  | .field _ => nofun
  | .property _ => nofun
  | .method _ => nofun
  | .constructor _ => nofun
  | .enumValue _ => nofun

theorem allPartsIn_outer (scope : String) (around : List (String × Nat)) (site : List Nat) :
    (i : Nat) → (ms : List Member) → ∀ p ∈ allPartsIn scope around site i ms,
      (∃ k, p.site = (i + k) :: site ∧ p.scope = scope ∧ p.around = around ∧
        ms[k]? = some (.nested p.head p.members)) ∨
        ∃ outer ∈ allPartsIn scope around site i ms, ∃ k, p.StandsAt k outer
  | _, [] => nofun
  | i, m :: rest => by
    intro p hp
    rw [allPartsIn] at hp ⊢
    rcases List.mem_append.mp hp with hp | hp
    · rcases partsIn_outer scope around (i :: site) m p hp with
        ⟨hsite, hscope, haround, hmember⟩ | ⟨outer, houter, k, hstands⟩
      · exact .inl ⟨0, hsite, hscope, haround, congrArg some hmember⟩
      · exact .inr ⟨outer, List.mem_append_left _ houter, k, hstands⟩
    · rcases allPartsIn_outer scope around site (i + 1) rest p hp with
        ⟨k, hsite, hscope, haround, hmember⟩ | ⟨outer, houter, k, hstands⟩
      · refine .inl ⟨k + 1, ?_, hscope, haround, hmember⟩
        rw [hsite, Nat.add_right_comm, Nat.add_assoc]
      · exact .inr ⟨outer, List.mem_append_right _ houter, k, hstands⟩

end

end Member

namespace Declaration

mutual

theorem partsIn_outer (outer : String) (site : List Nat) :
    (d : Declaration) → ∀ p ∈ d.partsIn outer site, p.around = [] ∨
      ∃ around ∈ d.partsIn outer site, ∃ i, p.StandsAt i around
  | .scope head members => by
    rw [partsIn]
    exact allPartsIn_outer _ site 0 members
  | .type head members => by
    rw [partsIn]
    intro p hp
    rcases Member.partsIn_outer outer [] site _ p hp with ⟨-, -, haround, -⟩ | hstands
    · exact .inl haround
    · exact .inr hstands

theorem allPartsIn_outer (outer : String) (site : List Nat) :
    (i : Nat) → (ds : List Declaration) → ∀ p ∈ allPartsIn outer site i ds, p.around = [] ∨
      ∃ around ∈ allPartsIn outer site i ds, ∃ i, p.StandsAt i around
  | _, [] => nofun
  | i, d :: rest => by
    intro p hp
    rw [allPartsIn] at hp ⊢
    rcases List.mem_append.mp hp with hp | hp
    · rcases partsIn_outer outer (i :: site) d p hp with haround | ⟨around, haround, k, hstands⟩
      · exact .inl haround
      · exact .inr ⟨around, List.mem_append_left _ haround, k, hstands⟩
    · rcases allPartsIn_outer outer site (i + 1) rest p hp with
        haround | ⟨around, haround, k, hstands⟩
      · exact .inl haround
      · exact .inr ⟨around, List.mem_append_right _ haround, k, hstands⟩

end

end Declaration

structure Spread (site : List Nat) (parts : List TypePart) : Prop where
  below : ∀ p ∈ parts, site <:+ p.site
  nodup : (parts.map (·.site)).Nodup

structure SpreadFrom (site : List Nat) (i : Nat) (parts : List TypePart) : Prop where
  behind : ∀ p ∈ parts, ∃ k, i ≤ k ∧ (k :: site) <:+ p.site
  nodup : (parts.map (·.site)).Nodup

section

variable {site : List Nat} {i : Nat} {first rest : List TypePart}

theorem Spread.none : Spread site [] := ⟨nofun, List.nodup_nil⟩

theorem SpreadFrom.none : SpreadFrom site i [] := ⟨nofun, List.nodup_nil⟩

theorem SpreadFrom.inside (h : SpreadFrom site i rest) : Spread site rest := by
  refine ⟨?_, h.nodup⟩
  intro p hp
  obtain ⟨k, -, hsite⟩ := h.behind p hp
  exact (List.suffix_cons k site).trans hsite

theorem SpreadFrom.cons (h : SpreadFrom site i rest) {p : TypePart} (hp : p.site = site) :
    Spread site (p :: rest) := by
  constructor
  · exact List.forall_mem_cons.mpr ⟨hp ▸ List.suffix_refl _, h.inside.below⟩
  · rw [List.map_cons, List.nodup_cons]
    refine ⟨?_, h.nodup⟩
    intro hmem
    obtain ⟨q, hq, hsite⟩ := List.mem_map.mp hmem
    obtain ⟨k, -, hbehind⟩ := h.behind q hq
    have hlength := hbehind.length_le
    rw [hsite, hp, List.length_cons] at hlength
    omega

/-- A site goes on from one of two places only. -/
theorem place_unique {s : List Nat} {k : Nat} (hi : (i :: site) <:+ s) (hk : (k :: site) <:+ s) :
    i = k := by
  have hsuffix := List.suffix_of_suffix_length_le hi hk (Nat.le_refl _)
  have heq := hsuffix.eq_of_length rfl
  exact (List.cons.inj heq).1

theorem Spread.append (h : Spread (i :: site) first) (hrest : SpreadFrom site (i + 1) rest) :
    SpreadFrom site i (first ++ rest) := by
  constructor
  · intro p hp
    rcases List.mem_append.mp hp with hp | hp
    · exact ⟨i, Nat.le_refl i, h.below p hp⟩
    · obtain ⟨k, hk, hsite⟩ := hrest.behind p hp
      exact ⟨k, by omega, hsite⟩
  · rw [List.map_append, List.nodup_append]
    refine ⟨h.nodup, hrest.nodup, ?_⟩
    rintro _ hleft _ hright rfl
    obtain ⟨p, hp, rfl⟩ := List.mem_map.mp hleft
    obtain ⟨q, hq, hsite⟩ := List.mem_map.mp hright
    obtain ⟨k, hk, hbehind⟩ := hrest.behind q hq
    have heq := place_unique (h.below p hp) (hsite ▸ hbehind)
    omega

end

namespace Member

mutual

theorem partsIn_spread (scope : String) (around : List (String × Nat)) (site : List Nat) :
    (m : Member) → Spread site (m.partsIn scope around site)
  | .nested head members => by
    rw [partsIn]
    split
    · exact .none
    · exact (allPartsIn_spread scope _ site 0 members).cons rfl
  | .field _ => .none
  | .property _ => .none
  | .method _ => .none
  | .constructor _ => .none
  | .enumValue _ => .none

theorem allPartsIn_spread (scope : String) (around : List (String × Nat)) (site : List Nat) :
    (i : Nat) → (ms : List Member) → SpreadFrom site i (allPartsIn scope around site i ms)
  | _, [] => .none
  | i, m :: rest =>
    (partsIn_spread scope around (i :: site) m).append (allPartsIn_spread scope around site (i + 1) rest)

end

end Member

namespace Declaration

mutual

theorem partsIn_spread (outer : String) (site : List Nat) :
    (d : Declaration) → Spread site (d.partsIn outer site)
  | .scope _ members => (allPartsIn_spread _ site 0 members).inside
  | .type head members => Member.partsIn_spread outer [] site (.nested head members)

theorem allPartsIn_spread (outer : String) (site : List Nat) :
    (i : Nat) → (ds : List Declaration) → SpreadFrom site i (allPartsIn outer site i ds)
  | _, [] => .none
  | i, d :: rest =>
    (partsIn_spread outer (i :: site) d).append (allPartsIn_spread outer site (i + 1) rest)

end

end Declaration

theorem SourceUnit.parts_apart (u : SourceUnit) : u.parts.Pairwise fun p q => p.site ≠ q.site :=
  List.pairwise_map.mp (Declaration.allPartsIn_spread "" [] 0 u.members).nodup

/-- A declaration is known by its site. -/
theorem SourceUnit.part_unique {u : SourceUnit} {p q : TypePart} (hp : p ∈ u.parts) (hq : q ∈ u.parts)
    (h : p.site = q.site) : p = q :=
  List.inj_on_of_nodup_map (Declaration.allPartsIn_spread "" [] 0 u.members).nodup hp hq h

/-- Around a declaration that is inside of types stands another. -/
theorem SourceUnit.part_outer {u : SourceUnit} {p : TypePart} (hp : p ∈ u.parts) (h : p.around ≠ []) :
    ∃ outer ∈ u.parts, ∃ i, p.StandsAt i outer :=
  (Declaration.allPartsIn_outer "" [] 0 u.members p hp).resolve_left h

structure TypePart.StandsIn (e : Extent) (p : TypePart) : Prop where
  around : ∀ level ∈ p.around, e.hasName level.1
  name : e.hasName p.head.name
  parameters : ∀ q ∈ p.head.parameters, q.StandsIn e
  members : ∀ m ∈ p.members, m.StandsIn e

variable {e : Extent}

namespace Member

mutual

theorem partsIn_stand (scope : String) {around : List (String × Nat)}
    (haround : ∀ level ∈ around, e.hasName level.1) (site : List Nat) :
    (m : Member) → m.StandsIn e → ∀ p ∈ m.partsIn scope around site, p.StandsIn e
  | .nested head members, h => by
    rw [partsIn]
    split
    · exact nofun
    · next hempty =>
      have hname : e.hasName head.name := h.1.name (by simpa using hempty)
      have hinside : ∀ level ∈ around ++ [head.level], e.hasName level.1 :=
        List.forall_mem_append.mpr ⟨haround, List.forall_mem_singleton.mpr hname⟩
      intro p hp
      rcases List.mem_cons.mp hp with rfl | hp
      · exact ⟨haround, hname, h.1.parameters, allStandIn_iff.mp h.2⟩
      · exact allPartsIn_stand scope hinside site 0 members h.2 p hp
  | .field _, _ => nofun
  | .property _, _ => nofun
  | .method _, _ => nofun
  | .constructor _, _ => nofun
  | .enumValue _, _ => nofun

theorem allPartsIn_stand (scope : String) {around : List (String × Nat)}
    (haround : ∀ level ∈ around, e.hasName level.1) (site : List Nat) :
    (i : Nat) → (ms : List Member) → AllStandIn e ms →
      ∀ p ∈ allPartsIn scope around site i ms, p.StandsIn e
  | _, [], _ => nofun
  | i, m :: rest, h => by
    rw [allPartsIn]
    exact List.forall_mem_append.mpr ⟨partsIn_stand scope haround (i :: site) m h.1,
      allPartsIn_stand scope haround site (i + 1) rest h.2⟩

end

end Member

namespace Declaration

mutual

theorem partsIn_stand (outer : String) (site : List Nat) :
    (d : Declaration) → d.StandsIn e → ∀ p ∈ d.partsIn outer site, p.StandsIn e
  | .scope head members, h => by
    rw [partsIn]
    exact allPartsIn_stand _ site 0 members h.2
  | .type head members, h => by
    rw [partsIn]
    exact Member.partsIn_stand outer (by simp) site _ h

theorem allPartsIn_stand (outer : String) (site : List Nat) :
    (i : Nat) → (ds : List Declaration) → AllStandIn e ds →
      ∀ p ∈ allPartsIn outer site i ds, p.StandsIn e
  | _, [], _ => nofun
  | i, d :: rest, h => by
    rw [allPartsIn]
    exact List.forall_mem_append.mpr ⟨partsIn_stand outer (i :: site) d h.1,
      allPartsIn_stand outer site (i + 1) rest h.2⟩

end

end Declaration

theorem SourceUnit.parts_stand {u : SourceUnit} (h : u.StandsIn e) : ∀ p ∈ u.parts, p.StandsIn e :=
  Declaration.allPartsIn_stand "" [] 0 u.members (Declaration.allStandIn_iff.mpr h.members)

/-- A dotted name of names is taken apart again. -/
theorem TypePart.partsOf_dotted {path : List (String × Nat)} (h : ∀ level ∈ path, IsName level.1) :
    partsOf (dotted path) = path.map (·.1) := by
  have hnames : ∀ part ∈ path.map (·.1), IsName part := by
    intro part hpart
    obtain ⟨level, hlevel, rfl⟩ := List.mem_map.mp hpart
    exact h level hlevel
  rw [dotted, partsOf_foldl hnames, partsOf_empty, List.nil_append]

/-- Declarations of one type are inside of types with the same names, and have the same name. -/
theorem TypePart.names_eq {p q : TypePart} (he : ∀ name, e.hasName name → IsName name)
    (hp : p.StandsIn e) (hq : q.StandsIn e) (h : p.identity = q.identity) :
    p.around.map (·.1) = q.around.map (·.1) ∧ p.head.level = q.head.level := by
  simp only [identity, Prod.mk.injEq] at h
  obtain ⟨-, hname, harity⟩ := h
  have hnamed {r : TypePart} (hr : r.StandsIn e) :
      ∀ level ∈ r.around ++ [r.head.level], IsName level.1 :=
    List.forall_mem_append.mpr ⟨fun level hlevel => he _ (hr.around level hlevel),
      List.forall_mem_singleton.mpr (he _ hr.name)⟩
  have hparts := congrArg partsOf hname
  rw [name, name, partsOf_dotted (hnamed hp), partsOf_dotted (hnamed hq), List.map_append,
    List.map_append] at hparts
  obtain ⟨haround, hlast⟩ := List.append_inj' hparts rfl
  exact ⟨haround, Prod.ext (List.cons.inj hlast).1 harity⟩

def TypePart.declared (p : TypePart) : Declared where
  container := (p.around.map (·.1)).foldl joinNames p.scope
  name := p.head.name
  arity := p.head.typeParameters.length
  isPartial := p.head.isPartial
  isOutermost := p.around.isEmpty
  line := p.head.line

namespace Binding

theorem declaredMembers_eq {scope : String} {around : List (String × Nat)} (h : around ≠ [])
    (site : List Nat) (i : Nat) (container : String) (ms : List Member)
    (hcontainer : container = (around.map (·.1)).foldl joinNames scope) :
    declaredMembers container ms =
      (Member.allPartsIn scope around site i ms).map TypePart.declared := by
  fun_induction declaredMembers container ms generalizing around site i with
  | case1 => rfl
  | case2 container head members rest ihInside ih =>
    rw [Member.allPartsIn, Member.partsIn, List.map_append, ← ih h site (i + 1) hcontainer]
    congr 1
    split
    · rfl
    · have hinside : joinNames container head.name =
          ((around ++ [head.level]).map (·.1)).foldl joinNames scope := by
        simp [hcontainer, TypeHead.level]
      rw [List.map_cons, ← ihInside (by simp) (i :: site) 0 hinside]
      simp [TypePart.declared, hcontainer, h]
  | case3 container m rest hm ih =>
    have hnone : m.partsIn scope around (i :: site) = [] := by
      cases m with
      | nested head members => exact absurd rfl (hm head members)
      | _ => rfl
    rw [Member.allPartsIn, hnone, List.nil_append]
    exact ih h site (i + 1) hcontainer

theorem declaredType_eq (scope : String) (head : TypeHead) (members : List Member) (site : List Nat) :
    declaredType scope head members =
      ((Member.nested head members).partsIn scope [] site).map TypePart.declared := by
  rw [declaredType, Member.partsIn]
  split
  · rfl
  · have hinside := declaredMembers_eq (List.cons_ne_nil head.level []) site 0
      (joinNames scope head.name) members rfl
    rw [List.map_cons, List.nil_append, hinside]
    rfl

theorem partsOf_joinText (outer : String) {text : String} (h : text ≠ "") :
    partsOf (joinNames outer text) = partsOf outer ++ Text.dottedParts text := by
  by_cases houter : outer = ""
  · subst houter
    rw [joinNames_empty, partsOf_of_ne h, partsOf_empty, List.nil_append]
  · rw [partsOf_of_ne (joinNames_ne_empty houter text), joinNames_of_ne houter, Text.dottedParts_append,
      partsOf_of_ne houter]

theorem scopeName_eq (outer : String) {name : DottedName} (h : ∀ part ∈ name.parts, IsName part) :
    scopeName outer name = name.parts.foldl joinNames outer := by
  rw [scopeName]
  split
  · next hempty => rw [List.isEmpty_iff.mp hempty, List.foldl_nil]
  · next hempty =>
    have hne : name.parts ≠ [] := by simpa using hempty
    have hparts : Text.dottedParts name.text = name.parts :=
      Text.dottedParts_intercalate hne fun part hpart => (h part hpart).point_notMem
    have htext : name.text ≠ "" := by
      intro hnone
      rw [hnone] at hparts
      have hblank : "" ∈ name.parts := hparts ▸ by decide
      exact (h "" hblank).ne_empty rfl
    apply partsOf_inj
    rw [partsOf_foldl h, partsOf_joinText outer htext, hparts]

theorem declaredTypes_eq (he : ∀ name, e.hasName name → IsName name) (outer : String) (site : List Nat)
    (i : Nat) (ds : List Declaration) (h : Declaration.AllStandIn e ds) :
    declaredTypes outer ds = (Declaration.allPartsIn outer site i ds).map TypePart.declared := by
  fun_induction declaredTypes outer ds generalizing site i with
  | case1 => rfl
  | case2 outer head members rest ihInside ih =>
    have hname := scopeName_eq outer fun part hpart => he part (h.1.1.name.parts part hpart)
    rw [Declaration.allPartsIn, Declaration.partsIn, List.map_append, ← ih site (i + 1) h.2, ← hname,
      ← ihInside (i :: site) 0 h.1.2]
  | case3 outer head members rest ih =>
    rw [Declaration.allPartsIn, Declaration.partsIn, List.map_append, ← ih site (i + 1) h.2,
      declaredType_eq]

end Binding

end DataClasses
