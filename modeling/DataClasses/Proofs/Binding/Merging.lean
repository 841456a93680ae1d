import DataClasses.Proofs.Binding.Clashes
import DataClasses.Proofs.Declaration.Equality
import DataClasses.Proofs.Token.Lines

/-!
# Declarations that make up one type

The declarations that make up a type of the table need not be parts of one type: where they are inside
of different declarations, nothing compares them.
-/

set_option autoImplicit false

namespace DataClasses

open Binding
open Identifier (IsName)

/-- Two declarations are parts of one type: both are partial, and inside of the same types. -/
def TypePart.Joins (p q : TypePart) : Prop :=
  p.head.isPartial = true ∧ q.head.isPartial = true ∧ p.around = q.around

instance (p q : TypePart) : Decidable (p.Joins q) :=
  inferInstanceAs (Decidable (_ ∧ _ ∧ _))

structure SourceUnit.Merges (u : SourceUnit) (references : List Assembly) (p q : TypePart) : Prop where
  left : p ∈ u.parts
  right : q ∈ u.parts
  apart : p.site ≠ q.site
  type : ∃ t ∈ (u.bind references).table.types, p.identity = t.identity ∧ q.identity = t.identity

namespace SourceUnit

variable {u : SourceUnit} {references : List Assembly}

/-- Every declaration goes into a type of the table. -/
theorem merges_iff {p q : TypePart} : u.Merges references p q ↔
    p ∈ u.parts ∧ q ∈ u.parts ∧ p.site ≠ q.site ∧ p.identity = q.identity := by
  constructor
  · rintro ⟨hp, hq, hsite, t, -, hpt, hqt⟩
    exact ⟨hp, hq, hsite, hpt.trans hqt.symm⟩
  · rintro ⟨hp, hq, hsite, heq⟩
    have hmem : p.identity ∈ (u.bind references).table.types.map (·.identity) := by
      rw [u.table_identities references, List.mem_eraseDups]
      exact List.mem_map_of_mem hp
    obtain ⟨t, ht, hidentity⟩ := List.mem_map.mp hmem
    exact ⟨hp, hq, hsite, t, ht, hidentity.symm, heq.symm.trans hidentity.symm⟩

theorem joins_of_same_outer (h : ∀ d ∈ (u.bind references).diagnostics, d.severity ≠ .error)
    {e : Extent} (he : ∀ name, e.hasName name → IsName name) (hu : u.StandsIn e) {p q : TypePart}
    (hp : p ∈ u.parts) (hq : q ∈ u.parts) (hsite : p.site ≠ q.site) (heq : p.identity = q.identity)
    (houter : p.around = [] ∨ p.site.tail = q.site.tail) : p.Joins q := by
  have hstands := u.parts_stand hu p hp
  obtain ⟨hnames, hlevel⟩ := TypePart.names_eq he hstands (u.parts_stand hu q hq) heq
  have hempty : p.around = [] ↔ q.around = [] := by
    rw [← List.map_eq_nil_iff (f := Prod.fst), hnames, List.map_eq_nil_iff]
  by_cases hnone : p.around = []
  · have hboth := u.outermost_partial h he hu hp hq hsite hnone (hempty.mp hnone) heq
    exact ⟨hboth.1, hboth.2, hnone.trans (hempty.mp hnone).symm⟩
  · have hinside : q.around ≠ [] := hnone ∘ hempty.mpr
    obtain ⟨outer, houterp, i, hpi⟩ := u.part_outer hp hnone
    obtain ⟨outer', houterq, k, hqk⟩ := u.part_outer hq hinside
    have htail := houter.resolve_left hnone
    rw [hpi.site, hqk.site, List.tail_cons, List.tail_cons] at htail
    obtain rfl := u.part_unique houterp houterq htail
    have hik : i ≠ k := by
      rintro rfl
      exact hsite (hpi.site.trans hqk.site.symm)
    have hboth := u.members_partial h houterp hpi hqk hik (he _ hstands.name).ne_empty
      (congrArg Prod.fst hlevel)
    exact ⟨hboth.1, hboth.2, hpi.around.trans hqk.around.symm⟩

/-- Where no error is reported, the declarations that make up a type are parts of it just if this holds
of those inside of different declarations. -/
theorem merged_iff (source : String) (references : List Assembly)
    (h : ∀ d ∈ ((SourceUnit.ofSource source).1.bind references).diagnostics, d.severity ≠ .error) :
    (∀ p q, (SourceUnit.ofSource source).1.Merges references p q → p.Joins q) ↔
      ∀ p ∈ (SourceUnit.ofSource source).1.parts, ∀ q ∈ (SourceUnit.ofSource source).1.parts,
        p.identity = q.identity → p.around ≠ [] → p.site.tail ≠ q.site.tail → p.Joins q := by
  obtain ⟨hu, -⟩ := SourceUnit.ofSource_stands source
  constructor
  · intro hmerged p hp q hq heq _ htail
    have hsite : p.site ≠ q.site := fun hsame => htail (congrArg List.tail hsame)
    exact hmerged p q (merges_iff.mpr ⟨hp, hq, hsite, heq⟩)
  · intro hapart p q hmerges
    obtain ⟨hp, hq, hsite, heq⟩ := merges_iff.mp hmerges
    by_cases houter : p.around = [] ∨ p.site.tail = q.site.tail
    · exact joins_of_same_outer h (fun _ hname => hname) hu hp hq hsite heq houter
    · rw [not_or] at houter
      exact hapart p hp q hq heq houter.1 houter.2

def plainHead (modifiers : List String) (name : String) (typeParameters : List String) (line : Nat) :
    TypeHead where
  kind := .plainClass
  name := name
  typeParameters := typeParameters
  modifiers := modifiers
  attributes := []
  bases := []
  parameters := []
  line := line

def plainField (name : String) (line : Nat) : Member :=
  .field { attributes := [], modifiers := [], type := .predefined "int" line, names := [name], line }

def partedUnit : SourceUnit where
  imports := []
  members :=
    [.type (plainHead ["partial"] "A" [] 1) [.nested (plainHead ["partial"] "X" [] 1) [plainField "a" 1]],
      .type (plainHead ["partial"] "A" [] 2) [.nested (plainHead ["partial"] "X" [] 2) [plainField "b" 2]]]

def partedSource : String :=
  "partial class A \x7b partial class X \x7b int a; \x7d \x7d\n" ++
    "partial class A \x7b partial class X \x7b int b; \x7d \x7d\n"

theorem ofSource_parted : SourceUnit.ofSource partedSource = (partedUnit, []) := by decide +kernel

theorem parted_silent :
    ∀ d ∈ ((SourceUnit.ofSource partedSource).1.bind []).diagnostics, d.severity ≠ .error := by
  have hnone : (partedUnit.bind []).diagnostics = [] := by
    -- The names known and the binding recurse into what is inside of a declaration, which does not
    -- reduce: their equations open the unit first.
    simp only [partedUnit, plainField, bind, symbols, Symbols.ofUnit, bindUnit, bindDeclarations,
      declaredScopes, declaredTypes, declaredType, declaredMembers]
    rfl
  rw [ofSource_parted, hnone]
  exact List.forall_mem_nil _

/-- Both classes are put together from their parts. -/
theorem parted_merged :
    (∀ d ∈ ((SourceUnit.ofSource partedSource).1.bind []).diagnostics, d.severity ≠ .error) ∧
      ∀ p q, (SourceUnit.ofSource partedSource).1.Merges [] p q → p.Joins q := by
  refine ⟨parted_silent, (merged_iff partedSource [] parted_silent).mpr ?_⟩
  rw [ofSource_parted]
  decide +kernel

def repeatedUnit : SourceUnit where
  imports := []
  members :=
    [.type (plainHead ["partial"] "A" [] 1) [.nested (plainHead [] "X" [] 1) []],
      .type (plainHead ["partial"] "A" [] 2) [.nested (plainHead [] "X" [] 2) []]]

def repeatedSource : String :=
  "partial class A \x7b class X \x7b \x7d \x7d\npartial class A \x7b class X \x7b \x7d \x7d\n"

theorem ofSource_repeated : SourceUnit.ofSource repeatedSource = (repeatedUnit, []) := by decide +kernel

theorem bind_repeated (references : List Assembly) : (repeatedUnit.bind references).diagnostics = [] := by
  simp only [repeatedUnit, bind, symbols, Symbols.ofUnit, bindUnit, bindDeclarations,
    declaredScopes, declaredTypes, declaredType, declaredMembers]
  rfl

def genericUnit : SourceUnit where
  imports := []
  members :=
    [.type (plainHead [] "A" [] 1) [.nested (plainHead [] "X" [] 1) []],
      .type (plainHead [] "A" ["T"] 2) [.nested (plainHead [] "X" [] 2) []]]

def genericSource : String :=
  "class A \x7b class X \x7b \x7d \x7d\nclass A<T> \x7b class X \x7b \x7d \x7d\n"

theorem ofSource_generic : SourceUnit.ofSource genericSource = (genericUnit, []) := by decide +kernel

theorem bind_generic (references : List Assembly) : (genericUnit.bind references).diagnostics = [] := by
  simp only [genericUnit, bind, symbols, Symbols.ofUnit, bindUnit, bindDeclarations,
    declaredScopes, declaredTypes, declaredType, declaredMembers]
  rfl

/-- Nothing is reported of classes that are not partial in two parts of a class, nor of classes
inside of different classes, and each pair becomes one type. -/
theorem repeated_and_generic_merged :
    (SourceUnit.ofSource repeatedSource).2 = [] ∧
      ((SourceUnit.ofSource repeatedSource).1.bind []).diagnostics = [] ∧
      (∃ p q, (SourceUnit.ofSource repeatedSource).1.Merges [] p q ∧
        p.head.isPartial = false ∧ q.head.isPartial = false) ∧
      (SourceUnit.ofSource genericSource).2 = [] ∧
      ((SourceUnit.ofSource genericSource).1.bind []).diagnostics = [] ∧
      ∃ p q, (SourceUnit.ofSource genericSource).1.Merges [] p q ∧
        p.around = [("A", 0)] ∧ q.around = [("A", 1)] := by
  rw [ofSource_repeated, ofSource_generic]
  have hrepeated : ∃ p ∈ repeatedUnit.parts, ∃ q ∈ repeatedUnit.parts,
      (p.site ≠ q.site ∧ p.identity = q.identity) ∧
        p.head.isPartial = false ∧ q.head.isPartial = false := by
    decide +kernel
  have hgeneric : ∃ p ∈ genericUnit.parts, ∃ q ∈ genericUnit.parts,
      (p.site ≠ q.site ∧ p.identity = q.identity) ∧ p.around = [("A", 0)] ∧
        q.around = [("A", 1)] := by
    decide +kernel
  obtain ⟨p, hp, q, hq, hmerges, hpartial⟩ := hrepeated
  obtain ⟨p', hp', q', hq', hmerges', haround⟩ := hgeneric
  exact ⟨rfl, bind_repeated [], ⟨p, q, merges_iff.mpr ⟨hp, hq, hmerges⟩, hpartial⟩,
    rfl, bind_generic [], p', q', merges_iff.mpr ⟨hp', hq', hmerges'⟩, haround⟩

end SourceUnit

end DataClasses
