import DataClasses.Proofs.Binding.Frame
import DataClasses.Proofs.Binding.Resolved
import DataClasses.Proofs.Reference.Registered

/-!
# What matters of references

A source is bound by what its references export, and by no order, repetition or division among them.
What is exported under a first part that no word of the source can lead to does not matter at all.
-/

set_option autoImplicit false

namespace DataClasses

open Binding
open Identifier (IsName)

namespace Assembly

def exportedNamespaces (references : List Assembly) : List String :=
  references.flatMap fun a => a.namespaces.map (·.name)

def exportedTypes (references : List Assembly) : List ExportedType := references.flatMap (·.exports)

structure SameExports (first second : List Assembly) : Prop where
  namespaces : ∀ name, name ∈ exportedNamespaces first ↔ name ∈ exportedNamespaces second
  types : ∀ t, t ∈ exportedTypes first ↔ t ∈ exportedTypes second

variable {references : List Assembly}

theorem mem_namespaces {full : String} :
    full ∈ (Symbols.ofAssemblies references).namespaces ↔
      ∃ name ∈ exportedNamespaces references, full ∈ Symbols.ofNamespace name := by
  simp only [Symbols.ofAssemblies, Symbols.ofAssembly, exportedNamespaces, List.mem_flatMap, List.mem_map]
  constructor
  · rintro ⟨a, ha, n, hn, hfull⟩
    exact ⟨n.name, ⟨a, ha, n, hn, rfl⟩, hfull⟩
  · rintro ⟨name, ⟨a, ha, n, hn, rfl⟩, hfull⟩
    exact ⟨a, ha, n, hn, hfull⟩

theorem mem_types {full : String} {arity : Nat} :
    (full, arity) ∈ (Symbols.ofAssemblies references).types ↔
      ∃ t ∈ exportedTypes references, joinNames t.scope t.name = full ∧ t.arity = arity := by
  simp only [Symbols.ofAssemblies, Symbols.ofAssembly, exportedTypes, List.mem_flatMap, List.mem_map,
    Prod.mk.injEq]
  constructor
  · rintro ⟨a, ha, t, ht, hname⟩
    exact ⟨t, ⟨a, ha, ht⟩, hname⟩
  · rintro ⟨t, ⟨a, ha, ht⟩, hname⟩
    exact ⟨a, ha, t, ht, hname⟩

end Assembly

open Assembly (SameExports exportedNamespaces exportedTypes mem_namespaces mem_types)

/-- References that offer the same names within reach of a source give it the same reports, in
order, and the same table. -/
theorem SourceUnit.bind_agree {u : SourceUnit} {reach : String → Prop} (hwords : Closed reach u.words)
    {first second : List Assembly}
    (hagree : (Symbols.ofAssemblies first).AgreeOn reach (Symbols.ofAssemblies second)) :
    u.bind first = u.bind second := by
  have hall : (u.symbols first).AgreeOn reach (u.symbols second) := by
    constructor
    · intro full hfull
      rw [SourceUnit.symbols, SourceUnit.symbols, Symbols.mem_namespaces_append,
        Symbols.mem_namespaces_append, hagree.namespaces full hfull]
    · intro full hfull arity
      rw [SourceUnit.symbols, SourceUnit.symbols, Symbols.mem_types_append, Symbols.mem_types_append,
        hagree.types full hfull arity]
  rw [SourceUnit.bind, SourceUnit.bind, bindUnit_agree hall hwords]

theorem Assembly.SameExports.agree {first second : List Assembly} (h : SameExports first second)
    (reach : String → Prop) :
    (Symbols.ofAssemblies first).AgreeOn reach (Symbols.ofAssemblies second) := by
  constructor
  · intro full _
    simp only [mem_namespaces, h.namespaces]
  · intro full _ arity
    simp only [mem_types, h.types]

/-- References that export the same give every source the same reports, in order, and the same table. -/
theorem SourceUnit.bind_of_sameExports (u : SourceUnit) {first second : List Assembly}
    (h : SameExports first second) : u.bind first = u.bind second := by
  have hwords : Closed (fun _ => True) u.words :=
    ⟨trivial, fun _ _ _ _ => trivial, fun _ _ _ _ => trivial⟩
  exact SourceUnit.bind_agree hwords (h.agree _)

def SourceUnit.purseUnit : SourceUnit where
  imports := []
  members :=
    [.type (plainHead [] "Purse" [] 1)
      [fieldOf (.named [("Acme", []), ("Money", [])] false 1) "amount" 1]]

def Assembly.whole : List Assembly :=
  [⟨"Acme", "2.0.0.0", [⟨"Acme", ["Money", "Pair`2"]⟩, ⟨"Acme.Tags", []⟩], "Whole.toml"⟩]

def Assembly.divided : List Assembly :=
  [⟨"Acme.Tags", "1.0.0.0", [⟨"Acme.Tags", []⟩, ⟨"Acme", ["Pair`2"]⟩], "Tags.toml"⟩, Catalog.acme,
    Catalog.acme]

theorem Assembly.divided_sameExports : SameExports whole divided := by
  have hnamespaces : exportedNamespaces whole ⊆ exportedNamespaces divided ∧
      exportedNamespaces divided ⊆ exportedNamespaces whole := by decide
  have htypes : exportedTypes whole ⊆ exportedTypes divided ∧
      exportedTypes divided ⊆ exportedTypes whole := by decide +kernel
  exact ⟨fun _ => ⟨fun h => hnamespaces.1 h, fun h => hnamespaces.2 h⟩,
    fun _ => ⟨fun h => htypes.1 h, fun h => htypes.2 h⟩⟩

theorem SourceUnit.purse_bind_divided :
    SameExports Assembly.whole Assembly.divided ∧
      purseUnit.bind Assembly.whole = purseUnit.bind Assembly.divided :=
  ⟨Assembly.divided_sameExports, purseUnit.bind_of_sameExports Assembly.divided_sameExports⟩

def Outside (root full : String) : Prop := (partsOf full).head? ≠ some root

theorem outside_joinNames {root w : String} (hpoint : '.' ∉ w.toList) (hne : w ≠ root) {outer : String}
    (houter : Outside root outer) : Outside root (joinNames outer w) := by
  by_cases hempty : outer = ""
  · subst hempty
    rw [joinNames_empty, Outside]
    by_cases hw : w = ""
    · subst hw
      exact nofun
    · rw [partsOf_of_ne hw, Text.dottedParts_of_notMem hpoint]
      simpa using hne
  · rw [Outside, head_joinNames hempty]
    exact houter

/-- A name that a source can look up: one of its words, or one with the suffix of attributes. -/
def SourceUnit.Mentions (u : SourceUnit) (name : String) : Prop :=
  ∃ w ∈ u.words, w = name ∨ w ++ "Attribute" = name

theorem SourceUnit.closed_outside {u : SourceUnit} {e : Extent}
    (he : ∀ name, e.hasName name → IsName name)
    (hu : u.StandsIn e) {root : String} (hroot : ¬u.Mentions root) : Closed (Outside root) u.words := by
  have hpoint : ∀ w ∈ u.words, '.' ∉ w.toList := by
    intro w hw
    by_cases hempty : w = ""
    · subst hempty
      exact List.not_mem_nil
    · exact (he w (SourceUnit.words_stand hu w hw hempty)).point_notMem
  refine ⟨by simp [Outside, partsOf_empty], ?_, ?_⟩
  · intro w hw outer houter
    exact outside_joinNames (hpoint w hw) (fun heq => hroot ⟨w, hw, .inl heq⟩) houter
  · intro w hw outer houter
    apply outside_joinNames _ (fun heq => hroot ⟨w, hw, .inr heq⟩) houter
    rw [String.toList_append, List.mem_append, not_or]
    exact ⟨hpoint w hw, by decide⟩

namespace Assembly

variable {a : Assembly} {root : String}

theorem namespace_named (haccepted : a.fault? = none) {n : ExportedNamespace} (hn : n ∈ a.namespaces) :
    ∀ part ∈ Text.dottedParts n.name, IsName part := by
  have hdotted := ((fault?_eq_none.mp haccepted).2.2 n hn).1
  rw [isDottedName, List.all_eq_true] at hdotted
  exact hdotted

theorem root_named (haccepted : a.fault? = none) {n : ExportedNamespace} (hn : n ∈ a.namespaces)
    (hroot : (Text.dottedParts n.name).head? = some root) : IsName root :=
  namespace_named haccepted hn root (List.mem_of_head? hroot)

/-- All that is exported is beneath the first part that the namespaces have. -/
theorem exports_beneath (haccepted : a.fault? = none)
    (hroot : ∀ n ∈ a.namespaces, (Text.dottedParts n.name).head? = some root) :
    (∀ full ∈ (Symbols.ofAssembly a).namespaces, ¬Outside root full) ∧
      ∀ full arity, (full, arity) ∈ (Symbols.ofAssembly a).types → ¬Outside root full := by
  constructor
  · intro full hfull
    obtain ⟨n, hn, hfull⟩ := List.mem_flatMap.mp hfull
    rw [Outside, not_not]
    exact head_of_ofNamespace (root_named haccepted hn (hroot n hn)) (hroot n hn) hfull
  · intro full arity hfull
    obtain ⟨t, ht, hname⟩ := List.mem_map.mp hfull
    obtain ⟨n, hn, ht⟩ := List.mem_flatMap.mp ht
    obtain ⟨raw, -, rfl⟩ := List.mem_map.mp ht
    obtain ⟨rfl, -⟩ := Prod.mk.inj hname
    have hne : n.name ≠ "" := by
      intro hempty
      have hpart := namespace_named haccepted hn "" (by rw [hempty]; exact List.mem_cons_self)
      exact hpart.ne_empty rfl
    rw [Outside, not_not, head_joinNames hne, partsOf_of_ne hne]
    exact hroot n hn

end Assembly

/-- Further exports that are out of reach are not missed. -/
theorem Assembly.agree_of_beneath {reach : String → Prop} {further : Assembly}
    (hnamespaces : ∀ full ∈ (Symbols.ofAssembly further).namespaces, ¬reach full)
    (htypes : ∀ full arity, (full, arity) ∈ (Symbols.ofAssembly further).types → ¬reach full)
    (before after : List Assembly) :
    (Symbols.ofAssemblies (before ++ further :: after)).AgreeOn reach
      (Symbols.ofAssemblies (before ++ after)) := by
  constructor
  · intro full hfull
    have hnot : full ∉ (Symbols.ofAssembly further).namespaces := fun h => hnamespaces full h hfull
    simp [Symbols.ofAssemblies, hnot]
  · intro full hfull arity
    have hnot : (full, arity) ∉ (Symbols.ofAssembly further).types := fun h => htypes full arity h hfull
    simp [Symbols.ofAssemblies, hnot]

/-- A further reference with all of its namespaces beneath a first part that the source does not mention
changes nothing, wherever it is added and whatever the other references are. -/
theorem SourceUnit.bind_unrelated (source : String) (before after : List Assembly) (further : Assembly)
    (haccepted : further.fault? = none) (root : String)
    (hroot : ∀ n ∈ further.namespaces, (Text.dottedParts n.name).head? = some root)
    (hmentions : ¬(SourceUnit.ofSource source).1.Mentions root) :
    (SourceUnit.ofSource source).1.bind (before ++ further :: after) =
      (SourceUnit.ofSource source).1.bind (before ++ after) := by
  obtain ⟨hstands, -⟩ := SourceUnit.ofSource_stands source
  obtain ⟨hnamespaces, htypes⟩ := Assembly.exports_beneath haccepted hroot
  apply SourceUnit.bind_agree (SourceUnit.closed_outside (fun _ hname => hname) hstands hmentions)
  exact Assembly.agree_of_beneath hnamespaces htypes before after

def SourceUnit.purseSource : String := "class Purse \x7b Acme.Money amount; \x7d\n"

theorem SourceUnit.ofSource_purse : SourceUnit.ofSource purseSource = (purseUnit, []) := by decide +kernel

def Assembly.shop : Assembly :=
  ⟨"Shop", "1.0.0.0", [⟨"Shop", ["Money", "Purse"]⟩, ⟨"Shop.Acme", ["Money"]⟩], "Shop.toml"⟩

theorem SourceUnit.purse_bind_shop :
    Assembly.shop.fault? = none ∧
      (∀ n ∈ Assembly.shop.namespaces, (Text.dottedParts n.name).head? = some "Shop") ∧
      ¬(SourceUnit.ofSource purseSource).1.Mentions "Shop" ∧
      (SourceUnit.ofSource purseSource).1.bind (Assembly.whole ++ Assembly.shop :: Assembly.divided) =
        (SourceUnit.ofSource purseSource).1.bind (Assembly.whole ++ Assembly.divided) := by
  have haccepted : Assembly.shop.fault? = none := by decide +kernel
  have hroot : ∀ n ∈ Assembly.shop.namespaces, (Text.dottedParts n.name).head? = some "Shop" := by decide
  have hmentions : ¬(SourceUnit.ofSource purseSource).1.Mentions "Shop" := by
    rw [ofSource_purse]
    change ¬∃ w ∈ ["Purse", "Acme", "Money"], w = "Shop" ∨ w ++ "Attribute" = "Shop"
    decide
  exact ⟨haccepted, hroot, hmentions,
    bind_unrelated purseSource Assembly.whole Assembly.divided Assembly.shop haccepted "Shop" hroot
      hmentions⟩

end DataClasses
