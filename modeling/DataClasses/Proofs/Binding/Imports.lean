import DataClasses.Proofs.Binding.Reported
import DataClasses.Proofs.Binding.Symbols

/-!
# The imports of generated source

Every namespace that generated source imports is there, and no type has its name or that of a
namespace around it. So the imports are bound without a report, and the scope outside of all
namespaces imports just these.
-/

set_option autoImplicit false

namespace DataClasses.Binding

open Identifier (IsName)
open Assembly (standard innerParts homes)
open ClassTree
open Symbols (beginnings)

/-- A namespace whose parts are identifiers, and which neither lies below a root of the libraries
nor has a part that is called like a type generated source refers to. -/
structure Apart (container : String) : Prop where
  named : ∀ part ∈ Text.dottedParts container, IsName part
  root : ¬Rooted container
  home : ∀ h ∈ homes, h.1 ∉ Text.dottedParts container

theorem Apart.ne_empty {container : String} (h : Apart container) : container ≠ "" := by
  rintro rfl
  have hparts : Text.dottedParts "" = [""] := by decide
  exact (h.named "" (by simp [hparts])).ne_empty rfl

theorem rooted_joinNames {outer : String} (h : outer ≠ "") (name : String) :
    Rooted (joinNames outer name) ↔ Rooted outer := by
  rw [Rooted, Rooted, head_joinNames h]

def symbolsOf (tree : ClassTree) (settings : Settings) : Symbols :=
  (librarySymbols settings.runtime settings.library).append (ownSymbols tree settings)

theorem lookup_namespaces {symbols : Symbols} {outer : String} {parts : List String}
    (h : ∀ y ∈ beginnings outer parts, symbols.isNamespace y = true ∧ symbols.hasType y 0 = false) :
    (parts.map fun part => (part, 0)).foldlM
        (fun outer part => lookupInside symbols outer part.1 part.2) (Meaning.scope outer) =
      .ok (.scope (parts.foldl joinNames outer)) := by
  induction parts generalizing outer with
  | nil => rfl
  | cons part parts ih =>
    obtain ⟨hnamespace, htype⟩ := h (joinNames outer part) (by simp [beginnings])
    have hinside : lookupInside symbols (.scope outer) part 0 = .ok (.scope (joinNames outer part)) := by
      rw [Symbols.hasType] at htype
      rw [lookupInside]
      cases hprobe : symbols.probe (joinNames outer part) 0 with
      | found => simp [hprobe] at htype
      | otherArity least => simp [hnamespace]
      | missing => simp [hnamespace]
    rw [List.map_cons, List.foldlM_cons, hinside]
    exact ih fun y hy => h y (by simp [beginnings, hy])

structure Placed (tree : ClassTree) (settings : Settings) : Prop where
  apart : Apart settings.container
  named : ∀ c ∈ tree.classes, IsName c.name

structure Bindable (tree : ClassTree) (settings : Settings) : Prop extends Placed tree settings where
  plain : ∀ c ∈ tree.classes, ∀ p ∈ c.properties, IsPlain settings p

section

variable {tree : ClassTree} {settings : Settings} {name : String} {arity : Nat}

theorem hasType_rooted (hb : Placed tree settings) (h : Rooted name) :
    (symbolsOf tree settings).hasType name arity = true ↔
      (name, arity) ∈ (librarySymbols settings.runtime settings.library).types := by
  rw [Symbols.hasType_iff, symbolsOf, Symbols.mem_types_append]
  constructor
  · rintro (hlibrary | hown)
    · exact hlibrary
    · exact absurd ((rooted_of_own_type hb.apart.ne_empty hb.named hown).mp h) hb.apart.root
  · exact .inl

theorem hasType_not_rooted (hb : Bindable tree settings) (h : ¬Rooted name) :
    (symbolsOf tree settings).hasType name arity = true ↔
      arity = 0 ∧ ∃ c ∈ tree.classes, joinNames settings.container c.name = name := by
  rw [Symbols.hasType_iff, symbolsOf, Symbols.mem_types_append, own_types hb.named hb.plain]
  constructor
  · rintro (hlibrary | hown)
    · exact absurd (rooted_of_library_type hlibrary) h
    · obtain ⟨c, hc, heq⟩ := List.mem_map.mp hown
      rw [Prod.mk.injEq] at heq
      exact ⟨heq.2.symm, c, hc, heq.1⟩
  · rintro ⟨rfl, c, hc, rfl⟩
    exact .inr (List.mem_map_of_mem hc)

theorem isNamespace_not_rooted (h : ¬Rooted name)
    (hname : (symbolsOf tree settings).isNamespace name = true) :
    name ∈ Symbols.ofNamespace settings.container := by
  rw [Symbols.isNamespace_iff, symbolsOf, Symbols.mem_namespaces_append] at hname
  rcases hname with hlibrary | hown
  · exact absurd (library_namespace hlibrary) h
  · exact own_namespaces hown

theorem exported_import (settings : Settings) :
    ∀ name ∈ importNames settings,
      ∃ a ∈ standard settings.runtime settings.library, ∃ n ∈ a.namespaces, n.name = name := by
  have hbase : ∀ name ∈ baseImports,
      ∃ a ∈ standard settings.runtime settings.library, ∃ n ∈ a.namespaces, n.name = name := by
    intro name hname
    simp only [baseImports, List.mem_cons, List.not_mem_nil, or_false] at hname
    rcases hname with rfl | rfl | rfl | rfl | rfl
    · exact ⟨.systemRuntime, by simp [standard], by simp [Assembly.systemRuntime]⟩
    · exact ⟨.systemRuntime, by simp [standard], by simp [Assembly.systemRuntime]⟩
    · exact ⟨.systemRuntime, by simp [standard], by simp [Assembly.systemRuntime]⟩
    · exact ⟨.systemRuntime, by simp [standard], by simp [Assembly.systemRuntime]⟩
    · exact ⟨.systemLinq, by simp [standard], by simp [Assembly.systemLinq]⟩
  intro name hname
  rcases List.mem_append.mp hname with hname | hname
  · exact hbase name hname
  · refine ⟨Assembly.ofLibrary settings.library, by simp [standard], ?_⟩
    cases hlibrary : settings.library with
    | newtonsoft =>
      simp only [hlibrary, JsonLibrary.namespaces, List.mem_cons, List.not_mem_nil, or_false] at hname
      rcases hname with rfl | rfl <;> simp [Assembly.ofLibrary, Assembly.newtonsoftJson]
    | systemText =>
      simp only [hlibrary, JsonLibrary.namespaces, List.mem_cons, List.not_mem_nil, or_false] at hname
      rcases hname with rfl | rfl <;> simp [Assembly.ofLibrary, Assembly.systemTextJson]

theorem import_innerParts (settings : Settings) :
    ∀ name ∈ importNames settings, ∀ part ∈ (Text.dottedParts name).tail, part ∈ innerParts := by
  rw [importNames]
  cases settings.library <;> decide +kernel

theorem import_rooted (hname : name ∈ importNames settings) : Rooted name := by
  obtain ⟨a, ha, n, hn, rfl⟩ := exported_import settings name hname
  exact rooted_of_tidy (Assembly.standard_tidy ha n hn)

theorem import_isNamespace (hname : name ∈ importNames settings) {y : String}
    (hy : y ∈ Symbols.ofNamespace name) : (symbolsOf tree settings).isNamespace y = true := by
  obtain ⟨a, ha, n, hn, rfl⟩ := exported_import settings name hname
  rw [Symbols.isNamespace_iff, symbolsOf, Symbols.mem_namespaces_append]
  refine .inl (List.mem_flatMap.mpr ⟨a, ha, List.mem_flatMap.mpr ⟨n, hn, hy⟩⟩)

/-- No type has the name of a namespace around an import: its last part would be one that no
library exports. -/
theorem import_not_type (hb : Placed tree settings) (hname : name ∈ importNames settings) {y : String}
    (hy : y ∈ Symbols.ofNamespace name) : (symbolsOf tree settings).hasType y 0 = false := by
  have hrooted : Rooted y := by
    obtain ⟨a, ha, n, hn, rfl⟩ := exported_import settings name hname
    exact library_namespace (List.mem_flatMap.mpr ⟨a, ha, List.mem_flatMap.mpr ⟨n, hn, hy⟩⟩)
  rw [Bool.eq_false_iff, Ne, hasType_rooted hb hrooted]
  intro htype
  obtain ⟨scope, raw, ⟨root, -, hhead⟩, htidy, hparts⟩ := library_type htype
  obtain ⟨p, -, ⟨rest, hrest⟩, hp⟩ :=
    parts_of_beginning (fun part hpart => (imports_named settings name hname part hpart).1) hy
  rw [partsOf_empty, List.nil_append, hparts] at hp
  obtain ⟨before, hscope⟩ := List.head?_eq_some_iff.mp hhead
  refine htidy.part (import_innerParts settings name hname _ ?_)
  rw [← hrest, ← hp, hscope]
  simp

def importPlace : Place := { scopes := [{ name := "" }] }

theorem lookup_import (hb : Placed tree settings) (hname : name ∈ importNames settings) :
    lookup (symbolsOf tree settings) importPlace ((Text.dottedParts name).map fun part => (part, 0))
      false = .ok (.scope name) := by
  have hnamed (part : String) (hpart : part ∈ Text.dottedParts name) : IsName part :=
    (imports_named settings name hname part hpart).1
  have hall : ∀ y ∈ beginnings "" (Text.dottedParts name),
      (symbolsOf tree settings).isNamespace y = true ∧ (symbolsOf tree settings).hasType y 0 = false :=
    fun y hy => ⟨import_isNamespace hname hy, import_not_type hb hname hy⟩
  have hfold := foldl_dottedParts (import_rooted hname).ne_empty hnamed
  generalize Text.dottedParts name = parts at hall hfold hnamed
  cases parts with
  | nil => exact absurd hfold.symm (import_rooted hname).ne_empty
  | cons part parts =>
    obtain ⟨hnamespace, htype⟩ := hall part (by simp [beginnings, joinNames_empty])
    have hsimple : lookupSimple (symbolsOf tree settings) importPlace part 0 = .ok (.scope part) := by
      simp [lookupSimple, importPlace, inScope, joinNames_empty, htype, hnamespace]
    rw [List.map_cons, lookup, lookupFirst, if_neg Bool.false_ne_true, hsimple, ← hfold]
    exact lookup_namespaces fun y hy => hall y (by simp [beginnings, joinNames_empty, hy])

theorem bindImportsInto_all {symbols : Symbols} {place : Place} {names : List String}
    (h : ∀ name ∈ names,
      lookup symbols place ((Text.dottedParts name).map fun part => (part, 0)) false = .ok (.scope name))
    (n : Nat) (scope : Scope) (hnodup : (scope.imported ++ names).Nodup) :
    bindImportsInto symbols place scope (declaredImports n names) =
      pure { scope with imported := scope.imported ++ names } := by
  induction names generalizing n scope with
  | nil =>
    rw [List.append_nil]
    rfl
  | cons name names ih =>
    have hparts : (Text.dottedParts name).isEmpty = false := by
      simpa using Text.dottedParts_ne_nil name
    have hnew : scope.imported.contains name = false := by
      simp only [List.contains_eq_mem, decide_eq_false_iff_not]
      intro hmem
      exact (List.nodup_append.mp hnodup).2.2 name hmem name (by simp) rfl
    have hrest := ih (fun other hother => h other (by simp [hother])) (n + 1)
      { scope with imported := scope.imported ++ [name] } (by simpa using hnodup)
    rw [declaredImports, bindImportsInto]
    simp only [hparts, Bool.false_eq_true, if_false, h name (by simp), bindImport, hnew]
    rw [Reported.bind_pure, hrest, List.append_assoc, List.singleton_append]

theorem importNames_nodup (settings : Settings) : (importNames settings).Nodup := by
  rw [importNames]
  cases settings.library <;> simp [baseImports, JsonLibrary.namespaces]

def rootScope (settings : Settings) : Scope := { name := "", imported := importNames settings }

/-- The imports of generated source give the root its scope, and nothing is reported. -/
theorem bindImports_generated (hb : Placed tree settings) :
    bindImports (symbolsOf tree settings) {} "" (declaredSource tree settings).imports =
      pure (rootScope settings) := by
  have hall := bindImportsInto_all
    (fun name (hname : name ∈ importNames settings) => lookup_import hb hname) 1
    { name := "" } (by simpa using importNames_nodup settings)
  exact hall

end

end DataClasses.Binding
