import DataClasses.Proofs.Binding.FullNames
import DataClasses.Reference.Catalog

/-!
# What the libraries export

All namespaces of the built-in libraries begin with one of two roots. None of their types has the
name of a part of an imported namespace, and the types that generated source refers to are exported
by one namespace each.
-/

set_option autoImplicit false

namespace DataClasses.Assembly

open Identifier (IsName)

def roots : List String := ["System", "Newtonsoft"]

def innerParts : List String :=
  ["Collections", "Generic", "Runtime", "Serialization", "ComponentModel", "Linq", "Json", "Text"]

def homes : List (String × String) :=
  [("DateTime", "System"), ("JsonPropertyAttribute", "Newtonsoft.Json"),
   ("JsonPropertyNameAttribute", "System.Text.Json.Serialization")]

def stem (raw : String) : String := (splitArity raw).1

structure TidyType (scope raw : String) : Prop where
  point : '.' ∉ (stem raw).toList
  part : stem raw ∉ innerParts
  home : ∀ h ∈ homes, stem raw = h.1 → scope = h.2

structure Tidy (n : ExportedNamespace) : Prop where
  root : ∃ r ∈ roots, (Text.dottedParts n.name).head? = some r
  types : ∀ raw ∈ n.types, TidyType n.name raw

def rootChars : List (List Char) :=
  [['S', 'y', 's', 't', 'e', 'm'], ['N', 'e', 'w', 't', 'o', 'n', 's', 'o', 'f', 't']]

def innerChars : List (List Char) :=
  [['C', 'o', 'l', 'l', 'e', 'c', 't', 'i', 'o', 'n', 's'],
   ['G', 'e', 'n', 'e', 'r', 'i', 'c'],
   ['R', 'u', 'n', 't', 'i', 'm', 'e'],
   ['S', 'e', 'r', 'i', 'a', 'l', 'i', 'z', 'a', 't', 'i', 'o', 'n'],
   ['C', 'o', 'm', 'p', 'o', 'n', 'e', 'n', 't', 'M', 'o', 'd', 'e', 'l'],
   ['L', 'i', 'n', 'q'],
   ['J', 's', 'o', 'n'],
   ['T', 'e', 'x', 't']]

def homeChars : List (List Char × List Char) :=
  [(['D', 'a', 't', 'e', 'T', 'i', 'm', 'e'], ['S', 'y', 's', 't', 'e', 'm']),
   (['J', 's', 'o', 'n', 'P', 'r', 'o', 'p', 'e', 'r', 't', 'y', 'A', 't', 't', 'r', 'i', 'b', 'u',
    't', 'e'], ['N', 'e', 'w', 't', 'o', 'n', 's', 'o', 'f', 't', '.', 'J', 's', 'o', 'n']),
   (['J', 's', 'o', 'n', 'P', 'r', 'o', 'p', 'e', 'r', 't', 'y', 'N', 'a', 'm', 'e', 'A', 't', 't',
    'r', 'i', 'b', 'u', 't', 'e'], ['S', 'y', 's', 't', 'e', 'm', '.', 'T', 'e', 'x', 't', '.', 'J',
    's', 'o', 'n', '.', 'S', 'e', 'r', 'i', 'a', 'l', 'i', 'z', 'a', 't', 'i', 'o', 'n'])]

def checksRoot (scope : List Char) : Bool :=
  rootChars.any fun r => scope == r || (r ++ ['.']).isPrefixOf scope

def checksType (scope raw : List Char) : Bool :=
  let stem := raw.takeWhile (· != '`')
  !stem.contains '.' && !innerChars.contains stem &&
    homeChars.all fun h => stem != h.1 || scope == h.2

theorem roots_eq : roots = rootChars.map String.ofList := rfl

theorem innerParts_eq : innerParts = innerChars.map String.ofList := rfl

theorem homes_eq : homes = homeChars.map fun h => (String.ofList h.1, String.ofList h.2) := rfl

theorem stem_ofList (raw : List Char) :
    stem (String.ofList raw) = String.ofList (raw.takeWhile (· != '`')) := by
  rw [stem, splitArity, String.toList_ofList]
  split
  · rfl
  · rfl

theorem root_isName {r : String} (h : r ∈ roots) : IsName r := by
  simp only [roots, List.mem_cons, List.not_mem_nil, or_false] at h
  rcases h with rfl | rfl <;> decide

theorem root_of_checks {scope : List Char} (h : checksRoot scope = true) :
    ∃ r ∈ roots, (Text.dottedParts (String.ofList scope)).head? = some r := by
  simp only [checksRoot, List.any_eq_true, Bool.or_eq_true, beq_iff_eq, List.isPrefixOf_iff_prefix] at h
  obtain ⟨r, hr, hscope⟩ := h
  have hroot : String.ofList r ∈ roots := roots_eq ▸ List.mem_map_of_mem hr
  have hparts := (root_isName hroot).dottedParts
  refine ⟨String.ofList r, hroot, ?_⟩
  rcases hscope with rfl | ⟨rest, rfl⟩
  · rw [hparts]
    rfl
  · have hname : String.ofList (r ++ ['.'] ++ rest) = String.ofList r ++ "." ++ String.ofList rest := by
      rw [String.ofList_append, String.ofList_append]
    rw [hname, Text.dottedParts_append, hparts]
    rfl

theorem tidyType_of_checks {scope raw : List Char} (h : checksType scope raw = true) :
    TidyType (String.ofList scope) (String.ofList raw) := by
  simp only [checksType, Bool.and_eq_true, Bool.not_eq_true', List.contains_eq_mem,
    decide_eq_false_iff_not, List.all_eq_true, Bool.or_eq_true, bne_iff_ne, beq_iff_eq] at h
  obtain ⟨⟨hpoint, hpart⟩, hhome⟩ := h
  refine ⟨?_, ?_, ?_⟩
  · rwa [stem_ofList, String.toList_ofList]
  · rw [stem_ofList, innerParts_eq]
    intro hmem
    obtain ⟨cs, hcs, heq⟩ := List.mem_map.mp hmem
    exact hpart (String.ofList_injective heq ▸ hcs)
  · intro h hmem heq
    rw [homes_eq] at hmem
    obtain ⟨cs, hcs, rfl⟩ := List.mem_map.mp hmem
    rw [stem_ofList] at heq
    rcases hhome cs hcs with hne | hscope
    · exact absurd (String.ofList_injective heq) hne
    · rw [hscope]

theorem tidyTypes_nil (scope : String) : ∀ raw ∈ ([] : List String), TidyType scope raw := by simp

theorem tidyTypes_cons {scope raw : List Char} {rest : List String}
    (h : checksType scope raw = true) (hrest : ∀ raw ∈ rest, TidyType (String.ofList scope) raw) :
    ∀ text ∈ String.ofList raw :: rest, TidyType (String.ofList scope) text := by
  intro text htext
  rcases List.mem_cons.mp htext with rfl | htext
  · exact tidyType_of_checks h
  · exact hrest text htext

theorem tidy_nil : ∀ n ∈ ([] : List ExportedNamespace), Tidy n := by simp

theorem tidy_cons {scope : List Char} {types : List String} {rest : List ExportedNamespace}
    (h : checksRoot scope = true) (htypes : ∀ raw ∈ types, TidyType (String.ofList scope) raw)
    (hrest : ∀ n ∈ rest, Tidy n) : ∀ n ∈ ⟨String.ofList scope, types⟩ :: rest, Tidy n := by
  intro n hn
  rcases List.mem_cons.mp hn with rfl | hn
  · exact ⟨root_of_checks h, htypes⟩
  · exact hrest n hn

def shipped : List Assembly :=
  libraries ++ [netStandard20, netStandard21, mscorlib, systemNumerics, systemXml, coreLib6, coreLib7,
    immutable8, coreLib9]

theorem shipped_tidy : ∀ a ∈ shipped, ∀ n ∈ a.namespaces, Tidy n := by
  repeat' first
    | exact tidy_nil
    | exact tidyTypes_nil _
    | exact List.forall_mem_nil _
    | refine tidy_cons (by decide +kernel) ?_ ?_
    | refine tidyTypes_cons (by decide +kernel) ?_
    | refine List.forall_mem_cons.mpr ⟨?_, ?_⟩

theorem shipped_sources_nodup : (shipped.map (·.source)).Nodup := by decide +kernel

def ofLibrary : JsonLibrary → Assembly
  | .newtonsoft => newtonsoftJson
  | .systemText => systemTextJson

def standard (r : Runtime) (l : JsonLibrary) : List Assembly :=
  [systemRuntime, systemCollections, systemLinq, systemObjectModel, serializationPrimitives,
    componentModelPrimitives] ++ ofRuntime r ++ [ofLibrary l]

theorem ofRuntime_shipped (r : Runtime) : ofRuntime r ⊆ shipped := by
  cases r <;> simp [ofRuntime, shipped, libraries]

theorem ofLibrary_shipped (l : JsonLibrary) : ofLibrary l ∈ shipped := by
  cases l <;> simp [ofLibrary, shipped, libraries]

theorem standard_shipped (r : Runtime) (l : JsonLibrary) : standard r l ⊆ shipped := by
  rw [standard, List.append_subset, List.append_subset]
  refine ⟨⟨?_, ofRuntime_shipped r⟩,
    List.cons_subset.mpr ⟨ofLibrary_shipped l, List.nil_subset _⟩⟩
  simp [shipped, libraries]

theorem standard_tidy {r : Runtime} {l : JsonLibrary} {a : Assembly} (ha : a ∈ standard r l) :
    ∀ n ∈ a.namespaces, Tidy n :=
  shipped_tidy a (standard_shipped r l ha)

end DataClasses.Assembly
