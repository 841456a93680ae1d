import DataClasses.Proofs.Compilation.Generated

/-!
# Well-formed trees

A tree whose names are identifiers and clash neither with each other nor with what generated source
refers to compiles to itself, for every platform, JSON library and choice of shape.
-/

set_option autoImplicit false

namespace DataClasses.ClassTree

open Identifier (IsName isKeyword)
open Binding (Apart Bindable Clear Rooted entryOf timestampIn)
open Compiler (analysisOf)

def reservedParts : List String :=
  ["DateTime", "JsonPropertyAttribute", "JsonPropertyNameAttribute"]

structure WellFormed (tree : ClassTree) (settings : Settings) : Prop where
  named : ∀ c ∈ tree.classes, IsName c.name ∧ ∀ p ∈ c.properties, IsName p.name
  nodup : (tree.classes.map (·.name)).Nodup
  notTimestamp : ∀ c ∈ tree.classes, c.name ≠ "DateTime"
  members : ∀ c ∈ tree.classes,
    (c.properties.map (·.name)).Nodup ∧ ∀ p ∈ c.properties, p.name ≠ c.name
  closed : ∀ c ∈ tree.classes, ∀ p ∈ c.properties, ∀ n ∈ p.type.class?,
    n ∈ tree.classes.map (·.name)
  notWord : ∀ c ∈ tree.classes, ∀ p ∈ c.properties, ∀ n, p.type = .classNamed n →
    n ∉ contextualWords
  depth : ∀ c ∈ tree.classes, ∀ p ∈ c.properties, p.type.depth ≤ 125
  container : ∀ part ∈ Text.dottedParts settings.container, IsName part ∧ isKeyword part = false
  root : (Text.dottedParts settings.container).head? ∉ [some "System", some "Newtonsoft"]
  parts : ∀ part ∈ Text.dottedParts settings.container, part ∉ reservedParts

namespace WellFormed

variable {tree : ClassTree} {settings : Settings} (h : tree.WellFormed settings)

include h

theorem allNamed : ∀ c ∈ tree.classes, AllNamed c := by
  intro c hc
  refine ⟨(h.named c hc).1, fun p hp => ⟨(h.named c hc).2 p hp, fun n hn => ?_⟩⟩
  obtain ⟨d, hd, rfl⟩ := List.mem_map.mp (h.closed c hc p hp n hn)
  exact (h.named d hd).1

theorem accepts : ∀ c ∈ tree.classes, Accepts settings c :=
  fun c hc p hp => accepted_of_notWord (h.depth c hc p hp) (h.notWord c hc p hp)

theorem apart : Apart settings.container := by
  refine ⟨fun part hpart => (h.container part hpart).1, ?_, ?_⟩
  · rintro ⟨root, hroot, hhead⟩
    have hne : settings.container ≠ "" := by
      intro hempty
      have hparts : Text.dottedParts "" = [""] := by decide
      have hnamed := (h.container "" (by simp [hempty, hparts])).1
      exact hnamed.ne_empty rfl
    refine h.root ?_
    rw [Binding.partsOf_of_ne hne] at hhead
    rw [hhead]
    exact List.mem_map_of_mem (f := some) hroot
  · intro home hhome hmem
    refine h.parts _ hmem ?_
    exact List.mem_map_of_mem (f := (·.1)) hhome

theorem bindable : Bindable tree settings := by
  refine ⟨⟨h.apart, fun c hc => (h.named c hc).1⟩, fun c hc p hp hrecord => ?_⟩
  exact absurd List.mem_cons_self (h.notWord c hc p hp "record" hrecord)

theorem timestamp : timestampIn tree settings = "System.DateTime" := by
  rw [Binding.timestampIn, Binding.meantBy, if_neg]
  · decide
  · intro hmem
    obtain ⟨c, hc, hname⟩ := List.mem_map.mp hmem
    exact h.notTimestamp c hc hname

end WellFormed

/-- A well-formed tree passes, and the table of its source has just its classes: each with a
constructor if there are to be any, then its members with the full names of their types. -/
theorem wellFormed_compiles {tree : ClassTree} {settings : Settings} (h : tree.WellFormed settings)
    (files : Files) :
    ((({} : Compiler).validate (source tree settings) settings).run files {}).1 = .ok [] ∧
      ∃ analysis,
        ((Compiler.fresh (source tree settings) settings).run files {}).1 = .ok analysis ∧
          analysis.table = ⟨tree.classes.map (entryOf settings "System.DateTime")⟩ := by
  have hkeywords (part : String) (hpart : part ∈ Text.dottedParts settings.container) :
      isKeyword part = false := (h.container part hpart).2
  have hfailures := (failures_iff_clear hkeywords h.bindable h.allNamed h.closed h.accepts).mpr
    ⟨h.nodup, h.members⟩
  have htable := table_eq hkeywords h.bindable h.allNamed h.closed h.accepts h.nodup
  rw [h.timestamp] at htable
  refine ⟨?_, _, Compiler.fresh_apply _ settings files, htable⟩
  rw [Compiler.validate_fresh (source_not_blank tree settings), hfailures]

def ledgerTree : ClassTree :=
  ⟨⟨"Ledger", true,
      [⟨"class", "class", .classNamed "namespace"⟩,
       ⟨"old records", "Record", .listOf (.listOf (.classNamed "record"))⟩,
       ⟨"at", "At", .listOf (.primitive .timestamp)⟩]⟩,
    [⟨"namespace", false, [⟨"ledger", "Ledger_2", .classNamed "Ledger"⟩]⟩,
     ⟨"record", false, []⟩]⟩

def ledgerSettings : Settings :=
  { runtime := .netFramework48, library := .newtonsoft, container := "Books.Ledger",
    rootClass := "Ledger", accessors := false, constructors := true, documentation := true }

theorem ledgerTree_wellFormed : ledgerTree.WellFormed ledgerSettings where
  named := by decide
  nodup := by decide
  notTimestamp := by decide
  members := by decide
  closed := by decide
  notWord := by simp [classes, ledgerTree, contextualWords]
  depth := by decide
  container := by decide
  root := by decide
  parts := by decide

theorem ledgerTree_compiles :
    ledgerTree.WellFormed ledgerSettings ∧
      ((({} : Compiler).validate (source ledgerTree ledgerSettings) ledgerSettings).run [] {}).1 =
        .ok [] ∧
      ∃ analysis,
        ((Compiler.fresh (source ledgerTree ledgerSettings) ledgerSettings).run [] {}).1 =
          .ok analysis ∧
        analysis.table = ⟨ledgerTree.classes.map (entryOf ledgerSettings "System.DateTime")⟩ :=
  ⟨ledgerTree_wellFormed, wellFormed_compiles ledgerTree_wellFormed []⟩

end DataClasses.ClassTree
