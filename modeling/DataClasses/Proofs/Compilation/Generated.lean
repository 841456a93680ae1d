import DataClasses.Proofs.Binding.Sources
import DataClasses.Proofs.Compiler.Agreement
import DataClasses.Proofs.TypeTable.Groups

/-!
# Compiling generated source

A new compiler accepts the source of a tree just if it is read as it was generated and no names
clash. The table is then that of the classes of the tree.
-/

set_option autoImplicit false

namespace DataClasses.ClassTree

open Identifier (IsName isKeyword)
open Binding (Apart Bindable Clear IsPlain Verdict symbolsOf entryOf timestampIn)
open Compiler (analysisOf)

variable {tree : ClassTree} {settings : Settings}

def contextualWords : List String := ["record", "partial", "async", "required", "file"]

theorem accepted_of_notWord {p : Property} (hdepth : p.type.depth ≤ 125)
    (hword : ∀ n, p.type = .classNamed n → n ∉ contextualWords) : Accepted settings p := by
  refine ⟨hdepth, fun n hn => ⟨fun hmem => hword n hn (List.mem_cons_of_mem _ hmem), ?_⟩⟩
  rintro rfl
  exact absurd List.mem_cons_self (hword "record" hn)

theorem source_not_blank (tree : ClassTree) (settings : Settings) :
    Text.allBlank (source tree settings) = false := by
  have hmem : 'u' ∈ (source tree settings).toList := by
    have hspelled : Line.spell (sourceLines tree settings) =
        (importLine "System").spelling ++ Line.spell (sourceLines tree settings).tail := by
      rfl
    rw [source_toList, hspelled]
    exact List.mem_append_left _ List.mem_cons_self
  rw [Text.allBlank, List.all_eq_false]
  exact ⟨'u', hmem, by decide⟩

theorem isFailure_of_severity {d : Diagnostic} (h : d.severity = .error) : d.isFailure = true := by
  simp [Diagnostic.isFailure, h]

theorem none_of_failures {reports : List Diagnostic} (herrors : ∀ d ∈ reports, d.severity = .error)
    (h : ∀ d ∈ reports, d.isFailure = false) : reports = [] := by
  rw [List.eq_nil_iff_forall_not_mem]
  intro d hd
  exact absurd (isFailure_of_severity (herrors d hd)) (by simp [h d hd])

section

variable (hcontainer : ∀ part ∈ Text.dottedParts settings.container, IsName part ∧
  isKeyword part = false)
  (hclasses : ∀ c ∈ tree.classes, AllNamed c)

include hcontainer hclasses

/-- Source that passes was read as it was generated. -/
theorem accepts_of_failures (h : (analysisOf (source tree settings) settings).failures = []) :
    ∀ c ∈ tree.classes, Accepts settings c := by
  by_contra hrejected
  refine ofSource_rejected hcontainer hclasses hrejected ?_
  exact none_of_failures (ofSource_severity hcontainer hclasses) (Compiler.failures_eq_nil_iff.mp h).1

theorem failures_iff_of_accepts (h : ∀ c ∈ tree.classes, Accepts settings c) :
    (analysisOf (source tree settings) settings).failures = [] ↔
      ∀ d ∈ (Binding.bindUnit (symbolsOf tree settings) (declaredSource tree settings)).reports,
        d.isFailure = false := by
  have hread := ofSource_accepted hcontainer hclasses h
  rw [Compiler.failures_eq_nil_iff, hread]
  simp only [List.not_mem_nil, false_imp_iff, implies_true, true_and]
  rfl

theorem table_of_accepts (h : ∀ c ∈ tree.classes, Accepts settings c) :
    (analysisOf (source tree settings) settings).table =
      .ofEntries (Binding.bindUnit (symbolsOf tree settings) (declaredSource tree settings)).value := by
  rw [Compiler.analysisOf, ofSource_accepted hcontainer hclasses h]
  rfl

end

def Closed (tree : ClassTree) : Prop :=
  ∀ c ∈ tree.classes, ∀ p ∈ c.properties, ∀ n ∈ p.type.class?, n ∈ tree.classes.map (·.name)

theorem entries_distinct {entry : ClassShape → TypeEntry} (hname : ∀ c, (entry c).name = c.name)
    {cs : List ClassShape} (h : (cs.map (·.name)).Nodup) :
    (cs.map entry).Pairwise fun t u => t.sameType u = false := by
  rw [List.pairwise_map]
  rw [List.Nodup, List.pairwise_map] at h
  refine h.imp fun {c d} hne => ?_
  simp [TypeEntry.sameType, hname, hne]

section

variable (hkeywords : ∀ part ∈ Text.dottedParts settings.container, isKeyword part = false)
  (hb : Bindable tree settings) (hclasses : ∀ c ∈ tree.classes, AllNamed c) (hclosed : Closed tree)
  (haccepts : ∀ c ∈ tree.classes, Accepts settings c)

include hkeywords hb hclasses hclosed haccepts

/-- Source that was read as it was generated passes just if the classes differ in their names and each
of them is clear. -/
theorem failures_iff_clear :
    (analysisOf (source tree settings) settings).failures = [] ↔
      (tree.classes.map (·.name)).Nodup ∧ ∀ c ∈ tree.classes, Clear c := by
  have hcontainer (part : String) (hpart : part ∈ Text.dottedParts settings.container) :
      IsName part ∧ isKeyword part = false := ⟨hb.apart.named part hpart, hkeywords part hpart⟩
  obtain ⟨-, hverdict⟩ := Binding.bindUnit_generated hb fun c hc p hp =>
    ⟨((hclasses c hc).2 p hp).1, hclosed c hc p hp⟩
  rw [failures_iff_of_accepts hcontainer hclasses haccepts, ← hverdict.nil_iff]
  constructor
  · exact none_of_failures hverdict.errors
  · intro hnil
    simp [hnil]

/-- The table of such source has just the classes of the tree. -/
theorem table_eq (hnodup : (tree.classes.map (·.name)).Nodup) :
    (analysisOf (source tree settings) settings).table =
      ⟨tree.classes.map (entryOf settings (timestampIn tree settings))⟩ := by
  have hcontainer (part : String) (hpart : part ∈ Text.dottedParts settings.container) :
      IsName part ∧ isKeyword part = false := ⟨hb.apart.named part hpart, hkeywords part hpart⟩
  obtain ⟨hvalue, -⟩ := Binding.bindUnit_generated hb fun c hc p hp =>
    ⟨((hclasses c hc).2 p hp).1, hclosed c hc p hp⟩
  rw [table_of_accepts hcontainer hclasses haccepts, hvalue]
  exact TypeTable.ofEntries_distinct (entries_distinct (fun _ => rfl) hnodup)

end

end DataClasses.ClassTree
