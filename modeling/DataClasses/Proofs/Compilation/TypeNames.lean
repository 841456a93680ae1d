import DataClasses.Proofs.Compilation.Samples

/-!
# The types of compiled members

The members of a sample that passes keep the types that were found for them, unless a class is
called `DateTime`: then the points in time of the sample have that class for their type.
-/

set_option autoImplicit false

namespace DataClasses

open ClassTree

/-- Two names for points in time make a difference just to the types that have one inside. -/
theorem MemberType.nameIn_inj {container x y : String} {t : MemberType} :
    t.nameIn container x = t.nameIn container y ↔ (t.core = .primitive .timestamp → x = y) := by
  induction t with
  | primitive kind => cases kind <;> simp [MemberType.nameIn, MemberType.core]
  | classNamed name => simp [MemberType.nameIn, MemberType.core]
  | listOf element ih =>
    rw [MemberType.nameIn, MemberType.nameIn, MemberType.core, ← ih]
    exact ⟨fun h => String.append_left_inj _ |>.mp h, fun h => by rw [h]⟩

namespace ClassTree

open Binding (entryOf timestampIn)
open Compiler (analysisOf)

def typeNames (table : TypeTable) : List (String × List (String × Option String)) :=
  table.types.map fun t => (t.name, t.members.map fun m => (m.name, m.typeName))

def translated (container : String) (tree : ClassTree) : List (String × List (String × Option String)) :=
  tree.classes.map fun c =>
    (c.name, c.properties.map fun p => (p.name, some (p.type.nameIn container "System.DateTime")))

def HidesTimestamps (tree : ClassTree) : Prop :=
  (∃ c ∈ tree.classes, c.name = "DateTime") ∧
    ∃ c ∈ tree.classes, ∃ p ∈ c.properties, p.type.core = .primitive .timestamp

theorem typeNames_entries (settings : Settings) (hconstructors : settings.constructors = false)
    (timestamp : String) (tree : ClassTree) :
    typeNames ⟨tree.classes.map (entryOf settings timestamp)⟩ = translated settings.container tree ↔
      ∀ c ∈ tree.classes, ∀ p ∈ c.properties,
        p.type.core = .primitive .timestamp → timestamp = "System.DateTime" := by
  have hclass (c : ClassShape) :
      (entryOf settings timestamp c).members.map (fun m => (m.name, m.typeName)) =
        c.properties.map fun p => (p.name, some (p.type.nameIn settings.container timestamp)) := by
    simp [entryOf, Binding.constructorEntries, hconstructors, Binding.memberEntry]
  simp only [typeNames, translated, List.map_map, List.map_inj_left, Function.comp_apply, hclass,
    Prod.mk.injEq, Option.some.injEq, MemberType.nameIn_inj]
  simp [entryOf]

theorem timestampIn_eq_iff {settings : Settings} {tree : ClassTree}
    (hcontainer : settings.container = "RpaJsonModels") :
    timestampIn tree settings = "System.DateTime" ↔ ¬∃ c ∈ tree.classes, c.name = "DateTime" := by
  have hmem : "DateTime" ∈ tree.classes.map (·.name) ↔ ∃ c ∈ tree.classes, c.name = "DateTime" :=
    List.mem_map
  rw [timestampIn, Binding.meantBy, ← hmem, hcontainer]
  split
  · next h => simp [h]; decide
  · next h => simp [h]; decide

theorem usual_platform (r : Runtime) (l : JsonLibrary) (capitalize : Bool) :
    IsUsual { runtime := r, library := l, capitalizeNames := capitalize } := ⟨rfl, rfl, rfl⟩

/-- What passes, for any platform and JSON library and in either way of naming, has the types that
were found for its members just if no class hides the type of points in time from them. -/
theorem sample_types_iff {text source : String} {tree : ClassTree} (r : Runtime) (l : JsonLibrary)
    (capitalize : Bool) (files : Files)
    (htree : classesFor text { runtime := r, library := l, capitalizeNames := capitalize } = .ok tree)
    (hsource : sourceFor text { runtime := r, library := l, capitalizeNames := capitalize } = .ok source)
    (hpasses : ((({} : Compiler).validate source
      { runtime := r, library := l, capitalizeNames := capitalize }).run files {}).1 = .ok []) :
    ∃ analysis,
      ((Compiler.fresh source
        { runtime := r, library := l, capitalizeNames := capitalize }).run files {}).1 = .ok analysis ∧
      (typeNames analysis.table = translated "RpaJsonModels" tree ↔ ¬tree.HidesTimestamps) := by
  have hs := usual_platform r l capitalize
  obtain ⟨hnamed, -⟩ := classesFor_wellNamed (usual_root hs) htree
  obtain rfl : ClassTree.source tree { runtime := r, library := l, capitalizeNames := capitalize } =
      source := by
    simpa [sourceFor_eq htree] using hsource
  rw [Compiler.validate_fresh (source_not_blank tree _), Except.ok.injEq] at hpasses
  refine ⟨_, Compiler.fresh_apply _ _ files, ?_⟩
  have hentries := typeNames_entries
    { runtime := r, library := l, capitalizeNames := capitalize } rfl
    (timestampIn tree { runtime := r, library := l, capitalizeNames := capitalize }) tree
  rw [usual_table hs hnamed hpasses, hentries, timestampIn_eq_iff rfl, HidesTimestamps]
  constructor
  · rintro h ⟨hclass, c, hc, p, hp, hcore⟩
    exact h c hc p hp hcore hclass
  · intro h c hc p hp hcore hclass
    exact h ⟨hclass, c, hc, p, hp, hcore⟩

theorem order_sample_types_iff :
    ∃ analysis,
      ((Compiler.fresh (source orderTree {})
        { runtime := .netStandard21, library := .systemText, capitalizeNames := true }).run [] {}).1 =
          .ok analysis ∧
        (typeNames analysis.table = translated "RpaJsonModels" orderTree ↔
          ¬orderTree.HidesTimestamps) := by
  have hs := usual_default true
  obtain ⟨hnamed, -⟩ := classesFor_wellNamed (usual_root hs) classesFor_orderSample
  exact sample_types_iff .netStandard21 .systemText true [] classesFor_orderSample
    (sourceFor_eq classesFor_orderSample) (usual_passes hs hnamed orderTree_apart orderTree_shallow [])

def hidingSample : String :=
  "\x7b\"dateTime\":\x7b\"a\":1\x7d,\"t\":\"2024-01-15T10:30:00Z\"\x7d"

def hidingTree : ClassTree :=
  ⟨⟨"Root", true,
      [⟨"dateTime", "DateTime", .classNamed "DateTime"⟩, ⟨"t", "T", .primitive .timestamp⟩]⟩,
    [⟨"DateTime", false, [⟨"a", "A", .primitive .integer⟩]⟩]⟩

theorem classesFor_hidingSample : classesFor hidingSample {} = .ok hidingTree :=
  classesFor_of_toOption (by decide +kernel)

theorem hidingTree_apart : hidingTree.NamesApart := by
  refine ⟨?_, by decide, by decide⟩
  simp [classes, hidingTree, contextualWords]

theorem hidingTree_shallow : hidingTree.Shallow := by
  rw [Shallow]
  decide

/-- Not every type is kept: here a point in time gets the type of an object, and all passes. -/
theorem hiding_sample_passes :
    sourceFor hidingSample {} = .ok (source hidingTree {}) ∧
      ((({} : Compiler).validate (source hidingTree {}) {}).run [] {}).1 = .ok [] ∧
      ∃ analysis,
        ((Compiler.fresh (source hidingTree {}) {}).run [] {}).1 = .ok analysis ∧
          typeNames analysis.table =
            [("Root", [("DateTime", some "RpaJsonModels.DateTime"), ("T", some "RpaJsonModels.DateTime")]),
             ("DateTime", [("A", some "int")])] ∧
          typeNames analysis.table ≠ translated "RpaJsonModels" hidingTree := by
  have hs := usual_default true
  obtain ⟨hnamed, -⟩ := classesFor_wellNamed (usual_root hs) classesFor_hidingSample
  have hpasses := usual_passes hs hnamed hidingTree_apart hidingTree_shallow []
  have htable := usual_table hs hnamed
    ((usual_failures_iff hs hnamed).mpr ⟨hidingTree_apart, hidingTree_shallow⟩)
  refine ⟨sourceFor_eq classesFor_hidingSample, hpasses, _, Compiler.fresh_apply _ _ [], ?_⟩
  rw [htable]
  exact ⟨by decide +kernel, by decide +kernel⟩

end ClassTree
end DataClasses
