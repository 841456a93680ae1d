import DataClasses.Proofs.ClassTree.Inference
import DataClasses.Proofs.Compilation.Generated

/-!
# The source of a sample

With the settings a run starts from, what is generated for a sample whose names do not coincide
passes just if its lists are not nested deeper than the reader of source follows them.
-/

set_option autoImplicit false

namespace DataClasses.ClassTree

open Identifier (IsName isKeyword)
open Binding (Apart Bindable Clear entryOf timestampIn)
open Compiler (analysisOf)

section

variable {text : String} {settings : Settings} {tree : ClassTree}

theorem sourceFor_eq (h : classesFor text settings = .ok tree) :
    sourceFor text settings = .ok (source tree settings) := by
  rw [sourceFor, h]
  rfl

theorem classesFor_of_toOption (h : (classesFor text settings).toOption = some tree) :
    classesFor text settings = .ok tree := by
  cases hread : classesFor text settings with
  | error failure => simp [hread, Except.toOption] at h
  | ok found => simpa [hread, Except.toOption] using h

theorem classesFor_wellNamed (hroot : IsName settings.rootClass) (h : classesFor text settings = .ok tree) :
    tree.WellNamed ∧ tree.root.name = settings.rootClass := by
  rw [classesFor] at h
  cases hread : Sample.read text with
  | error failure =>
    rw [hread] at h
    exact nomatch h
  | ok document =>
    rw [hread] at h
    obtain rfl : ofDocument document settings = tree := by simpa [Except.map] using h
    exact ⟨ofDocument_wellNamed document hroot, rfl⟩

theorem WellNamed.closed (h : tree.WellNamed) : Closed tree := by
  intro c hc p hp n hn
  exact List.mem_map.mpr <| by
    obtain ⟨d, hd, rfl⟩ := List.mem_map.mp (((h.members c hc).2 p hp).2 n hn)
    exact ⟨d, List.mem_cons_of_mem _ hd, rfl⟩

theorem WellNamed.nodup_iff (h : tree.WellNamed) :
    (tree.classes.map (·.name)).Nodup ↔ ∀ c ∈ tree.others, c.name ≠ tree.root.name := by
  rw [classes, List.map_cons, List.nodup_cons]
  constructor
  · rintro ⟨hroot, -⟩ c hc heq
    exact hroot (heq ▸ List.mem_map_of_mem hc)
  · intro hne
    refine ⟨fun hmem => ?_, h.nodup⟩
    obtain ⟨c, hc, heq⟩ := List.mem_map.mp hmem
    exact hne c hc heq

end

structure IsUsual (settings : Settings) : Prop where
  container : settings.container = "RpaJsonModels"
  rootClass : settings.rootClass = "Root"
  accessors : settings.accessors = true

/-- Whether the lists of a tree are nested so that, inside of a class of a namespace, the reader of
source follows them. -/
def Shallow (tree : ClassTree) : Prop :=
  ∀ c ∈ tree.classes, ∀ p ∈ c.properties, p.type.depth ≤ 125

/-- Whether no class is called like the root, like one of its members, or, where it is the class of
a member, like a word that declarations can start with. -/
structure NamesApart (tree : ClassTree) : Prop where
  words : ∀ c ∈ tree.classes, ∀ p ∈ c.properties, ∀ n, p.type = .classNamed n →
    n ∉ contextualWords
  members : ∀ c ∈ tree.classes, ∀ p ∈ c.properties, p.name ≠ c.name
  root : ∀ c ∈ tree.others, c.name ≠ tree.root.name

theorem default_container :
    ∀ part ∈ Text.dottedParts "RpaJsonModels", IsName part ∧ isKeyword part = false := by
  decide

theorem default_apart : Apart "RpaJsonModels" := by
  refine ⟨fun part hpart => (default_container part hpart).1, ?_, by decide⟩
  rintro ⟨root, hroot, hhead⟩
  have hall : ∀ root ∈ Assembly.roots, (Binding.partsOf "RpaJsonModels").head? ≠ some root := by decide
  exact hall root hroot hhead

section

variable {text : String} {settings : Settings} {tree : ClassTree} (hs : IsUsual settings)

include hs

theorem usual_apart : Apart settings.container := by
  rw [hs.container]
  exact default_apart

theorem usual_keywords :
    ∀ part ∈ Text.dottedParts settings.container, isKeyword part = false := by
  rw [hs.container]
  exact fun part hpart => (default_container part hpart).2

theorem usual_root : IsName settings.rootClass := by
  rw [hs.rootClass]
  decide

theorem usual_bindable (h : tree.WellNamed) : Bindable tree settings :=
  ⟨⟨usual_apart hs, h.isName⟩, fun _ _ _ _ _ => hs.accessors⟩

omit hs in
theorem accepted_iff {p : Property} (haccessors : settings.accessors = true) :
    Accepted settings p ↔
      p.type.depth ≤ 125 ∧ ∀ n, p.type = .classNamed n → n ∉ contextualWords := by
  simp only [Accepted, haccessors, Bool.true_eq_false, imp_false]
  refine and_congr_right' (forall_congr' fun n => imp_congr_right fun _ => ?_)
  simp only [modifierLike, contextualWords, List.mem_cons, not_or]
  tauto

theorem usual_failures_iff (h : tree.WellNamed) :
    (analysisOf (source tree settings) settings).failures = [] ↔ tree.NamesApart ∧ tree.Shallow := by
  have hkeywords := usual_keywords hs
  have hb := usual_bindable hs h
  have hcontainer (part : String) (hpart : part ∈ Text.dottedParts settings.container) :
      IsName part ∧ isKeyword part = false := ⟨hb.apart.named part hpart, hkeywords part hpart⟩
  constructor
  · intro hnil
    have haccepts := accepts_of_failures hcontainer h.allNamed hnil
    obtain ⟨hnodup, hclear⟩ := (failures_iff_clear hkeywords hb h.allNamed h.closed haccepts).mp hnil
    have haccepted (c : ClassShape) (hc : c ∈ tree.classes) (p : Property) (hp : p ∈ c.properties) :=
      (accepted_iff hs.accessors).mp (haccepts c hc p hp)
    refine ⟨⟨fun c hc p hp => ?_, fun c hc => (hclear c hc).2, h.nodup_iff.mp hnodup⟩, ?_⟩
    · exact (haccepted c hc p hp).2
    · exact fun c hc p hp => (haccepted c hc p hp).1
  · rintro ⟨hnames, hshallow⟩
    have haccepts (c : ClassShape) (hc : c ∈ tree.classes) : Accepts settings c := fun p hp =>
      (accepted_iff hs.accessors).mpr ⟨hshallow c hc p hp, hnames.words c hc p hp⟩
    refine (failures_iff_clear hkeywords hb h.allNamed h.closed haccepts).mpr ⟨?_, fun c hc => ?_⟩
    · exact h.nodup_iff.mpr hnames.root
    · exact ⟨(h.members c hc).1, hnames.members c hc⟩

theorem usual_passes (h : tree.WellNamed) (hnames : tree.NamesApart) (hshallow : tree.Shallow)
    (files : Files) :
    ((({} : Compiler).validate (source tree settings) settings).run files {}).1 = .ok [] := by
  rw [Compiler.validate_fresh (source_not_blank tree settings),
    (usual_failures_iff hs h).mpr ⟨hnames, hshallow⟩]

theorem usual_table (h : tree.WellNamed)
    (hnil : (analysisOf (source tree settings) settings).failures = []) :
    (analysisOf (source tree settings) settings).table =
      ⟨tree.classes.map (entryOf settings (timestampIn tree settings))⟩ := by
  have hb := usual_bindable hs h
  have hcontainer (part : String) (hpart : part ∈ Text.dottedParts settings.container) :
      IsName part ∧ isKeyword part = false := ⟨hb.apart.named part hpart, usual_keywords hs part hpart⟩
  have haccepts := accepts_of_failures hcontainer h.allNamed hnil
  obtain ⟨hnames, -⟩ := (usual_failures_iff hs h).mp hnil
  exact table_eq (usual_keywords hs) hb h.allNamed h.closed haccepts (h.nodup_iff.mpr hnames.root)

end

theorem usual_default (capitalize : Bool) : IsUsual { capitalizeNames := capitalize } := ⟨rfl, rfl, rfl⟩

/-- With the settings a run starts from, in either way of naming, what is generated for a sample
whose names are apart passes just if its lists are shallow. -/
theorem sample_passes_iff_shallow {text source : String} {tree : ClassTree} (capitalize : Bool)
    (htree : classesFor text { capitalizeNames := capitalize } = .ok tree)
    (hsource : sourceFor text { capitalizeNames := capitalize } = .ok source)
    (hnames : tree.NamesApart) (files : Files) :
    ((({} : Compiler).validate source { capitalizeNames := capitalize }).run files {}).1 = .ok [] ↔
      tree.Shallow := by
  have hs := usual_default capitalize
  obtain ⟨hnamed, -⟩ := classesFor_wellNamed (usual_root hs) htree
  obtain rfl : ClassTree.source tree { capitalizeNames := capitalize } = source := by
    simpa [sourceFor_eq htree] using hsource
  rw [Compiler.validate_fresh (source_not_blank tree _), Except.ok.injEq, usual_failures_iff hs hnamed]
  exact and_iff_right hnames

def orderSample : String :=
  "\x7b\"orders\":[\x7b\"id\":1,\"class\":\"a\"\x7d],\"at\":\"2024-01-15T10:30:00Z\"\x7d"

def orderTree : ClassTree :=
  ⟨⟨"Root", true,
      [⟨"orders", "Orders", .listOf (.classNamed "Order")⟩, ⟨"at", "At", .primitive .timestamp⟩]⟩,
    [⟨"Order", false, [⟨"id", "Id", .primitive .integer⟩,
      ⟨"class", "Class", .primitive .text⟩]⟩]⟩

theorem classesFor_orderSample : classesFor orderSample {} = .ok orderTree :=
  classesFor_of_toOption (by decide +kernel)

theorem orderTree_apart : orderTree.NamesApart := by
  refine ⟨?_, by decide, by decide⟩
  simp [classes, orderTree]

theorem orderTree_shallow : orderTree.Shallow := by
  rw [Shallow]
  decide

theorem order_sample_passes :
    classesFor orderSample { capitalizeNames := true } = .ok orderTree ∧
      sourceFor orderSample { capitalizeNames := true } = .ok (source orderTree {}) ∧
      orderTree.NamesApart ∧
      ((({} : Compiler).validate (source orderTree {}) { capitalizeNames := true }).run [] {}).1 =
        .ok [] :=
  ⟨classesFor_orderSample, sourceFor_eq classesFor_orderSample, orderTree_apart,
    (sample_passes_iff_shallow true classesFor_orderSample (sourceFor_eq classesFor_orderSample)
      orderTree_apart []).mpr orderTree_shallow⟩

theorem sample_fails {text : String} {tree : ClassTree} (capitalize : Bool)
    (htree : classesFor text { capitalizeNames := capitalize } = .ok tree)
    (h : ¬(tree.NamesApart ∧ tree.Shallow)) (files : Files) :
    sourceFor text { capitalizeNames := capitalize } =
        .ok (source tree { capitalizeNames := capitalize }) ∧
      ((({} : Compiler).validate (source tree { capitalizeNames := capitalize })
        { capitalizeNames := capitalize }).run files {}).1 ≠ .ok [] := by
  have hs := usual_default capitalize
  obtain ⟨hnamed, -⟩ := classesFor_wellNamed (usual_root hs) htree
  refine ⟨sourceFor_eq htree, ?_⟩
  rw [Compiler.validate_fresh (source_not_blank tree _), Ne, Except.ok.injEq,
    usual_failures_iff hs hnamed]
  exact h

def nestedLists : Nat → MemberType
  | 0 => .primitive .object
  | n + 1 => .listOf (nestedLists n)

theorem depth_nestedLists (n : Nat) : (nestedLists n).depth = n := by
  induction n with
  | zero => rfl
  | succ n ih => rw [nestedLists, MemberType.depth, ih]

def deepSample : String :=
  "\x7b\"a\":" ++ String.ofList (List.replicate 126 '[' ++ List.replicate 126 ']') ++ "\x7d"

def deepTree : ClassTree := ⟨⟨"Root", true, [⟨"a", "A", nestedLists 126⟩]⟩, []⟩

theorem classesFor_deepSample : classesFor deepSample {} = .ok deepTree :=
  classesFor_of_toOption (by decide +kernel)

theorem deepTree_deep : ¬deepTree.Shallow := by
  intro hshallow
  have hdepth := hshallow deepTree.root List.mem_cons_self ⟨"a", "A", nestedLists 126⟩ List.mem_cons_self
  rw [depth_nestedLists] at hdepth
  omega

def memberSample : String := "\x7b\"root\":1\x7d"

def memberTree : ClassTree := ⟨⟨"Root", true, [⟨"root", "Root", .primitive .integer⟩]⟩, []⟩

theorem classesFor_memberSample : classesFor memberSample {} = .ok memberTree :=
  classesFor_of_toOption (by decide +kernel)

def innerSample : String := "\x7b\"a\":\x7b\"root\":\x7b\x7d\x7d\x7d"

def innerTree : ClassTree :=
  ⟨⟨"Root", true, [⟨"a", "A", .classNamed "A"⟩]⟩,
    [⟨"A", false, [⟨"root", "Root", .classNamed "Root"⟩]⟩, ⟨"Root", false, []⟩]⟩

theorem classesFor_innerSample : classesFor innerSample {} = .ok innerTree :=
  classesFor_of_toOption (by decide +kernel)

def wordSample : String := "\x7b\"record\":\x7b\x7d\x7d"

def wordTree : ClassTree :=
  ⟨⟨"Root", true, [⟨"record", "record", .classNamed "record"⟩]⟩, [⟨"record", false, []⟩]⟩

theorem classesFor_wordSample : classesFor wordSample { capitalizeNames := false } = .ok wordTree :=
  classesFor_of_toOption (by decide +kernel)

/-- Not everything that is generated passes: lists can be too deep, and names can coincide. -/
theorem deep_and_coinciding_samples_fail :
    (sourceFor deepSample {} = .ok (source deepTree {}) ∧
        ((({} : Compiler).validate (source deepTree {}) {}).run [] {}).1 ≠ .ok []) ∧
      (sourceFor memberSample {} = .ok (source memberTree {}) ∧
        ((({} : Compiler).validate (source memberTree {}) {}).run [] {}).1 ≠ .ok []) ∧
      (sourceFor innerSample {} = .ok (source innerTree {}) ∧
        ((({} : Compiler).validate (source innerTree {}) {}).run [] {}).1 ≠ .ok []) ∧
      sourceFor wordSample { capitalizeNames := false } =
          .ok (source wordTree { capitalizeNames := false }) ∧
        ((({} : Compiler).validate (source wordTree { capitalizeNames := false })
          { capitalizeNames := false }).run [] {}).1 ≠ .ok [] := by
  refine ⟨sample_fails true classesFor_deepSample ?_ [], sample_fails true classesFor_memberSample ?_ [],
    sample_fails true classesFor_innerSample ?_ [], sample_fails false classesFor_wordSample ?_ []⟩
  · exact fun h => deepTree_deep h.2
  · exact fun h => absurd (h.1.members memberTree.root List.mem_cons_self _ List.mem_cons_self) (by decide)
  · exact fun h => absurd (h.1.root ⟨"Root", false, []⟩ (by simp [innerTree])) (by decide)
  · exact fun h => absurd (h.1.words wordTree.root List.mem_cons_self
      ⟨"record", "record", .classNamed "record"⟩ List.mem_cons_self "record" rfl) (by decide)

end DataClasses.ClassTree
