import DataClasses.Proofs.Compilation.Samples

/-!
# The members of compiled classes

Whatever passes has all members of its sample, each under its name and with its key, unless members
are fields and one of them has a class called `record`: that one is compiled as a type.
-/

set_option autoImplicit false

namespace DataClasses

open ClassTree
open Identifier (IsName isKeyword)

namespace Binding

section

variable {symbols : Symbols} {settings : Settings}

theorem mem_bindNested {place : Place} {container : Container} {m : Member} {members : List Member}
    {t : TypeEntry} (hm : m ∈ members) (ht : t ∈ (bindInner symbols place container m).value) :
    t ∈ (bindNested symbols place container members).value := by
  induction members with
  | nil => simp at hm
  | cons first members ih =>
    rw [bindNested, Reported.bind_value, Reported.bind_value, Reported.pure_value, List.mem_append]
    rcases List.mem_cons.mp hm with rfl | hm
    · exact .inl ht
    · exact .inr (ih hm)

theorem mem_declaredFrom (settings : Settings) {p : Property} {ps : List Property} (hp : p ∈ ps)
    (n : Nat) : ∃ m, declared settings m p ∈ declaredFrom settings n ps := by
  induction ps generalizing n with
  | nil => simp at hp
  | cons first ps ih =>
    rw [declaredFrom]
    rcases List.mem_cons.mp hp with rfl | hp
    · exact ⟨n, List.mem_cons_self⟩
    · obtain ⟨m, hm⟩ := ih hp (n + (propertyLines settings first).length + 1)
      exact ⟨m, List.mem_cons_of_mem _ hm⟩

theorem mem_classMembers {c : ClassShape} {p : Property} (hp : p ∈ c.properties) (n : Nat) :
    ∃ m, declared settings m p ∈ classMembers settings n c := by
  rw [classMembers]
  split
  · obtain ⟨m, hm⟩ := mem_declaredFrom settings hp (n + 4)
    exact ⟨m, List.mem_cons_of_mem _ hm⟩
  · exact mem_declaredFrom settings hp n

theorem bindInner_value (place : Place) (container : Container) (head : TypeHead) (members : List Member)
    (hname : head.name ≠ "") :
    (bindInner symbols place container (.nested head members)).value =
      (bindHead symbols place container head members).value ::
        (bindNested symbols (place.into head (container.into head).full) (container.into head)
          members).value := by
  have hempty : head.name.isEmpty = false := by simpa using hname
  rw [bindInner]
  simp only [hempty, Bool.false_eq_true, if_false]
  rfl

theorem inner_record {p : Property} (hplain : ¬IsPlain settings p) (hname : IsName p.name)
    (place : Place) (container : Container) (n : Nat) :
    ∃ t ∈ (bindInner symbols place container (declared settings n p)).value,
      t.name = joinNames container.outer p.name := by
  have hrecord : p.type = .classNamed "record" ∧ ¬settings.accessors = true := by
    rw [IsPlain, Classical.not_imp] at hplain
    exact hplain
  have hdeclared : declared settings n p = .nested ⟨.record, p.name, [], ["public"],
      annotations settings n p, [], [], declarationLineFrom settings n⟩ [] := by
    simp only [declared, if_neg hrecord.2, if_pos hrecord.1]
  rw [hdeclared, bindInner_value _ _ _ _ hname.ne_empty]
  exact ⟨_, List.mem_cons_self, rfl⟩

/-- A member that is not declared as one gets an entry of its own among the types. -/
theorem inner_entry {cs : List ClassShape} {c : ClassShape} {p : Property} (root : Scope) (hc : c ∈ cs)
    (hname : IsName c.name) (hp : p ∈ c.properties) (hpname : IsName p.name)
    (hplain : ¬IsPlain settings p) (n : Nat) :
    ∃ t ∈ (bindDeclarations symbols (placeIn settings root) (declaredClasses settings n cs)).value,
      t.name = joinNames c.name p.name := by
  induction cs generalizing n with
  | nil => simp at hc
  | cons first cs ih =>
    rw [declaredClasses, declaredClass, bindDeclarations, Reported.bind_value, Reported.bind_value,
      Reported.pure_value]
    rcases List.mem_cons.mp hc with rfl | hc
    · obtain ⟨m, hm⟩ := mem_classMembers hp (classLineFrom settings n + 2)
      rw [← classHead, bindOutermost, bindInner_value _ _ _ _ hname.ne_empty]
      obtain ⟨t, ht, htname⟩ := inner_record hplain hpname _ _ m
      exact ⟨t, List.mem_append_left _ (List.mem_cons_of_mem _ (mem_bindNested hm ht)), htname⟩
    · obtain ⟨t, ht, htname⟩ := ih hc (n + (classLines settings first).length)
      exact ⟨t, List.mem_append_right _ ht, htname⟩

end

end Binding

namespace ClassTree

open Binding (IsPlain boundEntry memberKind keyOf placeIn)
open Compiler (analysisOf)

def outlines (table : TypeTable) : List (String × List (String × MemberKind × Option String)) :=
  table.types.map fun t =>
    (t.name, (t.members.filter (·.kind != .constructor)).map fun m => (m.name, m.kind, m.key))

def outlined (tree : ClassTree) (settings : Settings) :
    List (String × List (String × MemberKind × Option String)) :=
  tree.classes.map fun c =>
    (c.name, c.properties.map fun p => (p.name, memberKind settings, keyOf settings p))

def HasRecordField (tree : ClassTree) (settings : Settings) : Prop :=
  settings.accessors = false ∧ ∃ c ∈ tree.classes, ∃ p ∈ c.properties, p.type = .classNamed "record"

theorem not_hasRecordField_iff {tree : ClassTree} {settings : Settings} :
    ¬tree.HasRecordField settings ↔
      ∀ c ∈ tree.classes, ∀ p ∈ c.properties, IsPlain settings p := by
  constructor
  · intro h c hc p hp hrecord
    by_contra haccessors
    exact h ⟨by simpa using haccessors, c, hc, p, hp, hrecord⟩
  · rintro h ⟨haccessors, c, hc, p, hp, hrecord⟩
    exact absurd (h c hc p hp hrecord) (by simp [haccessors])

theorem outlines_boundEntry (symbols : Binding.Symbols) (settings : Settings) (root : Binding.Scope)
    (tree : ClassTree) :
    outlines ⟨tree.classes.map (boundEntry symbols settings root)⟩ = outlined tree settings := by
  have hmember (typeName : Option String) (p : Property) :
      ((Binding.memberEntry settings typeName p).kind != .constructor) = true := by
    cases haccessors : settings.accessors <;> simp [Binding.memberEntry, memberKind, haccessors]
  have hconstructor (c : ClassShape) :
      (Binding.constructorEntries settings c).filter (·.kind != .constructor) = [] := by
    rw [Binding.constructorEntries]
    split <;> simp
  rw [outlines, outlined, List.map_map]
  refine List.map_congr_left fun c _ => ?_
  rw [Function.comp_apply, boundEntry, List.filter_append, hconstructor, List.nil_append,
    List.filter_eq_self.mpr]
  · rw [List.map_map]
    rfl
  · intro m hm
    obtain ⟨p, -, rfl⟩ := List.mem_map.mp hm
    exact hmember _ p

section

variable {tree : ClassTree} {settings : Settings}
  (hcontainer : ∀ part ∈ Text.dottedParts settings.container, IsName part ∧ isKeyword part = false)
  (h : tree.WellNamed) (hnil : (analysisOf (source tree settings) settings).failures = [])

include hcontainer h hnil

omit h hnil in
theorem container_ne_empty : settings.container ≠ "" := by
  intro hempty
  have hparts : Text.dottedParts "" = [""] := by decide
  exact (hcontainer "" (by simp [hempty, hparts])).1.ne_empty rfl

theorem nodup_of_failures : (tree.classes.map (·.name)).Nodup := by
  have haccepts := accepts_of_failures hcontainer h.allNamed hnil
  have hfailures := (failures_iff_of_accepts hcontainer h.allNamed haccepts).mp hnil
  obtain ⟨-, hreports⟩ := Binding.bindUnit_source (Binding.symbolsOf tree settings) tree
    (container_ne_empty hcontainer) fun part hpart => (hcontainer part hpart).1
  have hrepeats : Binding.repeats tree settings = [] := by
    refine none_of_failures (Binding.repeatedTypes_severity _ _) fun d hd => hfailures d ?_
    rw [hreports]
    exact List.mem_append_left _ hd
  exact Binding.nodup_of_repeats h.isName hrepeats

theorem table_of_failures :
    ∃ symbols root,
      (analysisOf (source tree settings) settings).table =
        .ofEntries (Binding.bindDeclarations symbols (placeIn settings root)
          (declaredClasses settings (scopeLine settings + 2) tree.classes)).value := by
  have haccepts := accepts_of_failures hcontainer h.allNamed hnil
  obtain ⟨hvalue, -⟩ := Binding.bindUnit_source (Binding.symbolsOf tree settings) tree
    (container_ne_empty hcontainer) fun part hpart => (hcontainer part hpart).1
  rw [table_of_accepts hcontainer h.allNamed haccepts, hvalue]
  exact ⟨_, _, rfl⟩

/-- A passing tree keeps all of its members just if none of them is compiled as a type. -/
theorem outlines_eq_iff :
    outlines (analysisOf (source tree settings) settings).table = outlined tree settings ↔
      ¬tree.HasRecordField settings := by
  obtain ⟨symbols, root, htable⟩ := table_of_failures hcontainer h hnil
  rw [htable, not_hasRecordField_iff]
  constructor
  · intro heq c hc p hp
    by_contra hplain
    have hpname := ((h.allNamed c hc).2 p hp).1
    obtain ⟨t, ht, hname⟩ := Binding.inner_entry root hc (h.isName c hc) hp hpname hplain
      (scopeLine settings + 2)
    obtain ⟨x, hx, hxname⟩ := TypeTable.mem_ofEntries_name ht
    have hmem : x.name ∈ (outlined tree settings).map (·.1) := by
      rw [← heq, outlines, List.map_map]
      exact List.mem_map_of_mem hx
    rw [outlined, List.map_map] at hmem
    obtain ⟨d, hd, hdname⟩ := List.mem_map.mp hmem
    have hpoint := (h.isName d hd).point_notMem
    rw [show d.name = x.name from hdname, hxname, hname,
      Binding.joinNames_of_ne (h.isName c hc).ne_empty] at hpoint
    exact hpoint (by simp)
  · intro hplain
    rw [Binding.bindDeclarations_value root h.isName hplain,
      TypeTable.ofEntries_distinct
        (entries_distinct (fun _ => rfl) (nodup_of_failures hcontainer h hnil))]
    exact outlines_boundEntry symbols settings root tree

end

/-- Of a sample that passes with any settings, no member is lost, unless it is a field with a class
called `record`. -/
theorem sample_members_iff {text source : String} {tree : ClassTree} {settings : Settings}
    (hcontainer : ∀ part ∈ Text.dottedParts settings.container, IsName part ∧ isKeyword part = false)
    (hroot : IsName settings.rootClass) (files : Files) (htree : classesFor text settings = .ok tree)
    (hsource : sourceFor text settings = .ok source)
    (hpasses : ((({} : Compiler).validate source settings).run files {}).1 = .ok []) :
    ∃ analysis,
      ((Compiler.fresh source settings).run files {}).1 = .ok analysis ∧
        (outlines analysis.table = outlined tree settings ↔ ¬tree.HasRecordField settings) := by
  obtain ⟨hnamed, -⟩ := classesFor_wellNamed hroot htree
  obtain rfl : ClassTree.source tree settings = source := by
    simpa [sourceFor_eq htree] using hsource
  rw [Compiler.validate_fresh (source_not_blank tree _), Except.ok.injEq] at hpasses
  exact ⟨_, Compiler.fresh_apply _ _ files, outlines_eq_iff hcontainer hnamed hpasses⟩

theorem order_sample_members_iff :
    (∀ part ∈ Text.dottedParts ({} : Settings).container, IsName part ∧ isKeyword part = false) ∧
      IsName ({} : Settings).rootClass ∧
      ∃ analysis,
        ((Compiler.fresh (source orderTree {}) {}).run [] {}).1 = .ok analysis ∧
          (outlines analysis.table = outlined orderTree {} ↔ ¬orderTree.HasRecordField {}) := by
  have hs := usual_default true
  obtain ⟨hnamed, -⟩ := classesFor_wellNamed (usual_root hs) classesFor_orderSample
  exact ⟨default_container, usual_root hs,
    sample_members_iff default_container (usual_root hs) [] classesFor_orderSample
      (sourceFor_eq classesFor_orderSample)
      (usual_passes hs hnamed orderTree_apart orderTree_shallow [])⟩

def recordSettings : Settings := { capitalizeNames := false, accessors := false, annotations := false }

def recordSample : String := "\x7b\"record\":\x7b\"a\":1\x7d\x7d"

def recordTree : ClassTree :=
  ⟨⟨"Root", true, [⟨"record", "record", .classNamed "record"⟩]⟩,
    [⟨"record", false, [⟨"a", "a", .primitive .integer⟩]⟩]⟩

theorem classesFor_recordSample : classesFor recordSample recordSettings = .ok recordTree :=
  classesFor_of_toOption (by decide +kernel)

theorem record_repeats : Binding.repeats recordTree recordSettings = [] := by
  rw [Binding.repeats, Binding.declaredTypes_source]
  refine Binding.repeatedTypes_of_distinct ?_
  simp [classes, recordTree, declaredClasses, declaredClass, Binding.declaredTypes,
    Binding.declaredType, Binding.declaredMembers, classMembers, declaredFrom, declared, recordSettings,
    Binding.Declared.identity, Binding.Declared.fullName, joinNames]

theorem record_classes_silent (symbols : Binding.Symbols) (root : Binding.Scope) (n : Nat) :
    (Binding.bindDeclarations symbols (placeIn recordSettings root)
      (declaredClasses recordSettings n recordTree.classes)).reports = [] := by
  simp [classes, recordTree, declaredClasses, declaredClass, classMembers, declaredFrom, declared,
    recordSettings, annotations, MemberType.expr, Primitive.spelling, TypeExpr.isVoid,
    Binding.bindDeclarations, Binding.bindOutermost, Binding.bindInner, Binding.bindNested,
    Binding.bindHead, Binding.bindMembers, Binding.bindMember, Binding.bindField, Binding.bindBases,
    Binding.bindTypes, Binding.bindRecordParameters, Binding.bindAttributes, Binding.bindType,
    Binding.claims, Binding.claimAll, Binding.claimProblems, Entries.get?]

theorem record_failures (hnamed : recordTree.WellNamed) :
    (analysisOf (source recordTree recordSettings) recordSettings).failures = [] := by
  have haccepts : ∀ c ∈ recordTree.classes, Accepts recordSettings c := by
    simp [classes, recordTree, Accepts, Accepted, MemberType.depth, modifierLike, recordSettings]
  have hplaced : Binding.Placed recordTree recordSettings := ⟨default_apart, hnamed.isName⟩
  obtain ⟨-, hreports⟩ := Binding.bindUnit_source (Binding.symbolsOf recordTree recordSettings) recordTree
    (show recordSettings.container ≠ "" from default_apart.ne_empty) default_apart.named
  rw [failures_iff_of_accepts default_container hnamed.allNamed haccepts, hreports, record_repeats,
    record_classes_silent, Binding.bindImports_generated hplaced]
  simp

/-- Not every member is kept: here one is compiled as a type, and all passes. -/
theorem record_sample_passes :
    sourceFor recordSample recordSettings = .ok (source recordTree recordSettings) ∧
      ((({} : Compiler).validate (source recordTree recordSettings) recordSettings).run [] {}).1 =
        .ok [] ∧
      ∃ analysis,
        ((Compiler.fresh (source recordTree recordSettings) recordSettings).run [] {}).1 =
          .ok analysis ∧
        outlines analysis.table ≠ outlined recordTree recordSettings := by
  have hroot : IsName recordSettings.rootClass := by decide
  obtain ⟨hnamed, -⟩ := classesFor_wellNamed hroot classesFor_recordSample
  have hnil := record_failures hnamed
  refine ⟨sourceFor_eq classesFor_recordSample, ?_, _, Compiler.fresh_apply _ _ [], ?_⟩
  · rw [Compiler.validate_fresh (source_not_blank recordTree recordSettings), hnil]
  · rw [Ne, outlines_eq_iff default_container hnamed hnil, not_not]
    exact ⟨rfl, _, List.mem_cons_self, _, List.mem_cons_self, rfl⟩

end ClassTree
end DataClasses
