import DataClasses.Proofs.Binding.Members
import DataClasses.Proofs.Binding.Repeats

/-!
# Binding generated source

The classes of a tree are bound to one entry each, in order. What is reported are classes of one
name, members of one name, and members that are called like their class.
-/

set_option autoImplicit false

namespace DataClasses.Binding

open Identifier (IsName)
open ClassTree

section

variable {symbols : Symbols} {tree : ClassTree} {settings : Settings} {c : ClassShape}

def classHead (settings : Settings) (n : Nat) (name : String) : TypeHead :=
  ⟨.plainClass, name, [], ["public"], [], [], [], classLineFrom settings n⟩

def outermost (settings : Settings) : Container := ⟨settings.container, settings.container, ""⟩

def constructorEntries (settings : Settings) (c : ClassShape) : List MemberEntry :=
  if settings.constructors then [⟨c.name, .constructor, none, none⟩] else []

def boundEntry (symbols : Symbols) (settings : Settings) (root : Scope) (c : ClassShape) : TypeEntry where
  scope := settings.container
  name := c.name
  kind := .plainClass
  typeParameters := []
  baseTypes := []
  members :=
    constructorEntries settings c ++
      c.properties.map fun p =>
        memberEntry settings
          (bindType symbols (memberPlace settings root c.name) (p.type.expr 0)).value p

theorem bindHead_class (root : Scope) (n : Nat) (members : List Member) :
    bindHead symbols (placeIn settings root) (outermost settings) (classHead settings n c.name) members =
      (do
        let entries ← bindMembers symbols (memberPlace settings root c.name) (classHead settings n c.name)
          (joinNames settings.container c.name) [] members
        pure ⟨settings.container, c.name, .plainClass, [], [], entries⟩) := rfl

theorem bindMembers_class (symbols : Symbols) (settings : Settings) (c : ClassShape) (place : Place)
    (head : TypeHead) (full : String) (n : Nat) :
    ∃ m,
      (bindMembers symbols place head full [] (classMembers settings n c)).value =
        constructorEntries settings c ++
          (bindMembers symbols place head full [] (declaredFrom settings m c.properties)).value ∧
      (bindMembers symbols place head full [] (classMembers settings n c)).reports =
        (bindMembers symbols place head full [] (declaredFrom settings m c.properties)).reports := by
  rw [classMembers, constructorEntries]
  split
  · refine ⟨n + 4, rfl, ?_⟩
    simp [bindMembers, declaredConstructor, bindMember, bindConstructor, bindAttributes, bindParameters,
      claims, claimAll]
  · exact ⟨n, rfl, rfl⟩

theorem bindNested_plain (place : Place) (container : Container)
    (h : ∀ p ∈ c.properties, IsPlain settings p)
    (n : Nat) : bindNested symbols place container (classMembers settings n c) = pure [] := by
  have hmembers (ps : List Property) (hps : ∀ p ∈ ps, IsPlain settings p) (n : Nat) :
      bindNested symbols place container (declaredFrom settings n ps) = pure [] := by
    induction ps generalizing n with
    | nil => simp [declaredFrom, bindNested]
    | cons p ps ih =>
      have hfirst : bindInner symbols place container (declared settings n p) = pure [] := by
        rcases declared_cases (hps p (by simp)) n with ⟨-, hdeclared⟩ | ⟨-, hdeclared⟩
        · simp [hdeclared, bindInner]
        · simp [hdeclared, bindInner]
      rw [declaredFrom, bindNested, hfirst, Reported.bind_pure, ih fun q hq => hps q (by simp [hq])]
      rfl
  rw [classMembers]
  split
  · rw [bindNested, declaredConstructor, hmembers c.properties h]
    simp [bindInner]
    rfl
  · exact hmembers c.properties h n

theorem bindOutermost_plain (symbols : Symbols) (root : Scope) (hname : IsName c.name)
    (h : ∀ p ∈ c.properties, IsPlain settings p) (n m : Nat) :
    let bound := bindOutermost symbols (placeIn settings root) (classHead settings n c.name)
      (classMembers settings m c)
    bound.value = [boundEntry symbols settings root c] ∧
      ∃ k, bound.reports =
        (bindMembers symbols (memberPlace settings root c.name) (classHead settings n c.name)
          (joinNames settings.container c.name) [] (declaredFrom settings k c.properties)).reports := by
  have hempty : c.name.isEmpty = false := by simpa using hname.ne_empty
  obtain ⟨k, hvalue, hreports⟩ := bindMembers_class symbols settings c (memberPlace settings root c.name)
    (classHead settings n c.name) (joinNames settings.container c.name) m
  have hscope : (placeIn settings root).scopeName = settings.container := rfl
  rw [bindMembers_value _ h] at hvalue
  have hinner : bindOutermost symbols (placeIn settings root) (classHead settings n c.name)
      (classMembers settings m c) =
        (do
          let entry ← bindHead symbols (placeIn settings root) (outermost settings)
            (classHead settings n c.name) (classMembers settings m c)
          pure [entry]) := by
    simp only [bindOutermost, bindInner, hscope, classHead, hempty, Bool.false_eq_true, if_false,
      bindNested_plain _ _ h]
    rfl
  rw [hinner, bindHead_class]
  refine ⟨?_, k, ?_⟩
  · simp only [Reported.bind_value, Reported.pure_value, hvalue]
    rfl
  · simp only [Reported.bind_reports, Reported.pure_reports, hreports, List.append_nil]

def Clear (c : ClassShape) : Prop :=
  (c.properties.map (·.name)).Nodup ∧ ∀ p ∈ c.properties, p.name ≠ c.name

theorem bindDeclarations_value {cs : List ClassShape} (root : Scope) (hnames : ∀ c ∈ cs, IsName c.name)
    (hplain : ∀ c ∈ cs, ∀ p ∈ c.properties, IsPlain settings p) (n : Nat) :
    (bindDeclarations symbols (placeIn settings root) (declaredClasses settings n cs)).value =
      cs.map (boundEntry symbols settings root) := by
  induction cs generalizing n with
  | nil => simp [declaredClasses, bindDeclarations]
  | cons c cs ih =>
    have hrest := ih (fun d hd => hnames d (by simp [hd])) (fun d hd => hplain d (by simp [hd]))
      (n + (classLines settings c).length)
    have hfirst := (bindOutermost_plain symbols root (hnames c (by simp))
      (hplain c (by simp)) n (classLineFrom settings n + 2)).1
    rw [declaredClasses, declaredClass, bindDeclarations]
    simp only [Reported.bind_value, Reported.pure_value, hrest]
    rw [← classHead, hfirst]
    rfl

/-- Nothing is reported of classes just if each of them is clear. -/
theorem bindDeclarations_verdict (hb : Bindable tree settings)
    (hmembers : ∀ c ∈ tree.classes, ∀ p ∈ c.properties,
      IsName p.name ∧ ∀ n ∈ p.type.class?, n ∈ tree.classes.map (·.name))
    {cs : List ClassShape} (hsub : cs ⊆ tree.classes) (n : Nat) :
    Verdict (bindDeclarations (symbolsOf tree settings) (placeIn settings (rootScope settings))
      (declaredClasses settings n cs)).reports (∀ c ∈ cs, Clear c) := by
  induction cs generalizing n with
  | nil =>
    rw [declaredClasses, bindDeclarations]
    exact .silent (List.forall_mem_nil _)
  | cons c cs ih =>
    obtain ⟨hc, hcs⟩ := List.cons_subset.mp hsub
    have hsilent : ∀ p ∈ c.properties, ∀ n,
        (bindMember (symbolsOf tree settings) (classPlace settings c.name)
          (joinNames settings.container c.name) (declared settings n p)).reports = [] :=
      fun p hp n => bindMember_reports hb (hb.named c hc) _ (hb.plain c hc p hp) (hmembers c hc p hp).2 n
    obtain ⟨k, hfirst⟩ := (bindOutermost_plain (symbolsOf tree settings) (rootScope settings)
      (hb.named c hc) (hb.plain c hc) n (classLineFrom settings n + 2)).2
    have hclear : Verdict (bindOutermost (symbolsOf tree settings) (placeIn settings (rootScope settings))
        (classHead settings n c.name) (classMembers settings (classLineFrom settings n + 2) c)).reports
        (Clear c) := by
      have hverdict := bindMembers_verdict (classHead settings n c.name)
        (by simp [classHead]) (fun p hp => (hmembers c hc p hp).1.ne_empty) hsilent []
        (by simp [Exclusive]) k
      rw [← hfirst] at hverdict
      exact hverdict.congr (by simp [Clear, classHead])
    have hrest := ih hcs (n + (classLines settings c).length)
    have hreports : (bindDeclarations (symbolsOf tree settings) (placeIn settings (rootScope settings))
        (declaredClasses settings n (c :: cs))).reports =
          (bindOutermost (symbolsOf tree settings) (placeIn settings (rootScope settings))
            (classHead settings n c.name) (classMembers settings (classLineFrom settings n + 2) c)).reports ++
          (bindDeclarations (symbolsOf tree settings) (placeIn settings (rootScope settings))
            (declaredClasses settings (n + (classLines settings c).length) cs)).reports := by
      rw [declaredClasses, declaredClass, bindDeclarations, ← classHead]
      simp
    rw [hreports]
    exact (hclear.append hrest).congr (by rw [List.forall_mem_cons])

theorem bindImport_name (scope : Scope) (i : Import) (meaning : Meaning) :
    (bindImport scope i meaning).value.name = scope.name := by
  unfold bindImport
  cases i.shortName with
  | some name => rfl
  | none =>
    cases hstatic : i.isStatic with
    | true => cases meaning <;> rfl
    | false =>
      cases meaning with
      | scope full =>
        dsimp only
        split
        · rfl
        · rfl
      | type name => rfl
      | typeParameter name => rfl
      | native name => rfl

theorem bindImportsInto_name (place : Place) (scope : Scope) (imports : List Import) :
    (bindImportsInto symbols place scope imports).value.name = scope.name := by
  induction imports generalizing scope with
  | nil => simp [bindImportsInto]
  | cons i imports ih =>
    rw [bindImportsInto]
    split
    · exact ih scope
    · split
      · exact ih scope
      · rw [Reported.bind_value, ih, bindImport_name]

theorem bindUnit_source (symbols : Symbols) (tree : ClassTree) (hne : settings.container ≠ "")
    (hcontainer : ∀ part ∈ Text.dottedParts settings.container, IsName part) :
    let imports := bindImports symbols {} "" (declaredSource tree settings).imports
    let classes := bindDeclarations symbols (placeIn settings imports.value)
      (declaredClasses settings (scopeLine settings + 2) tree.classes)
    (bindUnit symbols (declaredSource tree settings)).value = classes.value ∧
      (bindUnit symbols (declaredSource tree settings)).reports =
        repeats tree settings ++ (imports.reports ++ classes.reports) := by
  intro imports classes
  have hscope : Place.scopeName { scopes := [imports.value] } = "" := bindImportsInto_name _ _ _
  have hopen := openScopes_eq (Text.dottedParts_ne_nil settings.container)
    { scopes := [imports.value] } ""
  rw [foldl_dottedParts hne hcontainer] at hopen
  have hscopes : bindDeclarations symbols { scopes := [imports.value] }
      (declaredSource tree settings).members = (do
        let scope ← bindImports symbols
          { scopes := outerScopes "" (Text.dottedParts settings.container) ++ [imports.value] }
          settings.container []
        let inside ← bindDeclarations symbols
          { scopes := scope :: (outerScopes "" (Text.dottedParts settings.container) ++ [imports.value]) }
          (declaredClasses settings (scopeLine settings + 2) tree.classes)
        let others ← pure []
        pure (inside ++ others)) := by
    simp only [declaredSource, bindDeclarations, hscope, hopen]
  have hunit : bindUnit symbols (declaredSource tree settings) = (do
      say (repeats tree settings)
      let root ← imports
      bindDeclarations symbols { scopes := [root] } (declaredSource tree settings).members) := rfl
  rw [hunit]
  constructor
  · simp only [Reported.bind_value, Reported.pure_value, hscopes, List.append_nil]
    rfl
  · simp only [Reported.bind_reports, Reported.pure_reports, Reported.say_reports, hscopes,
      List.append_nil]
    rfl

def entryOf (settings : Settings) (timestamp : String) (c : ClassShape) : TypeEntry where
  scope := settings.container
  name := c.name
  kind := .plainClass
  typeParameters := []
  baseTypes := []
  members :=
    constructorEntries settings c ++
      c.properties.map fun p =>
        memberEntry settings (some (p.type.nameIn settings.container timestamp)) p

/-- Every class of a tree is bound to its entry, and nothing is reported just if no two classes have
one name and all of them are clear. -/
theorem bindUnit_generated (hb : Bindable tree settings)
    (hmembers : ∀ c ∈ tree.classes, ∀ p ∈ c.properties,
      IsName p.name ∧ ∀ n ∈ p.type.class?, n ∈ tree.classes.map (·.name)) :
    let bound := bindUnit (symbolsOf tree settings) (declaredSource tree settings)
    bound.value = tree.classes.map (entryOf settings (timestampIn tree settings)) ∧
      Verdict bound.reports
        ((tree.classes.map (·.name)).Nodup ∧ ∀ c ∈ tree.classes, Clear c) := by
  obtain ⟨hvalue, hreports⟩ := bindUnit_source (symbolsOf tree settings) tree
    hb.apart.ne_empty hb.apart.named
  have himports := bindImports_generated hb.toPlaced
  dsimp only
  rw [hvalue, hreports, himports]
  constructor
  · rw [Reported.pure_value, bindDeclarations_value _ hb.named hb.plain]
    refine List.map_congr_left fun c hc => ?_
    have hentries := List.map_congr_left fun p hp => congrArg (memberEntry settings · p)
      (congrArg Reported.value (bindType_expr hb (hb.named c hc) 0 (hmembers c hc p hp).2))
    simp only [boundEntry, entryOf, hentries, Reported.pure_value]
  · have hrepeats := repeats_verdict settings hb.named hb.plain
    have hclasses := bindDeclarations_verdict hb hmembers (List.Subset.refl _) (scopeLine settings + 2)
    exact hrepeats.append hclasses

end

end DataClasses.Binding
