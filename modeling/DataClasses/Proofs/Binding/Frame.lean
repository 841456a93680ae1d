import DataClasses.Proofs.Binding.Reach
import DataClasses.Proofs.Binding.Symbols

/-!
# Names out of reach

Sets of known names that have the same ones within reach of the words of a source give all its names the
same meanings, and the same entries and reports come of it.
-/

set_option autoImplicit false

namespace DataClasses.Binding

structure Symbols.AgreeOn (reach : String → Prop) (s s' : Symbols) : Prop where
  namespaces : ∀ full, reach full → (full ∈ s.namespaces ↔ full ∈ s'.namespaces)
  types : ∀ full, reach full → ∀ arity, (full, arity) ∈ s.types ↔ (full, arity) ∈ s'.types

theorem Symbols.mem_arities {s : Symbols} {full : String} {arity : Nat} :
    arity ∈ s.arities full ↔ (full, arity) ∈ s.types := by
  simp [arities]

/-- The least number is that of the numbers that there are, however often and in whatever order. -/
theorem min?_congr {l k : List Nat} (h : ∀ n, n ∈ l ↔ n ∈ k) : l.min? = k.min? := by
  apply Option.ext
  intro least
  rw [List.min?_eq_some_iff, List.min?_eq_some_iff, h]
  simp only [h]

theorem findSome?_congr {α β : Type} {l : List α} {f g : α → Option β} (h : ∀ a ∈ l, f a = g a) :
    l.findSome? f = l.findSome? g := by
  induction l with
  | nil => rfl
  | cons a l ih =>
    obtain ⟨ha, hl⟩ := List.forall_mem_cons.mp h
    rw [List.findSome?_cons, List.findSome?_cons, ha, ih hl]

namespace Symbols.AgreeOn

variable {reach : String → Prop} {s s' : Symbols} (hagree : s.AgreeOn reach s')

include hagree

theorem isNamespace {full : String} (hfull : reach full) : s.isNamespace full = s'.isNamespace full := by
  rw [Bool.eq_iff_iff, isNamespace_iff, isNamespace_iff]
  exact hagree.namespaces full hfull

theorem probe {full : String} (hfull : reach full) (arity : Nat) :
    s.probe full arity = s'.probe full arity := by
  have hknown : ∀ n, n ∈ s.arities full ↔ n ∈ s'.arities full := by
    intro n
    rw [mem_arities, mem_arities]
    exact hagree.types full hfull n
  have hcontains : (s.arities full).contains arity = (s'.arities full).contains arity := by
    rw [Bool.eq_iff_iff, List.contains_iff_mem, List.contains_iff_mem]
    exact hknown arity
  rw [Symbols.probe, Symbols.probe, hcontains, min?_congr hknown]

theorem hasType {full : String} (hfull : reach full) (arity : Nat) :
    s.hasType full arity = s'.hasType full arity := by
  rw [Symbols.hasType, Symbols.hasType, hagree.probe hfull]

theorem otherArity? {full : String} (hfull : reach full) (arity : Nat) :
    s.otherArity? arity full = s'.otherArity? arity full := by
  rw [Symbols.otherArity?, Symbols.otherArity?, hagree.probe hfull]

end Symbols.AgreeOn

variable {reach : String → Prop} {symbols symbols' : Symbols} {place : Place}

section

variable (hagree : symbols.AgreeOn reach symbols') (hplace : place.Within reach)

section

variable {name : String} (hname : Joins reach name) (arity : Nat)

include hagree hname

theorem inScope_agree {scope : Scope} (hscope : scope.Within reach) :
    inScope symbols name arity scope = inScope symbols' name arity scope := by
  have hinner := hname _ hscope.name
  have himported : importedTypes symbols scope name arity = importedTypes symbols' scope name arity := by
    apply List.filter_congr
    intro full hfull
    obtain ⟨outer, houter, rfl⟩ := List.mem_map.mp hfull
    exact hagree.hasType (hname _ (hscope.imported outer houter)) arity
  rw [inScope, inScope, hagree.hasType hinner, hagree.isNamespace hinner, himported]

theorem inEnclosing_agree {outer : String} (houter : reach outer) :
    inEnclosing symbols name arity outer = inEnclosing symbols' name arity outer := by
  rw [inEnclosing, inEnclosing, hagree.hasType (hname _ houter)]

include hplace in
theorem lookupSimple_agree :
    lookupSimple symbols place name arity = lookupSimple symbols' place name arity := by
  have henclosing := findSome?_congr fun outer houter =>
    inEnclosing_agree hagree hname arity (hplace.enclosing outer houter)
  have hscopes := findSome?_congr fun scope hscope =>
    inScope_agree hagree hname arity (hplace.scopes scope hscope)
  have hothers := findSome?_congr fun full hfull =>
    hagree.otherArity? (candidates_within hplace hname full hfull) arity
  rw [lookupSimple, lookupSimple, henclosing, hscopes, hothers]

theorem lookupInside_agree {outer : Meaning} (houter : reach outer.name) :
    lookupInside symbols outer name arity = lookupInside symbols' outer name arity := by
  have hfull := hname _ houter
  cases outer with
  | scope scope =>
    change reach (joinNames scope name) at hfull
    simp only [lookupInside, hagree.probe hfull, hagree.isNamespace hfull]
  | type type =>
    change reach (joinNames type name) at hfull
    simp only [lookupInside, hagree.probe hfull]
  | typeParameter type => rfl
  | native type => rfl

theorem lookupRoot_agree (hroot : reach "") :
    lookupRoot symbols name arity = lookupRoot symbols' name arity := by
  have hfull : reach name := hname "" hroot
  rw [lookupRoot, lookupRoot, hagree.hasType hfull, hagree.isNamespace hfull]

end

include hagree

theorem lookupRest_agree {outer : Meaning} (houter : reach outer.name) {rest : List (String × Nat)}
    (hrest : ∀ part ∈ rest, Joins reach part.1) :
    lookupRest symbols outer rest = lookupRest symbols' outer rest := by
  induction rest generalizing outer with
  | nil => rfl
  | cons part rest ih =>
    obtain ⟨hpart, hrest⟩ := List.forall_mem_cons.mp hrest
    rw [lookupRest_cons, lookupRest_cons, ← lookupInside_agree hagree hpart part.2 houter]
    cases hinner : lookupInside symbols outer part.1 part.2 with
    | error p => rfl
    | ok inner =>
      apply ih _ hrest
      rw [(of_lookupInside hinner).1]
      exact hpart _ houter

include hplace in
theorem lookup_agree (hroot : reach "") {parts : List (String × Nat)}
    (hparts : ∀ part ∈ parts, Joins reach part.1) (fromRoot : Bool) :
    lookup symbols place parts fromRoot = lookup symbols' place parts fromRoot := by
  cases parts with
  | nil => rfl
  | cons part rest =>
    obtain ⟨hpart, hrest⟩ := List.forall_mem_cons.mp hparts
    have hfirst : lookupFirst symbols place fromRoot part = lookupFirst symbols' place fromRoot part := by
      rw [lookupFirst, lookupFirst, lookupRoot_agree hagree hpart part.2 hroot,
        lookupSimple_agree hagree hplace hpart]
    rw [lookup_cons, lookup_cons, ← hfirst]
    cases hmeant : lookupFirst symbols place fromRoot part with
    | error p => rfl
    | ok first => exact lookupRest_agree hagree (lookupFirst_within hroot hplace hpart hmeant) hrest

omit hagree in
theorem bindTypes_congr {ts : List TypeExpr}
    (h : ∀ t ∈ ts, bindType symbols place t = bindType symbols' place t) :
    bindTypes symbols place ts = bindTypes symbols' place ts := by
  rw [bindTypes_eq, bindTypes_eq, List.map_congr_left fun t ht => congrArg Reported.value (h t ht),
    List.flatMap_congr fun t ht => congrArg Reported.reports (h t ht)]

include hplace in
theorem bindType_agree {t : TypeExpr} (hwords : Closed reach t.words) :
    bindType symbols place t = bindType symbols' place t := by
  induction t using TypeExpr.induct with
  | predefined keyword line => rfl
  | named segments fromRoot line ih =>
    have harguments : bindTypes symbols place (argumentsOf segments) =
        bindTypes symbols' place (argumentsOf segments) := by
      apply bindTypes_congr
      intro t ht
      obtain ⟨s, hs, ht⟩ := List.mem_flatMap.mp ht
      apply ih s hs t ht (hwords.subset _)
      intro w hw
      exact TypeExpr.mem_segmentWords.mpr ⟨s, hs, .inr ⟨t, ht, hw⟩⟩
    have hname : bindName symbols place segments fromRoot line =
        bindName symbols' place segments fromRoot line := by
      rw [bindName, bindName, lookup_agree hagree hplace hwords.root]
      intro part hpart
      obtain ⟨s, hs, rfl⟩ := List.mem_map.mp hpart
      exact hwords.joined s.1 (TypeExpr.mem_segmentWords.mpr ⟨s, hs, .inl rfl⟩)
    rw [bindType_named, bindType_named, harguments, hname]
  | array element rank ih => rw [bindType, bindType, ih hwords]
  | nullable inner ih => rw [bindType, bindType, ih hwords]
  | tuple elements line ih =>
    have helements : bindTypes symbols place elements = bindTypes symbols' place elements := by
      apply bindTypes_congr
      intro t ht
      apply ih t ht (hwords.subset _)
      intro w hw
      exact TypeExpr.mem_allWords.mpr ⟨t, ht, hw⟩
    rw [bindType, bindType, helements]

include hplace in
theorem searchAttribute_agree (hroot : reach "") {outer : List String}
    (houter : ∀ w ∈ outer, Joins reach w)
    (line : Nat) {names : List String} (hnames : ∀ w ∈ names, Joins reach w) (search : AttributeSearch) :
    searchAttribute symbols place outer line names search =
      searchAttribute symbols' place outer line names search := by
  induction names generalizing search with
  | nil => rfl
  | cons name names ih =>
    obtain ⟨hname, hnames⟩ := List.forall_mem_cons.mp hnames
    have hparts : ∀ part ∈ (outer ++ [name]).map fun part => (part, 0), Joins reach part.1 :=
      joins_parts (List.forall_mem_append.mpr ⟨houter, List.forall_mem_singleton.mpr hname⟩)
    simp only [searchAttribute, lookup_agree hagree hplace hroot hparts, ih hnames]

include hplace in
theorem attributeReports_agree {a : Attribute} (hwords : Closed reach a.words) :
    attributeReports symbols place a = attributeReports symbols' place a := by
  rw [attributeReports, attributeReports]
  split
  · rfl
  · next last hlast =>
    have hmem : last ∈ a.words := List.mem_of_getLast? hlast
    apply searchAttribute_agree hagree hplace hwords.root
    · intro w hw
      exact hwords.joined w (List.dropLast_subset _ hw)
    · rw [attributeCandidates]
      split
      · exact List.forall_mem_singleton.mpr (hwords.joined last hmem)
      · exact List.forall_mem_cons.mpr
          ⟨hwords.suffixed last hmem, List.forall_mem_singleton.mpr (hwords.joined last hmem)⟩

include hplace in
theorem bindAttributes_agree {attributes : List Attribute}
    (hwords : Closed reach (attributes.flatMap (·.words))) :
    bindAttributes symbols place attributes = bindAttributes symbols' place attributes := by
  rw [bindAttributes, bindAttributes,
    List.flatMap_congr fun a ha => attributeReports_agree hagree hplace (hwords.item ha)]

include hplace in
theorem bindImportsInto_agree {scope : Scope} {imports : List Import}
    (hwords : Closed reach (imports.flatMap (·.words))) :
    bindImportsInto symbols place scope imports = bindImportsInto symbols' place scope imports := by
  induction imports generalizing scope with
  | nil => rfl
  | cons i imports ih =>
    rw [List.flatMap_cons] at hwords
    have hparts : ∀ part ∈ i.target.parts.map fun part => (part, 0), Joins reach part.1 :=
      joins_parts hwords.left.joined
    simp only [bindImportsInto, lookup_agree hagree hplace hwords.root hparts, ih hwords.right]

include hplace in
theorem bindImports_agree {name : String} (hname : reach name) {imports : List Import}
    (hwords : Closed reach (imports.flatMap (·.words))) :
    bindImports symbols place name imports = bindImports symbols' place name imports :=
  bindImportsInto_agree hagree (hplace.addScope (.plain hname)) hwords

include hplace in
theorem bindParameters_agree {parameters : List Parameter}
    (hwords : Closed reach (parameters.flatMap (·.words))) :
    bindParameters symbols place parameters = bindParameters symbols' place parameters := by
  induction parameters with
  | nil => rfl
  | cons p parameters ih =>
    rw [List.flatMap_cons] at hwords
    rw [bindParameters, bindParameters, bindAttributes_agree hagree hplace hwords.left.left,
      bindType_agree hagree hplace hwords.left.right, ih hwords.right]

include hplace in
theorem bindRecordParameters_agree {parameters : List Parameter}
    (hwords : Closed reach (parameters.flatMap (·.words))) :
    bindRecordParameters symbols place parameters = bindRecordParameters symbols' place parameters := by
  induction parameters with
  | nil => rfl
  | cons p parameters ih =>
    rw [List.flatMap_cons] at hwords
    rw [bindRecordParameters, bindRecordParameters, bindAttributes_agree hagree hplace hwords.left.left,
      bindType_agree hagree hplace hwords.left.right, ih hwords.right]

include hplace in
theorem bindReturn_agree {returns : Option TypeExpr}
    (hwords : Closed reach (returns.toList.flatMap (·.words))) :
    bindReturn symbols place returns = bindReturn symbols' place returns := by
  cases returns with
  | none => rfl
  | some t => rw [bindReturn, bindReturn, bindType_agree hagree hplace (hwords.item List.mem_cons_self)]

include hplace in
theorem bindMember_agree (full : String) {m : Member} (hwords : Closed reach m.words) :
    bindMember symbols place full m = bindMember symbols' place full m := by
  cases m with
  | field d =>
    rw [bindMember, bindMember, bindField, bindField, bindAttributes_agree hagree hplace hwords.left,
      bindType_agree hagree hplace hwords.right]
  | property d =>
    rw [bindMember, bindMember, bindProperty, bindProperty,
      bindAttributes_agree hagree hplace hwords.left, bindType_agree hagree hplace hwords.right]
  | method d =>
    have hinner : Place.Within reach
        { place with typeParameters := place.typeParameters ++ d.typeParameters } :=
      ⟨hplace.scopes, hplace.enclosing⟩
    rw [bindMember, bindMember, bindMethod, bindMethod,
      bindAttributes_agree hagree hinner hwords.left.left,
      bindReturn_agree hagree hinner hwords.left.right, bindParameters_agree hagree hinner hwords.right]
  | constructor d =>
    rw [bindMember, bindMember, bindConstructor, bindConstructor,
      bindAttributes_agree hagree hplace hwords.left.left, bindParameters_agree hagree hplace hwords.right]
  | enumValue d =>
    rw [bindMember, bindMember, bindEnumValue, bindEnumValue, bindAttributes_agree hagree hplace hwords]
  | nested head members => rfl

include hplace in
theorem bindMembers_agree (head : TypeHead) (full : String) (used : UsedNames) {ms : List Member}
    (hwords : Closed reach (Member.allWords ms)) :
    bindMembers symbols place head full used ms = bindMembers symbols' place head full used ms := by
  induction ms generalizing used with
  | nil => rfl
  | cons m ms ih =>
    simp only [bindMembers, bindMember_agree hagree hplace full hwords.left, fun used => ih used hwords.right]

include hplace in
theorem bindHead_agree {c : Container} (hfull : reach c.full) {head : TypeHead} {ms : List Member}
    (hwords : Closed reach (Member.words (.nested head ms))) :
    bindHead symbols place c head ms = bindHead symbols' place c head ms := by
  have hhead := hwords.left
  have hinner : (place.into head (c.into head).full).Within reach :=
    hplace.into head (hhead.joined head.name List.mem_cons_self _ hfull)
  have hbases : bindTypes symbols (place.into head (c.into head).full) head.bases =
      bindTypes symbols' (place.into head (c.into head).full) head.bases :=
    bindTypes_congr fun t ht => bindType_agree hagree hinner (hhead.tail.left.right.item ht)
  rw [bindHead, bindHead, bindAttributes_agree hagree hinner hhead.tail.left.left, bindBases, bindBases,
    hbases, bindRecordParameters_agree hagree hinner hhead.tail.right,
    bindMembers_agree hagree hinner head _ [] hwords.right]

end

mutual

theorem bindInner_agree (hagree : symbols.AgreeOn reach symbols') {place : Place}
    (hplace : place.Within reach) {c : Container} (hfull : reach c.full) :
    (m : Member) → Closed reach m.words → bindInner symbols place c m = bindInner symbols' place c m
  | .nested head members, hwords => by
    have hinner : reach (c.into head).full := hwords.joined head.name List.mem_cons_self _ hfull
    rw [bindInner, bindInner]
    dsimp only
    rw [bindHead_agree hagree hplace hfull hwords,
      bindNested_agree hagree (hplace.into head hinner) hinner members hwords.right]
  | .field _, _ => rfl
  | .property _, _ => rfl
  | .method _, _ => rfl
  | .constructor _, _ => rfl
  | .enumValue _, _ => rfl

theorem bindNested_agree (hagree : symbols.AgreeOn reach symbols') {place : Place}
    (hplace : place.Within reach) {c : Container} (hfull : reach c.full) :
    (ms : List Member) → Closed reach (Member.allWords ms) →
      bindNested symbols place c ms = bindNested symbols' place c ms
  | [], _ => rfl
  | m :: rest, hwords => by
    rw [bindNested, bindNested, bindInner_agree hagree hplace hfull m hwords.left,
      bindNested_agree hagree hplace hfull rest hwords.right]

end

/-- The members of a namespace are bound inside of it, and those behind it are not. -/
theorem bindDeclarations_scope (symbols : Symbols) (place : Place) (head : ScopeHead)
    (members rest : List Declaration) :
    bindDeclarations symbols place (.scope head members :: rest) = (do
      let _ ← bindImports symbols (openScopes place place.scopeName head.name.parts).1
        (openScopes place place.scopeName head.name.parts).2 head.imports
      let inside ← bindDeclarations symbols (head.inside symbols place) members
      let others ← bindDeclarations symbols place rest
      pure (inside ++ others)) := by
  rw [bindDeclarations]
  rfl

theorem bindDeclarations_agree (hagree : symbols.AgreeOn reach symbols') {place : Place}
    (hplace : place.Within reach) : (ds : List Declaration) → Closed reach (Declaration.allWords ds) →
      bindDeclarations symbols place ds = bindDeclarations symbols' place ds
  | [], _ => by rw [bindDeclarations, bindDeclarations]
  | .scope head members :: rest, hwords => by
    have hhead := hwords.left.left
    obtain ⟨hopened, hfull⟩ := openScopes_within hhead.left.joined hplace (hplace.scopeName hwords.root)
    have himports := bindImports_agree hagree hopened hfull hhead.right
    have hinside : head.inside symbols place = head.inside symbols' place := by
      rw [ScopeHead.inside, ScopeHead.inside, himports]
    rw [bindDeclarations_scope, bindDeclarations_scope, himports, ← hinside,
      bindDeclarations_agree hagree (ScopeHead.inside_within hhead hplace) members hwords.left.right,
      bindDeclarations_agree hagree hplace rest hwords.right]
  | .type head members :: rest, hwords => by
    rw [bindDeclarations, bindDeclarations, bindOutermost, bindOutermost,
      bindInner_agree hagree hplace (hplace.scopeName hwords.root) (.nested head members) hwords.left,
      bindDeclarations_agree hagree hplace rest hwords.right]

/-- Known names out of reach do not matter to a source. -/
theorem bindUnit_agree (hagree : symbols.AgreeOn reach symbols') {u : SourceUnit}
    (hwords : Closed reach u.words) : bindUnit symbols u = bindUnit symbols' u := by
  have hunit (s : Symbols) : bindUnit s u = (do
      say (repeatedTypes [] (declaredTypes "" u.members))
      let _ ← bindImports s {} "" u.imports
      bindDeclarations s (u.rootPlace s) u.members) := rfl
  have hempty : Place.Within reach {} := ⟨List.forall_mem_nil _, List.forall_mem_nil _⟩
  have himports := bindImports_agree hagree hempty hwords.root hwords.left
  have hplace : u.rootPlace symbols = u.rootPlace symbols' := by
    rw [SourceUnit.rootPlace, SourceUnit.rootPlace, himports]
  rw [hunit, hunit, himports, ← hplace,
    bindDeclarations_agree hagree (u.rootPlace_within symbols hwords) u.members hwords.right]

end DataClasses.Binding
