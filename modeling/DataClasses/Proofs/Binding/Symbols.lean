import DataClasses.Proofs.Declaration.Sources
import DataClasses.Proofs.Reference.Exports

/-!
# The names that generated source can refer to

What the libraries export lies below their roots. What a source declares are its classes, and the
namespaces around them.
-/

set_option autoImplicit false

namespace DataClasses.Binding

open Identifier (IsName)
open Assembly (standard stem Tidy TidyType)

namespace Symbols

theorem hasType_iff {s : Symbols} {name : String} {arity : Nat} :
    s.hasType name arity = true ↔ (name, arity) ∈ s.types := by
  have hmem : (s.arities name).contains arity = true ↔ (name, arity) ∈ s.types := by
    simp [arities]
  rw [← hmem, hasType, probe]
  cases hfound : (s.arities name).contains arity with
  | true => simp
  | false =>
    cases (s.arities name).min? with
    | none => simp
    | some least => simp

theorem isNamespace_iff {s : Symbols} {name : String} :
    s.isNamespace name = true ↔ name ∈ s.namespaces := by
  simp [isNamespace]

theorem mem_types_append {a b : Symbols} {t : String × Nat} :
    t ∈ (a.append b).types ↔ t ∈ a.types ∨ t ∈ b.types := List.mem_append

theorem mem_namespaces_append {a b : Symbols} {name : String} :
    name ∈ (a.append b).namespaces ↔ name ∈ a.namespaces ∨ name ∈ b.namespaces := List.mem_append

end Symbols

def Rooted (name : String) : Prop := ∃ root ∈ Assembly.roots, (partsOf name).head? = some root

theorem rooted_of_tidy {n : ExportedNamespace} (h : Tidy n) : Rooted n.name := by
  obtain ⟨root, hroot, hhead⟩ := h.root
  refine ⟨root, hroot, ?_⟩
  have hne : n.name ≠ "" := by
    intro hempty
    rw [hempty] at hhead
    have hparts : Text.dottedParts "" = [""] := by decide
    rw [hparts] at hhead
    simp only [List.head?_cons, Option.some.injEq] at hhead
    exact (Assembly.root_isName hroot).ne_empty hhead.symm
  rw [partsOf_of_ne hne, hhead]

theorem Rooted.ne_empty {name : String} (h : Rooted name) : name ≠ "" := by
  rintro rfl
  obtain ⟨root, -, hhead⟩ := h
  simp [partsOf] at hhead

def librarySymbols (r : Runtime) (l : JsonLibrary) : Symbols := .ofAssemblies (standard r l)

section

variable {r : Runtime} {l : JsonLibrary} {name : String} {arity : Nat}

theorem library_namespace (h : name ∈ (librarySymbols r l).namespaces) : Rooted name := by
  simp only [librarySymbols, Symbols.ofAssemblies, Symbols.ofAssembly, List.mem_flatMap] at h
  obtain ⟨a, ha, n, hn, hname⟩ := h
  obtain ⟨root, hroot, hhead⟩ := (Assembly.standard_tidy ha n hn).root
  exact ⟨root, hroot, head_of_ofNamespace (Assembly.root_isName hroot) hhead hname⟩

theorem library_type_iff :
    (name, arity) ∈ (librarySymbols r l).types ↔
      ∃ a ∈ standard r l, ∃ n ∈ a.namespaces, ∃ raw ∈ n.types,
        joinNames n.name (stem raw) = name ∧ (Assembly.splitArity raw).2 = arity := by
  simp [librarySymbols, Symbols.ofAssemblies, Symbols.ofAssembly, Assembly.exports, stem,
    and_assoc]

theorem library_type (h : (name, arity) ∈ (librarySymbols r l).types) :
    ∃ scope raw, Rooted scope ∧ TidyType scope raw ∧ partsOf name = partsOf scope ++ [stem raw] := by
  obtain ⟨a, ha, n, hn, raw, hraw, rfl, -⟩ := library_type_iff.mp h
  have htidy := Assembly.standard_tidy ha n hn
  have hrooted := rooted_of_tidy htidy
  have htype := htidy.types raw hraw
  refine ⟨n.name, raw, hrooted, htype, ?_⟩
  rw [partsOf_of_ne (joinNames_ne_empty hrooted.ne_empty _), joinNames_of_ne hrooted.ne_empty,
    Text.dottedParts_append, Text.dottedParts_of_notMem htype.point, partsOf_of_ne hrooted.ne_empty]

theorem rooted_of_library_type (h : (name, arity) ∈ (librarySymbols r l).types) : Rooted name := by
  obtain ⟨scope, raw, ⟨root, hroot, hhead⟩, -, hparts⟩ := library_type h
  refine ⟨root, hroot, ?_⟩
  rw [hparts, List.head?_append, hhead]
  rfl

end

open ClassTree

def IsPlain (settings : Settings) (p : Property) : Prop :=
  p.type = .classNamed "record" → settings.accessors = true

def outerOf (settings : Settings) (n : Nat) (c : ClassShape) : Declared :=
  ⟨settings.container, c.name, 0, false, true, classLineFrom settings n⟩

theorem declaredMembers_inner (container : String) (members : List Member) :
    ∀ d ∈ declaredMembers container members, d.isOutermost = false := by
  fun_induction declaredMembers container members with
  | case1 => simp
  | case2 container head members rest ih ihrest =>
    intro d hd
    rcases List.mem_append.mp hd with hd | hd
    · split at hd
      · simp at hd
      · rcases List.mem_cons.mp hd with rfl | hd
        · rfl
        · exact ih d hd
    · exact ihrest d hd
  | case3 container m rest hplain ih => exact ih

theorem declared_isPlain {settings : Settings} {p : Property} (h : IsPlain settings p) (n : Nat)
    (container : String) (rest : List Member) :
    declaredMembers container (declared settings n p :: rest) = declaredMembers container rest := by
  rw [declared]
  split
  · simp only [declaredMembers]
  · next hfield =>
    split
    · next hrecord => exact absurd (h hrecord) hfield
    · simp only [declaredMembers]

theorem declaredFrom_isPlain {settings : Settings} {ps : List Property}
    (h : ∀ p ∈ ps, IsPlain settings p) (n : Nat) (container : String) :
    declaredMembers container (declaredFrom settings n ps) = [] := by
  induction ps generalizing n with
  | nil => simp only [declaredFrom, declaredMembers]
  | cons p ps ih =>
    rw [declaredFrom, declared_isPlain (h p (by simp)), ih fun q hq => h q (by simp [hq])]

theorem classMembers_isPlain {settings : Settings} {c : ClassShape}
    (h : ∀ p ∈ c.properties, IsPlain settings p) (n : Nat) (container : String) :
    declaredMembers container (classMembers settings n c) = [] := by
  rw [classMembers]
  split
  · simp only [declaredConstructor, declaredMembers, declaredFrom_isPlain h]
  · exact declaredFrom_isPlain h n container

/-- The types that a class declares: itself, then those inside of it. -/
theorem declaredTypes_class (settings : Settings) (n : Nat) {c : ClassShape} (h : IsName c.name)
    (rest : List Declaration) :
    declaredTypes settings.container (declaredClass settings n c :: rest) =
      outerOf settings n c ::
        declaredMembers (joinNames settings.container c.name)
          (classMembers settings (classLineFrom settings n + 2) c) ++
        declaredTypes settings.container rest := by
  have hname : c.name.isEmpty = false := by simpa using h.ne_empty
  have hpartial : TypeHead.isPartial ⟨.plainClass, c.name, [], ["public"], [], [], [],
      classLineFrom settings n⟩ = false := rfl
  simp only [declaredClass, declaredTypes, declaredType, hname, Bool.false_eq_true, if_false, hpartial]
  rfl

theorem declaredTypes_isPlain (settings : Settings) (n : Nat) {cs : List ClassShape}
    (hnames : ∀ c ∈ cs, IsName c.name) (h : ∀ c ∈ cs, ∀ p ∈ c.properties, IsPlain settings p) :
    (declaredTypes settings.container (declaredClasses settings n cs)).map
        (fun d => (d.fullName, d.arity)) =
      cs.map fun c => (joinNames settings.container c.name, 0) := by
  induction cs generalizing n with
  | nil => simp only [declaredClasses, declaredTypes, List.map_nil]
  | cons c cs ih =>
    have hrest := ih (n + (classLines settings c).length) (fun d hd => hnames d (by simp [hd]))
      fun d hd => h d (by simp [hd])
    rw [declaredClasses, declaredTypes_class settings n (hnames c (by simp)),
      classMembers_isPlain (h c (by simp))]
    simp only [List.singleton_append, List.map_cons, hrest]
    rfl

theorem declaredScopes_classes (settings : Settings) (container : String) (n : Nat)
    (cs : List ClassShape) : declaredScopes container (declaredClasses settings n cs) = [] := by
  induction cs generalizing n with
  | nil => simp only [declaredClasses, declaredScopes]
  | cons c cs ih => simp only [declaredClasses, declaredClass, declaredScopes, ih]

section

variable {tree : ClassTree} {settings : Settings}

theorem scopeName_container (line : Nat) :
    scopeName "" ⟨Text.dottedParts settings.container, line⟩ = settings.container := by
  have hparts : (Text.dottedParts settings.container).isEmpty = false := by
    simpa using Text.dottedParts_ne_nil settings.container
  rw [scopeName, if_neg (by simp [hparts]), joinNames_empty, DottedName.text,
    Text.intercalate_dottedParts]

theorem head_declaredMembers {container : String} (hne : container ≠ "") (members : List Member) :
    ∀ d ∈ declaredMembers container members, (partsOf d.fullName).head? = (partsOf container).head? := by
  fun_induction declaredMembers container members with
  | case1 => simp
  | case2 container head members rest ih ihrest =>
    have hname := head_joinNames hne head.name
    intro d hd
    rcases List.mem_append.mp hd with hd | hd
    · split at hd
      · simp at hd
      · rcases List.mem_cons.mp hd with rfl | hd
        · exact hname
        · rw [ih (joinNames_ne_empty hne head.name) d hd, hname]
    · exact ihrest hne d hd
  | case3 container m rest hplain ih => exact ih hne

theorem head_declaredTypes (hne : settings.container ≠ "") {cs : List ClassShape}
    (hnames : ∀ c ∈ cs, IsName c.name) (n : Nat) :
    ∀ d ∈ declaredTypes settings.container (declaredClasses settings n cs),
      (partsOf d.fullName).head? = (partsOf settings.container).head? := by
  induction cs generalizing n with
  | nil => simp [declaredClasses, declaredTypes]
  | cons c cs ih =>
    have hname := head_joinNames hne c.name
    intro d hd
    rw [declaredClasses, declaredTypes_class settings n (hnames c (by simp))] at hd
    rcases List.mem_append.mp hd with hd | hd
    · rcases List.mem_cons.mp hd with rfl | hd
      · exact hname
      · rw [head_declaredMembers (joinNames_ne_empty hne c.name) _ d hd, hname]
    · exact ih (fun x hx => hnames x (by simp [hx])) _ d hd

def ownSymbols (tree : ClassTree) (settings : Settings) : Symbols :=
  .ofUnit (declaredSource tree settings)

theorem own_namespaces :
    (ownSymbols tree settings).namespaces ⊆ Symbols.ofNamespace settings.container := by
  intro name hname
  simp only [ownSymbols, Symbols.ofUnit, declaredSource, declaredScopes, scopeName_container,
    declaredScopes_classes, List.append_nil] at hname
  split at hname
  · simp at hname
  · exact hname

theorem rooted_of_own_type (hne : settings.container ≠ "") (hnames : ∀ c ∈ tree.classes, IsName c.name)
    {name : String} {arity : Nat} (h : (name, arity) ∈ (ownSymbols tree settings).types) :
    Rooted name ↔ Rooted settings.container := by
  simp only [ownSymbols, Symbols.ofUnit, declaredSource, declaredTypes, scopeName_container,
    List.append_nil] at h
  obtain ⟨d, hd, heq⟩ := List.mem_map.mp h
  rw [Prod.mk.injEq] at heq
  rw [← heq.1, Rooted, Rooted, head_declaredTypes hne hnames _ d hd]

theorem own_types (hnames : ∀ c ∈ tree.classes, IsName c.name)
    (h : ∀ c ∈ tree.classes, ∀ p ∈ c.properties, IsPlain settings p) :
    (ownSymbols tree settings).types =
      tree.classes.map fun c => (joinNames settings.container c.name, 0) := by
  rw [← declaredTypes_isPlain settings (scopeLine settings + 2) hnames h]
  simp only [ownSymbols, Symbols.ofUnit, declaredSource, declaredTypes, scopeName_container,
    List.append_nil]

end

end DataClasses.Binding
