import DataClasses.ClassTree.Source
import DataClasses.Proofs.Token.Layout
import DataClasses.Text.Basic

/-!
# The layout of generated source

The lines that the source of a class tree consists of. What is generated is their spelling,
and they are well spelled where all names are identifiers.
-/

set_option autoImplicit false

namespace DataClasses.ClassTree

open Identifier (IsName)
open Atom (word mark space ofName)

def dottedAtoms : List String → List Atom
  | [] => []
  | [part] => [word part]
  | part :: rest => word part :: .dot :: dottedAtoms rest

def typeAtoms : MemberType → List Atom
  | .primitive kind => [word kind.spelling]
  | .classNamed name => [ofName name]
  | .listOf element => typeAtoms element ++ [mark '[', mark ']']

theorem spell_dottedAtoms (parts : List String) :
    Atom.spell (dottedAtoms parts) = (".".intercalate parts).toList := by
  fun_induction dottedAtoms parts with
  | case1 => rfl
  | case2 part => simp []
  | case3 part rest hne ih =>
    cases rest with
    | nil => exact absurd rfl hne
    | cons next rest => simp [Atom.spelling, ih]

theorem spell_typeAtoms (t : MemberType) : Atom.spell (typeAtoms t) = (typeText t).toList := by
  induction t with
  | primitive kind => simp [typeAtoms, typeText]
  | classNamed name => simp [typeAtoms, typeText, Atom.spelling_ofName]
  | listOf element ih => simp [typeAtoms, typeText, ih]

def codeLine (indent : Nat) (atoms : List Atom) : Line := .code (List.replicate indent space ++ atoms)

def summaryLines (indent : Nat) (text : String) : List Line :=
  [.comment indent "/ <summary>".toList, .comment indent ("/ ".toList ++ text.toList),
   .comment indent "/ </summary>".toList]

def annotationLines (settings : Settings) (p : Property) : List Line :=
  if settings.annotations then
    [codeLine 8 [mark '[', word settings.library.keyAttribute, mark '(', .text p.key, mark ')',
      mark ']']]
  else []

def propertySummary (settings : Settings) (p : Property) : List Line :=
  if settings.documentation then summaryLines 8 ("Property " ++ p.name) else []

def memberEnd (settings : Settings) : List Atom :=
  if settings.accessors then
    [space, mark '\x7b', space, word "get", mark ';', space, word "set", mark ';', space, mark '\x7d']
  else [mark ';']

def declarationLine (settings : Settings) (p : Property) : Line :=
  codeLine 8 (word "public" :: space :: typeAtoms p.type ++ space :: ofName p.name :: memberEnd settings)

def propertyLines (settings : Settings) (p : Property) : List Line :=
  annotationLines settings p ++ propertySummary settings p ++ [declarationLine settings p]

def constructorLines (c : ClassShape) : List Line :=
  [codeLine 8 [word "public", space, ofName c.name, mark '(', mark ')'],
   codeLine 8 [mark '\x7b'], codeLine 8 [mark '\x7d']]

def memberLines (settings : Settings) (c : ClassShape) : List (List Line) :=
  (if settings.constructors then [constructorLines c] else []) ++
    c.properties.map (propertyLines settings)

def blankLine : Line := .code []

def classSummary (settings : Settings) (c : ClassShape) : List Line :=
  if settings.documentation then summaryLines 4 ("Represents " ++ c.name) else []

def classLines (settings : Settings) (c : ClassShape) : List Line :=
  classSummary settings c ++ codeLine 4 [word "public", space, word "class", space, ofName c.name] ::
    codeLine 4 [mark '\x7b'] :: [blankLine].intercalate (memberLines settings c) ++
    [codeLine 4 [mark '\x7d'], blankLine]

def importLine (name : String) : Line :=
  .code (word "using" :: space :: dottedAtoms (Text.dottedParts name) ++ [mark ';'])

def importLines (settings : Settings) : List Line :=
  (baseImports ++ settings.library.namespaces).map importLine

def headLines (settings : Settings) : List Line :=
  importLines settings ++
    [blankLine,
     .code (word "namespace" :: space :: dottedAtoms (Text.dottedParts settings.container)),
     .code [mark '\x7b']]

def sourceLines (tree : ClassTree) (settings : Settings) : List Line :=
  headLines settings ++ tree.classes.flatMap (classLines settings) ++ [.code [mark '\x7d']]

theorem spell_replicate_space (n : Nat) :
    Atom.spell (List.replicate n space) = List.replicate n ' ' := by
  induction n with
  | zero => rfl
  | succ n ih => simp [List.replicate_succ, ih]

theorem spelling_codeLine (indent : Nat) (atoms : List Atom) :
    (codeLine indent atoms).spelling = List.replicate indent ' ' ++ (Atom.spell atoms ++ ['\n']) := by
  simp [codeLine, spell_replicate_space]

theorem line_toList (indent text : String) :
    (line indent text).toList = indent.toList ++ text.toList ++ ['\n'] := by
  simp [line]

theorem classIndent_toList : classIndent.toList = List.replicate 4 ' ' := by decide

theorem memberIndent_toList : memberIndent.toList = List.replicate 8 ' ' := by decide

theorem summary_toList {indent : String} {n : Nat} (h : indent.toList = List.replicate n ' ')
    (documented : Bool) (text : String) :
    (if documented then summary indent text else "").toList =
      Line.spell (if documented then summaryLines n text else []) := by
  cases documented with
  | false => simp
  | true => simp [summary, summaryLines, line_toList, h]

theorem annotation_toList (settings : Settings) (p : Property) :
    (if settings.annotations then annotation settings p else "").toList =
      Line.spell (annotationLines settings p) := by
  cases h : settings.annotations with
  | false => simp [annotationLines, h]
  | true =>
    simp [annotationLines, h, annotation, line_toList, memberIndent_toList, spelling_codeLine,
      Atom.spelling]

theorem memberEnd_toList (settings : Settings) :
    (if settings.accessors then " \x7b get; set; \x7d" else ";").toList =
      Atom.spell (memberEnd settings) := by
  cases h : settings.accessors with
  | false => simp [memberEnd, h]
  | true => simp [memberEnd, h]

theorem declaration_toList (settings : Settings) (p : Property) :
    (declaration settings p).toList = (declarationLine settings p).spelling := by
  simp only [declaration, line_toList, memberIndent_toList, String.toList_append,
    memberEnd_toList, ← spell_typeAtoms, ← Atom.spelling_ofName]
  simp [declarationLine, spelling_codeLine]

theorem propertyText_toList (settings : Settings) (p : Property) :
    (propertyText settings p).toList = Line.spell (propertyLines settings p) := by
  rw [propertyText, String.toList_append, String.toList_append, annotation_toList,
    summary_toList memberIndent_toList, declaration_toList]
  simp [propertyLines, propertySummary]

theorem constructorText_toList (c : ClassShape) :
    (constructorText c).toList = Line.spell (constructorLines c) := by
  simp [constructorText, constructorLines, line_toList, memberIndent_toList, spelling_codeLine,
    Atom.spelling_ofName]

theorem members_toList (settings : Settings) (c : ClassShape) :
    (members settings c).map String.toList = (memberLines settings c).map Line.spell := by
  have hproperties : c.properties.map (fun p => (propertyText settings p).toList) =
      c.properties.map (fun p => Line.spell (propertyLines settings p)) :=
    List.map_congr_left fun p _ => propertyText_toList settings p
  cases h : settings.constructors with
  | false => simpa [members, memberLines, h] using hproperties
  | true => simpa [members, memberLines, h, constructorText_toList] using hproperties

theorem spelling_blankLine : blankLine.spelling = ['\n'] := rfl

theorem newline_toList : "\n".toList = ['\n'] := rfl

theorem spell_intercalate (blocks : List (List Line)) :
    Line.spell ([blankLine].intercalate blocks) = List.intercalate ['\n'] (blocks.map Line.spell) := by
  induction blocks with
  | nil => rfl
  | cons b blocks ih =>
    cases blocks with
    | nil => simp
    | cons d blocks => simp_all [spelling_blankLine]

theorem classText_toList (settings : Settings) (c : ClassShape) :
    (classText settings c).toList = Line.spell (classLines settings c) := by
  simp only [classText, String.toList_append, summary_toList classIndent_toList, line_toList,
    classIndent_toList, String.toList_intercalate, members_toList, ← Atom.spelling_ofName, newline_toList,
    ← spell_intercalate]
  simp [classLines, classSummary, spelling_codeLine, spelling_blankLine]

theorem importText_toList (name : String) :
    (importText name).toList = (importLine name).spelling := by
  simp [importText, line_toList, importLine, spell_dottedAtoms,
    Text.intercalate_dottedParts]

/-- The source of a tree is the spelling of its lines. -/
theorem source_toList (tree : ClassTree) (settings : Settings) :
    (source tree settings).toList = Line.spell (sourceLines tree settings) := by
  have himports (names : List String) : (String.join (names.map importText)).toList =
      Line.spell (names.map importLine) := by
    simp [String.toList_join, Line.spell, List.flatMap_map, importText_toList]
  have hclasses (cs : List ClassShape) : (String.join (cs.map (classText settings))).toList =
      Line.spell (cs.flatMap (classLines settings)) := by
    simp only [String.toList_join, List.flatMap_map, classText_toList]
    simp [Line.spell, List.flatMap_assoc]
  simp only [source, String.toList_append, himports, hclasses, line_toList]
  simp [sourceLines, headLines, importLines, blankLine,
    spell_dottedAtoms, Text.intercalate_dottedParts]

def IsNamed (p : Property) : Prop := IsName p.name ∧ ∀ n ∈ p.type.class?, IsName n

def AllNamed (c : ClassShape) : Prop := IsName c.name ∧ ∀ p ∈ c.properties, IsNamed p

theorem mark_fits {m : Char} (h : m ∈ Token.plainMarks) {rest : List Atom} : (mark m).Fits rest := h

theorem spaces_wellSpelled (n : Nat) {atoms : List Atom} (h : Atom.WellSpelled atoms) :
    Atom.WellSpelled (List.replicate n space ++ atoms) := by
  induction n with
  | zero => exact h
  | succ n ih => exact ⟨trivial, ih⟩

theorem codeLine_wellSpelled (indent : Nat) {atoms : List Atom} (h : Atom.WellSpelled atoms) :
    (codeLine indent atoms).WellSpelled := spaces_wellSpelled indent h

theorem dottedAtoms_wellSpelled {parts : List String} (h : ∀ part ∈ parts, IsName part)
    {rest : List Atom} (hrest : Atom.WellSpelled rest) (hhead : (rest.head?.any Atom.isWord) = false) :
    Atom.WellSpelled (dottedAtoms parts ++ rest) := by
  fun_induction dottedAtoms parts with
  | case1 => exact hrest
  | case2 part => exact ⟨⟨h part (by simp), hhead⟩, hrest⟩
  | case3 part others hne ih =>
    have hothers : ∀ q ∈ others, IsName q := fun q hq => h q (by simp [hq])
    refine ⟨⟨h part (by simp), rfl⟩, ?_, ih hothers⟩
    cases others with
    | nil => exact absurd rfl hne
    | cons next others =>
      refine ⟨next, ?_, hothers next (by simp)⟩
      cases others <;> rfl

theorem spelling_isName (kind : Primitive) : IsName kind.spelling := by
  cases kind <;> decide

theorem typeAtoms_wellSpelled {t : MemberType} (h : ∀ n ∈ t.class?, IsName n) {rest : List Atom}
    (hrest : Atom.WellSpelled rest) (hhead : (rest.head?.any Atom.isWord) = false) :
    Atom.WellSpelled (typeAtoms t ++ rest) := by
  induction t generalizing rest with
  | primitive kind => exact ⟨⟨spelling_isName kind, hhead⟩, hrest⟩
  | classNamed name => exact ⟨Atom.ofName_fits (h name rfl) hhead, hrest⟩
  | listOf element ih =>
    have hopen : '[' ∈ Token.plainMarks := by decide
    have hclose : ']' ∈ Token.plainMarks := by decide
    rw [typeAtoms, List.append_assoc]
    exact ih h ⟨hopen, hclose, hrest⟩ rfl

/-- A summary that ends with a name is well spelled. -/
theorem summary_wellSpelled (indent : Nat) (documented : Bool) {kind name : String}
    (hkind : '\n' ∉ kind.toList) (h : IsName name) :
    ∀ l ∈ if documented then summaryLines indent (kind ++ name) else [], l.WellSpelled := by
  have hname : '\n' ∉ name.toList := Token.newline_not_mem (Identifier.isPart_of_mem h)
  cases documented with
  | false => simp
  | true => simp [summaryLines, Line.WellSpelled, hkind, hname]

theorem annotationLines_wellSpelled (settings : Settings) (p : Property) :
    ∀ l ∈ annotationLines settings p, l.WellSpelled := by
  intro l hl
  have hattribute : IsName settings.library.keyAttribute := by
    cases settings.library <;> decide
  rw [annotationLines] at hl
  split at hl
  · rw [List.mem_singleton] at hl
    subst hl
    exact codeLine_wellSpelled 8
      ⟨mark_fits (by decide), ⟨hattribute, rfl⟩, mark_fits (by decide), trivial,
      mark_fits (by decide), mark_fits (by decide), trivial⟩
  · simp at hl

theorem memberEnd_wellSpelled (settings : Settings) :
    Atom.WellSpelled (memberEnd settings) ∧
      ((memberEnd settings).head?.any Atom.isWord) = false := by
  have hget : IsName "get" := by decide
  have hset : IsName "set" := by decide
  rw [memberEnd]
  split
  · exact ⟨⟨trivial, mark_fits (by decide), trivial, ⟨hget, rfl⟩, mark_fits (by decide), trivial,
      ⟨hset, rfl⟩, mark_fits (by decide), trivial, mark_fits (by decide), trivial⟩, rfl⟩
  · exact ⟨⟨mark_fits (by decide), trivial⟩, rfl⟩

theorem declarationLine_wellSpelled (settings : Settings) {p : Property} (h : IsNamed p) :
    (declarationLine settings p).WellSpelled := by
  have hpublic : IsName "public" := by decide
  obtain ⟨hend, hhead⟩ := memberEnd_wellSpelled settings
  refine codeLine_wellSpelled 8 ⟨⟨hpublic, rfl⟩, trivial, ?_⟩
  exact typeAtoms_wellSpelled h.2 ⟨trivial, Atom.ofName_fits h.1 hhead, hend⟩ rfl

theorem propertyLines_wellSpelled (settings : Settings) {p : Property} (h : IsNamed p) :
    ∀ l ∈ propertyLines settings p, l.WellSpelled := by
  intro l hl
  simp only [propertyLines, List.mem_append, List.mem_singleton] at hl
  rcases hl with (hl | hl) | rfl
  · exact annotationLines_wellSpelled settings p l hl
  · exact summary_wellSpelled 8 settings.documentation (by decide) h.1 l hl
  · exact declarationLine_wellSpelled settings h

theorem constructorLines_wellSpelled {c : ClassShape} (h : IsName c.name) :
    ∀ l ∈ constructorLines c, l.WellSpelled := by
  intro l hl
  have hpublic : IsName "public" := by decide
  simp only [constructorLines, List.mem_cons, List.not_mem_nil, or_false] at hl
  rcases hl with rfl | rfl | rfl
  · exact codeLine_wellSpelled 8
      ⟨⟨hpublic, rfl⟩, trivial, Atom.ofName_fits h rfl, mark_fits (by decide),
      mark_fits (by decide), trivial⟩
  · exact codeLine_wellSpelled 8 ⟨mark_fits (by decide), trivial⟩
  · exact codeLine_wellSpelled 8 ⟨mark_fits (by decide), trivial⟩

theorem memberLines_wellSpelled (settings : Settings) {c : ClassShape} (h : AllNamed c) :
    ∀ block ∈ memberLines settings c, ∀ l ∈ block, l.WellSpelled := by
  intro block hblock
  rw [memberLines, List.mem_append] at hblock
  rcases hblock with hblock | hblock
  · split at hblock
    · rw [List.mem_singleton] at hblock
      exact hblock ▸ constructorLines_wellSpelled h.1
    · simp at hblock
  · obtain ⟨p, hp, rfl⟩ := List.mem_map.mp hblock
    exact propertyLines_wellSpelled settings (h.2 p hp)

theorem mem_intercalate {α : Type} {x : α} {between : List α} {blocks : List (List α)}
    (h : x ∈ between.intercalate blocks) : x ∈ between ∨ ∃ block ∈ blocks, x ∈ block := by
  induction blocks with
  | nil => simp at h
  | cons block blocks ih =>
    cases blocks with
    | nil => simp_all
    | cons next blocks =>
      rw [List.intercalate_cons_cons, List.mem_append, List.mem_append] at h
      rcases h with (h | h) | h
      · exact .inr ⟨block, by simp, h⟩
      · exact .inl h
      · rcases ih h with h | ⟨b, hb, h⟩
        · exact .inl h
        · exact .inr ⟨b, List.mem_cons_of_mem _ hb, h⟩

theorem classLines_wellSpelled (settings : Settings) {c : ClassShape} (h : AllNamed c) :
    ∀ l ∈ classLines settings c, l.WellSpelled := by
  intro l hl
  have hpublic : IsName "public" := by decide
  have hclass : IsName "class" := by decide
  simp only [classLines, List.mem_append, List.mem_cons, List.not_mem_nil, or_false] at hl
  rcases hl with (hl | rfl | rfl | hl) | rfl | rfl
  · exact summary_wellSpelled 4 settings.documentation (by decide) h.1 l hl
  · exact codeLine_wellSpelled 4 ⟨⟨hpublic, rfl⟩, trivial, ⟨hclass, rfl⟩, trivial,
      Atom.ofName_fits h.1 rfl, trivial⟩
  · exact codeLine_wellSpelled 4 ⟨mark_fits (by decide), trivial⟩
  · rcases mem_intercalate hl with hl | ⟨block, hblock, hl⟩
    · rw [List.mem_singleton] at hl
      exact hl ▸ trivial
    · exact memberLines_wellSpelled settings h block hblock l hl
  · exact codeLine_wellSpelled 4 ⟨mark_fits (by decide), trivial⟩
  · trivial

theorem importLine_wellSpelled {name : String} (h : ∀ part ∈ Text.dottedParts name, IsName part) :
    (importLine name).WellSpelled := by
  have husing : IsName "using" := by decide
  refine ⟨⟨husing, rfl⟩, trivial, ?_⟩
  exact dottedAtoms_wellSpelled h ⟨mark_fits (by decide), trivial⟩ rfl

theorem imports_named (settings : Settings) :
    ∀ name ∈ baseImports ++ settings.library.namespaces, ∀ part ∈ Text.dottedParts name,
      IsName part ∧ Identifier.isKeyword part = false := by
  cases settings.library <;> decide +kernel

theorem headLines_wellSpelled {settings : Settings}
    (h : ∀ part ∈ Text.dottedParts settings.container, IsName part) :
    ∀ l ∈ headLines settings, l.WellSpelled := by
  intro l hl
  have hnamespace : IsName "namespace" := by decide
  simp only [headLines, importLines, List.mem_append, List.mem_map, List.mem_cons,
    List.not_mem_nil, or_false] at hl
  rcases hl with ⟨name, hname, rfl⟩ | rfl | rfl | rfl
  · refine importLine_wellSpelled fun part hpart => ?_
    exact (imports_named settings name (by simpa using hname) part hpart).1
  · trivial
  · have hend : Atom.WellSpelled [] := trivial
    refine ⟨⟨hnamespace, rfl⟩, trivial, ?_⟩
    simpa using dottedAtoms_wellSpelled h hend rfl
  · exact ⟨mark_fits (by decide), trivial⟩

theorem sourceLines_wellSpelled {tree : ClassTree} {settings : Settings}
    (hcontainer : ∀ part ∈ Text.dottedParts settings.container, IsName part)
    (hclasses : ∀ c ∈ tree.classes, AllNamed c) :
    ∀ l ∈ sourceLines tree settings, l.WellSpelled := by
  intro l hl
  simp only [sourceLines, List.mem_append, List.mem_flatMap, List.mem_singleton] at hl
  rcases hl with (hl | ⟨c, hc, hl⟩) | rfl
  · exact headLines_wellSpelled hcontainer l hl
  · exact classLines_wellSpelled settings (hclasses c hc) l hl
  · exact ⟨mark_fits (by decide), trivial⟩

/-- Scanning the source of a tree finds the tokens of its lines, and nothing that is wrong. -/
theorem tokens_source {tree : ClassTree} {settings : Settings}
    (hcontainer : ∀ part ∈ Text.dottedParts settings.container, IsName part)
    (hclasses : ∀ c ∈ tree.classes, AllNamed c) :
    Token.ofSource (source tree settings) =
      (Line.tokensFrom 1 (sourceLines tree settings) ++
        [⟨.done, 1 + (sourceLines tree settings).length⟩], []) :=
  Line.ofSource_spell (source_toList tree settings)
    (sourceLines_wellSpelled hcontainer hclasses)

end DataClasses.ClassTree
