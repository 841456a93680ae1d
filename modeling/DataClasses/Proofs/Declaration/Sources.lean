import DataClasses.Proofs.Declaration.Classes

/-!
# Reading generated source

The source of a tree is read as the declarations it was generated for if all members are
accepted. If one is not, something is reported, and all that is reported are errors.
-/

set_option autoImplicit false

namespace DataClasses

namespace ClassTree

def importNames (settings : Settings) : List String := baseImports ++ settings.library.namespaces

def declaredImports : Nat → List String → List Import
  | _, [] => []
  | n, name :: rest =>
    ⟨⟨Text.dottedParts name, n⟩, none, false, false, n⟩ :: declaredImports (n + 1) rest

def scopeLine (settings : Settings) : Nat := (importNames settings).length + 2

def declaredSource (tree : ClassTree) (settings : Settings) : SourceUnit where
  imports := declaredImports 1 (importNames settings)
  members :=
    [.scope ⟨⟨Text.dottedParts settings.container, scopeLine settings⟩, [], false, scopeLine settings⟩
      (declaredClasses settings (scopeLine settings + 2) tree.classes)]

def importTokens (n : Nat) (names : List String) : List Token :=
  Line.tokensFrom n (names.map importLine)

theorem importTokens_cons (n : Nat) (name : String) (names : List String) :
    importTokens n (name :: names) =
      .ofWord n "using" :: (Atom.tokens n (dottedAtoms (Text.dottedParts name)) ++
        .ofMark n ';' :: importTokens (n + 1) names) := by
  simp [importTokens, importLine, Line.tokens]

def scopeEnd (tree : ClassTree) (settings : Settings) : Nat :=
  scopeLine settings + 2 + (tree.classes.flatMap (classLines settings)).length

theorem tokens_sourceLines (tree : ClassTree) (settings : Settings) :
    Line.tokensFrom 1 (sourceLines tree settings) =
      importTokens 1 (importNames settings) ++ .ofWord (scopeLine settings) "namespace" ::
        (Atom.tokens (scopeLine settings) (dottedAtoms (Text.dottedParts settings.container)) ++
          .ofMark (scopeLine settings + 1) '\x7b' ::
          (classTokens settings (scopeLine settings + 2) tree.classes ++
            [.ofMark (scopeEnd tree settings) '\x7d'])) := by
  have hblank (m : Nat) : blankLine.tokens m = [] := rfl
  have hline : 1 + (importNames settings).length + 1 = scopeLine settings := by
    rw [scopeLine]
    omega
  rw [sourceLines, headLines, importLines, ← importNames, Line.tokensFrom_append,
    Line.tokensFrom_append, Line.tokensFrom_append]
  simp only [Line.tokensFrom_cons, Line.tokensFrom_nil, hblank, List.length_append, List.length_map,
    List.length_cons, List.length_nil, hline]
  simp [importTokens, Line.tokens, classTokens, scopeEnd]
  constructor
  · rw [← hline]
    exact congrArg (Line.tokensFrom · _) (by omega)
  · rw [← hline]
    exact congrArg (Token.ofMark · '\x7d') (by omega)

end ClassTree

namespace Parse

open ClassTree

variable {e l n : Nat} {r : List Diagnostic} {u : Token} {ts : List Token}

theorem ofWord_isWord {line : Nat} {word other : String} (h : Identifier.isKeyword word = false)
    (hother : Identifier.isKeyword other = true) : (Token.ofWord line word).isWord other = false := by
  have hne : word ≠ other := by
    rintro rfl
    simp [h] at hother
  simpa [Token.ofWord, Token.isWord] using hne

theorem shortName?_none {c : Cursor} (h : (c.ahead 1).isMark "=" = false) : shortName? c = (none, c) := by
  rw [shortName?, bind_apply, get_apply]
  simp [h, pure_apply]

theorem importDecl_spelled (type : Parse (Option TypeExpr)) {parts : List String} (hne : parts ≠ [])
    (hparts : ∀ part ∈ parts, Identifier.isKeyword part = false) :
    importDecl type ⟨.ofWord n "using" :: (Atom.tokens n (dottedAtoms parts) ++ .ofMark n ';' :: ts),
        e, l, r⟩ =
      (⟨⟨parts, n⟩, none, false, false, n⟩, ⟨ts, e, n, r⟩) := by
  obtain ⟨part, v, vs, htokens, hpart, hv⟩ : ∃ part v vs,
      Atom.tokens n (dottedAtoms parts) ++ .ofMark n ';' :: ts = .ofWord n part :: v :: vs ∧
        Identifier.isKeyword part = false ∧ v.isMark "=" = false := by
    cases parts with
    | nil => exact absurd rfl hne
    | cons part parts =>
      rw [tokens_dottedAtoms]
      cases parts with
      | nil => exact ⟨part, _, _, rfl, hparts part (by simp), rfl⟩
      | cons next parts => exact ⟨part, _, _, rfl, hparts part (by simp), rfl⟩
  have hglobal : (Token.ofWord n "using").isWord "global" = false := rfl
  have hstatic : (Token.ofWord n part).isWord "static" = false := ofWord_isWord hpart (by decide)
  have hname (l : Nat) : dottedName ⟨.ofWord n part :: v :: vs, e, l, r⟩ =
      (⟨parts, n⟩, ⟨.ofMark n ';' :: ts, e, n, r⟩) := by
    rw [← htokens]
    exact dottedName_spelled hne hparts rfl
  have hless : (Token.ofMark n ';').isMark "<" = false := rfl
  rw [htokens, importDecl, bind_apply, eatWord_not hglobal, bind_apply, advance_apply, bind_apply,
    eatWord_not hstatic, bind_apply, shortName?_none (by rw [ahead_one]; exact hv), bind_apply, hname,
    bind_apply, atMark_apply]
  simp only [ahead_zero, hless, Bool.false_eq_true, if_false]
  rw [bind_apply, expectSemicolon_of rfl]
  rfl

theorem nextImport_done (type : Parse (Option TypeExpr)) (acc : List Import) {c : Cursor}
    (h : c.atImport = false) : nextImport type acc c = (.done acc, c) := by
  rw [nextImport, bind_apply, get_apply]
  simp only [h]
  rfl

theorem nextImport_spelled (type : Parse (Option TypeExpr)) (acc : List Import) {name : String}
    (h : ∀ part ∈ Text.dottedParts name, Identifier.isKeyword part = false) (names : List String) :
    nextImport type acc ⟨importTokens n (name :: names) ++ ts, e, l, r⟩ =
      (.again (acc ++ [⟨⟨Text.dottedParts name, n⟩, none, false, false, n⟩]),
        ⟨importTokens (n + 1) names ++ ts, e, n, r⟩) := by
  have hat (ts : List Token) : (Cursor.mk (.ofWord n "using" :: ts) e l r).atImport = true := rfl
  rw [importTokens_cons, List.cons_append, List.append_assoc, List.cons_append, nextImport, bind_apply,
    get_apply]
  simp only [hat, if_true]
  rw [bind_apply, importDecl_spelled type (Text.dottedParts_ne_nil name) h]
  rfl

theorem imports_read (type : Parse (Option TypeExpr)) {names : List String}
    (h : ∀ name ∈ names, ∀ part ∈ Text.dottedParts name, Identifier.isKeyword part = false)
    (hu : ∀ l, (Cursor.mk (u :: ts) e l r).atImport = false) (acc : List Import) (l : Nat) :
    ∃ l', loop id (nextImport type) acc ⟨importTokens n names ++ u :: ts, e, l, r⟩ =
      (acc ++ declaredImports n names, ⟨u :: ts, e, l', r⟩) := by
  induction names generalizing n acc l with
  | nil =>
    rw [declaredImports, List.append_nil]
    exact ⟨l, loop_done (nextImport_done type acc (hu l))⟩
  | cons name names ih =>
    have hless : (importTokens (n + 1) names ++ u :: ts).length <
        (importTokens n (name :: names) ++ u :: ts).length := by
      simp only [importTokens_cons, List.length_append, List.length_cons]
      omega
    rw [loop_again (nextImport_spelled type acc (h name (by simp)) names) hless]
    obtain ⟨l', hrest⟩ := ih (fun q hq => h q (by simp [hq]))
      (acc ++ [⟨⟨Text.dottedParts name, n⟩, none, false, false, n⟩]) n
    exact ⟨l', by rw [hrest, declaredImports, List.append_assoc]; rfl⟩

theorem scopeBody_brace (inner : Inner) (name : DottedName) (line : Nat) :
    scopeBody inner name line ⟨.ofMark n '\x7b' :: ts, e, l, r⟩ =
      (do
        let is ← imports inner.type
        let members ← declarations inner true
        let _ ← expectMark closeBrace .closeBraceExpected
        let _ ← eatMark ";"
        pure (.scope ⟨name, is, false, line⟩ members) : Parse Declaration) ⟨ts, e, n, r⟩ := rfl

theorem declaration_scope (inner : Inner) {enclosed : Bool} (acc : List Declaration) :
    declaration inner enclosed acc ⟨.ofWord n "namespace" :: ts, e, l, r⟩ =
      ((fun d => .again (acc ++ [d])) <$> inner.scope :
        Parse (Round (List Declaration) (List Declaration)))
        ⟨.ofWord n "namespace" :: ts, e, l, r⟩ := rfl

section

variable (tree : ClassTree) {settings : Settings}

def scopeTokens (tree : ClassTree) (settings : Settings) : List Token :=
  .ofWord (scopeLine settings) "namespace" ::
    (Atom.tokens (scopeLine settings) (dottedAtoms (Text.dottedParts settings.container)) ++
      .ofMark (scopeLine settings + 1) '\x7b' ::
      (classTokens settings (scopeLine settings + 2) tree.classes ++
        [.ofMark (scopeEnd tree settings) '\x7d']))

def declaredScope (tree : ClassTree) (settings : Settings) : Declaration :=
  .scope ⟨⟨Text.dottedParts settings.container, scopeLine settings⟩, [], false, scopeLine settings⟩
    (declaredClasses settings (scopeLine settings + 2) tree.classes)

variable
  (hcontainer : ∀ part ∈ Text.dottedParts settings.container, Identifier.isKeyword part = false)

include hcontainer

theorem scope_apply :
    ∃ l', scope 128 ⟨scopeTokens tree settings, e, l, r⟩ =
      (do
        let members ← declarations scopeInner true
        let _ ← expectMark closeBrace .closeBraceExpected
        let _ ← eatMark ";"
        pure (.scope ⟨⟨Text.dottedParts settings.container, scopeLine settings⟩, [], false,
          scopeLine settings⟩ members) : Parse Declaration)
        ⟨classTokens settings (scopeLine settings + 2) tree.classes ++
          [.ofMark (scopeEnd tree settings) '\x7d'], e, l', r⟩ := by
  have hscope : scope 128 = (do
      let line := (← advance).line
      let name ← dottedName
      scopeBody scopeInner name line) := rfl
  have hname (n m l : Nat) (ts : List Token) :
      dottedName ⟨Atom.tokens n (dottedAtoms (Text.dottedParts settings.container)) ++
        .ofMark m '\x7b' :: ts, e, l, r⟩ =
      (⟨Text.dottedParts settings.container, n⟩, ⟨.ofMark m '\x7b' :: ts, e, n, r⟩) :=
    dottedName_spelled (Text.dottedParts_ne_nil _) hcontainer rfl
  have himports (n l : Nat) (ts : List Token) :
      imports scopeInner.type ⟨classTokens settings n tree.classes ++ ts, e, l, r⟩ =
      ([], ⟨classTokens settings n tree.classes ++ ts, e, l, r⟩) := by
    rw [classes, classTokens_cons, tokens_classLines]
    exact loop_done (nextImport_done _ [] rfl)
  rw [scopeTokens, hscope, bind_apply, advance_apply, bind_apply, hname, scopeBody_brace, bind_apply,
    himports]
  exact ⟨_, rfl⟩

theorem scope_read (h : ∀ c ∈ tree.classes, Accepts settings c) :
    ∃ l', scope 128 ⟨scopeTokens tree settings, e, l, r⟩ =
      (declaredScope tree settings, ⟨[], e, l', r⟩) := by
  obtain ⟨l', hscope⟩ := scope_apply tree hcontainer
  obtain ⟨l'', hclasses⟩ := classes_read settings (scopeLine settings + 2)
    (scopeEnd tree settings) h [] l'
  rw [hscope, bind_apply, declarations, hclasses, bind_apply, expectMark_of _ rfl]
  exact ⟨_, rfl⟩

theorem scope_rejected (h : ∃ c ∈ tree.classes, ¬Accepts settings c) :
    (scope 128 ⟨scopeTokens tree settings, e, l, r⟩).2.Faulty := by
  obtain ⟨l', hscope⟩ := scope_apply tree hcontainer
  rw [hscope, bind_apply]
  refine Grows.faulty ?_ (classes_rejected settings _ _ h [] l')
  exact (expectMark_grows _ _).bind fun _ => (eatMark_grows _).bind fun _ => pure_grows _

omit hcontainer in
theorem sourceUnit_apply :
    ∃ l', sourceUnit ⟨Line.tokensFrom 1 (sourceLines tree settings), e, l, r⟩ =
      (do
        let members ← declarations ⟨typeExpr 128, typeDecl 128, scope 128⟩ false
        pure ⟨declaredImports 1 (importNames settings), members⟩ : Parse SourceUnit)
        ⟨scopeTokens tree settings, e, l', r⟩ := by
  have hnames : ∀ name ∈ importNames settings, ∀ part ∈ Text.dottedParts name,
      Identifier.isKeyword part = false :=
    fun name hname part hpart => (imports_named settings name hname part hpart).2
  have htokens : Line.tokensFrom 1 (sourceLines tree settings) =
      importTokens 1 (importNames settings) ++ scopeTokens tree settings := tokens_sourceLines tree settings
  obtain ⟨l', himports⟩ := imports_read (u := .ofWord (scopeLine settings) "namespace")
    (typeExpr depthLimit) hnames (fun _ => rfl) [] l
  rw [htokens, scopeTokens, sourceUnit, bind_apply, imports, himports]
  exact ⟨_, rfl⟩

theorem sourceUnit_read (h : ∀ c ∈ tree.classes, Accepts settings c) :
    ∃ l', sourceUnit ⟨Line.tokensFrom 1 (sourceLines tree settings), e, l, r⟩ =
      (declaredSource tree settings, ⟨[], e, l', r⟩) := by
  obtain ⟨l', hunit⟩ := sourceUnit_apply (e := e) (l := l) (r := r) tree
  obtain ⟨l'', hscope⟩ := scope_read (e := e) (l := l') (r := r) tree hcontainer h
  have hround : declaration ⟨typeExpr 128, typeDecl 128, scope 128⟩ false []
      ⟨scopeTokens tree settings, e, l', r⟩ =
      (.again [declaredScope tree settings], ⟨[], e, l'', r⟩) := by
    rw [scopeTokens, declaration_scope, map_apply, ← scopeTokens]
    dsimp only
    rw [hscope]
    rfl
  rw [hunit, bind_apply, declarations, loop_again hround (by simp [scopeTokens])]
  rw [loop_done (a := [declaredScope tree settings]) (d := ⟨[], e, l'', r⟩) rfl]
  exact ⟨l'', rfl⟩

theorem sourceUnit_rejected (h : ∃ c ∈ tree.classes, ¬Accepts settings c) :
    (sourceUnit ⟨Line.tokensFrom 1 (sourceLines tree settings), e, l, r⟩).2.Faulty := by
  obtain ⟨l', hunit⟩ := sourceUnit_apply (e := e) (l := l) (r := r) tree
  rw [hunit, bind_apply]
  have hinner : Inner.Grow ⟨typeExpr 128, typeDecl 128, scope 128⟩ :=
    ⟨typeExpr_grows _, typeDecl_grows _, scope_grows _⟩
  refine (pure_grows _).faulty (loop_faulty (declaration_grows hinner false) ?_)
  rw [scopeTokens, declaration_scope, map_apply, ← scopeTokens]
  dsimp only
  exact scope_rejected tree hcontainer h

end

theorem start_append (ts : List Token) (e : Nat) :
    start (ts ++ [⟨.done, e⟩]) = ⟨ts, e, 1, []⟩ := by
  simp [start]

end Parse

theorem ofSource_tokens {text : String} {ts : List Token} {e : Nat}
    (h : Token.ofSource text = (ts ++ [⟨.done, e⟩], [])) :
    SourceUnit.ofSource text =
      ((Parse.sourceUnit ⟨ts, e, 1, []⟩).1, (Parse.sourceUnit ⟨ts, e, 1, []⟩).2.reports.reverse) := by
  rcases hrun : Parse.sourceUnit ⟨ts, e, 1, []⟩ with ⟨u, c⟩
  rw [SourceUnit.ofSource, h]
  simp only [Parse.start_append, StateT.run, List.nil_append, hrun]

section

open ClassTree
open Identifier (IsName isKeyword)

variable {tree : ClassTree} {settings : Settings}
  (hcontainer : ∀ part ∈ Text.dottedParts settings.container, IsName part ∧ isKeyword part = false)
  (hclasses : ∀ c ∈ tree.classes, AllNamed c)

include hcontainer hclasses

theorem ofSource_generated :
    SourceUnit.ofSource (source tree settings) =
      let c : Parse.Cursor :=
        ⟨Line.tokensFrom 1 (sourceLines tree settings), 1 + (sourceLines tree settings).length, 1, []⟩
      ((Parse.sourceUnit c).1, (Parse.sourceUnit c).2.reports.reverse) :=
  ofSource_tokens (tokens_source (fun part hpart => (hcontainer part hpart).1) hclasses)

/-- Source of which all members are accepted declares what it was generated for. -/
theorem ofSource_accepted (h : ∀ c ∈ tree.classes, Accepts settings c) :
    SourceUnit.ofSource (source tree settings) = (declaredSource tree settings, []) := by
  obtain ⟨l, hread⟩ := Parse.sourceUnit_read (e := 1 + (sourceLines tree settings).length) (l := 1)
    (r := []) tree (fun part hpart => (hcontainer part hpart).2) h
  rw [ofSource_generated hcontainer hclasses]
  dsimp only
  rw [hread]
  rfl

/-- Of source with a member that is not accepted something is reported. -/
theorem ofSource_rejected (h : ¬∀ c ∈ tree.classes, Accepts settings c) :
    (SourceUnit.ofSource (source tree settings)).2 ≠ [] := by
  have hsome : ∃ c ∈ tree.classes, ¬Accepts settings c := by
    push Not at h
    exact h
  rw [ofSource_generated hcontainer hclasses]
  dsimp only
  rw [Ne, List.reverse_eq_nil_iff]
  exact Parse.sourceUnit_rejected tree (fun part hpart => (hcontainer part hpart).2) hsome

theorem ofSource_severity :
    ∀ d ∈ (SourceUnit.ofSource (source tree settings)).2, d.severity = .error := by
  intro d hd
  rw [ofSource_generated hcontainer hclasses] at hd
  dsimp only at hd
  rw [List.mem_reverse] at hd
  obtain ⟨-, new, hnew, herror⟩ := Parse.sourceUnit_grows _
  rw [hnew, List.append_nil] at hd
  exact herror d hd

end

end DataClasses
