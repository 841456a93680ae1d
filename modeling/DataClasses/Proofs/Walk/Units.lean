import DataClasses.Proofs.Walk.Members

/-!
# Walking over whole sources

Imports, namespaces and the types in them, with what is out of place passed over.
-/

set_option autoImplicit false

namespace DataClasses.Walk

open Parse (openBrace closeBrace Leading)

variable {g : Course} {room : Nat} {p : Place}

def atImport : Walk Bool := do
  let t ← peek
  let u ← peekAt 1
  pure (t.isWord "using" || (t.isWord "global" && u.isWord "using"))

theorem atImport_sees : Sees atImport Parse.Cursor.atImport :=
  (peekAt_sees 0).bind fun _ => (peekAt_sees 1).bind fun _ => .pure _

def shortName : Walk (Option String) := do
  let t ← peek
  if t.isName && (← peekAt 1).isMark "=" then
    skip 2
    pure t.name?
  else pure none

theorem shortName_follows : Follows g room Parse.shortName? shortName := by
  refine .fromCursor fun p hp =>
    .sees (peekAt_sees 0) hp <| .sees (peekAt_sees 1) hp <| .ite (fun _ => ?_) fun _ => .pure hp _
  exact .skip hp fun _ hq _ => .pure hq _

def importDecl (type : Walk (Option TypeExpr)) : Walk Import := do
  let isGlobal ← eatWord "global"
  let line := (← advance).line
  let isStatic ← eatWord "static"
  let shortName ← shortName
  let target ← dottedName
  if ← atMark "<" then
    let _ ← typeArguments type
  expectSemicolon
  pure ⟨target, shortName, isStatic, isGlobal, line⟩

def nextImport (type : Walk (Option TypeExpr)) (acc : List Import) :
    Walk (Round (List Import) (List Import)) := do
  if ← atImport then
    let i ← importDecl type
    pure (.again (acc ++ [i]))
  else pure (.done acc)

def imports (type : Walk (Option TypeExpr)) : Walk (List Import) := loop (nextImport type) []

section

variable {type : Parse (Option TypeExpr)} {step : Walk (Option TypeExpr)}
  (hgrows : Parse.Grows type) (h : Follows g room type step)

include hgrows h

theorem importDecl_follows : Follows g room (Parse.importDecl type) (importDecl step) := by
  refine (eatWord_follows "global").bind fun isGlobal => advance_follows.bind fun t =>
    (eatWord_follows "static").bind fun isStatic => shortName_follows.bind fun _ =>
    dottedName_follows.bind fun target => (atMark_follows "<").bind fun _ => .ite ?_ ?_
  · exact (typeArguments_follows hgrows h).bind fun _ => expectSemicolon_follows.bind fun _ => .pure _
  · exact expectSemicolon_follows.bind fun _ => .pure _

theorem imports_follows : Follows g room (Parse.imports type) (imports step) := by
  refine .loop (fun _ _ => Parse.nextImport_productive hgrows _) (fun acc => ?_) []
  exact .test atImport_sees fun p hp => .ite
    (fun _ => (importDecl_follows hgrows h).bind (fun _ => .pure _) p hp) fun _ => .pure hp _

end

def atDeclaration : Walk Bool := do
  let t ← peek
  return t.isDone || t.isAnyMark [closeBrace, "["] || t.isOneOf ["namespace", "delegate"] ||
    (← atImport) || (← atTypeWord) || (← atModifier)

theorem atDeclaration_sees : Sees atDeclaration Parse.Cursor.atDeclaration :=
  (peekAt_sees 0).bind fun _ => atImport_sees.bind fun _ => atTypeWord_sees.bind fun _ =>
    atModifier_sees.bind fun _ => .pure _

def skipBlockOrToken : Walk Unit := do
  if ← atMark openBrace then skipBlock else skip 1

theorem skipBlockOrToken_follows : Follows g room Parse.skipBlockOrToken skipBlockOrToken :=
  (atMark_follows _).bind fun _ => .ite skipBlock_follows (skip_follows 1)

def recover : Walk Unit := do
  report .misplaced (← peek).line
  skipBlockOrToken
  loop (fun _ => do
    if ← atDeclaration then pure (.done ())
    else
      skipBlockOrToken
      pure (.again ())) ()

theorem recover_follows : Follows g room Parse.recover recover := by
  refine peek_follows.bind fun t => (report_follows _ _).bind fun _ => skipBlockOrToken_follows.bind
    fun _ => .loop (fun _ c => ?_) (fun _ => ?_) ()
  · refine .look (x := get) <| .ite (fun _ => .done _) fun hnot =>
      .first Parse.skipBlockOrToken_passes ?_ fun _ => Parse.pure_grows _
    exact Parse.Cursor.not_done_of_not_atDeclaration hnot
  · exact .test atDeclaration_sees fun p hp => .ite (fun _ => .pure hp _) fun _ =>
      skipBlockOrToken_follows.bind (fun _ => .pure _) p hp

structure Inner where
  type : Walk (Option TypeExpr)
  typeDecl : Leading → Walk (TypeHead × List Member)
  scope : Walk Declaration

def declaration (inner : Inner) (enclosed : Bool) (acc : List Declaration) :
    Walk (Round (List Declaration) (List Declaration)) := do
  let t ← peek
  if t.isDone then
    if enclosed then report .closeBraceExpected t.line
    pure (.done acc)
  else if t.isMark closeBrace then
    if enclosed then pure (.done acc)
    else
      report .misplaced t.line
      skip 1
      pure (.again acc)
  else if t.isWord "namespace" then
    let d ← inner.scope
    pure (.again (acc ++ [d]))
  else if ← atImport then
    report .lateImport t.line
    let _ ← importDecl inner.type
    pure (.again acc)
  else if t.isWord "extern" && (← peekAt 1).isWord "alias" then
    skipMember
    pure (.again acc)
  else
    let start := (← get).position
    let lead ← leading
    let u ← peek
    if u.isWord "delegate" then
      skipMember
      pure (.again acc)
    else if ← atTypeWord then
      let (head, members) ← inner.typeDecl lead
      pure (.again (acc ++ [.type head members]))
    else if start < (← get).position && u.isDone then pure (.again acc)
    else
      recover
      pure (.again acc)

def declarations (inner : Inner) (enclosed : Bool) : Walk (List Declaration) :=
  loop (declaration inner enclosed) []

def scopeBody (inner : Inner) (name : DottedName) (line : Nat) : Walk Declaration := do
  if ← eatMark ";" then
    let is ← imports inner.type
    let members ← declarations inner false
    pure (.scope ⟨name, is, true, line⟩ members)
  else
    let _ ← expectMark openBrace .openBraceExpected
    let is ← imports inner.type
    let members ← declarations inner true
    let _ ← expectMark closeBrace .closeBraceExpected
    let _ ← eatMark ";"
    pure (.scope ⟨name, is, false, line⟩ members)

def scope : Nat → Walk Declaration
  | 0 => failure
  | n + 1 => do
    let line := (← advance).line
    let name ← dottedName
    nested line (scopeBody ⟨typeExpr n, typeDecl n, scope n⟩ name line)
      (do
        skipMember
        let _ ← eatMark ";"
        pure (.scope ⟨name, [], false, line⟩ []))

def sourceUnit (n : Nat) : Walk SourceUnit := do
  let is ← imports (typeExpr n)
  let members ← declarations ⟨typeExpr n, typeDecl n, scope n⟩ false
  pure ⟨is, members⟩

structure Inner.Follow (g : Course) (room : Nat) (inner : Parse.Inner) (step : Inner) : Prop
    extends inner.Move where
  type_follows : Follows g room inner.type step.type
  typeDecl_follows : ∀ lead, Follows g room (inner.typeDecl lead) (step.typeDecl lead)
  scope_follows : Follows g room inner.scope step.scope

theorem declaration_follows {inner : Parse.Inner} {step : Inner} (h : Inner.Follow g room inner step)
    (enclosed : Bool) (acc : List Declaration) :
    Follows g room (Parse.declaration inner enclosed acc) (declaration step enclosed acc) := by
  refine .test (peekAt_sees 0) fun p hp => ?_
  refine .ite (fun _ => ?done) fun _ => ?_
  case done => exact .ite (fun _ => (report_follows _ _).bind (fun _ => .pure _) p hp) fun _ => .pure hp _
  refine .ite (fun _ => ?brace) fun _ => ?_
  case brace =>
    refine .ite (fun _ => .pure hp _) fun _ => ?_
    exact (report_follows _ _).bind (fun _ => (skip_follows 1).bind fun _ => .pure _) p hp
  refine .ite (fun _ => ?scope) fun _ => ?_
  case scope => exact h.scope_follows.bind (fun _ => .pure _) p hp
  refine .sees atImport_sees hp <| .ite (fun _ => ?lateImport) fun _ => ?_
  case lateImport =>
    have himport := importDecl_follows h.type h.type_follows
    exact (report_follows _ _).bind (fun _ => himport.bind fun _ => .pure _) p hp
  refine .sees (peekAt_sees 1) hp <| .ite (fun _ => ?externAlias) fun _ => ?_
  case externAlias => exact skipMember_follows.bind (fun _ => .pure _) p hp
  refine .look rfl <| (leading_follows p hp).bind fun q hq _ => ?_
  refine .test (peekAt_sees 0) hq <| .ite (fun _ => ?delegate) fun _ => ?_
  case delegate => exact skipMember_follows.bind (fun _ => .pure _) q hq
  refine .sees atTypeWord_sees hq <| .ite (fun _ => ?type) fun _ => .look rfl ?_
  case type => exact (h.typeDecl_follows _).bind (fun _ => .pure _) q hq
  have hmoved : decide ((g.cursor q).rest.length < (g.cursor p).rest.length) =
      decide (p.position < q.position) := by
    have hp := hp.inside
    have hq := hq.inside
    rw [Bool.eq_iff_iff, decide_eq_true_iff, decide_eq_true_iff, Course.length_rest, Course.length_rest]
    omega
  rw [hmoved]
  exact .ite (fun _ => .pure hq _) fun _ => recover_follows.bind (fun _ => .pure _) q hq

theorem declarations_follows {inner : Parse.Inner} {step : Inner} (h : Inner.Follow g room inner step)
    (enclosed : Bool) : Follows g room (Parse.declarations inner enclosed) (declarations step enclosed) :=
  .loop (fun _ _ => Parse.declaration_productive h.toMove enclosed _) (declaration_follows h enclosed) []

theorem scopeBody_follows {inner : Parse.Inner} {step : Inner} (h : Inner.Follow g room inner step)
    (name : DottedName) (line : Nat) :
    Follows g room (Parse.scopeBody inner name line) (scopeBody step name line) := by
  refine (eatMark_follows ";").bind fun _ => .ite ?_ ((expectMark_follows _ _).bind fun _ => ?_)
  · exact (imports_follows h.type h.type_follows).bind fun _ => (declarations_follows h false).bind
      fun _ => .pure _
  · exact (imports_follows h.type h.type_follows).bind fun _ => (declarations_follows h true).bind
      fun _ => (expectMark_follows _ _).bind fun _ => (eatMark_follows ";").bind fun _ => .pure _

theorem scope_follows {n : Nat} (hn : room < n) : Follows g room (Parse.scope room) (scope n) := by
  induction n generalizing room with
  | zero => exact absurd hn (Nat.not_lt_zero _)
  | succ n ih =>
    cases room with
    | zero =>
      exact advance_follows.bind fun t => dottedName_follows.bind fun name => nested_past t.line <|
        skipMember_follows.bind fun _ => (eatMark_follows ";").bind fun _ => .pure _
    | succ room =>
      have hroom : room < n := Nat.lt_of_succ_lt_succ hn
      exact advance_follows.bind fun t => dottedName_follows.bind fun name => nested_follows t.line <|
        scopeBody_follows ⟨Parse.inner_move room, typeExpr_follows hroom, typeDecl_follows hroom,
          ih hroom⟩ name t.line

theorem inner_follow {n : Nat} (hn : room < n) :
    Inner.Follow g room ⟨Parse.typeExpr room, Parse.typeDecl room, Parse.scope room⟩
      ⟨typeExpr n, typeDecl n, scope n⟩ :=
  ⟨Parse.inner_move room, typeExpr_follows hn, typeDecl_follows hn, scope_follows hn⟩

theorem sourceUnit_follows {n : Nat} (hn : Parse.depthLimit < n) :
    Follows g Parse.depthLimit Parse.sourceUnit (sourceUnit n) := by
  have hinner := inner_follow (g := g) hn
  unfold Parse.sourceUnit sourceUnit
  exact (imports_follows hinner.type hinner.type_follows).bind fun _ =>
    (declarations_follows hinner false).bind fun _ => .pure _

end DataClasses.Walk
