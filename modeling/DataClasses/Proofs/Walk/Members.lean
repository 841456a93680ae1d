import DataClasses.Proofs.Walk.Heads

/-!
# Walking over types and their members

Type declarations with their fields, properties, methods, constructors and values. A member that
leaves the position where it was gives way to the token it stands at.
-/

set_option autoImplicit false

namespace DataClasses.Walk

open Parse (openBrace closeBrace Leading accessorWords predefinedTypes bareName?)

variable {g : Course} {room : Nat} {p : Place}

def atTypeWord : Walk Bool := do
  let t ← peek
  let u ← peekAt 1
  pure (t.isOneOf ["class", "struct", "interface", "enum"] ||
    (t.isWord "record" && (u.isName || u.isOneOf ["class", "struct"])))

theorem atTypeWord_sees : Sees atTypeWord Parse.Cursor.atTypeWord :=
  (peekAt_sees 0).bind fun _ => (peekAt_sees 1).bind fun _ => .pure _

def canStartType : Walk Bool := do
  let t ← peek
  return t.isMark "(" || t.isOneOf predefinedTypes || t.isName || (← atRoot)

theorem canStartType_sees : Sees canStartType Parse.Cursor.canStartType :=
  (peekAt_sees 0).bind fun _ => atRoot_sees.bind fun _ => .pure _

def skipStatement : Walk Unit := do
  skipExpression [";", closeBrace]
  expectSemicolon

theorem skipStatement_follows : Follows g room Parse.skipStatement skipStatement :=
  (skipExpression_follows _).bind fun _ => expectSemicolon_follows

def skipBody : Walk Unit := do
  if ← atMark openBrace then skipBlock
  else if ← eatMark "=>" then skipStatement
  else expectSemicolon

theorem skipBody_follows : Follows g room Parse.skipBody skipBody :=
  (atMark_follows _).bind fun _ => .ite skipBlock_follows <|
    (eatMark_follows _).bind fun _ => .ite skipStatement_follows expectSemicolon_follows

def skipAccessorBody : Walk Unit := do
  if ← eatMark ";" then pure ()
  else if ← atMark openBrace then skipBlock
  else if ← eatMark "=>" then skipStatement
  else reportBehind .accessorBodyExpected

theorem skipAccessorBody_follows : Follows g room Parse.skipAccessorBody skipAccessorBody :=
  (eatMark_follows _).bind fun _ => .ite (.pure _) <| (atMark_follows _).bind fun _ =>
    .ite skipBlock_follows <| (eatMark_follows _).bind fun _ =>
    .ite skipStatement_follows (reportBehind_follows _)

def nextAccessor (acc : List String) : Walk (Round (List String) (List String)) := do
  if ← eatMark closeBrace then pure (.done acc)
  else if ← atEnd then
    report .closeBraceExpected (← peek).line
    pure (.done acc)
  else
    let _ ← leading
    let t ← peek
    match accessorWords.find? t.isWord with
    | none =>
      report .accessorExpected t.line
      skip 1
      pure (.again acc)
    | some word =>
      skip 1
      skipAccessorBody
      pure (.again (acc ++ [word]))

theorem nextAccessor_follows (acc : List String) :
    Follows g room (Parse.nextAccessor acc) (nextAccessor acc) := by
  refine (eatMark_follows _).bind fun _ => .ite (.pure _) <| atEnd_follows.bind fun _ => .ite ?_ ?_
  · exact peek_follows.bind fun _ => (report_follows _ _).bind fun _ => .pure _
  · refine leading_follows.bind fun _ => peek_follows.bind fun t => ?_
    cases accessorWords.find? t.isWord with
    | none => exact (report_follows _ _).bind fun _ => (skip_follows 1).bind fun _ => .pure _
    | some word => exact (skip_follows 1).bind fun _ => skipAccessorBody_follows.bind fun _ => .pure _

def accessors : Walk (List String) := do
  skip 1
  loop nextAccessor []

theorem accessors_follows : Follows g room Parse.accessors accessors :=
  (skip_follows 1).bind fun _ =>
    .loop (fun _ _ => Parse.nextAccessor_productive _) nextAccessor_follows []

def initialValue : Walk Unit := do
  if ← eatMark "=" then skipInitializer

theorem initialValue_follows : Follows g room Parse.initialValue initialValue :=
  (eatMark_follows "=").bind fun _ => .ite skipInitializer_follows (.pure _)

def declarators (first : String) : Walk (List String) := do
  let names ← loop (fun acc => do
    initialValue
    if ← eatMark "," then
      match ← expectName with
      | some name => pure (.again (acc ++ [name]))
      | none => pure (.done acc)
    else pure (.done acc)) [first]
  expectSemicolon
  pure names

theorem declarators_follows (first : String) :
    Follows g room (Parse.declarators first) (declarators first) := by
  refine (Follows.loop (fun acc c => ?_) (fun acc => ?_) _).bind fun _ =>
    expectSemicolon_follows.bind fun _ => .pure _
  · refine .after Parse.initialValue_grows (Nat.le_refl _) fun _ d hle =>
      .eatMark hle ?_ fun _ _ => .done _
    refine Parse.expectName_grows.bind fun name => ?_
    cases name <;> exact Parse.pure_grows _
  · refine initialValue_follows.bind fun _ =>
      (eatMark_follows ",").bind fun _ => .ite (expectName_follows.bind fun name => ?_) (.pure _)
    cases name <;> exact .pure _

def enumValues : Walk (List Member) :=
  loop (fun acc => do
    if (← atMark closeBrace) || (← atEnd) then pure (.done acc)
    else
      let lead ← leading
      let line := (← peek).line
      match ← expectName with
      | none =>
        skip 1
        pure (.again acc)
      | some name =>
        if ← eatMark "=" then skipExpression [",", closeBrace]
        let acc := acc ++ [Member.enumValue ⟨lead.attributes, name, line⟩]
        if ← eatMark "," then pure (.again acc) else pure (.done acc)) []

theorem enumValues_follows : Follows g room Parse.enumValues enumValues := by
  refine .loop (fun acc c => .look (x := Parse.atMark closeBrace) <| .look (x := Parse.atEnd) <|
    .ite (fun _ => .done _) fun hdone => ?_) (fun acc => ?_) _
  · have hpos : 0 < c.rest.length := by
      rw [Bool.or_eq_true, not_or, Bool.not_eq_true, Bool.not_eq_true] at hdone
      exact Parse.Cursor.length_pos hdone.2
    refine .after Parse.leading_grows (Nat.le_refl _) fun lead d hle => .look (x := Parse.current) <|
      .after Parse.expectName_grows hle fun name d hle => ?_
    cases name with
    | none => exact .skip hpos hle (Parse.pure_grows _)
    | some name =>
      exact .after (Parse.eatMark_grows "=") hle fun _ d hle =>
        .before (Parse.skipExpression_grows _) hle fun _ hle =>
        .eatMark hle (Parse.pure_grows _) fun _ _ => .done _
  · refine (atMark_follows _).bind fun _ => atEnd_follows.bind fun _ => .ite (.pure _) <|
      leading_follows.bind fun lead => peek_follows.bind fun t => expectName_follows.bind fun name => ?_
    cases name with
    | none => exact (skip_follows 1).bind fun _ => .pure _
    | some name =>
      exact (eatMark_follows "=").bind fun _ => .before (skipExpression_follows _) <|
        (eatMark_follows ",").bind fun _ => .ite (.pure _) (.pure _)

def constructor (type : Walk (Option TypeExpr)) (lead : Leading) : Walk Member := do
  let t ← advance
  let ps ← parameters type
  if ← eatMark ":" then
    skip 1
    if ← eatMark "(" then skipArguments
  skipBody
  pure (.constructor
    ⟨lead.attributes, lead.modifiers, none, t.identifier?.getD "", [], ps, t.line⟩)

def memberName (first : String) : Walk String :=
  loop (fun name => do
    let t ← peek
    let u ← peekAt 1
    if t.isMark "." && u.isName then
      skip 2
      pure (.again (u.name?.getD ""))
    else pure (.done name)) first

theorem memberName_follows (first : String) :
    Follows g room (Parse.memberName first) (memberName first) := by
  refine .loop (fun name c => .look (x := get) <| .ite (fun hmore => .first (Parse.skip_passes 1) ?_
    fun _ => Parse.pure_grows _) fun _ => .done _) (fun name => ?_) _
  · exact Token.not_done_of_isMark ((Bool.and_eq_true _ _).mp hmore).1
  · exact .test (peekAt_sees 0) fun p hp => .sees (peekAt_sees 1) hp <|
      .ite (fun _ => .skip hp fun _ hq _ => .pure hq _) fun _ => .pure hp _

def method (type : Walk (Option TypeExpr)) (lead : Leading) (returns : TypeExpr)
    (name : String) : Walk Member := do
  let tps ← typeParameters?
  let ps ← (do
    if ← atMark "(" then parameters type
    else
      reportBehind .openParenExpected
      pure [])
  skipConstraints
  skipBody
  pure (.method ⟨lead.attributes, lead.modifiers, some returns, name, tps, ps, returns.line⟩)

def typedMember (type : Walk (Option TypeExpr)) (lead : Leading) (t : TypeExpr)
    (name : String) : Walk Member := do
  if (← peek).isAnyMark ["(", "<"] then method type lead t name
  else if ← atMark openBrace then
    let words ← accessors
    if ← eatMark "=" then skipStatement
    pure (.property ⟨lead.attributes, lead.modifiers, t, name, words, false, t.line⟩)
  else if ← eatMark "=>" then
    skipStatement
    pure (.property ⟨lead.attributes, lead.modifiers, t, name, ["get"], true, t.line⟩)
  else
    let names ← declarators name
    pure (.field ⟨lead.attributes, lead.modifiers, t, names, t.line⟩)

def memberOfType (type : Walk (Option TypeExpr)) (lead : Leading) (t : TypeExpr) :
    Walk (Option Member) := do
  let u ← peek
  match bareName? t, u.isMark "(" with
  | some name, true =>
    report .returnTypeMissing t.line
    let ps ← parameters type
    skipBody
    pure (some (.method ⟨lead.attributes, lead.modifiers, none, name, [], ps, t.line⟩))
  | _, _ =>
    if u.isWord "operator" || (u.isWord "this" && (← peekAt 1).isMark "[") then
      skipMember
      pure none
    else
      match ← expectName with
      | none =>
        skipMember
        pure none
      | some first =>
        let name ← memberName first
        some <$> typedMember type lead t name

def member (type : Walk (Option TypeExpr)) (nest : Leading → Walk (TypeHead × List Member))
    (typeName : String) : Walk (Option Member) := do
  let lead ← leading
  let t ← peek
  if ← atTypeWord then
    let (head, members) ← nest lead
    pure (some (.nested head members))
  else if t.isOneOf ["event", "delegate", "implicit", "explicit"] || t.isMark "~" then
    skipMember
    pure none
  else if t.identifier? == some typeName && (← peekAt 1).isMark "(" then
    some <$> constructor type lead
  else if !(← canStartType) then
    report (.invalidMember t.spelling) t.line
    skip 1
    pure none
  else
    match ← type with
    | none => pure none
    | some ty => memberOfType type lead ty

def nextMember (item : Walk (Option Member)) (acc : List Member) :
    Walk (Round (List Member) (List Member)) := do
  let t ← peek
  if t.isDone || t.isMark closeBrace then pure (.done acc)
  else if t.isMark ";" then
    skip 1
    pure (.again acc)
  else
    let start := (← get).position
    let found ← item
    if (← get).position == start then skip 1
    pure (.again (acc ++ found.toList))

def members (item : Walk (Option Member)) : Walk (List Member) := loop (nextMember item) []

section

variable {type : Parse (Option TypeExpr)} {step : Walk (Option TypeExpr)}
  {nested : Leading → Parse (TypeHead × List Member)} {nest : Leading → Walk (TypeHead × List Member)}
  (hgrows : Parse.Grows type) (h : Follows g room type step)

include hgrows h

theorem constructor_follows (lead : Leading) :
    Follows g room (Parse.constructor type lead) (constructor step lead) := by
  refine advance_follows.bind fun t => (parameters_follows hgrows h).bind fun ps =>
    (eatMark_follows ":").bind fun _ => .ite ?_ (skipBody_follows.bind fun _ => .pure _)
  exact (skip_follows 1).bind fun _ => (eatMark_follows "(").bind fun _ =>
    .before skipArguments_follows (skipBody_follows.bind fun _ => .pure _)

theorem method_follows (lead : Leading) (returns : TypeExpr) (name : String) :
    Follows g room (Parse.method type lead returns name) (method step lead returns name) := by
  refine typeParameters?_follows.bind fun tps => Follows.bind ?_ fun ps =>
    skipConstraints_follows.bind fun _ => skipBody_follows.bind fun _ => .pure _
  exact (atMark_follows "(").bind fun _ =>
    .ite (parameters_follows hgrows h) ((reportBehind_follows _).bind fun _ => .pure _)

theorem typedMember_follows (lead : Leading) (t : TypeExpr) (name : String) :
    Follows g room (Parse.typedMember type lead t name) (typedMember step lead t name) := by
  refine peek_follows.bind fun _ => .ite (method_follows hgrows h lead t name) ?_
  refine (atMark_follows _).bind fun _ => .ite ?accessors ?_
  case accessors =>
    exact accessors_follows.bind fun words => (eatMark_follows "=").bind fun _ =>
      .before skipStatement_follows (.pure _)
  refine (eatMark_follows "=>").bind fun _ => .ite ?expression ?field
  case expression => exact skipStatement_follows.bind fun _ => .pure _
  case field => exact (declarators_follows name).bind fun _ => .pure _

theorem memberOfType_follows (lead : Leading) (t : TypeExpr) :
    Follows g room (Parse.memberOfType type lead t) (memberOfType step lead t) := by
  refine .test (peekAt_sees 0) fun p hp => ?_
  rcases bareName? t with _ | name <;> rcases ((g.cursor p).ahead 0).isMark "(" with _ | _
  case some.true =>
    exact (report_follows _ _).bind (fun _ => (parameters_follows hgrows h).bind fun _ =>
      skipBody_follows.bind fun _ => .pure _) p hp
  all_goals
    refine .sees (peekAt_sees 1) hp <| .ite (fun _ => skipMember_follows.bind (fun _ => .pure _) p hp)
      fun _ => expectName_follows.bind (fun first => ?_) p hp
    cases first with
    | none => exact skipMember_follows.bind fun _ => .pure _
    | some first =>
      exact (memberName_follows first).bind fun _ => (typedMember_follows hgrows h lead t _).map _

theorem member_follows (hnested : ∀ lead, Follows g room (nested lead) (nest lead)) (typeName : String) :
    Follows g room (Parse.member type nested typeName) (member step nest typeName) := by
  refine leading_follows.bind fun lead => .test (peekAt_sees 0) fun p hp => ?_
  refine .sees atTypeWord_sees hp <| .ite (fun _ => ?nested) fun _ => ?_
  case nested => exact (hnested lead).bind (fun _ => .pure _) p hp
  refine .ite (fun _ => ?leftOut) fun _ => ?_
  case leftOut => exact skipMember_follows.bind (fun _ => .pure _) p hp
  refine .sees (peekAt_sees 1) hp <| .ite (fun _ => ?constructor) fun _ => ?_
  case constructor => exact (constructor_follows hgrows h lead).map _ p hp
  refine .sees canStartType_sees hp <| .ite (fun _ => ?invalid) fun _ => ?typed
  case invalid => exact (report_follows _ _).bind (fun _ => (skip_follows 1).bind fun _ => .pure _) p hp
  case typed =>
    refine h.bind (fun found => ?_) p hp
    cases found with
    | none => exact .pure _
    | some t => exact memberOfType_follows hgrows h lead t

end

theorem nextMember_follows {item : Parse (Option Member)} {step : Walk (Option Member)}
    (h : Follows g room item step) (acc : List Member) :
    Follows g room (Parse.nextMember item acc) (nextMember step acc) := by
  refine .test (peekAt_sees 0) fun p hp => .ite (fun _ => .pure hp _) fun _ => .ite (fun _ => ?_) fun _ => ?_
  · exact .skip hp fun _ hq _ => .pure hq _
  · refine .look rfl <| (h p hp).bind fun q hq hcursor => ?_
    -- The reader knows how many tokens are left, the walk how many are passed.
    have hmoved : ((g.cursor q).rest.length == (g.cursor p).rest.length) = (q.position == p.position) := by
      have hp := hp.inside
      have hq := hq.inside
      rw [Bool.eq_iff_iff, beq_iff_eq, beq_iff_eq, Course.length_rest, Course.length_rest]
      omega
    let next : Parse (Round (List Member) (List Member)) :=
      pure (.again (acc ++ (item (g.cursor p)).1.toList))
    refine .look rfl <| .congr
      (y := if (q.position == p.position) = true then Parse.skip 1 >>= fun _ => next else next) ?_ <|
      .ite (fun _ => .skip hq fun _ hr _ => .pure hr _) fun _ => .pure hq _
    rw [Parse.bind_apply, Parse.get_apply, ← hmoved]

theorem members_follows {item : Parse (Option Member)} {step : Walk (Option Member)}
    (hgrows : Parse.Grows item) (h : Follows g room item step) :
    Follows g room (Parse.members item) (members step) :=
  .loop (fun _ _ => Parse.nextMember_productive hgrows _) (nextMember_follows h) []

def typeKind : Walk TypeKind := do
  let word := (← advance).identifier?
  if word == some "struct" then pure .struct
  else if word == some "interface" then pure .interface
  else if word == some "enum" then pure .enum
  else if word == some "record" then
    if !(← eatWord "class") then
      let _ ← eatWord "struct"
    pure .record
  else pure .plainClass

theorem typeKind_follows : Follows g room Parse.typeKind typeKind := by
  refine advance_follows.bind fun t => ?_
  split
  · next hword =>
    rw [hword]
    exact .pure _
  · next hword =>
    rw [hword]
    exact .pure _
  · next hword =>
    rw [hword]
    exact .pure _
  · next hword =>
    rw [hword]
    refine (eatWord_follows "class").bind fun _ => .ite ?_ (.pure _)
    exact (eatWord_follows "struct").bind fun _ => .pure _
  · next hstruct hinterface henum hrecord =>
    simp only [beq_iff_eq]
    rw [if_neg hstruct, if_neg hinterface, if_neg henum, if_neg hrecord]
    exact .pure _

def baseTypes (type : Walk (Option TypeExpr)) : Walk (List TypeExpr) :=
  commaList (do
    let t ← type
    if ← eatMark "(" then skipArguments
    pure t)

def typeBody (kind : TypeKind) (item : Walk (Option Member)) : Walk (List Member) := do
  if ← eatMark ";" then pure []
  else
    let inside ← (do
      if ← expectMark openBrace .openBraceExpected then
        let inside ← if kind == .enum then enumValues else members item
        let _ ← expectMark closeBrace .closeBraceExpected
        pure inside
      else pure [])
    let _ ← eatMark ";"
    pure inside

def typeDeclWith (type : Walk (Option TypeExpr))
    (nest : Leading → Walk (TypeHead × List Member)) (lead : Leading) :
    Walk (TypeHead × List Member) := do
  let line := (← peek).line
  let kind ← typeKind
  let name := (← expectName).getD ""
  let tps ← typeParameters?
  let ps ← parameters? type
  let bases ← (do if ← eatMark ":" then baseTypes type else pure [])
  skipConstraints
  let inside ← typeBody kind (member type nest name)
  pure (⟨kind, name, tps, lead.modifiers, lead.attributes, bases, ps, line⟩, inside)

def typeDecl : Nat → Leading → Walk (TypeHead × List Member)
  | 0 => fun _ => failure
  | n + 1 => fun lead => do
    let line := (← peek).line
    nested line (typeDeclWith (typeExpr n) (typeDecl n) lead)
      (do
        skipMember
        let _ ← eatMark ";"
        pure (⟨.plainClass, "", [], lead.modifiers, lead.attributes, [], [], line⟩, []))

theorem baseTypes_follows {type : Parse (Option TypeExpr)} {step : Walk (Option TypeExpr)}
    (hgrows : Parse.Grows type) (h : Follows g room type step) :
    Follows g room (Parse.baseTypes type) (baseTypes step) := by
  refine commaList_follows ?_ ?_
  · exact hgrows.bind fun _ => (Parse.eatMark_grows "(").bind fun _ =>
      .before Parse.skipArguments_grows (Parse.pure_grows _)
  · exact h.bind fun _ => (eatMark_follows "(").bind fun _ => .before skipArguments_follows (.pure _)

theorem typeBody_follows (kind : TypeKind) {item : Parse (Option Member)} {step : Walk (Option Member)}
    (hgrows : Parse.Grows item) (h : Follows g room item step) :
    Follows g room (Parse.typeBody kind item) (typeBody kind step) := by
  refine (eatMark_follows ";").bind fun _ => .ite (.pure _) (Follows.bind ?_ fun inside =>
    (eatMark_follows ";").bind fun _ => .pure _)
  refine (expectMark_follows _ _).bind fun _ => .ite (.ite ?_ ?_) (.pure _)
  · exact enumValues_follows.bind fun _ => (expectMark_follows _ _).bind fun _ => .pure _
  · exact (members_follows hgrows h).bind fun _ => (expectMark_follows _ _).bind fun _ => .pure _

theorem typeDeclWith_follows {type : Parse (Option TypeExpr)} {step : Walk (Option TypeExpr)}
    {nested : Leading → Parse (TypeHead × List Member)} {nest : Leading → Walk (TypeHead × List Member)}
    (hgrows : Parse.Grows type) (h : Follows g room type step)
    (hnested_grows : ∀ lead, Parse.Grows (nested lead))
    (hnested : ∀ lead, Follows g room (nested lead) (nest lead)) (lead : Leading) :
    Follows g room (Parse.typeDeclWith type nested lead) (typeDeclWith step nest lead) := by
  refine peek_follows.bind fun t => typeKind_follows.bind fun kind => expectName_follows.bind fun name =>
    typeParameters?_follows.bind fun tps => (parameters?_follows hgrows h).bind fun ps =>
    Follows.bind ?_ fun bases => skipConstraints_follows.bind fun _ => Follows.bind ?_ fun _ => .pure _
  · exact (eatMark_follows ":").bind fun _ => .ite (baseTypes_follows hgrows h) (.pure _)
  · exact typeBody_follows kind (Parse.member_grows hgrows hnested_grows _)
      (member_follows hgrows h hnested _)

theorem typeDecl_follows {n : Nat} (hn : room < n) (lead : Leading) :
    Follows g room (Parse.typeDecl room lead) (typeDecl n lead) := by
  induction n generalizing room lead with
  | zero => exact absurd hn (Nat.not_lt_zero _)
  | succ n ih =>
    cases room with
    | zero =>
      exact peek_follows.bind fun t => nested_past t.line <| skipMember_follows.bind fun _ =>
        (eatMark_follows ";").bind fun _ => .pure _
    | succ room =>
      have hroom : room < n := Nat.lt_of_succ_lt_succ hn
      intro p hp
      exact .sees (peekAt_sees 0) hp (nested_follows _ (typeDeclWith_follows (Parse.typeExpr_grows room)
        (typeExpr_follows hroom) (Parse.typeDecl_grows room) (ih hroom) lead) p hp)

end DataClasses.Walk
