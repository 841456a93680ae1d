import DataClasses.Proofs.Walk.Types

/-!
# Walking over the heads of declarations

Attributes, modifiers, type parameters, constraints and parameters.
-/

set_option autoImplicit false

namespace DataClasses.Walk

open Parse (openBrace closeBrace Leading modifierWords contextualWords parameterWords)

variable {g : Course} {room : Nat} {p : Place}

def atModifier : Walk Bool := do
  let t ← peek
  let u ← peekAt 1
  pure (t.isOneOf modifierWords || (u.isIdentifier && t.isOneOf contextualWords))

theorem atModifier_sees : Sees atModifier Parse.Cursor.atModifier :=
  (peekAt_sees 0).bind fun _ => (peekAt_sees 1).bind fun _ => .pure _

def textArgument? : Walk (Option String) := do
  match (← peek).kind with
  | .text value => return if (← peekAt 1).isAnyMark [",", ")"] then some value else none
  | _ => pure none

theorem textArgument?_sees : Sees textArgument? Parse.Cursor.textArgument? := by
  intro g room p hp
  rw [textArgument?, Parse.Cursor.textArgument?, bind_of (peek_apply hp)]
  cases ((g.cursor p).ahead 0).kind with
  | text value => exact bind_of (peekAt_apply hp 1)
  | _ => rfl

def oneAttribute : Walk Attribute := do
  let line := (← peek).line
  let name ← dottedName
  if ← eatMark "(" then
    let argument ← textArgument?
    skipArguments
    pure ⟨name, argument, line⟩
  else pure ⟨name, none, line⟩

theorem oneAttribute_follows : Follows g room Parse.oneAttribute oneAttribute := by
  refine peek_follows.bind fun _ => dottedName_follows.bind fun _ => (eatMark_follows "(").bind fun _ =>
    .ite (.test textArgument?_sees fun p hp => ?_) (.pure _)
  exact skipArguments_follows.bind (fun _ => .pure _) p hp

def attributeTarget : Walk (Option String) := do
  let t ← peek
  if t.isIdentifier && (← peekAt 1).isMark ":" then
    skip 2
    pure t.identifier?
  else pure none

def attributeSection : Walk (Option String × List Attribute) := do
  skip 1
  let target ← attributeTarget
  let attributes ← loop (fun acc => do
    let acc := acc ++ [← oneAttribute]
    if ← eatMark "," then
      if ← atMark "]" then pure (.done acc) else pure (.again acc)
    else pure (.done acc)) []
  let _ ← expectMark "]" .closeBracketExpected
  pure (target, attributes)

theorem attributeTarget_follows : Follows g room Parse.attributeTarget? attributeTarget := by
  refine .fromCursor fun p hp =>
    .sees (peekAt_sees 0) hp <| .sees (peekAt_sees 1) hp <| .ite (fun _ => ?_) fun _ => .pure hp _
  exact .skip hp fun _ hq _ => .pure hq _

theorem attributeSection_follows : Follows g room Parse.attributeSection attributeSection := by
  refine (skip_follows 1).bind fun _ => attributeTarget_follows.bind fun _ =>
    (Follows.loop (fun acc c => ?_) (fun acc => ?_) _).bind
      (fun _ => (expectMark_follows _ _).bind fun _ => .pure _)
  · refine .after Parse.oneAttribute_grows (Nat.le_refl _) fun _ d hle => .eatMark hle ?_ fun _ _ => .done _
    exact (Parse.atMark_grows "]").bind fun _ => .ite (Parse.pure_grows _) (Parse.pure_grows _)
  · refine oneAttribute_follows.bind fun _ => (eatMark_follows ",").bind fun _ => .ite ?_ (.pure _)
    exact (atMark_follows "]").bind fun _ => .ite (.pure _) (.pure _)

def attributes : Walk (List Attribute) :=
  loop (fun acc => do
    if ← atMark "[" then
      let (target, attributes) ← attributeSection
      pure (.again (if target == some "assembly" || target == some "module" then acc
        else acc ++ attributes))
    else pure (.done acc)) []

theorem attributes_follows : Follows g room Parse.attributes attributes := by
  refine .loop (fun acc c => .look (x := Parse.atMark "[") <| .ite (fun hmark => ?_) fun _ => .done _)
    (fun acc => ?_) _
  · exact .first Parse.attributeSection_passes (Token.not_done_of_isMark hmark) fun _ => Parse.pure_grows _
  · exact (atMark_follows "[").bind fun _ => .ite (attributeSection_follows.bind fun _ => .pure _) (.pure _)

def modifiers : Walk (List String) :=
  loop (fun acc => do
    if ← atModifier then
      let t ← advance
      pure (.again (acc ++ t.identifier?.toList))
    else pure (.done acc)) []

theorem modifiers_follows : Follows g room Parse.modifiers modifiers := by
  refine .loop (fun acc c => .look (x := get) <| .ite (fun hmodifier => ?_) fun _ => .done _)
    (fun acc => .test atModifier_sees fun p hp => .ite (fun _ => ?_) fun _ => .pure hp _) _
  · exact .first (Parse.skip_passes 0) (Parse.Cursor.not_done_of_atModifier hmodifier)
      fun _ => Parse.pure_grows _
  · exact .keep hp fun _ hq _ => .pure hq _

def leading : Walk Leading := do
  let attributes ← attributes
  let modifiers ← modifiers
  pure ⟨attributes, modifiers⟩

theorem leading_follows : Follows g room Parse.leading leading :=
  attributes_follows.bind fun _ => modifiers_follows.bind fun _ => .pure _

def skipAttributes : Walk Unit :=
  loop (fun _ => do
    if ← atMark "[" then
      let _ ← attributeSection
      pure (.again ())
    else pure (.done ())) ()

theorem skipAttributes_follows : Follows g room Parse.skipAttributes skipAttributes := by
  refine .loop (fun _ c => .look (x := Parse.atMark "[") <| .ite (fun hmark => ?_) fun _ => .done _)
    (fun _ => ?_) _
  · exact .first Parse.attributeSection_passes (Token.not_done_of_isMark hmark) fun _ => Parse.pure_grows _
  · exact (atMark_follows "[").bind fun _ => .ite (attributeSection_follows.bind fun _ => .pure _) (.pure _)

def typeParameters : Walk (List String) := do
  skip 1
  let names ← commaList (do
    skipAttributes
    if (← peek).isOneOf ["in", "out"] then skip 1
    expectName)
  let _ ← expectMark ">" .closeAngleExpected
  pure names

theorem typeParameters_follows : Follows g room Parse.typeParameters typeParameters := by
  refine (skip_follows 1).bind fun _ => (commaList_follows ?_ ?_).bind fun _ =>
    (expectMark_follows _ _).bind fun _ => .pure _
  · exact Parse.skipAttributes_grows.bind fun _ => Parse.current_grows.bind fun _ =>
      .before (Parse.skip_grows 1) Parse.expectName_grows
  · exact skipAttributes_follows.bind fun _ => peek_follows.bind fun _ =>
      .before (skip_follows 1) expectName_follows

def typeParameters? : Walk (List String) := do
  if ← atMark "<" then typeParameters else pure []

theorem typeParameters?_follows : Follows g room Parse.typeParameters? typeParameters? :=
  (atMark_follows "<").bind fun _ => .ite typeParameters_follows (.pure _)

def endsConstraints (t : Token) : Bool := t.isAnyMark [openBrace, ";", "=>"]

def skipConstraint : Walk Unit :=
  loop (fun _ => do
    let t ← peek
    if t.isDone || endsConstraints t then pure (.done ())
    else
      skip 1
      if ← atWord "where" then pure (.done ()) else pure (.again ())) ()

def skipConstraints : Walk Unit :=
  loop (fun _ => do
    if ← atWord "where" then
      skipConstraint
      pure (.again ())
    else pure (.done ())) ()

def startsConstraint : List Token → Bool
  | [] => false
  | t :: _ => t.isWord "where"

def constraintLength : List Token → Nat
  | [] => 0
  | t :: ts =>
    if endsConstraints t then 0
    else if startsConstraint ts then 1
    else constraintLength ts + 1

def constraintsLength (ts : List Token) : Nat := (ts.takeWhile fun t => !endsConstraints t).length

theorem constraintsLength_cons {t : Token} (ts : List Token) (h : endsConstraints t = false) :
    constraintsLength (t :: ts) = constraintsLength ts + 1 := by
  simp [constraintsLength, h]

theorem constraintsLength_of_ends {t : Token} (ts : List Token) (h : endsConstraints t = true) :
    constraintsLength (t :: ts) = 0 := by
  simp [constraintsLength, h]

def behindConstraint (ts : List Token) : List Token := ts.drop (constraintLength ts)

/-- A clause is not empty, and behind it stand the others or the end of all. -/
theorem constraintsLength_split {t : Token} (ts : List Token) (h : endsConstraints t = false) :
    0 < constraintLength (t :: ts) ∧
      constraintsLength (t :: ts) = constraintLength (t :: ts) +
        if startsConstraint (behindConstraint (t :: ts)) then
          constraintsLength (behindConstraint (t :: ts)) else 0 := by
  induction ts generalizing t with
  | nil =>
    have hlength : constraintLength [t] = 1 := by simp [constraintLength, h, startsConstraint]
    rw [constraintsLength_cons _ h]
    simp [behindConstraint, hlength, startsConstraint, constraintsLength]
  | cons u us ih =>
    rw [constraintsLength_cons _ h]
    cases hstarts : startsConstraint (u :: us) with
    | true =>
      have hlength : constraintLength (t :: u :: us) = 1 := by simp [constraintLength, h, hstarts]
      simp [behindConstraint, hlength, hstarts, Nat.add_comm]
    | false =>
      have hlength : constraintLength (t :: u :: us) = constraintLength (u :: us) + 1 := by
        rw [constraintLength]
        simp [h, hstarts]
      have hbehind : behindConstraint (t :: u :: us) = behindConstraint (u :: us) := by
        rw [behindConstraint, hlength]
        rfl
      rw [hlength, hbehind]
      cases hends : endsConstraints u with
      | true =>
        have hzero : constraintLength (u :: us) = 0 := by simp [constraintLength, hends]
        simp [constraintsLength_of_ends us hends, hzero, behindConstraint, hstarts]
      | false =>
        obtain ⟨-, hsplit⟩ := ih hends
        omega

theorem startsConstraint_rest (c : Parse.Cursor) :
    startsConstraint c.rest = (c.ahead 0).isWord "where" := by
  rw [Parse.Cursor.ahead]
  cases c.rest <;> rfl

theorem skipConstraint_follows :
    Follows g room (fun c => ((), c.drop (constraintLength c.rest))) skipConstraint := by
  refine fun p hp => FollowsAt.loop (F := fun _ c => ((), c.drop (constraintLength c.rest)))
    (fun _ p hp => ?_) () hp
  have hpeek := peek_apply hp
  by_cases hless : p.position < g.before.length
  · have hrun := g.running _ (List.getElem_mem hless)
    have hrest := Course.rest_next hless
    rw [Course.ahead_of_lt hless] at hpeek
    simp only [bind_of hpeek, hrun, hrest, constraintLength, startsConstraint_rest]
    cases hends : endsConstraints g.before[p.position] with
    | true => exact .inl ⟨(), p, rfl, rfl, hp⟩
    | false =>
      have hword := atWord_sees "where" g room (g.next p) hp.next
      cases hwhere : ((g.cursor (g.next p)).ahead 0).isWord "where" with
      | true =>
        simp only [hwhere] at hword
        refine .inl ⟨(), g.next p, (bind_of (skip_one hp)).trans (bind_of hword), ?_, hp.next⟩
        rw [Course.cursor_next]
        rfl
      | false =>
        simp only [hwhere] at hword
        refine .inr ⟨(), g.next p, (bind_of (skip_one hp)).trans (bind_of hword), ?_, hp.next, ?_⟩
        · rw [Course.cursor_next, ← Parse.Cursor.drop_succ]
          rfl
        · exact hrest ▸ Course.length_next hless
  · refine .inl ⟨(), p, (bind_of hpeek).trans ?_, ?_, hp⟩
    · rw [Course.ahead_of_not_lt hless]
      rfl
    · simp [Course.rest_of_not_lt hless, constraintLength, Parse.Cursor.drop_zero]

theorem skipConstraints_follows : Follows g room Parse.skipConstraints skipConstraints := by
  refine fun p hp => FollowsAt.loop (F := fun _ => Parse.skipConstraints) (fun _ p hp => ?_) () hp
  have hskip (c : Parse.Cursor) : Parse.skipConstraints c =
      ((), if startsConstraint c.rest then c.drop (constraintsLength c.rest) else c) := by
    rw [startsConstraint_rest, Parse.skipConstraints, Parse.bind_apply, Parse.atWord_apply]
    cases (c.ahead 0).isWord "where" <;> rfl
  have hword := atWord_sees "where" g room p hp
  cases hwhere : ((g.cursor p).ahead 0).isWord "where" with
  | true =>
    simp only [hwhere] at hword
    have hless : p.position < g.before.length := Classical.byContradiction fun hend => by
      rw [Course.ahead_of_not_lt hend] at hwhere
      cases hwhere
    have hends : endsConstraints g.before[p.position] = false := by
      rw [Course.ahead_of_lt hless] at hwhere
      simp [endsConstraints, Token.isAnyMark, Token.isMark_of_isWord hwhere]
    obtain ⟨q, hrun, hcursor, hq⟩ := skipConstraint_follows p hp
    obtain ⟨hpos, hsplit⟩ := constraintsLength_split (g.cursor (g.next p)).rest hends
    rw [← Course.rest_next hless] at hpos hsplit
    refine .inr ⟨(), q, (bind_of hword).trans (bind_of hrun), ?_, hq, ?_⟩
    · have hbehind : (g.cursor q).rest = behindConstraint (g.cursor p).rest := by rw [hcursor]; rfl
      rw [hskip, hskip, startsConstraint_rest (g.cursor p), hwhere, if_pos rfl, hbehind, hsplit, hcursor]
      split
      · rw [Parse.Cursor.drop_drop]
      · rfl
    · have hlength : (g.cursor q).rest.length =
          (g.cursor p).rest.length - constraintLength (g.cursor p).rest := by
        rw [hcursor]
        exact List.length_drop
      have := Course.length_next hless
      omega
  | false =>
    simp only [hwhere] at hword
    refine .inl ⟨(), p, bind_of hword, ?_, hp⟩
    rw [hskip, startsConstraint_rest, hwhere]
    rfl

def skipParameterWords : Walk Unit := do
  let _ ← skipWhile (·.isOneOf parameterWords)

theorem skipParameterWords_follows : Follows g room Parse.skipParameterWords skipParameterWords :=
  fun p hp => .congr rfl (skipWhile_follows (f := fun _ => pure ()) rfl (fun _ => .pure ()) p hp)

def nextParameter (acc : List Parameter) :
    Walk (Round (List Parameter) (List Parameter)) := do
  if ← eatMark "," then pure (.again acc)
  else
    let _ ← expectMark ")" .closeParenExpected
    pure (.done acc)

theorem nextParameter_follows (acc : List Parameter) :
    Follows g room (Parse.nextParameter acc) (nextParameter acc) :=
  (eatMark_follows ",").bind fun _ => .ite (.pure _) ((expectMark_follows _ _).bind fun _ => .pure _)

def parameters (type : Walk (Option TypeExpr)) : Walk (List Parameter) := do
  skip 1
  loop (fun acc => do
    if ← eatMark ")" then pure (.done acc)
    else if ← atEnd then
      report .closeParenExpected (← peek).line
      pure (.done acc)
    else
      let lead ← leading
      skipParameterWords
      let line := (← peek).line
      match ← type with
      | none =>
        skipExpression [",", ")"]
        nextParameter acc
      | some t =>
        let name := (← expectName).getD ""
        if ← eatMark "=" then skipExpression [",", ")"]
        nextParameter (acc ++ [⟨lead.attributes, t, name, line⟩])) []

def parameters? (type : Walk (Option TypeExpr)) : Walk (List Parameter) := do
  if ← atMark "(" then parameters type else pure []

section

variable {type : Parse (Option TypeExpr)} {step : Walk (Option TypeExpr)}
  (hgrows : Parse.Grows type) (h : Follows g room type step)

include hgrows h

theorem parameters_follows : Follows g room (Parse.parameters type) (parameters step) := by
  refine (skip_follows 1).bind fun _ => .loop (fun acc c => ?_) (fun acc => ?_) []
  · refine .eatMark (Nat.le_refl _) (Parse.pure_grows _) fun d hle => .look (x := Parse.atEnd) ?_
    refine .ite (fun _ => .look (x := Parse.current) ?_) fun _ => ?_
    · exact .after (Parse.report_grows _ _) hle fun _ _ _ => .done _
    refine .after Parse.leading_grows hle fun lead d hle => ?_
    refine .after Parse.skipParameterWords_grows hle fun _ d hle => .look (x := Parse.current) ?_
    refine .after hgrows hle fun found d hle => ?_
    cases found with
    | none =>
      exact .after (Parse.skipExpression_grows _) hle fun _ _ hle => Parse.nextParameter_productive _ hle
    | some t =>
      exact .after Parse.expectName_grows hle fun _ _ hle => .after (Parse.eatMark_grows _) hle
        fun _ _ hle => .before (Parse.skipExpression_grows _) hle fun _ hle =>
        Parse.nextParameter_productive _ hle
  · refine (eatMark_follows ")").bind fun _ => .ite (.pure _) (atEnd_follows.bind fun _ => .ite ?_ ?_)
    · exact peek_follows.bind fun _ => (report_follows _ _).bind fun _ => .pure _
    · refine leading_follows.bind fun lead => skipParameterWords_follows.bind fun _ =>
        peek_follows.bind fun t => h.bind fun found => ?_
      cases found with
      | none => exact (skipExpression_follows _).bind fun _ => nextParameter_follows acc
      | some t =>
        exact expectName_follows.bind fun _ => (eatMark_follows "=").bind fun _ =>
          .before (skipExpression_follows _) (nextParameter_follows _)

theorem parameters?_follows : Follows g room (Parse.parameters? type) (parameters? step) :=
  (atMark_follows "(").bind fun _ => .ite (parameters_follows hgrows h) (.pure _)

end

end DataClasses.Walk
