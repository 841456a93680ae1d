import DataClasses.Proofs.Walk.Skip

/-!
# Walking over names and types

Types may stand in each other: the count of what is open takes the place of the room that the
reader has left, and the marks behind a type are counted on from it.
-/

set_option autoImplicit false

namespace DataClasses.Walk

open Parse (closeBrace openBrace depthLimit predefinedTypes)

variable {g : Course} {room : Nat} {p : Place}

def atRoot : Walk Bool := return (← peek).isWord "global" && (← peekAt 1).isMark "::"

theorem atRoot_sees : Sees atRoot Parse.Cursor.atRoot :=
  (peekAt_sees 0).bind fun _ => (peekAt_sees 1).bind fun _ => .pure _

def atNextPart : Walk Bool := return (← peek).isAnyMark [".", "::"] && (← peekAt 1).isName

theorem atNextPart_sees : Sees atNextPart fun c => c.atSeparator && (c.ahead 1).isName :=
  (peekAt_sees 0).bind fun _ => (peekAt_sees 1).bind fun _ => .pure _

def nextPart (acc : List String) : Walk (Round (List String) (List String)) := do
  if ← atNextPart then
    let t ← peekAt 1
    skip 2
    pure (.again (acc ++ t.name?.toList))
  else pure (.done acc)

theorem nextPart_follows (acc : List String) :
    Follows g room (Parse.nextPart acc) (nextPart acc) :=
  .test atNextPart_sees fun _ hp => .ite
    (fun _ => .sees (peekAt_sees 1) hp <| .skip hp fun _ hq _ => .pure hq _) fun _ => .pure hp _

def dottedName : Walk DottedName := do
  let line := (← peek).line
  if ← atRoot then skip 2
  match ← expectName with
  | none => pure ⟨[], line⟩
  | some first =>
    let parts ← loop nextPart [first]
    pure ⟨parts, line⟩

theorem dottedName_follows : Follows g room Parse.dottedName dottedName := by
  refine peek_follows.bind fun t => .test atRoot_sees fun p hp =>
    Follows.before (skip_follows 2) (expectName_follows.bind fun first => ?_) p hp
  cases first with
  | none => exact .pure _
  | some first =>
    exact (Follows.loop (fun _ _ => Parse.nextPart_productive _) nextPart_follows _).bind fun _ => .pure _

def typeArguments (inner : Walk (Option TypeExpr)) : Walk (List TypeExpr) := do
  skip 1
  let arguments ← commaList inner
  let _ ← expectMark ">" .closeAngleExpected
  pure arguments

def atNextSegment : Walk Bool :=
  return (← atNextPart) && !(← peekAt 2).isAnyMark ["(", openBrace, "=>"]

theorem atNextSegment_sees :
    Sees atNextSegment fun c => c.atSeparator && (c.ahead 1).isName && !c.isMemberName 1 :=
  atNextPart_sees.bind fun _ => (peekAt_sees 2).bind fun _ => .pure _

def segments (inner : Walk (Option TypeExpr)) : Walk (List (String × List TypeExpr)) :=
  loop (fun acc => do
    let name := (← peek).name?.getD ""
    skip 1
    let arguments ← (do if ← atMark "<" then typeArguments inner else pure [])
    let acc := acc ++ [(name, arguments)]
    if ← atNextSegment then
      skip 1
      pure (.again acc)
    else pure (.done acc)) []

def simpleType (inner : Walk (Option TypeExpr)) : Walk (Option TypeExpr) := do
  let t ← peek
  if t.isMark "(" then
    skip 1
    let elements ← commaList (do
      let element ← inner
      if (← peek).isName then skip 1
      pure element)
    let _ ← expectMark ")" .closeParenExpected
    pure (some (.tuple elements t.line))
  else
    match predefinedTypes.find? t.isWord with
    | some keyword =>
      skip 1
      pure (some (.predefined keyword t.line))
    | none =>
      let rooted ← atRoot
      if t.isName || rooted then
        if rooted then skip 2
        let parts ← segments inner
        pure (some (.named parts rooted t.line))
      else
        report .typeExpected t.line
        pure none

section

variable {inner : Parse (Option TypeExpr)} {step : Walk (Option TypeExpr)}
  (hgrows : Parse.Grows inner) (h : Follows g room inner step)

include hgrows h

theorem typeArguments_follows : Follows g room (Parse.typeArguments inner) (typeArguments step) :=
  (skip_follows 1).bind fun _ => (commaList_follows hgrows h).bind fun _ =>
    (expectMark_follows _ _).bind fun _ => .pure _

theorem segments_follows : Follows g room (Parse.segments inner) (segments step) := by
  refine .loop (fun acc c => ?_) (fun acc => ?_) []
  · refine .look (x := Parse.current) <| .after (Parse.skip_grows 1) (Nat.le_refl _) fun _ d hle =>
      .after ?_ hle fun arguments e hle => .look (x := get) <| .ite (fun hmore => ?_) fun _ => .done _
    · exact (Parse.atMark_grows "<").bind fun _ =>
        .ite (Parse.typeArguments_grows hgrows) (Parse.pure_grows _)
    · rw [Parse.Cursor.atPart, Bool.and_eq_true, Bool.and_eq_true] at hmore
      have hpos := Parse.Cursor.length_pos (Parse.Cursor.not_done_of_atSeparator hmore.1.1)
      exact .skip (Nat.lt_of_lt_of_le hpos hle) hle (Parse.pure_grows _)
  · refine peek_follows.bind fun t => (skip_follows 1).bind fun _ => Follows.bind ?_ fun arguments =>
      .test atNextSegment_sees fun p hp => .ite (fun _ => .skip hp fun _ hq _ => .pure hq _)
        fun _ => .pure hp _
    exact (atMark_follows "<").bind fun _ => .ite (typeArguments_follows hgrows h) (.pure _)

theorem simpleType_follows : Follows g room (Parse.simpleType inner) (simpleType step) := by
  refine .test (peekAt_sees 0) fun p hp => .ite (fun _ => ?_) fun _ => ?_
  · refine ((skip_follows 1).bind fun _ => (commaList_follows ?_ ?_).bind fun _ =>
      (expectMark_follows _ _).bind fun _ => .pure _) p hp
    · exact hgrows.bind fun _ => Parse.current_grows.bind fun _ =>
        .before (Parse.skip_grows 1) (Parse.pure_grows _)
    · exact h.bind fun _ => peek_follows.bind fun _ => .before (skip_follows 1) (.pure _)
  · cases predefinedTypes.find? ((g.cursor p).ahead 0).isWord with
    | some keyword => exact .skip hp fun _ hq _ => .pure hq _
    | none =>
      refine .sees atRoot_sees hp <| .ite (fun _ => ?_) fun _ => ?_
      · exact Follows.before (skip_follows 2) ((segments_follows hgrows h).bind fun _ => .pure _) p hp
      · exact (report_follows _ _).bind (fun _ => .pure _) p hp

end

def suffix (line : Nat) : TypeExpr × Nat × Bool → Walk (Round (TypeExpr × Nat × Bool) TypeExpr)
  | (type, outer, reported) => do
    let t ← peek
    let isNullable := t.isMark "?"
    let isArray := t.isMark "[" && (← peekAt 1).isAnyMark ["]", ","]
    let tooDeep := (isNullable || isArray) && decide (depthLimit ≤ outer)
    if tooDeep && !reported then report .tooDeep line
    if isNullable then
      skip 1
      pure (.again (if tooDeep then type else .nullable type, if tooDeep then outer else outer + 1,
        reported || tooDeep))
    else if isArray then
      skip 1
      let commas ← skipWhile (·.isMark ",")
      let _ ← expectMark "]" .closeBracketExpected
      pure (.again (if tooDeep then type else .array type (commas + 1),
        if tooDeep then outer else outer + 1, reported || tooDeep))
    else if t.isMark "*" then
      skip 1
      pure (.again (type, outer, reported))
    else pure (.done type)

def roomIn : TypeExpr × Nat × Bool → TypeExpr × Nat × Bool
  | (type, outer, reported) => (type, depthLimit - outer, reported)

theorem suffix_follows (line : Nat) (x : TypeExpr × Nat × Bool) :
    Follows g room (Parse.suffix line (roomIn x)) (Round.via roomIn <$> suffix line x) := by
  obtain ⟨type, outer, reported⟩ := x
  have hfull : (depthLimit - outer == 0) = decide (depthLimit ≤ outer) := by
    rw [Bool.eq_iff_iff]
    simp [Nat.sub_eq_zero_iff_le]
  have hroom (b : Bool) :
      depthLimit - (if (b && decide (depthLimit ≤ outer)) = true then outer else outer + 1) =
        depthLimit - outer - 1 := by
    split
    · next h =>
      have := of_decide_eq_true ((Bool.and_eq_true _ _).mp h).2
      omega
    · omega
  simp only [suffix, roomIn, Parse.suffix, map_bind, map_pure, apply_ite (Functor.map (Round.via roomIn)),
    Round.via, hfull, hroom]
  refine .test (peekAt_sees 0) fun p hp => .sees (peekAt_sees 1) hp <|
    Follows.before (report_follows _ _) (.ite ?_ (.ite ?_ (.ite ?_ (.pure _)))) p hp
  · exact (skip_follows 1).bind fun _ => .pure _
  · exact (skip_follows 1).bind fun _ => skipWhile_follows rfl fun commas =>
      (expectMark_follows _ _).bind fun _ => .pure _
  · exact (skip_follows 1).bind fun _ => .pure _

def suffixes (line : Nat) (type : TypeExpr) : Walk TypeExpr := do
  loop (suffix line) (type, (← get).depth, false)

theorem suffixes_follows (line : Nat) (type : TypeExpr) :
    Follows g room (Parse.suffixes line room type) (suffixes line type) := by
  intro p hp
  have hroom : roomIn (type, p.depth, false) = (type, room, false) := by
    have hdepth := hp.depth
    simp only [roomIn, Prod.mk.injEq, and_true, true_and]
    omega
  rw [Parse.suffixes, ← hroom]
  exact .look rfl <| Follows.loopVia roomIn (fun _ _ => Parse.suffix_productive line _)
    (suffix_follows line) _ p hp

/-- A type, of which the inner ones may stand so many levels deep; a failure if that is too few. -/
def typeExpr : Nat → Walk (Option TypeExpr)
  | 0 => failure
  | n + 1 => do
    let line := (← peek).line
    nested line
      (do
        match ← simpleType (typeExpr n) with
        | none => pure none
        | some type => some <$> suffixes line type)
      (do
        skipType
        pure none)

/-- The limit is met before the levels are used up. -/
theorem typeExpr_follows {n : Nat} (hn : room < n) :
    Follows g room (Parse.typeExpr room) (typeExpr n) := by
  induction n generalizing room with
  | zero => exact absurd hn (Nat.not_lt_zero _)
  | succ n ih =>
    cases room with
    | zero =>
      exact peek_follows.bind fun t => nested_past t.line (skipType_follows.bind fun _ => .pure _)
    | succ room =>
      refine peek_follows.bind fun t => nested_follows t.line ?_
      refine (simpleType_follows (Parse.typeExpr_grows room) (ih (Nat.lt_of_succ_lt_succ hn))).bind
        fun type => ?_
      cases type with
      | none => exact .pure _
      | some type => exact (suffixes_follows _ _).map _

end DataClasses.Walk
