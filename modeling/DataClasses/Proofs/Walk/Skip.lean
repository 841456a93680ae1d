import DataClasses.Proofs.Walk.Basic

/-!
# Walking past code

The repetitions that pass over blocks, expressions, arguments, types and members one token at a
time. Each passes as many tokens as the reader counts before it moves.
-/

set_option autoImplicit false

namespace DataClasses

namespace Walk

open Parse (openBrace closeBrace isOpener isCloser Ending)

variable {α σ : Type} {g : Course} {room : Nat} {p : Place}

inductive Stride (σ α : Type) where
  | before (result : α)
  | behind (result : α)
  | on (state : σ)

def stride (pace : σ → Token → Stride σ α) (y : σ) : Walk (Round σ α) := do
  let t ← peek
  match pace y t with
  | .before a => pure (.done a)
  | .behind a =>
    skip 1
    pure (.done a)
  | .on z =>
    skip 1
    pure (.again z)

structure Counts (g : Course) (pace : σ → Token → Stride σ α)
    (length : σ → List Token → Nat × α) :
    Prop where
  nil : ∀ y, (length y []).1 = 0 ∧ pace y ⟨.done, g.endLine⟩ = .before (length y []).2
  cons : ∀ y t ts, t.isDone = false → length y (t :: ts) = match pace y t with
    | .before a => (0, a)
    | .behind a => (1, a)
    | .on z => ((length z ts).1 + 1, (length z ts).2)

theorem stride_apply (pace : σ → Token → Stride σ α) (y : σ) (hp : g.Holds room p) :
    stride pace y g.ground p = match pace y ((g.cursor p).ahead 0) with
      | .before a => some (.done a, p)
      | .behind a => some (.done a, g.next p)
      | .on z => some (.again z, g.next p) := by
  rw [stride, bind_of (peek_apply hp)]
  cases pace y ((g.cursor p).ahead 0) with
  | before a => rfl
  | behind a => exact bind_of (skip_one hp)
  | on z => exact bind_of (skip_one hp)

theorem strides_follow {pace : σ → Token → Stride σ α} {length : σ → List Token → Nat × α}
    (h : Counts g pace length) (y : σ) :
    Follows g room (do
      let n := length y (← get).rest
      Parse.skip n.1
      pure n.2) (loop (stride pace) y) := by
  let F (y : σ) : Parse α := fun c => ((length y c.rest).2, c.drop (length y c.rest).1)
  refine fun p hp => FollowsAt.loop (F := F) (fun y p hp => ?_) y hp
  have hstride := stride_apply pace y hp
  by_cases hless : p.position < g.before.length
  · have hcount := h.cons y _ (g.cursor (g.next p)).rest (g.running _ (List.getElem_mem hless))
    rw [← Course.rest_next hless] at hcount
    rw [Course.ahead_of_lt hless] at hstride
    cases hpace : pace y g.before[p.position] with
    | before a =>
      rw [hpace] at hstride hcount
      exact .inl ⟨a, p, hstride, by simp only [F, hcount, Parse.Cursor.drop_zero], hp⟩
    | behind a =>
      rw [hpace] at hstride hcount
      exact .inl ⟨a, g.next p, hstride, by simp only [F, hcount, Course.cursor_next], hp.next⟩
    | on z =>
      rw [hpace] at hstride hcount
      refine .inr ⟨z, g.next p, hstride, ?_, hp.next, Course.length_next hless⟩
      simp only [F, hcount]
      rw [Course.cursor_next, ← Parse.Cursor.drop_succ]
  · obtain ⟨hzero, hpace⟩ := h.nil y
    rw [Course.ahead_of_not_lt hless, hpace] at hstride
    refine .inl ⟨(length y []).2, p, hstride, ?_, hp⟩
    simp only [F, Course.rest_of_not_lt hless, hzero, Parse.Cursor.drop_zero]

def blockPace (depth : Nat) (t : Token) : Stride Nat (Option Nat) :=
  if t.isDone then .before (some t.line)
  else if t.isMark openBrace then .on (depth + 1)
  else if t.isMark closeBrace then
    if depth == 0 then .behind none else .on (depth - 1)
  else .on depth

theorem blockPace_counts : Counts g blockPace fun depth ts =>
    ((Parse.blockLength depth ts).1, if (Parse.blockLength depth ts).2 then none else some g.endLine) := by
  constructor
  · intro depth
    exact ⟨rfl, rfl⟩
  · intro depth t ts hrun
    simp only [Parse.blockLength, blockPace, hrun]
    cases t.isMark openBrace <;> cases t.isMark closeBrace <;> cases depth <;> simp

def expressionPace (stops : List String) (depth : Nat) (t : Token) : Stride Nat Unit :=
  if t.isDone || (depth == 0 && t.isAnyMark stops) then .before ()
  else if isOpener t then .on (depth + 1)
  else if isCloser t then
    if depth == 0 then .before () else .on (depth - 1)
  else .on depth

theorem expressionPace_counts (stops : List String) :
    Counts g (expressionPace stops) fun depth ts => (Parse.expressionLength stops depth ts, ()) := by
  constructor
  · intro depth
    exact ⟨rfl, rfl⟩
  · intro depth t ts hrun
    simp only [Parse.expressionLength, expressionPace, hrun]
    cases depth == 0 && t.isAnyMark stops <;> cases isOpener t <;> cases isCloser t <;> cases depth <;> simp

def closedPace (close : String) (depth : Nat) (t : Token) : Stride Nat (Option Nat) :=
  if t.isDone then .before (some t.line)
  else if depth == 0 && t.isMark close then .behind none
  else if isOpener t then .on (depth + 1)
  else if isCloser t then
    if depth == 0 then .before (some t.line) else .on (depth - 1)
  else .on depth

def faultLine (endLine : Nat) : Ending → Option Nat
  | .closed => none
  | .stray line => some line
  | .atEnd => some endLine

theorem closedPace_counts (close : String) : Counts g (closedPace close) fun depth ts =>
    ((Parse.closedLength close depth ts).1, faultLine g.endLine (Parse.closedLength close depth ts).2) := by
  constructor
  · intro depth
    exact ⟨rfl, rfl⟩
  · intro depth t ts hrun
    simp only [Parse.closedLength, closedPace, hrun]
    cases depth == 0 && t.isMark close <;> cases isOpener t <;> cases isCloser t <;> cases depth <;>
      simp [faultLine]

def typePace (depth : Nat) (t : Token) : Stride Nat Unit :=
  if t.isDone then .before ()
  else if t.isAnyMark ["<", "(", "["] then .on (depth + 1)
  else if t.isAnyMark [">", ")", "]"] then
    if depth == 0 then .before () else .on (depth - 1)
  else if depth == 0 && t.isAnyMark [",", ";", openBrace, closeBrace, "=", "=>"] then .before ()
  else .on depth

theorem typePace_counts : Counts g typePace fun depth ts => (Parse.typeLength depth ts, ()) := by
  constructor
  · intro depth
    exact ⟨rfl, rfl⟩
  · intro depth t ts hrun
    simp only [Parse.typeLength, typePace, hrun]
    cases t.isAnyMark ["<", "(", "["] <;> cases t.isAnyMark [">", ")", "]"] <;>
      cases depth == 0 && t.isAnyMark [",", ";", openBrace, closeBrace, "=", "=>"] <;>
      cases depth <;> simp

def whilePace (test : Token → Bool) (count : Nat) (t : Token) : Stride Nat Nat :=
  if test t then .on (count + 1) else .before count

theorem whilePace_counts {test : Token → Bool} (hdone : test ⟨.done, g.endLine⟩ = false) :
    Counts g (whilePace test) fun count ts =>
      ((ts.takeWhile test).length, (ts.takeWhile test).length + count) := by
  constructor
  · intro count
    simp [whilePace, hdone]
  · intro count t ts _
    simp only [whilePace, List.takeWhile_cons]
    cases test t with
    | false => simp
    | true => simp [Nat.add_comm, Nat.add_left_comm]

def reportOn (fault : Parse.Fault) : Option Nat → Parse Unit
  | none => pure ()
  | some line => Parse.report fault line

def skipBlock : Walk Unit := do
  let opening ← advance
  match ← loop (stride blockPace) 0 with
  | none => pure ()
  | some line => report .closeBraceExpected (max line opening.line)

theorem skipBlock_follows : Follows g room Parse.skipBlock skipBlock := by
  intro p hp
  refine .keep hp fun q hq _ => .congr ?_ ((strides_follow blockPace_counts 0 q hq).bind
    (f := reportOn .closeBraceExpected) fun r hr _ => ?_)
  · by_cases hclosed : (Parse.blockLength 0 (g.cursor q).rest).2 = true
    · simp only [Parse.bind_apply, Parse.get_apply, Parse.pure_apply, hclosed]
      rfl
    · simp only [Parse.bind_apply, Parse.get_apply, Parse.pure_apply, hclosed]
      rfl
  · have hline : max g.endLine ((g.cursor p).ahead 0).line = g.endLine :=
      Nat.max_eq_left Course.ahead_line_le
    by_cases hclosed : (Parse.blockLength 0 (g.cursor q).rest).2 = true
    · simp only [Parse.bind_apply, Parse.get_apply, Parse.pure_apply, hclosed, if_true]
      exact .pure hr _
    · simp only [Parse.bind_apply, Parse.get_apply, Parse.pure_apply, hclosed, if_false, hline,
        Bool.false_eq_true]
      exact report_follows _ _ r hr

def skipExpression (stops : List String) : Walk Unit := loop (stride (expressionPace stops)) 0

theorem skipExpression_follows (stops : List String) :
    Follows g room (Parse.skipExpression stops) (skipExpression stops) :=
  strides_follow (expressionPace_counts stops) 0

def skipArguments : Walk Unit := do
  match ← loop (stride (closedPace ")")) 0 with
  | none => pure ()
  | some line => report .closeParenExpected line

theorem skipArguments_follows : Follows g room Parse.skipArguments skipArguments := by
  intro p hp
  refine .congr ?_ ((strides_follow (closedPace_counts ")") 0).bind (f := reportOn .closeParenExpected)
    (fun line => ?_) p hp)
  · simp only [Parse.skipArguments, Parse.bind_apply, Parse.get_apply, Parse.pure_apply]
    cases (Parse.closedLength ")" 0 (g.cursor p).rest).2 <;> rfl
  · cases line with
    | none => exact .pure _
    | some line => exact report_follows _ _

def skipType : Walk Unit := loop (stride typePace) 0

theorem skipType_follows : Follows g room Parse.skipType skipType := strides_follow typePace_counts 0

def skipWhile (test : Token → Bool) : Walk Nat := loop (stride (whilePace test)) 0

theorem skipWhile_follows {α : Type} {test : Token → Bool} {f : Nat → Parse α} {k : Nat → Walk α}
    (hdone : test ⟨.done, g.endLine⟩ = false) (h : ∀ n, Follows g room (f n) (k n)) :
    Follows g room (do
      let n := ((← get).rest.takeWhile test).length
      Parse.skip n
      f n) (skipWhile test >>= k) :=
  fun p hp => .congr rfl ((strides_follow (whilePace_counts hdone) 0).bind h p hp)

def startsDeclarator : Walk Bool := do
  let t ← peekAt 1
  let u ← peekAt 2
  pure (t.isName && u.isAnyMark ["=", ",", ";"])

theorem startsDeclarator_sees : Sees startsDeclarator Parse.startsDeclarator :=
  (peekAt_sees 1).bind fun _ => (peekAt_sees 2).bind fun _ => .pure _

def skipInitializer : Walk Unit :=
  loop (fun _ => do
    skipExpression [";", ",", closeBrace]
    if !(← atMark ",") || (← startsDeclarator) then pure (.done ())
    else
      skip 1
      pure (.again ())) ()

theorem skipInitializer_follows : Follows g room Parse.skipInitializer skipInitializer := by
  refine .loop (fun _ c => ?_) (fun _ => ?_) ()
  · refine .after (Parse.skipExpression_grows _) (Nat.le_refl _) fun _ d hle =>
      .look (x := Parse.atMark ",") <| .look (x := get) <| .ite (fun _ => .done _) fun hcomma =>
      .skip ?_ hle (Parse.pure_grows _)
    rw [Bool.or_eq_true, Bool.not_eq_true', not_or, Bool.not_eq_false] at hcomma
    exact Nat.lt_of_lt_of_le (Parse.Cursor.length_pos (Token.not_done_of_isMark hcomma.1)) hle
  · refine (skipExpression_follows _).bind fun _ => (atMark_follows ",").bind fun comma =>
      .test startsDeclarator_sees fun p hp => .ite (fun _ => .pure hp _) fun _ =>
      .skip hp fun q hq _ => .pure hq _

def skipMember : Walk Unit :=
  loop (fun depth => do
    let t ← peek
    if t.isDone then pure (.done ())
    else if depth == 0 && t.isMark ";" then
      skip 1
      pure (.done ())
    else if depth == 0 && t.isMark closeBrace then pure (.done ())
    else if depth == 0 && t.isMark openBrace then
      skipBlock
      if ← atMark "=" then pure (.again 0) else pure (.done ())
    else
      skip 1
      pure (.again (if t.isAnyMark ["(", "["] then depth + 1
        else if t.isAnyMark [")", "]"] then depth - 1 else depth))) 0

theorem skipMember_follows : Follows g room Parse.skipMember skipMember := by
  refine .loop (fun depth c => .look (x := Parse.current) ?_) (fun depth => peek_follows.bind fun t => ?_) 0
  · refine .ite (fun _ => .done _) fun hdone => ?_
    have hpos := Parse.Cursor.length_pos (Bool.not_eq_true _ ▸ hdone)
    refine .ite (fun _ => .skip hpos (Nat.le_refl _) (Parse.pure_grows _)) fun _ =>
      .ite (fun _ => .done _) fun _ => .ite (fun _ => ?_) fun _ =>
      .skip hpos (Nat.le_refl _) (Parse.pure_grows _)
    exact .passed Parse.skipBlock_passes hpos (Nat.le_refl _) fun _ => (Parse.atMark_grows _).bind fun _ =>
      .ite (Parse.pure_grows _) (Parse.pure_grows _)
  · refine .ite (.pure _) <| .ite ((skip_follows 1).bind fun _ => .pure _) <| .ite (.pure _) <|
      .ite ?_ ((skip_follows 1).bind fun _ => .pure _)
    exact skipBlock_follows.bind fun _ => (atMark_follows "=").bind fun _ => .ite (.pure _) (.pure _)

end Walk
end DataClasses
