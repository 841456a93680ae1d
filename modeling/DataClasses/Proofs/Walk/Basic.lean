import DataClasses.Declaration.Unit
import DataClasses.Proofs.Declaration.Progress
import DataClasses.Proofs.Declaration.Steps

/-!
# Reading with a position and a counter

The tokens of a source as they lie in memory, with the end as the last of them, and a walk over them
by a position and a count of what is open. A walk fails where it asks for a token out of range,
where it closes more than is open, and where a repetition is not through after the rounds that are
allowed. Where it does not fail, it follows the reader that has only the tokens that are left.
-/

set_option autoImplicit false

namespace DataClasses

def Round.via {σ τ α : Type} (form : τ → σ) : Round τ α → Round σ α
  | .again y => .again (form y)
  | .done a => .done a

theorem Round.via_id {σ α : Type} : Round.via (σ := σ) (α := α) id = id := by
  funext r
  cases r with
  | again y => rfl
  | done a => rfl

namespace Walk

/-- The token looked at, how many namespaces, type declarations and types are open, and the reports
so far with the latest first. -/
structure Place where
  position : Nat := 0
  depth : Nat := 0
  reports : List Diagnostic := []

structure Ground where
  tokens : List Token
  patience : Nat

end Walk

abbrev Walk := ReaderT Walk.Ground (StateT Walk.Place Option)

namespace Walk

open Parse (Fault)

variable {α β σ τ : Type}

def token (i : Nat) : Walk Token := do
  match (← read).tokens[i]? with
  | some t => pure t
  | none => failure

def peekAt (n : Nat) : Walk Token := do
  token (min ((← get).position + n) ((← read).tokens.length - 1))

def peek : Walk Token := peekAt 0

def advance : Walk Token := do
  let t ← peek
  if t.isDone then pure t
  else
    modify fun p => { p with position := p.position + 1 }
    pure t

def skip : Nat → Walk Unit
  | 0 => pure ()
  | n + 1 => do
    let _ ← advance
    skip n

def lastLine : Walk Nat := do
  match (← get).position with
  | 0 => pure 1
  | i + 1 => return (← token i).line

def report (fault : Fault) (line : Nat) : Walk Unit :=
  modify fun p => { p with reports := .error fault.code fault.message line :: p.reports }

def enter (line : Nat) : Walk Bool := do
  if Parse.depthLimit ≤ (← get).depth then
    report .tooDeep line
    pure false
  else
    modify fun p => { p with depth := p.depth + 1 }
    pure true

def leave : Walk Unit := do
  match (← get).depth with
  | 0 => failure
  | depth + 1 => modify fun p => { p with depth := depth }

def repeated (round : σ → Walk (Round σ α)) : Nat → σ → Walk α
  | 0, _ => failure
  | n + 1, x => do
    match ← round x with
    | .done a => pure a
    | .again y => repeated round n y

def loop (round : σ → Walk (Round σ α)) (x : σ) : Walk α := do
  repeated round (← read).patience x

def atMark (mark : String) : Walk Bool := return (← peek).isMark mark

def atWord (word : String) : Walk Bool := return (← peek).isWord word

def atEnd : Walk Bool := return (← peek).isDone

def eatMark (mark : String) : Walk Bool := do
  if ← atMark mark then
    skip 1
    pure true
  else pure false

def eatWord (word : String) : Walk Bool := do
  if ← atWord word then
    skip 1
    pure true
  else pure false

def reportBehind (fault : Fault) : Walk Unit := do report fault (← lastLine)

def expectMark (mark : String) (fault : Fault) : Walk Bool := do
  if ← eatMark mark then pure true
  else
    reportBehind fault
    pure false

def expectSemicolon : Walk Unit := do
  let _ ← expectMark ";" .semicolonExpected

def expectName : Walk (Option String) := do
  let t ← peek
  match t.name? with
  | some name =>
    skip 1
    pure (some name)
  | none =>
    report .nameExpected t.line
    pure none

def commaList (item : Walk (Option α)) : Walk (List α) :=
  loop (fun acc => do
    let acc := acc ++ (← item).toList
    if ← eatMark "," then pure (.again acc) else pure (.done acc)) []

def nested (line : Nat) (deep past : Walk α) : Walk α := do
  if ← enter line then
    let a ← deep
    leave
    pure a
  else past

structure Course where
  before : List Token
  endLine : Nat
  patience : Nat
  running : ∀ t ∈ before, t.isDone = false
  lines : ∀ t ∈ before, t.line ≤ endLine
  enough : before.length < patience

namespace Course

variable (g : Course)

def ground : Ground := ⟨g.before ++ [⟨.done, g.endLine⟩], g.patience⟩

def cursor (p : Place) : Parse.Cursor :=
  { rest := g.before.drop p.position
    endLine := g.endLine
    last := ((g.before.take p.position).getLast?.map Token.line).getD 1
    reports := p.reports }

def next (p : Place) : Place :=
  if p.position < g.before.length then { p with position := p.position + 1 } else p

structure Holds (room : Nat) (p : Place) : Prop where
  inside : p.position ≤ g.before.length
  depth : p.depth + room = Parse.depthLimit

end Course

variable {g : Course} {room : Nat} {p : Place}

theorem bind_of {w : Walk α} {k : α → Walk β} {a : α} {q : Place} {r : Ground}
    (h : w r p = some (a, q)) : (w >>= k) r p = k a r q := by
  simp only [bind, ReaderT.bind, StateT.bind, h, Option.bind]

/-- What gives a result behind a function on it gives one before it. -/
theorem of_map {w : Walk α} {f : α → β} {b : β} {q : Place} {r : Ground}
    (h : (f <$> w) r p = some (b, q)) : ∃ a, w r p = some (a, q) ∧ f a = b := by
  rw [← bind_pure_comp] at h
  simp only [bind, ReaderT.bind, StateT.bind] at h
  cases hw : w r p with
  | none => simp [hw] at h
  | some result =>
    obtain ⟨a, q'⟩ := result
    simp only [hw, Option.bind_some] at h
    cases h
    exact ⟨a, rfl, rfl⟩

theorem token_of {r : Ground} {i : Nat} {t : Token} (h : r.tokens[i]? = some t) :
    token i r p = some (t, p) := by
  change (match r.tokens[i]? with
    | some t => (pure t : Walk Token)
    | none => failure) r p = some (t, p)
  rw [h]
  rfl

theorem peekAt_apply (hp : g.Holds room p) (n : Nat) :
    peekAt n g.ground p = some ((g.cursor p).ahead n, p) := by
  refine token_of ?_
  have hinside := hp.inside
  by_cases hn : p.position + n < g.before.length
  · have hmin : min (p.position + n) g.before.length = p.position + n := by omega
    simp [Course.ground, Course.cursor, Parse.Cursor.ahead, hn, hmin, List.getElem?_append_left]
  · have hmin : min (p.position + n) g.before.length = g.before.length := by omega
    simp [Course.ground, Course.cursor, Parse.Cursor.ahead, hmin, hn]

theorem peek_apply (hp : g.Holds room p) : peek g.ground p = some ((g.cursor p).ahead 0, p) :=
  peekAt_apply hp 0

theorem Course.cursor_of_lt (h : p.position < g.before.length) :
    (g.cursor p).rest = g.before[p.position] :: g.before.drop (p.position + 1) :=
  List.drop_eq_getElem_cons h

theorem Course.ahead_of_lt (h : p.position < g.before.length) :
    (g.cursor p).ahead 0 = g.before[p.position] := by
  rw [Parse.Cursor.ahead, cursor_of_lt h]
  rfl

theorem Course.rest_of_not_lt (h : ¬p.position < g.before.length) : (g.cursor p).rest = [] :=
  List.drop_of_length_le (Nat.le_of_not_lt h)

theorem Course.ahead_of_not_lt (h : ¬p.position < g.before.length) :
    (g.cursor p).ahead 0 = ⟨.done, g.endLine⟩ := by
  simp only [Parse.Cursor.ahead, rest_of_not_lt h]
  rfl

/-- The end is reached where no tokens are left, and not before. -/
theorem Course.isDone_iff : ((g.cursor p).ahead 0).isDone = true ↔ ¬p.position < g.before.length := by
  constructor
  · intro hdone hless
    rw [ahead_of_lt hless, g.running _ (List.getElem_mem hless)] at hdone
    cases hdone
  · intro h
    rw [ahead_of_not_lt h]
    rfl

/-- No token stands behind the line of the end. -/
theorem Course.ahead_line_le : ((g.cursor p).ahead 0).line ≤ g.endLine := by
  by_cases hless : p.position < g.before.length
  · rw [ahead_of_lt hless]
    exact g.lines _ (List.getElem_mem hless)
  · rw [ahead_of_not_lt hless]

theorem Course.Holds.next (hp : g.Holds room p) : g.Holds room (g.next p) := by
  unfold Course.next
  split
  · next hless => exact ⟨hless, hp.depth⟩
  · exact hp

theorem getLast?_take_succ {ts : List Token} {i : Nat} (h : i < ts.length) :
    (ts.take (i + 1)).getLast? = some ts[i] := by
  rw [List.take_succ_eq_append_getElem h, List.getLast?_concat]

theorem Course.cursor_next : g.cursor (g.next p) = (g.cursor p).drop 1 := by
  unfold next
  split
  · next hless =>
    rw [Parse.Cursor.drop, cursor_of_lt hless]
    simp only [cursor, getLast?_take_succ hless]
    rfl
  · next hend =>
    have hrest := rest_of_not_lt hend
    generalize g.cursor p = c at hrest
    obtain ⟨rest, _, _, _⟩ := c
    cases (show rest = [] from hrest)
    rfl

theorem Course.rest_next (h : p.position < g.before.length) :
    (g.cursor p).rest = g.before[p.position] :: (g.cursor (g.next p)).rest := by
  rw [cursor_next, Parse.Cursor.drop, cursor_of_lt h]
  rfl

theorem Course.length_rest (g : Course) (p : Place) :
    (g.cursor p).rest.length = g.before.length - p.position := List.length_drop

theorem Course.length_next (h : p.position < g.before.length) :
    (g.cursor (g.next p)).rest.length < (g.cursor p).rest.length := by
  rw [rest_next h]
  exact Nat.lt_succ_self _

theorem advance_apply (hp : g.Holds room p) :
    advance g.ground p = some ((g.cursor p).ahead 0, g.next p) := by
  refine (bind_of (peek_apply hp)).trans ?_
  by_cases hless : p.position < g.before.length
  · rw [if_neg fun h => Course.isDone_iff.mp h hless, Course.next, if_pos hless]
    rfl
  · rw [if_pos (Course.isDone_iff.mpr hless), Course.next, if_neg hless]
    rfl

theorem skip_one (hp : g.Holds room p) : skip 1 g.ground p = some ((), g.next p) :=
  bind_of (advance_apply hp)

theorem lastLine_apply (hp : g.Holds room p) :
    lastLine g.ground p = some ((g.cursor p).last, p) := by
  obtain ⟨position, depth, reports⟩ := p
  cases position with
  | zero => rfl
  | succ i =>
    have hless : i < g.before.length := hp.inside
    have htoken : g.ground.tokens[i]? = some g.before[i] := by
      simp [Course.ground, List.getElem?_append_left, hless]
    change (token i >>= fun t => pure t.line) g.ground _ = _
    rw [bind_of (token_of htoken)]
    simp only [Course.cursor, getLast?_take_succ hless]
    rfl

/-- From that place the walk comes to what the reader comes to, and ends where the reader ends, with
as much open as before. -/
def FollowsAt (g : Course) (room : Nat) (x : Parse α) (w : Walk α) (p : Place) : Prop :=
  ∃ q, w g.ground p = some ((x (g.cursor p)).1, q) ∧ g.cursor q = (x (g.cursor p)).2 ∧ g.Holds room q

def Follows (g : Course) (room : Nat) (x : Parse α) (w : Walk α) : Prop :=
  ∀ p, g.Holds room p → FollowsAt g room x w p

namespace FollowsAt

variable {x : Parse α} {w : Walk α} {f : α → Parse β} {k : α → Walk β}

theorem pure (hp : g.Holds room p) (a : α) : FollowsAt g room (pure a) (pure a) p := ⟨p, rfl, rfl, hp⟩

theorem bind (hx : FollowsAt g room x w p)
    (hf : ∀ q, g.Holds room q → g.cursor q = (x (g.cursor p)).2 →
      FollowsAt g room (f (x (g.cursor p)).1) (k (x (g.cursor p)).1) q) :
    FollowsAt g room (x >>= f) (w >>= k) p := by
  obtain ⟨q, hrun, hcursor, hq⟩ := hx
  obtain ⟨r, hrun', hcursor', hr⟩ := hf q hq hcursor
  rw [hcursor] at hrun' hcursor'
  exact ⟨r, (bind_of hrun).trans hrun', hcursor', hr⟩

theorem congr {y : Parse α} (heq : x (g.cursor p) = y (g.cursor p)) (h : FollowsAt g room y w p) :
    FollowsAt g room x w p := by
  rw [FollowsAt, heq]
  exact h

theorem ite {b : Prop} [Decidable b] {y : Parse α} {v : Walk α} (hx : b → FollowsAt g room x w p)
    (hy : ¬b → FollowsAt g room y v p) :
    FollowsAt g room (if b then x else y) (if b then w else v) p := by
  split
  · exact hx ‹b›
  · exact hy ‹¬b›

/-- The walk looks at something that the reader has already. -/
theorem look {v : Walk β} {k : β → Walk α} {b : β} (hv : v g.ground p = some (b, p))
    (h : FollowsAt g room x (k b) p) : FollowsAt g room x (v >>= k) p := by
  obtain ⟨q, hrun, hq⟩ := h
  exact ⟨q, (bind_of hv).trans hrun, hq⟩

end FollowsAt

namespace Follows

variable {x y : Parse α} {w v : Walk α}

theorem pure (a : α) : Follows g room (pure a) (pure a) := fun _ hp => .pure hp a

theorem bind {f : α → Parse β} {k : α → Walk β} (hx : Follows g room x w)
    (hf : ∀ a, Follows g room (f a) (k a)) : Follows g room (x >>= f) (w >>= k) :=
  fun p hp => (hx p hp).bind fun q hq _ => hf _ q hq

theorem map (hx : Follows g room x w) (f : α → β) : Follows g room (f <$> x) (f <$> w) :=
  hx.bind fun a => pure (f a)

theorem ite {b : Prop} [Decidable b] (hx : Follows g room x w) (hy : Follows g room y v) :
    Follows g room (if b then x else y) (if b then w else v) :=
  fun p hp => .ite (fun _ => hx p hp) fun _ => hy p hp

theorem before {b : Prop} [Decidable b] {x : Parse Unit} {w : Walk Unit} {f : Unit → Parse β}
    {k : Unit → Walk β} (hx : Follows g room x w) (hf : Follows g room (f ()) (k ())) :
    Follows g room (if b then x >>= f else f ()) (if b then w >>= k else k ()) :=
  .ite (hx.bind fun _ => hf) hf

end Follows

/-- A repetition follows what has rounds of the same result. -/
theorem FollowsAt.loop {F : σ → Parse α} {round : σ → Walk (Round σ α)}
    (h : ∀ y p, g.Holds room p →
      (∃ a q, round y g.ground p = some (.done a, q) ∧ F y (g.cursor p) = (a, g.cursor q) ∧
        g.Holds room q) ∨
      ∃ z q, round y g.ground p = some (.again z, q) ∧ F y (g.cursor p) = F z (g.cursor q) ∧
        g.Holds room q ∧ (g.cursor q).rest.length < (g.cursor p).rest.length)
    (y : σ) (hp : g.Holds room p) : FollowsAt g room (F y) (loop round y) p := by
  suffices h : ∀ n y p, g.Holds room p → (g.cursor p).rest.length < n →
      ∃ q, repeated round n y g.ground p = some ((F y (g.cursor p)).1, q) ∧
        g.cursor q = (F y (g.cursor p)).2 ∧ g.Holds room q by
    refine h g.patience y p hp (Nat.lt_of_le_of_lt ?_ g.enough)
    simp [Course.cursor]
  intro n
  induction n with
  | zero => exact fun y p _ hless => absurd hless (Nat.not_lt_zero _)
  | succ n ih =>
    intro y p hp hless
    rcases h y p hp with ⟨a, q, hrun, hF, hq⟩ | ⟨z, q, hrun, hF, hq, hfewer⟩
    · rw [hF]
      exact ⟨q, bind_of hrun, rfl, hq⟩
    · obtain ⟨r, hrest, hcursor, hr⟩ := ih z q hq (by omega)
      rw [hF]
      exact ⟨r, (bind_of hrun).trans hrest, hcursor, hr⟩

/-- Rounds that follow those of the reader, which move on, make a repetition that follows its
repetition. The walk may keep its state in another form. -/
theorem Follows.loopVia {close : σ → α} {round : σ → Parse (Round σ α)}
    {step : τ → Walk (Round τ α)}
    (form : τ → σ) (hmoves : ∀ y c, Parse.Productive c.rest.length (round y) c)
    (h : ∀ y, Follows g room (round (form y)) (Round.via form <$> step y)) (y : τ) :
    Follows g room (Parse.loop close round (form y)) (loop step y) := by
  intro p hp
  refine FollowsAt.loop (F := fun y => Parse.loop close round (form y)) (fun y p hp => ?_) y hp
  obtain ⟨q, hrun, hcursor, hq⟩ := h y p hp
  obtain ⟨next, hstep, hnext⟩ := of_map hrun
  have hround : round (form y) (g.cursor p) = (next.via form, g.cursor q) :=
    Prod.ext hnext.symm hcursor.symm
  cases next with
  | done a => exact .inl ⟨a, q, hstep, Parse.loop_done hround, hq⟩
  | again z =>
    have hless := hmoves (form y) (g.cursor p) (form z) (congrArg Prod.fst hround)
    rw [← hcursor] at hless
    exact .inr ⟨z, q, hstep, Parse.loop_again hround hless, hq, hless⟩

theorem Follows.loop {close : σ → α} {round : σ → Parse (Round σ α)}
    {step : σ → Walk (Round σ α)} (hmoves : ∀ y c, Parse.Productive c.rest.length (round y) c)
    (h : ∀ y, Follows g room (round y) (step y)) (y : σ) :
    Follows g room (Parse.loop close round y) (Walk.loop step y) := by
  refine .loopVia id hmoves (fun y => ?_) y
  rw [Round.via_id, id_map]
  exact h y

def Sees (w : Walk α) (m : Parse.Cursor → α) : Prop :=
  ∀ (g : Course) (room : Nat) (p : Place), g.Holds room p → w g.ground p = some (m (g.cursor p), p)

theorem peekAt_sees (n : Nat) : Sees (peekAt n) (·.ahead n) := fun _ _ _ hp => peekAt_apply hp n

theorem Sees.pure (m : α) : Sees (pure m) fun _ => m := fun _ _ _ _ => rfl

theorem Sees.bind {w : Walk α} {k : α → Walk β} {m : Parse.Cursor → α}
    {l : α → Parse.Cursor → β}
    (hw : Sees w m) (hk : ∀ a, Sees (k a) (l a)) : Sees (w >>= k) fun c => l (m c) c :=
  fun g room p hp => (bind_of (hw g room p hp)).trans (hk _ g room p hp)

theorem atWord_sees (word : String) : Sees (atWord word) fun c => (c.ahead 0).isWord word :=
  (peekAt_sees 0).bind fun _ => .pure _

theorem FollowsAt.sees {v : Walk β} {m : Parse.Cursor → β} {x : Parse α} {k : β → Walk α}
    (hv : Sees v m) (hp : g.Holds room p) (h : FollowsAt g room x (k (m (g.cursor p))) p) :
    FollowsAt g room x (v >>= k) p := .look (hv g room p hp) h

/-- The reader takes its cursor to hand. -/
theorem Follows.fromCursor {f : Parse.Cursor → Parse α} {w : Walk α}
    (h : ∀ p, g.Holds room p → FollowsAt g room (f (g.cursor p)) w p) :
    Follows g room (get >>= f) w := h

/-- Reader and walk look at the same, each in its way. -/
theorem FollowsAt.test {v : Walk β} {m : Parse.Cursor → β} {f : Parse.Cursor → Parse α}
    {k : β → Walk α} (hv : Sees v m) (hp : g.Holds room p)
    (h : FollowsAt g room (f (g.cursor p)) (k (m (g.cursor p))) p) :
    FollowsAt g room (get >>= f) (v >>= k) p := .sees hv hp h

theorem Follows.test {v : Walk β} {m : Parse.Cursor → β} {f : Parse.Cursor → Parse α}
    {k : β → Walk α} (hv : Sees v m)
    (h : ∀ p, g.Holds room p → FollowsAt g room (f (g.cursor p)) (k (m (g.cursor p))) p) :
    Follows g room (get >>= f) (v >>= k) := fun p hp => .test hv hp (h p hp)

theorem report_follows (fault : Fault) (line : Nat) :
    Follows g room (Parse.report fault line) (report fault line) :=
  fun _ hp => ⟨_, rfl, rfl, hp.inside, hp.depth⟩

theorem reportBehind_follows (fault : Fault) :
    Follows g room (Parse.reportBehind fault) (reportBehind fault) :=
  fun p hp => .look (lastLine_apply hp) (report_follows fault _ p hp)

theorem peek_follows : Follows g room Parse.current peek :=
  fun p hp => ⟨p, peek_apply hp, rfl, hp⟩

theorem atMark_follows (mark : String) : Follows g room (Parse.atMark mark) (atMark mark) :=
  peek_follows.bind fun _ => .pure _

theorem atWord_follows (word : String) : Follows g room (Parse.atWord word) (atWord word) :=
  peek_follows.bind fun _ => .pure _

theorem atEnd_follows : Follows g room Parse.atEnd atEnd := peek_follows.bind fun _ => .pure _

theorem advance_follows : Follows g room Parse.advance advance :=
  fun p hp => ⟨g.next p, advance_apply hp, Course.cursor_next, hp.next⟩

theorem skip_follows (n : Nat) : Follows g room (Parse.skip n) (skip n) := by
  induction n with
  | zero => exact fun p hp => ⟨p, rfl, rfl, hp⟩
  | succ n ih =>
    intro p hp
    obtain ⟨q, hrun, hcursor, hq⟩ := ih (g.next p) hp.next
    refine ⟨q, (bind_of (advance_apply hp)).trans hrun, hcursor.trans ?_, hq⟩
    rw [Course.cursor_next]
    exact (Parse.Cursor.drop_succ _ _).symm

/-- The walk keeps the token that is passed. -/
theorem FollowsAt.keep {f : Unit → Parse α} {k : Token → Walk α} (hp : g.Holds room p)
    (h : ∀ q, g.Holds room q → g.cursor q = (g.cursor p).drop 1 →
      FollowsAt g room (f ()) (k ((g.cursor p).ahead 0)) q) :
    FollowsAt g room (Parse.skip 1 >>= f) (advance >>= k) p := by
  obtain ⟨q, hrun, hcursor, hq⟩ := h (g.next p) hp.next Course.cursor_next
  rw [Course.cursor_next] at hrun hcursor
  exact ⟨q, (bind_of (advance_apply hp)).trans hrun, hcursor, hq⟩

/-- Behind the tokens that are passed. -/
theorem FollowsAt.skip {n : Nat} {f : Unit → Parse α} {k : Unit → Walk α} (hp : g.Holds room p)
    (h : ∀ q, g.Holds room q → g.cursor q = (g.cursor p).drop n → FollowsAt g room (f ()) (k ()) q) :
    FollowsAt g room (Parse.skip n >>= f) (skip n >>= k) p :=
  (skip_follows n p hp).bind fun q hq hcursor => h q hq hcursor

theorem eatMark_follows (mark : String) : Follows g room (Parse.eatMark mark) (eatMark mark) :=
  (atMark_follows mark).bind fun _ => .ite ((skip_follows 1).bind fun _ => .pure _) (.pure _)

theorem eatWord_follows (word : String) : Follows g room (Parse.eatWord word) (eatWord word) :=
  (atWord_follows word).bind fun _ => .ite ((skip_follows 1).bind fun _ => .pure _) (.pure _)

theorem expectMark_follows (mark : String) (fault : Fault) :
    Follows g room (Parse.expectMark mark fault) (expectMark mark fault) :=
  (eatMark_follows mark).bind fun _ =>
    .ite (.pure _) ((reportBehind_follows fault).bind fun _ => .pure _)

theorem expectSemicolon_follows : Follows g room Parse.expectSemicolon expectSemicolon :=
  (expectMark_follows _ _).bind fun _ => .pure _

theorem expectName_follows : Follows g room Parse.expectName expectName := by
  refine peek_follows.bind fun t => ?_
  cases t.name? with
  | some name => exact (skip_follows 1).bind fun _ => .pure _
  | none => exact (report_follows _ _).bind fun _ => .pure _

theorem commaList_follows {item : Parse (Option α)} {step : Walk (Option α)}
    (hgrows : Parse.Grows item) (h : Follows g room item step) :
    Follows g room (Parse.commaList item) (commaList step) := by
  refine .loop (fun acc c => .after hgrows (Nat.le_refl _) fun found d hle => ?_) (fun acc => ?_) []
  · exact .eatMark hle (Parse.pure_grows _) fun _ _ => .done _
  · exact h.bind fun found => (eatMark_follows ",").bind fun _ => .ite (.pure _) (.pure _)

theorem enter_apply (line : Nat) (hp : g.Holds (room + 1) p) :
    enter line g.ground p = some (true, { p with depth := p.depth + 1 }) := by
  have hdepth := hp.depth
  change (if Parse.depthLimit ≤ p.depth then _ else _ : Walk Bool) g.ground p = _
  rw [if_neg (by omega)]
  rfl

theorem enter_full (line : Nat) (hp : g.Holds 0 p) :
    enter line g.ground p = (report .tooDeep line >>= fun _ => pure false) g.ground p := by
  have hdepth := hp.depth
  change (if Parse.depthLimit ≤ p.depth then _ else _ : Walk Bool) g.ground p = _
  rw [if_pos (by omega)]

theorem leave_apply {r : Ground} {depth : Nat} (h : p.depth = depth + 1) :
    leave r p = some ((), { p with depth := depth }) := by
  change (match p.depth with
    | 0 => failure
    | depth + 1 => modify fun p => { p with depth := depth } : Walk Unit) r p = _
  rw [h]
  rfl

/-- One level further in, a level less is left; on the way out it is given back. -/
theorem nested_follows {x : Parse α} {deep past : Walk α} (line : Nat)
    (h : Follows g room x deep) : Follows g (room + 1) x (nested line deep past) := by
  intro p hp
  have hdepth := hp.depth
  obtain ⟨q, hrun, hcursor, hq⟩ := h { p with depth := p.depth + 1 } ⟨hp.inside, by simp only; omega⟩
  have hopen : q.depth = p.depth + 1 := by have := hq.depth; omega
  refine ⟨{ q with depth := p.depth }, ?_, hcursor, hq.inside, hdepth⟩
  refine (bind_of (enter_apply line hp)).trans ((bind_of hrun).trans ?_)
  exact bind_of (leave_apply hopen)

theorem nested_past {x : Parse α} {deep past : Walk α} (line : Nat) (h : Follows g 0 x past) :
    Follows g 0 (Parse.report .tooDeep line >>= fun _ => x) (nested line deep past) := by
  intro p hp
  obtain ⟨q, hrun, hq⟩ := (report_follows .tooDeep line).bind (fun _ => h) p hp
  exact ⟨q, (bind_of (enter_full line hp)).trans hrun, hq⟩

end Walk
end DataClasses
