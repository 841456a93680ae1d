import DataClasses.Proofs.Declaration.Growth
import DataClasses.Proofs.Declaration.Steps

/-!
# Every round moves on

A repetition of the reader asks for another round only if it has moved over a token, whatever the
tokens are. So none is ended for want of progress: each goes on until its own condition ends it.
-/

set_option autoImplicit false

namespace DataClasses

namespace Token

variable {t : Token}

theorem not_done_of_isMark {mark : String} (h : t.isMark mark = true) : t.isDone = false := by
  simp only [isMark, beq_iff_eq] at h
  simp [isDone, h]

theorem not_done_of_isAnyMark {marks : List String} (h : t.isAnyMark marks = true) :
    t.isDone = false := by
  obtain ⟨mark, -, hmark⟩ := List.any_eq_true.mp h
  exact not_done_of_isMark hmark

theorem not_done_of_isWord {word : String} (h : t.isWord word = true) : t.isDone = false := by
  simp only [isWord, beq_iff_eq] at h
  simp [isDone, h]

theorem not_done_of_isOneOf {words : List String} (h : t.isOneOf words = true) : t.isDone = false := by
  obtain ⟨word, -, hword⟩ := List.any_eq_true.mp h
  exact not_done_of_isWord hword

/-- A word is no mark. -/
theorem isMark_of_isWord {word mark : String} (h : t.isWord word = true) : t.isMark mark = false := by
  simp only [isWord, beq_iff_eq] at h
  simp [isMark, h]

theorem isMark_of_isOneOf {words : List String} {mark : String} (h : t.isOneOf words = true) :
    t.isMark mark = false := by
  obtain ⟨word, -, hword⟩ := List.any_eq_true.mp h
  exact isMark_of_isWord hword

end Token

namespace Parse

variable {α β σ : Type} {n : Nat} {c : Cursor}

theorem Grows.length_le {x : Parse α} (h : Grows x) (c : Cursor) :
    (x c).2.rest.length ≤ c.rest.length := (h c).1.length_le

theorem Cursor.length_pos (h : (c.ahead 0).isDone = false) : 0 < c.rest.length := by
  refine List.length_pos_iff.mpr fun hnil => ?_
  simp [ahead, hnil, Token.isDone] at h

theorem Cursor.drop_zero (c : Cursor) : c.drop 0 = c := rfl

theorem Cursor.drop_succ (c : Cursor) (n : Nat) : c.drop (n + 1) = (c.drop 1).drop n := by
  obtain ⟨rest, endLine, last, reports⟩ := c
  cases rest with
  | nil => simp [drop]
  | cons t ts => cases hlast : (ts.take n).getLast? <;> simp [drop, List.getLast?_cons, hlast]

theorem Cursor.drop_drop (c : Cursor) (m n : Nat) : (c.drop m).drop n = c.drop (m + n) := by
  induction m generalizing c with
  | zero => rw [Nat.zero_add, drop_zero]
  | succ m ih => rw [Nat.add_right_comm, drop_succ c m, drop_succ c (m + n), ih]

theorem Cursor.not_done_of_atSeparator (h : c.atSeparator = true) : (c.ahead 0).isDone = false :=
  Token.not_done_of_isAnyMark h

theorem Cursor.not_done_of_atModifier (h : c.atModifier = true) : (c.ahead 0).isDone = false := by
  rcases (Bool.or_eq_true _ _).mp h with h | h
  · exact Token.not_done_of_isOneOf h
  · exact Token.not_done_of_isOneOf ((Bool.and_eq_true _ _).mp h).2

theorem Cursor.not_done_of_atImport (h : c.atImport = true) : (c.ahead 0).isDone = false := by
  rcases (Bool.or_eq_true _ _).mp h with h | h
  · exact Token.not_done_of_isWord h
  · exact Token.not_done_of_isWord ((Bool.and_eq_true _ _).mp h).1

theorem Cursor.not_done_of_not_atDeclaration (h : ¬c.atDeclaration = true) :
    (c.ahead 0).isDone = false :=
  Bool.eq_false_iff.mpr fun hdone => h (by simp [atDeclaration, hdone])

theorem Cursor.word_of_atTypeWord (h : c.atTypeWord = true) :
    (c.ahead 0).isOneOf ["class", "struct", "interface", "enum", "record"] = true := by
  rcases (Bool.or_eq_true _ _).mp h with h | h
  · obtain ⟨word, hword, ht⟩ := List.any_eq_true.mp h
    exact List.any_eq_true.mpr ⟨word, List.mem_append_left ["record"] hword, ht⟩
  · exact List.any_eq_true.mpr ⟨"record", by decide, ((Bool.and_eq_true _ _).mp h).1⟩

def Moves (x : Parse α) (c : Cursor) : Prop := (x c).2.rest.length < c.rest.length

namespace Moves

theorem bind {x : Parse α} {f : α → Parse β} (hx : Moves x c) (hf : ∀ a, Grows (f a)) :
    Moves (x >>= f) c := Nat.lt_of_le_of_lt ((hf _).length_le _) hx

/-- What comes before may have moved too. -/
theorem behind {x : Parse α} {f : α → Parse β} (hx : Grows x) (hf : Moves (f (x c).1) (x c).2) :
    Moves (x >>= f) c := Nat.lt_of_lt_of_le hf (hx.length_le c)

theorem ite {b : Prop} [Decidable b] {x y : Parse α} (hx : b → Moves x c) (hy : ¬b → Moves y c) :
    Moves (if b then x else y) c := by
  split
  · exact hx ‹b›
  · exact hy ‹¬b›

end Moves

theorem Passes.moves {x : Parse α} (hx : Passes x) (h : (c.ahead 0).isDone = false) : Moves x c := by
  have hpos := Cursor.length_pos h
  have hle := (hx c).1.length_le
  simp only [Cursor.drop, List.length_drop] at hle
  rw [Moves]
  omega

def Productive (n : Nat) (x : Parse (Round σ α)) (c : Cursor) : Prop :=
  ∀ y, (x c).1 = .again y → (x c).2.rest.length < n

namespace Productive

theorem done (a : α) : Productive n (pure (.done a) : Parse (Round σ α)) c := by
  intro y hy
  cases hy

theorem again (y : σ) (h : c.rest.length < n) :
    Productive n (pure (.again y) : Parse (Round σ α)) c := fun _ _ => h

/-- Behind what only looks at the tokens. -/
theorem look {x : Parse β} {f : β → Parse (Round σ α)} (h : Productive n (f (x c).1) (x c).2) :
    Productive n (x >>= f) c := h

theorem after {x : Parse β} {f : β → Parse (Round σ α)} (hx : Grows x) (hle : c.rest.length ≤ n)
    (h : ∀ a d, d.rest.length ≤ n → Productive n (f a) d) : Productive n (x >>= f) c :=
  h _ _ (Nat.le_trans (hx.length_le c) hle)

theorem ite {b : Prop} [Decidable b] {x y : Parse (Round σ α)} (hx : b → Productive n x c)
    (hy : ¬b → Productive n y c) : Productive n (if b then x else y) c := by
  split
  · exact hx ‹b›
  · exact hy ‹¬b›

theorem before {b : Prop} [Decidable b] {x : Parse Unit} {f : Unit → Parse (Round σ α)} (hx : Grows x)
    (hle : c.rest.length ≤ n) (h : ∀ d, d.rest.length ≤ n → Productive n (f ()) d) :
    Productive n (if b then x >>= f else f ()) c :=
  ite (fun _ => after hx hle fun _ => h) fun _ => h c hle

/-- What has moved on may be followed by anything. -/
theorem moved {x : Parse β} {f : β → Parse (Round σ α)} (hx : Moves x c) (hle : c.rest.length ≤ n)
    (hf : ∀ a, Grows (f a)) : Productive n (x >>= f) c :=
  fun _ _ => Nat.lt_of_le_of_lt ((hf _).length_le _) (Nat.lt_of_lt_of_le hx hle)

/-- A token is passed, or there is none left. -/
theorem passed {x : Parse β} {f : β → Parse (Round σ α)} (hx : Passes x) (hpos : 0 < n)
    (hle : c.rest.length ≤ n) (hf : ∀ a, Grows (f a)) : Productive n (x >>= f) c := by
  intro y _
  have hlength := (hx c).1.length_le
  simp only [Cursor.drop, List.length_drop] at hlength
  exact Nat.lt_of_le_of_lt ((hf _).length_le _) (by omega)

theorem skip {k : Nat} {f : Unit → Parse (Round σ α)} (hpos : 0 < n) (hle : c.rest.length ≤ n)
    (hf : Grows (f ())) : Productive n (Parse.skip (k + 1) >>= f) c :=
  passed (skip_passes k) hpos hle fun _ => hf

/-- The round begins with a token that is passed. -/
theorem first {x : Parse β} {f : β → Parse (Round σ α)} (hx : Passes x)
    (h : (c.ahead 0).isDone = false) (hf : ∀ a, Grows (f a)) :
    Productive c.rest.length (x >>= f) c := passed hx (Cursor.length_pos h) (Nat.le_refl _) hf

theorem eatMark {mark : String} {f : Bool → Parse (Round σ α)} (hle : c.rest.length ≤ n)
    (hf : Grows (f true)) (h : ∀ d, d.rest.length ≤ n → Productive n (f false) d) :
    Productive n (Parse.eatMark mark >>= f) c := by
  rw [Parse.eatMark, bind_assoc]
  refine look ?_
  cases hmark : (atMark mark c).1 with
  | false => exact h c hle
  | true =>
    have hpos := Cursor.length_pos (Token.not_done_of_isMark hmark)
    exact skip (f := fun _ => pure true >>= f) (k := 0) (Nat.lt_of_lt_of_le hpos hle) hle hf

end Productive

theorem Moves.loop {close : σ → α} {round : σ → Parse (Round σ α)} {x : σ} (h : Moves (round x) c)
    (hround : ∀ y, Grows (round y)) : Moves (loop close round x) c := by
  have hrest (y : σ) (d : Cursor) : (Parse.loop close round y d).2.rest.length ≤ d.rest.length :=
    (Grows.loop hround y).length_le d
  rw [Moves] at h
  rw [Moves, Parse.loop, rounds]
  rcases hr : round x c with ⟨next, d⟩
  rw [hr] at h
  cases next with
  | done a => simpa [hr] using h
  | again y =>
    simp only
    rw [if_pos h]
    exact Nat.lt_of_le_of_lt (hrest y d) h

/-- A member is passed over unless nothing of it stands before the brace that closes its type. -/
theorem skipMember_moves (h : (c.ahead 0).isDone = false)
    (hclose : (c.ahead 0).isMark closeBrace = false) : Moves skipMember c := by
  have hskip (next : Round Nat Unit) : Grows (skip 1 >>= fun _ => pure next) :=
    (skip_grows 1).bind fun _ => pure_grows _
  have hbehind : Grows (atMark "=" >>= fun more => if more then pure (.again 0) else
      (pure (.done ()) : Parse (Round Nat Unit))) :=
    (atMark_grows _).bind fun _ => .ite (pure_grows _) (pure_grows _)
  refine .loop (.behind current_grows ?first) fun depth => current_grows.bind fun t => ?later
  case first =>
    have hcurrent : (current c).1 = c.ahead 0 := rfl
    have hdone : ¬(current c).1.isDone = true := by simp [hcurrent, h]
    have hnot : ¬(0 == 0 && (current c).1.isMark closeBrace) = true := by simp [hcurrent, hclose]
    refine .ite (absurd · hdone) fun _ => ?_
    refine .ite (fun _ => .bind ((skip_passes 0).moves h) fun _ => pure_grows _) fun _ => ?_
    refine .ite (absurd · hnot) fun _ => ?_
    refine .ite (fun _ => .bind (skipBlock_passes.moves h) fun _ => hbehind) fun _ => ?_
    exact .bind ((skip_passes 0).moves h) fun _ => pure_grows _
  case later =>
    exact .ite (pure_grows _) <| .ite (hskip _) <| .ite (pure_grows _) <|
      .ite (skipBlock_grows.bind fun _ => hbehind) (hskip _)

/-- A type declaration is passed from its keyword on, if there is no room for it too. -/
theorem typeDecl_moves (room : Nat) (lead : Leading) (h : c.atTypeWord = true) :
    Moves (typeDecl room lead) c := by
  have hword := Cursor.word_of_atTypeWord h
  have hdone := Token.not_done_of_isOneOf hword
  cases room with
  | zero =>
    refine .behind current_grows <| .behind (report_grows _ _) <| .bind ?_ fun _ =>
      (eatMark_grows ";").bind fun _ => pure_grows _
    exact skipMember_moves hdone (Token.isMark_of_isOneOf hword)
  | succ room => exact (typeDeclWith_passes (typeExpr_grows room) (typeDecl_grows room) lead).moves hdone

theorem nextPart_productive (acc : List String) : Productive c.rest.length (nextPart acc) c := by
  refine .look (x := get) <| .ite (fun h => .first (skip_passes 1) ?_ fun _ => pure_grows _) fun _ => .done _
  exact Cursor.not_done_of_atSeparator ((Bool.and_eq_true _ _).mp h).1

theorem suffix_productive (line : Nat) (x : TypeExpr × Nat × Bool) :
    Productive c.rest.length (suffix line x) c := by
  obtain ⟨type, room, reported⟩ := x
  have hpos {mark : String} (h : (c.ahead 0).isMark mark = true) : 0 < c.rest.length :=
    Cursor.length_pos (Token.not_done_of_isMark h)
  refine .look (x := get) <| .before (report_grows _ _) (Nat.le_refl _) fun d hle => ?_
  refine .ite (fun h => ?nullable) fun _ => ?_
  case nullable => exact .skip (hpos h) hle (pure_grows _)
  refine .ite (fun h => ?array) fun _ => ?_
  case array =>
    exact .skip (hpos ((Bool.and_eq_true _ _).mp h).1) hle <| get_grows.bind fun _ =>
      (skip_grows _).bind fun _ => (expectMark_grows _ _).bind fun _ => pure_grows _
  refine .ite (fun h => ?pointer) fun _ => .done _
  case pointer => exact .skip (hpos h) hle (pure_grows _)

theorem nextParameter_productive {n : Nat} (acc : List Parameter) (h : c.rest.length ≤ n) :
    Productive n (nextParameter acc) c :=
  .eatMark h (pure_grows _) fun _ hle => .after (expectMark_grows _ _) hle fun _ _ _ => .done _

theorem nextAccessor_productive (acc : List String) :
    Productive c.rest.length (nextAccessor acc) c := by
  refine .eatMark (Nat.le_refl _) (pure_grows _) fun d hle => .look (x := atEnd) ?_
  refine .ite (fun _ => ?atEnd) fun h => ?_
  case atEnd => exact .look (x := current) <| .after (report_grows _ _) hle fun _ _ _ => .done _
  have hpos := Nat.lt_of_lt_of_le (Cursor.length_pos (Bool.not_eq_true _ ▸ h)) hle
  refine .after leading_grows hle fun lead e hle => .look (x := current) ?_
  split
  · exact .after (report_grows _ _) hle fun _ _ hle => .skip hpos hle (pure_grows _)
  · exact .skip hpos hle (skipAccessorBody_grows.bind fun _ => pure_grows _)

theorem nextMember_productive {item : Parse (Option Member)} (hitem : Grows item) (acc : List Member) :
    Productive c.rest.length (nextMember item acc) c := by
  refine .look (x := get) <| .ite (fun _ => .done _) fun h => ?_
  simp only [Bool.not_eq_true, Bool.or_eq_false_iff] at h
  have hpos := Cursor.length_pos h.1
  refine .ite (fun _ => .skip hpos (Nat.le_refl _) (pure_grows _)) fun _ => ?_
  refine .after hitem (Nat.le_refl _) fun found d hle => .look (x := get) ?_
  split
  · exact .skip hpos hle (pure_grows _)
  · next hne => exact .again _ (Nat.lt_of_le_of_ne hle fun he => hne (beq_iff_eq.mpr he))

theorem nextImport_productive {type : Parse (Option TypeExpr)} (htype : Grows type) (acc : List Import) :
    Productive c.rest.length (nextImport type acc) c := by
  exact .look (x := get) <| .ite (fun h => .first (importDecl_passes htype)
    (Cursor.not_done_of_atImport h) fun _ => pure_grows _) fun _ => .done _

structure Inner.Move (inner : Inner) : Prop extends inner.Grow where
  typeDecl_moves : ∀ lead c, c.atTypeWord = true → Moves (inner.typeDecl lead) c
  scope_passes : Passes inner.scope

theorem inner_move (room : Nat) : Inner.Move ⟨typeExpr room, typeDecl room, scope room⟩ :=
  ⟨⟨typeExpr_grows room, typeDecl_grows room, scope_grows room⟩, fun lead _ => typeDecl_moves room lead,
    Parse.scope_passes room⟩

theorem declaration_productive {inner : Inner} (h : inner.Move) (enclosed : Bool)
    (acc : List Declaration) : Productive c.rest.length (declaration inner enclosed acc) c := by
  have hle := Nat.le_refl c.rest.length
  refine .look (x := get) ?_
  refine .ite (fun _ => .before (report_grows _ _) hle fun _ _ => .done _) fun hdone => ?_
  have hdone : (c.ahead 0).isDone = false := Bool.not_eq_true _ ▸ hdone
  have hpos := Cursor.length_pos hdone
  refine .ite (fun _ => ?brace) fun hclose => ?_
  case brace =>
    refine .ite (fun _ => .done _) fun _ => .after (report_grows _ _) hle fun _ _ hle => ?_
    exact .skip hpos hle (pure_grows _)
  have hclose : (c.ahead 0).isMark closeBrace = false := Bool.not_eq_true _ ▸ hclose
  refine .ite (fun _ => ?scope) fun _ => ?_
  case scope => exact .passed h.scope_passes hpos hle fun _ => pure_grows _
  refine .ite (fun _ => ?lateImport) fun _ => ?_
  case lateImport =>
    refine .after (report_grows _ _) hle fun _ _ hle => ?_
    exact .passed (importDecl_passes h.type) hpos hle fun _ => pure_grows _
  refine .ite (fun _ => ?externAlias) fun _ => ?_
  case externAlias => exact .moved (skipMember_moves hdone hclose) hle fun _ => pure_grows _
  refine .after leading_grows hle fun lead d hle => .look (x := get) ?_
  refine .ite (fun hword => ?delegate) fun _ => ?_
  case delegate =>
    have hmoves : Moves skipMember d :=
      skipMember_moves (Token.not_done_of_isWord hword) (Token.isMark_of_isWord hword)
    exact .moved hmoves hle fun _ => pure_grows _
  refine .ite (fun hword => ?type) fun _ => ?_
  case type => exact .moved (h.typeDecl_moves lead d hword) hle fun _ => pure_grows _
  refine .ite (fun hless => ?leadAlone) fun _ => ?misplaced
  case leadAlone => exact .again _ (of_decide_eq_true ((Bool.and_eq_true _ _).mp hless).1)
  case misplaced => exact .passed recover_passes hpos hle fun _ => pure_grows _

def Stops (Q : Cursor → Prop) (x : Parse (Round σ α)) (c : Cursor) : Prop :=
  ∀ a, (x c).1 = .done a → Q (x c).2

namespace Stops

variable {Q : Cursor → Prop}

theorem done (a : α) (h : Q c) : Stops Q (pure (.done a) : Parse (Round σ α)) c := fun _ _ => h

theorem again (y : σ) : Stops Q (pure (.again y) : Parse (Round σ α)) c := by
  intro a ha
  cases ha

theorem look {x : Parse β} {f : β → Parse (Round σ α)} (h : Stops Q (f (x c).1) (x c).2) :
    Stops Q (x >>= f) c := h

theorem after {x : Parse β} {f : β → Parse (Round σ α)} (h : ∀ a d, Stops Q (f a) d) :
    Stops Q (x >>= f) c := h _ _

theorem ite {b : Prop} [Decidable b] {x y : Parse (Round σ α)} (hx : b → Stops Q x c)
    (hy : ¬b → Stops Q y c) : Stops Q (if b then x else y) c := by
  split
  · exact hx ‹b›
  · exact hy ‹¬b›

end Stops

/-- Where all rounds move on, what the last one leaves is left. -/
theorem loop_stops {close : σ → α} {round : σ → Parse (Round σ α)} {Q : Cursor → Prop}
    (hmoves : ∀ y c, Productive c.rest.length (round y) c) (hstops : ∀ y c, Stops Q (round y) c)
    (x : σ) (c : Cursor) : Q (loop close round x c).2 := by
  induction hn : c.rest.length using Nat.strongRecOn generalizing x c with
  | _ n ih =>
    have hmove := hmoves x c
    have hstop := hstops x c
    rcases hr : round x c with ⟨next, d⟩
    rw [Productive, hr] at hmove
    rw [Stops, hr] at hstop
    cases next with
    | done a =>
      rw [loop_done hr]
      exact hstop a rfl
    | again y =>
      have hless : d.rest.length < c.rest.length := hmove y rfl
      rw [loop_again hr hless]
      exact ih d.rest.length (hn ▸ hless) y d rfl

/-- Outside of braces, declarations go on up to the end. -/
theorem declaration_stops (inner : Inner) (acc : List Declaration) :
    Stops (fun d => (d.ahead 0).isDone = true) (declaration inner false acc) c := by
  refine .look (x := get) ?_
  refine .ite (fun hdone => .ite nofun fun _ => .done _ hdone) fun _ => ?_
  -- Every branch but the one for the end goes on.
  refine .ite (fun _ => .ite nofun fun _ => ?brace) fun _ => ?_
  case brace => exact .after fun _ _ => .after fun _ _ => .again _
  refine .ite (fun _ => ?scope) fun _ => ?_
  case scope => exact .after fun _ _ => .again _
  refine .ite (fun _ => ?lateImport) fun _ => ?_
  case lateImport => exact .after fun _ _ => .after fun _ _ => .again _
  refine .ite (fun _ => ?externAlias) fun _ => .after fun lead _ => .after fun d _ => ?_
  case externAlias => exact .after fun _ _ => .again _
  refine .ite (fun _ => ?delegate) fun _ => ?_
  case delegate => exact .after fun _ _ => .again _
  refine .ite (fun _ => ?type) fun _ => ?_
  case type => exact .after fun _ _ => .again _
  refine .ite (fun _ => .again _) fun _ => ?misplaced
  case misplaced => exact .after fun _ _ => .again _

theorem declarations_stop {inner : Inner} (h : inner.Move) (c : Cursor) :
    ((declarations inner false c).2.ahead 0).isDone = true :=
  loop_stops (Q := fun d => (d.ahead 0).isDone = true) (fun _ _ => declaration_productive h false _)
    (fun _ _ => declaration_stops _ _) _ _

/-- A source is read up to its end. -/
theorem sourceUnit_stops (c : Cursor) : ((sourceUnit c).2.ahead 0).isDone = true := by
  rw [sourceUnit, bind_apply, bind_apply, pure_apply]
  exact declarations_stop (inner_move depthLimit) _

end Parse
end DataClasses
