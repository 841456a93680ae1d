import DataClasses.Declaration.Unit

/-!
# Reports are never lost, and tokens never come back

Whatever reads tokens keeps the reports that are there already, and all it adds are errors. So
a source with one report about its order has an error, however reading went on behind it. What is
left of the tokens is always an end of what was left before, and many readers pass a token at least.
-/

set_option autoImplicit false

namespace DataClasses.Parse

variable {α β σ : Type}

/-- A cursor at or behind an earlier one, with the reports of that and errors that were added since. -/
def Later (c d : Cursor) : Prop :=
  d.rest <:+ c.rest ∧ ∃ new, d.reports = new ++ c.reports ∧ ∀ g ∈ new, g.severity = .error

theorem Later.refl (c : Cursor) : Later c c := ⟨List.suffix_refl _, [], rfl, by simp⟩

theorem Later.trans {c d e : Cursor} (hcd : Later c d) (hde : Later d e) : Later c e := by
  obtain ⟨hrest, new, hnew, herr⟩ := hcd
  obtain ⟨hrest', newer, hnewer, herr'⟩ := hde
  refine ⟨hrest'.trans hrest, newer ++ new, ?_, ?_⟩
  · rw [hnewer, hnew, List.append_assoc]
  · intro g hg
    rcases List.mem_append.mp hg with hg | hg
    · exact herr' g hg
    · exact herr g hg

/-- What takes tokens only from the front, keeps all reports and adds only errors. -/
def Grows (x : Parse α) : Prop := ∀ c, Later c (x c).2

theorem pure_grows (a : α) : Grows (pure a) := fun c => .refl c

theorem Grows.bind {x : Parse α} {f : α → Parse β} (hx : Grows x) (hf : ∀ a, Grows (f a)) :
    Grows (x >>= f) := fun c => (hx c).trans (hf _ _)

theorem Grows.map {x : Parse α} (hx : Grows x) (f : α → β) : Grows (f <$> x) :=
  hx.bind fun a => pure_grows (f a)

theorem Grows.ite {b : Prop} [Decidable b] {x y : Parse α} (hx : Grows x) (hy : Grows y) :
    Grows (if b then x else y) := by
  split
  · exact hx
  · exact hy

theorem Grows.before {b : Prop} [Decidable b] {x : Parse Unit} {f : Unit → Parse β} (hx : Grows x)
    (hf : Grows (f ())) : Grows (if b then x >>= f else f ()) :=
  .ite (hx.bind fun _ => hf) hf

def Cursor.Faulty (c : Cursor) : Prop := c.reports ≠ []

theorem Grows.faulty {x : Parse α} (hx : Grows x) {c : Cursor} (hc : c.Faulty) : (x c).2.Faulty := by
  obtain ⟨-, new, hnew, -⟩ := hx c
  rw [Cursor.Faulty, hnew]
  exact List.append_ne_nil_of_right_ne_nil _ hc

theorem Grows.loop {close : σ → α} {round : σ → Parse (Round σ α)}
    (h : ∀ y, Grows (round y)) (x : σ) : Grows (loop close round x) := by
  intro c
  refine rounds_induction (P := fun y : σ × Cursor => Later c y.2)
    (Q := fun r : α × Cursor => Later c r.2) ?_ ?_ (fun _ hy => hy) (x, c) (Later.refl c)
  · rintro ⟨y, d⟩ r hd hround
    have hnext := hd.trans (h y d)
    cases hr : round y d with
    | mk next e =>
      rw [hr] at hnext
      cases next with
      | again z => simp [hr] at hround
      | done a =>
        simp only [hr, Round.done.injEq] at hround
        exact hround ▸ hnext
  · rintro ⟨y, d⟩ t hd hround
    have hnext := hd.trans (h y d)
    cases hr : round y d with
    | mk next e =>
      rw [hr] at hnext
      cases next with
      | again z =>
        simp only [hr, Round.again.injEq] at hround
        exact hround ▸ hnext
      | done a => simp [hr] at hround

theorem loop_faulty {close : σ → α} {round : σ → Parse (Round σ α)} (h : ∀ y, Grows (round y))
    {x : σ} {c : Cursor} (hc : (round x c).2.Faulty) : (loop close round x c).2.Faulty := by
  unfold loop
  rw [rounds]
  cases hr : round x c with
  | mk next d =>
    rw [hr] at hc
    cases next with
    | done a => simpa [hr] using hc
    | again y =>
      simp only
      split
      · exact (Grows.loop h y).faulty hc
      · exact hc

theorem get_grows : Grows (get : Parse Cursor) := fun c => .refl c

theorem skip_grows (n : Nat) : Grows (skip n) := fun _ => ⟨List.drop_suffix _ _, [], rfl, by simp⟩

def Passes (x : Parse α) : Prop := ∀ c, Later (c.drop 1) (x c).2

theorem Passes.grows {x : Parse α} (h : Passes x) : Grows x := fun c => (skip_grows 1 c).trans (h c)

theorem Passes.bind {x : Parse α} {f : α → Parse β} (hx : Passes x) (hf : ∀ a, Grows (f a)) :
    Passes (x >>= f) := fun c => (hx c).trans (hf _ _)

theorem Later.drop {c d : Cursor} (h : Later c d) : Later (c.drop 1) (d.drop 1) := by
  obtain ⟨hrest, hreports⟩ := h
  refine ⟨?_, hreports⟩
  refine List.suffix_of_suffix_length_le ((List.drop_suffix 1 d.rest).trans hrest)
    (List.drop_suffix 1 c.rest) ?_
  have hle := hrest.length_le
  simp only [Cursor.drop, List.length_drop]
  omega

theorem Passes.behind {x : Parse α} {f : α → Parse β} (hx : Grows x) (hf : ∀ a, Passes (f a)) :
    Passes (x >>= f) := fun c => (hx c).drop.trans (hf _ _)

theorem skip_passes (n : Nat) : Passes (skip (n + 1)) := by
  refine fun c => ⟨?_, [], rfl, by simp⟩
  change c.rest.drop (n + 1) <:+ c.rest.drop 1
  rw [Nat.add_comm, ← List.drop_drop]
  exact List.drop_suffix _ _

theorem report_grows (fault : Fault) (line : Nat) : Grows (report fault line) :=
  fun _ => ⟨List.suffix_refl _, [.error fault.code fault.message line], rfl, by simp [Diagnostic.error]⟩

theorem report_faulty (fault : Fault) (line : Nat) (c : Cursor) : (report fault line c).2.Faulty :=
  List.cons_ne_nil _ _

theorem ahead_grows (n : Nat) : Grows (ahead n) := get_grows.bind fun _ => pure_grows _

theorem current_grows : Grows current := ahead_grows 0

theorem advance_passes : Passes advance :=
  .behind current_grows fun _ => (skip_passes 0).bind fun _ => pure_grows _

theorem advance_grows : Grows advance := advance_passes.grows

theorem reportBehind_grows (fault : Fault) : Grows (reportBehind fault) :=
  get_grows.bind fun _ => report_grows fault _

theorem atMark_grows (mark : String) : Grows (atMark mark) :=
  current_grows.bind fun _ => pure_grows _

theorem atWord_grows (word : String) : Grows (atWord word) :=
  current_grows.bind fun _ => pure_grows _

theorem atEnd_grows : Grows atEnd := current_grows.bind fun _ => pure_grows _

theorem eatMark_grows (mark : String) : Grows (eatMark mark) :=
  (atMark_grows mark).bind fun _ => .ite ((skip_grows 1).bind fun _ => pure_grows _) (pure_grows _)

theorem eatWord_grows (word : String) : Grows (eatWord word) :=
  (atWord_grows word).bind fun _ => .ite ((skip_grows 1).bind fun _ => pure_grows _) (pure_grows _)

theorem expectMark_grows (mark : String) (fault : Fault) : Grows (expectMark mark fault) :=
  (eatMark_grows mark).bind fun _ =>
    .ite (pure_grows _) ((reportBehind_grows fault).bind fun _ => pure_grows _)

theorem expectSemicolon_grows : Grows expectSemicolon :=
  (expectMark_grows ";" .semicolonExpected).bind fun _ => pure_grows _

theorem expectName_grows : Grows expectName := by
  refine current_grows.bind fun t => ?_
  split
  · exact (skip_grows 1).bind fun _ => pure_grows _
  · exact (report_grows _ _).bind fun _ => pure_grows _

theorem nextItem_grows {item : Parse (Option α)} (h : Grows item) (acc : List α) :
    Grows (nextItem item acc) :=
  h.bind fun _ => (eatMark_grows ",").bind fun _ => .ite (pure_grows _) (pure_grows _)

theorem commaList_grows {item : Parse (Option α)} (h : Grows item) : Grows (commaList item) :=
  .loop (nextItem_grows h) []

theorem skipBlock_passes : Passes skipBlock := by
  refine (skip_passes 0).bind fun _ => get_grows.bind fun c => ?_
  exact (skip_grows _).bind fun _ => .ite (report_grows _ _) (pure_grows _)

theorem skipBlock_grows : Grows skipBlock := skipBlock_passes.grows

theorem skipExpression_grows (stops : List String) : Grows (skipExpression stops) :=
  get_grows.bind fun _ => skip_grows _

theorem skipArguments_grows : Grows skipArguments := by
  refine get_grows.bind fun c => (skip_grows _).bind fun _ => ?_
  split
  · exact pure_grows _
  · exact report_grows _ _
  · exact report_grows _ _

theorem skipType_grows : Grows skipType := get_grows.bind fun _ => skip_grows _

theorem nextInitial_grows (u : Unit) : Grows (nextInitial u) :=
  (skipExpression_grows _).bind fun _ => (atMark_grows _).bind fun _ =>
    get_grows.bind fun _ => .ite (pure_grows _) ((skip_grows 1).bind fun _ => pure_grows _)

theorem skipInitializer_grows : Grows skipInitializer := .loop nextInitial_grows ()

theorem passed_grows (depth : Nat) : Grows (passed depth) := by
  refine current_grows.bind fun t => ?_
  refine .ite (pure_grows _) (.ite ?_ (.ite (pure_grows _) (.ite ?_ ?_)))
  · exact (skip_grows 1).bind fun _ => pure_grows _
  · exact skipBlock_grows.bind fun _ => (atMark_grows _).bind fun _ =>
      .ite (pure_grows _) (pure_grows _)
  · exact (skip_grows 1).bind fun _ => pure_grows _

theorem skipMember_grows : Grows skipMember := .loop passed_grows 0

theorem nextPart_grows (acc : List String) : Grows (nextPart acc) :=
  get_grows.bind fun _ => .ite ((skip_grows 2).bind fun _ => pure_grows _) (pure_grows _)

theorem dottedName_grows : Grows dottedName := by
  refine current_grows.bind fun t => get_grows.bind fun c => ?_
  refine .before (skip_grows 2) (expectName_grows.bind fun first => ?_)
  split
  · exact pure_grows _
  · exact (Grows.loop nextPart_grows _).bind fun _ => pure_grows _

theorem typeArguments_grows {inner : Parse (Option TypeExpr)} (h : Grows inner) :
    Grows (typeArguments inner) :=
  (skip_grows 1).bind fun _ => (commaList_grows h).bind fun _ =>
    (expectMark_grows _ _).bind fun _ => pure_grows _

theorem typeArguments?_grows {inner : Parse (Option TypeExpr)} (h : Grows inner) :
    Grows (typeArguments? inner) :=
  (atMark_grows "<").bind fun _ => .ite (typeArguments_grows h) (pure_grows _)

theorem nextSegment_grows {inner : Parse (Option TypeExpr)} (h : Grows inner)
    (acc : List (String × List TypeExpr)) : Grows (nextSegment inner acc) :=
  current_grows.bind fun _ => (skip_grows 1).bind fun _ => (typeArguments?_grows h).bind fun _ =>
    get_grows.bind fun _ => .ite ((skip_grows 1).bind fun _ => pure_grows _) (pure_grows _)

theorem segments_grows {inner : Parse (Option TypeExpr)} (h : Grows inner) :
    Grows (segments inner) := .loop (nextSegment_grows h) []

theorem tupleItem_grows {inner : Parse (Option TypeExpr)} (h : Grows inner) :
    Grows (tupleItem inner) :=
  h.bind fun _ => current_grows.bind fun _ => .before (skip_grows 1) (pure_grows _)

theorem simpleType_grows {inner : Parse (Option TypeExpr)} (h : Grows inner) :
    Grows (simpleType inner) := by
  refine get_grows.bind fun c => .ite ?_ ?_
  · exact (skip_grows 1).bind fun _ => (commaList_grows (tupleItem_grows h)).bind fun _ =>
      (expectMark_grows _ _).bind fun _ => pure_grows _
  · split
    · exact (skip_grows 1).bind fun _ => pure_grows _
    · refine .ite (.before (skip_grows 2) ?_) ((report_grows _ _).bind fun _ => pure_grows _)
      exact (segments_grows h).bind fun _ => pure_grows _

theorem suffix_grows (line : Nat) (x : TypeExpr × Nat × Bool) : Grows (suffix line x) := by
  obtain ⟨type, room, reported⟩ := x
  refine get_grows.bind fun c =>
    .before (report_grows _ _) (.ite ?_ (.ite ?_ (.ite ?_ (pure_grows _))))
  · exact (skip_grows 1).bind fun _ => pure_grows _
  · exact (skip_grows 1).bind fun _ => get_grows.bind fun d => (skip_grows _).bind fun _ =>
      (expectMark_grows _ _).bind fun _ => pure_grows _
  · exact (skip_grows 1).bind fun _ => pure_grows _

theorem suffixes_grows (line room : Nat) (type : TypeExpr) : Grows (suffixes line room type) :=
  .loop (suffix_grows line) _

theorem typeExpr_grows (room : Nat) : Grows (typeExpr room) := by
  induction room with
  | zero =>
    exact current_grows.bind fun t => (report_grows _ _).bind fun _ =>
      skipType_grows.bind fun _ => pure_grows _
  | succ room ih =>
    refine current_grows.bind fun t => (simpleType_grows ih).bind fun type => ?_
    split
    · exact pure_grows _
    · exact (suffixes_grows _ _ _).map _

theorem oneAttribute_grows : Grows oneAttribute := by
  refine current_grows.bind fun t => dottedName_grows.bind fun name =>
    (eatMark_grows "(").bind fun _ => .ite ?_ (pure_grows _)
  exact get_grows.bind fun c => skipArguments_grows.bind fun _ => pure_grows _

theorem attributeTarget?_grows : Grows attributeTarget? :=
  get_grows.bind fun _ => .ite ((skip_grows 2).bind fun _ => pure_grows _) (pure_grows _)

theorem attributeSection_passes : Passes attributeSection := by
  refine (skip_passes 0).bind fun _ => attributeTarget?_grows.bind fun target => ?_
  refine (Grows.loop (fun acc => oneAttribute_grows.bind fun a => ?_) _).bind fun _ =>
    (expectMark_grows _ _).bind fun _ => pure_grows _
  refine (eatMark_grows ",").bind fun _ => .ite ?_ (pure_grows _)
  exact (atMark_grows "]").bind fun _ => .ite (pure_grows _) (pure_grows _)

theorem attributeSection_grows : Grows attributeSection := attributeSection_passes.grows

theorem attributes_grows : Grows attributes :=
  .loop (fun _ => (atMark_grows "[").bind fun _ =>
    .ite (attributeSection_grows.bind fun _ => pure_grows _) (pure_grows _)) []

theorem nextModifier_grows (acc : List String) : Grows (nextModifier acc) :=
  get_grows.bind fun _ => .ite ((skip_grows 1).bind fun _ => pure_grows _) (pure_grows _)

theorem modifiers_grows : Grows modifiers := .loop nextModifier_grows []

theorem leading_grows : Grows leading :=
  attributes_grows.bind fun _ => modifiers_grows.bind fun _ => pure_grows _

theorem skipAttributes_grows : Grows skipAttributes :=
  .loop (fun _ => (atMark_grows "[").bind fun _ =>
    .ite (attributeSection_grows.bind fun _ => pure_grows _) (pure_grows _)) ()

theorem typeParameters_grows : Grows typeParameters := by
  refine (skip_grows 1).bind fun _ => (commaList_grows ?_).bind fun names =>
    (expectMark_grows _ _).bind fun _ => pure_grows _
  exact skipAttributes_grows.bind fun _ => current_grows.bind fun t =>
    .before (skip_grows 1) expectName_grows

theorem typeParameters?_grows : Grows typeParameters? :=
  (atMark_grows "<").bind fun _ => .ite typeParameters_grows (pure_grows _)

theorem skipConstraints_grows : Grows skipConstraints :=
  (atWord_grows "where").bind fun _ =>
    .ite (get_grows.bind fun _ => skip_grows _) (pure_grows _)

theorem skipParameterWords_grows : Grows skipParameterWords := get_grows.bind fun _ => skip_grows _

theorem nextParameter_grows (acc : List Parameter) : Grows (nextParameter acc) :=
  (eatMark_grows ",").bind fun _ =>
    .ite (pure_grows _) ((expectMark_grows _ _).bind fun _ => pure_grows _)

theorem oneParameter_grows {type : Parse (Option TypeExpr)} (h : Grows type)
    (acc : List Parameter) : Grows (oneParameter type acc) := by
  refine (eatMark_grows ")").bind fun _ => .ite (pure_grows _) (atEnd_grows.bind fun _ => .ite ?_ ?_)
  · exact current_grows.bind fun t => (report_grows _ _).bind fun _ => pure_grows _
  · refine leading_grows.bind fun lead => skipParameterWords_grows.bind fun _ =>
      current_grows.bind fun t => h.bind fun found => ?_
    split
    · exact (skipExpression_grows _).bind fun _ => nextParameter_grows acc
    · exact expectName_grows.bind fun _ => (eatMark_grows "=").bind fun _ =>
        .before (skipExpression_grows _) (nextParameter_grows _)

theorem parameters_grows {type : Parse (Option TypeExpr)} (h : Grows type) :
    Grows (parameters type) := (skip_grows 1).bind fun _ => .loop (oneParameter_grows h) []

theorem parameters?_grows {type : Parse (Option TypeExpr)} (h : Grows type) :
    Grows (parameters? type) :=
  (atMark_grows "(").bind fun _ => .ite (parameters_grows h) (pure_grows _)

theorem skipStatement_grows : Grows skipStatement :=
  (skipExpression_grows _).bind fun _ => expectSemicolon_grows

theorem skipBody_grows : Grows skipBody :=
  (atMark_grows openBrace).bind fun _ => .ite skipBlock_grows
    ((eatMark_grows "=>").bind fun _ => .ite skipStatement_grows expectSemicolon_grows)

theorem skipAccessorBody_grows : Grows skipAccessorBody :=
  (eatMark_grows ";").bind fun _ => .ite (pure_grows _)
    ((atMark_grows openBrace).bind fun _ => .ite skipBlock_grows
      ((eatMark_grows "=>").bind fun _ => .ite skipStatement_grows (reportBehind_grows _)))

theorem nextAccessor_grows (acc : List String) : Grows (nextAccessor acc) := by
  refine (eatMark_grows _).bind fun _ => .ite (pure_grows _) (atEnd_grows.bind fun _ => .ite ?_ ?_)
  · exact current_grows.bind fun t => (report_grows _ _).bind fun _ => pure_grows _
  · refine leading_grows.bind fun lead => current_grows.bind fun t => ?_
    split
    · exact (report_grows _ _).bind fun _ => (skip_grows 1).bind fun _ => pure_grows _
    · exact (skip_grows 1).bind fun _ => skipAccessorBody_grows.bind fun _ => pure_grows _

theorem accessors_grows : Grows accessors :=
  (skip_grows 1).bind fun _ => .loop nextAccessor_grows []

theorem initialValue_grows : Grows initialValue :=
  (eatMark_grows "=").bind fun _ => .ite skipInitializer_grows (pure_grows _)

theorem nextDeclarator_grows (acc : List String) : Grows (nextDeclarator acc) := by
  refine initialValue_grows.bind fun _ => (eatMark_grows ",").bind fun _ => .ite ?_ (pure_grows _)
  refine expectName_grows.bind fun found => ?_
  split
  · exact pure_grows _
  · exact pure_grows _

theorem declarators_grows (first : String) : Grows (declarators first) :=
  (Grows.loop nextDeclarator_grows _).bind fun _ => expectSemicolon_grows.bind fun _ => pure_grows _

theorem enumValues_grows : Grows enumValues := by
  refine .loop (fun acc => (atMark_grows _).bind fun _ => atEnd_grows.bind fun _ =>
    .ite (pure_grows _) ?_) _
  refine leading_grows.bind fun lead => current_grows.bind fun t => expectName_grows.bind fun found => ?_
  split
  · exact (skip_grows 1).bind fun _ => pure_grows _
  · exact (eatMark_grows "=").bind fun _ => .before (skipExpression_grows _)
      ((eatMark_grows ",").bind fun _ => .ite (pure_grows _) (pure_grows _))

theorem constructor_grows {type : Parse (Option TypeExpr)} (h : Grows type) (lead : Leading) :
    Grows (constructor type lead) := by
  refine advance_grows.bind fun t => (parameters_grows h).bind fun ps => (eatMark_grows ":").bind
    fun _ => .ite ((skip_grows 1).bind fun _ => (eatMark_grows "(").bind fun _ => ?_) ?_
  · exact .before skipArguments_grows (skipBody_grows.bind fun _ => pure_grows _)
  · exact skipBody_grows.bind fun _ => pure_grows _

theorem memberName_grows (first : String) : Grows (memberName first) :=
  .loop (fun _ => get_grows.bind fun _ =>
    .ite ((skip_grows 2).bind fun _ => pure_grows _) (pure_grows _)) _

theorem methodParameters_grows {type : Parse (Option TypeExpr)} (h : Grows type) :
    Grows (methodParameters type) :=
  (atMark_grows "(").bind fun _ =>
    .ite (parameters_grows h) ((reportBehind_grows _).bind fun _ => pure_grows _)

theorem method_grows {type : Parse (Option TypeExpr)} (h : Grows type) (lead : Leading)
    (returns : TypeExpr) (name : String) : Grows (method type lead returns name) :=
  typeParameters?_grows.bind fun _ => (methodParameters_grows h).bind fun _ =>
    skipConstraints_grows.bind fun _ => skipBody_grows.bind fun _ => pure_grows _

theorem typedMember_grows {type : Parse (Option TypeExpr)} (h : Grows type) (lead : Leading)
    (t : TypeExpr) (name : String) : Grows (typedMember type lead t name) := by
  refine current_grows.bind fun _ => .ite (method_grows h lead t name) ?_
  refine (atMark_grows _).bind fun _ => .ite ?_ ((eatMark_grows "=>").bind fun _ => .ite ?_ ?_)
  · exact accessors_grows.bind fun words => (eatMark_grows "=").bind fun _ =>
      .before skipStatement_grows (pure_grows _)
  · exact skipStatement_grows.bind fun _ => pure_grows _
  · exact (declarators_grows name).bind fun _ => pure_grows _

theorem namedMember_grows {type : Parse (Option TypeExpr)} (h : Grows type) (lead : Leading)
    (t : TypeExpr) : Grows (namedMember type lead t) := by
  refine expectName_grows.bind fun found => ?_
  split
  · exact skipMember_grows.bind fun _ => pure_grows _
  · exact (memberName_grows _).bind fun name => (typedMember_grows h lead t name).map _

theorem memberOfType_grows {type : Parse (Option TypeExpr)} (h : Grows type) (lead : Leading)
    (t : TypeExpr) : Grows (memberOfType type lead t) := by
  refine get_grows.bind fun c => ?_
  split
  · exact (report_grows _ _).bind fun _ => (parameters_grows h).bind fun ps =>
      skipBody_grows.bind fun _ => pure_grows _
  · exact .ite (skipMember_grows.bind fun _ => pure_grows _) (namedMember_grows h lead t)

theorem memberFromType_grows {type : Parse (Option TypeExpr)} (h : Grows type) (lead : Leading) :
    Grows (memberFromType type lead) := by
  refine h.bind fun found => ?_
  split
  · exact pure_grows _
  · exact memberOfType_grows h lead _

theorem member_grows {type : Parse (Option TypeExpr)}
    {nested : Leading → Parse (TypeHead × List Member)} (htype : Grows type)
    (hnested : ∀ lead, Grows (nested lead)) (typeName : String) :
    Grows (member type nested typeName) := by
  refine leading_grows.bind fun lead => get_grows.bind fun c => .ite ?_ (.ite ?_ (.ite ?_ (.ite ?_ ?_)))
  · exact (hnested lead).bind fun _ => pure_grows _
  · exact skipMember_grows.bind fun _ => pure_grows _
  · exact (constructor_grows htype lead).map _
  · exact (report_grows _ _).bind fun _ => (skip_grows 1).bind fun _ => pure_grows _
  · exact memberFromType_grows htype lead

theorem nextMember_grows {item : Parse (Option Member)} (h : Grows item) (acc : List Member) :
    Grows (nextMember item acc) := by
  refine get_grows.bind fun c => .ite (pure_grows _) (.ite ?_ ?_)
  · exact (skip_grows 1).bind fun _ => pure_grows _
  · exact h.bind fun found => get_grows.bind fun d => .before (skip_grows 1) (pure_grows _)

theorem members_grows {item : Parse (Option Member)} (h : Grows item) : Grows (members item) :=
  .loop (nextMember_grows h) []

theorem typeKind_passes : Passes typeKind := by
  refine advance_passes.bind fun t => ?_
  split
  · exact pure_grows _
  · exact pure_grows _
  · exact pure_grows _
  · exact (eatWord_grows "class").bind fun _ =>
      .ite ((eatWord_grows "struct").bind fun _ => pure_grows _) (pure_grows _)
  · exact pure_grows _

theorem baseItem_grows {type : Parse (Option TypeExpr)} (h : Grows type) : Grows (baseItem type) :=
  h.bind fun _ => (eatMark_grows "(").bind fun _ => .before skipArguments_grows (pure_grows _)

theorem baseTypes?_grows {type : Parse (Option TypeExpr)} (h : Grows type) :
    Grows (baseTypes? type) :=
  (eatMark_grows ":").bind fun _ => .ite (commaList_grows (baseItem_grows h)) (pure_grows _)

theorem bracedMembers_grows (kind : TypeKind) {item : Parse (Option Member)} (h : Grows item) :
    Grows (bracedMembers kind item) := by
  have hclose (inside : List Member) : Grows (do
      let _ ← expectMark closeBrace .closeBraceExpected
      pure inside) :=
    (expectMark_grows _ _).bind fun _ => pure_grows _
  refine (expectMark_grows _ _).bind fun _ => .ite (.ite ?_ ?_) (pure_grows _)
  · exact enumValues_grows.bind hclose
  · exact (members_grows h).bind hclose

theorem typeBody_grows (kind : TypeKind) {item : Parse (Option Member)} (h : Grows item) :
    Grows (typeBody kind item) :=
  (eatMark_grows ";").bind fun _ => .ite (pure_grows _) ((bracedMembers_grows kind h).bind fun _ =>
    (eatMark_grows ";").bind fun _ => pure_grows _)

theorem typeDeclWith_passes {type : Parse (Option TypeExpr)}
    {nested : Leading → Parse (TypeHead × List Member)} (htype : Grows type)
    (hnested : ∀ lead, Grows (nested lead)) (lead : Leading) :
    Passes (typeDeclWith type nested lead) :=
  .behind current_grows fun _ => typeKind_passes.bind fun kind =>
    expectName_grows.bind fun _ => typeParameters?_grows.bind fun _ =>
    (parameters?_grows htype).bind fun _ => (baseTypes?_grows htype).bind fun _ =>
    skipConstraints_grows.bind fun _ =>
    (typeBody_grows kind (member_grows htype hnested _)).bind fun _ => pure_grows _

theorem typeDecl_grows (room : Nat) (lead : Leading) : Grows (typeDecl room lead) := by
  induction room generalizing lead with
  | zero =>
    exact current_grows.bind fun t => (report_grows _ _).bind fun _ => skipMember_grows.bind fun _ =>
      (eatMark_grows ";").bind fun _ => pure_grows _
  | succ room ih => exact (typeDeclWith_passes (typeExpr_grows room) ih lead).grows

theorem shortName?_grows : Grows shortName? :=
  get_grows.bind fun _ => .ite ((skip_grows 2).bind fun _ => pure_grows _) (pure_grows _)

theorem importDecl_passes {type : Parse (Option TypeExpr)} (h : Grows type) :
    Passes (importDecl type) := by
  refine .behind (eatWord_grows "global") fun isGlobal => advance_passes.bind fun t =>
    (eatWord_grows "static").bind fun isStatic => shortName?_grows.bind fun shortName =>
    dottedName_grows.bind fun target => (atMark_grows "<").bind fun _ => .ite ?_ ?_
  · exact (typeArguments_grows h).bind fun _ => expectSemicolon_grows.bind fun _ => pure_grows _
  · exact expectSemicolon_grows.bind fun _ => pure_grows _

theorem importDecl_grows {type : Parse (Option TypeExpr)} (h : Grows type) : Grows (importDecl type) :=
  (importDecl_passes h).grows

theorem imports_grows {type : Parse (Option TypeExpr)} (h : Grows type) : Grows (imports type) :=
  .loop (fun _ => get_grows.bind fun _ =>
    .ite ((importDecl_grows h).bind fun _ => pure_grows _) (pure_grows _)) []

theorem skipBlockOrToken_passes : Passes skipBlockOrToken := by
  refine .behind (atMark_grows _) fun _ => ?_
  split
  · exact skipBlock_passes
  · exact skip_passes 0

theorem recover_passes : Passes recover :=
  .behind current_grows fun _ => .behind (report_grows _ _) fun _ =>
    skipBlockOrToken_passes.bind fun _ => .loop (fun _ => get_grows.bind fun _ =>
      .ite (pure_grows _) (skipBlockOrToken_passes.grows.bind fun _ => pure_grows _)) _

structure Inner.Grow (inner : Inner) : Prop where
  type : Grows inner.type
  typeDecl : ∀ lead, Grows (inner.typeDecl lead)
  scope : Grows inner.scope

theorem declaration_grows {inner : Inner} (h : inner.Grow) (enclosed : Bool)
    (acc : List Declaration) : Grows (declaration inner enclosed acc) := by
  refine get_grows.bind fun c => .ite ?_ (.ite ?_ (.ite ?_ (.ite ?_ (.ite ?_ ?_))))
  · exact .before (report_grows _ _) (pure_grows _)
  · exact .ite (pure_grows _)
      ((report_grows _ _).bind fun _ => (skip_grows 1).bind fun _ => pure_grows _)
  · exact h.scope.bind fun _ => pure_grows _
  · exact (report_grows _ _).bind fun _ => (importDecl_grows h.type).bind fun _ => pure_grows _
  · exact skipMember_grows.bind fun _ => pure_grows _
  · refine leading_grows.bind fun lead => get_grows.bind fun d => .ite ?_ (.ite ?_ (.ite ?_ ?_))
    · exact skipMember_grows.bind fun _ => pure_grows _
    · exact (h.typeDecl lead).bind fun _ => pure_grows _
    · exact pure_grows _
    · exact recover_passes.grows.bind fun _ => pure_grows _

theorem declarations_grows {inner : Inner} (h : inner.Grow) (enclosed : Bool) :
    Grows (declarations inner enclosed) := .loop (declaration_grows h enclosed) []

theorem scopeBody_grows {inner : Inner} (h : inner.Grow) (name : DottedName) (line : Nat) :
    Grows (scopeBody inner name line) := by
  refine (eatMark_grows ";").bind fun _ => .ite ?_ ?_
  · exact (imports_grows h.type).bind fun _ => (declarations_grows h false).bind fun _ => pure_grows _
  · exact (expectMark_grows _ _).bind fun _ => (imports_grows h.type).bind fun _ =>
      (declarations_grows h true).bind fun _ => (expectMark_grows _ _).bind fun _ =>
      (eatMark_grows ";").bind fun _ => pure_grows _

theorem scope_passes (room : Nat) : Passes (scope room) := by
  induction room with
  | zero =>
    exact advance_passes.bind fun t => dottedName_grows.bind fun name => (report_grows _ _).bind
      fun _ => skipMember_grows.bind fun _ => (eatMark_grows ";").bind fun _ => pure_grows _
  | succ room ih =>
    exact advance_passes.bind fun t => dottedName_grows.bind fun name =>
      scopeBody_grows ⟨typeExpr_grows room, typeDecl_grows room, ih.grows⟩ name t.line

theorem scope_grows (room : Nat) : Grows (scope room) := (scope_passes room).grows

theorem sourceUnit_grows : Grows sourceUnit :=
  (imports_grows (typeExpr_grows _)).bind fun _ =>
    (declarations_grows ⟨typeExpr_grows _, typeDecl_grows _, scope_grows _⟩ false).bind
      fun _ => pure_grows _

end DataClasses.Parse
