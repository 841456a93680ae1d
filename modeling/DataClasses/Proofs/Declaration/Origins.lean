import DataClasses.Proofs.Declaration.Extent
import DataClasses.Proofs.Declaration.Nesting

/-!
# What is read comes from the text

Whatever reads tokens takes lines and names from them alone: all it reports stands on a line of the
text, and all it returns stands in the text. The line of the token passed last, on which some faults
are reported, is a line of the text as well.
-/

set_option autoImplicit false

namespace DataClasses.Parse

variable {α β σ : Type} {e : Extent}

structure Cursor.StandsIn (e : Extent) (c : Cursor) : Prop where
  tokens : ∀ t ∈ c.rest, t.StandsIn e
  endLine : e.hasLine c.endLine
  last : e.hasLine c.last
  reports : ∀ d ∈ c.reports, e.hasLine d.line

def Keeps (e : Extent) (x : Parse α) (Q : α → Prop) : Prop :=
  ∀ c, c.StandsIn e → Q (x c).1 ∧ (x c).2.StandsIn e

abbrev Safe (e : Extent) (x : Parse α) : Prop := Keeps e x fun _ => True

namespace Keeps

variable {P Q : α → Prop} {R : β → Prop}

theorem pure {a : α} (h : Q a) : Keeps e (pure a) Q := fun _ hc => ⟨h, hc⟩

theorem bind {x : Parse α} {f : α → Parse β} (hx : Keeps e x P) (hf : ∀ a, P a → Keeps e (f a) R) :
    Keeps e (x >>= f) R := fun c hc => hf _ (hx c hc).1 _ (hx c hc).2

theorem ite {b : Prop} [Decidable b] {x y : Parse α} (hx : Keeps e x Q) (hy : Keeps e y Q) :
    Keeps e (if b then x else y) Q := by
  split
  · exact hx
  · exact hy

theorem before {b : Prop} [Decidable b] {x : Parse Unit} {f : Unit → Parse β} (hx : Safe e x)
    (hf : Keeps e (f ()) R) : Keeps e (if b then x >>= f else f ()) R := .ite (hx.bind fun _ _ => hf) hf

theorem mono {x : Parse α} (hx : Keeps e x P) (h : ∀ a, P a → Q a) : Keeps e x Q :=
  fun c hc => ⟨h _ (hx c hc).1, (hx c hc).2⟩

theorem map {x : Parse α} {f : α → β} (hx : Keeps e x P) (h : ∀ a, P a → R (f a)) :
    Keeps e (f <$> x) R := hx.bind fun _ ha => pure (h _ ha)

theorem again {I : σ → Prop} {y : σ} (h : I y) : Keeps e (Pure.pure (Round.again y)) (Holds I Q) := pure h

theorem done {I : σ → Prop} {a : α} (h : Q a) :
    Keeps e (Pure.pure (Round.done a)) (Holds (σ := σ) I Q) := pure h

/-- What every round keeps, a repetition keeps. -/
theorem loop {close : σ → α} {round : σ → Parse (Round σ α)} {I : σ → Prop}
    (hround : ∀ y, I y → Keeps e (round y) (Holds I Q)) (hclose : ∀ y, I y → Q (close y)) {x : σ}
    (hx : I x) : Keeps e (Parse.loop close round x) Q := by
  intro c hc
  refine rounds_induction (P := fun y : σ × Cursor => I y.1 ∧ y.2.StandsIn e)
    (Q := fun r : α × Cursor => Q r.1 ∧ r.2.StandsIn e) ?_ ?_ (fun y hy => ⟨hclose y.1 hy.1, hy.2⟩)
    (x, c) ⟨hx, hc⟩
  · rintro ⟨y, d⟩ r ⟨hy, hd⟩ hdone
    obtain ⟨hholds, hstands⟩ := hround y hy d hd
    rcases hr : round y d with ⟨next, d'⟩
    rw [hr] at hholds hstands
    cases next with
    | again z => simp [hr] at hdone
    | done a =>
      simp only [hr, Round.done.injEq] at hdone
      exact hdone ▸ ⟨hholds, hstands⟩
  · rintro ⟨y, d⟩ t ⟨hy, hd⟩ hagain
    obtain ⟨hholds, hstands⟩ := hround y hy d hd
    rcases hr : round y d with ⟨next, d'⟩
    rw [hr] at hholds hstands
    cases next with
    | again z =>
      simp only [hr, Round.again.injEq] at hagain
      exact hagain ▸ ⟨hholds, hstands⟩
    | done a => simp [hr] at hagain

end Keeps

theorem pure_safe (a : α) : Safe e (pure a) := .pure trivial

/-- A repetition of which nothing is wanted but that the cursor stays in the text. -/
theorem loop_safe {close : σ → α} {round : σ → Parse (Round σ α)}
    (h : ∀ y, Safe e (round y)) (x : σ) :
    Safe e (loop close round x) := by
  refine .loop (I := fun _ => True) (fun y _ => (h y).mono fun next _ => ?_) (fun _ _ => trivial) trivial
  cases next <;> trivial

theorem Cursor.StandsIn.ahead {c : Cursor} (h : c.StandsIn e) (n : Nat) : (c.ahead n).StandsIn e := by
  rw [Cursor.ahead]
  cases ht : c.rest[n]? with
  | none => exact ⟨h.endLine, nofun⟩
  | some t => exact h.tokens t (List.mem_of_getElem? ht)

theorem get_keeps : Keeps e (get : Parse Cursor) (Cursor.StandsIn e) := fun _ hc => ⟨hc, hc⟩

theorem ahead_keeps (n : Nat) : Keeps e (ahead n) (Token.StandsIn e) :=
  get_keeps.bind fun _ hc => .pure (hc.ahead n)

theorem current_keeps : Keeps e current (Token.StandsIn e) := ahead_keeps 0

theorem skip_safe (n : Nat) : Safe e (skip n) := by
  refine fun c hc => ⟨trivial, fun t ht => hc.tokens t (List.mem_of_mem_drop ht), hc.endLine, ?_,
    hc.reports⟩
  change e.hasLine (((c.rest.take n).getLast?.map Token.line).getD c.last)
  cases hlast : (c.rest.take n).getLast? with
  | none => exact hc.last
  | some t => exact (hc.tokens t (List.mem_of_mem_take (List.mem_of_getLast? hlast))).line

theorem advance_keeps : Keeps e advance (Token.StandsIn e) :=
  current_keeps.bind fun _ ht => (skip_safe 1).bind fun _ _ => .pure ht

theorem report_safe (fault : Fault) {line : Nat} (h : e.hasLine line) : Safe e (report fault line) := by
  refine fun c hc => ⟨trivial, hc.tokens, hc.endLine, hc.last, ?_⟩
  exact List.forall_mem_cons.mpr ⟨h, hc.reports⟩

theorem reportBehind_safe (fault : Fault) : Safe e (reportBehind fault) :=
  get_keeps.bind fun _ hc => report_safe fault hc.last

theorem atMark_safe (mark : String) : Safe e (atMark mark) :=
  current_keeps.bind fun _ _ => pure_safe _

theorem atWord_safe (word : String) : Safe e (atWord word) :=
  current_keeps.bind fun _ _ => pure_safe _

theorem atEnd_safe : Safe e atEnd := current_keeps.bind fun _ _ => pure_safe _

theorem eatMark_safe (mark : String) : Safe e (eatMark mark) :=
  (atMark_safe mark).bind fun _ _ => .ite ((skip_safe 1).bind fun _ _ => pure_safe _) (pure_safe _)

theorem eatWord_safe (word : String) : Safe e (eatWord word) :=
  (atWord_safe word).bind fun _ _ => .ite ((skip_safe 1).bind fun _ _ => pure_safe _) (pure_safe _)

theorem expectMark_safe (mark : String) (fault : Fault) : Safe e (expectMark mark fault) :=
  (eatMark_safe mark).bind fun _ _ =>
    .ite (pure_safe _) ((reportBehind_safe fault).bind fun _ _ => pure_safe _)

theorem expectSemicolon_safe : Safe e expectSemicolon :=
  (expectMark_safe ";" .semicolonExpected).bind fun _ _ => pure_safe _

theorem expectName_keeps : Keeps e expectName fun found => ∀ name ∈ found, e.hasName name := by
  refine current_keeps.bind fun t ht => ?_
  split
  · next hname =>
    refine (skip_safe 1).bind fun _ _ => .pure ?_
    rintro _ ⟨⟩
    exact ht.of_name? hname
  · exact (report_safe _ ht.line).bind fun _ _ => .pure nofun

theorem commaList_keeps {item : Parse (Option α)} {P : α → Prop}
    (h : Keeps e item fun found => ∀ a ∈ found, P a) :
    Keeps e (commaList item) fun as => ∀ a ∈ as, P a := by
  refine .loop (I := fun as => ∀ a ∈ as, P a) (fun as has => ?_) (fun _ has => has) (by simp)
  refine h.bind fun found hfound => ?_
  have hall : ∀ a ∈ as ++ found.toList, P a :=
    List.forall_mem_append.mpr ⟨has, fun a ha => hfound a (Option.mem_toList.mp ha)⟩
  exact (eatMark_safe ",").bind fun _ _ => .ite (.pure hall) (.pure hall)

theorem skipBlock_safe : Safe e skipBlock := by
  refine (skip_safe 1).bind fun _ _ => get_keeps.bind fun c hc => ?_
  exact (skip_safe _).bind fun _ _ => .ite (report_safe _ hc.endLine) (pure_safe _)

theorem skipExpression_safe (stops : List String) : Safe e (skipExpression stops) :=
  get_keeps.bind fun _ _ => skip_safe _

/-- A bracket of another kind, before which a list ends, is one of the tokens. -/
theorem closedLength_stray {close : String} {depth : Nat} {ts : List Token} {line : Nat}
    (hts : ∀ t ∈ ts, t.StandsIn e) (h : (closedLength close depth ts).2 = .stray line) :
    e.hasLine line := by
  induction ts generalizing depth with
  | nil => cases h
  | cons t ts ih =>
    have hrest : ∀ u ∈ ts, u.StandsIn e := fun u hu => hts u (List.mem_cons_of_mem _ hu)
    unfold closedLength at h
    split at h
    · cases h
    · split at h
      · exact ih hrest h
      · split at h
        · cases depth with
          | zero =>
            cases h
            exact (hts t List.mem_cons_self).line
          | succ depth => exact ih hrest h
        · exact ih hrest h

theorem skipArguments_safe : Safe e skipArguments := by
  refine get_keeps.bind fun c hc => ?_
  rcases hlength : closedLength ")" 0 c.rest with ⟨n, ending⟩
  refine (skip_safe _).bind fun _ _ => ?_
  cases ending with
  | closed => exact pure_safe _
  | stray line => exact report_safe _ (closedLength_stray hc.tokens (congrArg Prod.snd hlength))
  | atEnd => exact report_safe _ hc.endLine

theorem skipType_safe : Safe e skipType := get_keeps.bind fun _ _ => skip_safe _

theorem skipInitializer_safe : Safe e skipInitializer :=
  loop_safe (fun _ => (skipExpression_safe _).bind fun _ _ => (atMark_safe _).bind fun _ _ =>
    get_keeps.bind fun _ _ => .ite (pure_safe _) ((skip_safe 1).bind fun _ _ => pure_safe _)) ()

theorem skipMember_safe : Safe e skipMember := by
  refine loop_safe (fun depth => current_keeps.bind fun t _ => ?_) 0
  refine .ite (pure_safe _) (.ite ?_ (.ite (pure_safe _) (.ite ?_ ?_)))
  · exact (skip_safe 1).bind fun _ _ => pure_safe _
  · exact skipBlock_safe.bind fun _ _ => (atMark_safe _).bind fun _ _ =>
      .ite (pure_safe _) (pure_safe _)
  · exact (skip_safe 1).bind fun _ _ => pure_safe _

def AllNamed (e : Extent) (names : List String) : Prop := ∀ name ∈ names, e.hasName name

theorem AllNamed.add {names : List String} (h : AllNamed e names) {found : Option String}
    (hfound : ∀ name ∈ found, e.hasName name) : AllNamed e (names ++ found.toList) :=
  List.forall_mem_append.mpr ⟨h, fun name hname => hfound name (Option.mem_toList.mp hname)⟩

theorem nextPart_keeps {acc : List String} (hacc : AllNamed e acc) :
    Keeps e (nextPart acc) (Holds (AllNamed e) (AllNamed e)) :=
  get_keeps.bind fun _ hc => .ite
    ((skip_safe 2).bind fun _ _ => .pure (hacc.add fun _ hname => (hc.ahead 1).of_name? hname))
    (.pure hacc)

theorem dottedName_keeps : Keeps e dottedName (DottedName.StandsIn e) := by
  refine current_keeps.bind fun t ht => get_keeps.bind fun c _ => ?_
  refine .before (skip_safe 2) (expectName_keeps.bind fun first hfirst => ?_)
  cases first with
  | none => exact .pure ⟨by simp, ht.line⟩
  | some name =>
    have hname : AllNamed e [name] := by simpa [AllNamed] using hfirst
    exact (Keeps.loop (I := AllNamed e) (fun _ => nextPart_keeps) (fun _ h => h) hname).bind
      fun parts hparts => .pure ⟨hparts, ht.line⟩

theorem typeArguments_keeps {inner : Parse (Option TypeExpr)}
    (h : Keeps e inner fun found => ∀ t ∈ found, t.StandsIn e) :
    Keeps e (typeArguments inner) (TypeExpr.AllStandIn e) :=
  (skip_safe 1).bind fun _ _ => (commaList_keeps h).bind fun _ hts =>
    (expectMark_safe _ _).bind fun _ _ => .pure (TypeExpr.allStandIn_iff.mpr hts)

theorem segments_keeps {inner : Parse (Option TypeExpr)}
    (h : Keeps e inner fun found => ∀ t ∈ found, t.StandsIn e) :
    Keeps e (segments inner) (TypeExpr.SegmentsStandIn e) := by
  let Stands (parts : List (String × List TypeExpr)) : Prop :=
    ∀ s ∈ parts, (s.1 ≠ "" → e.hasName s.1) ∧ TypeExpr.AllStandIn e s.2
  refine (Keeps.loop (I := Stands) (fun parts hparts => ?_) (fun _ hparts => hparts)
    (by simp [Stands])).mono fun _ => TypeExpr.segmentsStandIn_iff.mpr
  refine current_keeps.bind fun t ht => (skip_safe 1).bind fun _ _ =>
    Keeps.bind (P := TypeExpr.AllStandIn e) ?_ fun ts hts => get_keeps.bind fun c _ => ?_
  · exact (atMark_safe "<").bind fun _ _ => .ite (typeArguments_keeps h) (.pure trivial)
  · have hname : t.name?.getD "" ≠ "" → e.hasName (t.name?.getD "") := by
      cases hfound : t.name? with
      | none => exact fun hne => absurd rfl hne
      | some name => exact fun _ => ht.of_name? hfound
    have hall : Stands (parts ++ [(t.name?.getD "", ts)]) :=
      List.forall_mem_append.mpr ⟨hparts, by simpa using ⟨hname, hts⟩⟩
    exact .ite ((skip_safe 1).bind fun _ _ => .pure hall) (.pure hall)

/-- The postcondition of readers that may find nothing. -/
theorem of_some {P : α → Prop} {a : α} (h : P a) : ∀ b ∈ some a, P b := by
  rintro _ ⟨⟩
  exact h

theorem simpleType_keeps {inner : Parse (Option TypeExpr)}
    (h : Keeps e inner fun found => ∀ t ∈ found, t.StandsIn e) :
    Keeps e (simpleType inner) fun found => ∀ t ∈ found, t.StandsIn e := by
  refine get_keeps.bind fun c hc => .ite ?_ ?_
  · refine (skip_safe 1).bind fun _ _ => (commaList_keeps (h.bind fun element helement =>
      current_keeps.bind fun _ _ => .before (skip_safe 1) (.pure helement))).bind fun ts hts => ?_
    exact (expectMark_safe _ _).bind fun _ _ =>
      .pure (of_some ⟨(hc.ahead 0).line, TypeExpr.allStandIn_iff.mpr hts⟩)
  · split
    · next keyword hfound =>
      have hname : e.hasName keyword := (hc.ahead 0).of_isWord (List.find?_some hfound)
      exact (skip_safe 1).bind fun _ _ => .pure (of_some ⟨hname, (hc.ahead 0).line⟩)
    · refine .ite (.before (skip_safe 2) ?_)
        ((report_safe _ (hc.ahead 0).line).bind fun _ _ => .pure nofun)
      exact (segments_keeps h).bind fun _ hparts => .pure (of_some ⟨(hc.ahead 0).line, hparts⟩)

theorem suffix_keeps {line : Nat} (hline : e.hasLine line) {x : TypeExpr × Nat × Bool}
    (hx : x.1.StandsIn e) :
    Keeps e (suffix line x) (Holds (fun y => y.1.StandsIn e) (TypeExpr.StandsIn e)) := by
  obtain ⟨t, room, reported⟩ := x
  have hmarked {u : TypeExpr} (hu : u.StandsIn e) (tooDeep : Bool) :
      TypeExpr.StandsIn e (if tooDeep then t else u) := by
    split
    · exact hx
    · exact hu
  refine get_keeps.bind fun c _ =>
    .before (report_safe _ hline) (.ite ?_ (.ite ?_ (.ite ?_ (.done hx))))
  · exact (skip_safe 1).bind fun _ _ => .again (hmarked (u := .nullable t) hx _)
  · exact (skip_safe 1).bind fun _ _ => get_keeps.bind fun d _ => (skip_safe _).bind fun _ _ =>
      (expectMark_safe _ _).bind fun _ _ => .again (hmarked (u := .array t _) hx _)
  · exact (skip_safe 1).bind fun _ _ => .again hx

theorem suffixes_keeps {line : Nat} (hline : e.hasLine line) (room : Nat) {t : TypeExpr}
    (ht : t.StandsIn e) : Keeps e (suffixes line room t) (TypeExpr.StandsIn e) :=
  .loop (I := fun y : TypeExpr × Nat × Bool => y.1.StandsIn e) (fun _ => suffix_keeps hline)
    (fun _ hy => hy) ht

theorem typeExpr_keeps (room : Nat) :
    Keeps e (typeExpr room) fun found => ∀ t ∈ found, t.StandsIn e := by
  induction room with
  | zero =>
    exact current_keeps.bind fun t ht => (report_safe _ ht.line).bind fun _ _ =>
      skipType_safe.bind fun _ _ => .pure nofun
  | succ room ih =>
    refine current_keeps.bind fun t ht => (simpleType_keeps ih).bind fun found hfound => ?_
    cases found with
    | none => exact .pure nofun
    | some type => exact (suffixes_keeps ht.line room (hfound type rfl)).map fun _ => of_some

def AllAttributes (e : Extent) (as : List Attribute) : Prop := ∀ a ∈ as, a.StandsIn e

theorem allAttributes_nil : AllAttributes e [] := by simp [AllAttributes]

theorem oneAttribute_keeps : Keeps e oneAttribute (Attribute.StandsIn e) := by
  refine current_keeps.bind fun t ht => dottedName_keeps.bind fun name hname =>
    (eatMark_safe "(").bind fun _ _ => .ite ?_ (.pure ⟨hname, ht.line⟩)
  exact get_keeps.bind fun c _ => skipArguments_safe.bind fun _ _ => .pure ⟨hname, ht.line⟩

theorem attributeTarget?_safe : Safe e attributeTarget? :=
  get_keeps.bind fun _ _ => .ite ((skip_safe 2).bind fun _ _ => pure_safe _) (pure_safe _)

theorem attributeSection_keeps : Keeps e attributeSection fun x => AllAttributes e x.2 := by
  refine (skip_safe 1).bind fun _ _ => attributeTarget?_safe.bind fun _ _ =>
    (Keeps.loop (I := AllAttributes e) (fun acc hacc => oneAttribute_keeps.bind fun a ha => ?_)
      (fun _ h => h) allAttributes_nil).bind fun as has =>
        (expectMark_safe _ _).bind fun _ _ => .pure has
  have hall : AllAttributes e (acc ++ [a]) :=
    List.forall_mem_append.mpr ⟨hacc, by simpa using ha⟩
  refine (eatMark_safe ",").bind fun _ _ => .ite ?_ (.done hall)
  exact (atMark_safe "]").bind fun _ _ => .ite (.done hall) (.again hall)

theorem attributes_keeps : Keeps e attributes (AllAttributes e) := by
  refine .loop (I := AllAttributes e) (fun acc hacc => (atMark_safe "[").bind fun _ _ =>
    .ite (attributeSection_keeps.bind fun x hx => .again ?_) (.done hacc)) (fun _ h => h)
      allAttributes_nil
  change AllAttributes e (if _ then acc else acc ++ x.2)
  split
  · exact hacc
  · exact List.forall_mem_append.mpr ⟨hacc, hx⟩

theorem modifiers_safe : Safe e modifiers :=
  loop_safe (fun _ => get_keeps.bind fun _ _ =>
    .ite ((skip_safe 1).bind fun _ _ => pure_safe _) (pure_safe _)) []

theorem leading_keeps : Keeps e leading fun lead => AllAttributes e lead.attributes :=
  attributes_keeps.bind fun _ has => modifiers_safe.bind fun _ _ => .pure has

theorem skipAttributes_safe : Safe e skipAttributes :=
  loop_safe (fun _ => (atMark_safe "[").bind fun _ _ =>
    .ite (attributeSection_keeps.bind fun _ _ => pure_safe _) (pure_safe _)) ()

theorem typeParameters_safe : Safe e typeParameters := by
  refine (skip_safe 1).bind fun _ _ => (commaList_keeps (P := e.hasName) ?_).bind fun _ _ =>
    (expectMark_safe _ _).bind fun _ _ => pure_safe _
  exact skipAttributes_safe.bind fun _ _ => current_keeps.bind fun _ _ =>
    .before (skip_safe 1) expectName_keeps

theorem typeParameters?_safe : Safe e typeParameters? :=
  (atMark_safe "<").bind fun _ _ => .ite typeParameters_safe (pure_safe _)

theorem skipConstraints_safe : Safe e skipConstraints :=
  (atWord_safe "where").bind fun _ _ =>
    .ite (get_keeps.bind fun _ _ => skip_safe _) (pure_safe _)

theorem skipParameterWords_safe : Safe e skipParameterWords := get_keeps.bind fun _ _ => skip_safe _

def AllParameters (e : Extent) (ps : List Parameter) : Prop := ∀ p ∈ ps, p.StandsIn e

theorem allParameters_nil : AllParameters e [] := by simp [AllParameters]

theorem nextParameter_keeps {ps : List Parameter} (hps : AllParameters e ps) :
    Keeps e (nextParameter ps) (Holds (AllParameters e) (AllParameters e)) :=
  (eatMark_safe ",").bind fun _ _ =>
    .ite (.again hps) ((expectMark_safe _ _).bind fun _ _ => .done hps)

section

variable {type : Parse (Option TypeExpr)} (htype : Keeps e type fun found => ∀ t ∈ found, t.StandsIn e)

include htype

theorem parameters_keeps : Keeps e (parameters type) (AllParameters e) := by
  refine (skip_safe 1).bind fun _ _ => .loop (I := AllParameters e) (fun ps hps =>
    (eatMark_safe ")").bind fun _ _ => .ite (.done hps) (atEnd_safe.bind fun _ _ => .ite ?_ ?_))
      (fun _ h => h) allParameters_nil
  · exact current_keeps.bind fun t ht => (report_safe _ ht.line).bind fun _ _ => .done hps
  · refine leading_keeps.bind fun lead hlead => skipParameterWords_safe.bind fun _ _ =>
      current_keeps.bind fun t ht => htype.bind fun found hfound => ?_
    cases found with
    | none => exact (skipExpression_safe _).bind fun _ _ => nextParameter_keeps hps
    | some u =>
      refine expectName_keeps.bind fun name _ => (eatMark_safe "=").bind fun _ _ =>
        .before (skipExpression_safe _) (nextParameter_keeps ?_)
      exact List.forall_mem_append.mpr ⟨hps, by simpa using ⟨hlead, hfound u rfl, ht.line⟩⟩

theorem parameters?_keeps : Keeps e (parameters? type) (AllParameters e) :=
  (atMark_safe "(").bind fun _ _ => .ite (parameters_keeps htype) (.pure allParameters_nil)

end

theorem skipStatement_safe : Safe e skipStatement :=
  (skipExpression_safe _).bind fun _ _ => expectSemicolon_safe

theorem skipBody_safe : Safe e skipBody :=
  (atMark_safe openBrace).bind fun _ _ => .ite skipBlock_safe
    ((eatMark_safe "=>").bind fun _ _ => .ite skipStatement_safe expectSemicolon_safe)

theorem skipAccessorBody_safe : Safe e skipAccessorBody :=
  (eatMark_safe ";").bind fun _ _ => .ite (pure_safe _)
    ((atMark_safe openBrace).bind fun _ _ => .ite skipBlock_safe
      ((eatMark_safe "=>").bind fun _ _ => .ite skipStatement_safe (reportBehind_safe _)))

theorem nextAccessor_safe (acc : List String) : Safe e (nextAccessor acc) := by
  refine (eatMark_safe _).bind fun _ _ => .ite (pure_safe _) (atEnd_safe.bind fun _ _ => .ite ?_ ?_)
  · exact current_keeps.bind fun t ht => (report_safe _ ht.line).bind fun _ _ => pure_safe _
  · refine leading_keeps.bind fun lead _ => current_keeps.bind fun t ht => ?_
    split
    · exact (report_safe _ ht.line).bind fun _ _ => (skip_safe 1).bind fun _ _ => pure_safe _
    · exact (skip_safe 1).bind fun _ _ => skipAccessorBody_safe.bind fun _ _ => pure_safe _

theorem accessors_safe : Safe e accessors :=
  (skip_safe 1).bind fun _ _ => loop_safe nextAccessor_safe []

theorem initialValue_safe : Safe e initialValue :=
  (eatMark_safe "=").bind fun _ _ => .ite skipInitializer_safe (pure_safe _)

theorem nextDeclarator_keeps {acc : List String} (hacc : AllNamed e acc) :
    Keeps e (nextDeclarator acc) (Holds (AllNamed e) (AllNamed e)) := by
  refine initialValue_safe.bind fun _ _ => (eatMark_safe ",").bind fun _ _ => .ite ?_ (.done hacc)
  refine expectName_keeps.bind fun found hfound => ?_
  cases found with
  | none => exact .done hacc
  | some name => exact .again (hacc.add hfound)

theorem declarators_keeps {first : String} (h : e.hasName first) :
    Keeps e (declarators first) (AllNamed e) :=
  (Keeps.loop (fun _ hacc => nextDeclarator_keeps hacc) (fun _ h => h)
    (by simpa [AllNamed] using h)).bind fun _ hnames => expectSemicolon_safe.bind fun _ _ => .pure hnames

def AllMembers (e : Extent) (ms : List Member) : Prop := ∀ m ∈ ms, m.StandsIn e

theorem allMembers_nil : AllMembers e [] := by simp [AllMembers]

theorem AllMembers.add {ms : List Member} (h : AllMembers e ms) {found : Option Member}
    (hfound : ∀ m ∈ found, m.StandsIn e) : AllMembers e (ms ++ found.toList) :=
  List.forall_mem_append.mpr ⟨h, fun m hm => hfound m (Option.mem_toList.mp hm)⟩

theorem enumValues_keeps : Keeps e enumValues (AllMembers e) := by
  refine .loop (I := AllMembers e) (fun acc hacc => (atMark_safe _).bind fun _ _ =>
    atEnd_safe.bind fun _ _ => .ite (.done hacc) ?_) (fun _ h => h) allMembers_nil
  refine leading_keeps.bind fun lead hlead => current_keeps.bind fun t ht =>
    expectName_keeps.bind fun found hfound => ?_
  cases found with
  | none => exact (skip_safe 1).bind fun _ _ => .again hacc
  | some name =>
    have hvalue : Member.StandsIn e (.enumValue ⟨lead.attributes, name, t.line⟩) :=
      ⟨hlead, hfound name rfl, ht.line⟩
    have hall := hacc.add (of_some hvalue)
    exact (eatMark_safe "=").bind fun _ _ => .before (skipExpression_safe _)
      ((eatMark_safe ",").bind fun _ _ => .ite (.again hall) (.done hall))

theorem memberName_keeps {first : String} (h : e.hasName first) :
    Keeps e (memberName first) e.hasName := by
  refine .loop (I := e.hasName) (fun name hname => get_keeps.bind fun c hc => ?_) (fun _ h => h) h
  split
  · next hnext =>
    refine (skip_safe 2).bind fun _ _ => .pure ?_
    obtain ⟨part, hpart⟩ := Option.isSome_iff_exists.mp ((Bool.and_eq_true _ _).mp hnext).2
    change e.hasName ((c.ahead 1).name?.getD "")
    rw [hpart]
    exact (hc.ahead 1).of_name? hpart
  · exact .pure hname

theorem bareName?_stands {t : TypeExpr} (h : t.StandsIn e) {name : String}
    (hname : bareName? t = some name) : name ≠ "" → e.hasName name := by
  unfold bareName? at hname
  split at hname
  · cases hname
    exact h.2.1
  · cases hname

section

variable {type : Parse (Option TypeExpr)} (htype : Keeps e type fun found => ∀ t ∈ found, t.StandsIn e)
  {lead : Leading} (hlead : AllAttributes e lead.attributes)

include htype hlead

theorem constructor_keeps : Keeps e (constructor type lead) (Member.StandsIn e) := by
  refine advance_keeps.bind fun t ht => (parameters_keeps htype).bind fun ps hps => ?_
  have hbody {line : Nat} (hline : e.hasLine line) (name : String) : Keeps e (do
      skipBody
      pure (Member.constructor ⟨lead.attributes, lead.modifiers, none, name, [], ps, line⟩))
      (Member.StandsIn e) :=
    skipBody_safe.bind fun _ _ => .pure ⟨hlead, nofun, hps, hline⟩
  refine (eatMark_safe ":").bind fun _ _ => .ite ?_ (hbody ht.line _)
  exact (skip_safe 1).bind fun _ _ => (eatMark_safe "(").bind fun _ _ =>
    .before skipArguments_safe (hbody ht.line _)

omit hlead in
theorem methodParameters_keeps : Keeps e (methodParameters type) (AllParameters e) :=
  (atMark_safe "(").bind fun _ _ => .ite (parameters_keeps htype)
    ((reportBehind_safe _).bind fun _ _ => .pure allParameters_nil)

theorem method_keeps {returns : TypeExpr} (hreturns : returns.StandsIn e) {name : String}
    (hname : e.hasName name) : Keeps e (method type lead returns name) (Member.StandsIn e) :=
  typeParameters?_safe.bind fun _ _ => (methodParameters_keeps htype).bind fun _ hps =>
    skipConstraints_safe.bind fun _ _ => skipBody_safe.bind fun _ _ =>
      .pure ⟨fun _ => hname, hlead, of_some hreturns, hps, hreturns.hasLine⟩

theorem typedMember_keeps {t : TypeExpr} (ht : t.StandsIn e) {name : String} (hname : e.hasName name) :
    Keeps e (typedMember type lead t name) (Member.StandsIn e) := by
  have hproperty (words : List String) (isExpression : Bool) : Member.StandsIn e
      (.property ⟨lead.attributes, lead.modifiers, t, name, words, isExpression, t.line⟩) :=
    ⟨hlead, ht, hname, ht.hasLine⟩
  refine current_keeps.bind fun _ _ => .ite (method_keeps htype hlead ht hname) ?_
  refine (atMark_safe _).bind fun _ _ => .ite ?_ ((eatMark_safe "=>").bind fun _ _ => .ite ?_ ?_)
  · exact accessors_safe.bind fun words _ => (eatMark_safe "=").bind fun _ _ =>
      .before skipStatement_safe (.pure (hproperty _ _))
  · exact skipStatement_safe.bind fun _ _ => .pure (hproperty _ _)
  · exact (declarators_keeps hname).bind fun names hnames => .pure ⟨hlead, ht, hnames, ht.hasLine⟩

theorem namedMember_keeps {t : TypeExpr} (ht : t.StandsIn e) :
    Keeps e (namedMember type lead t) fun found => ∀ m ∈ found, m.StandsIn e := by
  refine expectName_keeps.bind fun found hfound => ?_
  cases found with
  | none => exact skipMember_safe.bind fun _ _ => .pure nofun
  | some first =>
    exact (memberName_keeps (hfound first rfl)).bind fun name hname =>
      (typedMember_keeps htype hlead ht hname).map fun _ => of_some

theorem memberOfType_keeps {t : TypeExpr} (ht : t.StandsIn e) :
    Keeps e (memberOfType type lead t) fun found => ∀ m ∈ found, m.StandsIn e := by
  refine get_keeps.bind fun c _ => ?_
  split
  · next name _ hname _ =>
    exact (report_safe _ ht.hasLine).bind fun _ _ => (parameters_keeps htype).bind fun ps hps =>
      skipBody_safe.bind fun _ _ =>
        .pure (of_some ⟨bareName?_stands ht hname, hlead, nofun, hps, ht.hasLine⟩)
  · exact .ite (skipMember_safe.bind fun _ _ => .pure nofun) (namedMember_keeps htype hlead ht)

theorem memberFromType_keeps :
    Keeps e (memberFromType type lead) fun found => ∀ m ∈ found, m.StandsIn e := by
  refine htype.bind fun found hfound => ?_
  cases found with
  | none => exact .pure nofun
  | some t => exact memberOfType_keeps htype hlead (hfound t rfl)

end

theorem members_keeps {item : Parse (Option Member)}
    (h : Keeps e item fun found => ∀ m ∈ found, m.StandsIn e) :
    Keeps e (members item) (AllMembers e) := by
  refine .loop (I := AllMembers e) (fun ms hms => get_keeps.bind fun c _ =>
    .ite (.done hms) (.ite ?_ ?_)) (fun _ h => h) allMembers_nil
  · exact (skip_safe 1).bind fun _ _ => .again hms
  · exact h.bind fun found hfound => get_keeps.bind fun _ _ =>
      .before (skip_safe 1) (.again (hms.add hfound))

theorem typeKind_safe : Safe e typeKind := by
  refine advance_keeps.bind fun t _ => ?_
  split
  · exact pure_safe _
  · exact pure_safe _
  · exact pure_safe _
  · exact (eatWord_safe "class").bind fun _ _ =>
      .ite ((eatWord_safe "struct").bind fun _ _ => pure_safe _) (pure_safe _)
  · exact pure_safe _

theorem bracedMembers_keeps (kind : TypeKind) {item : Parse (Option Member)}
    (h : Keeps e item fun found => ∀ m ∈ found, m.StandsIn e) :
    Keeps e (bracedMembers kind item) (AllMembers e) := by
  have hclose (ms : List Member) (hms : AllMembers e ms) : Keeps e (do
      let _ ← expectMark closeBrace .closeBraceExpected
      pure ms) (AllMembers e) :=
    (expectMark_safe _ _).bind fun _ _ => .pure hms
  refine (expectMark_safe _ _).bind fun _ _ => .ite (.ite ?_ ?_) (.pure allMembers_nil)
  · exact enumValues_keeps.bind hclose
  · exact (members_keeps h).bind hclose

theorem typeBody_keeps (kind : TypeKind) {item : Parse (Option Member)}
    (h : Keeps e item fun found => ∀ m ∈ found, m.StandsIn e) :
    Keeps e (typeBody kind item) (AllMembers e) :=
  (eatMark_safe ";").bind fun _ _ => .ite (.pure allMembers_nil)
    ((bracedMembers_keeps kind h).bind fun _ hms => (eatMark_safe ";").bind fun _ _ => .pure hms)

section

variable {type : Parse (Option TypeExpr)} (htype : Keeps e type fun found => ∀ t ∈ found, t.StandsIn e)
  {nested : Leading → Parse (TypeHead × List Member)} (hnested : ∀ lead,
    AllAttributes e lead.attributes → Keeps e (nested lead) fun x => (Member.nested x.1 x.2).StandsIn e)

include htype hnested

theorem member_keeps (typeName : String) :
    Keeps e (member type nested typeName) fun found => ∀ m ∈ found, m.StandsIn e := by
  refine leading_keeps.bind fun lead hlead => get_keeps.bind fun c hc =>
    .ite ?_ (.ite ?_ (.ite ?_ (.ite ?_ ?_)))
  · exact (hnested lead hlead).bind fun x hx => .pure (of_some hx)
  · exact skipMember_safe.bind fun _ _ => .pure nofun
  · exact (constructor_keeps htype hlead).map fun _ => of_some
  · exact (report_safe _ (hc.ahead 0).line).bind fun _ _ => (skip_safe 1).bind fun _ _ => .pure nofun
  · exact memberFromType_keeps htype hlead

omit hnested in
theorem baseItem_keeps : Keeps e (baseItem type) fun found => ∀ t ∈ found, t.StandsIn e :=
  htype.bind fun _ ht => (eatMark_safe "(").bind fun _ _ => .before skipArguments_safe (.pure ht)

omit hnested in
theorem baseTypes?_keeps : Keeps e (baseTypes? type) fun ts => ∀ t ∈ ts, t.StandsIn e :=
  (eatMark_safe ":").bind fun _ _ => .ite (commaList_keeps (baseItem_keeps htype)) (.pure (by simp))

theorem typeDeclWith_keeps {lead : Leading} (hlead : AllAttributes e lead.attributes) :
    Keeps e (typeDeclWith type nested lead) fun x => (Member.nested x.1 x.2).StandsIn e := by
  refine current_keeps.bind fun t ht => typeKind_safe.bind fun kind _ =>
    expectName_keeps.bind fun found hfound => typeParameters?_safe.bind fun tps _ =>
    (parameters?_keeps htype).bind fun ps hps => (baseTypes?_keeps htype).bind fun bases hbases =>
    skipConstraints_safe.bind fun _ _ => (typeBody_keeps kind (member_keeps htype hnested _)).bind
      fun inside hinside => .pure
        ⟨⟨?_, hlead, hbases, hps, ht.line⟩, Member.allStandIn_iff.mpr hinside⟩
  cases found with
  | none => exact fun hne => absurd rfl hne
  | some name => exact fun _ => hfound name rfl

end

theorem typeDecl_keeps (room : Nat) {lead : Leading} (hlead : AllAttributes e lead.attributes) :
    Keeps e (typeDecl room lead) fun x => (Member.nested x.1 x.2).StandsIn e := by
  induction room generalizing lead with
  | zero =>
    exact current_keeps.bind fun t ht => (report_safe _ ht.line).bind fun _ _ =>
      skipMember_safe.bind fun _ _ => (eatMark_safe ";").bind fun _ _ =>
        .pure ⟨⟨fun hne => absurd rfl hne, hlead, by simp, allParameters_nil, ht.line⟩, trivial⟩
  | succ room ih => exact typeDeclWith_keeps (typeExpr_keeps room) (fun _ => ih) hlead

def AllImports (e : Extent) (is : List Import) : Prop := ∀ i ∈ is, i.StandsIn e

def AllDeclarations (e : Extent) (ds : List Declaration) : Prop := ∀ d ∈ ds, d.StandsIn e

theorem AllDeclarations.add {ds : List Declaration} (h : AllDeclarations e ds) {d : Declaration}
    (hd : d.StandsIn e) : AllDeclarations e (ds ++ [d]) :=
  List.forall_mem_append.mpr ⟨h, List.forall_mem_singleton.mpr hd⟩

section

variable {type : Parse (Option TypeExpr)} (htype : Keeps e type fun found => ∀ t ∈ found, t.StandsIn e)

include htype

omit htype in
theorem shortName?_safe : Safe e shortName? :=
  get_keeps.bind fun _ _ => .ite ((skip_safe 2).bind fun _ _ => pure_safe _) (pure_safe _)

theorem importDecl_keeps : Keeps e (importDecl type) (Import.StandsIn e) := by
  refine (eatWord_safe "global").bind fun isGlobal _ => advance_keeps.bind fun t ht =>
    (eatWord_safe "static").bind fun isStatic _ => shortName?_safe.bind fun _ _ =>
    dottedName_keeps.bind fun target htarget =>
    (atMark_safe "<").bind fun _ _ => .ite ((typeArguments_keeps htype).bind fun _ _ => ?_) ?_
  · exact expectSemicolon_safe.bind fun _ _ => .pure ⟨htarget, ht.line⟩
  · exact expectSemicolon_safe.bind fun _ _ => .pure ⟨htarget, ht.line⟩

theorem imports_keeps : Keeps e (imports type) (AllImports e) := by
  refine .loop (I := AllImports e) (fun is his => get_keeps.bind fun _ _ => .ite ?_ (.done his))
    (fun _ h => h) (by simp [AllImports])
  exact (importDecl_keeps htype).bind fun i hi =>
    .again (List.forall_mem_append.mpr ⟨his, List.forall_mem_singleton.mpr hi⟩)

end

theorem skipBlockOrToken_safe : Safe e skipBlockOrToken :=
  (atMark_safe _).bind fun _ _ => .ite skipBlock_safe (skip_safe 1)

theorem recover_safe : Safe e recover :=
  current_keeps.bind fun _ ht => (report_safe _ ht.line).bind fun _ _ =>
    skipBlockOrToken_safe.bind fun _ _ => loop_safe (fun _ => get_keeps.bind fun _ _ =>
      .ite (pure_safe _) (skipBlockOrToken_safe.bind fun _ _ => pure_safe _)) ()

structure Inner.Keep (e : Extent) (inner : Inner) : Prop where
  type : Keeps e inner.type fun found => ∀ t ∈ found, t.StandsIn e
  typeDecl : ∀ lead, AllAttributes e lead.attributes →
    Keeps e (inner.typeDecl lead) fun x => (Member.nested x.1 x.2).StandsIn e
  scope : Keeps e inner.scope (Declaration.StandsIn e)

theorem declarations_keeps {inner : Inner} (h : inner.Keep e) (enclosed : Bool) :
    Keeps e (declarations inner enclosed) (AllDeclarations e) := by
  refine .loop (I := AllDeclarations e) (fun ds hds => ?_) (fun _ h => h) (by simp [AllDeclarations])
  refine get_keeps.bind fun c hc => .ite ?_ (.ite ?_ (.ite ?_ (.ite ?_ (.ite ?_ ?_))))
  · exact .before (report_safe _ (hc.ahead 0).line) (.done hds)
  · exact .ite (.done hds) ((report_safe _ (hc.ahead 0).line).bind fun _ _ =>
      (skip_safe 1).bind fun _ _ => .again hds)
  · exact h.scope.bind fun d hd => .again (hds.add hd)
  · exact (report_safe _ (hc.ahead 0).line).bind fun _ _ => (importDecl_keeps h.type).bind fun _ _ =>
      .again hds
  · exact skipMember_safe.bind fun _ _ => .again hds
  · refine leading_keeps.bind fun lead hlead => get_keeps.bind fun d _ =>
      .ite ?_ (.ite ?_ (.ite ?_ ?_))
    · exact skipMember_safe.bind fun _ _ => .again hds
    · exact (h.typeDecl lead hlead).bind fun x hx => .again (hds.add (d := .type x.1 x.2) hx)
    · exact .again hds
    · exact recover_safe.bind fun _ _ => .again hds

theorem scopeBody_keeps {inner : Inner} (h : inner.Keep e) {name : DottedName} (hname : name.StandsIn e)
    {line : Nat} (hline : e.hasLine line) : Keeps e (scopeBody inner name line) (Declaration.StandsIn e) := by
  refine (eatMark_safe ";").bind fun _ _ => .ite ?_ ?_
  · exact (imports_keeps h.type).bind fun is his => (declarations_keeps h false).bind fun ds hds =>
      .pure ⟨⟨hname, his, hline⟩, Declaration.allStandIn_iff.mpr hds⟩
  · exact (expectMark_safe _ _).bind fun _ _ => (imports_keeps h.type).bind fun is his =>
      (declarations_keeps h true).bind fun ds hds => (expectMark_safe _ _).bind fun _ _ =>
      (eatMark_safe ";").bind fun _ _ =>
        .pure ⟨⟨hname, his, hline⟩, Declaration.allStandIn_iff.mpr hds⟩

theorem scope_keeps (room : Nat) : Keeps e (scope room) (Declaration.StandsIn e) := by
  induction room with
  | zero =>
    exact advance_keeps.bind fun t ht => dottedName_keeps.bind fun name hname =>
      (report_safe _ ht.line).bind fun _ _ => skipMember_safe.bind fun _ _ =>
      (eatMark_safe ";").bind fun _ _ => .pure ⟨⟨hname, by simp, ht.line⟩, trivial⟩
  | succ room ih =>
    exact advance_keeps.bind fun t ht => dottedName_keeps.bind fun name hname =>
      scopeBody_keeps ⟨typeExpr_keeps room, fun _ => typeDecl_keeps room, ih⟩ hname ht.line

theorem sourceUnit_keeps : Keeps e sourceUnit (SourceUnit.StandsIn e) :=
  (imports_keeps (typeExpr_keeps _)).bind fun _ his =>
    (declarations_keeps ⟨typeExpr_keeps _, fun _ => typeDecl_keeps _, scope_keeps _⟩ false).bind
      fun _ hds => .pure ⟨his, hds⟩

end DataClasses.Parse
