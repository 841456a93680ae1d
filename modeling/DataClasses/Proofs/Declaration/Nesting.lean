import DataClasses.Declaration.Unit
import DataClasses.Proofs.Declaration.Depth
import DataClasses.Proofs.Declaration.Sources

/-!
# How deep a source can be read

Every namespace, type declaration and type takes from the room for what stands in it. Marks behind a
type take from that room too, but each type has all of it for its own marks: so the limit holds for
paths on which only the marks of the last type are counted, and not for all paths.
-/

set_option autoImplicit false

namespace DataClasses

namespace Parse

variable {α β σ : Type}

def Yields (x : Parse α) (Q : α → Prop) : Prop := ∀ c, Q (x c).1

namespace Yields

variable {P Q : α → Prop} {R : β → Prop}

theorem pure {a : α} (h : Q a) : Yields (pure a) Q := fun _ => h

theorem bind {x : Parse α} {f : α → Parse β} (hx : Yields x P) (hf : ∀ a, P a → Yields (f a) R) :
    Yields (x >>= f) R := fun c => hf _ (hx c) _

/-- Where nothing need be known of what comes first. -/
theorem behind (x : Parse α) {f : α → Parse β} (hf : ∀ a, Yields (f a) R) : Yields (x >>= f) R :=
  fun _ => hf _ _

theorem map {x : Parse α} {f : α → β} (hx : Yields x P) (h : ∀ a, P a → R (f a)) :
    Yields (f <$> x) R := fun c => h _ (hx c)

theorem ite {b : Prop} [Decidable b] {x y : Parse α} (hx : Yields x Q) (hy : Yields y Q) :
    Yields (if b then x else y) Q := by
  split
  · exact hx
  · exact hy

theorem before {b : Prop} [Decidable b] {x : Parse Unit} {f : Unit → Parse β} (hf : Yields (f ()) R) :
    Yields (if b then x >>= f else f ()) R := .ite (.behind _ fun _ => hf) hf

theorem mono {x : Parse α} (hx : Yields x P) (h : ∀ a, P a → Q a) : Yields x Q := fun c => h _ (hx c)

end Yields

def Holds (I : σ → Prop) (Q : α → Prop) : Round σ α → Prop
  | .again y => I y
  | .done a => Q a

/-- What every round keeps, a repetition keeps. -/
theorem Yields.loop {close : σ → α} {round : σ → Parse (Round σ α)} {I : σ → Prop}
    {Q : α → Prop}
    (hround : ∀ y, I y → Yields (round y) (Holds I Q)) (hclose : ∀ y, I y → Q (close y)) {x : σ}
    (hx : I x) : Yields (loop close round x) Q := by
  intro c
  refine rounds_induction (P := fun y : σ × Cursor => I y.1) (Q := fun r : α × Cursor => Q r.1)
    ?_ ?_ (fun y => hclose y.1) (x, c) hx
  · rintro ⟨y, d⟩ r hy hdone
    have hholds := hround y hy d
    rcases hr : round y d with ⟨next, e⟩
    rw [hr] at hholds
    cases next with
    | again z => simp [hr] at hdone
    | done a =>
      simp only [hr, Round.done.injEq] at hdone
      exact hdone ▸ hholds
  · rintro ⟨y, d⟩ t hy hagain
    have hholds := hround y hy d
    rcases hr : round y d with ⟨next, e⟩
    rw [hr] at hholds
    cases next with
    | again z =>
      simp only [hr, Round.again.injEq] at hagain
      exact hagain ▸ hholds
    | done a => simp [hr] at hagain

theorem commaList_yields {item : Parse (Option α)} {P : α → Prop}
    (h : Yields item fun found => ∀ a ∈ found, P a) :
    Yields (commaList item) fun as => ∀ a ∈ as, P a := by
  refine .loop (I := fun as => ∀ a ∈ as, P a) (fun as has => ?_) (fun _ has => has) (by simp)
  refine h.bind fun found hfound => ?_
  have hall : ∀ a ∈ as ++ found.toList, P a := by
    intro a ha
    rcases List.mem_append.mp ha with ha | ha
    · exact has a ha
    · exact hfound a (Option.mem_toList.mp ha)
  exact .behind _ fun _ => .ite (.pure hall) (.pure hall)

/-- Limits on the lengths of paths by the room that is left: for a type, for a type at which there is
room for its marks when so many of them have been read, and for a declaration. -/
structure Limits (mark : Nat → Nat → Nat) where
  type : Nat → Nat
  marked : Nat → Nat → Nat
  declaration : Nat → Nat
  plain_le : ∀ room, type room + 1 ≤ marked room 0
  mark_le : ∀ room n k, n ≤ marked room k → mark n k ≤ marked room (k + 1)
  marked_le : ∀ room k, k ≤ room → marked room k ≤ type (room + 1)
  type_le : ∀ room, type room + 1 ≤ declaration (room + 1)
  declaration_le : ∀ room, declaration room + 1 ≤ declaration (room + 1)

section

variable {mark : Nat → Nat → Nat} {n : Nat}

def Within (mark : Nat → Nat → Nat) (n : Nat) (found : Option TypeExpr) : Prop :=
  ∀ t ∈ found, t.longest mark ≤ n

theorem typeArguments_yields {inner : Parse (Option TypeExpr)} (h : Yields inner (Within mark n)) :
    Yields (typeArguments inner) fun ts => TypeExpr.longestOf mark ts ≤ n := by
  refine .behind _ fun _ => (commaList_yields h).bind fun ts hts => .behind _ fun _ => .pure ?_
  exact TypeExpr.longestOf_le_iff.mpr hts

theorem segments_yields {inner : Parse (Option TypeExpr)} (h : Yields inner (Within mark n)) :
    Yields (segments inner) fun parts => TypeExpr.longestSegment mark parts ≤ n := by
  simp only [TypeExpr.longestSegment_le_iff]
  refine .loop (I := fun parts => ∀ s ∈ parts, TypeExpr.longestOf mark s.2 ≤ n)
    (fun parts hparts => ?_) (fun _ hparts => hparts) (by simp)
  refine .behind _ fun t => .behind _ fun _ => Yields.bind
    (P := fun ts => TypeExpr.longestOf mark ts ≤ n) ?_ fun ts hts => ?_
  · exact .behind _ fun _ => .ite (typeArguments_yields h) (.pure (Nat.zero_le n))
  · have hall : ∀ s ∈ parts ++ [(t.name?.getD "", ts)], TypeExpr.longestOf mark s.2 ≤ n := by
      intro s hs
      rcases List.mem_append.mp hs with hs | hs
      · exact hparts s hs
      · exact List.mem_singleton.mp hs ▸ hts
    exact .behind _ fun c => .ite (.behind _ fun _ => .pure hall) (.pure hall)

theorem simpleType_yields {inner : Parse (Option TypeExpr)} (h : Yields inner (Within mark n)) :
    Yields (simpleType inner) fun found => ∀ t ∈ found, t.marks = 0 ∧ t.longest mark ≤ n + 1 := by
  have hsome {t : TypeExpr} (hmarks : t.marks = 0) (ht : t.longest mark ≤ n + 1) :
      ∀ u ∈ some t, u.marks = 0 ∧ u.longest mark ≤ n + 1 := by
    rintro _ ⟨⟩
    exact ⟨hmarks, ht⟩
  refine .behind _ fun c => .ite ?_ ?_
  · refine .behind _ fun _ => (commaList_yields (P := fun t => t.longest mark ≤ n) (h.bind fun t ht =>
      .behind _ fun _ => .before (.pure ht))).bind fun ts hts => ?_
    exact .behind _ fun _ => .pure (hsome rfl (Nat.succ_le_succ (TypeExpr.longestOf_le_iff.mpr hts)))
  · split
    · exact .behind _ fun _ => .pure (hsome rfl (Nat.succ_le_succ (Nat.zero_le n)))
    · refine .ite (.before ((segments_yields h).bind fun parts hparts => .pure ?_))
        (.behind _ fun _ => .pure (by simp))
      exact hsome rfl (Nat.succ_le_succ hparts)

theorem suffixes_yields (limits : Limits mark) (line room : Nat) {t : TypeExpr} (hmarks : t.marks = 0)
    (ht : t.longest mark ≤ limits.type room + 1) :
    Yields (suffixes line room t) fun t => t.longest mark ≤ limits.type (room + 1) := by
  have hclose (x : TypeExpr × Nat × Bool)
      (hx : x.1.marks + x.2.1 ≤ room ∧ x.1.longest mark ≤ limits.marked room x.1.marks) :
      x.1.longest mark ≤ limits.type (room + 1) :=
    hx.2.trans (limits.marked_le room _ (by omega))
  refine .loop (I := fun x : TypeExpr × Nat × Bool =>
    x.1.marks + x.2.1 ≤ room ∧ x.1.longest mark ≤ limits.marked room x.1.marks) ?_ hclose ?_
  · rintro ⟨t, left, reported⟩ ⟨hleft, hlongest⟩
    dsimp only at hleft hlongest
    -- A mark is kept only where there is room for it, so it may be added to those that were kept.
    have hkept {u : TypeExpr} (hmarks : u.marks = t.marks + 1)
        (hlonger : u.longest mark = mark (t.longest mark) t.marks) (deep : Bool)
        (hdeep : (left == 0) = deep) (again : Bool) :
        Holds (α := TypeExpr) (fun x : TypeExpr × Nat × Bool =>
          x.1.marks + x.2.1 ≤ room ∧ x.1.longest mark ≤ limits.marked room x.1.marks)
          (fun t => t.longest mark ≤ limits.type (room + 1))
          (.again (if deep then t else u, left - 1, again)) := by
      cases deep with
      | true => exact ⟨by simp; omega, hlongest⟩
      | false =>
        have hpos : left ≠ 0 := by simpa using hdeep
        refine ⟨by simp [hmarks]; omega, ?_⟩
        simpa [hmarks, hlonger] using limits.mark_le room _ _ hlongest
    refine .behind _ fun c => .before ?_
    split
    · next h =>
      refine .behind _ fun _ => .pure ?_
      simp only [h, Bool.true_or, Bool.true_and]
      exact hkept rfl rfl _ rfl _
    · split
      · next h =>
        refine .behind _ fun _ => .behind _ fun d => .behind _ fun _ => .behind _ fun _ => .pure ?_
        simp only [h, Bool.or_true, Bool.true_and]
        exact hkept rfl rfl _ rfl _
      · split
        · exact .behind _ fun _ => .pure ⟨hleft, hlongest⟩
        · exact .pure (hclose (t, left, reported) ⟨hleft, hlongest⟩)
  · rw [hmarks]
    exact ⟨(Nat.zero_add room).le, ht.trans (limits.plain_le room)⟩

theorem typeExpr_yields (limits : Limits mark) (room : Nat) :
    Yields (typeExpr room) (Within mark (limits.type room)) := by
  induction room with
  | zero => exact .behind _ fun _ => .behind _ fun _ => .behind _ fun _ => .pure (by simp [Within])
  | succ room ih =>
    refine .behind _ fun t => (simpleType_yields ih).bind fun found hfound => ?_
    cases found with
    | none => exact .pure (by simp [Within])
    | some t =>
      obtain ⟨hmarks, ht⟩ := hfound t rfl
      refine (suffixes_yields limits _ room hmarks ht).map fun u hu => ?_
      rintro _ ⟨⟩
      exact hu

def AllWithin (mark : Nat → Nat → Nat) (n : Nat) (ps : List Parameter) : Prop :=
  ∀ p ∈ ps, p.type.longest mark ≤ n

theorem nextParameter_yields {ps : List Parameter} (hps : AllWithin mark n ps) :
    Yields (nextParameter ps) (Holds (AllWithin mark n) (AllWithin mark n)) :=
  .behind _ fun _ => .ite (.pure hps) (.behind _ fun _ => .pure hps)

theorem parameters_yields {type : Parse (Option TypeExpr)} (h : Yields type (Within mark n)) :
    Yields (parameters type) (AllWithin mark n) := by
  refine .behind _ fun _ => .loop (I := AllWithin mark n) (fun ps hps => ?_) (fun _ hps => hps)
    (by simp [AllWithin])
  refine .behind _ fun _ => .ite (.pure hps) (.behind _ fun _ => .ite ?_ ?_)
  · exact .behind _ fun _ => .behind _ fun _ => .pure hps
  · refine .behind _ fun lead => .behind _ fun _ => .behind _ fun t => h.bind fun found hfound => ?_
    cases found with
    | none => exact .behind _ fun _ => nextParameter_yields hps
    | some t =>
      refine .behind _ fun name => .behind _ fun _ => .before (nextParameter_yields ?_)
      intro p hp
      rcases List.mem_append.mp hp with hp | hp
      · exact hps p hp
      · exact List.mem_singleton.mp hp ▸ hfound t rfl

theorem parameters?_yields {type : Parse (Option TypeExpr)} (h : Yields type (Within mark n)) :
    Yields (parameters? type) (AllWithin mark n) :=
  .behind _ fun _ => .ite (parameters_yields h) (.pure (by simp [AllWithin]))

def Shallow (mark : Nat → Nat → Nat) (n : Nat) (m : Member) : Prop :=
  m.depthBy (TypeExpr.longest mark) ≤ n

theorem deepest_types {returns : Option TypeExpr} {ps : List Parameter}
    (hreturns : Within mark n returns) (hps : AllWithin mark n ps) :
    deepest (TypeExpr.longest mark) (returns.toList ++ ps.map (·.type)) ≤ n := by
  rw [deepest_le_iff]
  intro t ht
  rcases List.mem_append.mp ht with ht | ht
  · exact hreturns t (Option.mem_toList.mp ht)
  · obtain ⟨p, hp, rfl⟩ := List.mem_map.mp ht
    exact hps p hp

theorem constructor_yields {type : Parse (Option TypeExpr)} (h : Yields type (Within mark n))
    (lead : Leading) : Yields (constructor type lead) (Shallow mark n) := by
  refine .behind _ fun t => (parameters_yields h).bind fun ps hps => .behind _ fun _ => .ite ?_ ?_
  · exact .behind _ fun _ => .behind _ fun _ => .before (.behind _ fun _ =>
      .pure (deepest_types (by simp [Within]) hps))
  · exact .behind _ fun _ => .pure (deepest_types (by simp [Within]) hps)

theorem method_yields {type : Parse (Option TypeExpr)} (h : Yields type (Within mark n))
    (lead : Leading) {t : TypeExpr} (ht : t.longest mark ≤ n) (name : String) :
    Yields (method type lead t name) (Shallow mark n) := by
  refine .behind _ fun tps => Yields.bind (P := AllWithin mark n) ?_ fun ps hps => ?_
  · exact .behind _ fun _ => .ite (parameters_yields h)
      (.behind _ fun _ => .pure (by simp [AllWithin]))
  · exact .behind _ fun _ => .behind _ fun _ =>
      .pure (deepest_types (by simpa [Within] using ht : Within mark n (some t)) hps)

theorem typedMember_yields {type : Parse (Option TypeExpr)} (h : Yields type (Within mark n))
    (lead : Leading) {t : TypeExpr} (ht : t.longest mark ≤ n) (name : String) :
    Yields (typedMember type lead t name) (Shallow mark n) := by
  refine .behind _ fun _ => .ite (method_yields h lead ht name) (.behind _ fun _ => .ite ?_ ?_)
  · exact .behind _ fun words => .behind _ fun _ => .before (.pure ht)
  · exact .behind _ fun _ => .ite (.behind _ fun _ => .pure ht) (.behind _ fun names => .pure ht)

def SomeShallow (mark : Nat → Nat → Nat) (n : Nat) (found : Option Member) : Prop :=
  ∀ m ∈ found, Shallow mark n m

theorem someShallow_none : SomeShallow mark n none := by simp [SomeShallow]

theorem SomeShallow.some {m : Member} (h : Shallow mark n m) : SomeShallow mark n (some m) := by
  rintro _ ⟨⟩
  exact h

theorem memberOfType_yields {type : Parse (Option TypeExpr)} (h : Yields type (Within mark n))
    (lead : Leading) {t : TypeExpr} (ht : t.longest mark ≤ n) :
    Yields (memberOfType type lead t) (SomeShallow mark n) := by
  refine .behind _ fun c => ?_
  split
  · exact .behind _ fun _ => (parameters_yields h).bind fun ps hps => .behind _ fun _ =>
      .pure (.some (deepest_types (by simp [Within]) hps))
  · refine .ite (.behind _ fun _ => .pure someShallow_none) (.behind _ fun found => ?_)
    split
    · exact .behind _ fun _ => .pure someShallow_none
    · exact .behind _ fun name => (typedMember_yields h lead ht name).map fun _ => .some

theorem member_yields {type : Parse (Option TypeExpr)}
    {nested : Leading → Parse (TypeHead × List Member)} (htype : Yields type (Within mark n))
    (hnested : ∀ lead, Yields (nested lead) fun x => Shallow mark n (.nested x.1 x.2))
    (typeName : String) : Yields (member type nested typeName) (SomeShallow mark n) := by
  refine .behind _ fun lead => .behind _ fun c => .ite ?_ (.ite ?_ (.ite ?_ (.ite ?_ ?_)))
  · exact (hnested lead).bind fun x hx => .pure (.some hx)
  · exact .behind _ fun _ => .pure someShallow_none
  · exact (constructor_yields htype lead).map fun _ => .some
  · exact .behind _ fun _ => .behind _ fun _ => .pure someShallow_none
  · refine htype.bind fun found hfound => ?_
    cases found with
    | none => exact .pure someShallow_none
    | some t => exact memberOfType_yields htype lead (hfound t rfl)

def AllShallow (mark : Nat → Nat → Nat) (n : Nat) (ms : List Member) : Prop :=
  ∀ m ∈ ms, Shallow mark n m

theorem AllShallow.add {ms : List Member} (hms : AllShallow mark n ms) {found : Option Member}
    (hfound : SomeShallow mark n found) : AllShallow mark n (ms ++ found.toList) := by
  intro m hm
  rcases List.mem_append.mp hm with hm | hm
  · exact hms m hm
  · exact hfound m (Option.mem_toList.mp hm)

theorem members_yields {item : Parse (Option Member)} (h : Yields item (SomeShallow mark n)) :
    Yields (members item) (AllShallow mark n) := by
  refine .loop (I := AllShallow mark n) (fun ms hms => ?_) (fun _ hms => hms) (by simp [AllShallow])
  refine .behind _ fun c => .ite (.pure hms) (.ite (.behind _ fun _ => .pure hms) ?_)
  exact h.bind fun found hfound => .behind _ fun d => .before (.pure (hms.add hfound))

theorem enumValues_yields : Yields enumValues (AllShallow mark n) := by
  refine .loop (I := AllShallow mark n) (fun ms hms => ?_) (fun _ hms => hms) (by simp [AllShallow])
  refine .behind _ fun _ => .behind _ fun _ => .ite (.pure hms) ?_
  refine .behind _ fun lead => .behind _ fun t => .behind _ fun found => ?_
  split
  · exact .behind _ fun _ => .pure hms
  · next name =>
    have hvalue : SomeShallow mark n (some (.enumValue ⟨lead.attributes, name, t.line⟩)) :=
      .some (Nat.zero_le n)
    exact .behind _ fun _ => .before (.behind _ fun _ =>
      .ite (.pure (hms.add hvalue)) (.pure (hms.add hvalue)))

theorem baseTypes_yields {type : Parse (Option TypeExpr)} (h : Yields type (Within mark n)) :
    Yields (baseTypes type) fun ts => ∀ t ∈ ts, t.longest mark ≤ n :=
  commaList_yields (h.bind fun _ ht => .behind _ fun _ => .before (.pure ht))

theorem typeBody_yields (kind : TypeKind) {item : Parse (Option Member)}
    (h : Yields item (SomeShallow mark n)) : Yields (typeBody kind item) (AllShallow mark n) := by
  have hnil : AllShallow mark n [] := by simp [AllShallow]
  refine .behind _ fun _ => .ite (.pure hnil) (Yields.bind (P := AllShallow mark n) ?_ fun ms hms =>
    .behind _ fun _ => .pure hms)
  refine .behind _ fun _ => .ite (.ite ?_ ?_) (.pure hnil)
  · exact enumValues_yields.bind fun ms hms => .behind _ fun _ => .pure hms
  · exact (members_yields h).bind fun ms hms => .behind _ fun _ => .pure hms

theorem typeDeclWith_yields {type : Parse (Option TypeExpr)}
    {nested : Leading → Parse (TypeHead × List Member)} (htype : Yields type (Within mark n))
    (hnested : ∀ lead, Yields (nested lead) fun x => Shallow mark n (.nested x.1 x.2))
    (lead : Leading) :
    Yields (typeDeclWith type nested lead) fun x => Shallow mark (n + 1) (.nested x.1 x.2) := by
  refine .behind _ fun t => .behind _ fun kind => .behind _ fun name => .behind _ fun tps =>
    (parameters?_yields htype).bind fun ps hps =>
    Yields.bind (P := fun ts => ∀ t ∈ ts, t.longest mark ≤ n) ?_ fun bases hbases =>
    .behind _ fun _ => (typeBody_yields kind (member_yields htype hnested _)).bind
      fun inside hinside => .pure ?_
  · exact .behind _ fun _ => .ite (baseTypes_yields htype) (.pure (by simp))
  · rw [Shallow, Member.depthBy]
    split
    · exact Nat.zero_le _
    · refine Nat.succ_le_succ (Nat.max_le.mpr ⟨?_, Member.listDepthBy_le_iff.mpr hinside⟩)
      rw [TypeHead.types, deepest_le_iff]
      intro t ht
      rcases List.mem_append.mp ht with ht | ht
      · exact hbases t ht
      · obtain ⟨p, hp, rfl⟩ := List.mem_map.mp ht
        exact hps p hp

/-- Both kinds of limits come to one inside of a declaration. -/
theorem Limits.max_le (limits : Limits mark) (room : Nat) :
    max (limits.type room) (limits.declaration room) + 1 ≤ limits.declaration (room + 1) := by
  have htype := limits.type_le room
  have hdeclaration := limits.declaration_le room
  omega

theorem typeExpr_inside (limits : Limits mark) (room : Nat) :
    Yields (typeExpr room) (Within mark (max (limits.type room) (limits.declaration room))) :=
  (typeExpr_yields limits room).mono fun _ h t ht => (h t ht).trans (Nat.le_max_left _ _)

theorem typeDecl_yields (limits : Limits mark) (room : Nat) (lead : Leading) :
    Yields (typeDecl room lead) fun x => Shallow mark (limits.declaration room) (.nested x.1 x.2) := by
  induction room generalizing lead with
  | zero =>
    -- What stands for the declaration that was passed over has nothing in it.
    exact .behind _ fun t => .behind _ fun _ => .behind _ fun _ => .behind _ fun _ =>
      .pure (Nat.zero_le _)
  | succ room ih =>
    refine (typeDeclWith_yields (typeExpr_inside limits room) (fun lead =>
      (ih lead).mono fun x hx => ?_) lead).mono fun x hx => hx.trans (limits.max_le room)
    exact hx.trans (Nat.le_max_right _ _)

def AllLow (mark : Nat → Nat → Nat) (n : Nat) (ds : List Declaration) : Prop :=
  ∀ d ∈ ds, d.depthBy (TypeExpr.longest mark) ≤ n

theorem AllLow.add {ds : List Declaration} (hds : AllLow mark n ds) {d : Declaration}
    (hd : d.depthBy (TypeExpr.longest mark) ≤ n) : AllLow mark n (ds ++ [d]) := by
  intro e he
  rcases List.mem_append.mp he with he | he
  · exact hds e he
  · exact List.mem_singleton.mp he ▸ hd

structure Inner.Low (mark : Nat → Nat → Nat) (n : Nat) (inner : Inner) : Prop where
  typeDecl : ∀ lead, Yields (inner.typeDecl lead) fun x => Shallow mark n (.nested x.1 x.2)
  scope : Yields inner.scope fun d => d.depthBy (TypeExpr.longest mark) ≤ n

theorem declarations_yields {inner : Inner} (h : inner.Low mark n) (enclosed : Bool) :
    Yields (declarations inner enclosed) (AllLow mark n) := by
  refine .loop (I := AllLow mark n) (fun ds hds => ?_) (fun _ hds => hds) (by simp [AllLow])
  refine .behind _ fun c => .ite ?_ (.ite ?_ (.ite ?_ (.ite ?_ (.ite ?_ ?_))))
  · exact .before (.pure hds)
  · exact .ite (.pure hds) (.behind _ fun _ => .behind _ fun _ => .pure hds)
  · exact h.scope.bind fun d hd => .pure (hds.add hd)
  · exact .behind _ fun _ => .behind _ fun _ => .pure hds
  · exact .behind _ fun _ => .pure hds
  · refine .behind _ fun lead => .behind _ fun d => .ite ?_ (.ite ?_ (.ite ?_ ?_))
    · exact .behind _ fun _ => .pure hds
    · exact (h.typeDecl lead).bind fun x hx => .pure (hds.add hx)
    · exact .pure hds
    · exact .behind _ fun _ => .pure hds

theorem scopeBody_yields {inner : Inner} (h : inner.Low mark n) (name : DottedName) (line : Nat) :
    Yields (scopeBody inner name line) fun d => d.depthBy (TypeExpr.longest mark) ≤ n + 1 := by
  have hscope {head : ScopeHead} {ds : List Declaration} (hds : AllLow mark n ds) :
      (Declaration.scope head ds).depthBy (TypeExpr.longest mark) ≤ n + 1 := by
    rw [Declaration.depthBy]
    split
    · exact Nat.zero_le _
    · exact Nat.succ_le_succ (Declaration.listDepthBy_le_iff.mpr hds)
  refine .behind _ fun _ => .ite ?_ ?_
  · exact .behind _ fun is => (declarations_yields h false).bind fun ds hds => .pure (hscope hds)
  · exact .behind _ fun _ => .behind _ fun is => (declarations_yields h true).bind fun ds hds =>
      .behind _ fun _ => .behind _ fun _ => .pure (hscope hds)

theorem scope_yields (limits : Limits mark) (room : Nat) :
    Yields (scope room) fun d => d.depthBy (TypeExpr.longest mark) ≤ limits.declaration room := by
  induction room with
  | zero =>
    exact .behind _ fun t => .behind _ fun name => .behind _ fun _ => .behind _ fun _ =>
      .behind _ fun _ => .pure (Nat.zero_le _)
  | succ room ih =>
    have hinner : Inner.Low mark (max (limits.type room) (limits.declaration room))
        ⟨typeExpr room, typeDecl room, scope room⟩ :=
      ⟨fun lead => (typeDecl_yields limits room lead).mono fun _ h => h.trans (Nat.le_max_right _ _),
        ih.mono fun _ h => h.trans (Nat.le_max_right _ _)⟩
    exact .behind _ fun t => .behind _ fun name => (scopeBody_yields hinner name t.line).mono
      fun _ h => h.trans (limits.max_le room)

theorem sourceUnit_yields (limits : Limits mark) :
    Yields sourceUnit fun u =>
      u.depthBy (TypeExpr.longest mark) ≤ limits.declaration depthLimit := by
  have hinner : Inner.Low mark (limits.declaration depthLimit)
      ⟨typeExpr depthLimit, typeDecl depthLimit, scope depthLimit⟩ :=
    ⟨typeDecl_yields limits _, scope_yields limits _⟩
  exact .behind _ fun is => (declarations_yields hinner false).bind fun ds hds =>
    .pure (Declaration.listDepthBy_le_iff.mpr hds)

end

/-- Declarations and types without their marks take from the room for what stands in them, and the marks
of a type take from the room at it. -/
def levelLimits : Limits fun inner marks => max inner (marks + 2) where
  type room := room
  marked room k := max (room + 1) (k + 1)
  declaration room := room
  plain_le room := by omega
  mark_le room n k h := by omega
  marked_le room k h := by omega
  type_le room := by omega
  declaration_le room := by omega

def sumUpTo : Nat → Nat
  | 0 => 0
  | n + 1 => sumUpTo n + (n + 1)

def deepestDeclaration : Nat → Nat
  | 0 => 0
  | room + 1 => sumUpTo room + 1

theorem deepestDeclaration_le (room : Nat) : deepestDeclaration room ≤ sumUpTo room := by
  cases room with
  | zero => exact Nat.le_refl 0
  | succ room =>
    rw [deepestDeclaration, sumUpTo]
    omega

/-- Marks count on all paths: at each step down there may be as many as there is room for. -/
def depthLimits : Limits fun inner _ => inner + 1 where
  type := sumUpTo
  marked room k := sumUpTo room + 1 + k
  declaration := deepestDeclaration
  plain_le room := Nat.le_refl _
  mark_le room n k h := by omega
  marked_le room k h := by
    rw [sumUpTo]
    omega
  type_le room := Nat.le_refl _
  declaration_le room := Nat.succ_le_succ (deepestDeclaration_le room)

end Parse

/-- On no path down from a source are there more namespaces, type declarations and types than the limit
allows, as long as the marks behind a type are counted only for the path that ends with it. If all are
counted, then the limit holds where marks stand only behind types with no others in them; a path can
have 8129 in any case. -/
theorem SourceUnit.ofSource_depth (source : String) :
    let u := (SourceUnit.ofSource source).1
    u.depthBy TypeExpr.level ≤ Parse.depthLimit ∧
      (u.depthBy TypeExpr.depth ≤ Parse.depthLimit ∨ ∃ t ∈ u.types, ¬t.MarksLeaves) ∧
      u.depthBy TypeExpr.depth ≤ 8129 := by
  intro u
  have hlevel : u.depthBy TypeExpr.level ≤ Parse.depthLimit :=
    Parse.sourceUnit_yields Parse.levelLimits _
  refine ⟨hlevel, ?_, Parse.sourceUnit_yields Parse.depthLimits _⟩
  by_cases hmarks : ∀ t ∈ u.types, t.MarksLeaves
  · left
    rw [SourceUnit.depth_eq_level hmarks]
    exact hlevel
  · right
    simpa using hmarks

section

open Atom

def listMarks (k : Nat) : List Atom := (List.replicate k [mark '[', mark ']']).flatten

theorem listMarks_wellSpelled (k : Nat) {rest : List Atom} (h : WellSpelled rest) :
    WellSpelled (listMarks k ++ rest) := by
  induction k with
  | zero => exact h
  | succ k ih =>
    have hbrackets : '[' ∈ Token.plainMarks ∧ ']' ∈ Token.plainMarks := by decide
    exact ⟨hbrackets.1, hbrackets.2, ih⟩

def deepField : List Atom :=
  word "class" :: space :: word "Deep" :: mark '\x7b' :: mark '(' :: word "int" :: mark ')' ::
    (listMarks 126 ++ [space, word "f", mark ';', mark '\x7d'])

def deepSource : String := String.ofList (Line.spell [.code deepField])

theorem deepField_wellSpelled : WellSpelled deepField := by
  have hmarks : '\x7b' ∈ Token.plainMarks ∧ '\x7d' ∈ Token.plainMarks ∧ ';' ∈ Token.plainMarks ∧
      '(' ∈ Token.plainMarks ∧ ')' ∈ Token.plainMarks := by decide
  have hnames : ∀ name ∈ ["class", "Deep", "int", "f"], Identifier.IsName name := by decide
  have hend : WellSpelled [space, word "f", mark ';', mark '\x7d'] :=
    ⟨trivial, ⟨hnames _ (by simp), rfl⟩, hmarks.2.2.1, hmarks.2.1, trivial⟩
  exact ⟨⟨hnames _ (by simp), rfl⟩, trivial, ⟨hnames _ (by simp), rfl⟩, hmarks.1, hmarks.2.2.2.1,
    ⟨hnames _ (by simp), rfl⟩, hmarks.2.2.2.2, listMarks_wellSpelled 126 hend⟩

/-- Nothing is reported of a source with the class, 126 lists, the tuple and its element on one path. -/
theorem deepSource_depth :
    (SourceUnit.ofSource deepSource).2 = [] ∧
      (SourceUnit.ofSource deepSource).1.depthBy TypeExpr.depth = Parse.depthLimit + 1 := by
  have hscan : Token.ofSource deepSource = (Line.tokensFrom 1 [.code deepField] ++ [⟨.done, 2⟩], []) :=
    Line.ofSource_spell (by simp [deepSource]) (by simpa [Line.WellSpelled] using deepField_wellSpelled)
  rw [ofSource_tokens hscan]
  decide +kernel

end

end DataClasses
