import DataClasses.Proofs.Declaration.Heads
import DataClasses.Proofs.Declaration.Spelling
import DataClasses.Proofs.Declaration.Unlined

/-!
# Reading spelled types

The tokens of a type are read as the type, on the line they stand on, if there is room for it. The
marks behind a type are read one after the other, so what is known of a type with more tokens behind
it is where reading of these goes on.
-/

set_option autoImplicit false

namespace DataClasses

open Identifier (IsName isKeyword)

namespace TypeExpr

mutual

def onLine (n : Nat) : TypeExpr → TypeExpr
  | predefined keyword _ => predefined keyword n
  | named segments fromRoot _ => named (segmentsOnLine n segments) fromRoot n
  | array element rank => array (onLine n element) rank
  | nullable inner => nullable (onLine n inner)
  | tuple elements _ => tuple (listOnLine n elements) n

def listOnLine (n : Nat) : List TypeExpr → List TypeExpr
  | [] => []
  | t :: rest => onLine n t :: listOnLine n rest

def segmentsOnLine (n : Nat) : List (String × List TypeExpr) → List (String × List TypeExpr)
  | [] => []
  | (name, arguments) :: rest => (name, listOnLine n arguments) :: segmentsOnLine n rest

end

theorem listOnLine_eq (n : Nat) (ts : List TypeExpr) : listOnLine n ts = ts.map (onLine n) := by
  induction ts with
  | nil => rfl
  | cons t ts ih => rw [listOnLine, ih, List.map_cons]

theorem segmentsOnLine_eq (n : Nat) (segments : List (String × List TypeExpr)) :
    segmentsOnLine n segments = segments.map fun s => (s.1, s.2.map (onLine n)) := by
  induction segments with
  | nil => rfl
  | cons s segments ih => rw [segmentsOnLine, ih, listOnLine_eq, List.map_cons]

theorem unlinedList_eq (ts : List TypeExpr) : unlinedList ts = ts.map unlined := by
  induction ts with
  | nil => rfl
  | cons t ts ih => rw [unlinedList, ih, List.map_cons]

theorem unlinedSegments_eq (segments : List (String × List TypeExpr)) :
    unlinedSegments segments = segments.map fun s => (s.1, s.2.map unlined) := by
  induction segments with
  | nil => rfl
  | cons s segments ih => rw [unlinedSegments, ih, unlinedList_eq, List.map_cons]

theorem unlined_onLine (n : Nat) (t : TypeExpr) : (t.onLine n).unlined = t.unlined := by
  induction t using induct with
  | predefined keyword line => rfl
  | named segments fromRoot line ih =>
    rw [onLine, unlined, unlined, unlinedSegments_eq, unlinedSegments_eq, segmentsOnLine_eq, List.map_map]
    congr 1
    refine List.map_congr_left fun s hs => ?_
    rw [Function.comp_apply, List.map_map]
    exact congrArg (Prod.mk s.1) (List.map_congr_left fun t ht => ih s hs t ht)
  | array element rank ih => rw [onLine, unlined, unlined, ih]
  | nullable inner ih => rw [onLine, unlined, unlined, ih]
  | tuple elements line ih =>
    rw [onLine, unlined, unlined, unlinedList_eq, unlinedList_eq, listOnLine_eq, List.map_map]
    exact congrArg (tuple · 0) (List.map_congr_left fun t ht => ih t ht)

theorem line_onLine (n : Nat) (t : TypeExpr) : (t.onLine n).line = n := by
  induction t using induct with
  | predefined keyword line => rfl
  | named segments fromRoot line ih => rfl
  | array element rank ih => exact ih
  | nullable inner ih => exact ih
  | tuple elements line ih => rfl

theorem marks_lt_depth (t : TypeExpr) : t.marks < t.depth := by
  induction t using induct with
  | predefined keyword line => exact Nat.one_pos
  | named segments fromRoot line ih => exact Nat.succ_pos _
  | array element rank ih => exact Nat.succ_lt_succ ih
  | nullable inner ih => exact Nat.succ_lt_succ ih
  | tuple elements line ih => exact Nat.succ_pos _

theorem depth_argument {segments : List (String × List TypeExpr)} {fromRoot : Bool} {line n : Nat}
    (h : (named segments fromRoot line).depth ≤ n + 1) :
    ∀ s ∈ segments, ∀ t ∈ s.2, t.depth ≤ n := by
  intro s hs
  exact longestOf_le_iff.mp (longestSegment_le_iff.mp (Nat.le_of_succ_le_succ h) s hs)

theorem depth_element {elements : List TypeExpr} {line n : Nat} (h : (tuple elements line).depth ≤ n + 1) :
    ∀ t ∈ elements, t.depth ≤ n :=
  longestOf_le_iff.mp (Nat.le_of_succ_le_succ h)

end TypeExpr

namespace Parse

open TypeExpr (rowTokens argumentTokens nameTokens)

variable {α β : Type} {e l n room : Nat} {r : List Diagnostic} {u v : Token} {ts us vs : List Token}

theorem nextItem_comma {item : Parse (Option α)} {a : α} {c : Cursor}
    (h : item c = (some a, ⟨.ofMark n ',' :: ts, e, l, r⟩)) (acc : List α) :
    nextItem item acc c = (.again (acc ++ [a]), ⟨ts, e, n, r⟩) := by
  rw [nextItem, bind_apply, h, bind_apply, eatMark_of rfl]
  rfl

theorem nextItem_last {item : Parse (Option α)} {a : α} {c : Cursor}
    (h : item c = (some a, ⟨u :: ts, e, l, r⟩)) (hu : u.isMark "," = false) (acc : List α) :
    nextItem item acc c = (.done (acc ++ [a]), ⟨u :: ts, e, l, r⟩) := by
  rw [nextItem, bind_apply, h, bind_apply, eatMark_not hu]
  rfl

theorem rowTokens_cons (n : Nat) (ts : List Token) {rest : List (List Token)} (h : rest ≠ []) :
    rowTokens n (ts :: rest) = ts ++ .ofMark n ',' :: rowTokens n rest := by
  rw [rowTokens, List.intercalate_cons_of_ne_nil h, List.append_assoc]
  rfl

/-- A list is read if each of its items is read before a comma and the last one before what is
behind the list. The last item may leave something of its tokens. -/
theorem commaList_read {item : Parse (Option β)} {tokens : α → List Token} {value : α → β}
    {xs : List α} {x : α} {last : β} {m : Nat}
    (hcomma : ∀ y ∈ xs, ∀ l us, item ⟨tokens y ++ .ofMark n ',' :: us, e, l, r⟩ =
      (some (value y), ⟨.ofMark n ',' :: us, e, n, r⟩))
    (hlast : ∀ l, item ⟨tokens x ++ ts, e, l, r⟩ = (some last, ⟨u :: us, e, m, r⟩))
    (hu : u.isMark "," = false) (l : Nat) :
    commaList item ⟨rowTokens n ((xs ++ [x]).map tokens) ++ ts, e, l, r⟩ =
      (xs.map value ++ [last], ⟨u :: us, e, m, r⟩) := by
  have hloop (acc : List β) (l : Nat) :
      loop id (nextItem item) acc ⟨rowTokens n ((xs ++ [x]).map tokens) ++ ts, e, l, r⟩ =
        (acc ++ xs.map value ++ [last], ⟨u :: us, e, m, r⟩) := by
    induction xs generalizing acc l with
    | nil =>
      rw [List.nil_append, List.map_singleton, rowTokens, List.intercalate_singleton, List.map_nil,
        List.append_nil]
      exact loop_done (nextItem_last (hlast l) hu acc)
    | cons y ys ih =>
      rw [List.cons_append, List.map_cons, rowTokens_cons n _ (by simp), List.append_assoc, List.cons_append,
        loop_again (nextItem_comma (hcomma y (by simp) l _) acc)
          (by simp only [List.length_append, List.length_cons]; omega),
        ih fun z hz => hcomma z (List.mem_cons_of_mem y hz)]
      simp
  rw [commaList, hloop, List.nil_append]

def EndsItem (u : Token) : Prop := ∃ n, ∃ m ∈ [',', '>', ')'], u = .ofMark n m

def ReadsBack (item : Parse (Option TypeExpr)) (n : Nat) (t : TypeExpr) : Prop :=
  ∀ u us e l r, EndsItem u →
    item ⟨t.tokens n ++ u :: us, e, l, r⟩ = (some (t.onLine n), ⟨u :: us, e, n, r⟩)

theorem row_read {item : Parse (Option TypeExpr)} {row : List TypeExpr} (hne : row ≠ [])
    (h : ∀ t ∈ row, ReadsBack item n t) (hu : EndsItem u) (hcomma : u.isMark "," = false) :
    commaList item ⟨rowTokens n (row.map (TypeExpr.tokens n)) ++ u :: us, e, l, r⟩ =
      (row.map (TypeExpr.onLine n), ⟨u :: us, e, n, r⟩) := by
  obtain ⟨front, last, rfl⟩ : ∃ front last, row = front ++ [last] :=
    ⟨_, _, (List.dropLast_append_getLast hne).symm⟩
  rw [commaList_read (fun t ht l us => h t (by simp [ht]) _ us e l r ⟨n, ',', by simp, rfl⟩)
    (fun l => h last (by simp) u us e l r hu) hcomma, List.map_append, List.map_singleton]

def KeepsPart (u : Token) : Prop := u.isAnyMark ["(", openBrace, "=>"] = false

theorem typeArguments_read {inner : Parse (Option TypeExpr)} {arguments : List TypeExpr}
    (hne : arguments ≠ []) (h : ∀ t ∈ arguments, ReadsBack inner n t) :
    typeArguments inner ⟨argumentTokens n arguments ++ us, e, l, r⟩ =
      (arguments.map (TypeExpr.onLine n), ⟨us, e, n, r⟩) := by
  have htokens : argumentTokens n arguments ++ us =
      .ofMark n '<' :: (rowTokens n (arguments.map (TypeExpr.tokens n)) ++ .ofMark n '>' :: us) := by
    simp [argumentTokens, hne]
  rw [htokens, typeArguments, bind_apply, skip_apply, drop_one, bind_apply,
    row_read hne h ⟨n, '>', by simp, rfl⟩ rfl, bind_apply, expectMark_of _ rfl]
  rfl

theorem typeArguments?_read {inner : Parse (Option TypeExpr)} {arguments : List TypeExpr}
    (h : ∀ t ∈ arguments, ReadsBack inner n t) (hv : v.isMark "<" = false) :
    typeArguments? inner ⟨argumentTokens n arguments ++ v :: vs, e, n, r⟩ =
      (arguments.map (TypeExpr.onLine n), ⟨v :: vs, e, n, r⟩) := by
  by_cases hempty : arguments = []
  · rw [hempty]
    exact typeArguments?_none inner hv
  · have hopen : ((Cursor.mk (argumentTokens n arguments ++ v :: vs) e n r).ahead 0).isMark "<" =
        true := by
      simp only [argumentTokens, List.isEmpty_iff, hempty, if_false]
      rfl
    rw [typeArguments?, bind_apply, atMark_apply]
    simp only [hopen, if_true]
    exact typeArguments_read hempty h

/-- A part is read with the type arguments behind its name. -/
theorem nextSegment_arguments {inner : Parse (Option TypeExpr)} {name : String}
    {arguments : List TypeExpr} {r' : List Diagnostic} (hname : isKeyword name = false)
    (hread : typeArguments? inner ⟨us, e, n, r⟩ = (arguments, ⟨v :: vs, e, n, r'⟩))
    (acc : List (String × List TypeExpr)) :
    nextSegment inner acc ⟨.ofWord n name :: us, e, l, r⟩ =
      if (Cursor.mk (v :: vs) e n r').atPart then
        (.again (acc ++ [(name, arguments)]), ⟨vs, e, v.line, r'⟩)
      else (.done (acc ++ [(name, arguments)]), ⟨v :: vs, e, n, r'⟩) := by
  rw [nextSegment, bind_apply, current_apply, bind_apply, skip_apply, drop_one, bind_apply]
  simp only [ahead_zero, ofWord_name? hname, Option.getD_some]
  rw [Token.ofWord, hread, bind_apply, get_apply]
  dsimp only
  split
  · rfl
  · rfl

theorem nextSegment_apply {inner : Parse (Option TypeExpr)} {s : String × List TypeExpr}
    (hname : isKeyword s.1 = false) (harguments : ∀ t ∈ s.2, ReadsBack inner n t)
    (hv : v.isMark "<" = false) (acc : List (String × List TypeExpr)) :
    nextSegment inner acc ⟨.ofWord n s.1 :: (argumentTokens n s.2 ++ v :: vs), e, l, r⟩ =
      if (Cursor.mk (v :: vs) e n r).atPart then
        (.again (acc ++ [(s.1, s.2.map (TypeExpr.onLine n))]), ⟨vs, e, v.line, r⟩)
      else (.done (acc ++ [(s.1, s.2.map (TypeExpr.onLine n))]), ⟨v :: vs, e, n, r⟩) :=
  nextSegment_arguments hname (typeArguments?_read harguments hv) acc

/-- A place behind parts of a name where neither type arguments nor further parts are taken. -/
structure Cursor.EndsParts (c : Cursor) : Prop where
  arguments : (c.ahead 0).isMark "<" = false
  root : (c.ahead 0).isMark "::" = false
  part : c.atPart = false

theorem endsParts_of_endsSegments (h : EndsSegments v) : (Cursor.mk (v :: vs) e l r).EndsParts := by
  have hv := isMark_of_isAnyMark h
  refine ⟨hv "<" (by simp), hv "::" (by simp), ?_⟩
  simp [Cursor.atPart, Cursor.atSeparator, Token.isAnyMark, hv "." (by simp), hv "::" (by simp)]

section

variable {inner : Parse (Option TypeExpr)} {s : String × List TypeExpr} (hname : isKeyword s.1 = false)
  (harguments : ∀ t ∈ s.2, ReadsBack inner n t)

include hname harguments

theorem nextSegment_last (hend : (Cursor.mk (v :: vs) e n r).EndsParts)
    (acc : List (String × List TypeExpr)) :
    nextSegment inner acc ⟨.ofWord n s.1 :: (argumentTokens n s.2 ++ v :: vs), e, l, r⟩ =
      (.done (acc ++ [(s.1, s.2.map (TypeExpr.onLine n))]), ⟨v :: vs, e, n, r⟩) := by
  have hless : v.isMark "<" = false := hend.arguments
  rw [nextSegment_apply hname harguments hless, if_neg (by simp [hend.part])]

theorem nextSegment_further (hat : (Cursor.mk (.ofMark n '.' :: vs) e n r).atPart = true)
    (acc : List (String × List TypeExpr)) :
    nextSegment inner acc ⟨.ofWord n s.1 :: (argumentTokens n s.2 ++ .ofMark n '.' :: vs), e, l, r⟩ =
      (.again (acc ++ [(s.1, s.2.map (TypeExpr.onLine n))]), ⟨vs, e, n, r⟩) := by
  rw [nextSegment_apply hname harguments rfl, if_pos hat]
  rfl

end

/-- Behind the first name of a type stands what is behind the type, type arguments or a point. -/
theorem nameTokens_head (n : Nat) (s : String × List TypeExpr) (rest : List (String × List TypeExpr))
    (v : Token) (vs : List Token) :
    ∃ w ws, nameTokens n (s :: rest) ++ v :: vs = .ofWord n s.1 :: w :: ws ∧
      (w = .ofMark n '<' ∨ w = .ofMark n '.' ∨ w = v ∧ rest = []) := by
  rcases TypeExpr.argumentTokens_cases n s.2 with hnone | ⟨more, hmore⟩
  · cases rest with
    | nil =>
      rw [TypeExpr.nameTokens_singleton, hnone]
      exact ⟨v, vs, rfl, .inr (.inr ⟨rfl, rfl⟩)⟩
    | cons next rest =>
      rw [TypeExpr.nameTokens_cons, hnone]
      exact ⟨_, _, rfl, .inr (.inl rfl)⟩
  · cases rest with
    | nil =>
      rw [TypeExpr.nameTokens_singleton, hmore]
      exact ⟨_, _, rfl, .inl rfl⟩
    | cons next rest =>
      rw [TypeExpr.nameTokens_cons, hmore]
      exact ⟨_, _, rfl, .inl rfl⟩

theorem segments_read {inner : Parse (Option TypeExpr)} {segments : List (String × List TypeExpr)}
    (hne : segments ≠ []) (hnames : ∀ s ∈ segments, isKeyword s.1 = false)
    (harguments : ∀ s ∈ segments, ∀ t ∈ s.2, ReadsBack inner n t)
    (hend : (Cursor.mk (v :: vs) e n r).EndsParts) (hkeeps : 2 ≤ segments.length → KeepsPart v) :
    Parse.segments inner
        ⟨nameTokens n segments ++ v :: vs, e, l, r⟩ =
      (TypeExpr.segmentsOnLine n segments, ⟨v :: vs, e, n, r⟩) := by
  have hloop (acc : List (String × List TypeExpr)) (l : Nat) :
      loop id (nextSegment inner) acc
          ⟨nameTokens n segments ++ v :: vs, e, l, r⟩ =
        (acc ++ TypeExpr.segmentsOnLine n segments, ⟨v :: vs, e, n, r⟩) := by
    induction segments generalizing acc l with
    | nil => exact absurd rfl hne
    | cons s rest ih =>
      have hname := hnames s (by simp)
      have hs := harguments s (by simp)
      cases rest with
      | nil =>
        rw [TypeExpr.nameTokens_singleton, List.cons_append]
        exact loop_done (by rw [nextSegment_last hname hs hend]; simp [TypeExpr.segmentsOnLine_eq])
      | cons next rest =>
        obtain ⟨w, ws, htail, hw⟩ := nameTokens_head n next rest v vs
        have hbody : w.isAnyMark ["(", openBrace, "=>"] = false := by
          rcases hw with rfl | rfl | ⟨rfl, -⟩
          · rfl
          · rfl
          · exact hkeeps (by simp)
        have hat : (Cursor.mk (.ofMark n '.' :: .ofWord n next.1 :: w :: ws) e n r).atPart = true := by
          have hseparator : (Cursor.mk (.ofMark n '.' :: .ofWord n next.1 :: w :: ws) e n r).atSeparator =
              true := rfl
          simp [Cursor.atPart, hseparator, Cursor.isMemberName, hbody, Token.isName,
            ofWord_name? (hnames next (by simp))]
        have hcons : nameTokens n (s :: next :: rest) ++ v :: vs =
            .ofWord n s.1 :: (argumentTokens n s.2 ++ .ofMark n '.' :: .ofWord n next.1 :: w :: ws) := by
          rw [← htail, TypeExpr.nameTokens_cons]
          simp
        rw [hcons, loop_again (nextSegment_further hname hs hat acc)
            (by simp only [List.length_append, List.length_cons]; omega), ← htail,
          ih (List.cons_ne_nil next rest) (fun q hq => hnames q (List.mem_cons_of_mem s hq))
            (fun q hq => harguments q (List.mem_cons_of_mem s hq)) (fun _ => hkeeps (by simp))]
        simp [TypeExpr.segmentsOnLine_eq]
  rw [Parse.segments, hloop, List.nil_append]

theorem simpleType_keyword (inner : Parse (Option TypeExpr)) {keyword : String}
    (h : keyword ∈ predefinedTypes) :
    simpleType inner ⟨.ofWord n keyword :: ts, e, l, r⟩ =
      (some (.predefined keyword n), ⟨ts, e, n, r⟩) := by
  simp only [predefinedTypes, List.mem_cons, List.not_mem_nil, or_false] at h
  rcases h with rfl | rfl | rfl | rfl | rfl | rfl | rfl | rfl | rfl | rfl | rfl | rfl | rfl | rfl | rfl | rfl
  all_goals rfl

theorem simpleType_segments {inner : Parse (Option TypeExpr)} {c d : Cursor}
    {parts : List (String × List TypeExpr)} (hopen : (c.ahead 0).isMark "(" = false)
    (hfind : predefinedTypes.find? (c.ahead 0).isWord = none)
    (hname : ((c.ahead 0).isName || c.atRoot) = true)
    (hread : segments inner (if c.atRoot then c.drop 2 else c) = (parts, d)) :
    simpleType inner c = (some (.named parts c.atRoot (c.ahead 0).line), d) := by
  rewrite [simpleType, bind_apply, get_apply, if_neg (by simp [hopen])]
  simp only [hfind, hname, if_true]
  cases hroot : c.atRoot with
  | true =>
    rw [hroot, if_pos rfl] at hread
    rewrite [if_pos rfl, bind_apply, skip_apply]
    dsimp only
    rw [bind_apply, hread]
    rfl
  | false =>
    rw [hroot, if_neg (by simp)] at hread
    rewrite [if_neg (by simp), bind_apply, hread]
    rfl

theorem ofName_eq_ofWord {name : String} (h : isKeyword name = false) :
    Token.ofName n name = .ofWord n name := by
  rw [Token.ofName, Token.ofWord, h]

theorem simpleType_named {inner : Parse (Option TypeExpr)} {segments : List (String × List TypeExpr)}
    (fromRoot : Bool) (line : Nat) (hne : segments ≠ [])
    (hnames : ∀ s ∈ segments, isKeyword s.1 = false)
    (harguments : ∀ s ∈ segments, ∀ t ∈ s.2, ReadsBack inner n t)
    (hend : (Cursor.mk (v :: vs) e n r).EndsParts) (hkeeps : 2 ≤ segments.length → KeepsPart v) :
    simpleType inner ⟨(TypeExpr.named segments fromRoot line).tokens n ++ v :: vs, e, l, r⟩ =
      (some ((TypeExpr.named segments fromRoot line).onLine n), ⟨v :: vs, e, n, r⟩) := by
  have hread (l : Nat) := segments_read (l := l) hne hnames harguments hend hkeeps
  cases fromRoot with
  | true =>
    have hcursor : (Cursor.mk (.ofWord n "global" :: ⟨.mark "::", n⟩ :: (nameTokens n segments ++
      v :: vs))
        e l r).drop 2 = ⟨nameTokens n segments ++ v :: vs, e, n, r⟩ := rfl
    exact simpleType_segments rfl rfl rfl (hcursor ▸ hread n)
  | false =>
    cases segments with
    | nil => exact absurd rfl hne
    | cons s rest =>
      obtain ⟨w, ws, htail, hw⟩ := nameTokens_head n s rest v vs
      have hs := hnames s (by simp)
      have hcolons : w.isMark "::" = false := by
        rcases hw with rfl | rfl | ⟨rfl, -⟩
        · rfl
        · rfl
        · exact hend.root
      have hroot : (Cursor.mk (.ofWord n s.1 :: w :: ws) e l r).atRoot = false := by
        simp [Cursor.atRoot, hcolons]
      have hfind : predefinedTypes.find? (Token.ofWord n s.1).isWord = none := by
        rw [← ofName_eq_ofWord hs]
        exact find_predefined_ofName n s.1
      have hread := hread l
      rw [htail] at hread
      have hsimple := simpleType_segments (c := ⟨.ofWord n s.1 :: w :: ws, e, l, r⟩) rfl hfind
        (by simp [Token.isName, ofWord_name? hs]) (by rw [hroot]; exact hread)
      rw [hroot] at hsimple
      have htokens : (TypeExpr.named (s :: rest) false line).tokens n ++ v :: vs =
          .ofWord n s.1 :: w :: ws := htail
      rw [htokens, hsimple]
      rfl

theorem ReadsBack.tupleItem {inner : Parse (Option TypeExpr)} {t : TypeExpr} (h : ReadsBack inner n t) :
    ReadsBack (tupleItem inner) n t := by
  intro u us e l r hu
  rw [Parse.tupleItem, bind_apply, h u us e l r hu, bind_apply, current_apply]
  obtain ⟨k, m, -, rfl⟩ := hu
  rfl

theorem simpleType_tuple {inner : Parse (Option TypeExpr)} {elements : List TypeExpr} (line : Nat)
    (hne : elements ≠ []) (h : ∀ t ∈ elements, ReadsBack inner n t) :
    simpleType inner ⟨(TypeExpr.tuple elements line).tokens n ++ vs, e, l, r⟩ =
      (some ((TypeExpr.tuple elements line).onLine n), ⟨vs, e, n, r⟩) := by
  have hopen (ts : List Token) : simpleType inner ⟨.ofMark n '(' :: ts, e, l, r⟩ =
      (do
        let elements ← commaList (tupleItem inner)
        let _ ← expectMark ")" .closeParenExpected
        pure (some (.tuple elements n)) : Parse (Option TypeExpr)) ⟨ts, e, n, r⟩ := rfl
  have htokens : (TypeExpr.tuple elements line).tokens n ++ vs =
      .ofMark n '(' :: (rowTokens n (elements.map (TypeExpr.tokens n)) ++ .ofMark n ')' :: vs) := by
    simp [TypeExpr.tokens, TypeExpr.listTokens_eq]
  rw [htokens, hopen, bind_apply,
    row_read hne (fun t ht => (h t ht).tupleItem) ⟨n, ')', by simp, rfl⟩ rfl, bind_apply,
    expectMark_of _ rfl, TypeExpr.onLine, TypeExpr.listOnLine_eq]
  rfl

theorem suffix_question (line : Nat) (x : TypeExpr) (room : Nat) :
    suffix line (x, room + 1, false) ⟨.ofMark n '?' :: ts, e, l, r⟩ =
      (.again (.nullable x, room, false), ⟨ts, e, n, r⟩) := rfl

theorem takeWhile_commas (n commas : Nat) (ts : List Token) :
    (List.replicate commas (Token.ofMark n ',') ++ .ofMark n ']' :: ts).takeWhile (·.isMark ",") =
      List.replicate commas (.ofMark n ',') := by
  have hclose : (Token.ofMark n ']').isMark "," = false := rfl
  rw [List.takeWhile_append_of_pos fun t ht => by rw [List.eq_of_mem_replicate ht]; rfl]
  simp [hclose]

theorem drop_replicate (count : Nat) (t : Token) (ts : List Token) :
    (Cursor.mk (List.replicate count t ++ ts) e t.line r).drop count = ⟨ts, e, t.line, r⟩ := by
  have hlast : ((List.replicate count t).getLast?.map Token.line).getD t.line = t.line := by
    rw [List.getLast?_replicate]
    split
    · rfl
    · rfl
  rw [Cursor.drop, List.drop_left' List.length_replicate, List.take_left' List.length_replicate, hlast]

theorem suffix_rank (line : Nat) (x : TypeExpr) (room commas : Nat) :
    suffix line (x, room + 1, false)
        ⟨.ofMark n '[' :: (List.replicate commas (.ofMark n ',') ++ .ofMark n ']' :: ts), e, l, r⟩ =
      (.again (.array x (commas + 1), room, false), ⟨ts, e, n, r⟩) := by
  have hnext : ((Cursor.mk (.ofMark n '[' :: (List.replicate commas (.ofMark n ',') ++
      .ofMark n ']' :: ts)) e l r).ahead 1).isAnyMark ["]", ","] = true := by
    cases commas with
    | zero => rfl
    | succ commas => rfl
  have hopen : (Token.ofMark n '[').isMark "?" = false ∧ (Token.ofMark n '[').isMark "[" = true ∧
      (Token.ofMark n '[').line = (Token.ofMark n ',').line := ⟨rfl, rfl, rfl⟩
  have hroom : (room + 1 == 0) = false := rfl
  rewrite [suffix, bind_apply, get_apply]
  simp only [ahead_zero, hopen.1, hopen.2.1, hnext, hroom, Bool.and_false, Bool.false_and, Bool.and_true,
    Bool.false_eq_true, if_false, if_true]
  rewrite [bind_apply, skip_apply, drop_one, bind_apply, get_apply]
  simp only [takeWhile_commas, List.length_replicate]
  rewrite [bind_apply, skip_apply]
  dsimp only
  rw [hopen.2.2, drop_replicate, bind_apply, expectMark_of _ rfl]
  rfl

theorem typeExpr_simple {x : TypeExpr} {c d : Cursor} (hline : (c.ahead 0).line = n)
    (h : simpleType (typeExpr room) c = (some x, d)) :
    typeExpr (room + 1) c = (some <$> suffixes n room x : Parse (Option TypeExpr)) d := by
  rw [typeExpr, bind_apply, current_apply, bind_apply]
  simp only [h, hline]

/-- A type begins with a tuple or with a word that no list of parameters follows. -/
theorem tokens_head {t : TypeExpr} (h : t.WellSpelled) (n : Nat) (hv : v.isMark "(" = false)
    (vs : List Token) :
    ∃ w u us, t.tokens n ++ v :: vs = w :: u :: us ∧ (w = .ofMark n '(' ∨
      u.isMark "(" = false ∧ ∃ word, w = .ofWord n word ∧
        (word ∈ predefinedTypes ∨ isKeyword word = false ∧
          (word = "global" ∨ word ∈ t.words))) := by
  induction h generalizing v vs with
  | @predefined keyword line hkeyword => exact ⟨_, v, vs, rfl, .inr ⟨hv, keyword, rfl, .inl hkeyword⟩⟩
  | @named segments fromRoot line hne hnames harguments ih =>
    cases fromRoot with
    | true => exact ⟨_, _, _, rfl, .inr ⟨rfl, "global", rfl, .inr ⟨by decide, .inl rfl⟩⟩⟩
    | false =>
      cases segments with
      | nil => exact absurd rfl hne
      | cons s rest =>
        obtain ⟨w, ws, htail, hw⟩ := nameTokens_head n s rest v vs
        have hword : s.1 ∈ (TypeExpr.named (s :: rest) false line).words :=
          TypeExpr.mem_segmentWords.mpr ⟨s, by simp, .inl rfl⟩
        refine ⟨_, w, ws, htail, .inr ⟨?_, s.1, rfl, .inr ⟨(hnames s (by simp)).2, .inr hword⟩⟩⟩
        rcases hw with rfl | rfl | ⟨rfl, -⟩
        · rfl
        · rfl
        · exact hv
  | @array element rank helement hrank ih =>
    obtain ⟨w, u, us, htokens, hw⟩ := ih (v := .ofMark n '[') rfl
      (List.replicate (rank - 1) (.ofMark n ',') ++ [.ofMark n ']'] ++ v :: vs)
    refine ⟨w, u, us, ?_, hw⟩
    rw [← htokens, TypeExpr.tokens, List.append_assoc, List.cons_append]
  | nullable hinner hnot ih =>
    obtain ⟨w, u, us, htokens, hw⟩ := ih (v := .ofMark n '?') rfl (v :: vs)
    refine ⟨w, u, us, ?_, hw⟩
    rw [← htokens, TypeExpr.tokens, List.append_assoc, List.singleton_append]
  | @tuple elements line hne helements ih =>
    have hsome : rowTokens n (TypeExpr.listTokens n elements) ++ [.ofMark n ')'] ++ v :: vs ≠ [] := by simp
    obtain ⟨u, us, hinside⟩ := List.exists_cons_of_ne_nil hsome
    refine ⟨.ofMark n '(', u, us, ?_, .inl rfl⟩
    rw [← hinside]
    rfl

theorem tokens_line {t : TypeExpr} (h : t.WellSpelled) (n : Nat) (hv : v.isMark "(" = false)
    (vs : List Token) :
    ((Cursor.mk (t.tokens n ++ v :: vs) e l r).ahead 0).line = n := by
  obtain ⟨w, u, us, htokens, rfl | ⟨-, word, rfl, -⟩⟩ := tokens_head h n hv vs
  · rw [htokens]
    rfl
  · rw [htokens]
    rfl

theorem EndsItem.ends (h : EndsItem u) : EndsType u ∧ KeepsPart u := by
  obtain ⟨n, m, hm, rfl⟩ := h
  simp only [List.mem_cons, List.not_mem_nil, or_false] at hm
  rcases hm with rfl | rfl | rfl
  · exact ⟨⟨rfl, rfl⟩, rfl⟩
  · exact ⟨⟨rfl, rfl⟩, rfl⟩
  · exact ⟨⟨rfl, rfl⟩, rfl⟩

def AtMarks (n room : Nat) (t : TypeExpr) : Prop :=
  ∀ v vs e l r, EndsSegments v → KeepsPart v →
    typeExpr (room + 1) ⟨t.tokens n ++ v :: vs, e, l, r⟩ =
      (some <$> loop (fun x => x.1) (suffix n) (t.onLine n, room - t.marks, false) :
        Parse (Option TypeExpr)) ⟨v :: vs, e, n, r⟩

theorem AtMarks.readsBack {t : TypeExpr} (h : ∀ room, t.depth ≤ room + 1 → AtMarks n room t)
    (hdepth : t.depth ≤ room) : ReadsBack (typeExpr room) n t := by
  intro u us e l r hu
  obtain ⟨room, rfl⟩ : ∃ k, room = k + 1 := by
    have := t.marks_lt_depth
    exact ⟨room - 1, by omega⟩
  obtain ⟨hends, hkeeps⟩ := hu.ends
  rw [h room hdepth u us e l r hends.1 hkeeps, map_apply, loop_done (suffix_done n _ _ hends.2)]

/-- One more mark behind a type is read behind the marks before it. -/
theorem AtMarks.mark {inner outer : TypeExpr} {m : Token} {more : List Token} (h : AtMarks n room inner)
    (hroom : inner.marks < room) (hmarks : outer.marks = inner.marks + 1)
    (htokens : outer.tokens n = inner.tokens n ++ m :: more) (hends : EndsSegments m) (hkeeps : KeepsPart m)
    (hsuffix : ∀ left vs e r, suffix n (inner.onLine n, left + 1, false) ⟨m :: (more ++ vs), e, n, r⟩ =
      (.again (outer.onLine n, left, false), ⟨vs, e, n, r⟩)) : AtMarks n room outer := by
  intro v vs e l r _ _
  obtain ⟨left, hleft, hnext⟩ : ∃ left, room - inner.marks = left + 1 ∧ room - outer.marks = left :=
    ⟨room - outer.marks, by omega, rfl⟩
  rw [htokens, List.append_assoc, List.cons_append, h m _ e l r hends hkeeps, map_apply, map_apply, hleft,
    hnext, loop_again (hsuffix left _ e r) (by simp only [List.length_append, List.length_cons]; omega)]

/-- Behind the tokens of a type, reading goes on with the marks behind it. -/
theorem typeExpr_atMarks {t : TypeExpr} (ht : t.WellSpelled) (n room : Nat) (hdepth : t.depth ≤ room + 1) :
    AtMarks n room t := by
  induction ht generalizing room with
  | predefined hkeyword =>
    exact fun v vs e l r _ _ => typeExpr_simple rfl (simpleType_keyword _ hkeyword)
  | @named segments fromRoot line hne hnames harguments ih =>
    intro v vs e l r hv hkeeps
    have hread : ∀ s ∈ segments, ∀ t ∈ s.2, ReadsBack (typeExpr room) n t := fun s hs t ht =>
      AtMarks.readsBack (ih s hs t ht) (TypeExpr.depth_argument hdepth s hs t ht)
    exact typeExpr_simple
      (tokens_line (.named hne hnames harguments) n (isMark_of_isAnyMark hkeeps "(" (by simp)) vs)
      (simpleType_named fromRoot line hne (fun s hs => (hnames s hs).2) hread
        (endsParts_of_endsSegments hv) fun _ => hkeeps)
  | @array element rank helement hrank ih =>
    have hroom : element.marks < room := by
      have := (TypeExpr.array element rank).marks_lt_depth
      rw [TypeExpr.marks] at this
      omega
    have hrank : rank - 1 + 1 = rank := by omega
    refine (ih room (Nat.le_of_succ_le hdepth)).mark hroom rfl rfl rfl rfl fun left vs e r => ?_
    rw [List.append_assoc, List.singleton_append, suffix_rank, hrank]
    rfl
  | @nullable inner hinner hnot ih =>
    have hroom : inner.marks < room := by
      have := (TypeExpr.nullable inner).marks_lt_depth
      rw [TypeExpr.marks] at this
      omega
    exact (ih room (Nat.le_of_succ_le hdepth)).mark hroom rfl rfl rfl rfl
      fun left vs e r => suffix_question n _ left
  | @tuple elements line hne helements ih =>
    have hread : ∀ t ∈ elements, ReadsBack (typeExpr room) n t := fun t ht =>
      AtMarks.readsBack (ih t ht) (TypeExpr.depth_element hdepth t ht)
    exact fun v vs e l r _ _ => typeExpr_simple rfl (simpleType_tuple line hne hread)

/-- The tokens of a type for which there is room are read as the type. -/
theorem typeExpr_read {t : TypeExpr} (ht : t.WellSpelled) (hdepth : t.depth ≤ room + 1) (hu : EndsType u)
    (hkeeps : KeepsPart u) :
    typeExpr (room + 1) ⟨t.tokens n ++ u :: us, e, l, r⟩ =
      (some (t.onLine n), ⟨u :: us, e, n, r⟩) := by
  rw [typeExpr_atMarks ht n room hdepth u us e l r hu.1 hkeeps, map_apply, loop_done (suffix_done n _ _ hu.2)]

end Parse
end DataClasses
