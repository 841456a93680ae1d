import DataClasses.Proofs.Declaration.BaseTypes
import DataClasses.Proofs.Declaration.FieldNames

/-!
# Generic creations as initial values

Angles are no brackets to what an initial value is passed over by. A comma between type arguments
ends the value if what stands behind it looks like a declarator: a name with a comma behind it. With
three type arguments or more the second one is such a name, and it is declared with all further
ones.
-/

set_option autoImplicit false

namespace DataClasses

open Identifier (IsName isKeyword)
open Token (before scan classHead Enclosed EndsName)

def TypeExpr.generic (line : Nat) (g : String) (as : List String) : TypeExpr :=
  .named [(g, as.map fun a => ofParts line [a])] false line

def Token.commaNames (n : Nat) (as : List String) : List Token :=
  as.flatMap fun a => [.ofMark n ',', .ofWord n a]

namespace TypeExpr

variable {n line : Nat} {g a : String} {as : List String}

theorem text_generic (hne : as ≠ []) :
    (generic line g as).text = g ++ "<" ++ ", ".intercalate as ++ ">" := by
  have htexts : (as.map fun a => ofParts line [a]).map text = as := by
    rw [List.map_map]
    refine (List.map_congr_left fun a _ => ?_).trans (List.map_id as)
    exact (text_ofParts line [a]).trans (by simp)
  have hsome : as.isEmpty = false := by simpa using hne
  rw [generic, text, segmentTexts_eq, List.map_singleton, argumentText, htexts, List.isEmpty_map, hsome]
  simp [String.append_assoc]

theorem wellSpelled_generic (hg : IsName g ∧ isKeyword g = false)
    (has : ∀ a ∈ as, IsName a ∧ isKeyword a = false) : (generic line g as).WellSpelled := by
  refine .named (by simp) (by simpa using hg) ?_
  simp only [List.mem_singleton, forall_eq, List.forall_mem_map]
  exact fun a ha => wellSpelled_ofParts (List.cons_ne_nil a []) (by simpa using has a ha)

theorem onLine_generic : (generic line g as).onLine n = generic n g as := by
  rw [generic, onLine, segmentsOnLine_eq, List.map_singleton, List.map_map]
  rfl

theorem depth_generic : (generic line g as).depth ≤ 2 := by
  refine Nat.succ_le_succ (longestSegment_le_iff.mpr ?_)
  simp only [List.mem_singleton, forall_eq]
  refine longestOf_le_iff.mpr ?_
  simp only [List.forall_mem_map]
  exact fun a _ => Nat.le_refl 1

theorem rowTokens_names (n : Nat) (a : String) (as : List String) :
    rowTokens n ((a :: as).map fun a => [.ofWord n a]) = .ofWord n a :: Token.commaNames n as := by
  induction as generalizing a with
  | nil => rfl
  | cons b as ih =>
    have hrest := ih b
    rw [rowTokens, List.map_cons] at hrest ⊢
    rw [List.map_cons, List.intercalate_cons_cons, hrest]
    rfl

theorem tokens_generic (n : Nat) (g a : String) (as : List String) :
    (generic line g (a :: as)).tokens n =
      .ofWord n g :: .ofMark n '<' :: .ofWord n a :: (Token.commaNames n as ++ [.ofMark n '>']) := by
  have hrow : rowTokens n (((a :: as).map fun a => ofParts line [a]).map (tokens n)) =
      .ofWord n a :: Token.commaNames n as := by
    rw [List.map_map, ← rowTokens_names]
    exact congrArg (rowTokens n) (List.map_congr_left fun b _ => nameTokens_singleton n (b, []))
  have htokens : (generic line g (a :: as)).tokens n =
      nameTokens n [(g, (a :: as).map fun a => ofParts line [a])] := rfl
  rw [htokens, nameTokens_singleton, argumentTokens, List.isEmpty_map, if_neg (by simp), hrow]
  rfl

end TypeExpr

namespace Parse

variable {e l n room : Nat} {r : List Diagnostic} {a b f g : String} {as : List String} {t u v : Token}
  {ts us vs : List Token}

def creationRest (n : Nat) (as : List String) (us : List Token) : List Token :=
  Token.commaNames n as ++ .ofMark n '>' :: .ofMark n '(' :: .ofMark n ')' :: .ofMark n ';' :: us

def creationTokens (n : Nat) (g a : String) (as : List String) (us : List Token) : List Token :=
  .ofMark n '=' :: .ofWord n "new" :: .ofWord n g :: .ofMark n '<' :: .ofWord n a :: creationRest n as us

theorem creationRest_cons (n : Nat) (a : String) (as : List String) (us : List Token) :
    creationRest n (a :: as) us = .ofMark n ',' :: .ofWord n a :: creationRest n as us := rfl

theorem enclosed_call (n : Nat) : Enclosed [",", ";"] 0 [.ofMark n '>', .ofMark n '(', .ofMark n ')'] := by
  have hopen : (Token.ofMark n '(').isAnyMark [",", ";"] = false := rfl
  have hclose : Enclosed [",", ";"] 1 [.ofMark n ')'] := Token.enclosed_nil.cons (by simp) rfl
  have hpair : Enclosed [",", ";"] 0 [.ofMark n '(', .ofMark n ')'] := hclose.cons (by simp [hopen]) rfl
  exact hpair.plain rfl rfl rfl

theorem enclosed_head (h : Enclosed [",", ";"] 0 ts) (n : Nat) (g a : String) :
    Enclosed [",", ";"] 0 (.ofWord n "new" :: .ofWord n g :: .ofMark n '<' :: .ofWord n a :: ts) :=
  (((h.plain rfl rfl rfl).plain rfl rfl rfl).plain rfl rfl rfl).plain rfl rfl rfl

theorem declarators_last {c : Cursor} (hvalue : initialValue c = ((), ⟨.ofMark n ';' :: us, e, l, r⟩))
    (first : String) : declarators first c = ([first], ⟨us, e, n, r⟩) := by
  rw [declarators, bind_apply, loop_done (nextDeclarator_end hvalue rfl [first]), bind_apply,
    expectSemicolon_of rfl]
  rfl

theorem declarators_one :
    declarators f ⟨creationTokens n g a [] us, e, l, r⟩ = ([f], ⟨us, e, n, r⟩) :=
  declarators_last ((initialValue_equals rfl).trans
    (skipInitializer_semicolon (enclosed_head (enclosed_call n) n g a) rfl)) f

/-- Behind a comma, the second of two type arguments stands before an angle and begins no declarator. -/
theorem declarators_two :
    declarators f ⟨creationTokens n g a [b] us, e, l, r⟩ = ([f], ⟨us, e, n, r⟩) := by
  have hhead := enclosed_head Token.enclosed_nil n g a
  have hrest : Enclosed [",", ";"] 0 (.ofWord n b :: [.ofMark n '>', .ofMark n '(', .ofMark n ')']) :=
    (enclosed_call n).plain rfl rfl rfl
  have hnext (l : Nat) : startsDeclarator ⟨creationRest n [b] us, e, l, r⟩ = false :=
    Bool.and_false _
  have hsecond : skipInitializer ⟨[.ofWord n b, .ofMark n '>', .ofMark n '(', .ofMark n ')'] ++
      .ofMark n ';' :: us, e, n, r⟩ = ((), ⟨.ofMark n ';' :: us, e, n, r⟩) :=
    skipInitializer_semicolon hrest rfl
  have hfirst := skipInitializer_comma (l := n) hhead rfl (hnext _)
  exact declarators_last ((initialValue_equals rfl).trans (hfirst.trans hsecond)) f

theorem loop_commaNames (hu : u.isAnyMark ["=", ","] = false) (has : ∀ a ∈ as, isKeyword a = false)
    (acc : List String) :
    loop id nextDeclarator acc ⟨Token.commaNames n as ++ u :: us, e, n, r⟩ =
      (acc ++ as, ⟨u :: us, e, n, r⟩) := by
  induction as generalizing acc with
  | nil =>
    have hmarks := isMark_of_isAnyMark hu
    rw [List.append_nil]
    exact loop_done (nextDeclarator_end (initialValue_none (hmarks "=" (by simp))) (hmarks "," (by simp)) acc)
  | cons a as ih =>
    have hcons : Token.commaNames n (a :: as) ++ u :: us =
        .ofMark n ',' :: .ofWord n a :: (Token.commaNames n as ++ u :: us) := rfl
    rw [hcons, loop_again (nextDeclarator_name (initialValue_none rfl) rfl
      (ofWord_name? (has a (by simp))) acc)
      (by simp only [List.length_cons]; omega)]
    rw [Token.ofWord, ih (fun b hb => has b (List.mem_cons_of_mem a hb)), List.append_assoc]
    rfl

/-- With three type arguments or more, all but the first are declared, and no semicolon stands
behind. -/
theorem declarators_cut (hb : isKeyword b = false) (hne : as ≠ [])
    (has : ∀ a ∈ as, isKeyword a = false) :
    declarators f ⟨creationTokens n g a (b :: as) us, e, l, r⟩ =
      (f :: b :: as, ⟨.ofMark n '>' :: .ofMark n '(' :: .ofMark n ')' :: .ofMark n ';' :: us, e, n,
        Fault.semicolonExpected.onLine n :: r⟩) := by
  obtain ⟨c, as, rfl⟩ := List.exists_cons_of_ne_nil hne
  have hhead := enclosed_head Token.enclosed_nil n g a
  have hnext (l : Nat) : startsDeclarator ⟨creationRest n (b :: c :: as) us, e, l, r⟩ = true := by
    have hname : (Token.ofWord n b).isName = true := by simp [Token.isName, ofWord_name? hb]
    have htrue : (Token.ofMark n ',').isAnyMark ["=", ",", ";"] = true := rfl
    exact Bool.and_eq_true_iff.mpr ⟨hname, htrue⟩
  have hvalue : initialValue ⟨creationTokens n g a (b :: c :: as) us, e, l, r⟩ =
      ((), ⟨creationRest n (b :: c :: as) us, e, n, r⟩) :=
    (initialValue_equals rfl).trans (skipInitializer_declarator (l := n) hhead rfl (hnext _))
  have hround : nextDeclarator [f] ⟨creationTokens n g a (b :: c :: as) us, e, l, r⟩ =
      (.again [f, b], ⟨creationRest n (c :: as) us, e, n, r⟩) :=
    nextDeclarator_name hvalue rfl (ofWord_name? hb) [f]
  have hnames : loop id nextDeclarator [f, b] ⟨creationRest n (c :: as) us, e, n, r⟩ =
      (f :: b :: c :: as, ⟨.ofMark n '>' :: .ofMark n '(' :: .ofMark n ')' :: .ofMark n ';' :: us,
        e, n, r⟩) :=
    loop_commaNames rfl has [f, b]
  rw [declarators, bind_apply, loop_again hround
    (by simp only [creationTokens, creationRest_cons, List.length_cons]; omega), hnames, bind_apply,
    expectSemicolon, bind_apply, expectMark_not _ rfl]
  rfl

theorem member_generic (type : Parse (Option TypeExpr)) (nested : Leading → Parse (TypeHead × List Member))
    (typeName : String) (hg : isKeyword g = false) :
    member type nested typeName ⟨.ofWord n g :: .ofMark n '<' :: ts, e, l, r⟩ =
      memberFromType type ⟨[], []⟩ ⟨.ofWord n g :: .ofMark n '<' :: ts, e, l, r⟩ := by
  obtain ⟨hmodifier, htypeWord⟩ := name_alone (n := n) (e := e) (l := l) (r := r) hg n '<'
  have hstart : (Cursor.mk (.ofWord n g :: .ofMark n '<' :: ts) e l r).canStartType = true := by
    simp [Cursor.canStartType, Token.isName, ofWord_name? hg]
  exact member_typed (leading_plain rfl hmodifier) ⟨htypeWord, name_not_dropped hg, rfl, rfl, hstart⟩

/-- The field is read with its type, and with the names that are found in its initial value. -/
theorem member_creation (nested : Leading → Parse (TypeHead × List Member)) (typeName : String)
    {names : List String} {r' : List Diagnostic} (hg : IsName g ∧ isKeyword g = false)
    (has : ∀ x ∈ a :: as, IsName x ∧ isKeyword x = false) (hf : isKeyword f = false)
    (hnames : declarators f ⟨creationTokens n g a as us, e, n, r⟩ = (names, ⟨vs, e, n, r'⟩)) :
    member (typeExpr (room + 2)) nested typeName
        ⟨(TypeExpr.generic n g (a :: as)).tokens n ++
          .ofWord n f :: creationTokens n g a as us, e, l, r⟩ =
      (some (.field ⟨[], [], .generic n g (a :: as), names, n⟩), ⟨vs, e, n, r'⟩) := by
  have hends : EndsType (.ofWord n f) := ⟨rfl, rfl⟩
  have hread : typeExpr (room + 2)
      ⟨(TypeExpr.generic n g (a :: as)).tokens n ++ .ofWord n f :: creationTokens n g a as us, e, l, r⟩ =
        (some ((TypeExpr.generic n g (a :: as)).onLine n),
          ⟨.ofWord n f :: creationTokens n g a as us, e, n, r⟩) :=
    typeExpr_read (TypeExpr.wellSpelled_generic hg has)
      (TypeExpr.depth_generic.trans (Nat.le_add_left 2 room))
      hends rfl
  rw [TypeExpr.tokens_generic] at hread ⊢
  rw [List.cons_append, List.cons_append, member_generic _ _ _ hg.2, ← List.cons_append,
    ← List.cons_append, memberFromType_of hread, creationTokens,
    memberOfType_declarators _ _ _ hf rfl, ← creationTokens, bind_apply, hnames,
    TypeExpr.onLine_generic]
  rfl

theorem member_closeAngle (type : Parse (Option TypeExpr))
    (nested : Leading → Parse (TypeHead × List Member)) (typeName : String) :
    member type nested typeName ⟨.ofMark n '>' :: ts, e, l, r⟩ =
      (none, ⟨ts, e, n, (Fault.invalidMember ">").onLine n :: r⟩) := by
  have hlead : leading ⟨.ofMark n '>' :: ts, e, l, r⟩ =
      (⟨[], []⟩, ⟨.ofMark n '>' :: ts, e, l, r⟩) := leading_plain rfl (Bool.and_false _)
  rw [member, bind_apply, hlead]
  rfl

/-- Parentheses with nothing between them are a list of types from which the type is missing. -/
theorem typeExpr_emptyTuple :
    typeExpr (room + 2) ⟨.ofMark n '(' :: .ofMark n ')' :: .ofMark n ';' :: ts, e, l, r⟩ =
      (some (.tuple [] n), ⟨.ofMark n ';' :: ts, e, n, Fault.typeExpected.onLine n :: r⟩) := by
  have hinner : typeExpr (room + 1) ⟨.ofMark n ')' :: .ofMark n ';' :: ts, e, n, r⟩ =
      (none, ⟨.ofMark n ')' :: .ofMark n ';' :: ts, e, n, Fault.typeExpected.onLine n :: r⟩) := rfl
  have hitem : tupleItem (typeExpr (room + 1)) ⟨.ofMark n ')' :: .ofMark n ';' :: ts, e, n, r⟩ =
      (none, ⟨.ofMark n ')' :: .ofMark n ';' :: ts, e, n, Fault.typeExpected.onLine n :: r⟩) := by
    rw [tupleItem, bind_apply, hinner]
    rfl
  have hround : nextItem (tupleItem (typeExpr (room + 1))) []
        ⟨.ofMark n ')' :: .ofMark n ';' :: ts, e, n, r⟩ =
      (.done [], ⟨.ofMark n ')' :: .ofMark n ';' :: ts, e, n, Fault.typeExpected.onLine n :: r⟩) := by
    rw [nextItem, bind_apply, hitem]
    rfl
  have hopen (us : List Token) : simpleType (typeExpr (room + 1)) ⟨.ofMark n '(' :: us, e, l, r⟩ =
      (do
        let elements ← commaList (tupleItem (typeExpr (room + 1)))
        let _ ← expectMark ")" .closeParenExpected
        pure (some (.tuple elements n)) : Parse (Option TypeExpr)) ⟨us, e, n, r⟩ := rfl
  have hsimple : simpleType (typeExpr (room + 1))
      ⟨.ofMark n '(' :: .ofMark n ')' :: .ofMark n ';' :: ts, e, l, r⟩ =
        (some (.tuple [] n), ⟨.ofMark n ';' :: ts, e, n, Fault.typeExpected.onLine n :: r⟩) := by
    rw [hopen, bind_apply, commaList, loop_done hround]
    rfl
  rw [typeExpr_simple (n := n) rfl hsimple, map_apply, suffixes, loop_done (suffix_done n _ _ rfl)]

/-- No member is read where a name is missing behind the type. -/
theorem member_emptyTuple (nested : Leading → Parse (TypeHead × List Member)) (typeName : String) :
    member (typeExpr (room + 2)) nested typeName
        ⟨.ofMark n '(' :: .ofMark n ')' :: .ofMark n ';' :: ts, e, l, r⟩ =
      (none, ⟨ts, e, n, Fault.nameExpected.onLine n :: Fault.typeExpected.onLine n :: r⟩) := by
  have hlead : leading ⟨.ofMark n '(' :: .ofMark n ')' :: .ofMark n ';' :: ts, e, l, r⟩ =
      (⟨[], []⟩, ⟨.ofMark n '(' :: .ofMark n ')' :: .ofMark n ';' :: ts, e, l, r⟩) :=
    leading_plain rfl rfl
  have hskip (r : List Diagnostic) :
      skipMember ⟨.ofMark n ';' :: ts, e, n, r⟩ = ((), ⟨ts, e, n, r⟩) := loop_done rfl
  have hmember (r : List Diagnostic) : memberOfType (typeExpr (room + 2)) ⟨[], []⟩ (.tuple [] n)
      ⟨.ofMark n ';' :: ts, e, n, r⟩ = (none, ⟨ts, e, n, Fault.nameExpected.onLine n :: r⟩) := by
    rw [memberOfType_apply _ _ _ rfl rfl rfl, namedMember, bind_apply, expectName_not rfl]
    dsimp only
    rw [bind_apply, report_apply, hskip]
    rfl
  rw [member_typed hlead ⟨rfl, rfl, rfl, rfl, rfl⟩, memberFromType_of typeExpr_emptyTuple]
  exact hmember _

/-- Where the names are cut, what stands behind them is taken for further members. -/
theorem members_cut (nested : Leading → Parse (TypeHead × List Member)) (typeName : String)
    (hu : u.isMark closeBrace = true) (acc : List Member) :
    loop id (nextMember (member (typeExpr (room + 2)) nested typeName)) acc
        ⟨.ofMark n '>' :: .ofMark n '(' :: .ofMark n ')' :: .ofMark n ';' :: u :: us, e, l, r⟩ =
      (acc, ⟨u :: us, e, n, Fault.nameExpected.onLine n :: Fault.typeExpected.onLine n ::
        (Fault.invalidMember ">").onLine n :: r⟩) := by
  rw [members_dropped rfl rfl (member_closeAngle _ _ _) (by simp),
    members_dropped rfl rfl (member_emptyTuple _ _) (by simp), members_close _ hu]

def creationNames (f : String) (as : List String) : List String :=
  if as.length ≤ 2 then [f] else f :: as.tail

def creationFaults (as : List String) : List Fault :=
  if as.length ≤ 2 then [] else [.semicolonExpected, .invalidMember ">", .typeExpected, .nameExpected]

theorem members_creation (nested : Leading → Parse (TypeHead × List Member)) (typeName : String)
    (hg : IsName g ∧ isKeyword g = false) (has : ∀ x ∈ a :: as, IsName x ∧ isKeyword x = false)
    (hf : isKeyword f = false) (hu : u.isMark closeBrace = true) :
    members (member (typeExpr (room + 2)) nested typeName)
        ⟨(TypeExpr.generic n g (a :: as)).tokens n ++
          .ofWord n f :: creationTokens n g a as [u], e, l, r⟩ =
      ([.field ⟨[], [], .generic n g (a :: as), creationNames f (a :: as), n⟩],
        ⟨[u], e, n, ((creationFaults (a :: as)).map (Fault.onLine n)).reverse ++ r⟩) := by
  have hless {vs : List Token} (hvs : vs.length ≤ 5) : vs.length <
      ((TypeExpr.generic n g (a :: as)).tokens n ++ .ofWord n f :: creationTokens n g a as [u]).length := by
    simp only [creationTokens, creationRest, List.length_append, List.length_cons, List.length_nil]
    omega
  have hfield {names : List String} {vs : List Token} {r' : List Diagnostic} (hvs : vs.length ≤ 5)
      (hnames : declarators f ⟨creationTokens n g a as [u], e, n, r⟩ = (names, ⟨vs, e, n, r'⟩)) :
      members (member (typeExpr (room + 2)) nested typeName)
        ⟨(TypeExpr.generic n g (a :: as)).tokens n ++
          .ofWord n f :: creationTokens n g a as [u], e, l, r⟩ =
      loop id (nextMember (member (typeExpr (room + 2)) nested typeName))
        [.field ⟨[], [], .generic n g (a :: as), names, n⟩] ⟨vs, e, n, r'⟩ := by
    have hless := hless hvs
    have hmember : member (typeExpr (room + 2)) nested typeName
        ⟨(TypeExpr.generic n g (a :: as)).tokens n ++
          .ofWord n f :: creationTokens n g a as [u], e, l, r⟩ =
          (some (.field ⟨[], [], .generic n g (a :: as), names, n⟩), ⟨vs, e, n, r'⟩) :=
      member_creation nested typeName hg has hf hnames
    rw [TypeExpr.tokens_generic, List.cons_append] at hless hmember ⊢
    exact members_next rfl rfl hmember hless []
  cases as with
  | nil => exact (hfield (by simp) declarators_one).trans (members_close _ hu _)
  | cons b as =>
    cases as with
    | nil => exact (hfield (by simp) declarators_two).trans (members_close _ hu _)
    | cons c as =>
      have hnames : declarators f ⟨creationTokens n g a (b :: c :: as) [u], e, n, r⟩ =
          (f :: b :: c :: as, ⟨[.ofMark n '>', .ofMark n '(', .ofMark n ')', .ofMark n ';', u], e, n,
            Fault.semicolonExpected.onLine n :: r⟩) :=
        declarators_cut (has b (by simp)).2 (List.cons_ne_nil c as) fun x hx => (has x (by simp_all)).2
      rw [hfield (by simp) hnames, members_cut nested typeName hu]
      simp [creationNames, creationFaults]

end Parse

open Parse

def genericText (g : String) (as : List String) : String := g ++ "<" ++ ", ".intercalate as ++ ">"

def creationSource (g : String) (as : List String) (f : String) : String :=
  "class C \x7b " ++ genericText g as ++ " " ++ f ++ " = new " ++ genericText g as ++ "(); \x7d"

namespace Token

theorem scan_openedClass (rest : List Char) :
    scan 1 true ("class C \x7b ".toList ++ rest) =
      before (classHead ++ [.ofMark 1 '\x7b']) (scan 1 false rest) := by
  have htext : "class C \x7b ".toList ++ rest = "class C ".toList ++ '\x7b' :: ' ' :: rest := rfl
  rw [htext, scan_class, scan_mark 1 false (by decide), scan_space, before_before]
  rfl

theorem scan_equalsNew (line : Nat) (rest : List Char) :
    scan line false (" = new ".toList ++ rest) =
      before [.ofMark line '=', .ofWord line "new"] (scan line false rest) := by
  have htext : " = new ".toList ++ rest = ' ' :: '=' :: ' ' :: ("new".toList ++ ' ' :: rest) := rfl
  rw [htext, scan_space, scan_equals line false (by simp) (by simp), scan_space,
    scan_word line false (by decide) (endsName_cons (by decide) _), scan_space, before_before]
  rfl

theorem scan_call (line : Nat) :
    scan line false "(); \x7d".toList =
      ([.ofMark line '(', .ofMark line ')', .ofMark line ';',
        .ofMark line '\x7d', ⟨.done, line⟩], []) := by
  have htext : "(); \x7d".toList = ['(', ')', ';', ' ', '\x7d'] := by decide
  rw [htext, scan_mark line false (by decide), scan_mark line false (by decide),
    scan_mark line false (by decide), scan_space, scan_mark line false (by decide), scan_nil]
  rfl

theorem scan_creationSource {g a f : String} {as : List String} (hg : IsName g ∧ isKeyword g = false)
    (has : ∀ x ∈ a :: as, IsName x ∧ isKeyword x = false) (hf : IsName f) :
    ofSource (creationSource g (a :: as) f) =
      (classHead ++ .ofMark 1 '\x7b' :: ((TypeExpr.generic 1 g (a :: as)).tokens 1 ++
        .ofWord 1 f :: creationTokens 1 g a as [.ofMark 1 '\x7d']) ++ [⟨.done, 1⟩], []) := by
  have hspelled : (TypeExpr.generic 1 g (a :: as)).WellSpelled := TypeExpr.wellSpelled_generic hg has
  have hgeneric : genericText g (a :: as) = (TypeExpr.generic 1 g (a :: as)).text :=
    (TypeExpr.text_generic (List.cons_ne_nil a as)).symm
  have hsource : creationSource g (a :: as) f =
      "class C \x7b " ++ (TypeExpr.generic 1 g (a :: as)).text ++ " " ++ f ++ " = new " ++
        (TypeExpr.generic 1 g (a :: as)).text ++ "(); \x7d" := by
    rw [← hgeneric]
    rfl
  have hspace (cs : List Char) : " ".toList ++ cs = ' ' :: cs := rfl
  have hvalue (cs : List Char) : EndsName (" = new ".toList ++ cs) := endsName_cons (c := ' ') (by decide) _
  have hcall : (TypeExpr.generic 1 g (a :: as)).EndsBefore "(); \x7d".toList :=
    TypeExpr.endsBefore_cons (c := '(') _ (by decide) (by decide) _
  rw [ofSource, hsource]
  simp only [String.toList_append, List.append_assoc, hspace, List.cons_append]
  rw [scan_openedClass, TypeExpr.scan_text hspelled 1 (TypeExpr.endsBefore_cons _ (by decide) (by decide) _),
    scan_space, scan_word 1 false hf (hvalue _), scan_equalsNew, TypeExpr.scan_text hspelled 1 hcall,
    scan_call]
  simp only [before, TypeExpr.tokens_generic, creationTokens, creationRest, List.append_assoc,
    List.cons_append, List.nil_append]
  rfl

end Token

/-- The initial value of a field is passed over whole just if it creates a type with at most two type
arguments. With more of them, all but the first are declared as further names of the field. -/
theorem SourceUnit.ofSource_creation {g f : String} {as : List String} (hne : as ≠ [])
    (hg : IsName g ∧ isKeyword g = false) (has : ∀ x ∈ as, IsName x ∧ isKeyword x = false)
    (hf : IsName f ∧ isKeyword f = false) :
    SourceUnit.ofSource (creationSource g as f) =
      (⟨[], [.type ⟨.plainClass, "C", [], [], [], [], [], 1⟩
        [.field ⟨[], [], .generic 1 g as, creationNames f as, 1⟩]]⟩,
        (creationFaults as).map (Fault.onLine 1)) := by
  obtain ⟨a, as, rfl⟩ := List.exists_cons_of_ne_nil hne
  have hmembers : Parse.members (member (typeExpr 127) (typeDecl 127) "C")
        ⟨(TypeExpr.generic 1 g (a :: as)).tokens 1 ++
          .ofWord 1 f :: creationTokens 1 g a as [.ofMark 1 '\x7d'], 1, 1, []⟩ =
      ([.field ⟨[], [], .generic 1 g (a :: as), creationNames f (a :: as), 1⟩],
        ⟨[.ofMark 1 '\x7d'], 1, 1, ((creationFaults (a :: as)).map (Fault.onLine 1)).reverse ++ []⟩) :=
    members_creation _ "C" hg has hf.2 rfl
  have hsource := ofSource_class (Token.scan_creationSource hg has hf.1)
    (typeDecl_members ⟨[], []⟩ "C" hmembers rfl rfl)
  rwa [List.append_nil, List.reverse_reverse] at hsource

theorem SourceUnit.ofSource_creation_pair :
    SourceUnit.ofSource "class C \x7b G<A, B> f = new G<A, B>(); \x7d" =
      (⟨[], [.type ⟨.plainClass, "C", [], [], [], [], [], 1⟩
        [.field ⟨[], [], .generic 1 "G" ["A", "B"], ["f"], 1⟩]]⟩, []) := by
  have hsource : creationSource "G" ["A", "B"] "f" = "class C \x7b G<A, B> f = new G<A, B>(); \x7d" := by
    decide +kernel
  rw [← hsource]
  exact SourceUnit.ofSource_creation (List.cons_ne_nil "A" ["B"]) (by decide) (by decide) (by decide)

theorem SourceUnit.ofSource_creation_triple :
    (SourceUnit.ofSource "class C \x7b G<A, B, D> f = new G<A, B, D>(); \x7d").2.map (·.code) =
        ["CS1002", "CS1519", "CS1031", "CS1001"] ∧
      SourceUnit.ofSource "class C \x7b G<A, B, D> f = new G<A, B, D>(); \x7d" ≠
        (⟨[], [.type ⟨.plainClass, "C", [], [], [], [], [], 1⟩
          [.field ⟨[], [], .generic 1 "G" ["A", "B", "D"], ["f"], 1⟩]]⟩, []) := by
  have hcodes : (SourceUnit.ofSource "class C \x7b G<A, B, D> f = new G<A, B, D>(); \x7d").2.map (·.code) =
      ["CS1002", "CS1519", "CS1031", "CS1001"] := by
    decide +kernel
  refine ⟨hcodes, fun hread => ?_⟩
  rw [hread] at hcodes
  cases hcodes

end DataClasses
