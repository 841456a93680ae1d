import DataClasses.Proofs.Declaration.Sources
import DataClasses.Proofs.Declaration.SpelledTypes

/-!
# Sources of one class

A source that is one class on one line. If the class has a field, the field is read with the type
that its text spells, whatever type this is.
-/

set_option autoImplicit false

namespace DataClasses

open Identifier (isKeyword)
open Token (before scan)

namespace Token

def classHead : List Token := [.ofWord 1 "class", .ofWord 1 "C"]

theorem scan_class (rest : List Char) :
    scan 1 true ("class C ".toList ++ rest) = before classHead (scan 1 false rest) := by
  have hends (cs : List Char) : EndsName (' ' :: cs) := endsName_cons (by decide) cs
  have htext : "class C ".toList ++ rest = "class".toList ++ ' ' :: ("C".toList ++ ' ' :: rest) := rfl
  rw [htext, scan_word 1 true (by decide) (hends _), scan_space, scan_word 1 false (by decide) (hends _),
    scan_space, before_before]
  rfl

end Token

namespace Parse

variable {e k l l' n room : Nat} {r : List Diagnostic} {t u v : Token} {ts us vs : List Token}

theorem class_atModifier : (Cursor.mk (.ofWord n "class" :: ts) e l r).atModifier = false := by
  have hwords : (Token.ofWord n "class").isOneOf modifierWords = false ∧
      (Token.ofWord n "class").isOneOf contextualWords = false := ⟨rfl, rfl⟩
  simp [Cursor.atModifier, hwords.1, hwords.2]

theorem declaration_bareClass (inner : Inner) {enclosed : Bool} (acc : List Declaration) :
    declaration inner enclosed acc ⟨.ofWord n "class" :: ts, e, l, r⟩ =
      ((fun x => .again (acc ++ [.type x.1 x.2])) <$> inner.typeDecl ⟨[], []⟩ :
        Parse (Round (List Declaration) (List Declaration))) ⟨.ofWord n "class" :: ts, e, l, r⟩ := by
  have hends : ((Cursor.mk (.ofWord n "class" :: ts) e l r).ahead 0).isDone = false ∧
      ((Cursor.mk (.ofWord n "class" :: ts) e l r).ahead 0).isMark closeBrace = false := ⟨rfl, rfl⟩
  have hnone : (Token.ofWord n "class").isWord "namespace" = false ∧
      (Token.ofWord n "class").isWord "extern" = false ∧
      (Token.ofWord n "class").isWord "delegate" = false := ⟨rfl, rfl, rfl⟩
  have hat : (Cursor.mk (.ofWord n "class" :: ts) e l r).atImport = false ∧
      (Cursor.mk (.ofWord n "class" :: ts) e l r).atTypeWord = true := ⟨rfl, rfl⟩
  rw [declaration, bind_apply, get_apply]
  simp only [hends.1, hends.2, Bool.false_eq_true, if_false]
  simp only [ahead_zero, hnone.1, hnone.2.1, hat.1, Bool.false_and, Bool.false_eq_true, if_false]
  rw [bind_apply, leading_plain rfl class_atModifier, bind_apply, get_apply]
  simp only [ahead_zero, hnone.2.2, hat.2, Bool.false_eq_true, if_false, if_true]
  rfl

theorem sourceUnit_class (ts : List Token) :
    sourceUnit ⟨.ofWord n "class" :: ts, e, l, r⟩ =
      (do
        let members ← declarations ⟨typeExpr 128, typeDecl 128, scope 128⟩ false
        pure ⟨[], members⟩ : Parse SourceUnit) ⟨.ofWord n "class" :: ts, e, l, r⟩ := by
  have himports : imports (typeExpr depthLimit) ⟨.ofWord n "class" :: ts, e, l, r⟩ =
      ([], ⟨.ofWord n "class" :: ts, e, l, r⟩) := loop_done (nextImport_done _ [] rfl)
  rw [sourceUnit, bind_apply, himports]
  rfl

/-- A source that is one class to its end. -/
theorem sourceUnit_oneClass {head : TypeHead} {members : List Member} {m : Nat}
    {r' : List Diagnostic}
    (h : typeDecl 128 ⟨[], []⟩ ⟨.ofWord n "class" :: ts, e, l, r⟩ =
      ((head, members), ⟨[], e, m, r'⟩)) :
    sourceUnit ⟨.ofWord n "class" :: ts, e, l, r⟩ =
      (⟨[], [.type head members]⟩, ⟨[], e, m, r'⟩) := by
  have hround : declaration ⟨typeExpr 128, typeDecl 128, scope 128⟩ false []
      ⟨.ofWord n "class" :: ts, e, l, r⟩ = (.again [.type head members], ⟨[], e, m, r'⟩) := by
    rw [declaration_bareClass, map_apply]
    dsimp only
    rw [h]
    rfl
  rw [sourceUnit_class, bind_apply, declarations, loop_again hround (by simp)]
  rw [loop_done (a := [.type head members]) (d := ⟨[], e, m, r'⟩) rfl]
  rfl

theorem sourceUnit_faulty
    (h : (typeDecl 128 ⟨[], []⟩ ⟨.ofWord n "class" :: ts, e, l, r⟩).2.Faulty) :
    (sourceUnit ⟨.ofWord n "class" :: ts, e, l, r⟩).2.Faulty := by
  have hinner : Inner.Grow ⟨typeExpr 128, typeDecl 128, scope 128⟩ :=
    ⟨typeExpr_grows _, typeDecl_grows _, scope_grows _⟩
  rw [sourceUnit_class, bind_apply]
  refine (pure_grows _).faulty (loop_faulty (declaration_grows hinner false) ?_)
  rw [declaration_bareClass, map_apply]
  dsimp only
  exact h

/-- The words that begin something other than a type where a member stands, though they may be names. -/
def declarationWords : List String := ["record", "partial", "async", "required", "file"]

theorem ofWord_isOneOf {word : String} {words : List String} (h : word ∉ words) :
    (Token.ofWord n word).isOneOf words = false := by
  rw [Token.isOneOf, List.any_eq_false]
  rintro w hw
  have hne : word ≠ w := fun heq => h (heq ▸ hw)
  simpa [Token.ofWord, Token.isWord] using hne

theorem ofWord_isOneOf_reserved {word : String} {words : List String} (h : isKeyword word = false)
    (hwords : ∀ w ∈ words, isKeyword w = true) : (Token.ofWord n word).isOneOf words = false :=
  ofWord_isOneOf fun hmem => by simp [hwords word hmem] at h

/-- A name does not begin a declaration that is passed over. -/
theorem name_not_dropped {word : String} (h : isKeyword word = false) :
    (Token.ofWord n word).isOneOf ["event", "delegate", "implicit", "explicit"] = false :=
  ofWord_isOneOf_reserved h (by decide)

/-- A name before a mark is neither a modifier nor the word of a type declaration. -/
theorem name_alone {word : String} (h : isKeyword word = false) (k : Nat) (m : Char) :
    (Cursor.mk (.ofWord n word :: .ofMark k m :: ts) e l r).atModifier = false ∧
      (Cursor.mk (.ofWord n word :: .ofMark k m :: ts) e l r).atTypeWord = false := by
  have hmark : (Token.ofMark k m).isIdentifier = false ∧ (Token.ofMark k m).isName = false ∧
      (Token.ofMark k m).isOneOf ["class", "struct"] = false := ⟨rfl, rfl, rfl⟩
  constructor
  · simp only [Cursor.atModifier, ahead_zero, ahead_one, hmark.1,
      ofWord_isOneOf_reserved h (by decide : ∀ w ∈ modifierWords, isKeyword w = true), Bool.false_and,
      Bool.or_false]
  · have htypeWords : ∀ w ∈ ["class", "struct", "interface", "enum"], isKeyword w = true := by decide
    simp only [Cursor.atTypeWord, ahead_zero, ahead_one, hmark.2.1, hmark.2.2,
      ofWord_isOneOf_reserved h htypeWords, Bool.or_false, Bool.and_false]

def startingWords : List String :=
  modifierWords ++ contextualWords ++ "record" :: ["class", "struct", "interface", "enum"] ++
    ["event", "delegate", "implicit", "explicit"]

theorem startingWords_reserved : ∀ w ∈ startingWords,
    (isKeyword w = true ∨ w ∈ declarationWords) ∧ w ∉ predefinedTypes ∧ w ≠ "global" := by decide

theorem not_mem_startingWords {t : TypeExpr} {word : String}
    (hwords : ∀ w ∈ t.words, w ∉ declarationWords)
    (h : word ∈ predefinedTypes ∨ isKeyword word = false ∧ (word = "global" ∨ word ∈ t.words)) :
    word ∉ startingWords := by
  intro hstarting
  obtain ⟨hreserved, hpredefined, hglobal⟩ := startingWords_reserved word hstarting
  rcases h with h | ⟨hkeyword, h | h⟩
  · exact hpredefined h
  · exact hglobal h
  · rcases hreserved with hreserved | hreserved
    · simp [hkeyword] at hreserved
    · exact hwords word h hreserved

/-- A place where a type stands that begins neither an attribute, a modifier nor anything that is no
member with a type. `typeName` is the class around it. -/
structure Cursor.StartsType (typeName : String) (c : Cursor) : Prop where
  bracket : (c.ahead 0).isMark "[" = false
  modifier : c.atModifier = false
  typeWord : c.atTypeWord = false
  dropped : (c.ahead 0).isOneOf ["event", "delegate", "implicit", "explicit"] = false
  finalizer : (c.ahead 0).isMark "~" = false
  call : ((c.ahead 0).identifier? == some typeName && (c.ahead 1).isMark "(") = false
  canStart : c.canStartType = true

theorem startsType_of {typeName : String} (hnone : t.isOneOf startingWords = false)
    (hbracket : t.isMark "[" = false) (hfinalizer : t.isMark "~" = false)
    (hcall : (t.identifier? == some typeName && u.isMark "(") = false)
    (hstart : (Cursor.mk (t :: u :: ts) e l r).canStartType = true) :
    (Cursor.mk (t :: u :: ts) e l r).StartsType typeName := by
  rw [startingWords, Token.isOneOf, List.any_append, List.any_append, List.any_append, List.any_cons,
    Bool.or_eq_false_iff, Bool.or_eq_false_iff, Bool.or_eq_false_iff, Bool.or_eq_false_iff] at hnone
  obtain ⟨⟨⟨hmodifiers, hcontextual⟩, hrecord, hclass⟩, hdropped⟩ := hnone
  have hmodifier : (Cursor.mk (t :: u :: ts) e l r).atModifier = false := by
    simp only [Cursor.atModifier, ahead_zero, Token.isOneOf, hmodifiers, hcontextual, Bool.and_false,
      Bool.or_false]
  have htypeWord : (Cursor.mk (t :: u :: ts) e l r).atTypeWord = false := by
    simp only [Cursor.atTypeWord, ahead_zero, Token.isOneOf, hclass, hrecord, Bool.false_and, Bool.or_false]
  exact ⟨hbracket, hmodifier, htypeWord, hdropped, hfinalizer, hcall, hstart⟩

theorem startsType_spelled (typeName : String) {t : TypeExpr} (ht : t.WellSpelled)
    (hwords : ∀ w ∈ t.words, w ∉ declarationWords) (hv : v.isMark "(" = false) :
    (Cursor.mk (t.tokens n ++ v :: vs) e l r).StartsType typeName := by
  obtain ⟨w, next, more, htokens, hw⟩ := tokens_head ht n hv vs
  rw [htokens]
  rcases hw with rfl | ⟨hcall, word, rfl, hword⟩
  · exact startsType_of rfl rfl rfl rfl rfl
  · refine startsType_of (ofWord_isOneOf (not_mem_startingWords hwords hword)) rfl rfl
      (by rw [hcall, Bool.and_false]) ?_
    rcases hword with hword | ⟨hkeyword, -⟩
    · have hone : (Token.ofWord n word).isOneOf predefinedTypes = true := by
        rw [Token.isOneOf, List.any_eq_true]
        exact ⟨word, hword, by simp [Token.ofWord, Token.isWord]⟩
      simp [Cursor.canStartType, hone]
    · simp [Cursor.canStartType, Token.isName, ofWord_name? hkeyword]

theorem attributes_of_ahead {c : Cursor} (h : (c.ahead 0).isMark "[" = false) : attributes c = ([], c) := by
  refine loop_done ?_
  rw [bind_apply, atMark_apply]
  simp only [h]
  rfl

theorem member_startsType {type : Parse (Option TypeExpr)}
    {nested : Leading → Parse (TypeHead × List Member)} {typeName : String} {c d : Cursor} {lead : Leading}
    (hlead : leading c = (lead, d)) (hd : d.StartsType typeName) :
    member type nested typeName c = memberFromType type lead d :=
  member_apply hlead hd.typeWord hd.dropped hd.finalizer hd.call hd.canStart

/-- A name behind the type is that of the member. -/
theorem memberOfType_named (type : Parse (Option TypeExpr)) (lead : Leading) (x : TypeExpr) {name : String}
    (hname : isKeyword name = false) (ht : t.isMark "." = false) :
    memberOfType type lead x ⟨.ofWord n name :: t :: ts, e, l, r⟩ =
      (some <$> typedMember type lead x name : Parse (Option Member)) ⟨t :: ts, e, n, r⟩ := by
  have hword : (Token.ofWord n name).line = n := rfl
  rw [memberOfType_apply type lead x rfl (ofWord_isWord hname (by decide)) (ofWord_isWord hname (by decide)),
    namedMember, bind_apply, expectName_of (ofWord_name? hname)]
  dsimp only
  rw [bind_apply, memberName_plain name ht, hword]

theorem memberOfType_field (type : Parse (Option TypeExpr)) (lead : Leading) (x : TypeExpr) (name : String)
    (hu : u.isMark "=" = false) :
    memberOfType type lead x ⟨.ofName n name :: .ofMark n ';' :: u :: ts, e, l, r⟩ =
      (some (.field ⟨lead.attributes, lead.modifiers, x, [name], x.line⟩), ⟨u :: ts, e, n, r⟩) :=
  memberOfType_spelled type { accessors := false } lead x name hu

/-- A member that begins with the text of a type is one with a type. -/
theorem member_spelled (type : Parse (Option TypeExpr)) (nested : Leading → Parse (TypeHead × List Member))
    (typeName : String) {t : TypeExpr} (ht : t.WellSpelled)
    (hwords : ∀ w ∈ t.words, w ∉ declarationWords)
    (hv : v.isMark "(" = false) :
    member type nested typeName ⟨t.tokens n ++ v :: vs, e, l, r⟩ =
      memberFromType type ⟨[], []⟩ ⟨t.tokens n ++ v :: vs, e, l, r⟩ := by
  have hstart : (Cursor.mk (t.tokens n ++ v :: vs) e l r).StartsType typeName :=
    startsType_spelled typeName ht hwords hv
  exact member_startsType (leading_spelled (attributes_of_ahead hstart.bracket)
    (modifiers_none hstart.modifier))
    hstart

theorem members_next {item : Parse (Option Member)} {x : Member} {d : Cursor}
    (ht : t.isAnyMark [closeBrace, ";"] = false) (hdone : t.isDone = false)
    (hitem : item ⟨t :: ts, e, l, r⟩ = (some x, d)) (hless : d.rest.length < (t :: ts).length)
    (acc : List Member) :
    loop id (nextMember item) acc ⟨t :: ts, e, l, r⟩ = loop id (nextMember item) (acc ++ [x]) d := by
  have hmarks := isMark_of_isAnyMark ht
  exact loop_again (nextMember_found hdone (hmarks closeBrace (by simp))
    (hmarks ";" (by simp)) hitem hless acc)
    hless

/-- What is no member that is kept is passed over. -/
theorem members_dropped {item : Parse (Option Member)} {d : Cursor}
    (ht : t.isAnyMark [closeBrace, ";"] = false) (hdone : t.isDone = false)
    (hitem : item ⟨t :: ts, e, l, r⟩ = (none, d)) (hless : d.rest.length < (t :: ts).length)
    (acc : List Member) :
    loop id (nextMember item) acc ⟨t :: ts, e, l, r⟩ = loop id (nextMember item) acc d := by
  have hmarks := isMark_of_isAnyMark ht
  have hmoved : (d.rest.length == ts.length + 1) = false := by
    rw [List.length_cons] at hless
    simpa using hless.ne
  have hround : nextMember item acc ⟨t :: ts, e, l, r⟩ = (.again acc, d) := by
    rw [nextMember_item hdone (hmarks closeBrace (by simp)) (hmarks ";" (by simp)), bind_apply, hitem,
      bind_apply, get_apply]
    simp only [hmoved, Bool.false_eq_true, if_false, Option.toList_none, List.append_nil]
    rfl
  exact loop_again hround hless

theorem members_close (item : Parse (Option Member)) (hu : u.isMark closeBrace = true) (acc : List Member) :
    loop id (nextMember item) acc ⟨u :: us, e, l, r⟩ = (acc, ⟨u :: us, e, l, r⟩) := by
  refine loop_done ?_
  rw [nextMember, bind_apply, get_apply]
  simp only [ahead_zero, hu, Bool.or_true, if_true]
  rfl

theorem members_one {item : Parse (Option Member)} {x : Member} {r' : List Diagnostic}
    (ht : t.isAnyMark [closeBrace, ";"] = false) (hdone : t.isDone = false)
    (hitem : item ⟨t :: ts, e, l, r⟩ = (some x, ⟨u :: us, e, l', r'⟩)) (hless : us.length < ts.length)
    (hu : u.isMark closeBrace = true) :
    members item ⟨t :: ts, e, l, r⟩ = ([x], ⟨u :: us, e, l', r'⟩) := by
  rw [members, members_next ht hdone hitem (Nat.succ_lt_succ hless), members_close _ hu]
  rfl

theorem tokens_plain {t : TypeExpr} (h : t.WellSpelled) (n : Nat) (hv : v.isMark "(" = false)
    (vs : List Token) :
    ∃ w u us, t.tokens n ++ v :: vs = w :: u :: us ∧ w.isAnyMark [closeBrace, ";"] = false ∧
      w.isDone = false := by
  obtain ⟨w, u, us, htokens, rfl | ⟨-, word, rfl, -⟩⟩ := tokens_head h n hv vs
  · exact ⟨_, u, us, htokens, rfl, rfl⟩
  · exact ⟨_, u, us, htokens, rfl, rfl⟩

/-- A field is what its type is read as, where a type may begin. -/
theorem members_fieldRead {type : Parse (Option TypeExpr)}
    (nested : Leading → Parse (TypeHead × List Member))
    {typeName : String} {t x : TypeExpr} {r' : List Diagnostic} (ht : t.WellSpelled) (name : String)
    (hstart : (Cursor.mk (t.tokens n ++ [.ofName n name, .ofMark n ';', .ofMark n '\x7d']) e l r).StartsType
      typeName)
    (hread : type ⟨t.tokens n ++ [.ofName n name, .ofMark n ';', .ofMark n '\x7d'], e, l, r⟩ =
      (some x, ⟨[.ofName n name, .ofMark n ';', .ofMark n '\x7d'], e, n, r'⟩)) :
    members (member type nested typeName)
        ⟨t.tokens n ++ [.ofName n name, .ofMark n ';', .ofMark n '\x7d'], e, l, r⟩ =
      ([.field ⟨[], [], x, [name], x.line⟩], ⟨[.ofMark n '\x7d'], e, n, r'⟩) := by
  have hfield : member type nested typeName
      ⟨t.tokens n ++ [.ofName n name, .ofMark n ';', .ofMark n '\x7d'], e, l, r⟩ =
        (some (.field ⟨[], [], x, [name], x.line⟩), ⟨[.ofMark n '\x7d'], e, n, r'⟩) := by
    have hlead := leading_spelled (attributes_of_ahead hstart.bracket) (modifiers_none hstart.modifier)
    rw [member_startsType hlead hstart, memberFromType_of hread]
    exact memberOfType_field type ⟨[], []⟩ x name rfl
  obtain ⟨w, next, more, htokens, hw, hdone⟩ :=
    tokens_plain ht n (Token.ofName_isMark "(") [.ofMark n ';', .ofMark n '\x7d']
  rw [htokens] at hfield ⊢
  exact members_one hw hdone hfield (by simp) rfl

theorem members_field (nested : Leading → Parse (TypeHead × List Member)) (typeName : String)
    {t : TypeExpr}
    (ht : t.WellSpelled) (hwords : ∀ w ∈ t.words, w ∉ declarationWords) (hdepth : t.depth ≤ room + 1)
    (name : String) :
    members (member (typeExpr (room + 1)) nested typeName)
        ⟨t.tokens n ++ [.ofName n name, .ofMark n ';', .ofMark n '\x7d'], e, l, r⟩ =
      ([.field ⟨[], [], t.onLine n, [name], n⟩], ⟨[.ofMark n '\x7d'], e, n, r⟩) := by
  have hkeeps : KeepsPart (.ofName n name) := Token.ofName_isAnyMark _
  have hfield := members_fieldRead (e := e) (l := l) (r := r) nested ht name
    (startsType_spelled typeName ht hwords (Token.ofName_isMark "("))
    (typeExpr_read ht hdepth (endsType_ofName n name) hkeeps)
  rwa [TypeExpr.line_onLine] at hfield

/-- A class of which nothing but its members is written. -/
theorem typeDecl_members (lead : Leading) (className : String) {k : Nat} {ms : List Member}
    {r' : List Diagnostic}
    (hmembers : members (member (typeExpr room) (typeDecl room) className) ⟨ts, e, k, r⟩ =
      (ms, ⟨u :: us, e, l', r'⟩)) (hu : u.isMark closeBrace = true)
    (hus : ((Cursor.mk us e u.line r').ahead 0).isMark ";" = false) :
    typeDecl (room + 1) lead ⟨.ofWord n "class" :: .ofName n className :: .ofMark k '\x7b' :: ts, e,
      l, r⟩ =
      ((⟨.plainClass, className, [], lead.modifiers, lead.attributes, [], [], n⟩, ms),
        ⟨us, e, u.line, r'⟩) := by
  have hkind : typeKind ⟨.ofWord n "class" :: .ofName n className :: .ofMark k '\x7b' :: ts, e, l, r⟩ =
      (.plainClass, ⟨.ofName n className :: .ofMark k '\x7b' :: ts, e, n, r⟩) := rfl
  rw [typeDecl, typeDeclWith_apply _ _ _ hkind (.inr rfl), bind_apply, typeBody_brace _ (by decide),
    bind_apply, hmembers, bind_apply, expectMark_of _ hu, bind_apply, eatMark_of_ahead hus]
  rfl

theorem typeDecl_field (lead : Leading) (className : String) {t : TypeExpr} (ht : t.WellSpelled)
    (hwords : ∀ w ∈ t.words, w ∉ declarationWords) (hdepth : t.depth ≤ room + 1) (name : String) :
    typeDecl (room + 2) lead ⟨.ofWord n "class" :: .ofName n className :: .ofMark n '\x7b' ::
        (t.tokens n ++ [.ofName n name, .ofMark n ';', .ofMark n '\x7d']), e, l, r⟩ =
      ((⟨.plainClass, className, [], lead.modifiers, lead.attributes, [], [], n⟩,
        [.field ⟨[], [], t.onLine n, [name], n⟩]), ⟨[], e, n, r⟩) :=
  typeDecl_members lead className (members_field _ className ht hwords hdepth name) rfl rfl

end Parse

open Parse

/-- A source of one class declares what the class is read as, and reports what reading it does. -/
theorem SourceUnit.ofSource_class {text : String} {ts : List Token} {e l : Nat} {head : TypeHead}
    {members : List Member} {r : List Diagnostic}
    (htokens : Token.ofSource text = (.ofWord 1 "class" :: ts ++ [⟨.done, e⟩], []))
    (hclass : typeDecl 128 ⟨[], []⟩ ⟨.ofWord 1 "class" :: ts, e, 1, []⟩ =
      ((head, members), ⟨[], e, l, r⟩)) :
    SourceUnit.ofSource text = (⟨[], [.type head members]⟩, r.reverse) := by
  rw [ofSource_tokens htokens, sourceUnit_oneClass hclass]

theorem Token.scan_fieldSource {t : TypeExpr} (ht : t.WellSpelled) :
    Token.ofSource ("class C \x7b " ++ t.text ++ " x; \x7d") =
      (classHead ++ .ofMark 1 '\x7b' :: (t.tokens 1 ++ [.ofWord 1 "x", .ofMark 1 ';', .ofMark 1 '\x7d']) ++
        [⟨.done, 1⟩], []) := by
  have htext : ("class C \x7b " ++ t.text ++ " x; \x7d").toList =
      "class C ".toList ++ '\x7b' :: ' ' :: (t.text.toList ++
        ' ' :: ("x".toList ++ ';' :: ' ' :: ['\x7d'])) := by
    simp
  rw [ofSource, htext, scan_class, scan_mark 1 false (by decide), scan_space,
    TypeExpr.scan_text ht 1 (TypeExpr.endsBefore_cons t (by decide) (by decide) _), scan_space,
    scan_word 1 false (by decide) (endsName_cons (c := ';') (by decide) _),
    scan_mark 1 false (by decide), scan_space,
    scan_mark 1 false (by decide), scan_nil]
  simp [before, Token.ofMark, Token.ofWord]

/-- The source of a field declares what its type is read as, and reports what reading it does. -/
theorem SourceUnit.ofSource_fieldRead {t x : TypeExpr} {r : List Diagnostic} (ht : t.WellSpelled)
    (hstart : (Cursor.mk (t.tokens 1 ++ [.ofName 1 "x", .ofMark 1 ';', .ofMark 1 '\x7d']) 1 1 []).StartsType
      "C")
    (hread : typeExpr 127 ⟨t.tokens 1 ++ [.ofName 1 "x", .ofMark 1 ';', .ofMark 1 '\x7d'], 1, 1, []⟩ =
      (some x, ⟨[.ofName 1 "x", .ofMark 1 ';', .ofMark 1 '\x7d'], 1, 1, r⟩)) :
    SourceUnit.ofSource ("class C \x7b " ++ t.text ++ " x; \x7d") =
      (⟨[], [.type ⟨.plainClass, "C", [], [], [], [], [], 1⟩
        [.field ⟨[], [], x, ["x"], x.line⟩]]⟩,
        r.reverse) := by
  have hmembers := members_fieldRead (typeDecl 127) ht "x" hstart hread
  exact ofSource_class (Token.scan_fieldSource ht) (typeDecl_members ⟨[], []⟩ "C" hmembers rfl rfl)

/-- The text of a type is read back as the type, all of it on the line it stands on. -/
theorem SourceUnit.ofSource_fieldType {t : TypeExpr} (ht : t.WellSpelled)
    (hwords : ∀ w ∈ t.words, w ∉ ["record", "partial", "async", "required", "file"])
    (hdepth : t.depth ≤ 127) :
    SourceUnit.ofSource ("class C \x7b " ++ t.text ++ " x; \x7d") =
        (⟨[], [.type ⟨.plainClass, "C", [], [], [], [], [], 1⟩
          [.field ⟨[], [], t.onLine 1, ["x"], 1⟩]]⟩, []) ∧
      (t.onLine 1).unlined = t.unlined := by
  have hunit : sourceUnit ⟨Token.classHead ++ .ofMark 1 '\x7b' ::
      (t.tokens 1 ++ [.ofWord 1 "x", .ofMark 1 ';', .ofMark 1 '\x7d']), 1, 1, []⟩ =
        (⟨[], [.type ⟨.plainClass, "C", [], [], [], [], [], 1⟩
          [.field ⟨[], [], t.onLine 1, ["x"], 1⟩]]⟩, ⟨[], 1, 1, []⟩) :=
    sourceUnit_oneClass (typeDecl_field ⟨[], []⟩ "C" ht hwords hdepth "x")
  refine ⟨?_, TypeExpr.unlined_onLine 1 t⟩
  rw [ofSource_tokens (Token.scan_fieldSource ht), hunit]
  rfl

theorem SourceUnit.ofSource_fieldType_nested :
    SourceUnit.ofSource "class C \x7b global::A<(int, B?)[,], string>.D[]? x; \x7d" =
      (⟨[], [.type ⟨.plainClass, "C", [], [], [], [], [], 1⟩ [.field ⟨[], [],
        .nullable (.array (.named [("A", [.array (.tuple [.predefined "int" 1,
          .nullable (.named [("B", [])] false 1)] 1) 2, .predefined "string" 1]), ("D", [])] true 1) 1),
        ["x"], 1⟩]]⟩, []) := by
  have hint : (TypeExpr.predefined "int" 0).WellSpelled := .predefined (by decide)
  have hstring : (TypeExpr.predefined "string" 0).WellSpelled := .predefined (by decide)
  have hplain : (TypeExpr.named [("B", [])] false 0).WellSpelled :=
    .named (by simp) (by decide) (by simp)
  have hpair : (TypeExpr.tuple [.predefined "int" 0, .nullable (.named [("B", [])] false 0)] 0).WellSpelled :=
    .tuple (by simp) (by simp [hint, hplain.nullable rfl])
  have htable : (TypeExpr.array
      (.tuple [.predefined "int" 0, .nullable (.named [("B", [])] false 0)] 0) 2).WellSpelled :=
    .array hpair (by decide)
  have hname : (TypeExpr.named
      [("A", [.array (.tuple [.predefined "int" 0, .nullable (.named [("B", [])] false 0)] 0) 2,
        .predefined "string" 0]), ("D", [])] true 0).WellSpelled :=
    .named (by simp) (by decide) (by simp [hstring, htable])
  exact (SourceUnit.ofSource_fieldType (.nullable (.array hname (Nat.le_refl 1)) rfl) (by decide)
    (by decide)).1

end DataClasses
