import DataClasses.Proofs.Declaration.Heads

/-!
# Reading the members of generated source

A member is read as the property or field that it was generated for, unless its type is a
class with the name of a contextual word or a list that is too deep. A field of a class named
`record` is read as a record inside; of all others something is reported.
-/

set_option autoImplicit false

namespace DataClasses

namespace ClassTree

open Parse (attributeTokens)

def declarationLineFrom (settings : Settings) (n : Nat) : Nat :=
  n + (if settings.annotations then 1 else 0) + (if settings.documentation then 3 else 0)

def annotationTokens (settings : Settings) (n : Nat) (p : Property) : List Token :=
  if settings.annotations then attributeTokens n settings.library.keyAttribute p.key else []

def endTokens (settings : Settings) (m : Nat) : List Token :=
  if settings.accessors then
    [.ofMark m '\x7b', .ofWord m "get", .ofMark m ';', .ofWord m "set", .ofMark m ';',
      .ofMark m '\x7d']
  else [.ofMark m ';']

theorem tokens_memberEnd (settings : Settings) (m : Nat) :
    Atom.tokens m (memberEnd settings) = endTokens settings m := by
  rw [memberEnd, endTokens]
  split <;> rfl

theorem tokens_codeLine (m indent : Nat) (atoms : List Atom) :
    (codeLine indent atoms).tokens m = Atom.tokens m atoms := by
  simp [codeLine, Line.tokens]

/-- A summary has three lines and no tokens. -/
theorem tokens_summary (m indent : Nat) (documented : Bool) (text : String) :
    Line.tokensFrom m (if documented then summaryLines indent text else []) = [] ∧
      (if documented then summaryLines indent text else []).length = if documented then 3 else 0 := by
  cases documented with
  | false => simp
  | true => simp [summaryLines, Line.tokens]

theorem tokens_declarationLine (settings : Settings) (m : Nat) (p : Property) :
    (declarationLine settings p).tokens m =
      .ofWord m "public" ::
        (Atom.tokens m (typeAtoms p.type) ++ .ofName m p.name :: endTokens settings m) := by
  rw [declarationLine, tokens_codeLine]
  simp [tokens_memberEnd]

theorem tokens_propertyLines (settings : Settings) (n : Nat) (p : Property) :
    Line.tokensFrom n (propertyLines settings p) =
      annotationTokens settings n p ++
        (declarationLine settings p).tokens (declarationLineFrom settings n) := by
  have hattribute : Line.tokensFrom n (annotationLines settings p) = annotationTokens settings n p ∧
      (annotationLines settings p).length = if settings.annotations then 1 else 0 := by
    rw [annotationLines, annotationTokens]
    split
    · simp [tokens_codeLine, attributeTokens]
    · simp
  have hsummary (m : Nat) := tokens_summary m 8 settings.documentation ("Property " ++ p.name)
  rw [propertyLines, propertySummary, Line.tokensFrom_append, Line.tokensFrom_append, hattribute.1,
    (hsummary _).1]
  simp [hattribute.2, (hsummary 0).2, declarationLineFrom, Nat.add_assoc]

def modifierLike : List String := ["partial", "async", "required", "file"]

def Accepted (settings : Settings) (p : Property) : Prop :=
  p.type.depth ≤ 125 ∧
    ∀ name, p.type = .classNamed name →
      name ∉ modifierLike ∧ (name = "record" → settings.accessors = false)

def annotations (settings : Settings) (n : Nat) (p : Property) : List Attribute :=
  if settings.annotations then [⟨⟨[settings.library.keyAttribute], n⟩, some p.key, n⟩] else []

def declared (settings : Settings) (n : Nat) (p : Property) : Member :=
  let m := declarationLineFrom settings n
  let attributes := annotations settings n p
  if settings.accessors then
    .property ⟨attributes, ["public"], p.type.expr m, p.name, ["get", "set"], false, m⟩
  else if p.type = .classNamed "record" then
    .nested ⟨.record, p.name, [], ["public"], attributes, [], [], m⟩ []
  else .field ⟨attributes, ["public"], p.type.expr m, [p.name], m⟩

end ClassTree

namespace Parse

open ClassTree

variable {e l n m room : Nat} {r : List Diagnostic} {t u : Token} {ts : List Token}

theorem leading_plain (ht : t.isMark "[" = false) (hm : (Cursor.mk (t :: ts) e l r).atModifier = false) :
    leading ⟨t :: ts, e, l, r⟩ = (⟨[], []⟩, ⟨t :: ts, e, l, r⟩) :=
  leading_spelled (attributes_none ht) (modifiers_none hm)

theorem nextAccessor_spelled (acc : List String) {word : String} (hword : word ∈ ["get", "set"]) :
    nextAccessor acc ⟨.ofWord m word :: .ofMark m ';' :: ts, e, l, r⟩ =
      (.again (acc ++ [word]), ⟨ts, e, m, r⟩) := by
  have hleading : leading ⟨.ofWord m word :: .ofMark m ';' :: ts, e, l, r⟩ =
      (⟨[], []⟩, ⟨.ofWord m word :: .ofMark m ';' :: ts, e, l, r⟩) := by
    refine leading_plain rfl ?_
    simp only [List.mem_cons, List.not_mem_nil, or_false] at hword
    rcases hword with rfl | rfl <;> rfl
  have hfind : accessorWords.find? (Token.ofWord m word).isWord = some word := by
    simp only [List.mem_cons, List.not_mem_nil, or_false] at hword
    rcases hword with rfl | rfl <;> rfl
  have hmark : ((Token.ofWord m word).isMark closeBrace) = false := rfl
  have hdone : (Token.ofWord m word).isDone = false := rfl
  rw [nextAccessor, bind_apply, eatMark_not hmark]
  simp only [Bool.false_eq_true, if_false]
  rw [bind_apply, atEnd_apply]
  simp only [ahead_zero, hdone, Bool.false_eq_true, if_false]
  rw [bind_apply, hleading, bind_apply, current_apply]
  simp only [ahead_zero, hfind]
  rfl

theorem accessors_spelled :
    accessors ⟨.ofMark m '\x7b' :: .ofWord m "get" :: .ofMark m ';' :: .ofWord m "set" ::
        .ofMark m ';' :: .ofMark m '\x7d' :: ts, e, l, r⟩ =
      (["get", "set"], ⟨ts, e, m, r⟩) := by
  rw [accessors, bind_apply, skip_apply, drop_one]
  rw [loop_again (nextAccessor_spelled [] (by simp)) (by simp)]
  rw [loop_again (nextAccessor_spelled _ (by simp)) (by simp)]
  exact loop_done rfl

theorem declarators_spelled (name : String) :
    declarators name ⟨.ofMark m ';' :: ts, e, l, r⟩ = ([name], ⟨ts, e, m, r⟩) := by
  rw [declarators, bind_apply, loop_done (a := [name]) (d := ⟨.ofMark m ';' :: ts, e, l, r⟩) rfl]
  rfl

theorem memberName_plain (name : String) (h : u.isMark "." = false) :
    memberName name ⟨u :: ts, e, l, r⟩ = (name, ⟨u :: ts, e, l, r⟩) := by
  refine loop_done ?_
  rw [bind_apply, get_apply]
  simp only [ahead_zero, h, Bool.false_and]
  rfl

def ofEnd (settings : Settings) (lead : Leading) (x : TypeExpr) (name : String) : Member :=
  if settings.accessors then
    .property ⟨lead.attributes, lead.modifiers, x, name, ["get", "set"], false, x.line⟩
  else .field ⟨lead.attributes, lead.modifiers, x, [name], x.line⟩

theorem typedMember_spelled (type : Parse (Option TypeExpr)) (settings : Settings) (lead : Leading)
    (x : TypeExpr) (name : String) (hu : u.isMark "=" = false) :
    typedMember type lead x name ⟨endTokens settings m ++ u :: ts, e, l, r⟩ =
      (ofEnd settings lead x name, ⟨u :: ts, e, m, r⟩) := by
  cases h : settings.accessors with
  | true =>
    have hlist : (Token.ofMark m '\x7b').isAnyMark ["(", "<"] = false := rfl
    have hbrace : (Token.ofMark m '\x7b').isMark openBrace = true := rfl
    simp only [endTokens, ofEnd, h, if_true, List.cons_append, List.nil_append]
    rw [typedMember, bind_apply, current_apply]
    simp only [ahead_zero, hlist, Bool.false_eq_true, if_false]
    rw [bind_apply, atMark_apply]
    simp only [ahead_zero, hbrace, if_true]
    rw [bind_apply, accessors_spelled, bind_apply, eatMark_not hu]
    rfl
  | false =>
    have hlist : (Token.ofMark m ';').isAnyMark ["(", "<"] = false := rfl
    have hbrace : (Token.ofMark m ';').isMark openBrace = false := rfl
    have harrow : (Token.ofMark m ';').isMark "=>" = false := rfl
    simp only [endTokens, ofEnd, h, Bool.false_eq_true, if_false, List.cons_append, List.nil_append]
    rw [typedMember, bind_apply, current_apply]
    simp only [ahead_zero, hlist, Bool.false_eq_true, if_false]
    rw [bind_apply, atMark_apply]
    simp only [ahead_zero, hbrace, Bool.false_eq_true, if_false]
    rw [bind_apply, eatMark_not harrow]
    simp only [Bool.false_eq_true, if_false]
    rw [bind_apply, declarators_spelled]
    rfl

theorem memberOfType_apply (type : Parse (Option TypeExpr)) (lead : Leading) (x : TypeExpr)
    (hcall : t.isMark "(" = false) (hoperator : t.isWord "operator" = false)
    (hthis : t.isWord "this" = false) :
    memberOfType type lead x ⟨t :: ts, e, l, r⟩ = namedMember type lead x ⟨t :: ts, e, l, r⟩ := by
  rw [memberOfType, bind_apply, get_apply]
  simp only [ahead_zero, hcall, hoperator, hthis, Bool.false_and, Bool.or_false,
    Bool.false_eq_true, if_false]
  cases bareName? x <;> rfl

theorem memberOfType_spelled (type : Parse (Option TypeExpr)) (settings : Settings) (lead : Leading)
    (x : TypeExpr) (name : String) (hu : u.isMark "=" = false) :
    memberOfType type lead x ⟨.ofName m name :: (endTokens settings m ++ u :: ts), e, l, r⟩ =
      (some (ofEnd settings lead x name), ⟨u :: ts, e, m, r⟩) := by
  obtain ⟨v, vs, hend, hv⟩ : ∃ v vs, endTokens settings m ++ u :: ts = v :: vs ∧
      v.isMark "." = false := by
    rw [endTokens]
    split
    · exact ⟨_, _, rfl, rfl⟩
    · exact ⟨_, _, rfl, rfl⟩
  rw [memberOfType_apply type lead x (Token.ofName_isMark "(")
    (Token.ofName_isWord_of_keyword (by decide)) (Token.ofName_isWord_of_keyword (by decide))]
  rw [namedMember, bind_apply, expectName_of Token.ofName_name?]
  simp only
  rw [bind_apply, Token.ofName_line, hend, memberName_plain name hv]
  simp only
  rw [map_apply, ← hend, typedMember_spelled type settings lead x name hu]

theorem member_apply {type : Parse (Option TypeExpr)}
    {nested : Leading → Parse (TypeHead × List Member)} {typeName : String} {c d : Cursor}
    {lead : Leading} (hlead : leading c = (lead, d)) (htypeWord : d.atTypeWord = false)
    (hdropped : (d.ahead 0).isOneOf ["event", "delegate", "implicit", "explicit"] = false)
    (hfinalizer : (d.ahead 0).isMark "~" = false)
    (hcall : ((d.ahead 0).identifier? == some typeName && (d.ahead 1).isMark "(") = false)
    (hstart : d.canStartType = true) :
    member type nested typeName c = memberFromType type lead d := by
  rewrite [member, bind_apply, hlead, bind_apply, get_apply, if_neg (by simp [htypeWord]),
    if_neg (by simp [hdropped, hfinalizer]), if_neg (by simp [hcall]), if_neg (by simp [hstart])]
  rfl

/-- A place where neither a type declaration, a constructor nor a member of a kind that is not
kept begins, but a member with a type may. -/
structure Cursor.AtTyped (c : Cursor) : Prop where
  typeWord : c.atTypeWord = false
  dropped : (c.ahead 0).isOneOf ["event", "delegate", "implicit", "explicit"] = false
  finalizer : (c.ahead 0).isMark "~" = false
  call : (c.ahead 1).isMark "(" = false
  canStart : c.canStartType = true

theorem member_typed {type : Parse (Option TypeExpr)}
    {nested : Leading → Parse (TypeHead × List Member)} {typeName : String} {c d : Cursor}
    {lead : Leading} (hlead : leading c = (lead, d)) (hd : d.AtTyped) :
    member type nested typeName c = memberFromType type lead d :=
  member_apply hlead hd.typeWord hd.dropped hd.finalizer (by simp [hd.call]) hd.canStart

theorem memberFromType_of {type : Parse (Option TypeExpr)} {c d : Cursor} {x : TypeExpr}
    (h : type c = (some x, d)) (lead : Leading) :
    memberFromType type lead c = memberOfType type lead x d := by
  rw [memberFromType, bind_apply, h]

theorem coreToken_cases (n : Nat) (t : MemberType) :
    (∃ kind : Primitive, kind ≠ .timestamp ∧ t.coreToken n = .ofWord n kind.spelling) ∨
      ∃ name, t.coreToken n = .ofName n name := by
  induction t with
  | primitive kind =>
    by_cases hkind : kind = .timestamp
    · exact .inr ⟨"DateTime", by rw [hkind]; rfl⟩
    · exact .inl ⟨kind, hkind, rfl⟩
  | classNamed name => exact .inr ⟨name, rfl⟩
  | listOf element ih => exact ih

theorem coreToken_isOneOf (n : Nat) (t : MemberType) {words : List String}
    (hkeywords : ∀ w ∈ words, Identifier.isKeyword w = true)
    (hkinds : ∀ kind : Primitive, kind.spelling ∉ words) :
    (t.coreToken n).isOneOf words = false := by
  rcases coreToken_cases n t with ⟨kind, -, htoken⟩ | ⟨name, htoken⟩
  · rw [htoken, Token.isOneOf, List.any_eq_false]
    intro w hw
    have hne : kind.spelling ≠ w := fun h => hkinds kind (h ▸ hw)
    simpa [Token.ofWord, Token.isWord] using hne
  · rw [htoken]
    exact Token.ofName_isOneOf_of_keywords hkeywords

theorem coreToken_isMark (n : Nat) (t : MemberType) (mark : String) :
    (t.coreToken n).isMark mark = false := by
  rcases coreToken_cases n t with ⟨kind, -, htoken⟩ | ⟨name, htoken⟩
  · rw [htoken]
    rfl
  · rw [htoken]
    rfl

theorem coreToken_canStart (n : Nat) (t : MemberType) :
    ((t.coreToken n).isOneOf predefinedTypes || (t.coreToken n).isName) = true := by
  rcases coreToken_cases n t with ⟨kind, -, htoken⟩ | ⟨name, htoken⟩
  · rw [htoken]
    cases kind <;> rfl
  · simp [htoken]

def typeBefore (m : Nat) (t : MemberType) (name : String) (ts : List Token) : List Token :=
  Atom.tokens m (typeAtoms t) ++ .ofName m name :: ts

theorem typeBefore_className (m : Nat) (word name : String) (ts : List Token) :
    typeBefore m (.classNamed word) name ts = .ofName m word :: .ofName m name :: ts := by
  rw [typeBefore, typeAtoms, Atom.tokens_ofName]
  rfl

theorem typeBefore_cases (m : Nat) (t : MemberType) (name : String) (ts : List Token) :
    (∃ vs, typeBefore m t name ts = t.coreToken m :: .ofMark m '[' :: vs) ∨
      typeBefore m t name ts = t.coreToken m :: .ofName m name :: ts ∧ t.depth = 0 := by
  rw [typeBefore, tokens_typeAtoms]
  cases t.depth with
  | zero => exact .inr ⟨rfl, rfl⟩
  | succ k => exact .inl ⟨_, rfl⟩

theorem coreToken_contextual (n : Nat) {t : MemberType} (hdepth : t.depth = 0)
    (h : ∀ name, t = .classNamed name → name ∉ modifierLike) :
    (t.coreToken n).isOneOf contextualWords = false := by
  cases t with
  | primitive kind => cases kind <;> rfl
  | classNamed name =>
    have hwords : ∀ w ∈ contextualWords, w ∈ modifierLike ∨ Identifier.isKeyword w = true := by
      decide
    rw [Token.isOneOf, List.any_eq_false]
    intro w hw
    rw [MemberType.coreToken, Token.ofName_isWord, Bool.not_eq_true]
    by_cases hname : name = w
    · rcases hwords w hw with hlike | hkeyword
      · exact absurd (hname ▸ hlike) (h name rfl)
      · simp [hname, hkeyword]
    · simp [hname]
  | listOf element => simp [MemberType.depth] at hdepth

theorem typeBefore_atModifier {t : MemberType} {name : String}
    (h : ∀ name, t = .classNamed name → name ∉ modifierLike) :
    (Cursor.mk (typeBefore m t name ts) e l r).atModifier = false := by
  have hwords : (t.coreToken m).isOneOf modifierWords = false :=
    coreToken_isOneOf m t (by decide) (fun kind => by cases kind <;> decide)
  rcases typeBefore_cases m t name ts with ⟨vs, hcase⟩ | ⟨hcase, hdepth⟩
  · have hbracket : (Token.ofMark m '[').isIdentifier = false := rfl
    simp [hcase, Cursor.atModifier, hwords, hbracket]
  · simp [hcase, Cursor.atModifier, hwords, coreToken_contextual m hdepth h]

theorem typeBefore_atTypeWord {t : MemberType} {name : String} (h : t ≠ .classNamed "record") :
    (Cursor.mk (typeBefore m t name ts) e l r).atTypeWord = false := by
  have hwords : (t.coreToken m).isOneOf ["class", "struct", "interface", "enum"] = false :=
    coreToken_isOneOf m t (by decide) (fun kind => by cases kind <;> decide)
  rcases typeBefore_cases m t name ts with ⟨vs, hcase⟩ | ⟨hcase, hdepth⟩
  · have hbracket : (Token.ofMark m '[').isName = false ∧
        (Token.ofMark m '[').isOneOf ["class", "struct"] = false := ⟨rfl, rfl⟩
    simp [hcase, Cursor.atTypeWord, hwords, hbracket.1, hbracket.2]
  · have hrecord : (t.coreToken m).isWord "record" = false := by
      cases t with
      | primitive kind => cases kind <;> rfl
      | classNamed name =>
        have hname : name ≠ "record" := fun heq => h (heq ▸ rfl)
        simp [MemberType.coreToken, Token.ofName_isWord, hname]
      | listOf element => simp [MemberType.depth] at hdepth
    simp [hcase, Cursor.atTypeWord, hwords, hrecord]

theorem typeBefore_atTyped {t : MemberType} {name : String} (h : t ≠ .classNamed "record") :
    (Cursor.mk (typeBefore m t name ts) e l r).AtTyped := by
  obtain ⟨v, vs, hcase, hcall⟩ : ∃ v vs, typeBefore m t name ts = t.coreToken m :: v :: vs ∧
      v.isMark "(" = false := by
    rcases typeBefore_cases m t name ts with ⟨vs, hcase⟩ | ⟨hcase, -⟩
    · exact ⟨_, _, hcase, rfl⟩
    · exact ⟨_, _, hcase, rfl⟩
  refine ⟨typeBefore_atTypeWord h, ?_, ?_, ?_, ?_⟩
  · rw [hcase]
    exact coreToken_isOneOf m t (by decide) (fun kind => by cases kind <;> decide)
  · rw [hcase]
    exact coreToken_isMark m t "~"
  · rw [hcase]
    exact hcall
  · have hstart := coreToken_canStart m t
    rw [Bool.or_eq_true] at hstart
    rw [hcase, Cursor.canStartType]
    rcases hstart with hstart | hstart <;> simp [hstart]

theorem keyAttribute_not_keyword (settings : Settings) :
    Identifier.isKeyword settings.library.keyAttribute = false := by
  cases settings.library <;> decide

theorem tokens_property (settings : Settings) (n : Nat) (p : Property) (ts : List Token) :
    Line.tokensFrom n (propertyLines settings p) ++ ts =
      annotationTokens settings n p ++ .ofWord (declarationLineFrom settings n) "public" ::
        typeBefore (declarationLineFrom settings n) p.type p.name
          (endTokens settings (declarationLineFrom settings n) ++ ts) := by
  rw [tokens_propertyLines, tokens_declarationLine, typeBefore]
  simp

theorem attributes_property (settings : Settings) (n : Nat) (p : Property) {t : Token}
    (ht : t.isMark "[" = false) :
    ∃ l', attributes ⟨annotationTokens settings n p ++ t :: ts, e, l, r⟩ =
      (annotations settings n p, ⟨t :: ts, e, l', r⟩) := by
  rw [annotationTokens, annotations]
  split
  · exact ⟨n, attributes_spelled (keyAttribute_not_keyword settings) p.key ht⟩
  · exact ⟨l, attributes_none ht⟩

theorem leading_property {settings : Settings} {n : Nat} {p : Property}
    (h : ∀ name, p.type = .classNamed name → name ∉ modifierLike) :
    leading ⟨Line.tokensFrom n (propertyLines settings p) ++ ts, e, l, r⟩ =
      (⟨annotations settings n p, ["public"]⟩,
        ⟨typeBefore (declarationLineFrom settings n) p.type p.name
          (endTokens settings (declarationLineFrom settings n) ++ ts), e,
          declarationLineFrom settings n, r⟩) := by
  rw [tokens_property]
  obtain ⟨l', ha⟩ := attributes_property settings n p
    (t := .ofWord (declarationLineFrom settings n) "public") rfl
  exact leading_spelled ha (modifiers_public (typeBefore_atModifier h))

/-- An accepted member is read as what it was generated for. -/
theorem member_typed_spelled {nested : Leading → Parse (TypeHead × List Member)} {typeName : String}
    {settings : Settings} {n : Nat} {p : Property} (hdepth : p.type.depth ≤ room)
    (hmodifier : ∀ name, p.type = .classNamed name → name ∉ modifierLike)
    (hrecord : p.type ≠ .classNamed "record") (hu : u.isMark "=" = false) :
    member (typeExpr (room + 1)) nested typeName
        ⟨Line.tokensFrom n (propertyLines settings p) ++ u :: ts, e, l, r⟩ =
      (some (declared settings n p), ⟨u :: ts, e, declarationLineFrom settings n, r⟩) := by
  rw [member_typed (leading_property hmodifier) (typeBefore_atTyped hrecord), typeBefore,
    memberFromType_of (typeExpr_spelled hdepth (endsType_ofName _ _)), memberOfType_spelled _ _ _ _ _ hu,
    ofEnd, declared, MemberType.expr_line]
  simp only [hrecord, if_false]

theorem member_tooDeep {nested : Leading → Parse (TypeHead × List Member)} {typeName : String}
    {settings : Settings} {n : Nat} {p : Property} (hdepth : room < p.type.depth) :
    (member (typeExpr (room + 1)) nested typeName
      ⟨Line.tokensFrom n (propertyLines settings p) ++ ts, e, l, r⟩).2.Faulty := by
  have hlist (name : String) : p.type ≠ .classNamed name := by
    intro hname
    simp [hname, MemberType.depth] at hdepth
  rw [member_typed (leading_property fun name hname => absurd hname (hlist name))
    (typeBefore_atTyped (hlist "record")), memberFromType, bind_apply, typeBefore]
  refine Grows.faulty ?_ (typeExpr_tooDeep hdepth (endsType_ofName _ _).1)
  split
  · exact pure_grows _
  · exact memberOfType_grows (typeExpr_grows _) _ _

theorem endTokens_cases (settings : Settings) (m : Nat) (ts : List Token) :
    ∃ v vs, endTokens settings m ++ ts = v :: vs ∧ (v = .ofMark m ';' ∨ v = .ofMark m '\x7b') := by
  rw [endTokens]
  split
  · exact ⟨_, _, rfl, .inr rfl⟩
  · exact ⟨_, _, rfl, .inl rfl⟩

theorem nameless_atTyped {name : String} {v : Token} (hv : v = .ofMark m ';' ∨ v = .ofMark m '\x7b') :
    (Cursor.mk (.ofName m name :: v :: ts) e l r).AtTyped := by
  have hclass : ∀ w ∈ ["class", "struct", "interface", "enum"], Identifier.isKeyword w = true := by
    decide
  have hdropped : ∀ w ∈ ["event", "delegate", "implicit", "explicit"],
      Identifier.isKeyword w = true := by decide
  have hnext : v.isName = false ∧ v.isOneOf ["class", "struct"] = false ∧ v.isMark "(" = false := by
    rcases hv with rfl | rfl
    · exact ⟨rfl, rfl, rfl⟩
    · exact ⟨rfl, rfl, rfl⟩
  refine ⟨?_, Token.ofName_isOneOf_of_keywords hdropped, rfl, hnext.2.2, ?_⟩
  · simp [Cursor.atTypeWord, Token.ofName_isOneOf_of_keywords hclass, hnext.1, hnext.2.1]
  · simp [Cursor.canStartType]

/-- A member that has a type but no name is reported. -/
theorem member_nameless {nested : Leading → Parse (TypeHead × List Member)} {typeName name : String}
    {c : Cursor} {lead : Leading} {v : Token} (hv : v = .ofMark m ';' ∨ v = .ofMark m '\x7b')
    (hlead : leading c = (lead, ⟨.ofName m name :: v :: ts, e, l, r⟩)) :
    (member (typeExpr (room + 1)) nested typeName c).2.Faulty := by
  have hnext : EndsType v ∧ v.isMark "(" = false ∧ v.isWord "operator" = false ∧
      v.isWord "this" = false ∧ v.name? = none := by
    rcases hv with rfl | rfl
    · exact ⟨⟨rfl, rfl⟩, rfl, rfl, rfl, rfl⟩
    · exact ⟨⟨rfl, rfl⟩, rfl, rfl, rfl, rfl⟩
  rw [member_typed hlead (nameless_atTyped hv), memberFromType_of (typeExpr_name _ _ hnext.1),
    memberOfType_apply _ _ _ hnext.2.1 hnext.2.2.1 hnext.2.2.2.1, namedMember, bind_apply,
    expectName_not hnext.2.2.2.2]
  exact (skipMember_grows.bind fun _ => pure_grows _).faulty (report_faulty _ _ _)

/-- A class with the name of a contextual modifier is taken for that modifier. -/
theorem member_modifierLike {nested : Leading → Parse (TypeHead × List Member)} {typeName : String}
    {settings : Settings} {n : Nat} {p : Property} {word : String}
    (htype : p.type = .classNamed word) (hword : word ∈ modifierLike) :
    (member (typeExpr (room + 1)) nested typeName
      ⟨Line.tokensFrom n (propertyLines settings p) ++ ts, e, l, r⟩).2.Faulty := by
  have hwords : ∀ w ∈ modifierLike, w ∈ contextualWords ∧ Identifier.isKeyword w = false := by
    decide
  have hmodifiers : ∀ w ∈ modifierWords, Identifier.isKeyword w = true := by decide
  obtain ⟨v, vs, hend, hv⟩ := endTokens_cases settings (declarationLineFrom settings n) ts
  have hat : (Cursor.mk (.ofName (declarationLineFrom settings n) p.name :: v :: vs) e
      (declarationLineFrom settings n) r).atModifier = false := by
    have hidentifier : v.isIdentifier = false := by
      rcases hv with rfl | rfl
      · rfl
      · rfl
    simp [Cursor.atModifier, Token.ofName_isOneOf_of_keywords hmodifiers, hidentifier]
  obtain ⟨l', ha⟩ := attributes_property settings n p
    (t := .ofWord (declarationLineFrom settings n) "public") rfl
  rw [tokens_property, htype, typeBefore_className, hend]
  exact member_nameless hv
    (leading_spelled ha (modifiers_contextual (hwords word hword).1 (hwords word hword).2 hat))

theorem typeParameters?_none (h : t.isMark "<" = false) :
    typeParameters? ⟨t :: ts, e, l, r⟩ = ([], ⟨t :: ts, e, l, r⟩) := by
  rw [typeParameters?, bind_apply, atMark_apply]
  simp only [ahead_zero, h]
  rfl

theorem parameters?_none (type : Parse (Option TypeExpr)) (h : t.isMark "(" = false) :
    parameters? type ⟨t :: ts, e, l, r⟩ = ([], ⟨t :: ts, e, l, r⟩) := by
  rw [parameters?, bind_apply, atMark_apply]
  simp only [ahead_zero, h]
  rfl

theorem baseTypes?_none (type : Parse (Option TypeExpr)) (h : t.isMark ":" = false) :
    baseTypes? type ⟨t :: ts, e, l, r⟩ = ([], ⟨t :: ts, e, l, r⟩) := by
  rw [baseTypes?, bind_apply, eatMark_not h]
  rfl

theorem skipConstraints_none (h : t.isWord "where" = false) :
    skipConstraints ⟨t :: ts, e, l, r⟩ = ((), ⟨t :: ts, e, l, r⟩) := by
  rw [skipConstraints, bind_apply, atWord_apply]
  simp only [ahead_zero, h]
  rfl

theorem typeDeclWith_apply (type : Parse (Option TypeExpr))
    (nested : Leading → Parse (TypeHead × List Member)) (lead : Leading) {word v : Token} {name : String}
    {kind : TypeKind}
    (hkind : typeKind ⟨word :: .ofName n name :: v :: ts, e, l, r⟩ =
      (kind, ⟨.ofName n name :: v :: ts, e, word.line, r⟩))
    (hv : v = .ofMark m ';' ∨ v = .ofMark m '\x7b') :
    typeDeclWith type nested lead ⟨word :: .ofName n name :: v :: ts, e, l, r⟩ =
      (do
        let inside ← typeBody kind (member type nested name)
        pure (⟨kind, name, [], lead.modifiers, lead.attributes, [], [], word.line⟩, inside) :
          Parse (TypeHead × List Member)) ⟨v :: ts, e, n, r⟩ := by
  have hnext : v.isMark "<" = false ∧ v.isMark "(" = false ∧ v.isMark ":" = false ∧
      v.isWord "where" = false := by
    rcases hv with rfl | rfl
    · exact ⟨rfl, rfl, rfl, rfl⟩
    · exact ⟨rfl, rfl, rfl, rfl⟩
  obtain ⟨hless, hparen, hcolon, hwhere⟩ := hnext
  rw [typeDeclWith, bind_apply, current_apply, bind_apply, hkind, bind_apply,
    expectName_of Token.ofName_name?, bind_apply, typeParameters?_none hless, bind_apply,
    parameters?_none type hparen, bind_apply, baseTypes?_none type hcolon, bind_apply,
    skipConstraints_none hwhere]
  rfl

theorem typeKind_record (name : String) :
    typeKind ⟨.ofName m "record" :: .ofName m name :: ts, e, l, r⟩ =
      (.record, ⟨.ofName m name :: ts, e, m, r⟩) := by
  have hclass : (Token.ofName m name).isWord "class" = false :=
    Token.ofName_isWord_of_keyword (by decide)
  have hstruct : (Token.ofName m name).isWord "struct" = false :=
    Token.ofName_isWord_of_keyword (by decide)
  rw [typeKind, bind_apply, advance_apply]
  simp only [Token.ofName_identifier?]
  rw [bind_apply, Token.ofName_line, eatWord_not hclass]
  simp only [Bool.not_false, if_true]
  rw [bind_apply, eatWord_not hstruct]
  rfl

theorem member_record {type : Parse (Option TypeExpr)} {typeName : String} {settings : Settings}
    {n : Nat} {p : Property} (htype : p.type = .classNamed "record") :
    member type (typeDecl (room + 1)) typeName
        ⟨Line.tokensFrom n (propertyLines settings p) ++ ts, e, l, r⟩ =
      ((fun x => some (.nested x.1 x.2)) <$>
        typeDecl (room + 1) ⟨annotations settings n p, ["public"]⟩ : Parse (Option Member))
        ⟨.ofName (declarationLineFrom settings n) "record" ::
          .ofName (declarationLineFrom settings n) p.name ::
          (endTokens settings (declarationLineFrom settings n) ++ ts), e,
          declarationLineFrom settings n, r⟩ := by
  have hmodifier (name : String) (hname : p.type = .classNamed name) : name ∉ modifierLike := by
    obtain rfl : name = "record" := by simpa [htype] using hname.symm
    decide
  have hat (m l : Nat) (ts : List Token) :
      (Cursor.mk (.ofName m "record" :: .ofName m p.name :: ts) e l r).atTypeWord = true := by
    have hrecord : (Token.ofName m "record").isWord "record" = true := rfl
    simp [Cursor.atTypeWord, hrecord]
  rw [member, bind_apply, leading_property hmodifier, htype, typeBefore_className, bind_apply, get_apply]
  simp only [hat, if_true]
  rfl

/-- A field of a class named `record` is read as a record without a body. -/
theorem member_recordField {type : Parse (Option TypeExpr)} {typeName : String} {settings : Settings}
    {n : Nat} {p : Property} (htype : p.type = .classNamed "record")
    (hstyle : settings.accessors = false) :
    member type (typeDecl (room + 1)) typeName
        ⟨Line.tokensFrom n (propertyLines settings p) ++ ts, e, l, r⟩ =
      (some (declared settings n p), ⟨ts, e, declarationLineFrom settings n, r⟩) := by
  rw [member_record htype, map_apply, typeDecl]
  simp only [endTokens, hstyle, Bool.false_eq_true, if_false, List.cons_append, List.nil_append]
  rw [typeDeclWith_apply _ _ _ (typeKind_record p.name) (.inl rfl), declared]
  simp only [hstyle, htype, Bool.false_eq_true, if_false, if_true]
  rfl

theorem typeBody_brace {kind : TypeKind} (item : Parse (Option Member)) (hkind : kind ≠ .enum) :
    typeBody kind item ⟨.ofMark m '\x7b' :: ts, e, l, r⟩ =
      (do
        let inside ← members item
        let _ ← expectMark closeBrace .closeBraceExpected
        let _ ← eatMark ";"
        pure inside : Parse (List Member)) ⟨ts, e, m, r⟩ := by
  cases kind with
  | enum => exact absurd rfl hkind
  | _ => rfl

theorem nextMember_item {item : Parse (Option Member)} (hdone : t.isDone = false)
    (hclose : t.isMark closeBrace = false) (hempty : t.isMark ";" = false) (acc : List Member) :
    nextMember item acc ⟨t :: ts, e, l, r⟩ =
      (do
        let found ← item
        if (← get).rest.length == ts.length + 1 then skip 1
        pure (.again (acc ++ found.toList)) : Parse (Round (List Member) (List Member)))
        ⟨t :: ts, e, l, r⟩ := by
  rw [nextMember, bind_apply, get_apply]
  simp only [ahead_zero, hdone, hclose, hempty, Bool.or_false, Bool.false_eq_true, if_false]
  rfl

theorem nextMember_faulty {item : Parse (Option Member)} (hdone : t.isDone = false)
    (hclose : t.isMark closeBrace = false) (hempty : t.isMark ";" = false) (acc : List Member)
    (h : (item ⟨t :: ts, e, l, r⟩).2.Faulty) :
    (nextMember item acc ⟨t :: ts, e, l, r⟩).2.Faulty := by
  rw [nextMember_item hdone hclose hempty, bind_apply]
  refine Grows.faulty (get_grows.bind fun d => ?_) h
  exact .before (skip_grows 1) (pure_grows _)

/-- The accessors of a member whose type is a class named `record` are no members. -/
theorem member_recordProperty {type : Parse (Option TypeExpr)} {typeName : String}
    {settings : Settings} {n : Nat} {p : Property} (htype : p.type = .classNamed "record")
    (hstyle : settings.accessors = true) :
    (member type (typeDecl (room + 2)) typeName
      ⟨Line.tokensFrom n (propertyLines settings p) ++ ts, e, l, r⟩).2.Faulty := by
  rw [member_record htype, map_apply, typeDecl]
  simp only [endTokens, hstyle, if_true, List.cons_append, List.nil_append]
  rw [typeDeclWith_apply _ _ _ (typeKind_record p.name) (.inr rfl), bind_apply,
    typeBody_brace _ (by decide)]
  have hitem : Grows (member (typeExpr (room + 1)) (typeDecl (room + 1)) p.name) :=
    member_grows (typeExpr_grows _) (typeDecl_grows _) _
  have hget {m l : Nat} {ts : List Token} :
      (member (typeExpr (room + 1)) (typeDecl (room + 1)) p.name
        ⟨.ofWord m "get" :: .ofMark m ';' :: ts, e, l, r⟩).2.Faulty :=
    member_nameless (.inl rfl) (leading_plain rfl rfl)
  have hrest (inside : List Member) : Grows (do
      let _ ← expectMark closeBrace .closeBraceExpected
      let _ ← eatMark ";"
      pure inside) :=
    (expectMark_grows _ _).bind fun _ => (eatMark_grows _).bind fun _ => pure_grows _
  refine (pure_grows _).faulty ((hrest _).faulty ?_)
  exact loop_faulty (nextMember_grows hitem) (nextMember_faulty rfl rfl rfl [] hget)

theorem member_accepted {typeName : String} {settings : Settings} {n : Nat} {p : Property}
    (h : Accepted settings p) (hu : u.isMark "=" = false) :
    member (typeExpr 126) (typeDecl 126) typeName
        ⟨Line.tokensFrom n (propertyLines settings p) ++ u :: ts, e, l, r⟩ =
      (some (declared settings n p), ⟨u :: ts, e, declarationLineFrom settings n, r⟩) := by
  by_cases hrecord : p.type = .classNamed "record"
  · exact member_recordField hrecord ((h.2 "record" hrecord).2 rfl)
  · exact member_typed_spelled h.1 (fun name hname => (h.2 name hname).1) hrecord hu

theorem member_rejected {typeName : String} {settings : Settings} {n : Nat} {p : Property}
    (h : ¬Accepted settings p) :
    (member (typeExpr 126) (typeDecl 126) typeName
      ⟨Line.tokensFrom n (propertyLines settings p) ++ ts, e, l, r⟩).2.Faulty := by
  by_cases hdepth : p.type.depth ≤ 125
  · have hname : ∃ name, p.type = .classNamed name ∧
        (name ∈ modifierLike ∨ name = "record" ∧ settings.accessors = true) := by
      by_contra hno
      push Not at hno
      refine h ⟨hdepth, fun name hname => ⟨(hno name hname).1, fun hrecord => ?_⟩⟩
      simpa using (hno name hname).2 hrecord
    obtain ⟨name, htype, hword | ⟨rfl, hstyle⟩⟩ := hname
    · exact member_modifierLike htype hword
    · exact member_recordProperty htype hstyle
  · exact member_tooDeep (by omega)

end Parse
end DataClasses
