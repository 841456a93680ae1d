import DataClasses.Proofs.Declaration.FieldNames

/-!
# Members with bodies

Methods, constructors and properties with accessors. Their heads are read, and each body is passed
over up to the brace that closes it, whatever stands in it.
-/

set_option autoImplicit false

namespace DataClasses

open Identifier (IsName isKeyword)
open Token (Balanced)

namespace Parse

variable {e l n room : Nat} {r : List Diagnostic} {name word : String} {t u v : Token}
  {ts us vs bs : List Token}

theorem nextModifier_word (hword : word ∈ modifierWords) (acc : List String) :
    nextModifier acc ⟨.ofWord n word :: ts, e, l, r⟩ = (.again (acc ++ [word]), ⟨ts, e, n, r⟩) := by
  have hone : (Token.ofWord n word).isOneOf modifierWords = true := by
    rw [Token.isOneOf, List.any_eq_true]
    exact ⟨word, hword, by simp [Token.ofWord, Token.isWord]⟩
  have hat : (Cursor.mk (.ofWord n word :: ts) e l r).atModifier = true := by
    simp [Cursor.atModifier, hone]
  rw [nextModifier, bind_apply, get_apply]
  simp only [hat, if_true]
  rfl

theorem modifiers_words {words : List String} (hwords : ∀ w ∈ words, w ∈ modifierWords)
    (hend : ∀ l, (Cursor.mk ts e l r).atModifier = false) (acc : List String) (l : Nat) :
    ∃ l', loop id nextModifier acc ⟨words.map (.ofWord n) ++ ts, e, l, r⟩ =
      (acc ++ words, ⟨ts, e, l', r⟩) := by
  induction words generalizing acc l with
  | nil =>
    refine ⟨l, ?_⟩
    rw [List.append_nil]
    refine loop_done ?_
    rw [List.map_nil, List.nil_append, nextModifier, bind_apply, get_apply]
    simp only [hend l]
    rfl
  | cons w words ih =>
    obtain ⟨l', hrest⟩ := ih (fun x hx => hwords x (List.mem_cons_of_mem w hx)) (acc ++ [w]) n
    refine ⟨l', ?_⟩
    rw [List.map_cons, List.cons_append, loop_again (nextModifier_word (hwords w List.mem_cons_self) acc)
      (by simp), hrest, List.append_assoc]
    rfl

/-- Modifiers stand before a member, and no attributes before them. -/
theorem leading_words {words : List String} (hwords : ∀ w ∈ words, w ∈ modifierWords)
    (hbracket : ((Cursor.mk ts e l r).ahead 0).isMark "[" = false)
    (hend : (Cursor.mk ts e l r).atModifier = false) (l : Nat) :
    ∃ l', leading ⟨words.map (.ofWord n) ++ ts, e, l, r⟩ = (⟨[], words⟩, ⟨ts, e, l', r⟩) := by
  have hhead : ((Cursor.mk (words.map (.ofWord n) ++ ts) e l r).ahead 0).isMark "[" = false := by
    cases words with
    | nil => exact hbracket
    | cons w words => rfl
  obtain ⟨l', hmodifiers⟩ := modifiers_words (n := n) hwords (fun _ => hend) [] l
  rw [← modifiers] at hmodifiers
  exact ⟨l', leading_spelled (attributes_of_ahead hhead) hmodifiers⟩

structure PlainType (room : Nat) (t : TypeExpr) : Prop where
  spelled : t.WellSpelled
  words : ∀ w ∈ t.words, w ∉ "scoped" :: declarationWords
  depth : t.depth ≤ room + 1

theorem PlainType.startsType {x : TypeExpr} (hx : PlainType room x) (typeName : String)
    (hv : v.isMark "(" = false) :
    (Cursor.mk (x.tokens n ++ v :: vs) e l r).StartsType typeName :=
  startsType_spelled typeName hx.spelled (fun w hw h => hx.words w hw (List.mem_cons_of_mem _ h)) hv

theorem PlainType.read {x : TypeExpr} (hx : PlainType room x) :
    typeExpr (room + 1) ⟨x.tokens n ++ .ofWord n name :: us, e, l, r⟩ =
      (some (x.onLine n), ⟨.ofWord n name :: us, e, n, r⟩) :=
  typeExpr_read hx.spelled hx.depth ⟨rfl, rfl⟩ rfl

abbrev Written := TypeExpr × String

def Written.tokens (n : Nat) (p : Written) : List Token := p.1.tokens n ++ [.ofWord n p.2]

def Written.declared (n : Nat) (p : Written) : Parameter := ⟨[], p.1.onLine n, p.2, n⟩

structure Written.WellFormed (room : Nat) (p : Written) : Prop where
  type : PlainType room p.1
  isName : IsName p.2
  notKeyword : isKeyword p.2 = false

theorem skipParameterWords_none (h : t.isOneOf parameterWords = false) :
    skipParameterWords ⟨t :: ts, e, l, r⟩ = ((), ⟨t :: ts, e, l, r⟩) := by
  rw [skipParameterWords, bind_apply, get_apply]
  simp only [List.takeWhile_cons, h, Bool.false_eq_true, if_false]
  rfl

theorem oneParameter_read {p : Written} (hp : p.WellFormed room) (hu : u.isMark "=" = false)
    (acc : List Parameter) :
    oneParameter (typeExpr (room + 1)) acc ⟨p.tokens n ++ u :: us, e, l, r⟩ =
      nextParameter (acc ++ [p.declared n]) ⟨u :: us, e, n, r⟩ := by
  have htokens : p.tokens n ++ u :: us = p.1.tokens n ++ .ofWord n p.2 :: u :: us := by
    simp [Written.tokens]
  have hstart : (Cursor.mk (p.1.tokens n ++ .ofWord n p.2 :: u :: us) e l r).StartsType "" :=
    hp.type.startsType "" rfl
  have hread : typeExpr (room + 1) ⟨p.1.tokens n ++ .ofWord n p.2 :: u :: us, e, l, r⟩ =
      (some (p.1.onLine n), ⟨.ofWord n p.2 :: u :: us, e, n, r⟩) := hp.type.read
  have hlead := leading_spelled (attributes_of_ahead hstart.bracket) (modifiers_none hstart.modifier)
  obtain ⟨w, next, more, hhead, hw⟩ := tokens_head hp.type.spelled n (v := .ofWord n p.2) rfl (u :: us)
  have hplain :
      w.isMark ")" = false ∧ w.isDone = false ∧ w.isOneOf parameterWords = false ∧ w.line = n := by
    rcases hw with rfl | ⟨-, word, rfl, hword⟩
    · exact ⟨rfl, rfl, rfl, rfl⟩
    · refine ⟨rfl, rfl, ofWord_isOneOf fun hmem => ?_, rfl⟩
      have hreserved : ∀ w ∈ parameterWords, w ∉ predefinedTypes ∧ w ≠ "global" ∧
          (isKeyword w = true ∨ w = "scoped") := by decide
      obtain ⟨hpredefined, hglobal, hkeyword | hscoped⟩ := hreserved word hmem
      · rcases hword with hword | hword
        · exact hpredefined hword
        · simp [hword.1] at hkeyword
      · rcases hword with hword | ⟨-, hword | hword⟩
        · exact hpredefined hword
        · exact hglobal hword
        · exact hp.type.words word hword (by simp [hscoped])
  rw [htokens]
  rw [hhead] at hread hlead ⊢
  rw [oneParameter, bind_apply, eatMark_not hplain.1]
  simp only [Bool.false_eq_true, if_false]
  rw [bind_apply, atEnd_apply]
  simp only [ahead_zero, hplain.2.1, Bool.false_eq_true, if_false]
  rw [bind_apply, hlead, bind_apply, skipParameterWords_none hplain.2.2.1, bind_apply, current_apply,
    bind_apply, hread]
  dsimp only
  rw [bind_apply, expectName_of (ofWord_name? hp.notKeyword), bind_apply, eatMark_not hu]
  simp only [Bool.false_eq_true, if_false, ahead_zero, hplain.2.2.2]
  rfl

def parameterTokens (n : Nat) (ps : List Written) : List Token :=
  TypeExpr.rowTokens n (ps.map (Written.tokens n))

theorem parameters_row {ps : List Written} (hne : ps ≠ []) (h : ∀ p ∈ ps, p.WellFormed room)
    (acc : List Parameter) (l : Nat) :
    loop id (oneParameter (typeExpr (room + 1))) acc
      ⟨parameterTokens n ps ++ .ofMark n ')' :: us, e, l, r⟩ =
      (acc ++ ps.map (Written.declared n), ⟨us, e, n, r⟩) := by
  induction ps generalizing acc l with
  | nil => exact absurd rfl hne
  | cons p ps ih =>
    have hp := h p List.mem_cons_self
    cases ps with
    | nil =>
      have htokens : parameterTokens n [p] = p.tokens n := by
        rw [parameterTokens, List.map_singleton, TypeExpr.rowTokens, List.intercalate_singleton]
      have hround : oneParameter (typeExpr (room + 1)) acc ⟨p.tokens n ++ .ofMark n ')' :: us, e, l, r⟩ =
          (.done (acc ++ [p.declared n]), ⟨us, e, n, r⟩) := oneParameter_read hp rfl acc
      rw [htokens, loop_done hround]
      rfl
    | cons q ps =>
      have htokens : parameterTokens n (p :: q :: ps) ++ .ofMark n ')' :: us =
          p.tokens n ++ .ofMark n ',' :: (parameterTokens n (q :: ps) ++ .ofMark n ')' :: us) := by
        rw [parameterTokens, TypeExpr.rowTokens, List.map_cons, List.map_cons, List.intercalate_cons_cons,
          List.append_assoc, List.append_assoc]
        rfl
      have hround : oneParameter (typeExpr (room + 1)) acc
          ⟨p.tokens n ++ .ofMark n ',' :: (parameterTokens n (q :: ps) ++ .ofMark n ')' :: us), e, l, r⟩ =
            (.again (acc ++ [p.declared n]),
              ⟨parameterTokens n (q :: ps) ++ .ofMark n ')' :: us, e, n, r⟩) :=
        oneParameter_read hp rfl acc
      rw [htokens, loop_again hround (by simp only [List.length_append, List.length_cons]; omega),
        ih (List.cons_ne_nil q ps) (fun x hx => h x (List.mem_cons_of_mem p hx)), List.append_assoc]
      rfl

theorem parameters_read {ps : List Written} (h : ∀ p ∈ ps, p.WellFormed room) :
    parameters (typeExpr (room + 1))
      ⟨.ofMark n '(' :: (parameterTokens n ps ++ .ofMark n ')' :: us), e, l, r⟩ =
      (ps.map (Written.declared n), ⟨us, e, n, r⟩) := by
  rw [parameters, bind_apply, skip_apply, drop_one]
  by_cases hps : ps = []
  · subst hps
    exact loop_done rfl
  · exact parameters_row hps h [] n

inductive Block : List Token → Prop where
  | mk {t u : Token} {ts : List Token} (ht : t.isMark openBrace = true)
    (hts : Balanced (·.isMark openBrace) (·.isMark closeBrace) 0 ts) (hu : u.isMark closeBrace = true) :
    Block (t :: (ts ++ [u]))

theorem Block.head (h : Block bs) (us : List Token) :
    ∃ t ts, bs ++ us = t :: ts ∧ t.isMark openBrace = true := by
  cases h with
  | @mk t u ts ht hts hu => exact ⟨t, ts ++ [u] ++ us, rfl, ht⟩

theorem Block.skip (h : Block bs) (us : List Token) (l : Nat) :
    ∃ l', skipBlock ⟨bs ++ us, e, l, r⟩ = ((), ⟨us, e, l', r⟩) := by
  cases h with
  | @mk t u ts ht hts hu =>
    rw [List.cons_append, List.append_assoc, List.singleton_append]
    exact ⟨u.line, skipBlock_balanced hts hu⟩

theorem skipBody_block (h : Block bs) (us : List Token) (l : Nat) :
    ∃ l', skipBody ⟨bs ++ us, e, l, r⟩ = ((), ⟨us, e, l', r⟩) := by
  obtain ⟨l', hskip⟩ := h.skip (e := e) (r := r) us l
  obtain ⟨t, ts, hhead, ht⟩ := h.head us
  refine ⟨l', ?_⟩
  rw [← hskip, hhead, skipBody, bind_apply, atMark_apply]
  simp only [ahead_zero, ht, if_true]

inductive AccessorBody : List Token → Prop where
  | semicolon {u : Token} (hu : u.isMark ";" = true) : AccessorBody [u]
  | block {bs : List Token} (h : Block bs) : AccessorBody bs

theorem AccessorBody.skip (h : AccessorBody bs) (us : List Token) (l : Nat) :
    ∃ l', skipAccessorBody ⟨bs ++ us, e, l, r⟩ = ((), ⟨us, e, l', r⟩) := by
  cases h with
  | @semicolon u hu =>
    refine ⟨u.line, ?_⟩
    rw [List.singleton_append, skipAccessorBody, bind_apply, eatMark_of hu]
    rfl
  | block h =>
    obtain ⟨l', hskip⟩ := h.skip (e := e) (r := r) us l
    obtain ⟨t, ts, hhead, ht⟩ := h.head us
    refine ⟨l', ?_⟩
    rw [← hskip, hhead, skipAccessorBody, bind_apply, eatMark_not (Token.isMark_of_ne ht (by decide))]
    simp only [Bool.false_eq_true, if_false]
    rw [bind_apply, atMark_apply]
    simp only [ahead_zero, ht, if_true]

theorem nextAccessor_word (hword : word ∈ accessorWords) (h : AccessorBody bs) (us : List Token)
    (acc : List String) (l : Nat) :
    ∃ l', nextAccessor acc ⟨.ofWord n word :: (bs ++ us), e, l, r⟩ =
      (.again (acc ++ [word]), ⟨us, e, l', r⟩) := by
  have hplain : ∀ w ∈ accessorWords, w ∉ modifierWords ∧ w ∉ contextualWords := by decide
  have hmodifier : (Cursor.mk (.ofWord n word :: (bs ++ us)) e l r).atModifier = false := by
    simp only [Cursor.atModifier, ahead_zero, ofWord_isOneOf (hplain word hword).1,
      ofWord_isOneOf (hplain word hword).2, Bool.and_false, Bool.or_false]
  have hfind : accessorWords.find? (Token.ofWord n word).isWord = some word := by
    have hself : ∀ w ∈ accessorWords, accessorWords.find? (fun x => w == x) = some w := by decide
    refine (List.find?_congr fun x _ => ?_).trans (hself word hword)
    rw [Bool.eq_iff_iff]
    simp [Token.ofWord, Token.isWord]
  have hmark : (Token.ofWord n word).isMark closeBrace = false := rfl
  have hdone : (Token.ofWord n word).isDone = false := rfl
  obtain ⟨l', hskip⟩ := h.skip (e := e) (r := r) us n
  refine ⟨l', ?_⟩
  rw [nextAccessor, bind_apply, eatMark_not hmark]
  simp only [Bool.false_eq_true, if_false]
  rw [bind_apply, atEnd_apply]
  simp only [ahead_zero, hdone, Bool.false_eq_true, if_false]
  rw [bind_apply, leading_plain rfl hmodifier, bind_apply, current_apply]
  simp only [ahead_zero, hfind]
  rw [bind_apply, skip_apply, drop_one, bind_apply]
  dsimp only [Token.ofWord] at hskip ⊢
  rw [hskip]
  rfl

inductive Accessors : List Token → List String → Prop where
  | close {u : Token} (hu : u.isMark closeBrace = true) : Accessors [u] []
  | next {n : Nat} {word : String} {bs ts : List Token} {words : List String} (hword : word ∈ accessorWords)
    (hbs : AccessorBody bs) (hts : Accessors ts words) :
    Accessors (.ofWord n word :: (bs ++ ts)) (word :: words)

theorem Accessors.read {words : List String} (h : Accessors ts words) (us : List Token) (acc : List String)
    (l : Nat) :
    ∃ l', loop id nextAccessor acc ⟨ts ++ us, e, l, r⟩ = (acc ++ words, ⟨us, e, l', r⟩) := by
  induction h generalizing acc l with
  | @close u hu =>
    refine ⟨u.line, loop_done ?_⟩
    rw [List.singleton_append, nextAccessor, bind_apply, eatMark_of hu, List.append_nil]
    rfl
  | @next n word bs ts words hword hbs hts ih =>
    obtain ⟨m, hnext⟩ := nextAccessor_word (e := e) (r := r) (n := n) hword hbs (ts ++ us) acc l
    obtain ⟨l', hrest⟩ := ih (acc ++ [word]) m
    refine ⟨l', ?_⟩
    rw [List.cons_append, List.append_assoc, loop_again hnext
      (by simp only [List.length_append, List.length_cons]; omega), hrest, List.append_assoc]
    rfl

theorem typedMember_call (type : Parse (Option TypeExpr)) (lead : Leading) (x : TypeExpr) (name : String) :
    typedMember type lead x name ⟨.ofMark n '(' :: ts, e, l, r⟩ =
      method type lead x name ⟨.ofMark n '(' :: ts, e, l, r⟩ := rfl

theorem memberOfType_method {ps : List Written} (hps : ∀ p ∈ ps, p.WellFormed room) (lead : Leading)
    (x : TypeExpr) (hname : isKeyword name = false) (hbs : Block bs) (us : List Token) (l : Nat) :
    ∃ l', memberOfType (typeExpr (room + 1)) lead x
        ⟨.ofWord n name :: .ofMark n '(' :: (parameterTokens n ps ++ .ofMark n ')' :: (bs ++ us)),
          e, l, r⟩ =
      (some (.method ⟨lead.attributes, lead.modifiers, some x, name, [],
        ps.map (Written.declared n), x.line⟩), ⟨us, e, l', r⟩) := by
  obtain ⟨l', hbody⟩ := skipBody_block (e := e) (r := r) hbs us n
  obtain ⟨t, ts, hhead, ht⟩ := hbs.head us
  have hwhere : t.isWord "where" = false := Token.isWord_of_isMark ht "where"
  refine ⟨l', ?_⟩
  have hparameters (l : Nat) : methodParameters (typeExpr (room + 1))
        ⟨.ofMark n '(' :: (parameterTokens n ps ++ .ofMark n ')' :: (bs ++ us)), e, l, r⟩ =
      (ps.map (Written.declared n), ⟨bs ++ us, e, n, r⟩) := parameters_read hps
  rw [memberOfType_named _ lead x hname rfl, map_apply, typedMember_call, method, bind_apply,
    typeParameters?_none rfl, bind_apply, hparameters]
  dsimp only
  rw [bind_apply, hhead, skipConstraints_none hwhere, ← hhead, bind_apply, hbody]
  rfl

theorem constructor_block {ps : List Written} (hps : ∀ p ∈ ps, p.WellFormed room) (lead : Leading)
    (hbs : Block bs) (us : List Token) (l : Nat) :
    ∃ l', constructor (typeExpr (room + 1)) lead
        ⟨.ofWord n name :: .ofMark n '(' :: (parameterTokens n ps ++ .ofMark n ')' :: (bs ++ us)),
          e, l, r⟩ =
      (.constructor ⟨lead.attributes, lead.modifiers, none, name, [], ps.map (Written.declared n), n⟩,
        ⟨us, e, l', r⟩) := by
  obtain ⟨l', hbody⟩ := skipBody_block (e := e) (r := r) hbs us n
  obtain ⟨t, ts, hhead, ht⟩ := hbs.head us
  refine ⟨l', ?_⟩
  rw [constructor, bind_apply, advance_apply, bind_apply]
  dsimp only
  have hparameters (l : Nat) : parameters (typeExpr (room + 1))
      ⟨.ofMark n '(' :: (parameterTokens n ps ++ .ofMark n ')' :: (bs ++ us)), e, l, r⟩ =
        (ps.map (Written.declared n), ⟨bs ++ us, e, n, r⟩) := parameters_read hps
  rw [hparameters, bind_apply, hhead, eatMark_not (Token.isMark_of_ne ht (by decide)), ← hhead]
  simp only [Bool.false_eq_true, if_false]
  rw [bind_apply, hbody]
  rfl

/-- A constructor is told by the name of its class before a list of parameters. -/
theorem member_block_constructor (nested : Leading → Parse (TypeHead × List Member)) {ps : List Written}
    (hps : ∀ p ∈ ps, p.WellFormed room) {words : List String}
    (hwords : ∀ w ∈ words, w ∈ modifierWords)
    (hname : isKeyword name = false) (hbs : Block bs) (us : List Token) (l : Nat) :
    ∃ l', member (typeExpr (room + 1)) nested name
        ⟨words.map (.ofWord n) ++ .ofWord n name :: .ofMark n '(' ::
          (parameterTokens n ps ++ .ofMark n ')' :: (bs ++ us)), e, l, r⟩ =
      (some (.constructor ⟨[], words, none, name, [], ps.map (Written.declared n), n⟩),
        ⟨us, e, l', r⟩) := by
  have halone (l : Nat) (ts : List Token) :
      (Cursor.mk (.ofWord n name :: .ofMark n '(' :: ts) e l r).atModifier = false ∧
        (Cursor.mk (.ofWord n name :: .ofMark n '(' :: ts) e l r).atTypeWord = false :=
    name_alone hname n '('
  obtain ⟨m, hlead⟩ := leading_words (n := n) (e := e) (l := l) (r := r) hwords rfl (halone l _).1 l
  obtain ⟨l', hconstructor⟩ := constructor_block (n := n) (e := e) (r := r) hps ⟨[], words⟩ hbs us m
  have hcall : ((Token.ofWord n name).identifier? == some name) = true ∧
      (Token.ofMark n '(').isMark "(" = true := ⟨by simp [Token.ofWord, Token.identifier?], rfl⟩
  refine ⟨l', ?_⟩
  rw [member, bind_apply, hlead, bind_apply, get_apply]
  have hfinalizer : (Token.ofWord n name).isMark "~" = false := rfl
  simp only [ahead_zero, ahead_one, (halone _ _).2, name_not_dropped hname, hfinalizer, hcall.1, hcall.2,
    Bool.or_self, Bool.and_self, Bool.false_eq_true, if_false, if_true]
  rw [map_apply, hconstructor]

theorem accessors_read {words : List String} (h : Accessors ts words) (us : List Token) (l : Nat) :
    ∃ l', accessors ⟨.ofMark n '\x7b' :: (ts ++ us), e, l, r⟩ = (words, ⟨us, e, l', r⟩) := by
  obtain ⟨l', hwords⟩ := h.read (e := e) (r := r) us [] n
  refine ⟨l', ?_⟩
  rw [accessors, bind_apply, skip_apply, drop_one]
  exact hwords

theorem typedMember_accessors (type : Parse (Option TypeExpr)) (lead : Leading) (x : TypeExpr) (name : String)
    {words : List String} (h : Accessors ts words) (hu : u.isMark "=" = false) (us : List Token) (l : Nat) :
    ∃ l', typedMember type lead x name ⟨.ofMark n '\x7b' :: (ts ++ u :: us), e, l, r⟩ =
      (.property ⟨lead.attributes, lead.modifiers, x, name, words, false, x.line⟩,
        ⟨u :: us, e, l', r⟩) := by
  obtain ⟨l', haccessors⟩ := accessors_read (n := n) (e := e) (r := r) h (u :: us) l
  have hlist : (Token.ofMark n '\x7b').isAnyMark ["(", "<"] = false := rfl
  have hbrace : (Token.ofMark n '\x7b').isMark openBrace = true := rfl
  refine ⟨l', ?_⟩
  rw [typedMember, bind_apply, current_apply]
  simp only [ahead_zero, hlist, Bool.false_eq_true, if_false]
  rw [bind_apply, atMark_apply]
  simp only [ahead_zero, hbrace, if_true]
  rw [bind_apply, haccessors, bind_apply, eatMark_not hu]
  rfl

theorem memberOfType_property (type : Parse (Option TypeExpr)) (lead : Leading) (x : TypeExpr)
    (hname : isKeyword name = false) {words : List String} (h : Accessors ts words)
    (hu : u.isMark "=" = false)
    (us : List Token) (l : Nat) :
    ∃ l', memberOfType type lead x ⟨.ofWord n name :: .ofMark n '\x7b' :: (ts ++ u :: us), e, l, r⟩ =
      (some (.property ⟨lead.attributes, lead.modifiers, x, name, words, false, x.line⟩),
        ⟨u :: us, e, l', r⟩) := by
  obtain ⟨l', hproperty⟩ := typedMember_accessors (n := n) (e := e) (r := r) type lead x name h hu us n
  refine ⟨l', ?_⟩
  rw [memberOfType_named type lead x hname rfl, map_apply, hproperty]

/-- A member that begins with modifiers and a type is read as what stands behind the type. -/
theorem member_words (nested : Leading → Parse (TypeHead × List Member)) (typeName : String)
    {words : List String} (hwords : ∀ w ∈ words, w ∈ modifierWords) {x : TypeExpr}
    (hx : PlainType room x)
    {found : Option Member} {d : Cursor}
    (hfound : memberOfType (typeExpr (room + 1)) ⟨[], words⟩ (x.onLine n)
      ⟨.ofWord n name :: us, e, n, r⟩ =
      (found, d)) (l : Nat) :
    member (typeExpr (room + 1)) nested typeName
        ⟨words.map (.ofWord n) ++ (x.tokens n ++ .ofWord n name :: us), e, l, r⟩ = (found, d) := by
  have hstart (l : Nat) : (Cursor.mk (x.tokens n ++ .ofWord n name :: us) e l r).StartsType typeName :=
    hx.startsType typeName rfl
  obtain ⟨m, hlead⟩ := leading_words (n := n) hwords (hstart l).bracket (hstart l).modifier l
  rw [member_startsType hlead (hstart m), memberFromType_of hx.read]
  exact hfound

end Parse
end DataClasses
