import DataClasses.Proofs.Declaration.Members

/-!
# Reading the classes of generated source

The members of a class are read one after the other, and so are the classes. All is read as it
was generated if every member is accepted; otherwise something is reported.
-/

set_option autoImplicit false

namespace DataClasses

namespace ClassTree

def declaredFrom (settings : Settings) : Nat → List Property → List Member
  | _, [] => []
  | n, p :: rest =>
    declared settings n p :: declaredFrom settings (n + (propertyLines settings p).length + 1) rest

def declaredConstructor (n : Nat) (c : ClassShape) : Member :=
  .constructor ⟨[], ["public"], none, c.name, [], [], n⟩

def classMembers (settings : Settings) (n : Nat) (c : ClassShape) : List Member :=
  if settings.constructors then
    declaredConstructor n c :: declaredFrom settings (n + 4) c.properties
  else declaredFrom settings n c.properties

theorem tokens_blocks (n : Nat) (block : List Line) (blocks : List (List Line)) :
    Line.tokensFrom n ([blankLine].intercalate (block :: blocks)) =
      Line.tokensFrom n block ++
        Line.tokensFrom (n + block.length + 1) ([blankLine].intercalate blocks) := by
  have hblank (m : Nat) : blankLine.tokens m = [] := rfl
  cases blocks with
  | nil => simp
  | cons next blocks =>
    rw [List.intercalate_cons_cons, Line.tokensFrom_append, Line.tokensFrom_append,
      Line.tokensFrom_cons, hblank]
    simp [Nat.add_assoc]

def memberTokens (settings : Settings) (n : Nat) (ps : List Property) : List Token :=
  Line.tokensFrom n ([blankLine].intercalate (ps.map (propertyLines settings)))

theorem memberTokens_cons (settings : Settings) (n : Nat) (p : Property) (ps : List Property) :
    memberTokens settings n (p :: ps) =
      Line.tokensFrom n (propertyLines settings p) ++
        memberTokens settings (n + (propertyLines settings p).length + 1) ps := by
  rw [memberTokens, List.map_cons, tokens_blocks]
  rfl

def constructorTokens (n : Nat) (c : ClassShape) : List Token :=
  [.ofWord n "public", .ofName n c.name, .ofMark n '(', .ofMark n ')', .ofMark (n + 1) '\x7b',
    .ofMark (n + 2) '\x7d']

theorem tokens_constructorLines (n : Nat) (c : ClassShape) :
    Line.tokensFrom n (constructorLines c) = constructorTokens n c := by
  simp [constructorLines, tokens_codeLine, constructorTokens]

def bodyTokens (settings : Settings) (n : Nat) (c : ClassShape) : List Token :=
  Line.tokensFrom n ([blankLine].intercalate (memberLines settings c))

theorem bodyTokens_eq (settings : Settings) (n : Nat) (c : ClassShape) :
    bodyTokens settings n c =
      if settings.constructors then constructorTokens n c ++ memberTokens settings (n + 4) c.properties
      else memberTokens settings n c.properties := by
  rw [bodyTokens, memberLines]
  split
  · rw [List.singleton_append, tokens_blocks, tokens_constructorLines]
    rfl
  · rfl

def classLineFrom (settings : Settings) (n : Nat) : Nat := n + if settings.documentation then 3 else 0

def declaredClass (settings : Settings) (n : Nat) (c : ClassShape) : Declaration :=
  .type ⟨.plainClass, c.name, [], ["public"], [], [], [], classLineFrom settings n⟩
    (classMembers settings (classLineFrom settings n + 2) c)

def declaredClasses (settings : Settings) : Nat → List ClassShape → List Declaration
  | _, [] => []
  | n, c :: rest =>
    declaredClass settings n c :: declaredClasses settings (n + (classLines settings c).length) rest

def Accepts (settings : Settings) (c : ClassShape) : Prop := ∀ p ∈ c.properties, Accepted settings p

def classEnd (settings : Settings) (n : Nat) (c : ClassShape) : Nat :=
  classLineFrom settings n + 2 + ([blankLine].intercalate (memberLines settings c)).length

theorem tokens_classLines (settings : Settings) (n : Nat) (c : ClassShape) :
    Line.tokensFrom n (classLines settings c) =
      .ofWord (classLineFrom settings n) "public" :: .ofWord (classLineFrom settings n) "class" ::
        .ofName (classLineFrom settings n) c.name ::
        .ofMark (classLineFrom settings n + 1) '\x7b' ::
        (bodyTokens settings (classLineFrom settings n + 2) c ++
          [.ofMark (classEnd settings n c) '\x7d']) := by
  obtain ⟨hsummary, hlength⟩ := tokens_summary n 4 settings.documentation ("Represents " ++ c.name)
  have hline : n + (classSummary settings c).length = classLineFrom settings n := congrArg (n + ·) hlength
  have hblank (m : Nat) : blankLine.tokens m = [] := rfl
  rw [classLines, Line.tokensFrom_append, Line.tokensFrom_append, classSummary, hsummary, ← classSummary]
  simp only [List.length_append, List.length_cons, Line.tokensFrom_cons, tokens_codeLine, hline]
  simp [hblank, bodyTokens, classEnd, Nat.add_assoc]
  exact congrArg (Token.ofMark · '\x7d') (by omega)

def classTokens (settings : Settings) (n : Nat) (cs : List ClassShape) : List Token :=
  Line.tokensFrom n (cs.flatMap (classLines settings))

theorem classTokens_cons (settings : Settings) (n : Nat) (c : ClassShape) (cs : List ClassShape) :
    classTokens settings n (c :: cs) =
      Line.tokensFrom n (classLines settings c) ++
        classTokens settings (n + (classLines settings c).length) cs := by
  rw [classTokens, List.flatMap_cons, Line.tokensFrom_append]
  rfl

end ClassTree

namespace Parse

open ClassTree

variable {e k l n : Nat} {r : List Diagnostic} {t u : Token} {ts : List Token}

def StartsMember (t : Token) : Prop := ∃ n, t = .ofMark n '[' ∨ t = .ofWord n "public"

theorem StartsMember.isMark_not (h : StartsMember t) :
    t.isDone = false ∧ t.isMark closeBrace = false ∧ t.isMark ";" = false ∧ t.isMark "=" = false := by
  obtain ⟨n, rfl | rfl⟩ := h
  · exact ⟨rfl, rfl, rfl, rfl⟩
  · exact ⟨rfl, rfl, rfl, rfl⟩

theorem property_head (settings : Settings) (n : Nat) (p : Property) (ts : List Token) :
    ∃ t us, Line.tokensFrom n (propertyLines settings p) ++ ts = t :: us ∧ StartsMember t := by
  rw [tokens_property, annotationTokens]
  split
  · exact ⟨_, _, rfl, n, .inl rfl⟩
  · exact ⟨_, _, rfl, _, .inr rfl⟩

theorem property_length (settings : Settings) (n : Nat) (p : Property) :
    0 < (Line.tokensFrom n (propertyLines settings p)).length := by
  obtain ⟨t, us, hcons, -⟩ := property_head settings n p []
  rw [List.append_nil] at hcons
  simp [hcons]

theorem memberTokens_less (settings : Settings) (n : Nat) (p : Property) (ps : List Property)
    (ts : List Token) :
    (memberTokens settings (n + (propertyLines settings p).length + 1) ps ++ ts).length <
      (memberTokens settings n (p :: ps) ++ ts).length := by
  have := property_length settings n p
  simp only [memberTokens_cons, List.length_append]
  omega

theorem memberTokens_head (settings : Settings) (n k : Nat) (ps : List Property) (ts : List Token) :
    ∃ u us, memberTokens settings n ps ++ .ofMark k '\x7d' :: ts = u :: us ∧
      u.isMark "=" = false := by
  cases ps with
  | nil => exact ⟨_, _, rfl, rfl⟩
  | cons p ps =>
    rw [memberTokens_cons, List.append_assoc]
    obtain ⟨t, us, hcons, hstart⟩ := property_head settings n p
      (memberTokens settings (n + (propertyLines settings p).length + 1) ps ++ .ofMark k '\x7d' :: ts)
    exact ⟨t, us, hcons, hstart.isMark_not.2.2.2⟩

theorem nextMember_found {item : Parse (Option Member)} {d : Cursor} {x : Member}
    (hdone : t.isDone = false) (hclose : t.isMark closeBrace = false) (hempty : t.isMark ";" = false)
    (hitem : item ⟨t :: ts, e, l, r⟩ = (some x, d))
    (hless : d.rest.length < (t :: ts).length) (acc : List Member) :
    nextMember item acc ⟨t :: ts, e, l, r⟩ = (.again (acc ++ [x]), d) := by
  have hne : (d.rest.length == ts.length + 1) = false := by
    rw [List.length_cons] at hless
    simpa using by omega
  rw [nextMember_item hdone hclose hempty, bind_apply, hitem, bind_apply, get_apply]
  simp only [hne, Bool.false_eq_true, if_false]
  rfl

abbrev memberOf (c : ClassShape) : Parse (Option Member) :=
  member (typeExpr 126) (typeDecl 126) c.name

theorem nextMember_property (settings : Settings) (c : ClassShape) (n k : Nat) {p : Property}
    (ps : List Property) (h : Accepted settings p) (acc : List Member) (l : Nat) :
    ∃ l', nextMember (memberOf c) acc
        ⟨memberTokens settings n (p :: ps) ++ .ofMark k '\x7d' :: ts, e, l, r⟩ =
      (.again (acc ++ [declared settings n p]),
        ⟨memberTokens settings (n + (propertyLines settings p).length + 1) ps ++
          .ofMark k '\x7d' :: ts, e, l', r⟩) := by
  have hless := memberTokens_less settings n p ps (.ofMark k '\x7d' :: ts)
  rw [memberTokens_cons, List.append_assoc] at hless ⊢
  obtain ⟨u, us, htail, hu⟩ := memberTokens_head settings
    (n + (propertyLines settings p).length + 1) k ps ts
  rw [htail] at hless ⊢
  obtain ⟨t, vs, hcons, ht⟩ := property_head settings n p (u :: us)
  have hitem : memberOf c ⟨t :: vs, e, l, r⟩ =
      (some (declared settings n p), ⟨u :: us, e, declarationLineFrom settings n, r⟩) := by
    rw [← hcons]
    exact member_accepted h hu
  obtain ⟨hdone, hclose, hempty, -⟩ := ht.isMark_not
  rw [hcons] at hless ⊢
  exact ⟨_, nextMember_found hdone hclose hempty hitem hless acc⟩

theorem properties_read (settings : Settings) (c : ClassShape) (n k : Nat) {ps : List Property}
    (h : ∀ p ∈ ps, Accepted settings p) (acc : List Member) (l : Nat) :
    ∃ l', loop id (nextMember (memberOf c)) acc
        ⟨memberTokens settings n ps ++ .ofMark k '\x7d' :: ts, e, l, r⟩ =
      (acc ++ declaredFrom settings n ps, ⟨.ofMark k '\x7d' :: ts, e, l', r⟩) := by
  induction ps generalizing n acc l with
  | nil =>
    rw [declaredFrom, List.append_nil]
    exact ⟨l, loop_done rfl⟩
  | cons p ps ih =>
    obtain ⟨l', hnext⟩ := nextMember_property (e := e) (r := r) settings c n k ps (h p (by simp)) acc l
    rw [loop_again hnext (memberTokens_less settings n p ps _)]
    obtain ⟨l'', hrest⟩ := ih (n + (propertyLines settings p).length + 1)
      (fun q hq => h q (by simp [hq])) (acc ++ [declared settings n p]) l'
    exact ⟨l'', by rw [hrest, declaredFrom, List.append_assoc]; rfl⟩

theorem properties_rejected (settings : Settings) (c : ClassShape) (n k : Nat) {ps : List Property}
    (h : ∃ p ∈ ps, ¬Accepted settings p) (acc : List Member) (l : Nat) :
    (loop id (nextMember (memberOf c)) acc
      ⟨memberTokens settings n ps ++ .ofMark k '\x7d' :: ts, e, l, r⟩).2.Faulty := by
  induction ps generalizing n acc l with
  | nil => simp at h
  | cons p ps ih =>
    by_cases hp : Accepted settings p
    · obtain ⟨l', hnext⟩ := nextMember_property (e := e) (r := r) settings c n k ps hp acc l
      rw [loop_again hnext (memberTokens_less settings n p ps _)]
      refine ih _ ?_ _ l'
      obtain ⟨q, hq, hrejected⟩ := h
      rcases List.mem_cons.mp hq with rfl | hq
      · exact absurd hp hrejected
      · exact ⟨q, hq, hrejected⟩
    · have hgrows : Grows (memberOf c) := member_grows (typeExpr_grows _) (typeDecl_grows _) _
      rw [memberTokens_cons, List.append_assoc]
      obtain ⟨t, us, hcons, ht⟩ := property_head settings n p
        (memberTokens settings (n + (propertyLines settings p).length + 1) ps ++
          .ofMark k '\x7d' :: ts)
      obtain ⟨hdone, hclose, hempty, -⟩ := ht.isMark_not
      have hitem : (memberOf c ⟨t :: us, e, l, r⟩).2.Faulty := by
        rw [← hcons]
        exact member_rejected hp
      rw [hcons]
      exact loop_faulty (nextMember_grows hgrows)
        (nextMember_faulty hdone hclose hempty acc hitem)

theorem constructor_spelled (type : Parse (Option TypeExpr)) (lead : Leading) (name : String) :
    constructor type lead ⟨.ofName n name :: .ofMark n '(' :: .ofMark n ')' ::
        .ofMark (n + 1) '\x7b' :: .ofMark (n + 2) '\x7d' :: ts, e, l, r⟩ =
      (.constructor ⟨lead.attributes, lead.modifiers, none, name, [], [], n⟩,
        ⟨ts, e, n + 2, r⟩) := by
  have hparameters (l : Nat) : parameters type ⟨.ofMark n '(' :: .ofMark n ')' ::
      .ofMark (n + 1) '\x7b' :: .ofMark (n + 2) '\x7d' :: ts, e, l, r⟩ =
      ([], ⟨.ofMark (n + 1) '\x7b' :: .ofMark (n + 2) '\x7d' :: ts, e, n, r⟩) := by
    rw [parameters, bind_apply, skip_apply, drop_one]
    exact loop_done rfl
  rw [constructor, bind_apply, advance_apply, bind_apply, hparameters]
  rfl

theorem member_constructor (c : ClassShape) :
    memberOf c ⟨constructorTokens n c ++ ts, e, l, r⟩ =
      (some (declaredConstructor n c), ⟨ts, e, n + 2, r⟩) := by
  have hmodifiers : ∀ w ∈ modifierWords, Identifier.isKeyword w = true := by decide
  have hclass : ∀ w ∈ ["class", "struct", "interface", "enum"], Identifier.isKeyword w = true := by
    decide
  have hdropped : ∀ w ∈ ["event", "delegate", "implicit", "explicit"],
      Identifier.isKeyword w = true := by decide
  have hparen : (Token.ofMark n '(').isIdentifier = false ∧ (Token.ofMark n '(').isName = false ∧
      (Token.ofMark n '(').isOneOf ["class", "struct"] = false ∧
      (Token.ofMark n '(').isMark "(" = true := ⟨rfl, rfl, rfl, rfl⟩
  have hat (l : Nat) (ts : List Token) :
      (Cursor.mk (.ofName n c.name :: .ofMark n '(' :: ts) e l r).atModifier = false := by
    simp [Cursor.atModifier, Token.ofName_isOneOf_of_keywords hmodifiers, hparen.1]
  have htypeWord (l : Nat) (ts : List Token) :
      (Cursor.mk (.ofName n c.name :: .ofMark n '(' :: ts) e l r).atTypeWord = false := by
    simp [Cursor.atTypeWord, Token.ofName_isOneOf_of_keywords hclass, hparen.2.1, hparen.2.2.1]
  simp only [constructorTokens, List.cons_append, List.nil_append]
  rw [memberOf, member, bind_apply,
    leading_spelled (attributes_none rfl) (modifiers_public (hat _ _)), bind_apply, get_apply]
  simp only [htypeWord, ahead_zero, ahead_one, Token.ofName_isOneOf_of_keywords hdropped,
    Token.ofName_isMark, Token.ofName_identifier?, hparen.2.2.2, Bool.or_false, beq_self_eq_true,
    Bool.and_true, Bool.false_eq_true, if_false, if_true]
  rw [map_apply, constructor_spelled]
  rfl

/-- The step over the constructor, if there is one, comes before those over the members. -/
theorem members_apply (settings : Settings) (n k : Nat) (c : ClassShape) :
    ∃ m acc l', members (memberOf c) ⟨bodyTokens settings n c ++ .ofMark k '\x7d' :: ts, e, l, r⟩ =
        loop id (nextMember (memberOf c)) acc
          ⟨memberTokens settings m c.properties ++ .ofMark k '\x7d' :: ts, e, l', r⟩ ∧
      acc ++ declaredFrom settings m c.properties = classMembers settings n c := by
  rw [bodyTokens_eq, classMembers]
  split
  · refine ⟨n + 4, [declaredConstructor n c], n + 2, ?_, rfl⟩
    rw [List.append_assoc]
    refine loop_again (nextMember_found rfl rfl rfl (member_constructor c) ?_ []) ?_
    · simp
      omega
    · simp [constructorTokens]
      omega
  · exact ⟨n, [], l, rfl, rfl⟩

theorem classMembers_read (settings : Settings) (n k : Nat) {c : ClassShape}
    (h : ∀ p ∈ c.properties, Accepted settings p) (ts : List Token) :
    ∃ l', members (memberOf c) ⟨bodyTokens settings n c ++ .ofMark k '\x7d' :: ts, e, l, r⟩ =
      (classMembers settings n c, ⟨.ofMark k '\x7d' :: ts, e, l', r⟩) := by
  obtain ⟨m, acc, l', hloop, hmembers⟩ := members_apply (e := e) (l := l) (r := r) settings n k c
  obtain ⟨l'', hread⟩ := properties_read settings c m k h acc l'
  exact ⟨l'', by rw [hloop, hread, hmembers]⟩

theorem classMembers_rejected (settings : Settings) (n k : Nat) {c : ClassShape}
    (h : ∃ p ∈ c.properties, ¬Accepted settings p) :
    (members (memberOf c) ⟨bodyTokens settings n c ++ .ofMark k '\x7d' :: ts, e, l, r⟩).2.Faulty := by
  obtain ⟨m, acc, l', hloop, -⟩ := members_apply (e := e) (l := l) (r := r) settings n k c
  rw [hloop]
  exact properties_rejected settings c m k h acc l'

def StartsClass (t : Token) : Prop := ∃ n, t = .ofMark n '\x7d' ∨ t = .ofWord n "public"

theorem typeDecl_class (n : Nat) (c : ClassShape) (lead : Leading) :
    typeDecl 127 lead ⟨.ofWord n "class" :: .ofName n c.name :: .ofMark (n + 1) '\x7b' :: ts, e, l, r⟩ =
      (do
        let inside ← members (memberOf c)
        let _ ← expectMark closeBrace .closeBraceExpected
        let _ ← eatMark ";"
        pure (⟨.plainClass, c.name, [], lead.modifiers, lead.attributes, [], [], n⟩, inside) :
          Parse (TypeHead × List Member)) ⟨ts, e, n + 1, r⟩ := by
  have hkind : typeKind ⟨.ofWord n "class" :: .ofName n c.name :: .ofMark (n + 1) '\x7b' :: ts, e, l, r⟩ =
      (.plainClass, ⟨.ofName n c.name :: .ofMark (n + 1) '\x7b' :: ts, e, n, r⟩) := rfl
  rw [typeDecl, typeDeclWith_apply _ _ _ hkind (.inr rfl), bind_apply, typeBody_brace _ (by decide)]
  rfl

theorem typeDecl_read (settings : Settings) (n k : Nat) {c : ClassShape} (h : Accepts settings c)
    (lead : Leading) (hu : StartsClass u) :
    typeDecl 127 lead ⟨.ofWord n "class" :: .ofName n c.name :: .ofMark (n + 1) '\x7b' ::
        (bodyTokens settings (n + 2) c ++ .ofMark k '\x7d' :: u :: ts), e, l, r⟩ =
      ((⟨.plainClass, c.name, [], lead.modifiers, lead.attributes, [], [], n⟩,
        classMembers settings (n + 2) c), ⟨u :: ts, e, k, r⟩) := by
  have hsemicolon : u.isMark ";" = false := by
    obtain ⟨m, rfl | rfl⟩ := hu
    · rfl
    · rfl
  obtain ⟨l', hread⟩ := classMembers_read (e := e) (l := n + 1) (r := r) settings (n + 2) k h (u :: ts)
  rw [typeDecl_class n c lead, bind_apply, hread, bind_apply,
    expectMark_of _ rfl, bind_apply, eatMark_not hsemicolon]
  rfl

theorem typeDecl_rejected (settings : Settings) (n k : Nat) {c : ClassShape}
    (h : ¬Accepts settings c) (lead : Leading) :
    (typeDecl 127 lead ⟨.ofWord n "class" :: .ofName n c.name :: .ofMark (n + 1) '\x7b' ::
      (bodyTokens settings (n + 2) c ++ .ofMark k '\x7d' :: ts), e, l, r⟩).2.Faulty := by
  have hsome : ∃ p ∈ c.properties, ¬Accepted settings p := by
    simpa [Accepts] using h
  rw [typeDecl_class n c lead, bind_apply]
  refine Grows.faulty ?_ (classMembers_rejected settings (n + 2) k hsome)
  exact (expectMark_grows _ _).bind fun _ => (eatMark_grows _).bind fun _ => pure_grows _

def scopeInner : Inner := ⟨typeExpr 127, typeDecl 127, scope 127⟩

theorem scopeInner_grow : scopeInner.Grow := ⟨typeExpr_grows _, typeDecl_grows _, scope_grows _⟩

theorem declaration_class (inner : Inner) (name : String) (acc : List Declaration) :
    declaration inner true acc
        ⟨.ofWord n "public" :: .ofWord n "class" :: .ofName n name :: ts, e, l, r⟩ =
      ((fun x => .again (acc ++ [.type x.1 x.2])) <$> inner.typeDecl ⟨[], ["public"]⟩ :
        Parse (Round (List Declaration) (List Declaration)))
        ⟨.ofWord n "class" :: .ofName n name :: ts, e, n, r⟩ := by
  have hleading : leading ⟨.ofWord n "public" :: .ofWord n "class" :: .ofName n name :: ts, e, l, r⟩ =
      (⟨[], ["public"]⟩, ⟨.ofWord n "class" :: .ofName n name :: ts, e, n, r⟩) :=
    leading_spelled (attributes_none rfl) (modifiers_public rfl)
  have hnone : (Token.ofWord n "public").isDone = false ∧
      (Token.ofWord n "public").isMark closeBrace = false ∧
      (Token.ofWord n "public").isWord "namespace" = false ∧
      (Token.ofWord n "public").isWord "extern" = false := ⟨rfl, rfl, rfl, rfl⟩
  have himport (l : Nat) (ts : List Token) :
      (Cursor.mk (.ofWord n "public" :: ts) e l r).atImport = false := rfl
  have hclass : (Token.ofWord n "class").isWord "delegate" = false ∧
      ∀ l ts, (Cursor.mk (.ofWord n "class" :: ts) e l r).atTypeWord = true := ⟨rfl, fun _ _ => rfl⟩
  rw [declaration, bind_apply, get_apply]
  simp only [ahead_zero, hnone.1, hnone.2.1, hnone.2.2.1, hnone.2.2.2, himport, Bool.false_and,
    Bool.false_eq_true, if_false]
  rw [bind_apply, hleading, bind_apply, get_apply]
  simp only [ahead_zero, hclass.1, hclass.2, Bool.false_eq_true, if_false, if_true]
  rfl

theorem classTokens_head (settings : Settings) (n k : Nat) (cs : List ClassShape) (ts : List Token) :
    ∃ u us, classTokens settings n cs ++ .ofMark k '\x7d' :: ts = u :: us ∧ StartsClass u := by
  cases cs with
  | nil => exact ⟨_, _, rfl, k, .inl rfl⟩
  | cons c cs =>
    rw [classTokens_cons, tokens_classLines]
    exact ⟨_, _, rfl, _, .inr rfl⟩

theorem classTokens_less (settings : Settings) (n : Nat) (c : ClassShape) (cs : List ClassShape)
    (ts : List Token) :
    (classTokens settings (n + (classLines settings c).length) cs ++ ts).length <
      (classTokens settings n (c :: cs) ++ ts).length := by
  simp only [classTokens_cons, tokens_classLines, List.length_append, List.length_cons]
  omega

theorem declaration_read (settings : Settings) (n k : Nat) {c : ClassShape} (cs : List ClassShape)
    (h : Accepts settings c) (acc : List Declaration) :
    ∃ l', declaration scopeInner true acc
        ⟨classTokens settings n (c :: cs) ++ .ofMark k '\x7d' :: ts, e, l, r⟩ =
      (.again (acc ++ [declaredClass settings n c]),
        ⟨classTokens settings (n + (classLines settings c).length) cs ++ .ofMark k '\x7d' :: ts, e,
          l', r⟩) := by
  obtain ⟨u, us, htail, hu⟩ := classTokens_head settings (n + (classLines settings c).length) k cs ts
  have hinner : scopeInner.typeDecl = typeDecl 127 := rfl
  rw [classTokens_cons, tokens_classLines, List.append_assoc, htail]
  simp only [List.cons_append, List.append_assoc, List.nil_append]
  rw [declaration_class, map_apply, hinner, typeDecl_read settings _ _ h _ hu]
  exact ⟨_, rfl⟩

/-- Classes whose members are accepted are read one after the other. -/
theorem classes_read (settings : Settings) (n k : Nat) {cs : List ClassShape}
    (h : ∀ c ∈ cs, Accepts settings c) (acc : List Declaration) (l : Nat) :
    ∃ l', loop id (declaration scopeInner true) acc
        ⟨classTokens settings n cs ++ .ofMark k '\x7d' :: ts, e, l, r⟩ =
      (acc ++ declaredClasses settings n cs, ⟨.ofMark k '\x7d' :: ts, e, l', r⟩) := by
  induction cs generalizing n acc l with
  | nil =>
    rw [declaredClasses, List.append_nil]
    exact ⟨l, loop_done rfl⟩
  | cons c cs ih =>
    obtain ⟨l', hnext⟩ := declaration_read (l := l) settings n k cs (h c (by simp)) acc
    rw [loop_again hnext (classTokens_less settings n c cs _)]
    obtain ⟨l'', hrest⟩ := ih (n + (classLines settings c).length)
      (fun d hd => h d (by simp [hd])) (acc ++ [declaredClass settings n c]) l'
    exact ⟨l'', by rw [hrest, declaredClasses, List.append_assoc]; rfl⟩

theorem classes_rejected (settings : Settings) (n k : Nat) {cs : List ClassShape}
    (h : ∃ c ∈ cs, ¬Accepts settings c) (acc : List Declaration) (l : Nat) :
    (loop id (declaration scopeInner true) acc
      ⟨classTokens settings n cs ++ .ofMark k '\x7d' :: ts, e, l, r⟩).2.Faulty := by
  induction cs generalizing n acc l with
  | nil => simp at h
  | cons c cs ih =>
    by_cases hc : Accepts settings c
    · obtain ⟨l', hnext⟩ := declaration_read (l := l) settings n k cs hc acc
      rw [loop_again hnext (classTokens_less settings n c cs _)]
      refine ih _ ?_ _ l'
      obtain ⟨d, hd, hrejected⟩ := h
      rcases List.mem_cons.mp hd with rfl | hd
      · exact absurd hc hrejected
      · exact ⟨d, hd, hrejected⟩
    · have hinner : scopeInner.typeDecl = typeDecl 127 := rfl
      refine loop_faulty (declaration_grows scopeInner_grow true) ?_
      rw [classTokens_cons, tokens_classLines]
      simp only [List.cons_append, List.append_assoc, List.nil_append]
      rw [declaration_class, map_apply, hinner]
      dsimp only
      exact typeDecl_rejected settings _ _ hc _

end Parse
end DataClasses
