import DataClasses.Proofs.Declaration.Bodies
import DataClasses.Proofs.Declaration.FieldNames

/-!
# Bodies in a source

A class with a method, a constructor or a property whose accessors have bodies, and a field behind
it. The bodies stand on lines of their own. Whatever balanced code they are, the member is read with
its head and the field behind it, and only the line of the field depends on them.
-/

set_option autoImplicit false

namespace DataClasses

open Identifier (IsName isKeyword)
open Parse (AccessorBody Accessors Block PlainType Written modifierWords accessorWords openBrace closeBrace)
open Token (before scan classHead Balanced EndsName)

def spaced (words : List String) (text : String) : String :=
  words.foldr (fun word rest => word ++ " " ++ rest) text

def blockText (body : String) : String := " \x7b\n" ++ body ++ "\n\x7d\n"

def blockLines (body : String) : Nat := Token.lineEnds body.toList + 3

structure BodiedAccessor where
  word : String
  body : Option String

namespace BodiedAccessor

def text (a : BodiedAccessor) : String :=
  match a.body with
  | none => a.word ++ ";\n"
  | some body => a.word ++ blockText body

def lines (a : BodiedAccessor) : Nat := a.body.elim 1 blockLines

end BodiedAccessor

inductive Bodied where
  | method (modifiers : List String) (returns : TypeExpr) (name : String) (parameters : List Written)
    (body : String)
  | constructor (modifiers : List String) (parameters : List Written) (body : String)
  | property (modifiers : List String) (type : TypeExpr) (name : String) (accessors : List BodiedAccessor)

/-- Code with nothing wrong in it, the braces of which close in it what they open. -/
structure ClosedCode (body : String) : Prop where
  scanned : (Token.ofSource body).2 = []
  balanced : Balanced (·.isMark openBrace) (·.isMark closeBrace) 0 (Token.inside body)

namespace Bodied

def parametersText (ps : List Written) : String :=
  "(" ++ ", ".intercalate (ps.map fun p => p.1.text ++ " " ++ p.2) ++ ")"

def text : Bodied → String
  | method modifiers returns name parameters body =>
    spaced modifiers (returns.text ++ " " ++ name ++ parametersText parameters ++ blockText body)
  | constructor modifiers parameters body =>
    spaced modifiers ("C" ++ parametersText parameters ++ blockText body)
  | property modifiers type name accessors =>
    spaced modifiers
      (type.text ++ " " ++ name ++ " \x7b\n" ++ accessors.foldr (fun a rest => a.text ++ rest) "\x7d\n")

def lines : Bodied → Nat
  | method _ _ _ _ body => blockLines body
  | constructor _ _ body => blockLines body
  | property _ _ _ accessors => (accessors.map BodiedAccessor.lines).sum + 2

def declared (n : Nat) : Bodied → Member
  | method modifiers returns name parameters _ =>
    .method ⟨[], modifiers, some (returns.onLine n), name, [], parameters.map (Written.declared n), n⟩
  | constructor modifiers parameters _ =>
    .constructor ⟨[], modifiers, none, "C", [], parameters.map (Written.declared n), n⟩
  | property modifiers type name accessors =>
    .property ⟨[], modifiers, type.onLine n, name, accessors.map BodiedAccessor.word, false, n⟩

inductive WellFormed : Bodied → Prop where
  | method {modifiers : List String} {returns : TypeExpr} {name : String} {parameters : List Written}
    {body : String} (hmodifiers : ∀ w ∈ modifiers, w ∈ modifierWords) (hreturns : PlainType 126 returns)
    (hname : IsName name ∧ isKeyword name = false) (hparameters : ∀ p ∈ parameters, p.WellFormed 126)
    (hbody : ClosedCode body) : WellFormed (.method modifiers returns name parameters body)
  | constructor {modifiers : List String} {parameters : List Written} {body : String}
    (hmodifiers : ∀ w ∈ modifiers, w ∈ modifierWords)
    (hparameters : ∀ p ∈ parameters, p.WellFormed 126)
    (hbody : ClosedCode body) : WellFormed (.constructor modifiers parameters body)
  | property {modifiers : List String} {type : TypeExpr} {name : String} {accessors : List BodiedAccessor}
    (hmodifiers : ∀ w ∈ modifiers, w ∈ modifierWords) (htype : PlainType 126 type)
    (hname : IsName name ∧ isKeyword name = false) (hwords : ∀ a ∈ accessors, a.word ∈ accessorWords)
    (hbodies : ∀ a ∈ accessors, ∀ body ∈ a.body, ClosedCode body) :
    WellFormed (.property modifiers type name accessors)

end Bodied

namespace Token

variable {n : Nat} {fresh : Bool} {rest : List Char}

/-- A type is scanned the same where a directive may begin. -/
theorem scan_startsType {c : Char} (hc : TypeExpr.StartsType c) (n : Nat) (cs : List Char) :
    scan n true (c :: cs) = scan n false (c :: cs) := by
  rcases hc with rfl | hc
  · rw [scan_mark n true (by decide), scan_mark n false (by decide)]
  · have hkind : (identifierPiece false c cs).kind.isNone = false := rfl
    rw [scan_cons, scan_cons, piece_of_start true hc, piece_of_start false hc]
    simp only [hkind, Bool.false_and]

theorem scan_type {t : TypeExpr} (ht : t.WellSpelled) (n : Nat) (fresh : Bool) (hrest : t.EndsBefore rest) :
    scan n fresh (t.text.toList ++ rest) = before (t.tokens n) (scan n false rest) := by
  obtain ⟨c, cs, htext, hc⟩ := ht.text_head
  rw [← TypeExpr.scan_text ht n hrest, htext, List.cons_append]
  cases fresh with
  | true => exact scan_startsType hc n _
  | false => rfl

theorem spaced_cons (word : String) (words : List String) (text : String) (rest : List Char) :
    (spaced (word :: words) text).toList ++ rest =
      word.toList ++ ' ' :: ((spaced words text).toList ++ rest) := by
  simp [spaced]

theorem modifier_isName : ∀ w ∈ modifierWords, IsName w := by decide

theorem scan_spaced {words : List String} (hwords : ∀ w ∈ words, w ∈ modifierWords)
    (text : String) (n : Nat) (fresh : Bool) (rest : List Char) :
    ∃ fresh', scan n fresh ((spaced words text).toList ++ rest) =
      before (words.map (.ofWord n)) (scan n fresh' (text.toList ++ rest)) := by
  induction words generalizing fresh with
  | nil => exact ⟨fresh, rfl⟩
  | cons word words ih =>
    obtain ⟨fresh', hrest⟩ := ih (fun w hw => hwords w (List.mem_cons_of_mem word hw)) false
    have hname := modifier_isName word (hwords word List.mem_cons_self)
    refine ⟨fresh', ?_⟩
    rw [spaced_cons, scan_word n fresh hname (endsName_cons (by decide) _), scan_space, hrest, before_before]
    rfl

theorem scan_block {body : String} (h : ClosedCode body) (n : Nat) (rest : List Char) :
    ∃ bs, Block bs ∧ scan n false ((blockText body).toList ++ rest) =
      before bs (scan (n + blockLines body) true rest) := by
  have htext : (blockText body).toList ++ rest =
      ' ' :: '\x7b' :: '\n' :: (body.toList ++ '\n' :: '\x7d' :: '\n' :: rest) := by
    simp [blockText]
  have hlines : n + 1 + lineEnds body.toList + 1 + 1 = n + blockLines body := by
    rw [blockLines]
    omega
  have hbalanced := h.balanced.later n (fun _ => rfl) (fun _ => rfl)
  rw [htext, scan_space, scan_mark n false (by decide), scan_newline, scan_ownLines h.scanned,
    scan_mark _ true (by decide), scan_newline, hlines, before_before, before_before]
  exact ⟨_, .mk (t := .ofMark n '\x7b') rfl hbalanced rfl, rfl⟩

theorem scan_written {p : Written} (hp : p.WellFormed 126) (n : Nat) (hrest : EndsName rest) :
    scan n false (p.1.text.toList ++ ' ' :: (p.2.toList ++ rest)) =
      before (p.tokens n) (scan n false rest) := by
  rw [scan_type hp.type.spelled n false (TypeExpr.endsBefore_cons _ (by decide) (by decide) _), scan_space,
    scan_word n false hp.isName hrest, before_before]
  rfl

theorem scan_parameters {ps : List Written} (hps : ∀ p ∈ ps, p.WellFormed 126) (n : Nat)
    (rest : List Char) :
    scan n false ((Bodied.parametersText ps).toList ++ rest) =
      before (.ofMark n '(' :: (Parse.parameterTokens n ps ++ [.ofMark n ')'])) (scan n false rest) := by
  let chars (p : Written) : List Char := p.1.text.toList ++ ' ' :: p.2.toList
  have htext : (Bodied.parametersText ps).toList ++ rest =
      '(' :: (", ".toList.intercalate (ps.map chars) ++ ')' :: rest) := by
    simp [Bodied.parametersText, String.toList_intercalate, chars, Function.comp_def]
  have hrow : scan n false (", ".toList.intercalate (ps.map chars) ++ ')' :: rest) =
      before (Parse.parameterTokens n ps) (scan n false (')' :: rest)) := by
    by_cases hne : ps = []
    · subst hne
      rfl
    · have hends (cs : List Char) : EndsName (", ".toList ++ cs) := endsName_cons (c := ',') (by decide) _
      have hcomma (cs : List Char) :
          scan n false (", ".toList ++ cs) = before [.ofMark n ','] (scan n false cs) := by
        have hseparator : ", ".toList ++ cs = ',' :: ' ' :: cs := rfl
        rw [hseparator, scan_comma, scan_space]
      refine TypeExpr.scan_joined hne (fun p hp cs hcs => ?_) (fun p _ cs => ⟨hends _, hcomma _⟩)
        (endsName_cons (by decide) rest)
      rw [List.append_assoc, List.cons_append]
      exact scan_written (hps p hp) n hcs
  rw [htext, scan_mark n false (by decide), hrow, scan_mark n false (by decide), before_before, before_before]
  rfl

theorem scan_accessor {a : BodiedAccessor} (hword : a.word ∈ accessorWords)
    (ha : ∀ body ∈ a.body, ClosedCode body) (n : Nat) (rest : List Char) :
    ∃ bs, AccessorBody bs ∧ scan n true (a.text.toList ++ rest) =
      before (.ofWord n a.word :: bs) (scan (n + a.lines) true rest) := by
  have hnames : ∀ w ∈ accessorWords, IsName w := by decide
  cases hbody : a.body with
  | none =>
    have htext : a.text.toList ++ rest = a.word.toList ++ ';' :: '\n' :: rest := by
      simp [BodiedAccessor.text, hbody]
    have hlines : a.lines = 1 := by rw [BodiedAccessor.lines, hbody]; rfl
    rw [htext, scan_word n true (hnames _ hword) (endsName_cons (by decide) _), scan_mark n false (by decide),
      scan_newline, before_before, hlines]
    exact ⟨[.ofMark n ';'], .semicolon rfl, rfl⟩
  | some body =>
    have htext : a.text.toList ++ rest = a.word.toList ++ ((blockText body).toList ++ rest) := by
      simp [BodiedAccessor.text, hbody]
    have hends : EndsName ((blockText body).toList ++ rest) := by
      rw [blockText]
      simpa using endsName_cons (c := ' ') (by decide) _
    have hlines : a.lines = blockLines body := by rw [BodiedAccessor.lines, hbody]; rfl
    obtain ⟨bs, hbs, hscan⟩ := scan_block (ha body (by simp [hbody])) n rest
    rw [htext, scan_word n true (hnames _ hword) hends, hscan, before_before, hlines]
    exact ⟨bs, .block hbs, rfl⟩

theorem scan_accessors {as : List BodiedAccessor} (hwords : ∀ a ∈ as, a.word ∈ accessorWords)
    (hbodies : ∀ a ∈ as, ∀ body ∈ a.body, ClosedCode body) (n : Nat) (rest : List Char) :
    ∃ ts, Accessors ts (as.map BodiedAccessor.word) ∧
      scan n true ((as.foldr (fun a rest => a.text ++ rest) "\x7d\n").toList ++ rest) =
        before ts (scan (n + (as.map BodiedAccessor.lines).sum + 1) true rest) := by
  induction as generalizing n with
  | nil =>
    have htext : "\x7d\n".toList ++ rest = '\x7d' :: '\n' :: rest := rfl
    rw [List.foldr_nil, htext, scan_mark n true (by decide), scan_newline]
    exact ⟨[.ofMark n '\x7d'], .close rfl, rfl⟩
  | cons a as ih =>
    obtain ⟨bs, hbs, hscan⟩ :=
      scan_accessor (hwords a List.mem_cons_self) (hbodies a List.mem_cons_self) n
      ((as.foldr (fun a rest => a.text ++ rest) "\x7d\n").toList ++ rest)
    obtain ⟨ts, hts, hrest⟩ := ih (fun x hx => hwords x (List.mem_cons_of_mem a hx))
      (fun x hx => hbodies x (List.mem_cons_of_mem a hx)) (n + a.lines)
    refine ⟨.ofWord n a.word :: (bs ++ ts), .next (hwords a List.mem_cons_self) hbs hts, ?_⟩
    rw [List.foldr_cons, String.toList_append, List.append_assoc, hscan, hrest, before_before,
      List.cons_append, List.map_cons, List.sum_cons, Nat.add_assoc n]

end Token

namespace Parse

variable {e l n : Nat} {r : List Diagnostic} {t u : Token} {ts us : List Token}

structure ReadsMember (ts : List Token) (x : Member) : Prop where
  head : ∃ t us, ts = t :: us ∧ t.isAnyMark [closeBrace, ";"] = false ∧ t.isDone = false
  read : ∀ u us e l r, u.isMark "=" = false → ∃ l', member (typeExpr 127) (typeDecl 127) "C"
    ⟨ts ++ u :: us, e, l, r⟩ = (some x, ⟨u :: us, e, l', r⟩)

theorem words_head {words : List String}
    (h : ∃ t us, ts = t :: us ∧ t.isAnyMark [closeBrace, ";"] = false ∧
      t.isDone = false) :
    ∃ t us, words.map (.ofWord n) ++ ts = t :: us ∧ t.isAnyMark [closeBrace, ";"] = false ∧
      t.isDone = false := by
  cases words with
  | nil => exact h
  | cons word words => exact ⟨_, _, rfl, rfl, rfl⟩

/-- Of two members that are read one behind the other, both are members of the class. -/
theorem members_two {x y : Member} (hx : ReadsMember ts x) (hy : ReadsMember (t :: us) y)
    (ht : t.isMark "=" = false) (hu : u.isMark closeBrace = true) (l : Nat) :
    ∃ l', members (member (typeExpr 127) (typeDecl 127) "C") ⟨ts ++ (t :: us ++ [u]), e, l, r⟩ =
      ([x, y], ⟨[u], e, l', r⟩) := by
  obtain ⟨m, hfirst⟩ := hx.read t (us ++ [u]) e l r ht
  obtain ⟨l', hsecond⟩ := hy.read u [] e m r (Token.isMark_of_ne hu (by decide))
  obtain ⟨a, as, rfl, ha, hadone⟩ := hx.head
  obtain ⟨b, bs, hus, hb, hbdone⟩ := hy.head
  obtain ⟨rfl, rfl⟩ := List.cons.inj hus
  have hless : (t :: (us ++ [u])).length < (a :: (as ++ t :: (us ++ [u]))).length := by
    simp only [List.length_append, List.length_cons]
    omega
  refine ⟨l', ?_⟩
  simp only [List.cons_append] at hfirst hsecond ⊢
  rw [members, members_next ha hadone hfirst hless, members_next hb hbdone hsecond (by simp),
    members_close _ hu]
  rfl

variable {name : String} {words : List String} {x : TypeExpr} {ps : List Written} {bs : List Token}

/-- What a member with a type is read as is decided behind its type. -/
theorem readsMember_typed {m : Member} (hwords : ∀ w ∈ words, w ∈ modifierWords) (hx : PlainType 126 x)
    (h : ∀ u us e r, u.isMark "=" = false →
      ∃ l', memberOfType (typeExpr 127) ⟨[], words⟩ (x.onLine n)
      ⟨.ofWord n name :: (ts ++ u :: us), e, n, r⟩ = (some m, ⟨u :: us, e, l', r⟩)) :
    ReadsMember (words.map (.ofWord n) ++ (x.tokens n ++ .ofWord n name :: ts)) m := by
  constructor
  · obtain ⟨w, next, more, htokens, hw, hdone⟩ := tokens_plain hx.spelled n (v := .ofWord n name) rfl ts
    exact words_head ⟨w, next :: more, htokens, hw, hdone⟩
  · intro u us e l r hu
    obtain ⟨l', hmember⟩ := h u us e r hu
    refine ⟨l', ?_⟩
    simp only [List.append_assoc, List.cons_append]
    exact member_words _ "C" hwords hx hmember l

theorem readsMember_method (hwords : ∀ w ∈ words, w ∈ modifierWords) (hx : PlainType 126 x)
    (hname : isKeyword name = false) (hps : ∀ p ∈ ps, p.WellFormed 126) (hbs : Block bs) :
    ReadsMember (words.map (.ofWord n) ++ (x.tokens n ++ .ofWord n name :: .ofMark n '(' ::
        (parameterTokens n ps ++ .ofMark n ')' :: bs)))
      (.method ⟨[], words, some (x.onLine n), name, [], ps.map (Written.declared n), n⟩) := by
  refine readsMember_typed hwords hx fun u us e r _ => ?_
  obtain ⟨l', hmethod⟩ := memberOfType_method (e := e) (r := r) (n := n) hps ⟨[], words⟩
    (x.onLine n) hname
    hbs (u :: us) n
  rw [TypeExpr.line_onLine] at hmethod
  refine ⟨l', ?_⟩
  simpa only [List.append_assoc, List.cons_append] using hmethod

theorem readsMember_constructor (hwords : ∀ w ∈ words, w ∈ modifierWords)
    (hps : ∀ p ∈ ps, p.WellFormed 126) (hbs : Block bs) :
    ReadsMember (words.map (.ofWord n) ++ .ofWord n "C" :: .ofMark n '(' ::
        (parameterTokens n ps ++ .ofMark n ')' :: bs))
      (.constructor ⟨[], words, none, "C", [], ps.map (Written.declared n), n⟩) := by
  constructor
  · exact words_head ⟨_, _, rfl, rfl, rfl⟩
  · intro u us e l r hu
    obtain ⟨l', hmember⟩ := member_block_constructor (e := e) (r := r) (n := n) (typeDecl 127) hps hwords
      (by decide : isKeyword "C" = false) hbs (u :: us) l
    refine ⟨l', ?_⟩
    simp only [List.append_assoc, List.cons_append]
    exact hmember

theorem readsMember_property (hwords : ∀ w ∈ words, w ∈ modifierWords) (hx : PlainType 126 x)
    (hname : isKeyword name = false) {as : List String} (h : Accessors ts as) :
    ReadsMember (words.map (.ofWord n) ++ (x.tokens n ++ .ofWord n name :: .ofMark n '\x7b' :: ts))
      (.property ⟨[], words, x.onLine n, name, as, false, n⟩) := by
  refine readsMember_typed hwords hx fun u us e r hu => ?_
  obtain ⟨l', hproperty⟩ := memberOfType_property (e := e) (r := r) (n := n) (typeExpr 127)
    ⟨[], words⟩
    (x.onLine n) hname h hu us n
  rw [TypeExpr.line_onLine] at hproperty
  exact ⟨l', hproperty⟩

theorem readsMember_field (hwords : ∀ w ∈ words, w ∈ modifierWords) (hx : PlainType 126 x)
    (hname : isKeyword name = false) :
    ReadsMember (words.map (.ofWord n) ++ (x.tokens n ++ [.ofWord n name, .ofMark n ';']))
      (.field ⟨[], words, x.onLine n, [name], n⟩) := by
  refine readsMember_typed hwords hx fun u us e r hu => ⟨n, ?_⟩
  have hfield : memberOfType (typeExpr 127) ⟨[], words⟩ (x.onLine n)
      ⟨.ofName n name :: .ofMark n ';' :: u :: us, e, n, r⟩ =
        (some (.field ⟨[], words, x.onLine n, [name], (x.onLine n).line⟩), ⟨u :: us, e, n, r⟩) :=
    memberOfType_field _ _ _ name hu
  rwa [ofName_eq_ofWord hname, TypeExpr.line_onLine] at hfield

end Parse

namespace Bodied

open Parse

variable {n : Nat} {fresh : Bool} {rest : List Char} {modifiers : List String} {x : TypeExpr}
  {name body : String} {ps : List Written}

/-- What is called by a name: the name, its parameters and its body. -/
theorem scan_called (hname : IsName name) (hps : ∀ p ∈ ps, p.WellFormed 126)
    (hbody : ClosedCode body) (n : Nat) (fresh : Bool) (rest : List Char) :
    ∃ bs, Block bs ∧
      scan n fresh (name.toList ++ ((parametersText ps).toList ++ ((blockText body).toList ++ rest))) =
        before (.ofWord n name :: .ofMark n '(' :: (parameterTokens n ps ++ .ofMark n ')' :: bs))
          (scan (n + blockLines body) true rest) := by
  obtain ⟨bs, hbs, hscan⟩ := Token.scan_block hbody n rest
  have hends : EndsName ((parametersText ps).toList ++ ((blockText body).toList ++ rest)) := by
    rw [parametersText]
    simpa using Token.endsName_cons (c := '(') (by decide) _
  refine ⟨bs, hbs, ?_⟩
  rw [Token.scan_word n fresh hname hends, Token.scan_parameters hps, hscan]
  simp only [Token.before_before, List.append_assoc, List.cons_append, List.nil_append]
  rfl

theorem scan_method (hx : PlainType 126 x) (hname : IsName name) (hps : ∀ p ∈ ps, p.WellFormed 126)
    (hbody : ClosedCode body) (n : Nat) (fresh : Bool) (rest : List Char) :
    ∃ bs, Block bs ∧
      scan n fresh ((x.text ++ " " ++ name ++ parametersText ps ++ blockText body).toList ++ rest) =
        before
          (x.tokens n ++ .ofWord n name :: .ofMark n '(' :: (parameterTokens n ps ++ .ofMark n ')' :: bs))
          (scan (n + blockLines body) true rest) := by
  obtain ⟨bs, hbs, hscan⟩ := scan_called hname hps hbody n false rest
  have htext : (x.text ++ " " ++ name ++ parametersText ps ++ blockText body).toList ++ rest =
      x.text.toList ++ ' ' :: (name.toList ++
        ((parametersText ps).toList ++ ((blockText body).toList ++ rest))) := by
    simp
  refine ⟨bs, hbs, ?_⟩
  rw [htext, Token.scan_type hx.spelled n fresh (TypeExpr.endsBefore_cons _ (by decide) (by decide) _),
    Token.scan_space, hscan, Token.before_before]

theorem scan_constructor (hps : ∀ p ∈ ps, p.WellFormed 126) (hbody : ClosedCode body) (n : Nat)
    (fresh : Bool) (rest : List Char) :
    ∃ bs, Block bs ∧ scan n fresh (("C" ++ parametersText ps ++ blockText body).toList ++ rest) =
      before (.ofWord n "C" :: .ofMark n '(' :: (parameterTokens n ps ++ .ofMark n ')' :: bs))
        (scan (n + blockLines body) true rest) := by
  have htext : ("C" ++ parametersText ps ++ blockText body).toList ++ rest =
      "C".toList ++ ((parametersText ps).toList ++ ((blockText body).toList ++ rest)) := by
    simp
  rw [htext]
  exact scan_called (by decide) hps hbody n fresh rest

theorem scan_property (hx : PlainType 126 x) (hname : IsName name) {as : List BodiedAccessor}
    (hwords : ∀ a ∈ as, a.word ∈ accessorWords)
    (hbodies : ∀ a ∈ as, ∀ body ∈ a.body, ClosedCode body) (n : Nat)
    (fresh : Bool) (rest : List Char) :
    ∃ ts, Accessors ts (as.map BodiedAccessor.word) ∧
      scan n fresh ((x.text ++ " " ++ name ++ " \x7b\n" ++
          as.foldr (fun a rest => a.text ++ rest) "\x7d\n").toList ++ rest) =
        before (x.tokens n ++ .ofWord n name :: .ofMark n '\x7b' :: ts)
          (scan (n + ((as.map BodiedAccessor.lines).sum + 2)) true rest) := by
  obtain ⟨ts, hts, hscan⟩ := Token.scan_accessors hwords hbodies (n + 1) rest
  have htext : (x.text ++ " " ++ name ++ " \x7b\n" ++
        as.foldr (fun a rest => a.text ++ rest) "\x7d\n").toList ++ rest =
      x.text.toList ++ ' ' :: (name.toList ++ ' ' :: '\x7b' :: '\n' ::
        ((as.foldr (fun a rest => a.text ++ rest) "\x7d\n").toList ++ rest)) := by
    simp
  have hlines : n + 1 + (as.map BodiedAccessor.lines).sum + 1 =
      n + ((as.map BodiedAccessor.lines).sum + 2) := by
    omega
  refine ⟨ts, hts, ?_⟩
  rw [htext, Token.scan_type hx.spelled n fresh (TypeExpr.endsBefore_cons _ (by decide) (by decide) _),
    Token.scan_space, Token.scan_word n false hname (Token.endsName_cons (by decide) _), Token.scan_space,
    Token.scan_mark n false (by decide), Token.scan_newline, hscan, hlines]
  simp only [Token.before_before, List.cons_append, List.nil_append]
  rfl

/-- A member is read from its text, and what is behind it is scanned from the line behind its last
one. -/
theorem read {m : Bodied} (hm : m.WellFormed) (n : Nat) (rest : List Char) :
    ∃ ts, ReadsMember ts (m.declared n) ∧
      scan n true (m.text.toList ++ rest) = before ts (scan (n + m.lines) true rest) := by
  cases hm with
  | method hmodifiers hreturns hname hparameters hbody =>
    obtain ⟨fresh, hwords⟩ := Token.scan_spaced hmodifiers _ n true rest
    obtain ⟨bs, hbs, hscan⟩ := scan_method hreturns hname.1 hparameters hbody n fresh rest
    refine ⟨_, readsMember_method hmodifiers hreturns hname.2 hparameters hbs, ?_⟩
    exact hwords.trans (by rw [hscan, Token.before_before]; rfl)
  | constructor hmodifiers hparameters hbody =>
    obtain ⟨fresh, hwords⟩ := Token.scan_spaced hmodifiers _ n true rest
    obtain ⟨bs, hbs, hscan⟩ := scan_constructor hparameters hbody n fresh rest
    refine ⟨_, readsMember_constructor hmodifiers hparameters hbs, ?_⟩
    exact hwords.trans (by rw [hscan, Token.before_before]; rfl)
  | property hmodifiers htype hname hwords hbodies =>
    obtain ⟨fresh, hspaced⟩ := Token.scan_spaced hmodifiers _ n true rest
    obtain ⟨ts, hts, hscan⟩ := scan_property htype hname.1 hwords hbodies n fresh rest
    refine ⟨_, readsMember_property hmodifiers htype hname.2 hts, ?_⟩
    exact hspaced.trans (by rw [hscan, Token.before_before]; rfl)

end Bodied

def bodySource (m : Bodied) : String := "class C \x7b\n" ++ m.text ++ "public int X;\n\x7d"

theorem Token.scan_publicField (n : Nat) :
    scan n true "public int X;\n\x7d".toList =
      ([.ofWord n "public", .ofWord n "int", .ofWord n "X", .ofMark n ';', .ofMark (n + 1) '\x7d',
        ⟨.done, n + 1⟩], []) := by
  have htext : "public int X;\n\x7d".toList =
      "public".toList ++ ' ' :: ("int".toList ++ ' ' :: ("X".toList ++ ';' :: '\n' :: ['\x7d'])) := rfl
  rw [htext, scan_word n true (by decide) (endsName_cons (by decide) _), scan_space,
    scan_word n false (by decide) (endsName_cons (by decide) _), scan_space,
    scan_word n false (by decide) (endsName_cons (by decide) _), scan_mark n false (by decide), scan_newline,
    scan_mark (n + 1) true (by decide), scan_nil]
  rfl

/-- A member with bodies is read with its head, whatever its bodies are, and so is the field behind
it. -/
theorem SourceUnit.ofSource_bodied {m : Bodied} (hm : m.WellFormed) :
    SourceUnit.ofSource (bodySource m) =
      (⟨[], [.type ⟨.plainClass, "C", [], [], [], [], [], 1⟩
        [m.declared 2,
          .field ⟨[], ["public"], .predefined "int" (2 + m.lines), ["X"], 2 + m.lines⟩]]⟩, []) := by
  obtain ⟨ts, hts, hscan⟩ := m.read hm 2 "public int X;\n\x7d".toList
  have hint : Parse.PlainType 126 (.predefined "int" 0) :=
    ⟨.predefined (by decide), by simp [TypeExpr.words], by decide⟩
  have hpublic : ∀ w ∈ ["public"], w ∈ modifierWords := by decide
  have hfield : Parse.ReadsMember [.ofWord (2 + m.lines) "public", .ofWord (2 + m.lines) "int",
      .ofWord (2 + m.lines) "X", .ofMark (2 + m.lines) ';']
      (.field ⟨[], ["public"], .predefined "int" (2 + m.lines), ["X"], 2 + m.lines⟩) :=
    Parse.readsMember_field hpublic hint (by decide)
  have htext : (bodySource m).toList =
      "class C \x7b\n".toList ++ (m.text.toList ++ "public int X;\n\x7d".toList) := by
    have hsource : bodySource m = "class C \x7b\n" ++ m.text ++ "public int X;\n\x7d" := rfl
    rw [hsource, String.toList_append, String.toList_append, List.append_assoc]
  have htokens : Token.ofSource (bodySource m) =
      (classHead ++ .ofMark 1 '\x7b' :: (ts ++ ([.ofWord (2 + m.lines) "public", .ofWord (2 + m.lines) "int",
        .ofWord (2 + m.lines) "X", .ofMark (2 + m.lines) ';'] ++ [.ofMark (2 + m.lines + 1) '\x7d'])) ++
          [⟨.done, 2 + m.lines + 1⟩], []) := by
    rw [Token.ofSource, htext, Token.scan_openClass, hscan, Token.scan_publicField]
    simp only [before, List.append_assoc, List.cons_append, List.nil_append]
  obtain ⟨l', hmembers⟩ := Parse.members_two (e := 2 + m.lines + 1) (r := []) hts hfield rfl
    (u := .ofMark (2 + m.lines + 1) '\x7d') rfl 1
  exact ofSource_class htokens (Parse.typeDecl_members ⟨[], []⟩ "C" hmembers rfl rfl)

theorem SourceUnit.ofSource_bodied_property :
    SourceUnit.ofSource ("class C \x7b\npublic A<int> P \x7b\n" ++
        "get \x7b\nif (a \x7b return \"(\"; \x7d // \x7b\n\x7d\nset;\n\x7d\npublic int X;\n\x7d") =
      (⟨[], [.type ⟨.plainClass, "C", [], [], [], [], [], 1⟩
        [.property ⟨[], ["public"], .named [("A", [.predefined "int" 2])] false 2, "P",
          ["get", "set"], false, 2⟩,
          .field ⟨[], ["public"], .predefined "int" 8, ["X"], 8⟩]]⟩, []) := by
  have hint : (TypeExpr.predefined "int" 0).WellSpelled := .predefined (by decide)
  have htype : Parse.PlainType 126 (.named [("A", [.predefined "int" 0])] false 0) :=
    ⟨.named (by simp) (by decide) (by simp [hint]), by decide, by decide⟩
  have hbody : ClosedCode "if (a \x7b return \"(\"; \x7d // \x7b" :=
    ⟨by decide +kernel, by decide +kernel⟩
  have hsource : bodySource (.property ["public"] (.named [("A", [.predefined "int" 0])] false 0) "P"
      [⟨"get", some "if (a \x7b return \"(\"; \x7d // \x7b"⟩, ⟨"set", none⟩]) =
        "class C \x7b\npublic A<int> P \x7b\n" ++
          "get \x7b\nif (a \x7b return \"(\"; \x7d // \x7b\n\x7d\nset;\n\x7d\npublic int X;\n\x7d" := by
    decide +kernel
  rw [← hsource]
  exact SourceUnit.ofSource_bodied
    (.property (by decide) htype (by decide) (by simp [Parse.accessorWords]) (by simp [hbody]))

end DataClasses
