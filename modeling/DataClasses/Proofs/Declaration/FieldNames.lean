import DataClasses.Proofs.Declaration.Balance
import DataClasses.Proofs.Declaration.OneClass

/-!
# The names of a field

The names that a field declares, each with an initial value or none. An initial value ends at a
comma or a semicolon outside of its brackets. So all names are read, whatever the values are, as
long as these close what they open and have commas and semicolons in brackets only.
-/

set_option autoImplicit false

namespace DataClasses

open Identifier (IsName isKeyword)
open Token (before scan classHead Enclosed)

namespace Parse

variable {e l l' n : Nat} {r : List Diagnostic} {name : String} {names : List String} {t u v : Token}
  {ts us : List Token}

theorem nextInitial_apply (h : Enclosed [",", ";"] 0 ts) (hu : u.isAnyMark [",", ";"] = true) :
    nextInitial () ⟨ts ++ u :: us, e, l, r⟩ =
      (do
        if !(u.isMark ",") || startsDeclarator ⟨u :: us, e, lineBehind l ts, r⟩ then pure (.done ())
        else
          skip 1
          pure (.again ()) : Parse (Round Unit Unit)) ⟨u :: us, e, lineBehind l ts, r⟩ := by
  have hstops : u.isAnyMark [";", ",", closeBrace] = true := by
    simp only [Token.isAnyMark, List.any_cons, List.any_nil, Bool.or_false, Bool.or_eq_true] at hu ⊢
    rcases hu with hu | hu
    · exact .inr (.inl hu)
    · exact .inl hu
  rw [nextInitial, bind_apply, skipExpression_enclosed h (by decide) hstops]
  rfl

theorem skipInitializer_semicolon (h : Enclosed [",", ";"] 0 ts) (hu : u.isMark ";" = true) :
    skipInitializer ⟨ts ++ u :: us, e, l, r⟩ = ((), ⟨u :: us, e, lineBehind l ts, r⟩) := by
  have hcomma := Token.isMark_of_ne hu (by decide : ";" ≠ ",")
  have hround : nextInitial () ⟨ts ++ u :: us, e, l, r⟩ =
    (.done (), ⟨u :: us, e, lineBehind l ts, r⟩) := by
    rw [nextInitial_apply h (by simp [Token.isAnyMark, hu]), if_pos (by simp [hcomma])]
    rfl
  rw [skipInitializer, loop_done hround]

theorem skipInitializer_declarator (h : Enclosed [",", ";"] 0 ts) (hu : u.isMark "," = true)
    (hnext : startsDeclarator ⟨u :: us, e, lineBehind l ts, r⟩ = true) :
    skipInitializer ⟨ts ++ u :: us, e, l, r⟩ = ((), ⟨u :: us, e, lineBehind l ts, r⟩) := by
  have hround : nextInitial () ⟨ts ++ u :: us, e, l, r⟩ =
    (.done (), ⟨u :: us, e, lineBehind l ts, r⟩) := by
    rw [nextInitial_apply h (by simp [Token.isAnyMark, hu]), if_pos (by simp [hnext])]
    rfl
  rw [skipInitializer, loop_done hround]

/-- A comma behind which no declarator begins belongs to the value. -/
theorem skipInitializer_comma (h : Enclosed [",", ";"] 0 ts) (hu : u.isMark "," = true)
    (hnext : startsDeclarator ⟨u :: us, e, lineBehind l ts, r⟩ = false) :
    skipInitializer ⟨ts ++ u :: us, e, l, r⟩ = skipInitializer ⟨us, e, u.line, r⟩ := by
  have hround : nextInitial () ⟨ts ++ u :: us, e, l, r⟩ = (.again (), ⟨us, e, u.line, r⟩) := by
    rw [nextInitial_apply h (by simp [Token.isAnyMark, hu]), if_neg (by simp [hu, hnext])]
    rfl
  rw [skipInitializer, loop_again hround]
  simp only [List.length_append, List.length_cons]
  omega

theorem initialValue_none (hu : u.isMark "=" = false) :
    initialValue ⟨u :: us, e, l, r⟩ = ((), ⟨u :: us, e, l, r⟩) := by
  rw [initialValue, bind_apply, eatMark_not hu]
  rfl

theorem initialValue_equals (ht : t.isMark "=" = true) :
    initialValue ⟨t :: ts, e, l, r⟩ = skipInitializer ⟨ts, e, t.line, r⟩ := by
  rw [initialValue, bind_apply, eatMark_of ht]
  rfl

theorem nextDeclarator_name {c : Cursor} (hvalue : initialValue c = ((), ⟨u :: v :: us, e, l, r⟩))
    (hu : u.isMark "," = true) (hv : v.name? = some name) (acc : List String) :
    nextDeclarator acc c = (.again (acc ++ [name]), ⟨us, e, v.line, r⟩) := by
  rw [nextDeclarator, bind_apply, hvalue, bind_apply, eatMark_of hu]
  simp only [if_true]
  rw [bind_apply, expectName_of hv]
  rfl

theorem nextDeclarator_end {c : Cursor} (hvalue : initialValue c = ((), ⟨u :: us, e, l, r⟩))
    (hu : u.isMark "," = false) (acc : List String) :
    nextDeclarator acc c = (.done acc, ⟨u :: us, e, l, r⟩) := by
  rw [nextDeclarator, bind_apply, hvalue, bind_apply, eatMark_not hu]
  rfl

/-- What may stand behind a name: nothing, or a value that closes what it opens and in which commas and
semicolons stand in brackets. -/
inductive Initial : List Token → Prop where
  | none : Initial []
  | value {m : Token} {ts : List Token} (hm : m.isMark "=" = true) (hts : Enclosed [",", ";"] 0 ts) :
    Initial (m :: ts)

inductive Further : List Token → List String → Prop where
  | last {ts : List Token} {u : Token} (hts : Initial ts) (hu : u.isMark ";" = true) : Further (ts ++ [u]) []
  | next {ts us : List Token} {u v : Token} {name : String} {names : List String} (hts : Initial ts)
    (hu : u.isMark "," = true) (hv : v.name? = some name) (hus : Further us names) :
    Further (ts ++ u :: v :: us) (name :: names)

theorem Initial.head (h : Initial ts) (hu : u.isAnyMark ["=", ",", ";"] = true) (us : List Token) :
    ∃ v vs, ts ++ u :: us = v :: vs ∧ v.isAnyMark ["=", ",", ";"] = true := by
  cases h with
  | none => exact ⟨u, us, rfl, hu⟩
  | @value m ts hm hts => exact ⟨m, ts ++ u :: us, rfl, by simp [Token.isAnyMark, hm]⟩

theorem Further.head (h : Further ts names) (us : List Token) :
    ∃ v vs, ts ++ us = v :: vs ∧ v.isAnyMark ["=", ",", ";"] = true := by
  cases h with
  | last hts hu =>
    rw [List.append_assoc]
    exact hts.head (by simp [Token.isAnyMark, hu]) _
  | next hts hu hv hus =>
    rw [List.append_assoc]
    exact hts.head (by simp [Token.isAnyMark, hu]) _

theorem Initial.read_semicolon (h : Initial ts) (hu : u.isMark ";" = true) (us : List Token) (l : Nat) :
    ∃ l', initialValue ⟨ts ++ u :: us, e, l, r⟩ = ((), ⟨u :: us, e, l', r⟩) := by
  cases h with
  | none => exact ⟨l, initialValue_none (Token.isMark_of_ne hu (by decide))⟩
  | value hm hts => exact ⟨_, (initialValue_equals hm).trans (skipInitializer_semicolon hts hu)⟩

theorem Initial.read_declarator (h : Initial ts) (hu : u.isMark "," = true) (hv : v.isName = true)
    (ht : t.isAnyMark ["=", ",", ";"] = true) (us : List Token) (l : Nat) :
    ∃ l', initialValue ⟨ts ++ u :: v :: t :: us, e, l, r⟩ =
      ((), ⟨u :: v :: t :: us, e, l', r⟩) := by
  cases h with
  | none => exact ⟨l, initialValue_none (Token.isMark_of_ne hu (by decide))⟩
  | @value m ts hm hts =>
    have hnext : startsDeclarator ⟨u :: v :: t :: us, e, lineBehind m.line ts, r⟩ = true := by
      simp only [startsDeclarator, ahead_succ, ahead_zero, hv, ht, Bool.and_self]
    exact ⟨_, (initialValue_equals hm).trans (skipInitializer_declarator hts hu hnext)⟩

theorem Further.read (h : Further ts names) (us : List Token) (acc : List String) (l : Nat) :
    ∃ u l', u.isMark ";" = true ∧
      loop id nextDeclarator acc ⟨ts ++ us, e, l, r⟩ = (acc ++ names, ⟨u :: us, e, l', r⟩) := by
  induction h generalizing acc l with
  | @last ts u hts hu =>
    obtain ⟨l', hvalue⟩ := hts.read_semicolon (e := e) (r := r) hu us l
    rw [List.append_assoc, List.singleton_append, List.append_nil]
    exact ⟨u, l', hu, loop_done (nextDeclarator_end hvalue (Token.isMark_of_ne hu (by decide)) acc)⟩
  | @next ts vs u v name names hts hu hv hvs ih =>
    obtain ⟨t, ws, hhead, ht⟩ := hvs.head us
    have hname : v.isName = true := by simp [Token.isName, hv]
    obtain ⟨l', hvalue⟩ := hts.read_declarator (e := e) (r := r) hu hname ht ws l
    have hnext := nextDeclarator_name hvalue hu hv acc
    rw [← hhead] at hnext
    rw [List.append_assoc, List.cons_append, List.cons_append, loop_again hnext]
    · obtain ⟨w, m, hw, hrest⟩ := ih (acc ++ [name]) v.line
      exact ⟨w, m, hw, by rw [hrest, List.append_assoc]; rfl⟩
    · simp only [List.length_append, List.length_cons]
      omega

/-- All names of a field are found. -/
theorem declarators_read (h : Further ts names) (first : String) (us : List Token) (l : Nat) :
    ∃ l', declarators first ⟨ts ++ us, e, l, r⟩ = (first :: names, ⟨us, e, l', r⟩) := by
  obtain ⟨u, l', hu, hnames⟩ := h.read (e := e) (r := r) us [first] l
  rw [declarators, bind_apply, hnames, bind_apply, expectSemicolon_of hu]
  exact ⟨u.line, rfl⟩

theorem typedMember_declarators (type : Parse (Option TypeExpr)) (lead : Leading) (x : TypeExpr)
    (name : String) (ht : t.isAnyMark ["=", ",", ";"] = true) :
    typedMember type lead x name ⟨t :: ts, e, l, r⟩ =
      (do
        let names ← declarators name
        pure (.field ⟨lead.attributes, lead.modifiers, x, names, x.line⟩) : Parse Member)
        ⟨t :: ts, e, l, r⟩ := by
  obtain ⟨mark, hmark, ht⟩ := List.any_eq_true.mp ht
  have hne : ∀ m ∈ ["=", ",", ";"], m ≠ "(" ∧ m ≠ "<" ∧ m ≠ openBrace ∧
    m ≠ "=>" := by decide
  obtain ⟨hparen, hangle, hbrace, harrow⟩ := hne mark hmark
  have hlist : t.isAnyMark ["(", "<"] = false := by
    simp [Token.isAnyMark, Token.isMark_of_ne ht hparen, Token.isMark_of_ne ht hangle]
  rw [typedMember, bind_apply, current_apply]
  simp only [ahead_zero, hlist, Bool.false_eq_true, if_false]
  rw [bind_apply, atMark_apply]
  simp only [ahead_zero, Token.isMark_of_ne ht hbrace, Bool.false_eq_true, if_false]
  rw [bind_apply, eatMark_not (Token.isMark_of_ne ht harrow)]
  simp only [Bool.false_eq_true, if_false]

theorem memberOfType_declarators (type : Parse (Option TypeExpr)) (lead : Leading) (x : TypeExpr)
    (hname : isKeyword name = false) (ht : t.isAnyMark ["=", ",", ";"] = true) :
    memberOfType type lead x ⟨.ofWord n name :: t :: ts, e, l, r⟩ =
      (do
        let names ← declarators name
        pure (some (.field ⟨lead.attributes, lead.modifiers, x, names, x.line⟩)) : Parse (Option Member))
        ⟨t :: ts, e, n, r⟩ := by
  obtain ⟨mark, hmark, hmarked⟩ := List.any_eq_true.mp ht
  have hne : ∀ m ∈ ["=", ",", ";"], m ≠ "." := by decide
  rw [memberOfType_named type lead x hname (Token.isMark_of_ne hmarked (hne mark hmark)), map_apply,
    typedMember_declarators type lead x name ht]
  rfl

end Parse

open Token (EndsName)
open Parse (Initial Further)

structure Declarator where
  name : String
  initial : Option String

namespace Declarator

variable {n : Nat} {fresh : Bool} {d : Declarator} {ds : List Declarator} {rest : List Char}

def text (d : Declarator) : String :=
  match d.initial with
  | none => d.name
  | some value => d.name ++ " =\n" ++ value ++ "\n"

/-- A declarator of which the name is no reserved word, and the value is code with nothing wrong in it,
which closes what it opens and has commas and semicolons in brackets only. -/
structure WellFormed (d : Declarator) : Prop where
  isName : IsName d.name
  notKeyword : isKeyword d.name = false
  scanned : ∀ value ∈ d.initial, (Token.ofSource value).2 = []
  enclosed : ∀ value ∈ d.initial, Enclosed [",", ";"] 0 (Token.inside value)

theorem scan_text (hd : d.WellFormed) (n : Nat) (fresh : Bool) (hrest : EndsName rest) :
    ∃ ts m fresh', Initial ts ∧
      scan n fresh (d.text.toList ++ rest) = before (.ofWord n d.name :: ts) (scan m fresh' rest) := by
  cases hvalue : d.initial with
  | none =>
    refine ⟨[], n, false, .none, ?_⟩
    rw [text, hvalue]
    exact Token.scan_word n fresh hd.isName hrest
  | some value =>
    have htext : d.text.toList ++ rest =
        d.name.toList ++ ' ' :: '=' :: '\n' :: (value.toList ++ '\n' :: rest) := by
      simp [text, hvalue]
    have hends : EndsName (' ' :: '=' :: '\n' :: (value.toList ++ '\n' :: rest)) :=
      Token.endsName_cons (by decide) _
    have henclosed := (hd.enclosed value (by simp [hvalue])).later n
    rw [htext, Token.scan_word n fresh hd.isName hends, Token.scan_space,
      Token.scan_equals n false (by simp) (by simp), Token.scan_newline,
      Token.scan_ownLines (hd.scanned value (by simp [hvalue])), Token.before_before, Token.before_before]
    exact ⟨_, _, true, .value (m := .ofMark n '=') rfl henclosed, rfl⟩

theorem scan_texts (hd : d.WellFormed) (hds : ∀ x ∈ ds, x.WellFormed) (n : Nat) (fresh : Bool)
    (rest : List Char) :
    ∃ ts m, Further ts (ds.map name) ∧
      scan n fresh ((", ".intercalate ((d :: ds).map text)).toList ++ ';' :: rest) =
        before (.ofWord n d.name :: ts) (scan m false rest) := by
  induction ds generalizing d n fresh with
  | nil =>
    have hends : EndsName (';' :: rest) := Token.endsName_cons (by decide) _
    obtain ⟨ts, m, fresh', hts, hscan⟩ := scan_text hd n fresh hends
    have htext : (", ".intercalate ([d].map text)).toList = d.text.toList := by simp
    rw [htext, hscan, Token.scan_mark m fresh' (by decide), Token.before_before, List.cons_append]
    exact ⟨_, m, .last hts rfl, rfl⟩
  | cons next ds ih =>
    have hnext := hds next List.mem_cons_self
    have hseparator : ", ".toList = [',', ' '] := rfl
    have htexts : (", ".intercalate ((d :: next :: ds).map text)).toList ++ ';' :: rest =
        d.text.toList ++ ',' :: ' ' :: ((", ".intercalate ((next :: ds).map text)).toList ++
          ';' :: rest) := by
      simp only [String.toList_intercalate, List.map_cons, List.intercalate_cons_cons, hseparator]
      simp
    have hends : EndsName
        (',' :: ' ' :: ((", ".intercalate ((next :: ds).map text)).toList ++ ';' :: rest)) :=
      Token.endsName_cons (by decide) _
    obtain ⟨ts, m, fresh', hts, hscan⟩ := scan_text hd n fresh hends
    obtain ⟨us, k, hus, hrest⟩ := ih hnext (fun x hx => hds x (List.mem_cons_of_mem _ hx)) m false
    refine ⟨ts ++ .ofMark m ',' :: .ofWord m next.name :: us, k,
      .next hts rfl (Parse.ofWord_name? hnext.notKeyword) hus, ?_⟩
    rw [htexts, hscan, Token.scan_comma, Token.scan_space, hrest, Token.before_before, Token.before_before]
    simp

end Declarator

theorem Token.scan_openClass (rest : List Char) :
    scan 1 true ("class C \x7b\n".toList ++ rest) =
      before (classHead ++ [.ofMark 1 '\x7b']) (scan 2 true rest) := by
  have htext : "class C \x7b\n".toList ++ rest = "class C ".toList ++ '\x7b' :: '\n' :: rest := rfl
  rw [htext, scan_class, scan_mark 1 false (by decide), scan_newline, before_before]
  rfl

namespace Parse

variable {e l n room : Nat} {r : List Diagnostic} {names : List String} {t u : Token} {ts us : List Token}

theorem member_names (nested : Leading → Parse (TypeHead × List Member)) (typeName : String) {x : TypeExpr}
    (hx : x.WellSpelled) (hwords : ∀ w ∈ x.words, w ∉ declarationWords) (hdepth : x.depth ≤ room + 1)
    {name : String} (hname : isKeyword name = false) (h : Further ts names) (us : List Token) (l : Nat) :
    ∃ l', member (typeExpr (room + 1)) nested typeName
        ⟨x.tokens n ++ .ofWord n name :: (ts ++ us), e, l, r⟩ =
      (some (.field ⟨[], [], x.onLine n, name :: names, n⟩), ⟨us, e, l', r⟩) := by
  have hends : EndsType (.ofWord n name) := ⟨rfl, rfl⟩
  obtain ⟨v, vs, hhead, hv⟩ := h.head us
  obtain ⟨l', hnames⟩ := declarators_read (e := e) (r := r) h name us n
  refine ⟨l', ?_⟩
  rw [member_spelled _ nested typeName hx hwords rfl,
    memberFromType_of (typeExpr_read hx hdepth hends rfl), hhead,
    memberOfType_declarators _ _ _ hname hv, ← hhead, bind_apply, hnames, TypeExpr.line_onLine]
  rfl

theorem members_names (nested : Leading → Parse (TypeHead × List Member)) (typeName : String)
    {x : TypeExpr}
    (hx : x.WellSpelled) (hwords : ∀ w ∈ x.words, w ∉ declarationWords) (hdepth : x.depth ≤ room + 1)
    {name : String} (hname : isKeyword name = false) (h : Further ts names) (hu : u.isMark closeBrace = true)
    (l : Nat) :
    ∃ l', members (member (typeExpr (room + 1)) nested typeName)
        ⟨x.tokens n ++ .ofWord n name :: (ts ++ [u]), e, l, r⟩ =
      ([.field ⟨[], [], x.onLine n, name :: names, n⟩], ⟨[u], e, l', r⟩) := by
  obtain ⟨l', hfield⟩ := member_names (e := e) (r := r) nested typeName hx hwords hdepth hname h [u] l
  obtain ⟨w, next, more, htokens, hw, hdone⟩ :=
    tokens_plain hx n (v := .ofWord n name) rfl (ts ++ [u])
  rw [htokens] at hfield ⊢
  exact ⟨l', members_one hw hdone hfield (by simp) hu⟩

end Parse

def fieldSource (ds : List Declarator) : String :=
  "class C \x7b\nint " ++ ", ".intercalate (ds.map Declarator.text) ++ ";\n\x7d"

/-- A field declares the names of its declarators, in their order. -/
theorem SourceUnit.ofSource_declarators {ds : List Declarator} (hne : ds ≠ [])
    (h : ∀ d ∈ ds, d.WellFormed) :
    SourceUnit.ofSource (fieldSource ds) =
      (⟨[], [.type ⟨.plainClass, "C", [], [], [], [], [], 1⟩
        [.field ⟨[], [], .predefined "int" 2, ds.map Declarator.name, 2⟩]]⟩, []) := by
  obtain ⟨d, ds, rfl⟩ := List.exists_cons_of_ne_nil hne
  have hd := h d List.mem_cons_self
  obtain ⟨ts, m, hts, hscan⟩ := Declarator.scan_texts hd (fun x hx => h x (List.mem_cons_of_mem d hx))
    2 false ['\n', '\x7d']
  have htext : (fieldSource (d :: ds)).toList = "class C \x7b\n".toList ++ ("int".toList ++ ' ' ::
      ((", ".intercalate ((d :: ds).map Declarator.text)).toList ++ ';' :: ['\n', '\x7d'])) := by
    have hhead (cs : List Char) : "class C \x7b\nint ".toList ++ cs =
        "class C \x7b\n".toList ++ ("int".toList ++ ' ' :: cs) := by
      rw [show "class C \x7b\nint ".toList = "class C \x7b\n".toList ++ ("int".toList ++ [' ']) by decide]
      simp
    have hsource : fieldSource (d :: ds) =
        "class C \x7b\nint " ++ ", ".intercalate ((d :: ds).map Declarator.text) ++ ";\n\x7d" := rfl
    rw [hsource, String.toList_append, String.toList_append, List.append_assoc]
    exact hhead _
  have htokens : Token.ofSource (fieldSource (d :: ds)) =
      (classHead ++ .ofMark 1 '\x7b' :: ([.ofWord 2 "int"] ++ .ofWord 2 d.name ::
        (ts ++ [.ofMark (m + 1) '\x7d'])) ++ [⟨.done, m + 1⟩], []) := by
    rw [Token.ofSource, htext, Token.scan_openClass,
      Token.scan_word 2 true (by decide) (Token.endsName_cons (c := ' ') (by decide) _), Token.scan_space,
      hscan, Token.scan_newline, Token.scan_mark (m + 1) true (by decide), Token.scan_nil]
    simp only [before, List.append_assoc, List.cons_append, List.nil_append]
    rfl
  have hint : (TypeExpr.predefined "int" 2).WellSpelled := .predefined (by decide)
  have hdepth : (TypeExpr.predefined "int" 2).depth ≤ 126 + 1 := by decide
  have hclose : (Token.ofMark (m + 1) '\x7d').isMark Parse.closeBrace = true := rfl
  obtain ⟨l', hmembers⟩ := Parse.members_names (e := m + 1) (r := []) (n := 2)
    (Parse.typeDecl 127) "C" hint
    (by simp [TypeExpr.words]) hdepth hd.notKeyword hts hclose 1
  exact ofSource_class htokens (Parse.typeDecl_members ⟨[], []⟩ "C" hmembers rfl rfl)

theorem SourceUnit.ofSource_declarators_bracketed :
    SourceUnit.ofSource "class C \x7b\nint a, b =\nf(1, x) + new[] \x7b 2, 3 \x7d // ;\n, c =\nd\n;\n\x7d" =
      (⟨[], [.type ⟨.plainClass, "C", [], [], [], [], [], 1⟩
        [.field ⟨[], [], .predefined "int" 2, ["a", "b", "c"], 2⟩]]⟩, []) := by
  have hplain : (Declarator.mk "a" none).WellFormed := ⟨by decide, by decide, by simp, by simp⟩
  have hcall : (Declarator.mk "b" (some "f(1, x) + new[] \x7b 2, 3 \x7d // ;")).WellFormed :=
    ⟨by decide, by decide, by rintro _ ⟨⟩; decide +kernel, by rintro _ ⟨⟩; decide +kernel⟩
  have hname : (Declarator.mk "c" (some "d")).WellFormed :=
    ⟨by decide, by decide, by rintro _ ⟨⟩; decide +kernel, by rintro _ ⟨⟩; decide +kernel⟩
  have hsource : fieldSource
        [⟨"a", none⟩, ⟨"b", some "f(1, x) + new[] \x7b 2, 3 \x7d // ;"⟩, ⟨"c", some "d"⟩] =
      "class C \x7b\nint a, b =\nf(1, x) + new[] \x7b 2, 3 \x7d // ;\n, c =\nd\n;\n\x7d" := by decide +kernel
  rw [← hsource]
  exact SourceUnit.ofSource_declarators (List.cons_ne_nil _ [_, _]) (by simp [hplain, hcall, hname])

end DataClasses
