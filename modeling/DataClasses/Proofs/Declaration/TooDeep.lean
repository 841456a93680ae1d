import DataClasses.Proofs.Declaration.NestedBlocks

/-!
# Sources that are nested too deep

Namespaces, classes, type arguments and marks of lists may stand in each other up to a limit. A type
argument for which there is no room is reported and passed over up to the angle that closes it, and
a mark behind a type for which there is none is reported the first time. So one level beyond the
limit or many, there is one report, and all that is around them is declared.
-/

set_option autoImplicit false

namespace DataClasses

open Identifier (IsName isKeyword)
open Parse (arrays brackets)

namespace TypeExpr

variable {n line k : Nat} {t : TypeExpr} {name : String} {names : List String}

def generics (line : Nat) (names : List String) (t : TypeExpr) : TypeExpr :=
  names.foldr (fun name inside => .named [(name, [inside])] false line) t

theorem generics_cons (line : Nat) (name : String) (names : List String) (t : TypeExpr) :
    generics line (name :: names) t = .named [(name, [generics line names t])] false line := rfl

theorem wellSpelled_generics (ht : t.WellSpelled)
    (hnames : ∀ name ∈ names, IsName name ∧ isKeyword name = false) :
    (generics line names t).WellSpelled := by
  induction names with
  | nil => exact ht
  | cons name names ih =>
    have hname := hnames name List.mem_cons_self
    have hinside := ih fun x hx => hnames x (List.mem_cons_of_mem name hx)
    rw [generics_cons]
    exact .named (List.cons_ne_nil _ []) (by simpa using hname) (by simpa using hinside)

theorem tokens_generics_cons (n line : Nat) (name : String) (names : List String) (t : TypeExpr) :
    (generics line (name :: names) t).tokens n =
      .ofWord n name :: .ofMark n '<' :: ((generics line names t).tokens n ++ [.ofMark n '>']) := by
  have htokens : (generics line (name :: names) t).tokens n =
      nameTokens n [(name, [generics line names t])] := rfl
  rw [htokens, nameTokens_singleton, argumentTokens, List.map_singleton, rowTokens,
    List.intercalate_singleton]
  rfl

theorem line_generics (ht : t.line = line) (names : List String) : (generics line names t).line = line := by
  cases names with
  | nil => exact ht
  | cons name names => rfl

theorem wellSpelled_arrays (ht : t.WellSpelled) (k : Nat) : (arrays k t).WellSpelled := by
  induction k with
  | zero => exact ht
  | succ k ih =>
    rw [Parse.arrays_succ]
    exact .array ih (Nat.le_refl 1)

theorem tokens_arrays (n k : Nat) (t : TypeExpr) : (arrays k t).tokens n = t.tokens n ++ brackets n k := by
  induction k with
  | zero => exact (List.append_nil _).symm
  | succ k ih =>
    rw [Parse.arrays_succ, ← Parse.brackets_append, ← List.append_assoc, ← ih]
    rfl

theorem line_arrays (k : Nat) (t : TypeExpr) : (arrays k t).line = t.line := by
  induction k with
  | zero => rfl
  | succ k ih => rw [Parse.arrays_succ, line, ih]

theorem words_arrays (k : Nat) (t : TypeExpr) : (arrays k t).words = t.words := by
  induction k with
  | zero => rfl
  | succ k ih => rw [Parse.arrays_succ, words, ih]

end TypeExpr

namespace Parse

open TypeExpr (generics)

variable {e l n line room : Nat} {r : List Diagnostic} {name : String} {names : List String} {t : TypeExpr}
  {u v : Token} {ts us vs : List Token}

theorem typeLength_word (depth : Nat) (word : String) (us : List Token) :
    typeLength depth (.ofWord n word :: us) = typeLength depth us + 1 := by
  have hnone (marks : List String) : (Token.ofWord n word).isAnyMark marks = false :=
    List.any_eq_false.mpr fun _ _ => Bool.false_ne_true
  rw [typeLength.eq_def]
  simp [hnone]

theorem typeLength_generics (depth : Nat) (names : List String) (us : List Token) :
    typeLength depth ((generics line names (.predefined "int" line)).tokens n ++ us) =
      typeLength depth us + ((generics line names (.predefined "int" line)).tokens n).length := by
  induction names generalizing depth us with
  | nil => exact typeLength_word depth "int" us
  | cons name names ih =>
    have hopen (us : List Token) :
        typeLength depth (.ofMark n '<' :: us) = typeLength (depth + 1) us + 1 := rfl
    have hclose (us : List Token) :
        typeLength (depth + 1) (.ofMark n '>' :: us) = typeLength depth us + 1 := rfl
    rw [TypeExpr.tokens_generics_cons, List.cons_append, List.cons_append, List.append_assoc,
      List.singleton_append, typeLength_word, hopen, ih, hclose]
    simp only [List.length_cons, List.length_append, List.length_nil]
    omega

theorem lineBehind_generics (l : Nat) (names : List String) :
    lineBehind l ((generics line names (.predefined "int" line)).tokens n) = n := by
  cases names with
  | nil => rfl
  | cons name names =>
    have hlast : (generics line (name :: names) (.predefined "int" line)).tokens n =
        (.ofWord n name :: .ofMark n '<' :: (generics line names (.predefined "int" line)).tokens n) ++
          [.ofMark n '>'] := TypeExpr.tokens_generics_cons n line name names _
    rw [hlast, lineBehind, List.getLast?_concat]
    rfl

/-- A type argument beyond the room is reported and passed over. -/
theorem typeExpr_argument (names : List String) (us : List Token) :
    typeExpr 0 ⟨(generics line names (.predefined "int" line)).tokens n ++ .ofMark n '>' :: us, e, n, r⟩ =
      (none, ⟨.ofMark n '>' :: us, e, n, Fault.tooDeep.onLine n :: r⟩) := by
  have hhead : ((Cursor.mk
      ((generics line names (.predefined "int" line)).tokens n ++ .ofMark n '>' :: us) e n r).ahead
        0).line = n := by
    cases names with
    | nil => rfl
    | cons name names =>
      rw [TypeExpr.tokens_generics_cons]
      rfl
  have hend : typeLength 0 (.ofMark n '>' :: us) = 0 := rfl
  rw [typeExpr, bind_apply, current_apply, hhead, bind_apply, report_apply, bind_apply, skipType, bind_apply,
    get_apply]
  dsimp only
  rw [typeLength_generics, hend, Nat.zero_add, skip_apply, drop_append, lineBehind_generics]
  rfl

/-- One type argument is read with its brackets, and given back if it is read itself. -/
theorem typeArguments_single {inside : Option TypeExpr} {r' : List Diagnostic}
    (hinside : typeExpr room ⟨ts ++ .ofMark n '>' :: us, e, n, r⟩ =
      (inside, ⟨.ofMark n '>' :: us, e, n, r'⟩)) :
    typeArguments (typeExpr room) ⟨.ofMark n '<' :: (ts ++ .ofMark n '>' :: us), e, n, r⟩ =
      (inside.toList, ⟨us, e, n, r'⟩) := by
  have hround : nextItem (typeExpr room) [] ⟨ts ++ .ofMark n '>' :: us, e, n, r⟩ =
      (.done inside.toList, ⟨.ofMark n '>' :: us, e, n, r'⟩) := by
    rw [nextItem, bind_apply, hinside, bind_apply, eatMark_not rfl]
    rfl
  have hlist : commaList (typeExpr room) ⟨ts ++ .ofMark n '>' :: us, e, n, r⟩ =
      (inside.toList, ⟨.ofMark n '>' :: us, e, n, r'⟩) := loop_done hround
  have hskip : skip 1 ⟨.ofMark n '<' :: (ts ++ .ofMark n '>' :: us), e, n, r⟩ =
      ((), ⟨ts ++ .ofMark n '>' :: us, e, n, r⟩) := rfl
  rw [typeArguments, bind_apply, hskip, bind_apply, hlist, bind_apply, expectMark_of _ rfl]
  rfl

/-- A generic type is read with its argument, if that is read. -/
theorem typeExpr_generic {inside : Option TypeExpr} {r' : List Diagnostic} (hname : isKeyword name = false)
    (hinside : typeExpr room ⟨ts ++ .ofMark n '>' :: u :: us, e, n, r⟩ =
      (inside, ⟨.ofMark n '>' :: u :: us, e, n, r'⟩)) (hu : EndsType u) :
    typeExpr (room + 1) ⟨.ofWord n name :: .ofMark n '<' :: (ts ++ .ofMark n '>' :: u :: us), e, l, r⟩ =
      (some (.named [(name, inside.toList)] false n), ⟨u :: us, e, n, r'⟩) := by
  have hends : (Cursor.mk (u :: us) e n r').atPart = false := (endsParts_of_endsSegments hu.1).part
  have hsegment : nextSegment (typeExpr room) []
      ⟨.ofWord n name :: .ofMark n '<' :: (ts ++ .ofMark n '>' :: u :: us), e, l, r⟩ =
        (.done [(name, inside.toList)], ⟨u :: us, e, n, r'⟩) := by
    have hread : typeArguments? (typeExpr room)
          ⟨.ofMark n '<' :: (ts ++ .ofMark n '>' :: u :: us), e, n, r⟩ =
        (inside.toList, ⟨u :: us, e, n, r'⟩) := typeArguments_single hinside
    rw [nextSegment_arguments hname hread, if_neg (by simp [hends])]
    rfl
  have hfind : predefinedTypes.find? (Token.ofWord n name).isWord = none := by
    rw [← ofName_eq_ofWord hname]
    exact find_predefined_ofName n name
  have hroot : (Cursor.mk
      (.ofWord n name :: .ofMark n '<' :: (ts ++ .ofMark n '>' :: u :: us)) e l r).atRoot = false :=
    Bool.and_false _
  have hsimple : simpleType (typeExpr room)
      ⟨.ofWord n name :: .ofMark n '<' :: (ts ++ .ofMark n '>' :: u :: us), e, l, r⟩ =
        (some (.named [(name, inside.toList)] false n), ⟨u :: us, e, n, r'⟩) := by
    have hparts := simpleType_segments
      (c := ⟨.ofWord n name :: .ofMark n '<' :: (ts ++ .ofMark n '>' :: u :: us), e, l, r⟩) rfl hfind
      (by simp [Token.isName, ofWord_name? hname]) (by rw [hroot]; exact loop_done hsegment)
    rw [hroot] at hparts
    exact hparts
  have hline : ((Cursor.mk (.ofWord n name :: .ofMark n '<' :: (ts ++ .ofMark n '>' :: u :: us)) e l r).ahead
      0).line = n := rfl
  rw [typeExpr_simple hline hsimple, map_apply, suffixes, loop_done (suffix_done n _ _ hu.2)]

def innermost (n : Nat) : List String → TypeExpr
  | [] => .predefined "int" n
  | name :: _ => .named [(name, [])] false n

theorem innermost_line (n : Nat) (beyond : List String) : (innermost n beyond).line = n := by
  cases beyond with
  | nil => rfl
  | cons name beyond => rfl

/-- Generic types in each other are read up to the first argument beyond the room. -/
theorem typeExpr_generics (hnames : ∀ name ∈ names, isKeyword name = false) (room : Nat) (hu : EndsType u)
    (hkeeps : KeepsPart u) :
    typeExpr (room + 1)
        ⟨(generics line names (.predefined "int" line)).tokens n ++ u :: us, e, l, r⟩ =
      (some (generics n (names.take room) (innermost n (names.drop room))),
        ⟨u :: us, e, n, excess n room names.length ++ r⟩) := by
  induction names generalizing room u us l r with
  | nil =>
    have hint : (TypeExpr.predefined "int" line).WellSpelled := .predefined (by decide)
    have hdepth : (TypeExpr.predefined "int" line).depth ≤ room + 1 := Nat.succ_le_succ (Nat.zero_le room)
    rw [List.take_nil, List.drop_nil]
    exact typeExpr_read hint hdepth hu hkeeps
  | cons name names ih =>
    have hname := hnames name List.mem_cons_self
    rw [TypeExpr.tokens_generics_cons, List.cons_append, List.cons_append, List.append_assoc,
      List.singleton_append]
    cases room with
    | zero => exact typeExpr_generic hname (typeExpr_argument names (u :: us)) hu
    | succ room =>
      have hinside : typeExpr (room + 1)
          ⟨(generics line names (.predefined "int" line)).tokens n ++ .ofMark n '>' :: u :: us, e, n, r⟩ =
            (some (generics n (names.take room) (innermost n (names.drop room))),
              ⟨.ofMark n '>' :: u :: us, e, n, excess n room names.length ++ r⟩) :=
        ih (fun x hx => hnames x (List.mem_cons_of_mem name hx)) room ⟨rfl, rfl⟩ rfl
      rw [typeExpr_generic hname hinside hu, List.length_cons, excess_succ]
      rfl

theorem suffix_beyond (line : Nat) (x : TypeExpr) (reported : Bool) :
    suffix line (x, 0, reported) ⟨.ofMark n '[' :: .ofMark n ']' :: ts, e, l, r⟩ =
      (.again (x, 0, true), ⟨ts, e, n, if reported then r else Fault.tooDeep.onLine line :: r⟩) := by
  cases reported with
  | true => rfl
  | false => rfl

/-- Behind the first mark that is reported, further ones are passed over. -/
theorem suffixes_reported (line : Nat) (x : TypeExpr) (k : Nat) (hu : EndsType u) :
    loop (fun x => x.1) (suffix line) (x, 0, true) ⟨brackets n k ++ u :: us, e, n, r⟩ =
      (x, ⟨u :: us, e, n, r⟩) := by
  induction k with
  | zero =>
    have hmarks := isMark_of_isAnyMark hu.2
    refine loop_done ?_
    rw [brackets, List.nil_append, suffix, bind_apply, get_apply]
    simp [hmarks "?" (by simp), hmarks "[" (by simp), hmarks "*" (by simp)]
    rfl
  | succ k ih =>
    rw [brackets, List.cons_append, List.cons_append, loop_again (suffix_beyond line x true)
      (by simp only [List.length_cons]; omega)]
    exact ih

/-- The marks for which there is room are kept. -/
theorem suffixes_excess (line : Nat) (x : TypeExpr) (room k : Nat) (hu : EndsType u) :
    suffixes line room x ⟨brackets n k ++ u :: us, e, n, r⟩ =
      (arrays (min k room) x, ⟨u :: us, e, n, excess line room k ++ r⟩) := by
  induction k generalizing x room with
  | zero =>
    rw [Nat.zero_min]
    exact loop_done (suffix_done line x room hu.2)
  | succ k ih =>
    rw [suffixes, brackets, List.cons_append, List.cons_append]
    cases room with
    | zero =>
      rw [loop_again (suffix_beyond line x false) (by simp only [List.length_cons]; omega),
        suffixes_reported line x k hu]
      rfl
    | succ room =>
      rw [loop_again (suffix_brackets line x room) (by simp only [List.length_cons]; omega),
        Nat.succ_min_succ, excess_succ]
      exact ih (.array x 1) room

theorem typeExpr_arrays (ht : t.WellSpelled) (hmarks : t.marks = 0) (hdepth : t.depth ≤ room + 1) (k : Nat)
    (hu : EndsType u) (hkeeps : KeepsPart u) :
    typeExpr (room + 1) ⟨(arrays k t).tokens n ++ u :: us, e, l, r⟩ =
      (some (arrays (min k room) (t.onLine n)), ⟨u :: us, e, n, excess n room k ++ r⟩) := by
  obtain ⟨v, vs, hhead, hends, hpart⟩ :
      ∃ v vs, brackets n k ++ u :: us = v :: vs ∧ EndsSegments v ∧ KeepsPart v := by
    cases k with
    | zero => exact ⟨u, us, rfl, hu.1, hkeeps⟩
    | succ k => exact ⟨_, _, rfl, rfl, rfl⟩
  have hlists : loop (fun x => x.1) (suffix n) (t.onLine n, room, false)
        ⟨brackets n k ++ u :: us, e, n, r⟩ =
      (arrays (min k room) (t.onLine n), ⟨u :: us, e, n, excess n room k ++ r⟩) :=
    suffixes_excess n (t.onLine n) room k hu
  rw [TypeExpr.tokens_arrays, List.append_assoc, hhead,
    typeExpr_atMarks ht n room hdepth v vs e l r hends hpart, ← hhead, hmarks, Nat.sub_zero,
    map_apply, hlists]

end Parse

open Token (before scan classHead EndsName)
open Parse (excess scopes outerClasses nameless innermost plainHead)
open TypeExpr (generics)

variable {names : List String} {t : TypeExpr}

theorem Token.ofSource_namespaces (hnames : ∀ name ∈ names, IsName name) :
    Token.ofSource (nestedText "namespace" names) = (blocks 1 "namespace" names ++ [⟨.done, 1⟩], []) := by
  obtain ⟨fresh, hscan⟩ := scan_blocks (by decide : IsName "namespace") hnames 1 [] true
  rw [List.append_nil, scan_nil] at hscan
  rw [ofSource, hscan]
  rfl

theorem Token.ofSource_classes (hnames : ∀ name ∈ names, IsName name) :
    Token.ofSource ("namespace N \x7b " ++ nestedText "class" names ++ "\x7d") =
      (.ofWord 1 "namespace" :: .ofWord 1 "N" :: .ofMark 1 '\x7b' ::
        (blocks 1 "class" names ++ .ofMark 1 '\x7d' :: []) ++ [⟨.done, 1⟩], []) := by
  have htext : ("namespace N \x7b " ++ nestedText "class" names ++ "\x7d").toList =
      "namespace".toList ++ ' ' :: ("N".toList ++ ' ' :: '\x7b' :: ' ' ::
        ((nestedText "class" names).toList ++ ['\x7d'])) := by
    simp
  obtain ⟨fresh, hscan⟩ := scan_blocks (by decide : IsName "class") hnames 1 ['\x7d'] false
  rw [ofSource, htext, scan_word 1 true (by decide) (endsName_cons (by decide) _), scan_space,
    scan_word 1 false (by decide) (endsName_cons (by decide) _), scan_space, scan_mark 1 false (by decide),
    scan_space, hscan, scan_mark 1 fresh (by decide), scan_nil]
  simp [before, Token.ofMark, Token.ofWord]

namespace Parse

theorem sourceUnit_namespaces (hnames : ∀ name ∈ names, isKeyword name = false) :
    sourceUnit ⟨Token.blocks 1 "namespace" names, 1, 1, []⟩ =
      (⟨[], scopes 1 (names.take 129)⟩, ⟨[], 1, 1, excess 1 128 names.length⟩) := by
  have himports : imports (typeExpr depthLimit) ⟨Token.blocks 1 "namespace" names ++ [], 1, 1, []⟩ =
      ([], ⟨Token.blocks 1 "namespace" names ++ [], 1, 1, []⟩) :=
    imports_none _ (EndsScope.atEnd.atImport_blocks (by decide) names)
  have hscopes := declarations_scopes (e := 1) (n := 1) (r := []) hnames 128 .atEnd
  rw [List.append_nil] at himports hscopes
  rw [sourceUnit, bind_apply, himports, bind_apply, declarations]
  dsimp only [depthLimit]
  rw [hscopes, List.append_nil]
  rfl

theorem sourceUnit_classes (hnames : ∀ name ∈ names, isKeyword name = false) :
    sourceUnit ⟨.ofWord 1 "namespace" :: .ofWord 1 "N" :: .ofMark 1 '\x7b' ::
        (Token.blocks 1 "class" names ++ .ofMark 1 '\x7d' :: []), 1, 1, []⟩ =
      (⟨[], [.scope ⟨⟨["N"], 1⟩, [], false, 1⟩
        (outerClasses 1 (names.take 127) (nameless 1 127 names.length))]⟩,
        ⟨[], 1, 1, excess 1 127 names.length⟩) := by
  have hinside := declarations_classes (e := 1) (n := 1) (r := []) hnames 126 (typeExpr 127) (scope 127) []
  have hscope := scope_read_block (l := 1) (by decide : isKeyword "N" = false)
    (EndsScope.atImport_blocks (.brace rfl) (by decide) names) hinside .atEnd
  have himports (ts : List Token) :
      imports (typeExpr depthLimit) ⟨.ofWord 1 "namespace" :: ts, 1, 1, []⟩ =
        ([], ⟨.ofWord 1 "namespace" :: ts, 1, 1, []⟩) := imports_none _ rfl
  have hround : declaration ⟨typeExpr 128, typeDecl 128, scope 128⟩ false []
      ⟨.ofWord 1 "namespace" :: .ofWord 1 "N" :: .ofMark 1 '\x7b' ::
        (Token.blocks 1 "class" names ++ .ofMark 1 '\x7d' :: []), 1, 1, []⟩ =
      (.again [.scope ⟨⟨["N"], 1⟩, [], false, 1⟩
        (outerClasses 1 (names.take 127) (nameless 1 127 names.length))],
          ⟨[], 1, 1, excess 1 127 names.length ++ []⟩) := by
    rw [declaration_scope, map_apply]
    dsimp only
    rw [hscope]
    rfl
  rw [sourceUnit, bind_apply, himports, bind_apply, declarations]
  dsimp only [depthLimit]
  rw [loop_again hround (Nat.succ_pos _), EndsScope.atEnd.declarations, List.append_nil]
  rfl

end Parse

namespace Parse

variable {e l n : Nat} {r : List Diagnostic} {u : Token} {us : List Token}

/-- A generic type may stand as the type of a member whatever its name is. -/
theorem startsType_generics (hnames : ∀ name ∈ names, isKeyword name = false) (line : Nat)
    (hu : u.isMark "(" = false) :
    (Cursor.mk
      ((generics line names (.predefined "int" line)).tokens n ++ u :: us) e l r).StartsType "C" := by
  cases names with
  | nil => exact startsType_spelled "C" (.predefined (by decide)) (by simp [generics, TypeExpr.words]) hu
  | cons name names =>
    have hname := hnames name List.mem_cons_self
    rw [TypeExpr.tokens_generics_cons, List.cons_append, List.cons_append]
    have halone (ts : List Token) :
        (Cursor.mk (.ofWord n name :: .ofMark n '<' :: ts) e l r).atModifier = false ∧
          (Cursor.mk (.ofWord n name :: .ofMark n '<' :: ts) e l r).atTypeWord = false :=
      name_alone hname n '<'
    exact ⟨rfl, (halone _).1, (halone _).2, name_not_dropped hname, rfl, Bool.and_false _,
      by simp [Cursor.canStartType, Token.isName, ofWord_name? hname]⟩

end Parse

theorem SourceUnit.ofSource_generics (hnames : ∀ name ∈ names, IsName name ∧ isKeyword name = false) :
    SourceUnit.ofSource ("class C \x7b " ++ (generics 1 names (.predefined "int" 1)).text ++ " x; \x7d") =
      (⟨[], [.type (plainHead 1 "C")
        [.field ⟨[], [], generics 1 (names.take 126) (innermost 1 (names.drop 126)), ["x"], 1⟩]]⟩,
        excess 1 126 names.length) := by
  have hint : (TypeExpr.predefined "int" 1).WellSpelled := .predefined (by decide)
  have hplain : ∀ name ∈ names, isKeyword name = false := fun name hname => (hnames name hname).2
  have hkeeps : Parse.KeepsPart (.ofName 1 "x") := Token.ofName_isAnyMark _
  have hsource := ofSource_fieldRead (TypeExpr.wellSpelled_generics hint hnames)
    (Parse.startsType_generics hplain 1 (Token.ofName_isMark "("))
    (Parse.typeExpr_generics hplain 126 (Parse.endsType_ofName 1 "x") hkeeps)
  rw [TypeExpr.line_generics (Parse.innermost_line 1 _), List.append_nil, Parse.excess_reverse] at hsource
  exact hsource

theorem SourceUnit.ofSource_arrays (ht : t.WellSpelled) (hmarks : t.marks = 0)
    (hwords : ∀ w ∈ t.words, w ∉ Parse.declarationWords) (hdepth : t.depth ≤ 127) (n : Nat) :
    SourceUnit.ofSource ("class C \x7b " ++ (arrays n t).text ++ " x; \x7d") =
      (⟨[], [.type (plainHead 1 "C") [.field ⟨[], [], arrays (min n 126) (t.onLine 1), ["x"], 1⟩]]⟩,
        excess 1 126 n) := by
  have hspelled := TypeExpr.wellSpelled_arrays ht n
  have hkeeps : Parse.KeepsPart (.ofName 1 "x") := Token.ofName_isAnyMark _
  have hsource := ofSource_fieldRead hspelled
    (Parse.startsType_spelled "C" hspelled (by rwa [TypeExpr.words_arrays]) (Token.ofName_isMark "("))
    (Parse.typeExpr_arrays ht hmarks hdepth n (Parse.endsType_ofName 1 "x") hkeeps)
  rw [TypeExpr.line_arrays, TypeExpr.line_onLine, List.append_nil, Parse.excess_reverse] at hsource
  exact hsource

/-- Nothing is reported up to the limit and one level too many beyond it. What there is room for is
declared: of namespaces and generic types one more with nothing in it, of classes one more without a
name. -/
theorem SourceUnit.ofSource_nested (hnames : ∀ name ∈ names, IsName name ∧ isKeyword name = false)
    (ht : t.WellSpelled) (hmarks : t.marks = 0) (hwords : ∀ w ∈ t.words, w ∉ Parse.declarationWords)
    (hdepth : t.depth ≤ 127) (n : Nat) :
    SourceUnit.ofSource (nestedText "namespace" names) =
        (⟨[], scopes 1 (names.take 129)⟩, excess 1 128 names.length) ∧
      SourceUnit.ofSource ("namespace N \x7b " ++ nestedText "class" names ++ "\x7d") =
        (⟨[], [.scope ⟨⟨["N"], 1⟩, [], false, 1⟩
          (outerClasses 1 (names.take 127) (nameless 1 127 names.length))]⟩, excess 1 127 names.length) ∧
      SourceUnit.ofSource ("class C \x7b " ++ (generics 1 names (.predefined "int" 1)).text ++ " x; \x7d") =
        (⟨[], [.type (plainHead 1 "C")
          [.field ⟨[], [], generics 1 (names.take 126) (innermost 1 (names.drop 126)), ["x"], 1⟩]]⟩,
          excess 1 126 names.length) ∧
      SourceUnit.ofSource ("class C \x7b " ++ (arrays n t).text ++ " x; \x7d") =
        (⟨[], [.type (plainHead 1 "C") [.field ⟨[], [], arrays (min n 126) (t.onLine 1), ["x"], 1⟩]]⟩,
          excess 1 126 n) := by
  have hisNames : ∀ name ∈ names, IsName name := fun name hname => (hnames name hname).1
  have hplain : ∀ name ∈ names, isKeyword name = false := fun name hname => (hnames name hname).2
  refine ⟨?_, ?_, ofSource_generics hnames, ofSource_arrays ht hmarks hwords hdepth n⟩
  · rw [ofSource_tokens (Token.ofSource_namespaces hisNames), Parse.sourceUnit_namespaces hplain,
      Parse.excess_reverse]
  · rw [ofSource_tokens (Token.ofSource_classes hisNames), Parse.sourceUnit_classes hplain,
      Parse.excess_reverse]

theorem SourceUnit.ofSource_nested_beyond :
    SourceUnit.ofSource (nestedText "namespace" (List.replicate 130 "List")) =
        (⟨[], scopes 1 (List.replicate 129 "List")⟩, [Parse.Fault.tooDeep.onLine 1]) ∧
      SourceUnit.ofSource ("namespace N \x7b " ++ nestedText "class" (List.replicate 130 "List") ++ "\x7d") =
        (⟨[], [.scope ⟨⟨["N"], 1⟩, [], false, 1⟩
          (outerClasses 1 (List.replicate 127 "List") [.nested (plainHead 1 "") []])]⟩,
          [Parse.Fault.tooDeep.onLine 1]) ∧
      SourceUnit.ofSource
          ("class C \x7b " ++ (generics 1 (List.replicate 130 "List") (.predefined "int" 1)).text ++
            " x; \x7d") =
        (⟨[], [.type (plainHead 1 "C") [.field ⟨[], [],
          generics 1 (List.replicate 126 "List") (.named [("List", [])] false 1), ["x"], 1⟩]]⟩,
          [Parse.Fault.tooDeep.onLine 1]) ∧
      SourceUnit.ofSource ("class C \x7b " ++ (arrays 127 (.predefined "int" 1)).text ++ " x; \x7d") =
        (⟨[], [.type (plainHead 1 "C")
          [.field ⟨[], [], arrays 126 (.predefined "int" 1), ["x"], 1⟩]]⟩,
          [Parse.Fault.tooDeep.onLine 1]) := by
  have hnames : ∀ name ∈ List.replicate 130 "List", IsName name ∧ isKeyword name = false := by
    intro name hname
    obtain rfl := List.eq_of_mem_replicate hname
    decide
  have hint : (TypeExpr.predefined "int" 1).WellSpelled := .predefined (by decide)
  have hnested := SourceUnit.ofSource_nested hnames hint rfl (by simp [TypeExpr.words]) (by decide) 127
  rw [List.length_replicate, List.take_replicate, List.take_replicate, List.take_replicate,
    List.drop_replicate] at hnested
  exact hnested

end DataClasses
