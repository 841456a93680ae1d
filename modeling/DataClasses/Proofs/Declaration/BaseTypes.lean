import DataClasses.Proofs.Declaration.OneClass

/-!
# Base types of a class

The base types of a class where they are dotted names. A part that a body stands behind is taken for the
name of a member, so a last base type of more than one part ends before its last part, and where it ends
no body is found. All other base types are read with all of their parts.
-/

set_option autoImplicit false

namespace DataClasses

open Identifier (IsName isKeyword)
open Token (before scan classHead)

def TypeExpr.ofParts (line : Nat) (parts : List String) : TypeExpr :=
  .named (parts.map fun part => (part, [])) false line

namespace TypeExpr

variable {line n : Nat} {parts : List String}

theorem text_ofParts (line : Nat) (parts : List String) :
    (ofParts line parts).text = ".".intercalate parts := by
  rw [ofParts, text, segmentTexts_eq, List.map_map]
  have hpart :
      ((fun s : String × List TypeExpr => s.1 ++ argumentText s.2) ∘ fun part => (part, [])) = id := by
    funext part
    exact String.append_empty
  rw [hpart, List.map_id]
  exact String.empty_append

theorem wellSpelled_ofParts (hne : parts ≠ [])
    (h : ∀ part ∈ parts, IsName part ∧ isKeyword part = false) : (ofParts line parts).WellSpelled := by
  refine .named (by simpa using hne) ?_ ?_
  · simpa using h
  · simp

theorem onLine_ofParts : (ofParts line parts).onLine n = ofParts n parts := by
  rw [ofParts, onLine, segmentsOnLine_eq, List.map_map]
  rfl

theorem tokens_ofParts_append (n : Nat) (hne : parts ≠ []) (part : String) :
    (ofParts line (parts ++ [part])).tokens n =
      (ofParts line parts).tokens n ++ [.ofMark n '.', .ofWord n part] := by
  rw [ofParts, List.map_append, List.map_singleton]
  exact nameTokens_append n (by simpa using hne) (part, [])

end TypeExpr

namespace Parse

variable {e l n room : Nat} {r : List Diagnostic} {t u v : Token} {ts us vs : List Token}

theorem baseItem_of {type : Parse (Option TypeExpr)} {x : Option TypeExpr} {c : Cursor}
    (h : type c = (x, ⟨u :: us, e, l, r⟩)) (hu : u.isMark "(" = false) :
    baseItem type c = (x, ⟨u :: us, e, l, r⟩) := by
  rw [baseItem, bind_apply, h, bind_apply, eatMark_not hu]
  rfl

/-- A dotted name is read up to where neither a further part nor a mark of a type is taken. -/
theorem typeExpr_ofParts {parts : List String} (hne : parts ≠ [])
    (hparts : ∀ part ∈ parts, isKeyword part = false) (hend : (Cursor.mk (v :: vs) e n r).EndsParts)
    (hmarks : v.isAnyMark ["?", "[", "*"] = false) (hkeeps : 2 ≤ parts.length → KeepsPart v) :
    typeExpr (room + 1) ⟨(TypeExpr.ofParts n parts).tokens n ++ v :: vs, e, l, r⟩ =
      (some (TypeExpr.ofParts n parts), ⟨v :: vs, e, n, r⟩) := by
  cases parts with
  | nil => exact absurd rfl hne
  | cons part parts =>
    have hline : ((Cursor.mk ((TypeExpr.ofParts n (part :: parts)).tokens n ++ v :: vs) e l r).ahead 0).line =
        n := by
      obtain ⟨w, ws, htail, -⟩ := nameTokens_head n (part, []) (parts.map fun part => (part, [])) v vs
      have htokens : (TypeExpr.ofParts n (part :: parts)).tokens n ++ v :: vs = .ofWord n part :: w :: ws :=
        htail
      rw [htokens]
      rfl
    have hsimple : simpleType (typeExpr room)
        ⟨(TypeExpr.ofParts n (part :: parts)).tokens n ++ v :: vs, e, l, r⟩ =
          (some ((TypeExpr.ofParts n (part :: parts)).onLine n), ⟨v :: vs, e, n, r⟩) :=
      simpleType_named false n (by simp) (by simpa using hparts) (by simp) hend (by simpa using hkeeps)
    rw [TypeExpr.onLine_ofParts] at hsimple
    rw [typeExpr_simple hline hsimple, map_apply, suffixes, loop_done (suffix_done n _ _ hmarks)]

def baseTokens (n : Nat) (bases : List (List String)) : List Token :=
  TypeExpr.rowTokens n (bases.map fun base => (TypeExpr.ofParts n base).tokens n)

theorem baseTypes_read {front : List (List String)} {last : List String} {x : TypeExpr}
    (hfront : ∀ base ∈ front, base ≠ [] ∧ ∀ part ∈ base, isKeyword part = false)
    (hlast : ∀ l, typeExpr (room + 1) ⟨(TypeExpr.ofParts n last).tokens n ++ ts, e, l, r⟩ =
      (some x, ⟨u :: us, e, n, r⟩))
    (hu : u.isAnyMark [",", "("] = false) (l : Nat) :
    baseTypes (typeExpr (room + 1)) ⟨baseTokens n (front ++ [last]) ++ ts, e, l, r⟩ =
      (front.map (TypeExpr.ofParts n) ++ [x], ⟨u :: us, e, n, r⟩) := by
  have hmarks := isMark_of_isAnyMark hu
  have hcomma : ∀ base ∈ front, ∀ l us, baseItem (typeExpr (room + 1))
      ⟨(TypeExpr.ofParts n base).tokens n ++ .ofMark n ',' :: us, e, l, r⟩ =
        (some (TypeExpr.ofParts n base), ⟨.ofMark n ',' :: us, e, n, r⟩) := by
    intro base hbase l us
    obtain ⟨hne, hparts⟩ := hfront base hbase
    exact baseItem_of (typeExpr_ofParts hne hparts (endsParts_of_endsSegments rfl) rfl fun _ => rfl) rfl
  exact commaList_read hcomma (fun l => baseItem_of (hlast l) (hmarks "(" (by simp)))
    (hmarks "," (by simp)) l

theorem typeDecl_bases (lead : Leading) (name : String) {bases : List TypeExpr}
    (hbases : ∀ l, baseTypes (typeExpr room) ⟨ts, e, l, r⟩ = (bases, ⟨u :: us, e, n, r⟩))
    (hu : u.isWord "where" = false) :
    typeDecl (room + 1) lead ⟨.ofWord n "class" :: .ofName n name :: .ofMark n ':' :: ts, e, l, r⟩ =
      (do
        let inside ← typeBody .plainClass (member (typeExpr room) (typeDecl room) name)
        pure (⟨.plainClass, name, [], lead.modifiers, lead.attributes, bases, [], n⟩, inside) :
          Parse (TypeHead × List Member)) ⟨u :: us, e, n, r⟩ := by
  have hkind : typeKind ⟨.ofWord n "class" :: .ofName n name :: .ofMark n ':' :: ts, e, l, r⟩ =
      (.plainClass, ⟨.ofName n name :: .ofMark n ':' :: ts, e, n, r⟩) := rfl
  have hcolon (l : Nat) : baseTypes? (typeExpr room) ⟨.ofMark n ':' :: ts, e, l, r⟩ =
      (bases, ⟨u :: us, e, n, r⟩) := by
    rw [baseTypes?, bind_apply, eatMark_of rfl]
    exact hbases n
  rw [typeDecl, typeDeclWith, bind_apply, current_apply, bind_apply, hkind, bind_apply,
    expectName_of Token.ofName_name?, bind_apply, typeParameters?_none rfl, bind_apply,
    parameters?_none _ rfl, bind_apply, hcolon, bind_apply, skipConstraints_none hu]
  rfl

theorem expectMark_not {mark : String} (fault : Fault) (h : t.isMark mark = false) :
    expectMark mark fault ⟨t :: ts, e, l, r⟩ = (false, (report fault l ⟨t :: ts, e, l, r⟩).2) := by
  rw [expectMark, bind_apply, eatMark_not h]
  rfl

/-- Without its opening brace there is nothing between the braces of a type. -/
theorem typeBody_unopened (kind : TypeKind) (item : Parse (Option Member)) (hempty : t.isMark ";" = false)
    (hopen : t.isMark openBrace = false) :
    typeBody kind item ⟨t :: ts, e, l, r⟩ =
      ([], (report .openBraceExpected l ⟨t :: ts, e, l, r⟩).2) := by
  have hinside : bracedMembers kind item ⟨t :: ts, e, l, r⟩ =
      ([], (report .openBraceExpected l ⟨t :: ts, e, l, r⟩).2) := by
    rw [bracedMembers, bind_apply, expectMark_not _ hopen]
    rfl
  rw [typeBody, bind_apply, eatMark_not hempty]
  simp only [Bool.false_eq_true, if_false]
  rw [bind_apply, hinside, report_apply, bind_apply, eatMark_not hempty]
  rfl

def basesTokens (bases : List (List String)) : List Token :=
  classHead ++ .ofMark 1 ':' :: (baseTokens 1 bases ++ [.ofMark 1 '\x7b', .ofMark 1 '\x7d'])

section

variable {front : List (List String)}
  (hfront : ∀ base ∈ front, base ≠ [] ∧ ∀ part ∈ base, isKeyword part = false)

include hfront

/-- A last base type of one part stands before the body. -/
theorem sourceUnit_bases {name : String} (hname : isKeyword name = false) :
    sourceUnit ⟨basesTokens (front ++ [[name]]), 1, 1, []⟩ =
      (⟨[], [.type ⟨.plainClass, "C", [], [], [],
        (front ++ [[name]]).map (TypeExpr.ofParts 1), [], 1⟩ []]⟩, ⟨[], 1, 1, []⟩) := by
  have hlast (l : Nat) : typeExpr (126 + 1)
      ⟨(TypeExpr.ofParts 1 [name]).tokens 1 ++ [.ofMark 1 '\x7b', .ofMark 1 '\x7d'], 1, l, []⟩ =
        (some (TypeExpr.ofParts 1 [name]), ⟨[.ofMark 1 '\x7b', .ofMark 1 '\x7d'], 1, 1, []⟩) :=
    typeExpr_ofParts (List.cons_ne_nil name []) (by simpa using hname) (endsParts_of_endsSegments rfl) rfl
      (by simp)
  have hdecl := typeDecl_bases (l := 1) ⟨[], []⟩ "C" (baseTypes_read hfront hlast rfl) rfl
  rw [bind_apply, typeBody_brace _ (by decide), bind_apply, members,
    loop_done (a := []) (d := ⟨[.ofMark 1 '\x7d'], 1, 1, []⟩) rfl] at hdecl
  rw [List.map_append]
  exact sourceUnit_oneClass hdecl

/-- A last base type of more parts ends before the last one. -/
theorem sourceUnit_basesCut {parts : List String} {name : String} (hne : parts ≠ [])
    (hparts : ∀ part ∈ parts ++ [name], isKeyword part = false) :
    (sourceUnit ⟨basesTokens (front ++ [parts ++ [name]]), 1, 1, []⟩).2.Faulty := by
  have hlast (l : Nat) : typeExpr (126 + 1)
      ⟨(TypeExpr.ofParts 1 (parts ++ [name])).tokens 1 ++
        [.ofMark 1 '\x7b', .ofMark 1 '\x7d'], 1, l, []⟩ =
        (some (TypeExpr.ofParts 1 parts),
          ⟨[.ofMark 1 '.', .ofWord 1 name, .ofMark 1 '\x7b', .ofMark 1 '\x7d'], 1, 1, []⟩) := by
    rw [TypeExpr.tokens_ofParts_append 1 hne, List.append_assoc]
    have hpart (l : Nat) : (Cursor.mk
        [.ofMark 1 '.', .ofWord 1 name, .ofMark 1 '\x7b', .ofMark 1 '\x7d'] 1 l []).atPart = false := by
      have hmember : (Cursor.mk
          [.ofMark 1 '.', .ofWord 1 name, .ofMark 1 '\x7b', .ofMark 1 '\x7d'] 1 l []).isMemberName 1 =
        true := rfl
      rw [Cursor.atPart, hmember, Bool.not_true, Bool.and_false]
    exact typeExpr_ofParts hne (fun part hpart => hparts part (List.mem_append_left _ hpart))
      ⟨rfl, rfl, hpart 1⟩ rfl fun _ => rfl
  have hdecl := typeDecl_bases (l := 1) ⟨[], []⟩ "C" (baseTypes_read hfront hlast rfl) rfl
  rw [bind_apply, typeBody_unopened _ _ rfl rfl] at hdecl
  exact sourceUnit_faulty (hdecl ▸ report_faulty _ _ _)

end

end Parse

open Parse

def basesSource (bases : List (List String)) : String :=
  "class C : " ++ ", ".intercalate (bases.map fun base => ".".intercalate base) ++ " \x7b \x7d"

theorem Token.scan_basesSource {bases : List (List String)} (hne : bases ≠ [])
    (hbases : ∀ base ∈ bases, base ≠ [] ∧ ∀ part ∈ base, IsName part ∧ isKeyword part = false) :
    Token.ofSource (basesSource bases) = (basesTokens bases ++ [⟨.done, 1⟩], []) := by
  have hspelled : ∀ t ∈ bases.map (TypeExpr.ofParts 1), t.WellSpelled := by
    intro t ht
    obtain ⟨base, hbase, rfl⟩ := List.mem_map.mp ht
    exact TypeExpr.wellSpelled_ofParts (hbases base hbase).1 (hbases base hbase).2
  have htexts : bases.map (fun base => ".".intercalate base) =
      (bases.map (TypeExpr.ofParts 1)).map TypeExpr.text := by
    rw [List.map_map]
    exact List.map_congr_left fun base _ => (TypeExpr.text_ofParts 1 base).symm
  have htokens : baseTokens 1 bases =
      TypeExpr.rowTokens 1 ((bases.map (TypeExpr.ofParts 1)).map (TypeExpr.tokens 1)) := by
    rw [baseTokens, List.map_map]
    rfl
  have htext : (basesSource bases).toList = "class C ".toList ++ ':' :: ' ' ::
      ((", ".intercalate ((bases.map (TypeExpr.ofParts 1)).map TypeExpr.text)).toList ++
        ' ' :: '\x7b' :: ' ' :: ['\x7d']) := by
    simp [basesSource, htexts]
  rw [ofSource, htext, scan_class, scan_colon 1 false (by simp), scan_space,
    TypeExpr.scan_texts (by simpa using hne) (fun t ht _ => TypeExpr.scan_text (hspelled t ht) 1)
      (fun t _ => TypeExpr.endsBefore_cons t (by decide) (by decide) _), ← htokens, scan_space,
    scan_mark 1 false (by decide), scan_space, scan_mark 1 false (by decide), scan_nil]
  simp [before, basesTokens, Token.ofMark]

/-- Base types that are dotted names are read, each with all of its parts, just if the last of them
has one part alone. -/
theorem SourceUnit.ofSource_baseTypes {bases : List (List String)} (hne : bases ≠ [])
    (hbases : ∀ base ∈ bases, base ≠ [] ∧ ∀ part ∈ base, IsName part ∧ isKeyword part = false) :
    SourceUnit.ofSource (basesSource bases) =
        (⟨[], [.type ⟨.plainClass, "C", [], [], [], bases.map (TypeExpr.ofParts 1), [], 1⟩
          []]⟩, []) ↔
      ∃ name, bases.getLast? = some [name] := by
  obtain ⟨front, last, rfl⟩ : ∃ front last, bases = front ++ [last] :=
    ⟨_, _, (List.dropLast_append_getLast hne).symm⟩
  have hkeywords : ∀ base ∈ front ++ [last], base ≠ [] ∧ ∀ part ∈ base, isKeyword part = false :=
    fun base hbase => ⟨(hbases base hbase).1, fun part hpart => ((hbases base hbase).2 part hpart).2⟩
  obtain ⟨hfront, hlast⟩ := List.forall_mem_append.mp hkeywords
  obtain ⟨hlastNe, hlastParts⟩ := hlast last List.mem_cons_self
  obtain ⟨parts, name, rfl⟩ : ∃ parts name, last = parts ++ [name] :=
    ⟨_, _, (List.dropLast_append_getLast hlastNe).symm⟩
  rw [ofSource_tokens (Token.scan_basesSource hne hbases), List.getLast?_append]
  by_cases hparts : parts = []
  · subst hparts
    rw [List.nil_append, sourceUnit_bases hfront (hlastParts name (by simp))]
    simp
  · have hfaulty := sourceUnit_basesCut hfront hparts hlastParts
    constructor
    · intro hread
      exact absurd (List.reverse_eq_nil_iff.mp (congrArg Prod.snd hread)) hfaulty
    · rintro ⟨single, hsingle⟩
      have hlength := congrArg List.length (Option.some.inj hsingle)
      simp [hparts] at hlength

theorem SourceUnit.ofSource_baseTypes_plainLast :
    SourceUnit.ofSource "class C : A.B.E, D \x7b \x7d" =
      (⟨[], [.type ⟨.plainClass, "C", [], [], [],
        [.named [("A", []), ("B", []), ("E", [])] false 1, .named [("D", [])] false 1], [], 1⟩
          []]⟩, []) :=
  (SourceUnit.ofSource_baseTypes (List.cons_ne_nil ["A", "B", "E"] [["D"]]) (by decide)).mpr ⟨"D", rfl⟩

theorem SourceUnit.ofSource_qualifiedBase :
    (SourceUnit.ofSource "class C : A.B \x7b \x7d").2.map (·.code) = ["CS1514", "CS1022"] ∧
      SourceUnit.ofSource "class C : A.B \x7b \x7d" ≠
        (⟨[], [.type ⟨.plainClass, "C", [], [], [],
          [.named [("A", []), ("B", [])] false 1], [], 1⟩ []]⟩, []) := by
  have hcodes : (SourceUnit.ofSource "class C : A.B \x7b \x7d").2.map (·.code) = ["CS1514", "CS1022"] := by
    decide +kernel
  refine ⟨hcodes, fun hread => ?_⟩
  rw [hread] at hcodes
  cases hcodes

end DataClasses
