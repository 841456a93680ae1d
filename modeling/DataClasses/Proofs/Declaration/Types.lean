import DataClasses.Proofs.ClassTree.Layout
import DataClasses.Proofs.Declaration.Growth
import DataClasses.Proofs.Declaration.Steps

/-!
# Reading the types of generated source

The spelling of a type is read as that type if there is room for its lists. If there is not,
something is reported.
-/

set_option autoImplicit false

namespace DataClasses

namespace MemberType

def depth : MemberType → Nat
  | .primitive _ => 0
  | .classNamed _ => 0
  | .listOf element => element.depth + 1

def core : MemberType → MemberType
  | .primitive kind => .primitive kind
  | .classNamed name => .classNamed name
  | .listOf element => element.core

def expr (line : Nat) : MemberType → TypeExpr
  | .primitive .timestamp => .named [("DateTime", [])] false line
  | .primitive kind => .predefined kind.spelling line
  | .classNamed name => .named [(name, [])] false line
  | .listOf element => .array (element.expr line) 1

def coreToken (line : Nat) : MemberType → Token
  | .primitive kind => .ofWord line kind.spelling
  | .classNamed name => .ofName line name
  | .listOf element => element.coreToken line

theorem coreToken_line (line : Nat) (t : MemberType) : (t.coreToken line).line = line := by
  induction t with
  | primitive kind => rfl
  | classNamed name => rfl
  | listOf element ih => exact ih

theorem expr_line (line : Nat) (t : MemberType) : (t.expr line).line = line := by
  induction t with
  | primitive kind => cases kind <;> rfl
  | classNamed name => rfl
  | listOf element ih => exact ih

end MemberType

namespace Parse

open ClassTree (typeAtoms)

variable {e l n room : Nat} {r : List Diagnostic} {t : MemberType} {u : Token} {ts : List Token}

def brackets (line : Nat) : Nat → List Token
  | 0 => []
  | k + 1 => .ofMark line '[' :: .ofMark line ']' :: brackets line k

theorem brackets_append (line k : Nat) :
    brackets line k ++ [.ofMark line '[', .ofMark line ']'] = brackets line (k + 1) := by
  induction k with
  | zero => rfl
  | succ k ih => rw [brackets, List.cons_append, List.cons_append, ih]; rfl

theorem tokens_typeAtoms (line : Nat) (t : MemberType) :
    Atom.tokens line (typeAtoms t) = t.coreToken line :: brackets line t.depth := by
  induction t with
  | primitive kind => rfl
  | classNamed name => exact Atom.tokens_ofName line name []
  | listOf element ih =>
    rw [typeAtoms, Atom.tokens_append, ih, List.cons_append]
    exact congrArg _ (brackets_append line element.depth)

def arrays : Nat → TypeExpr → TypeExpr
  | 0, x => x
  | k + 1, x => arrays k (.array x 1)

theorem arrays_succ (k : Nat) (x : TypeExpr) : arrays (k + 1) x = .array (arrays k x) 1 := by
  induction k generalizing x with
  | zero => rfl
  | succ k ih => exact ih (.array x 1)

theorem arrays_core (line : Nat) (t : MemberType) :
    arrays t.depth (t.core.expr line) = t.expr line := by
  induction t with
  | primitive kind => rfl
  | classNamed name => rfl
  | listOf element ih =>
    rw [MemberType.depth, arrays_succ]
    exact congrArg (TypeExpr.array · 1) ih

def EndsSegments (u : Token) : Prop := u.isAnyMark ["<", ".", "::"] = false

def EndsType (u : Token) : Prop := EndsSegments u ∧ u.isAnyMark ["?", "[", "*"] = false

theorem isMark_of_isAnyMark {marks : List String} (h : u.isAnyMark marks = false) :
    ∀ m ∈ marks, u.isMark m = false := by
  simpa [Token.isAnyMark] using h

theorem endsType_ofName (line : Nat) (name : String) : EndsType (.ofName line name) := by
  simp [EndsType, EndsSegments]

theorem typeArguments?_none (inner : Parse (Option TypeExpr)) (h : u.isMark "<" = false) :
    typeArguments? inner ⟨u :: ts, e, l, r⟩ = ([], ⟨u :: ts, e, l, r⟩) := by
  rw [typeArguments?, bind_apply, atMark_apply]
  simp only [ahead_zero, h]
  rfl

theorem segments_name (inner : Parse (Option TypeExpr)) (name : String) (h : EndsSegments u) :
    segments inner ⟨.ofName n name :: u :: ts, e, l, r⟩ = ([(name, [])], ⟨u :: ts, e, n, r⟩) := by
  have hu := isMark_of_isAnyMark h
  rw [segments, loop_done (a := [(name, [])]) (d := ⟨u :: ts, e, n, r⟩)]
  simp [nextSegment, bind_apply, current_apply, skip_apply, pure_apply, get_apply, Cursor.atPart,
    Cursor.atSeparator, Token.isAnyMark, typeArguments?_none inner (hu "<" (by simp)), hu "." (by simp),
    hu "::" (by simp)]

theorem find_predefined_ofName (line : Nat) (name : String) :
    predefinedTypes.find? (Token.ofName line name).isWord = none := by
  have hkeywords : ∀ w ∈ predefinedTypes, Identifier.isKeyword w = true := by decide
  rw [List.find?_eq_none]
  intro w hw
  simp [Token.ofName_isWord_of_keyword (hkeywords w hw)]

theorem simpleType_name (inner : Parse (Option TypeExpr)) (name : String) (h : EndsSegments u) :
    simpleType inner ⟨.ofName n name :: u :: ts, e, l, r⟩ =
      (some (.named [(name, [])] false n), ⟨u :: ts, e, n, r⟩) := by
  have hroot : (Cursor.mk (.ofName n name :: u :: ts) e l r).atRoot = false := by
    simp [Cursor.atRoot, isMark_of_isAnyMark h "::"]
  simp [simpleType, bind_apply, get_apply, map_apply, find_predefined_ofName, hroot,
    segments_name inner name h]

theorem simpleType_predefined (inner : Parse (Option TypeExpr)) {kind : Primitive}
    (h : kind ≠ .timestamp) :
    simpleType inner ⟨.ofWord n kind.spelling :: ts, e, l, r⟩ =
      (some (.predefined kind.spelling n), ⟨ts, e, n, r⟩) := by
  cases kind with
  | timestamp => exact absurd rfl h
  | _ => rfl

theorem simpleType_core (inner : Parse (Option TypeExpr)) (t : MemberType) (h : EndsSegments u) :
    simpleType inner ⟨t.coreToken n :: u :: ts, e, l, r⟩ =
      (some (t.core.expr n), ⟨u :: ts, e, n, r⟩) := by
  induction t with
  | primitive kind =>
    by_cases hkind : kind = .timestamp
    · subst hkind
      exact simpleType_name inner "DateTime" h
    · have hexpr : (MemberType.primitive kind).expr n = .predefined kind.spelling n := by
        cases kind <;> first | rfl | exact absurd rfl hkind
      rw [MemberType.core, hexpr]
      exact simpleType_predefined inner hkind
  | classNamed name => exact simpleType_name inner name h
  | listOf element ih => exact ih

theorem suffix_done (line : Nat) (x : TypeExpr) (room : Nat) (h : u.isAnyMark ["?", "[", "*"] = false) :
    suffix line (x, room, false) ⟨u :: ts, e, l, r⟩ = (.done x, ⟨u :: ts, e, l, r⟩) := by
  have hu := isMark_of_isAnyMark h
  simp [suffix, bind_apply, get_apply, pure_apply, hu "?" (by simp), hu "[" (by simp),
    hu "*" (by simp)]

theorem suffix_brackets (line : Nat) (x : TypeExpr) (room : Nat) :
    suffix line (x, room + 1, false) ⟨.ofMark n '[' :: .ofMark n ']' :: ts, e, l, r⟩ =
      (.again (.array x 1, room, false), ⟨ts, e, n, r⟩) := rfl

theorem suffix_tooDeep (line : Nat) (x : TypeExpr) :
    (suffix line (x, 0, false) ⟨.ofMark n '[' :: .ofMark n ']' :: ts, e, l, r⟩).2.Faulty :=
  List.cons_ne_nil _ _

theorem suffixes_brackets (line : Nat) (x : TypeExpr) {k : Nat} (hk : k ≤ room) (h : EndsType u) :
    suffixes line room x ⟨brackets n k ++ u :: ts, e, n, r⟩ = (arrays k x, ⟨u :: ts, e, n, r⟩) := by
  induction k generalizing x room with
  | zero => exact loop_done (suffix_done line x room h.2)
  | succ k ih =>
    obtain ⟨room, rfl⟩ : ∃ m, room = m + 1 := ⟨room - 1, by omega⟩
    rw [suffixes, brackets, List.cons_append, List.cons_append,
      loop_again (suffix_brackets line x room) (by simp only [List.length_cons]; omega)]
    exact ih (.array x 1) (by omega)

theorem suffixes_tooDeep (line : Nat) (x : TypeExpr) {k : Nat} (hk : room < k) :
    (suffixes line room x ⟨brackets n k ++ ts, e, l, r⟩).2.Faulty := by
  induction k generalizing x room l with
  | zero => omega
  | succ k ih =>
    rw [suffixes, brackets, List.cons_append, List.cons_append]
    cases room with
    | zero => exact loop_faulty (suffix_grows line) (suffix_tooDeep line x)
    | succ room =>
      rw [loop_again (suffix_brackets line x room) (by simp only [List.length_cons]; omega)]
      exact ih (.array x 1) (by omega)

theorem brackets_head (line k : Nat) (ts : List Token) (h : EndsSegments u) :
    ∃ v vs, brackets line k ++ u :: ts = v :: vs ∧ EndsSegments v := by
  cases k with
  | zero => exact ⟨u, ts, rfl, h⟩
  | succ k => exact ⟨.ofMark line '[', _, rfl, rfl⟩

theorem typeExpr_eq (h : EndsSegments u) :
    typeExpr (room + 1) ⟨Atom.tokens n (typeAtoms t) ++ u :: ts, e, l, r⟩ =
      (some <$> suffixes n room (t.core.expr n) : Parse _)
        ⟨brackets n t.depth ++ u :: ts, e, n, r⟩ := by
  obtain ⟨v, vs, htail, hv⟩ := brackets_head n t.depth ts h
  rw [tokens_typeAtoms, List.cons_append, htail, typeExpr, bind_apply, current_apply, bind_apply]
  simp only [simpleType_core _ t hv, ahead_zero, t.coreToken_line]

/-- A type with room for its lists is read as it is. -/
theorem typeExpr_spelled (hdepth : t.depth ≤ room) (h : EndsType u) :
    typeExpr (room + 1) ⟨Atom.tokens n (typeAtoms t) ++ u :: ts, e, l, r⟩ =
      (some (t.expr n), ⟨u :: ts, e, n, r⟩) := by
  rw [typeExpr_eq h.1, map_apply, suffixes_brackets n _ hdepth h, arrays_core]

theorem typeExpr_name (room : Nat) (name : String) (h : EndsType u) :
    typeExpr (room + 1) ⟨.ofName n name :: u :: ts, e, l, r⟩ =
      (some (.named [(name, [])] false n), ⟨u :: ts, e, n, r⟩) := by
  have htokens : Atom.tokens n (typeAtoms (.classNamed name)) = [.ofName n name] :=
    Atom.tokens_ofName n name []
  have hspelled : typeExpr (room + 1) ⟨Atom.tokens n (typeAtoms (.classNamed name)) ++ u :: ts, e, l, r⟩ =
      (some ((MemberType.classNamed name).expr n), ⟨u :: ts, e, n, r⟩) :=
    typeExpr_spelled (Nat.zero_le room) h
  rwa [htokens] at hspelled

/-- A type without room for its lists is reported. -/
theorem typeExpr_tooDeep (hdepth : room < t.depth) (h : EndsSegments u) :
    (typeExpr (room + 1) ⟨Atom.tokens n (typeAtoms t) ++ u :: ts, e, l, r⟩).2.Faulty := by
  rw [typeExpr_eq h, map_apply]
  exact suffixes_tooDeep n _ hdepth

end Parse
end DataClasses
