import DataClasses.Proofs.Token.Layout
import Mathlib.Data.Bool.AllAny

/-!
# Scanning marks

A mark is read where it stands, unless a longer one, a comment or a number begins with it there. The
longer marks come first in their list, so the one that is found is the longest.
-/

set_option autoImplicit false

namespace DataClasses.Token

open Identifier (isStart IsName)

def endings (m : String) : List (List Char) :=
  Lexeme.marks.filterMap fun k =>
    if m.toList.isPrefixOf k.toList then some (k.toList.drop m.toList.length) else none

structure Alone (m : String) (rest : List Char) : Prop where
  longest : ∀ more ∈ endings m, more <+: rest → more = []
  comment : m = "/" → ∀ c ∈ rest.head?, c ≠ '/' ∧ c ≠ '*'
  number : m = "." → Lexeme.isDigitNext rest = false

theorem marks_longer_first : Lexeme.marks.Pairwise fun m k => ¬m.toList <+: k.toList := by decide

theorem mark?_of_alone {m : String} (hm : m ∈ Lexeme.marks) {rest : List Char} (h : Alone m rest) :
    Lexeme.mark? (m.toList ++ rest) = some m := by
  obtain ⟨front, back, hsplit⟩ := List.append_of_mem hm
  rw [Lexeme.mark?, List.find?_eq_some_iff_append]
  refine ⟨by simp, front, back, hsplit, ?_⟩
  intro k hk
  have hlonger : ¬k.toList <+: m.toList := by
    have hpairs := marks_longer_first
    rw [hsplit, List.pairwise_append] at hpairs
    exact hpairs.2.2 k hk m List.mem_cons_self
  rw [Bool.not_eq_true', ← Bool.not_eq_true, List.isPrefixOf_iff_prefix]
  intro hprefix
  rcases List.prefix_or_prefix_of_prefix hprefix (List.prefix_append m.toList rest) with hle |
    ⟨more, hmore⟩
  · exact hlonger hle
  · have hending : more ∈ endings m :=
      List.mem_filterMap.mpr ⟨k, hsplit ▸ List.mem_append_left _ hk, by simp [← hmore]⟩
    rw [← hmore, List.prefix_append_right_inj] at hprefix
    rw [h.longest more hending hprefix, List.append_nil] at hmore
    exact hlonger (hmore ▸ List.prefix_refl _)

theorem marks_characters : ∀ m ∈ Lexeme.marks, ∀ c ∈ m.toList,
    c ∉ ['\n', '#', '"', '\'', '@', '$'] ∧ Text.isBlank c = false ∧ isStart c = false ∧
      c.isDigit = false := by
  intro m hm
  refine List.all_iff_forall_prop.mp ?_
  revert m
  decide

theorem marks_of_slash : ∀ m ∈ Lexeme.marks, m.toList.head? = some '/' → m = "/" ∨ m = "/=" := by
  decide

theorem marks_of_point : ∀ m ∈ Lexeme.marks, m.toList.head? = some '.' → m = "." ∨ m = "..." := by
  decide

theorem piece_of_alone (fresh : Bool) {m : String} (hm : m ∈ Lexeme.marks) {c : Char}
    {cs rest : List Char} (hcs : m.toList = c :: cs) (h : Alone m rest) :
    piece fresh c (cs ++ rest) = ⟨some (.mark m), [], rest⟩ := by
  obtain ⟨hplain, hblank, hstart, hdigit⟩ := marks_characters m hm c (by simp [hcs])
  simp only [List.mem_cons, List.not_mem_nil, or_false, not_or] at hplain
  have hslash : c = '/' → (cs ++ rest).head? ≠ some '/' ∧ (cs ++ rest).head? ≠ some '*' := by
    rintro rfl
    rcases marks_of_slash m hm (by simp [hcs]) with rfl | rfl
    · obtain rfl : [] = cs := by simpa using hcs
      rw [List.nil_append]
      exact ⟨fun hc => (h.comment rfl _ hc).1 rfl, fun hc => (h.comment rfl _ hc).2 rfl⟩
    · obtain rfl : ['='] = cs := by simpa using hcs
      simp
  have hpoint : c = '.' → Lexeme.isDigitNext (cs ++ rest) = false := by
    rintro rfl
    rcases marks_of_point m hm (by simp [hcs]) with rfl | rfl
    · obtain rfl : [] = cs := by simpa using hcs
      exact h.number rfl
    · obtain rfl : ['.', '.'] = cs := by simpa using hcs
      rfl
  have hmark : markPiece c (cs ++ rest) = ⟨some (.mark m), [], rest⟩ := by
    have hlength : m.length - 1 = cs.length := by simp [← String.length_toList, hcs]
    have hfound : Lexeme.mark? (c :: (cs ++ rest)) = some m := by
      rw [← List.cons_append, ← hcs, mark?_of_alone hm h]
    simp [markPiece, hfound, hlength]
  have htoken : tokenPiece c (cs ++ rest) = markPiece c (cs ++ rest) := by
    unfold tokenPiece
    split <;> simp_all
  rw [← hmark, ← htoken, piece, if_neg (by simp [hblank]), if_neg (by simp [hplain]), if_neg, if_neg]
  · simpa using fun hc => (hslash hc).2
  · simpa using fun hc => (hslash hc).1

theorem scan_of_alone (line : Nat) (fresh : Bool) {m : String} (hm : m ∈ Lexeme.marks)
    {rest : List Char} (h : Alone m rest) :
    scan line fresh (m.toList ++ rest) = before [⟨.mark m, line⟩] (scan line false rest) := by
  have hline : '\n' ∉ m.toList := by
    intro hmem
    exact (marks_characters m hm '\n' hmem).1 List.mem_cons_self
  have hends := lineEnds_append_of_not_mem hline rest
  cases hcs : m.toList with
  | nil =>
    have hne : ∀ k ∈ Lexeme.marks, k.toList ≠ [] := by decide
    exact absurd hcs (hne m hm)
  | cons c cs =>
    rw [hcs] at hends
    exact scan_token (piece_of_alone fresh hm hcs h) hends

theorem scan_comma (line : Nat) (fresh : Bool) (rest : List Char) :
    scan line fresh (',' :: rest) = before [.ofMark line ','] (scan line false rest) := by
  have hendings : endings "," = [[]] := by decide
  exact scan_of_alone line fresh (m := ",") (by decide) ⟨by simp [hendings], by simp, by simp⟩

theorem scan_colon (line : Nat) (fresh : Bool) {rest : List Char} (h : ¬[':'] <+: rest) :
    scan line fresh (':' :: rest) = before [.ofMark line ':'] (scan line false rest) := by
  have hendings : endings ":" = [[':'], []] := by decide
  exact scan_of_alone line fresh (m := ":") (by decide) ⟨by simp [hendings, h], by simp, by simp⟩

theorem scan_colons (line : Nat) (fresh : Bool) (rest : List Char) :
    scan line fresh (':' :: ':' :: rest) = before [⟨.mark "::", line⟩] (scan line false rest) := by
  have hendings : endings "::" = [[]] := by decide
  exact scan_of_alone line fresh (m := "::") (by decide) ⟨by simp [hendings], by simp, by simp⟩

theorem scan_openAngle (line : Nat) (fresh : Bool) {rest : List Char} (h : ¬['<'] <+: rest)
    (heq : ¬['='] <+: rest) :
    scan line fresh ('<' :: rest) = before [.ofMark line '<'] (scan line false rest) := by
  have hendings : endings "<" = [['<', '='], ['='], ['<'], []] := by decide
  have htwo : ¬['<', '='] <+: rest := fun hprefix => h (List.IsPrefix.trans ⟨['='], rfl⟩ hprefix)
  exact scan_of_alone line fresh (m := "<") (by decide)
    ⟨by simp [hendings, h, heq, htwo], by simp, by simp⟩

/-- Closing angles are one mark each, unless an equality sign follows them. -/
theorem scan_closeAngle (line : Nat) (fresh : Bool) {rest : List Char} (h : ¬['='] <+: rest)
    (htwo : ¬['>', '='] <+: rest) :
    scan line fresh ('>' :: rest) = before [.ofMark line '>'] (scan line false rest) := by
  have hendings : endings ">" = [['>', '='], ['='], []] := by decide
  exact scan_of_alone line fresh (m := ">") (by decide)
    ⟨by simp [hendings, h, htwo], by simp, by simp⟩

theorem scan_question (line : Nat) (fresh : Bool) {rest : List Char} (h : ¬['?'] <+: rest)
    (hpoint : ¬['.'] <+: rest) :
    scan line fresh ('?' :: rest) = before [.ofMark line '?'] (scan line false rest) := by
  have hendings : endings "?" = [['?', '='], ['?'], ['.'], []] := by decide
  have htwo : ¬['?', '='] <+: rest := fun hprefix => h (List.IsPrefix.trans ⟨['='], rfl⟩ hprefix)
  exact scan_of_alone line fresh (m := "?") (by decide)
    ⟨by simp [hendings, h, hpoint, htwo], by simp, by simp⟩

theorem scan_equals (line : Nat) (fresh : Bool) {rest : List Char} (h : ¬['='] <+: rest)
    (hangle : ¬['>'] <+: rest) :
    scan line fresh ('=' :: rest) = before [.ofMark line '='] (scan line false rest) := by
  have hendings : endings "=" = [['>'], ['='], []] := by decide
  exact scan_of_alone line fresh (m := "=") (by decide) ⟨by simp [hendings, h, hangle], by simp, by simp⟩

end DataClasses.Token
