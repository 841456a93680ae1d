import DataClasses.Proofs.Declaration.Origins
import DataClasses.Proofs.Token.Scanning

/-!
# What is found in a source

A step of the scanner finds names that are identifiers, numbers that are read to their end, marks of
the list, or literals, and never the end of the text. It passes over as many lines as the text it
leaves has fewer, so what it finds stands on a line of the source.
-/

set_option autoImplicit false

namespace DataClasses

namespace Lexeme

/-- The rest of a number takes digits and letters in, whatever stands behind them. -/
theorem numberRest_alphanum (hex : Bool) (before : Char) {c : Char} (h : c.isAlphanum = true)
    (cs : List Char) : (numberRest hex before (c :: cs)).1 = c :: (numberRest hex c cs).1 := by
  rw [numberRest]
  simp [h]

theorem digit_isAlphanum {c : Char} (h : c.isDigit = true) : c.isAlphanum = true := by
  simp [Char.isAlphanum, h]

theorem isDigitNext_numberRest (hex : Bool) (before : Char) {cs : List Char} (h : isDigitNext cs = true) :
    isDigitNext (numberRest hex before cs).1 = true := by
  cases cs with
  | nil => exact h
  | cons d cs =>
    rw [numberRest_alphanum hex before (digit_isAlphanum h)]
    exact h

/-- What is read of a number is read of it again where nothing else stands behind. -/
theorem numberRest_again (hex : Bool) (before : Char) (cs : List Char) :
    numberRest hex before (numberRest hex before cs).1 = ((numberRest hex before cs).1, []) := by
  induction cs generalizing before with
  | nil => rfl
  | cons c cs ih =>
    rw [numberRest]
    split
    · next hc =>
      have hagain : (c.isAlphanum || c == '_' || (c == '.' && isDigitNext (numberRest hex c cs).1) ||
          (c == '+' || c == '-') && (before == 'e' || before == 'E') && !hex) = true := by
        simp only [Bool.or_eq_true, Bool.and_eq_true] at hc ⊢
        exact hc.imp_left (Or.imp_right (And.imp_right (isDigitNext_numberRest hex c)))
      rw [numberRest, if_pos hagain, ih c]
    · rfl

theorem numberRest_head? (hex : Bool) (before : Char) (cs : List Char) {c : Char} (h : c.isAlphanum = true) :
    (numberRest hex before cs).1.head? = some c ↔ cs.head? = some c := by
  cases cs with
  | nil => rfl
  | cons d cs =>
    rw [numberRest]
    split
    · rfl
    · next hd =>
      have hne : d ≠ c := by
        rintro rfl
        simp [h] at hd
      simp [hne]

theorem isHexadecimal_numberRest (hex : Bool) (before c : Char) (cs : List Char) :
    isHexadecimal c (numberRest hex before cs).1 = isHexadecimal c cs := by
  have hlower := numberRest_head? hex before cs (c := 'x') (by decide)
  have hupper := numberRest_head? hex before cs (c := 'X') (by decide)
  rw [isHexadecimal, isHexadecimal, Bool.eq_iff_iff]
  simp only [Bool.and_eq_true, Bool.or_eq_true, beq_iff_eq, hlower, hupper]

def IsNumber : List Char → Prop
  | [] => False
  | c :: cs => (c.isDigit || c == '.' && isDigitNext cs) = true ∧
    numberRest (isHexadecimal c cs) c cs = (cs, [])

theorem isNumber_read {c : Char} {cs : List Char} (h : (c.isDigit || c == '.' && isDigitNext cs) = true) :
    IsNumber (c :: (numberRest (isHexadecimal c cs) c cs).1) := by
  refine ⟨?_, ?_⟩
  · simp only [Bool.or_eq_true, Bool.and_eq_true] at h ⊢
    exact h.imp_right (And.imp_right (isDigitNext_numberRest _ c))
  · rw [isHexadecimal_numberRest, numberRest_again]

theorem mark?_some {cs : List Char} {m : String} (h : mark? cs = some m) :
    m ∈ marks ∧ m.toList <+: cs := by
  have hprefix := List.find?_some h
  rw [List.isPrefixOf_iff_prefix] at hprefix
  exact ⟨List.mem_of_find?_eq_some h, hprefix⟩

end Lexeme

open Identifier (IsName isStart)

def TokenKind.Readable : TokenKind → Prop
  | .identifier name _ => IsName name
  | .text _ => True
  | .character => True
  | .number digits => Lexeme.IsNumber digits.toList
  | .mark m => m ∈ Lexeme.marks
  | .done => False

namespace Token

theorem identifierPiece_readable (verbatim : Bool) {c : Char} (hc : isStart c = true) (cs : List Char) :
    ∀ kind ∈ (identifierPiece verbatim c cs).kind, kind.Readable := by
  rintro _ ⟨⟩
  rw [TokenKind.Readable, IsName, String.toList_ofList, Identifier.isIdentifier_iff]
  exact ⟨c, (Lexeme.name cs).1, rfl, hc, fun d hd => List.mem_takeWhile_imp hd⟩

theorem numberPiece_readable {c : Char} {cs : List Char}
    (h : (c.isDigit || c == '.' && Lexeme.isDigitNext cs) = true) :
    ∀ kind ∈ (numberPiece c cs).kind, kind.Readable := by
  rintro _ ⟨⟩
  rw [TokenKind.Readable, String.toList_ofList]
  exact Lexeme.isNumber_read h

theorem markPiece_readable (c : Char) (cs : List Char) :
    ∀ kind ∈ (markPiece c cs).kind, kind.Readable := by
  rw [markPiece]
  cases hmark : Lexeme.mark? (c :: cs) with
  | none => rintro _ ⟨⟩
  | some m =>
    rintro _ ⟨⟩
    exact (Lexeme.mark?_some hmark).1

theorem bodyPiece_readable (b : Lexeme.Body) : ∀ kind ∈ (Piece.ofBody b).kind, kind.Readable := by
  rintro _ ⟨⟩
  trivial

theorem tokenPiece_readable (c : Char) (cs : List Char) :
    ∀ kind ∈ (tokenPiece c cs).kind, kind.Readable := by
  fun_cases tokenPiece c cs with
  | case1 => exact bodyPiece_readable _
  | case2 =>
    rintro _ ⟨⟩
    trivial
  | case3 => exact bodyPiece_readable _
  | case4 => exact bodyPiece_readable _
  | case5 => exact bodyPiece_readable _
  | case6 => exact bodyPiece_readable _
  | case7 d ds _ _ hstart => exact identifierPiece_readable true hstart ds
  | case8 => exact markPiece_readable _ _
  | case9 c cs hstart =>
    rw [if_pos hstart]
    exact identifierPiece_readable false hstart cs
  | case10 c cs hstart hnumber =>
    rw [if_neg hstart, if_pos hnumber]
    exact numberPiece_readable hnumber
  | case11 c cs hstart hnumber =>
    rw [if_neg hstart, if_neg hnumber]
    exact markPiece_readable c cs

theorem piece_readable {fresh : Bool} {c : Char} {cs : List Char} {kind : TokenKind}
    (h : (piece fresh c cs).kind = some kind) : kind.Readable := by
  unfold piece at h
  split at h
  · cases h
  · split at h
    · cases h
    · split at h
      · cases h
      · split at h
        · cases h
        · exact tokenPiece_readable c cs kind h

end Token

/-- The lines of a source, of which there is one more than there are line ends, and the identifiers. -/
def Extent.ofSource (source : String) : Extent where
  hasLine n := 1 ≤ n ∧ n ≤ source.toList.count '\n' + 1
  hasName := Identifier.IsName

namespace Token

open Identifier (IsName)

theorem piece_stands {e : Extent} (hnames : ∀ text, IsName text → e.hasName text) {fresh : Bool}
    {c : Char} {cs : List Char} {kind : TokenKind} (hkind : (piece fresh c cs).kind = some kind)
    {line : Nat} (hline : e.hasLine line) : Token.StandsIn e ⟨kind, line⟩ := by
  refine ⟨hline, ?_⟩
  intro name hname
  cases kind with
  | identifier text marked =>
    cases hname
    exact hnames _ (piece_readable hkind)
  | text value => cases hname
  | character => cases hname
  | number text => cases hname
  | mark text => cases hname
  | done => cases hname

theorem lineEnds_piece_le (fresh : Bool) (c : Char) (cs : List Char) :
    lineEnds (piece fresh c cs).rest ≤ lineEnds (c :: cs) :=
  (((piece_suffix fresh c cs).trans (List.suffix_cons c cs)).sublist).count_le '\n'

/-- Whatever is found in a text stands on one of its lines, from the one it begins on. -/
theorem scan_stands {e : Extent} (hnames : ∀ text, IsName text → e.hasName text) (line : Nat)
    (fresh : Bool) (cs : List Char)
    (hlines : ∀ n, line ≤ n → n ≤ line + lineEnds cs → e.hasLine n) :
    (∀ t ∈ (scan line fresh cs).1, t.StandsIn e) ∧
      ∀ d ∈ (scan line fresh cs).2, e.hasLine d.line := by
  induction hlength : cs.length using Nat.strongRecOn generalizing line fresh cs with
  | _ length ih =>
    have hline : e.hasLine line := hlines line (Nat.le_refl _) (Nat.le_add_right _ _)
    cases cs with
    | nil =>
      rw [scan]
      have hdone : Token.StandsIn e ⟨.done, line⟩ := ⟨hline, by rintro _ ⟨⟩⟩
      simpa using hdone
    | cons c cs =>
      have hshorter := (piece_suffix fresh c cs).length_le
      have hends := lineEnds_piece_le fresh c cs
      rw [List.length_cons] at hlength
      obtain ⟨htokens, hreports⟩ := ih _ (by omega)
        (line + (lineEnds (c :: cs) - lineEnds (piece fresh c cs).rest))
        ((piece fresh c cs).kind.isNone &&
          (fresh || 0 < lineEnds (c :: cs) - lineEnds (piece fresh c cs).rest))
        (piece fresh c cs).rest (fun n h h' => hlines n (by omega) (by omega)) rfl
      rw [scan]
      constructor
      · cases hkind : (piece fresh c cs).kind with
        | none =>
          simp only [hkind] at htokens ⊢
          exact htokens
        | some kind =>
          simp only [hkind] at htokens ⊢
          exact List.forall_mem_cons.mpr ⟨piece_stands hnames hkind hline, htokens⟩
      · intro d hd
        rcases List.mem_append.mp hd with hd | hd
        · obtain ⟨flaw, -, rfl⟩ := List.mem_map.mp hd
          exact hline
        · exact hreports d hd

theorem ofSource_stands (source : String) :
    (∀ t ∈ (ofSource source).1, t.StandsIn (.ofSource source)) ∧
      ∀ d ∈ (ofSource source).2, (Extent.ofSource source).hasLine d.line := by
  refine scan_stands (fun _ h => h) 1 true source.toList fun n h h' => ⟨h, ?_⟩
  rwa [Nat.add_comm] at h'

end Token

theorem Parse.start_stands {e : Extent} {tokens : List Token} (h : ∀ t ∈ tokens, t.StandsIn e)
    (hfirst : e.hasLine 1) : (Parse.start tokens).StandsIn e := by
  refine ⟨fun t ht => h t (List.dropLast_subset _ ht), ?_, hfirst, by simp [Parse.start]⟩
  change e.hasLine ((tokens.getLast?.map Token.line).getD 1)
  cases hlast : tokens.getLast? with
  | none => exact hfirst
  | some t => exact (h t (List.mem_of_getLast? hlast)).line

/-- What is read of a source stands in it, and what is reported on its lines. -/
theorem SourceUnit.ofSource_stands (source : String) :
    (SourceUnit.ofSource source).1.StandsIn (.ofSource source) ∧
      ∀ d ∈ (SourceUnit.ofSource source).2, (Extent.ofSource source).hasLine d.line := by
  obtain ⟨htokens, hflaws⟩ := Token.ofSource_stands source
  have hfirst : (Extent.ofSource source).hasLine 1 := ⟨Nat.le_refl 1, Nat.le_add_left 1 _⟩
  obtain ⟨hunit, hcursor⟩ := Parse.sourceUnit_keeps _ (Parse.start_stands htokens hfirst)
  refine ⟨hunit, ?_⟩
  intro d hd
  rcases List.mem_append.mp hd with hd | hd
  · exact hflaws d hd
  · exact hcursor.reports d (List.mem_reverse.mp hd)

end DataClasses
