import DataClasses.Proofs.Token.Lines
import DataClasses.Proofs.Token.Marks
import Mathlib.Data.List.Find

/-!
# Texts on lines of their own

A text with nothing wrong in it, which stands on lines of its own, is scanned as it is alone. What
begins in it ends in it: a literal with its quote, a comment with its mark, and everything else at the
line end behind the text, which neither a name, a number nor a mark goes on with.
-/

set_option autoImplicit false

namespace DataClasses

namespace Lexeme

open Identifier (isPart)

theorem takeWhile_line {p : Char → Bool} (h : p '\n' = false) (cs rest : List Char) :
    (cs ++ '\n' :: rest).takeWhile p = cs.takeWhile p := by
  induction cs with
  | nil => simp [h]
  | cons c cs ih => by_cases hc : p c <;> simp [hc, ih]

theorem dropWhile_line {p : Char → Bool} (h : p '\n' = false) (cs rest : List Char) :
    (cs ++ '\n' :: rest).dropWhile p = cs.dropWhile p ++ '\n' :: rest := by
  induction cs with
  | nil => simp [h]
  | cons c cs ih => by_cases hc : p c <;> simp [hc, ih]

theorem afterLine_line (cs rest : List Char) :
    afterLine (cs ++ '\n' :: rest) = afterLine cs ++ '\n' :: rest := dropWhile_line rfl cs rest

/-- A comment that ends in a text ends there whatever follows. -/
theorem afterComment_append {cs : List Char} (h : (afterComment cs).1 = true) (rest : List Char) :
    afterComment (cs ++ rest) = (true, (afterComment cs).2 ++ rest) := by
  fun_induction afterComment cs with
  | case1 => simp at h
  | case2 cs => rfl
  | case3 c cs hend ih =>
    rw [← ih h]
    cases cs with
    | nil => simp [afterComment] at h
    | cons d cs =>
      rw [List.cons_append, List.cons_append, afterComment]
      simpa using hend

theorem name_line (cs rest : List Char) :
    name (cs ++ '\n' :: rest) = ((name cs).1, (name cs).2 ++ '\n' :: rest) := by
  have hpart : isPart '\n' = false := by decide
  simp only [name, takeWhile_line hpart, dropWhile_line hpart]

theorem isDigitNext_line (cs rest : List Char) :
    isDigitNext (cs ++ '\n' :: rest) = isDigitNext cs := by
  cases cs <;> rfl

theorem numberRest_line (hex : Bool) (before : Char) (cs rest : List Char) :
    numberRest hex before (cs ++ '\n' :: rest) =
      ((numberRest hex before cs).1, (numberRest hex before cs).2 ++ '\n' :: rest) := by
  induction cs generalizing before with
  | nil => simp [numberRest]
  | cons c cs ih =>
    rw [List.cons_append, numberRest, numberRest, isDigitNext_line, ih]
    split <;> rfl

theorem isHexadecimal_line (c : Char) (cs rest : List Char) :
    isHexadecimal c (cs ++ '\n' :: rest) = isHexadecimal c cs := by
  cases cs with
  | nil => simp [isHexadecimal]
  | cons d cs => rfl

/-- An escape is the same in a longer text if its digits are. -/
theorem hexEscape_of_digits {least most : Nat} {cs rest : List Char}
    (h : ((cs ++ rest).take most).takeWhile Text.isHexDigit = (cs.take most).takeWhile Text.isHexDigit) :
    hexEscape least most (cs ++ rest) =
      ((hexEscape least most cs).1, (hexEscape least most cs).2 ++ rest) := by
  have hlength : ((cs.take most).takeWhile Text.isHexDigit).length ≤ cs.length :=
    (List.takeWhile_sublist _).length_le.trans (List.length_take_le' most cs)
  simp only [hexEscape, h, List.drop_append_of_le_length hlength]
  split
  · rfl
  · split <;> rfl

theorem hexEscape_line (least most : Nat) (cs rest : List Char) :
    hexEscape least most (cs ++ '\n' :: rest) =
      ((hexEscape least most cs).1, (hexEscape least most cs).2 ++ '\n' :: rest) := by
  refine hexEscape_of_digits ?_
  by_cases hmost : most ≤ cs.length
  · rw [List.take_append_of_le_length hmost]
  · obtain ⟨k, hk⟩ : ∃ k, most - cs.length = k + 1 := ⟨most - cs.length - 1, by omega⟩
    rw [List.take_append, hk, List.take_succ_cons, takeWhile_line (by decide)]

theorem escape_line (c : Char) (cs rest : List Char) :
    escape c (cs ++ '\n' :: rest) = ((escape c cs).1, (escape c cs).2 ++ '\n' :: rest) := by
  unfold escape
  split <;> simp [hexEscape_line]

/-- An escape that leaves something of a text takes no more where the text goes on. -/
theorem hexEscape_append {least most : Nat} {cs : List Char} (h : (hexEscape least most cs).2 ≠ [])
    (rest : List Char) :
    hexEscape least most (cs ++ rest) =
      ((hexEscape least most cs).1, (hexEscape least most cs).2 ++ rest) := by
  have hrest : (hexEscape least most cs).2 = cs.drop ((cs.take most).takeWhile Text.isHexDigit).length := by
    simp only [hexEscape]
    split
    · rfl
    · split <;> rfl
  rw [hrest, Ne, List.drop_eq_nil_iff] at h
  refine hexEscape_of_digits ?_
  by_cases hmost : most ≤ cs.length
  · rw [List.take_append_of_le_length hmost]
  · have hall : cs.take most = cs := List.take_of_length_le (by omega)
    rw [hall] at h ⊢
    rw [List.take_append, hall, List.takeWhile_append, if_neg (by omega)]

theorem escape_append {c : Char} {cs : List Char} (h : (escape c cs).2 ≠ []) (rest : List Char) :
    escape c (cs ++ rest) = ((escape c cs).1, (escape c cs).2 ++ rest) := by
  unfold escape at h ⊢
  split <;> simp_all [hexEscape_append]

/-- A literal with nothing wrong in it ends before its text does. -/
theorem quoted_append {quote : Char} {cs : List Char} (h : (quoted quote cs).flaws = [])
    (rest : List Char) :
    quoted quote (cs ++ rest) = { quoted quote cs with rest := (quoted quote cs).rest ++ rest } := by
  fun_induction quoted quote cs with
  | case1 => simp at h
  | case2 => simp at h
  | case3 c cs hline hquote =>
    rw [List.cons_append, quoted.eq_def]
    simp [hline, hquote]
  | case4 => simp at h
  | case5 c hline hquote hslash d ds hle tail e hescape ih =>
    have hne : (escape d ds).2 ≠ [] := by
      intro hnil
      simp [tail, hnil, quoted, Body.push] at h
    rw [List.cons_append, List.cons_append, quoted.eq_def]
    simp [hline, hquote, hslash, escape_append hne, hescape, Body.push, tail, ih h]
  | case6 => simp [Body.flawed] at h
  | case7 c cs hline hquote hslash ih =>
    rw [List.cons_append, quoted.eq_def]
    simp [hline, hquote, hslash, ih h, Body.push]

theorem verbatim_line {cs : List Char} (h : (verbatim cs).flaws = []) (rest : List Char) :
    verbatim (cs ++ '\n' :: rest) =
      { verbatim cs with rest := (verbatim cs).rest ++ '\n' :: rest } := by
  fun_induction verbatim cs with
  | case1 => simp at h
  | case2 cs ih =>
    rw [List.cons_append, List.cons_append, verbatim, ih h]
    rfl
  | case3 cs hquote =>
    cases cs with
    | nil => rfl
    | cons d cs =>
      rw [List.cons_append, List.cons_append, verbatim]
      simpa using hquote
  | case4 c cs hquotes hquote ih =>
    rw [List.cons_append, verbatim, ih h]
    · rfl
    · exact fun _ hc _ => hquote hc
    · exact hquote

theorem flaws_of_characterFlaws {b : Body} (h : characterFlaws b = []) : b.flaws = [] := by
  unfold characterFlaws at h
  split at h
  · exact h
  · split at h <;> simp_all

theorem isPrefixOf_line {m : List Char} (h : '\n' ∉ m) (cs rest : List Char) :
    m.isPrefixOf (cs ++ '\n' :: rest) = m.isPrefixOf cs := by
  induction m generalizing cs with
  | nil => rfl
  | cons c m ih =>
    simp only [List.mem_cons, not_or] at h
    cases cs with
    | nil => simp [List.isPrefixOf, Ne.symm h.1]
    | cons d cs => simp [List.isPrefixOf, ih h.2]

theorem mark?_line (cs rest : List Char) : mark? (cs ++ '\n' :: rest) = mark? cs := by
  have hagree : ∀ m ∈ marks, m.toList.isPrefixOf (cs ++ '\n' :: rest) = m.toList.isPrefixOf cs :=
    fun m hm => isPrefixOf_line (fun hline => (Token.marks_characters m hm '\n' hline).1 (by simp)) cs rest
  exact List.find?_congr hagree

end Lexeme

def Diagnostic.later (k : Nat) (d : Diagnostic) : Diagnostic := { d with line := k + d.line }

namespace Token

open Identifier (isStart)

def Piece.andThen (p : Piece) (more : List Char) : Piece := { p with rest := p.rest ++ more }

theorem markPiece_line {c : Char} {cs : List Char} (rest : List Char) :
    markPiece c (cs ++ '\n' :: rest) = (markPiece c cs).andThen ('\n' :: rest) := by
  have hmark := Lexeme.mark?_line (c :: cs) rest
  rw [List.cons_append] at hmark
  rw [markPiece, markPiece, hmark]
  cases hfound : Lexeme.mark? (c :: cs) with
  | none => rfl
  | some m =>
    have hlength : m.length - 1 ≤ cs.length := by
      have := (Lexeme.mark?_some hfound).2.length_le
      rw [String.length_toList, List.length_cons] at this
      omega
    simp [Piece.andThen, List.drop_append_of_le_length hlength]

theorem identifierPiece_line (verbatim : Bool) (c : Char) (cs rest : List Char) :
    identifierPiece verbatim c (cs ++ '\n' :: rest) =
      (identifierPiece verbatim c cs).andThen ('\n' :: rest) := by
  simp only [identifierPiece, Lexeme.name_line, Piece.andThen]

theorem numberPiece_line (c : Char) (cs rest : List Char) :
    numberPiece c (cs ++ '\n' :: rest) = (numberPiece c cs).andThen ('\n' :: rest) := by
  simp only [numberPiece, Lexeme.isHexadecimal_line, Lexeme.numberRest_line, Piece.andThen]

theorem characterPiece_append {cs : List Char} (h : (characterPiece cs).flaws = []) (rest : List Char) :
    characterPiece (cs ++ rest) = (characterPiece cs).andThen rest := by
  have hquoted := Lexeme.quoted_append (Lexeme.flaws_of_characterFlaws h) rest
  simp only [characterPiece, hquoted, Piece.andThen]
  rfl

theorem quotedPiece_append {cs : List Char} (h : (Lexeme.quoted '"' cs).flaws = []) (rest : List Char) :
    Piece.ofBody (Lexeme.quoted '"' (cs ++ rest)) = (Piece.ofBody (Lexeme.quoted '"' cs)).andThen rest := by
  rw [Lexeme.quoted_append h]
  rfl

theorem verbatimPiece_line {cs : List Char} (h : (Lexeme.verbatim cs).flaws = []) (rest : List Char) :
    Piece.ofBody (Lexeme.verbatim (cs ++ '\n' :: rest)) =
      (Piece.ofBody (Lexeme.verbatim cs)).andThen ('\n' :: rest) := by
  rw [Lexeme.verbatim_line h]
  rfl

def literalStarts : List Char := ['"', '\'', '@', '$']

theorem literalStarts_apart {c : Char} (h : c ∈ literalStarts) :
    isStart c = false ∧ c.isDigit = false ∧ c ≠ '.' := by
  have hall : literalStarts.all (fun d => !isStart d && !d.isDigit && d != '.') = true := by decide
  have hc := List.all_eq_true.mp hall c h
  simp only [Bool.and_eq_true, Bool.not_eq_true', bne_iff_ne] at hc
  exact ⟨hc.1.1, hc.1.2, hc.2⟩

theorem tokenPiece_plain {c : Char} (h : c ∉ literalStarts) (cs : List Char) :
    tokenPiece c cs =
      if isStart c then identifierPiece false c cs
      else if c.isDigit || (c == '.' && Lexeme.isDigitNext cs) then numberPiece c cs
      else markPiece c cs := by
  simp only [literalStarts, List.mem_cons, List.not_mem_nil, or_false, not_or] at h
  unfold tokenPiece
  split <;> simp_all

/-- No mark begins with them, so what begins with one of them is a literal or a flaw. -/
theorem markPiece_flawed {c : Char} (h : c ∈ literalStarts) (cs : List Char) :
    (markPiece c cs).flaws ≠ [] := by
  intro hflaws
  rw [markPiece] at hflaws
  cases hfound : Lexeme.mark? (c :: cs) with
  | none => simp [hfound] at hflaws
  | some m =>
    obtain ⟨hm, hprefix⟩ := Lexeme.mark?_some hfound
    have hne : ∀ k ∈ Lexeme.marks, k.toList ≠ [] := by decide
    obtain ⟨d, ds, hcons⟩ := List.exists_cons_of_ne_nil (hne m hm)
    rw [hcons, List.cons_prefix_cons] at hprefix
    have hplain := (marks_characters m hm c (by simp [hcons, hprefix.1])).1
    simp_all [literalStarts]

theorem plainPiece_line {c : Char} (h : c ∉ literalStarts) (cs rest : List Char) :
    tokenPiece c (cs ++ '\n' :: rest) = (tokenPiece c cs).andThen ('\n' :: rest) := by
  rw [tokenPiece_plain h, tokenPiece_plain h, Lexeme.isDigitNext_line, identifierPiece_line, numberPiece_line,
    markPiece_line]
  split
  · rfl
  · split <;> rfl

theorem tokenPiece_line {c : Char} {cs : List Char} (h : (tokenPiece c cs).flaws = []) (rest : List Char) :
    tokenPiece c (cs ++ '\n' :: rest) = (tokenPiece c cs).andThen ('\n' :: rest) := by
  by_cases hc : c ∈ literalStarts
  · revert h
    fun_cases tokenPiece c cs with
    | case1 => exact fun h => quotedPiece_append h _
    | case2 => exact fun h => characterPiece_append h _
    | case3 => exact fun h => verbatimPiece_line h _
    | case4 => exact fun h => verbatimPiece_line h _
    | case5 => exact fun h => quotedPiece_append h _
    | case6 => exact fun h => verbatimPiece_line h _
    | case7 d ds hquote hdollar hstart =>
      intro _
      have hd : d ≠ '$' := start_ne hstart (by decide)
      rw [← identifierPiece_line, List.cons_append]
      unfold tokenPiece
      split <;> simp_all
    | case8 => exact fun h => absurd h (markPiece_flawed hc _)
    | case9 c cs hstart => simp [(literalStarts_apart hc).1] at hstart
    | case10 c cs _ hnumber => simp [(literalStarts_apart hc).2] at hnumber
    | case11 c cs hstart hnumber =>
      rw [if_neg hstart, if_neg hnumber]
      exact fun h => absurd h (markPiece_flawed hc _)
  · exact plainPiece_line hc cs rest

/-- All that can be wrong with a comment is that it does not end. -/
theorem commentPiece_flaws_iff {cs : List Char} :
    (commentPiece cs).flaws = [] ↔ (Lexeme.afterComment cs).1 = true := by
  cases hclosed : (Lexeme.afterComment cs).1 <;> simp [commentPiece, hclosed]

theorem commentPiece_append {cs : List Char} (h : (commentPiece cs).flaws = []) (rest : List Char) :
    commentPiece (cs ++ rest) = (commentPiece cs).andThen rest := by
  have hclosed := commentPiece_flaws_iff.mp h
  simp only [commentPiece, Lexeme.afterComment_append hclosed, hclosed]
  rfl

/-- A line end behind a text does not change which character the text begins with. -/
theorem head?_line {d : Char} (hd : d ≠ '\n') (cs rest : List Char) :
    ((cs ++ '\n' :: rest).head? == some d) = (cs.head? == some d) := by
  cases cs with
  | nil => simpa using hd.symm
  | cons c cs => rfl

/-- A piece with nothing wrong in it does not go on over a line end behind the text. -/
theorem piece_line {fresh : Bool} {c : Char} {cs : List Char} (h : (piece fresh c cs).flaws = [])
    (rest : List Char) :
    piece fresh c (cs ++ '\n' :: rest) = (piece fresh c cs).andThen ('\n' :: rest) := by
  unfold piece at h ⊢
  rw [head?_line (by decide), head?_line (by decide), Lexeme.afterLine_line]
  split_ifs at h ⊢ with hblank hdirective hcomment hopen
  · rfl
  · rfl
  · rfl
  · obtain ⟨ds, rfl⟩ : ∃ ds, cs = '*' :: ds := List.head?_eq_some_iff.mp (by simp_all)
    exact commentPiece_append h _
  · exact tokenPiece_line h rest

theorem lineEnds_append (cs ds : List Char) : lineEnds (cs ++ ds) = lineEnds cs + lineEnds ds :=
  List.count_append

def Piece.tokens (p : Piece) (line : Nat) : List Token := p.kind.toList.map fun kind => ⟨kind, line⟩

theorem scan_cons (line : Nat) (fresh : Bool) (c : Char) (cs : List Char) :
    scan line fresh (c :: cs) =
      let p := piece fresh c cs
      let passed := lineEnds (c :: cs) - lineEnds p.rest
      let found := scan (line + passed) (p.kind.isNone && (fresh || 0 < passed)) p.rest
      (p.tokens line ++ found.1, p.flaws.map (Lexeme.Flaw.onLine line) ++ found.2) := by
  rw [scan]
  dsimp only [Piece.tokens]
  cases (piece fresh c cs).kind <;> rfl

/-- The last token is the end, on the last line, and no other token is an end. -/
theorem scan_inside (line : Nat) (fresh : Bool) (cs : List Char) :
    ∃ tokens, (scan line fresh cs).1 = tokens ++ [⟨.done, line + lineEnds cs⟩] ∧
      ∀ t ∈ tokens, t.kind.Readable := by
  induction line, fresh, cs using scan.induct with
  | case1 line fresh => exact ⟨[], by rw [scan_nil]; rfl, List.forall_mem_nil _⟩
  | case2 line fresh c cs hless p passed tokens diagnostics hfound ih =>
    obtain ⟨found, hscan, hreadable⟩ := ih
    have hends := lineEnds_piece_le fresh c cs
    have hline : line + passed + lineEnds p.rest = line + lineEnds (c :: cs) := by
      simp only [passed, p]
      omega
    refine ⟨p.tokens line ++ found, ?_, ?_⟩
    · rw [scan_cons, List.append_assoc, ← hline, ← hscan]
    · refine List.forall_mem_append.mpr ⟨fun t ht => ?_, hreadable⟩
      obtain ⟨kind, hkind, rfl⟩ := List.mem_map.mp ht
      exact piece_readable (Option.mem_toList.mp hkind)

theorem scan_getLast (line : Nat) (fresh : Bool) (cs : List Char) :
    (scan line fresh cs).1.getLast? = some ⟨.done, line + lineEnds cs⟩ := by
  obtain ⟨tokens, hscan, -⟩ := scan_inside line fresh cs
  rw [hscan, List.getLast?_concat]

/-- A step that finds nothing wrong is the same step where a line end stands behind the text. -/
theorem scan_cons_line {line : Nat} {fresh : Bool} {c : Char} {cs : List Char}
    (h : (piece fresh c cs).flaws = []) (rest : List Char) :
    scan line fresh (c :: (cs ++ '\n' :: rest)) =
      let p := piece fresh c cs
      let passed := lineEnds (c :: cs) - lineEnds p.rest
      before (p.tokens line)
        (scan (line + passed) (p.kind.isNone && (fresh || 0 < passed)) (p.rest ++ '\n' :: rest)) := by
  have hpassed : lineEnds (c :: (cs ++ '\n' :: rest)) -
      lineEnds ((piece fresh c cs).andThen ('\n' :: rest)).rest =
        lineEnds (c :: cs) - lineEnds (piece fresh c cs).rest := by
    rw [← List.cons_append, Piece.andThen, lineEnds_append, lineEnds_append, Nat.add_sub_add_right]
  rw [scan_cons]
  dsimp only
  rw [piece_line h, hpassed]
  simp only [Piece.andThen, h]
  rfl

/-- A text with nothing wrong in it is scanned as it is where a line end stands behind it. -/
theorem scan_line {line : Nat} {fresh : Bool} {cs : List Char} (h : (scan line fresh cs).2 = [])
    (rest : List Char) :
    scan line fresh (cs ++ '\n' :: rest) =
      before (scan line fresh cs).1.dropLast (scan (line + lineEnds cs + 1) true rest) := by
  induction line, fresh, cs using scan.induct with
  | case1 line fresh =>
    rw [List.nil_append, scan_newline, scan_nil]
    rfl
  | case2 line fresh c cs hless p passed tokens diagnostics hfound ih =>
    have hends := lineEnds_piece_le fresh c cs
    rw [scan_cons] at h
    obtain ⟨hflaws, hrest⟩ := List.append_eq_nil_iff.mp h
    have hline : line + passed + lineEnds p.rest = line + lineEnds (c :: cs) := by
      simp only [passed, p]
      omega
    have hne : (scan (line + passed) (p.kind.isNone && (fresh || 0 < passed)) p.rest).1 ≠ [] := by
      intro hnil
      have hlast := scan_getLast (line + passed) (p.kind.isNone && (fresh || 0 < passed)) p.rest
      simp [hnil] at hlast
    have hrest := ih hrest
    rw [hline] at hrest
    rw [List.cons_append, scan_cons_line (List.map_eq_nil_iff.mp hflaws), scan_cons]
    dsimp only
    rw [hrest, List.dropLast_append_of_ne_nil hne, before_before]

def later (k : Nat) (t : Token) : Token := { t with line := k + t.line }

/-- The line that a text begins on moves what is found in it and what is wrong with it, and nothing
else. -/
theorem scan_later (k line : Nat) (fresh : Bool) (cs : List Char) :
    scan (k + line) fresh cs =
      ((scan line fresh cs).1.map (later k), (scan line fresh cs).2.map (Diagnostic.later k)) := by
  induction line, fresh, cs using scan.induct with
  | case1 line fresh =>
    rw [scan_nil, scan_nil]
    rfl
  | case2 line fresh c cs hless p passed tokens diagnostics hfound ih =>
    have hkinds : p.tokens (k + line) = (p.tokens line).map (later k) := by
      rw [Piece.tokens, Piece.tokens, List.map_map]
      rfl
    have hflaws : p.flaws.map (Lexeme.Flaw.onLine (k + line)) =
        (p.flaws.map (Lexeme.Flaw.onLine line)).map (Diagnostic.later k) := by
      rw [List.map_map]
      rfl
    rw [scan_cons, scan_cons]
    dsimp only
    rw [Nat.add_assoc, ih, hkinds, hflaws, List.map_append, List.map_append]

def inside (text : String) : List Token := (ofSource text).1.dropLast

/-- A text with nothing wrong in it that stands on lines of its own is scanned as it is alone. -/
theorem scan_ownLines {text : String} (h : (ofSource text).2 = []) (k : Nat) (rest : List Char) :
    scan (k + 1) true (text.toList ++ '\n' :: rest) =
      before ((inside text).map (later k)) (scan (k + 1 + lineEnds text.toList + 1) true rest) := by
  have hlater : scan (k + 1) true text.toList = ((ofSource text).1.map (later k), []) := by
    rw [scan_later, ← ofSource, h]
    rfl
  rw [scan_line (by rw [hlater]), hlater, inside, List.map_dropLast]

end Token
end DataClasses
