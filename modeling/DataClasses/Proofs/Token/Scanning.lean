import DataClasses.Proofs.Identifier.Naming
import DataClasses.Text.Basic
import DataClasses.Token.Scan
import Mathlib.Data.List.TakeWhile
import Mathlib.Tactic.Ring

/-!
# Scanning one piece

What one step of the scanner does at a blank, a line end, a comment, an identifier, a mark
or a quoted text. Each lemma gives the tokens that are put before those of the text behind.
-/

set_option autoImplicit false

namespace DataClasses.Token

open Identifier (isPart isStart isIdentifier IsName)

def before (ts : List Token) (found : List Token × List Diagnostic) :
    List Token × List Diagnostic := (ts ++ found.1, found.2)

@[simp] theorem before_nil (found : List Token × List Diagnostic) : before [] found = found := rfl

@[simp] theorem before_before (ts us : List Token) (found : List Token × List Diagnostic) :
    before ts (before us found) = before (ts ++ us) found := by
  simp [before]

theorem scan_nil (line : Nat) (fresh : Bool) : scan line fresh [] = ([⟨.done, line⟩], []) := by
  rw [scan]

theorem scan_skip {line : Nat} {fresh : Bool} {c : Char} {cs rest : List Char}
    (h : piece fresh c cs = .skip rest) (hl : lineEnds (c :: cs) = lineEnds rest) :
    scan line fresh (c :: cs) = scan line fresh rest := by
  rw [scan]
  simp [h, Piece.skip, hl]

theorem scan_skip_line {line : Nat} {fresh : Bool} {c : Char} {cs rest : List Char}
    (h : piece fresh c cs = .skip rest) (hl : lineEnds (c :: cs) = lineEnds rest + 1) :
    scan line fresh (c :: cs) = scan (line + 1) true rest := by
  rw [scan]
  simp [h, Piece.skip, hl]

/-- A token with line ends inside of it moves what stands behind it down by as many lines. -/
theorem scan_token_over {line k : Nat} {fresh : Bool} {c : Char} {cs rest : List Char} {kind : TokenKind}
    (h : piece fresh c cs = ⟨some kind, [], rest⟩) (hl : lineEnds (c :: cs) = k + lineEnds rest) :
    scan line fresh (c :: cs) = before [⟨kind, line⟩] (scan (line + k) false rest) := by
  rw [scan]
  simp [h, hl, before]

theorem scan_token {line : Nat} {fresh : Bool} {c : Char} {cs rest : List Char} {kind : TokenKind}
    (h : piece fresh c cs = ⟨some kind, [], rest⟩) (hl : lineEnds (c :: cs) = lineEnds rest) :
    scan line fresh (c :: cs) = before [⟨kind, line⟩] (scan line false rest) :=
  scan_token_over h (hl.trans (Nat.zero_add _).symm)

theorem lineEnds_cons_of_ne {c : Char} (h : c ≠ '\n') (cs : List Char) :
    lineEnds (c :: cs) = lineEnds cs := by
  simp [lineEnds, h]

theorem lineEnds_append_of_not_mem {cs : List Char} (h : '\n' ∉ cs) (rest : List Char) :
    lineEnds (cs ++ rest) = lineEnds rest := by
  simp [lineEnds, List.count_eq_zero.mpr h]

theorem scan_space (line : Nat) (fresh : Bool) (rest : List Char) :
    scan line fresh (' ' :: rest) = scan line fresh rest :=
  scan_skip (by rw [piece, if_pos (by decide)]) (lineEnds_cons_of_ne (by decide) rest)

theorem scan_newline (line : Nat) (fresh : Bool) (rest : List Char) :
    scan line fresh ('\n' :: rest) = scan (line + 1) true rest :=
  scan_skip_line (by rw [piece, if_pos (by decide)]) (by simp [lineEnds])

theorem afterLine_append {text : List Char} (h : '\n' ∉ text) (rest : List Char) :
    Lexeme.afterLine (text ++ '\n' :: rest) = '\n' :: rest := by
  induction text with
  | nil => simp [Lexeme.afterLine]
  | cons c text ih =>
    simp only [List.mem_cons, not_or] at h
    simpa [Lexeme.afterLine, Ne.symm h.1] using ih h.2

theorem scan_comment (line : Nat) (fresh : Bool) {text : List Char} (h : '\n' ∉ text)
    (rest : List Char) :
    scan line fresh ('/' :: '/' :: text ++ '\n' :: rest) = scan (line + 1) true rest := by
  have hslash : '\n' ∉ '/' :: text := by simp [h]
  have hslashes : '\n' ∉ '/' :: '/' :: text := by simp [h]
  have hline : Lexeme.afterLine ('/' :: (text ++ '\n' :: rest)) = '\n' :: rest :=
    afterLine_append hslash rest
  have hpiece : piece fresh '/' ('/' :: (text ++ '\n' :: rest)) = .skip ('\n' :: rest) := by
    rw [piece, if_neg (by decide), if_neg (by simp), if_pos (by simp), hline]
  have hends : lineEnds ('/' :: '/' :: (text ++ '\n' :: rest)) = lineEnds ('\n' :: rest) :=
    lineEnds_append_of_not_mem hslashes _
  rw [List.cons_append, List.cons_append, scan_skip hpiece hends, scan_newline]

def EndsName (rest : List Char) : Prop := ∀ c ∈ rest.head?, isPart c = false

theorem endsName_nil : EndsName [] := by simp [EndsName]

theorem endsName_cons {c : Char} (h : isPart c = false) (cs : List Char) : EndsName (c :: cs) := by
  simpa [EndsName] using h

theorem name_append {cs : List Char} (h : ∀ c ∈ cs, isPart c = true) {rest : List Char}
    (hr : EndsName rest) : Lexeme.name (cs ++ rest) = (cs, rest) := by
  induction cs with
  | nil =>
    cases rest with
    | nil => rfl
    | cons c rest => simp [Lexeme.name, hr c (by simp)]
  | cons c cs ih =>
    have hc := h c (by simp)
    have ih := ih fun d hd => h d (by simp [hd])
    simp only [Lexeme.name, Prod.mk.injEq] at ih
    simp [Lexeme.name, hc, ih.1, ih.2]

theorem newline_not_mem {cs : List Char} (h : ∀ c ∈ cs, isPart c = true) : '\n' ∉ cs := by
  intro hmem
  have : isPart '\n' = false := by decide
  simp [h _ hmem] at this

theorem start_ne {c d : Char} (h : isStart c = true) (hd : isStart d = false) : c ≠ d := by
  rintro rfl
  simp [h] at hd

theorem tokenPiece_of_start {c : Char} (h : isStart c = true) (cs : List Char) :
    tokenPiece c cs = identifierPiece false c cs := by
  have h1 : c ≠ '"' := start_ne h (by decide)
  have h2 : c ≠ '\'' := start_ne h (by decide)
  have h3 : c ≠ '@' := start_ne h (by decide)
  have h4 : c ≠ '$' := start_ne h (by decide)
  unfold tokenPiece
  split <;> simp_all

theorem piece_of_start (fresh : Bool) {c : Char} (h : isStart c = true) (cs : List Char) :
    piece fresh c cs = identifierPiece false c cs := by
  have hb := Identifier.part_not_blank (Identifier.isPart_of_isStart h)
  have h1 : c ≠ '#' := start_ne h (by decide)
  have h2 : c ≠ '/' := start_ne h (by decide)
  simp [piece, hb, h1, h2, tokenPiece_of_start h]

theorem identifierPiece_name (verbatim : Bool) {name : String} {c : Char} {cs rest : List Char}
    (hname : name.toList = c :: cs) (hcs : ∀ d ∈ cs, isPart d = true) (hr : EndsName rest) :
    identifierPiece verbatim c (cs ++ rest) = ⟨some (.identifier name verbatim), [], rest⟩ := by
  simp only [identifierPiece, name_append hcs hr]
  rw [← hname, String.ofList_toList]

theorem scan_word (line : Nat) (fresh : Bool) {name : String} (h : IsName name) {rest : List Char}
    (hr : EndsName rest) :
    scan line fresh (name.toList ++ rest) =
      before [⟨.identifier name false, line⟩] (scan line false rest) := by
  obtain ⟨c, cs, hname, hc, hcs⟩ := Identifier.isIdentifier_iff.mp h
  have hpiece : piece fresh c (cs ++ rest) = ⟨some (.identifier name false), [], rest⟩ := by
    rw [piece_of_start fresh hc, identifierPiece_name false hname hcs hr]
  have hline : '\n' ∉ c :: cs := hname ▸ newline_not_mem (Identifier.isPart_of_mem h)
  rw [hname, List.cons_append]
  exact scan_token hpiece (lineEnds_append_of_not_mem hline rest)

theorem scan_verbatim (line : Nat) (fresh : Bool) {name : String} (h : IsName name)
    {rest : List Char} (hr : EndsName rest) :
    scan line fresh ('@' :: name.toList ++ rest) =
      before [⟨.identifier name true, line⟩] (scan line false rest) := by
  obtain ⟨c, cs, hname, hc, hcs⟩ := Identifier.isIdentifier_iff.mp h
  have h1 : c ≠ '"' := start_ne hc (by decide)
  have h2 : c ≠ '$' := start_ne hc (by decide)
  have hpiece : piece fresh '@' (c :: (cs ++ rest)) = ⟨some (.identifier name true), [], rest⟩ := by
    have htoken : tokenPiece '@' (c :: (cs ++ rest)) = identifierPiece true c (cs ++ rest) := by
      unfold tokenPiece
      split <;> simp_all
    have hpiece : piece fresh '@' (c :: (cs ++ rest)) = tokenPiece '@' (c :: (cs ++ rest)) := by
      have hblank : Text.isBlank '@' = false := by decide
      simp [piece, hblank]
    rw [hpiece, htoken, identifierPiece_name true hname hcs hr]
  have hline : '\n' ∉ '@' :: c :: cs := by
    rw [← hname, List.mem_cons, not_or]
    exact ⟨by decide, newline_not_mem (Identifier.isPart_of_mem h)⟩
  rw [hname, List.cons_append, List.cons_append]
  exact scan_token hpiece (lineEnds_append_of_not_mem hline rest)

def plainMarks : List Char := ['\x7b', '\x7d', '(', ')', '[', ']', ';']

theorem piece_plainMark (fresh : Bool) {m : Char} (h : m ∈ plainMarks) (rest : List Char) :
    piece fresh m rest = ⟨some (.mark (String.singleton m)), [], rest⟩ := by
  simp only [plainMarks, List.mem_cons, List.not_mem_nil, or_false] at h
  rcases h with rfl | rfl | rfl | rfl | rfl | rfl | rfl <;> rfl

theorem scan_mark (line : Nat) (fresh : Bool) {m : Char} (h : m ∈ plainMarks) (rest : List Char) :
    scan line fresh (m :: rest) =
      before [⟨.mark (String.singleton m), line⟩] (scan line false rest) := by
  have hm : m ≠ '\n' := by rintro rfl; exact absurd h (by decide)
  exact scan_token (piece_plainMark fresh h rest) (lineEnds_cons_of_ne hm rest)

/-- A point before an identifier is neither the beginning of a number nor of an ellipsis. -/
theorem scan_dot (line : Nat) (fresh : Bool) {name : String} (h : IsName name) (rest : List Char) :
    scan line fresh ('.' :: (name.toList ++ rest)) =
      before [⟨.mark ".", line⟩] (scan line false (name.toList ++ rest)) := by
  obtain ⟨c, cs, hname, hc, -⟩ := Identifier.isIdentifier_iff.mp h
  have h1 : c ≠ '.' := start_ne hc (by decide)
  have h2 : c.isDigit = false := by
    cases hdigit : c.isDigit with
    | false => rfl
    | true => simp [Identifier.digit_not_start hdigit] at hc
  have hmark : Lexeme.mark? ('.' :: c :: (cs ++ rest)) = some "." := by
    have hdot : ('.' == c) = false := by simpa using Ne.symm h1
    simp [Lexeme.mark?, Lexeme.marks, List.find?, List.isPrefixOf, hdot]
  have hpiece : piece fresh '.' (c :: (cs ++ rest)) = ⟨some (.mark "."), [], c :: (cs ++ rest)⟩ := by
    have hblank : Text.isBlank '.' = false := by decide
    have hstart : isStart '.' = false := by decide
    have hdigit : '.'.isDigit = false := by decide
    have hlength : ".".length - 1 = 0 := by decide
    simp [piece, hblank, tokenPiece, hstart, hdigit, Lexeme.isDigitNext, h2, markPiece, hmark,
      hlength]
  rw [hname, List.cons_append]
  exact scan_token hpiece (lineEnds_cons_of_ne (by decide) _)

theorem foldlM_hexDigits (width n m : Nat) (h : n < 16 ^ width) :
    (Text.hexDigits width n).foldlM
      (fun k c => (Text.hexValue? c).map (16 * k + ·)) m = some (16 ^ width * m + n) := by
  induction width generalizing n m with
  | zero => simp [Text.hexDigits]; omega
  | succ width ih =>
    have hlow : n % 16 < 16 := Nat.mod_lt _ (by decide)
    have hhigh : n / 16 < 16 ^ width := by
      rw [pow_succ] at h
      exact Nat.div_lt_of_lt_mul (by omega)
    simp only [Text.hexDigits, List.foldlM_append, ih _ _ hhigh, List.foldlM_cons,
      List.foldlM_nil, Text.hexValue?_hexDigit hlow, Option.bind_eq_bind, Option.bind_some,
      Option.map_some, Option.pure_def, Option.some.injEq]
    have := Nat.div_add_mod n 16
    rw [pow_succ]
    ring_nf
    omega

theorem hexNumber?_hexDigits {width n : Nat} (h : n < 16 ^ width) :
    Text.hexNumber? (Text.hexDigits width n) = some n := by
  have hvalue := foldlM_hexDigits width n 0 h
  rwa [Nat.mul_zero, Nat.zero_add] at hvalue

theorem hexDigits_isHexDigit (width n : Nat) :
    ∀ c ∈ Text.hexDigits width n, Text.isHexDigit c = true := by
  induction width generalizing n with
  | zero => simp [Text.hexDigits]
  | succ width ih =>
    intro c hc
    rcases List.mem_append.mp hc with hc | hc
    · exact ih _ c hc
    · obtain rfl := List.mem_singleton.mp hc
      simp [Text.isHexDigit, Text.hexValue?_hexDigit (Nat.mod_lt n (by decide : 0 < 16))]

theorem isHexDigit_of_foldlM {digits : List Char} {m n : Nat}
    (h : digits.foldlM (fun k c => (Text.hexValue? c).map (16 * k + ·)) m = some n) :
    ∀ c ∈ digits, Text.isHexDigit c = true := by
  induction digits generalizing m with
  | nil => exact List.forall_mem_nil _
  | cons d digits ih =>
    rw [List.foldlM_cons] at h
    obtain ⟨k, hk, hrest⟩ := Option.bind_eq_some_iff.mp h
    obtain ⟨value, hvalue, -⟩ := Option.map_eq_some_iff.mp hk
    exact List.forall_mem_cons.mpr ⟨by simp [Text.isHexDigit, hvalue], ih hrest⟩

/-- Four hexadecimal digits are read as the character that has their number, if there is one. -/
theorem hexEscape_four {digits : List Char} {n : Nat} (hlength : digits.length = 4)
    (h : Text.hexNumber? digits = some n) (rest : List Char) :
    Lexeme.hexEscape 4 4 (digits ++ rest) = (if n.isValidChar then some (Char.ofNat n) else none, rest) := by
  have htake : (digits ++ rest).take 4 = digits := List.take_left' hlength
  have hdigits : digits.takeWhile Text.isHexDigit = digits :=
    List.takeWhile_eq_self_iff.mpr (isHexDigit_of_foldlM h)
  have hdrop : (digits ++ rest).drop 4 = rest := List.drop_left' hlength
  simp only [Lexeme.hexEscape, htake, hdigits, hlength, hdrop, h, Nat.lt_irrefl, if_false]

theorem hexEscape_hexDigits (c : Char) (h : c.toNat < 16 ^ 4) (rest : List Char) :
    Lexeme.hexEscape 4 4 (Text.hexDigits 4 c.toNat ++ rest) = (some c, rest) := by
  have hvalid : c.toNat.isValidChar := c.valid
  rw [hexEscape_four (Text.length_hexDigits 4 c.toNat) (hexNumber?_hexDigits h), if_pos hvalid,
    Char.ofNat_toNat]

theorem quoted_escape {d e : Char} {ds rest : List Char}
    (h : Lexeme.escape d ds = (some e, rest)) :
    Lexeme.quoted '"' ('\\' :: d :: ds) = (Lexeme.quoted '"' rest).push e := by
  rw [Lexeme.quoted.eq_def]
  simp [h]

theorem quoted_plain {c : Char} (h1 : c ≠ '\n') (h2 : c ≠ '\r') (h3 : c ≠ '"') (h4 : c ≠ '\\')
    (rest : List Char) : Lexeme.quoted '"' (c :: rest) = (Lexeme.quoted '"' rest).push c := by
  rw [Lexeme.quoted.eq_def]
  simp [h1, h2, h3, h4]

theorem numbered_char_small {c : Char}
    (h : (Text.isControl c || c == '\u2028' || c == '\u2029') = true) : c.toNat < 16 ^ 4 := by
  simp only [Text.isControl, Bool.or_eq_true, Bool.and_eq_true, decide_eq_true_eq,
    beq_iff_eq] at h
  rcases h with (h | rfl) | rfl
  · omega
  · decide
  · decide

/-- A character as it is quoted reads as itself. -/
theorem quoted_quoteChar (c : Char) (rest : List Char) :
    Lexeme.quoted '"' (Text.quoteChar c ++ rest) = (Lexeme.quoted '"' rest).push c := by
  unfold Text.quoteChar
  split
  · exact quoted_escape rfl
  · exact quoted_escape rfl
  · exact quoted_escape rfl
  · exact quoted_escape rfl
  · exact quoted_escape rfl
  · exact quoted_escape rfl
  · next h1 h2 h3 h4 h5 h6 =>
    split
    · next h =>
      exact quoted_escape (hexEscape_hexDigits c (numbered_char_small h) rest)
    · exact quoted_plain h3 h4 h1 h2 rest

theorem quoted_quote (cs rest : List Char) :
    Lexeme.quoted '"' (cs.flatMap Text.quoteChar ++ '"' :: rest) = ⟨cs, [], true, rest⟩ := by
  induction cs with
  | nil =>
    rw [List.flatMap_nil, List.nil_append, Lexeme.quoted.eq_def]
    simp
  | cons c cs ih =>
    rw [List.flatMap_cons, List.append_assoc, quoted_quoteChar, ih]
    rfl

theorem hexDigits_no_newline (width n : Nat) : '\n' ∉ Text.hexDigits width n := by
  intro h
  have : Text.isHexDigit '\n' = false := by decide
  simp [hexDigits_isHexDigit width n _ h] at this

theorem quoteChar_no_newline (c : Char) : '\n' ∉ Text.quoteChar c := by
  unfold Text.quoteChar
  split
  · decide
  · decide
  · decide
  · decide
  · decide
  · decide
  · next h1 h2 h3 h4 h5 h6 =>
    split
    · simp [hexDigits_no_newline]
    · simpa using Ne.symm h3

theorem quote_toList (text : String) :
    (Text.quote text).toList = '"' :: (text.toList.flatMap Text.quoteChar ++ ['"']) := by
  rw [Text.quote, String.toList_ofList, List.cons_append]

theorem quote_no_newline (text : String) : '\n' ∉ (Text.quote text).toList := by
  rw [quote_toList]
  simp only [List.mem_cons, List.mem_append, List.mem_flatMap, List.not_mem_nil, or_false]
  rintro (h | ⟨c, -, hc⟩ | h)
  · exact absurd h (by decide)
  · exact quoteChar_no_newline c hc
  · exact absurd h (by decide)

theorem piece_quote (fresh : Bool) (cs : List Char) :
    piece fresh '"' cs = .ofBody (Lexeme.quoted '"' cs) := by
  have hblank : Text.isBlank '"' = false := by decide
  simp [piece, hblank, tokenPiece]

theorem scan_quote (line : Nat) (fresh : Bool) (text : String) (rest : List Char) :
    scan line fresh ((Text.quote text).toList ++ rest) =
      before [⟨.text text, line⟩] (scan line false rest) := by
  have hends := lineEnds_append_of_not_mem (quote_no_newline text) rest
  rw [quote_toList] at hends ⊢
  rw [List.cons_append] at hends ⊢
  refine scan_token ?_ hends
  rw [piece_quote, List.append_assoc, List.singleton_append, quoted_quote, Piece.ofBody,
    String.ofList_toList]

end DataClasses.Token
