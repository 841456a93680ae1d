import DataClasses.Proofs.Token.OwnLines

/-!
# Tokens spelled with spaces between them

What a token is called in reports is also how it is written, unless it is a literal. A space ends
every name, number and mark, and none of them can be taken apart, so the tokens of a source that are
written with single spaces between them are read as the same tokens.
-/

set_option autoImplicit false

namespace DataClasses

def TokenKind.isLiteral : TokenKind → Bool
  | .text _ => true
  | .character => true
  | _ => false

def Token.Spaced (rest : List Char) : Prop := ∀ c ∈ rest.head?, c = ' '

namespace Token.Spaced

variable {rest : List Char}

theorem cases (h : Spaced rest) : rest = [] ∨ ∃ more, rest = ' ' :: more := by
  cases rest with
  | nil => exact .inl rfl
  | cons c more => exact .inr ⟨more, by rw [h c rfl]⟩

theorem endsName (h : Spaced rest) : EndsName rest := by
  rintro c hc
  rw [h c hc]
  decide

theorem alone (h : Spaced rest) {m : String} : Alone m rest := by
  refine ⟨fun more hmore hprefix => ?_, ?_, ?_⟩
  · -- A longer mark would have a space inside of it.
    obtain ⟨k, hk, hending⟩ := List.mem_filterMap.mp hmore
    rcases h.cases with rfl | ⟨rest, rfl⟩
    · exact List.prefix_nil.mp hprefix
    · cases more with
      | nil => rfl
      | cons c more =>
        obtain ⟨rfl, -⟩ := List.cons_prefix_cons.mp hprefix
        have hmem : ' ' ∈ k.toList := by
          split at hending
          · rw [Option.some.injEq] at hending
            exact List.mem_of_mem_drop (hending ▸ List.mem_cons_self)
          · cases hending
        have hblank := (marks_characters k hk ' ' hmem).2.1
        exact absurd hblank (by decide)
  · rintro - c hc
    rw [h c hc]
    decide
  · rintro -
    rcases h.cases with rfl | ⟨rest, rfl⟩ <;> rfl

theorem isDigitNext (h : Spaced rest) (cs : List Char) :
    Lexeme.isDigitNext (cs ++ rest) = Lexeme.isDigitNext cs := by
  cases cs with
  | nil => rcases h.cases with rfl | ⟨rest, rfl⟩ <;> rfl
  | cons c cs => rfl

theorem isHexadecimal (h : Spaced rest) (c : Char) (cs : List Char) :
    Lexeme.isHexadecimal c (cs ++ rest) = Lexeme.isHexadecimal c cs := by
  cases cs with
  | nil => rcases h.cases with rfl | ⟨rest, rfl⟩ <;> simp [Lexeme.isHexadecimal]
  | cons d cs => rfl

theorem numberRest (h : Spaced rest) {hex : Bool} {before : Char} {cs : List Char}
    (hread : Lexeme.numberRest hex before cs = (cs, [])) :
    Lexeme.numberRest hex before (cs ++ rest) = (cs, rest) := by
  induction cs generalizing before with
  | nil => rcases h.cases with rfl | ⟨rest, rfl⟩ <;> simp [Lexeme.numberRest]
  | cons c cs ih =>
    rw [Lexeme.numberRest] at hread
    split at hread
    · next hc =>
      simp only [Prod.mk.injEq, List.cons.injEq, true_and] at hread
      rw [List.cons_append, Lexeme.numberRest, h.isDigitNext, if_pos hc, ih (Prod.ext hread.1 hread.2)]
    · simp at hread

end Token.Spaced

namespace Token

open Identifier (isStart)

theorem newline_not_mem_number (hex : Bool) (before : Char) (cs : List Char) :
    '\n' ∉ (Lexeme.numberRest hex before cs).1 := by
  induction cs generalizing before with
  | nil => exact List.not_mem_nil
  | cons c cs ih =>
    rw [Lexeme.numberRest]
    split
    · next hc =>
      have hne : c ≠ '\n' := by
        rintro rfl
        simp at hc
      exact List.not_mem_cons_of_ne_of_not_mem hne.symm (ih c)
    · exact List.not_mem_nil

/-- What a number begins with is neither blank nor the beginning of anything else. -/
theorem numberStart_apart {c : Char} (h : c.isDigit = true ∨ c = '.') :
    c ∉ literalStarts ∧ isStart c = false ∧ Text.isBlank c = false ∧ c ∉ ['#', '/', '\n'] := by
  rcases h with hdigit | rfl
  · have hne {d : Char} (hd : d.isDigit = false) : c ≠ d := by
      rintro rfl
      simp [hdigit] at hd
    refine ⟨fun hmem => ?_, Identifier.digit_not_start hdigit,
      Identifier.part_not_blank (Identifier.digit_part hdigit), ?_⟩
    · simp [(literalStarts_apart hmem).2.1] at hdigit
    · simp only [List.mem_cons, List.not_mem_nil, or_false, not_or]
      exact ⟨hne (by decide), hne (by decide), hne (by decide)⟩
  · decide

theorem scan_number (line : Nat) (fresh : Bool) {digits : String} (h : Lexeme.IsNumber digits.toList)
    {rest : List Char} (hr : Spaced rest) :
    scan line fresh (digits.toList ++ rest) = before [⟨.number digits, line⟩] (scan line false rest) := by
  cases hdigits : digits.toList with
  | nil =>
    rw [hdigits] at h
    cases h
  | cons c cs =>
    rw [hdigits] at h
    obtain ⟨hstart, hread⟩ := h
    have hfirst : c.isDigit = true ∨ c = '.' := by
      simp only [Bool.or_eq_true, Bool.and_eq_true, beq_iff_eq] at hstart
      exact hstart.imp_right And.left
    obtain ⟨hliteral, hname, hblank, hplain⟩ := numberStart_apart hfirst
    simp only [List.mem_cons, List.not_mem_nil, or_false, not_or] at hplain
    have hnumber : numberPiece c (cs ++ rest) = ⟨some (.number digits), [], rest⟩ := by
      rw [numberPiece, hr.isHexadecimal, hr.numberRest hread]
      dsimp only
      rw [← hdigits, String.ofList_toList]
    have hpiece : piece fresh c (cs ++ rest) = ⟨some (.number digits), [], rest⟩ := by
      rw [← hnumber, piece, if_neg (by simp [hblank]), if_neg (by simp [hplain]), if_neg (by simp [hplain]),
        if_neg (by simp [hplain]), tokenPiece_plain hliteral, if_neg (by simp [hname]), hr.isDigitNext,
        if_pos hstart]
    have hline : '\n' ∉ c :: cs := by
      have hrest := newline_not_mem_number (Lexeme.isHexadecimal c cs) c cs
      rw [hread] at hrest
      exact List.not_mem_cons_of_ne_of_not_mem (Ne.symm hplain.2.2) hrest
    exact scan_token hpiece (lineEnds_append_of_not_mem hline rest)

theorem scan_spelling (line : Nat) (fresh : Bool) {t : Token} (h : t.kind.Readable)
    (hkind : t.kind.isLiteral = false) {rest : List Char} (hr : Spaced rest) :
    scan line fresh (t.spelling.toList ++ rest) = before [⟨t.kind, line⟩] (scan line false rest) := by
  obtain ⟨kind, own⟩ := t
  cases kind with
  | identifier name verbatim =>
    cases verbatim with
    | false => exact scan_word line fresh h hr.endsName
    | true =>
      rw [show spelling ⟨.identifier name true, own⟩ = "@" ++ name from rfl, String.toList_append]
      exact scan_verbatim line fresh h hr.endsName
  | text value => cases hkind
  | character => cases hkind
  | number digits => exact scan_number line fresh h hr
  | mark m => exact scan_of_alone line fresh h hr.alone
  | done => cases h

def respelling (tokens : List Token) : String := " ".intercalate (tokens.map spelling)

theorem scan_respelling (line : Nat) (fresh : Bool) {tokens : List Token}
    (h : ∀ t ∈ tokens, t.kind.Readable ∧ t.kind.isLiteral = false) :
    scan line fresh (respelling tokens).toList =
      (tokens.map (fun t => ⟨t.kind, line⟩) ++ [⟨.done, line⟩], []) := by
  rw [respelling, String.toList_intercalate, List.map_map]
  induction tokens generalizing fresh with
  | nil => exact scan_nil line fresh
  | cons t tokens ih =>
    obtain ⟨⟨hread, hkind⟩, hrest⟩ := List.forall_mem_cons.mp h
    cases tokens with
    | nil =>
      rw [List.map_singleton, List.intercalate_singleton, Function.comp_apply]
      have hend : Spaced [] := by simp [Spaced]
      have hscan := scan_spelling line fresh hread hkind hend
      rw [List.append_nil, scan_nil] at hscan
      exact hscan
    | cons u tokens =>
      have hscan := ih false hrest
      rw [List.map_cons] at hscan
      rw [List.map_cons, List.map_cons, List.intercalate_cons_cons, List.append_assoc, Function.comp_apply,
        scan_spelling line fresh hread hkind (by simp [Spaced])]
      have hspace (rest : List Char) : scan line false (" ".toList ++ rest) = scan line false rest :=
        scan_space line false rest
      rw [hspace, hscan]
      rfl

/-- The tokens of a source without literals, its end apart, are read again from their spellings with
single spaces between them, and nothing is wrong with these. -/
theorem ofSource_respelled {source : String} (h : ∀ t ∈ (ofSource source).1, t.kind.isLiteral = false) :
    (ofSource (respelling (inside source))).1.map kind = (ofSource source).1.map kind ∧
      (ofSource (respelling (inside source))).2 = [] := by
  obtain ⟨tokens, hscan, hreadable⟩ := scan_inside 1 true source.toList
  have hinside : inside source = tokens := by rw [inside, ofSource, hscan, List.dropLast_concat]
  have hrow : ∀ t ∈ tokens, t.kind.Readable ∧ t.kind.isLiteral = false := fun t ht =>
    ⟨hreadable t ht, h t (by simp [ofSource, hscan, ht])⟩
  rw [hinside, ofSource, scan_respelling 1 true hrow, ofSource, hscan]
  simp

/-- Numbers, points and marks that would run together where no space stands between them. -/
theorem ofSource_respelled_numbers :
    (∀ t ∈ (ofSource "a.B=1..5+0x1e+@if/ /1.5e-3m??.x").1, t.kind.isLiteral = false) ∧
      respelling (inside "a.B=1..5+0x1e+@if/ /1.5e-3m??.x") =
        "a . B = 1 . .5 + 0x1e + @if / / 1.5e-3m ?? . x" ∧
      (ofSource "a . B = 1 . .5 + 0x1e + @if / / 1.5e-3m ?? . x").1.map kind =
        (ofSource "a.B=1..5+0x1e+@if/ /1.5e-3m??.x").1.map kind ∧
      (ofSource "a . B = 1 . .5 + 0x1e + @if / / 1.5e-3m ?? . x").2 = [] := by
  have hplain : ∀ t ∈ (ofSource "a.B=1..5+0x1e+@if/ /1.5e-3m??.x").1, t.kind.isLiteral = false := by
    decide +kernel
  have hspelled : respelling (inside "a.B=1..5+0x1e+@if/ /1.5e-3m??.x") =
      "a . B = 1 . .5 + 0x1e + @if / / 1.5e-3m ?? . x" := by
    decide +kernel
  have hread := ofSource_respelled hplain
  rw [hspelled] at hread
  exact ⟨hplain, hspelled, hread⟩

end Token
end DataClasses
