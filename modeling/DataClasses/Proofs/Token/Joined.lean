import DataClasses.Proofs.Token.OwnLines

/-!
# Texts one behind the other

A text of whole lines with nothing wrong in it is read by itself, and what stands behind it is read
as it is alone, as many lines further down. A line end behind a text mends nothing in it, so the
text without its last line end has nothing wrong in it either. Every text is read to its end.
-/

set_option autoImplicit false

namespace DataClasses

namespace Lexeme

theorem afterComment_of_line {cs : List Char} (h : (afterComment (cs ++ ['\n'])).1 = true) :
    (afterComment cs).1 = true := by
  fun_induction afterComment cs with
  | case1 => simp [afterComment] at h
  | case2 => rfl
  | case3 c cs hend ih =>
    refine ih ?_
    rw [List.cons_append, afterComment] at h
    · exact h
    · rintro ds rfl hds
      cases cs with
      | nil => simp at hds
      | cons d cs => exact hend cs rfl (by simp_all)

theorem flaws_of_quoted_line {quote : Char} {cs rest : List Char}
    (h : (quoted quote (cs ++ '\n' :: rest)).flaws = []) : (quoted quote cs).flaws = [] := by
  revert h
  fun_induction quoted quote cs with
  | case1 =>
    rw [List.nil_append, quoted.eq_def]
    simp
  | case2 c cs hline =>
    rw [List.cons_append, quoted.eq_def]
    simp [hline]
  | case3 => exact fun _ => rfl
  | case4 c hline hquote hslash =>
    rw [List.singleton_append, quoted.eq_def]
    simp [hline, hquote, hslash, escape, simpleEscape?, Body.flawed]
  | case5 c hline hquote hslash d ds hle tail e hescape ih =>
    rw [List.cons_append, List.cons_append, quoted.eq_def]
    simpa [hline, hquote, hslash, escape_line, hescape, Body.push] using ih
  | case6 c hline hquote hslash d ds hle tail hescape ih =>
    rw [List.cons_append, List.cons_append, quoted.eq_def]
    simp [hline, hquote, hslash, escape_line, hescape, Body.flawed]
  | case7 c cs hline hquote hslash ih =>
    rw [List.cons_append, quoted.eq_def]
    simpa [hline, hquote, hslash, Body.push] using ih

theorem flaws_of_verbatim_line {cs : List Char} (h : (verbatim (cs ++ ['\n'])).flaws = []) :
    (verbatim cs).flaws = [] := by
  fun_induction verbatim cs with
  | case1 => simp [verbatim, Body.push] at h
  | case2 cs ih => exact ih h
  | case3 => rfl
  | case4 c cs hquotes hquote ih =>
    refine ih ?_
    rw [List.cons_append, verbatim] at h
    · exact h
    · exact fun _ hc _ => hquote hc
    · exact hquote

end Lexeme

namespace Token

theorem characterPiece_flaws_of_line {cs rest : List Char}
    (h : (characterPiece (cs ++ '\n' :: rest)).flaws = []) : (characterPiece cs).flaws = [] := by
  have hquoted := Lexeme.flaws_of_quoted_line (Lexeme.flaws_of_characterFlaws h)
  simp only [characterPiece, Lexeme.quoted_append hquoted] at h
  exact h

theorem cons_of_line {cs es : List Char} {d : Char} (h : cs ++ ['\n'] = d :: es) (hd : d ≠ '\n') :
    ∃ fs, cs = d :: fs ∧ es = fs ++ ['\n'] := by
  cases cs with
  | nil => exact absurd (List.cons.inj h).1.symm hd
  | cons c fs =>
    obtain ⟨rfl, rfl⟩ := List.cons.inj h
    exact ⟨fs, rfl, rfl⟩

theorem tokenPiece_flaws_of_line {c : Char} {cs : List Char} (h : (tokenPiece c (cs ++ ['\n'])).flaws = []) :
    (tokenPiece c cs).flaws = [] := by
  by_cases hc : c ∈ literalStarts
  · -- A literal and a verbatim name begin in the text itself, since none of their beginnings has a line end.
    generalize hds : cs ++ ['\n'] = ds at h
    revert h
    fun_cases tokenPiece c ds with
    | case1 => exact hds ▸ Lexeme.flaws_of_quoted_line
    | case2 => exact hds ▸ characterPiece_flaws_of_line
    | case3 es =>
      obtain ⟨fs, rfl, rfl⟩ := cons_of_line hds (by decide)
      exact Lexeme.flaws_of_verbatim_line
    | case4 es =>
      obtain ⟨fs, rfl, hfs⟩ := cons_of_line hds (by decide)
      obtain ⟨gs, rfl, rfl⟩ := cons_of_line hfs.symm (by decide)
      exact Lexeme.flaws_of_verbatim_line
    | case5 es =>
      obtain ⟨fs, rfl, rfl⟩ := cons_of_line hds (by decide)
      exact Lexeme.flaws_of_quoted_line
    | case6 es =>
      obtain ⟨fs, rfl, hfs⟩ := cons_of_line hds (by decide)
      obtain ⟨gs, rfl, rfl⟩ := cons_of_line hfs.symm (by decide)
      exact Lexeme.flaws_of_verbatim_line
    | case7 d es hquote hdollar hstart =>
      obtain ⟨fs, rfl, rfl⟩ := cons_of_line hds (start_ne hstart (by decide))
      have hd : d ≠ '$' := start_ne hstart (by decide)
      intro _
      unfold tokenPiece
      split <;> simp_all [identifierPiece]
    | case8 => exact fun h => absurd h (markPiece_flawed hc _)
    | case9 c ds hstart => simp [(literalStarts_apart hc).1] at hstart
    | case10 c ds _ hnumber => simp [(literalStarts_apart hc).2] at hnumber
    | case11 c ds hstart hnumber =>
      rw [if_neg hstart, if_neg hnumber]
      exact fun h => absurd h (markPiece_flawed hc _)
  · rw [plainPiece_line hc] at h
    exact h

theorem commentPiece_flaws_of_line {cs : List Char} (h : (commentPiece (cs ++ ['\n'])).flaws = []) :
    (commentPiece cs).flaws = [] := by
  rw [commentPiece_flaws_iff] at h ⊢
  exact Lexeme.afterComment_of_line h

theorem piece_flaws_of_line {fresh : Bool} {c : Char} {cs : List Char}
    (h : (piece fresh c (cs ++ ['\n'])).flaws = []) : (piece fresh c cs).flaws = [] := by
  unfold piece at h ⊢
  rw [head?_line (by decide), head?_line (by decide)] at h
  split_ifs at h ⊢ with hblank hdirective hcomment hopen
  · rfl
  · rfl
  · rfl
  · obtain ⟨ds, rfl⟩ : ∃ ds, cs = '*' :: ds := List.head?_eq_some_iff.mp (by simp_all)
    exact commentPiece_flaws_of_line h
  · exact tokenPiece_flaws_of_line h

/-- A line end behind a text mends nothing in it. -/
theorem scan_flaws_of_line {line : Nat} {fresh : Bool} {cs : List Char}
    (h : (scan line fresh (cs ++ ['\n'])).2 = []) : (scan line fresh cs).2 = [] := by
  induction line, fresh, cs using scan.induct with
  | case1 line fresh => rw [scan_nil]
  | case2 line fresh c cs hless p passed tokens diagnostics hfound ih =>
    have hpiece : p.flaws = [] := by
      rw [List.cons_append, scan_cons] at h
      exact piece_flaws_of_line (List.map_eq_nil_iff.mp (List.append_eq_nil_iff.mp h).1)
    rw [List.cons_append, scan_cons_line hpiece] at h
    rw [scan_cons]
    exact List.append_eq_nil_iff.mpr ⟨List.map_eq_nil_iff.mpr hpiece, ih h⟩

def EndsLine (text : String) : Prop := text = "" ∨ ∃ front, text = front ++ "\n"

theorem scan_append {a : String} (ha : EndsLine a) (h : (ofSource a).2 = []) (rest : List Char) :
    scan 1 true (a.toList ++ rest) = before (inside a) (scan (lineEnds a.toList + 1) true rest) := by
  rcases ha with rfl | ⟨front, rfl⟩
  · rw [inside, ofSource, String.toList_empty, scan_nil]
    rfl
  · have htext : (front ++ "\n").toList = front.toList ++ ['\n'] := String.toList_append
    rw [ofSource, htext] at h
    have hends : lineEnds (front.toList ++ ['\n']) = lineEnds front.toList + 1 := lineEnds_append _ _
    have hline (rest : List Char) := scan_line (scan_flaws_of_line h) rest
    rw [inside, ofSource, htext, hends, hline [], scan_nil, List.append_assoc,
      List.singleton_append, hline rest]
    simp only [before, List.dropLast_concat, Nat.add_comm 1]

/-- A text of whole lines with nothing wrong in it is read by itself, and so is what stands behind
it, as many lines further down. Every text is read to its end, which is the last token and no other.
-/
theorem ofSource_append :
    (∀ a b : String, EndsLine a → (ofSource a).2 = [] →
      ofSource (a ++ b) =
        (inside a ++ (ofSource b).1.map (later (lineEnds a.toList)),
          (ofSource b).2.map (Diagnostic.later (lineEnds a.toList)))) ∧
      ∀ source : String, ∃ tokens,
        (ofSource source).1 = tokens ++ [⟨.done, 1 + lineEnds source.toList⟩] ∧
          ∀ t ∈ tokens, t.kind ≠ .done := by
  constructor
  · intro a b ha h
    rw [ofSource, String.toList_append, scan_append ha h, scan_later]
    rfl
  · intro source
    obtain ⟨tokens, hscan, hreadable⟩ := scan_inside 1 true source.toList
    refine ⟨tokens, hscan, fun t ht hdone => ?_⟩
    have := hreadable t ht
    rw [hdone] at this
    exact this

/-- A comment and a literal over line ends stand before a directive and a literal that is not closed. -/
theorem ofSource_append_directive :
    EndsLine "x /*\n*/ @\"\n\"\"\";\n" ∧ (ofSource "x /*\n*/ @\"\n\"\"\";\n").2 = [] ∧
      ofSource ("x /*\n*/ @\"\n\"\"\";\n" ++ "#y\n\"z") =
        ([⟨.identifier "x" false, 1⟩, ⟨.text "\n\"", 2⟩, ⟨.mark ";", 3⟩,
          ⟨.text "z", 5⟩, ⟨.done, 5⟩], [.error "CS1010" "Newline in constant" 5]) := by
  have hline : EndsLine "x /*\n*/ @\"\n\"\"\";\n" := .inr ⟨"x /*\n*/ @\"\n\"\"\";", rfl⟩
  have hsound : (ofSource "x /*\n*/ @\"\n\"\"\";\n").2 = [] := by decide +kernel
  refine ⟨hline, hsound, ?_⟩
  rw [ofSource_append.1 _ "#y\n\"z" hline hsound]
  decide +kernel

end Token
end DataClasses
