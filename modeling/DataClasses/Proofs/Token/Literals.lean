import DataClasses.Proofs.Token.OwnLines
import Mathlib.Data.Bool.AllAny

/-!
# Texts in literals

A verbatim literal holds a text as it is, but for its quotes, each of which is written twice. It is
read as that text, whatever runs of quotes and line ends are in it, and the lines behind it are
counted on.

A literal on one line can hold a text by the numbers of its UTF-16 code units, each behind a mark of
its own. An escape is read by itself, so that a character with one code unit is read as it is, and
both halves of any other are flaws and leave nothing of it.
-/

set_option autoImplicit false

namespace DataClasses

namespace Text

def doubleQuotes (cs : List Char) : List Char := cs.flatMap fun c => if c = '"' then ['"', '"'] else [c]

@[simp] theorem doubleQuotes_nil : doubleQuotes [] = [] := rfl

@[simp] theorem doubleQuotes_quote (cs : List Char) :
    doubleQuotes ('"' :: cs) = '"' :: '"' :: doubleQuotes cs := rfl

theorem doubleQuotes_plain {c : Char} (h : c ≠ '"') (cs : List Char) :
    doubleQuotes (c :: cs) = c :: doubleQuotes cs := by
  rw [doubleQuotes, List.flatMap_cons, if_neg h]
  rfl

/-- A quote is written twice and everything else once. -/
theorem count_doubleQuotes (c : Char) (cs : List Char) :
    (doubleQuotes cs).count c = (if c = '"' then 2 else 1) * cs.count c := by
  induction cs with
  | nil => rfl
  | cons d cs ih =>
    by_cases hd : d = '"'
    · subst hd
      rw [doubleQuotes_quote, List.count_cons, List.count_cons, List.count_cons, ih]
      by_cases hc : c = '"'
      · subst hc
        simp
        omega
      · simp [hc, Ne.symm hc]
    · rw [doubleQuotes_plain hd, List.count_cons, List.count_cons, ih]
      by_cases hc : c = '"'
      · subst hc
        simp [hd]
      · simp [hc]

end Text

namespace Lexeme

/-- Quotes are taken in pairs, so the one behind a text whose quotes are doubled is the first without a
partner. -/
theorem verbatim_doubleQuotes (cs : List Char) {rest : List Char} (h : rest.head? ≠ some '"') :
    verbatim (Text.doubleQuotes cs ++ '"' :: rest) = ⟨cs, [], true, rest⟩ := by
  induction cs with
  | nil =>
    rw [Text.doubleQuotes_nil, List.nil_append, verbatim]
    rintro ds rfl
    exact h rfl
  | cons c cs ih =>
    by_cases hc : c = '"'
    · subst hc
      rw [Text.doubleQuotes_quote, List.cons_append, List.cons_append, verbatim, ih]
      rfl
    · rw [Text.doubleQuotes_plain hc, List.cons_append, verbatim, ih]
      · rfl
      · exact fun _ hquote _ => hc hquote
      · exact hc

end Lexeme

namespace Token

def verbatimOpenings : List String := ["@\"", "$@\"", "@$\""]

theorem scan_verbatimText (line : Nat) (fresh : Bool) {opening : String} (h : opening ∈ verbatimOpenings)
    (text : String) {rest : List Char} (hr : rest.head? ≠ some '"') :
    scan line fresh (opening.toList ++ (Text.doubleQuotes text.toList ++ '"' :: rest)) =
      before [⟨.text text, line⟩] (scan (line + lineEnds text.toList) false rest) := by
  have hbody : Piece.ofBody (Lexeme.verbatim (Text.doubleQuotes text.toList ++ '"' :: rest)) =
      ⟨some (.text text), [], rest⟩ := by
    rw [Lexeme.verbatim_doubleQuotes _ hr, Piece.ofBody, String.ofList_toList]
  have hends : lineEnds (opening.toList ++ (Text.doubleQuotes text.toList ++ '"' :: rest)) =
      lineEnds text.toList + lineEnds rest := by
    have hopening : ∀ o ∈ verbatimOpenings, lineEnds o.toList = 0 := by decide
    rw [lineEnds_append, lineEnds_append, hopening opening h, lineEnds_cons_of_ne (by decide), lineEnds,
      Text.count_doubleQuotes]
    simp [lineEnds]
  simp only [verbatimOpenings, List.mem_cons, List.not_mem_nil, or_false] at h
  rcases h with rfl | rfl | rfl
  · exact scan_token_over hbody hends
  · exact scan_token_over hbody hends
  · exact scan_token_over hbody hends

/-- A text in a verbatim literal, with or without the mark of an interpolation, is read as it is. -/
theorem ofSource_verbatim (text : String) {opening : String} (h : opening ∈ verbatimOpenings) :
    ofSource (opening ++ String.ofList (Text.doubleQuotes text.toList) ++ "\"") =
      ([⟨.text text, 1⟩, ⟨.done, 1 + lineEnds text.toList⟩], []) := by
  have hend : ([] : List Char).head? ≠ some '"' := nofun
  have hscan := scan_verbatimText 1 true h text hend
  rw [scan_nil] at hscan
  simpa [ofSource, before] using hscan

/-- Quotes at both ends of a text, and two of them around a line end. -/
theorem ofSource_verbatim_quotes :
    "$@\"" ∈ verbatimOpenings ∧
      ofSource "$@\"\"\"a\"\"\n\"\"\"" =
        ([⟨.text "\"a\"\n\"", 1⟩, ⟨.done, 2⟩], []) := by
  have hopening : "$@\"" ∈ verbatimOpenings := by decide
  exact ⟨hopening, ofSource_verbatim "\"a\"\n\"" hopening⟩

end Token

namespace Text

def isBasic (c : Char) : Bool := c.toNat < 0x10000

def codeUnits (c : Char) : List Nat :=
  if isBasic c then [c.toNat]
  else [0xD800 + (c.toNat - 0x10000) / 0x400, 0xDC00 + (c.toNat - 0x10000) % 0x400]

def Spells (digits : List Char) (n : Nat) : Prop := digits.length = 4 ∧ hexNumber? digits = some n

instance (digits : List Char) (n : Nat) : Decidable (Spells digits n) := inferInstanceAs (Decidable (_ ∧ _))

def escapes (spelled : List (List Char)) : String :=
  String.ofList ('"' :: (spelled.flatMap (fun digits => '\\' :: 'u' :: digits) ++ ['"']))

def ofNumber? (n : Nat) : Option Char := if n.isValidChar then some (Char.ofNat n) else none

theorem ofNumber?_toNat (c : Char) : ofNumber? c.toNat = some c := by
  have hvalid : c.toNat.isValidChar := c.valid
  rw [ofNumber?, if_pos hvalid, Char.ofNat_toNat]

theorem ofNumber?_surrogate {n : Nat} (hlow : 0xD800 ≤ n) (hhigh : n ≤ 0xDFFF) : ofNumber? n = none := by
  rw [ofNumber?, if_neg]
  simp only [Nat.isValidChar]
  omega

theorem codeUnits_basic {c : Char} (h : isBasic c = true) : codeUnits c = [c.toNat] := if_pos h

theorem codeUnits_surrogates {c : Char} (h : isBasic c = false) :
    ∃ high low, codeUnits c = [high, low] ∧ ofNumber? high = none ∧ ofNumber? low = none := by
  have hvalid : c.toNat < 0x110000 := by
    have hc : c.toNat.isValidChar := c.valid
    simp only [Nat.isValidChar] at hc
    omega
  refine ⟨_, _, if_neg (by simp [h]), ofNumber?_surrogate (by omega) (by omega),
    ofNumber?_surrogate (by omega) (by omega)⟩

/-- What single code units of a text are characters of: those of its characters that have one alone. -/
theorem filterMap_codeUnits (cs : List Char) :
    (cs.flatMap codeUnits).filterMap ofNumber? = cs.filter isBasic := by
  induction cs with
  | nil => rfl
  | cons c cs ih =>
    rw [List.flatMap_cons, List.filterMap_append, ih]
    cases hc : isBasic c with
    | true => simp [codeUnits_basic hc, ofNumber?_toNat, hc]
    | false =>
      obtain ⟨high, low, hunits, hhigh, hlow⟩ := codeUnits_surrogates hc
      simp [hunits, hhigh, hlow, hc]

theorem countP_codeUnits (cs : List Char) :
    (cs.flatMap codeUnits).countP (fun n => (ofNumber? n).isNone) = 2 * cs.countP (fun c => !isBasic c) := by
  induction cs with
  | nil => rfl
  | cons c cs ih =>
    rw [List.flatMap_cons, List.countP_append, ih]
    cases hc : isBasic c with
    | true => simp [codeUnits_basic hc, ofNumber?_toNat, hc]
    | false =>
      obtain ⟨high, low, hunits, hhigh, hlow⟩ := codeUnits_surrogates hc
      simp [hunits, hhigh, hlow, hc]
      omega

end Text

namespace Token

open Text (Spells escapes ofNumber? isBasic codeUnits)

theorem quoted_numbered {digits : List Char} {n : Nat} (h : Spells digits n) (rest : List Char) :
    Lexeme.quoted '"' ('\\' :: 'u' :: (digits ++ rest)) =
      match ofNumber? n with
      | some c => (Lexeme.quoted '"' rest).push c
      | none => (Lexeme.quoted '"' rest).flawed .unknownEscape := by
  have hescape : Lexeme.escape 'u' (digits ++ rest) = (ofNumber? n, rest) := hexEscape_four h.1 h.2 rest
  rw [Lexeme.quoted.eq_def]
  cases hn : ofNumber? n <;> simp [hescape, hn]

theorem quoted_escapes {spelled : List (List Char)} {units : List Nat}
    (h : List.Forall₂ Spells spelled units) (rest : List Char) :
    Lexeme.quoted '"' (spelled.flatMap (fun digits => '\\' :: 'u' :: digits) ++ '"' :: rest) =
      ⟨units.filterMap ofNumber?,
        List.replicate (units.countP fun n => (ofNumber? n).isNone) .unknownEscape, true, rest⟩ := by
  induction h with
  | nil =>
    rw [Lexeme.quoted.eq_def]
    simp
  | @cons digits n spelled units hdigits hrest ih =>
    rw [List.flatMap_cons, List.append_assoc, List.cons_append, List.cons_append, quoted_numbered hdigits, ih]
    cases hn : ofNumber? n with
    | some c => simp [hn, Lexeme.Body.push]
    | none => simp [hn, Lexeme.Body.flawed, List.replicate_succ]

theorem newline_not_mem_escapes {spelled : List (List Char)} {units : List Nat}
    (h : List.Forall₂ Spells spelled units) :
    '\n' ∉ spelled.flatMap (fun digits => '\\' :: 'u' :: digits) := by
  induction h with
  | nil => exact List.not_mem_nil
  | @cons digits n spelled units hdigits hrest ih =>
    have hplain : '\n' ∉ digits := fun hmem =>
      absurd (isHexDigit_of_foldlM hdigits.2 '\n' hmem) (by decide)
    simpa [hplain] using ih

/-- A literal that holds escapes alone is read as the characters of their numbers, and each number
that is that of a surrogate is a flaw. -/
theorem ofSource_escapes {spelled : List (List Char)} {units : List Nat}
    (h : List.Forall₂ Spells spelled units) :
    ofSource (escapes spelled) =
      ([⟨.text (String.ofList (units.filterMap ofNumber?)), 1⟩, ⟨.done, 1⟩],
        List.replicate (units.countP fun n => (ofNumber? n).isNone)
          (Lexeme.Flaw.unknownEscape.onLine 1)) := by
  have hends : lineEnds ('"' :: (spelled.flatMap (fun digits => '\\' :: 'u' :: digits) ++ ['"'])) = 0 := by
    refine List.count_eq_zero.mpr ?_
    simpa using newline_not_mem_escapes h
  rw [ofSource, escapes, String.toList_ofList, scan_cons, piece_quote, quoted_escapes h]
  simp only [Piece.ofBody, hends, Nat.zero_sub, Nat.add_zero, scan_nil]
  simp [Piece.tokens]

/-- A text is read from the escapes of its code units just if each of its characters is a code unit
by itself. Of any other character both halves are flaws, and nothing is left of it. -/
theorem ofSource_codeUnits {text : String} {spelled : List (List Char)}
    (h : List.Forall₂ Spells spelled (text.toList.flatMap codeUnits)) :
    ofSource (escapes spelled) =
        ([⟨.text (String.ofList (text.toList.filter isBasic)), 1⟩, ⟨.done, 1⟩],
          List.replicate (2 * text.toList.countP fun c => !isBasic c)
            (Lexeme.Flaw.unknownEscape.onLine 1)) ∧
      (ofSource (escapes spelled) = ([⟨.text text, 1⟩, ⟨.done, 1⟩], []) ↔
        ∀ c ∈ text.toList, c.toNat < 0x10000) := by
  have hread := ofSource_escapes h
  rw [Text.filterMap_codeUnits, Text.countP_codeUnits] at hread
  refine ⟨hread, ?_⟩
  rw [hread]
  constructor
  · intro hwhole
    have hnone := congrArg List.length (congrArg Prod.snd hwhole)
    simp only [List.length_replicate, List.length_nil, Nat.mul_eq_zero, OfNat.ofNat_ne_zero, false_or,
      List.countP_eq_zero] at hnone
    intro c hc
    simpa [isBasic] using hnone c hc
  · intro hbasic
    have hall : ∀ c ∈ text.toList, isBasic c = true := fun c hc => by simpa [isBasic] using hbasic c hc
    have hnone : text.toList.countP (fun c => !isBasic c) = 0 :=
      List.countP_eq_zero.mpr fun c hc => by simp [hall c hc]
    rw [List.filter_eq_self.mpr hall, hnone, String.ofList_toList]
    rfl

/-- Digits of both cases, and a line end that is escaped. -/
theorem ofSource_codeUnits_basic :
    List.Forall₂ Spells ["00e9".toList, "00E9".toList, "000A".toList]
      ("éé\n".toList.flatMap codeUnits) ∧
      ofSource "\"\\u00e9\\u00E9\\u000A\"" = ([⟨.text "éé\n", 1⟩, ⟨.done, 1⟩], []) := by
  have hspelled : List.Forall₂ Spells ["00e9".toList, "00E9".toList, "000A".toList]
      ("éé\n".toList.flatMap codeUnits) := by
    decide +kernel
  have hbasic : ∀ c ∈ "éé\n".toList, c.toNat < 0x10000 := List.all_iff_forall_prop.mp (by decide)
  exact ⟨hspelled, (ofSource_codeUnits hspelled).2.mpr hbasic⟩

/-- The two escapes of a character behind the basic ones are not read as the character. -/
theorem ofSource_surrogates :
    List.Forall₂ Spells ["D83D".toList, "DE00".toList] ("😀".toList.flatMap codeUnits) ∧
      ofSource "\"\\uD83D\\uDE00\"" =
        ([⟨.text "", 1⟩, ⟨.done, 1⟩],
          [.error "CS1009" "Unrecognized escape sequence" 1,
            .error "CS1009" "Unrecognized escape sequence" 1]) ∧
      ofSource "\"\\uD83D\\uDE00\"" ≠ ([⟨.text "😀", 1⟩, ⟨.done, 1⟩], []) := by
  decide +kernel

end Token

end DataClasses
