import DataClasses.Proofs.Token.Scanning
import Mathlib.Data.Bool.AllAny

/-!
# Keys in source

A key stands in source twice: quoted, as it is, and as the identifier that was made from it. The
quoted key is one token whose value is the key, whatever stands behind it, and stays on its line.
The identifier is one token too, and a key that is an identifier already is kept.
-/

set_option autoImplicit false

namespace DataClasses

namespace Text

/-- Neither a control character nor one of the two separators of lines and paragraphs. -/
def StaysOnLine (c : Char) : Prop := isControl c = false ∧ c ≠ '\u2028' ∧ c ≠ '\u2029'

instance (c : Char) : Decidable (StaysOnLine c) := inferInstanceAs (Decidable (_ ∧ _ ∧ _))

theorem hexDigit_staysOnLine {c : Char} (h : isHexDigit c = true) : StaysOnLine c := by
  have hlow : 0x30 ≤ c.toNat ∧ c.toNat ≤ 0x66 := by
    unfold isHexDigit hexValue? at h
    simp only [Char.le_def, UInt32.le_iff_toNat_le] at h
    have hval : c.val.toNat = c.toNat := rfl
    have hends : '0'.val.toNat = 0x30 ∧ '9'.val.toNat = 0x39 ∧ 'a'.val.toNat = 0x61 ∧
        'f'.val.toNat = 0x66 ∧ 'A'.val.toNat = 0x41 ∧ 'F'.val.toNat = 0x46 := by decide
    split at h
    · omega
    · split at h
      · omega
      · split at h
        · omega
        · cases h
  refine ⟨?_, ?_, ?_⟩
  · simp only [isControl, Bool.or_eq_false_iff, Bool.and_eq_false_iff, decide_eq_false_iff_not]
    omega
  · rintro rfl
    exact absurd hlow (by decide)
  · rintro rfl
    exact absurd hlow (by decide)

theorem quoteChar_staysOnLine (c : Char) : ∀ d ∈ quoteChar c, StaysOnLine d := by
  unfold quoteChar
  split
  case h_7 =>
    split
    · have hescape : ∀ d ∈ ['\\', 'u'], StaysOnLine d := List.all_iff_forall_prop.mp (by decide)
      rintro d hd
      rcases List.mem_append.mp (show d ∈ ['\\', 'u'] ++ hexDigits 4 c.toNat from hd) with hd | hd
      · exact hescape d hd
      · exact hexDigit_staysOnLine (Token.hexDigits_isHexDigit 4 c.toNat d hd)
    · next hplain => simpa [StaysOnLine, and_assoc] using hplain
  all_goals exact List.all_iff_forall_prop.mp (by decide)

theorem quote_staysOnLine (text : String) : ∀ c ∈ (quote text).toList, StaysOnLine c := by
  intro c hc
  rw [Token.quote_toList, List.mem_cons, List.mem_append, List.mem_flatMap, List.mem_singleton] at hc
  rcases hc with rfl | ⟨d, -, hc⟩ | rfl
  · decide
  · exact quoteChar_staysOnLine d c hc
  · decide

end Text

namespace Identifier

theorem replaceEntities_of_part {cs : List Char} (h : ∀ c ∈ cs, isPart c = true) :
    replaceEntities cs = cs := by
  fun_induction replaceEntities cs with
  | case1 cs ih =>
    have hamp : isPart '&' = false := by decide
    simp [h '&' (by simp)] at hamp
  | case2 c cs _ ih => rw [ih fun d hd => h d (List.mem_cons_of_mem c hd)]
  | case3 => rfl

theorem maskForeign_of_part (afterBlank : Bool) {cs : List Char} (h : ∀ c ∈ cs, isPart c = true) :
    maskForeign afterBlank cs = cs := by
  induction cs generalizing afterBlank with
  | nil => rfl
  | cons c cs ih =>
    have hc := h c (by simp)
    rw [maskForeign, ih false fun d hd => h d (List.mem_cons_of_mem c hd)]
    simp [part_not_blank hc, hc]

/-- A key that is an identifier is its own name. -/
theorem sanitize_of_isName {name : String} (h : IsName name) : sanitize name = name := by
  have hparts := isPart_of_mem h
  obtain ⟨c, cs, hname, hc, -⟩ := isIdentifier_iff.mp h
  have hne : name.isEmpty = false := by
    rw [Bool.eq_false_iff, Ne, String.isEmpty_iff]
    rintro rfl
    simp at hname
  rw [sanitize, hne, replaceEntities_of_part hparts, maskForeign_of_part false hparts, hname, startSafely,
    if_pos hc, ← hname]
  simp

end Identifier

namespace Token

open Identifier (IsName)

/-- A quoted text is read as the text, with whatever stands behind it read as behind a mark. It stays on
its line and nothing is wrong with it. -/
theorem quote_read (text rest : String) :
    (∃ tokens diagnostics,
      ofSource (";" ++ rest) = (⟨.mark ";", 1⟩ :: tokens, diagnostics) ∧
        ofSource (Text.quote text ++ rest) = (⟨.text text, 1⟩ :: tokens, diagnostics)) ∧
      (∀ c ∈ (Text.quote text).toList,
        Text.isControl c = false ∧ c ≠ '\u2028' ∧ c ≠ '\u2029') ∧
      ofSource (Text.quote text) = ([⟨.text text, 1⟩, ⟨.done, 1⟩], []) := by
  refine ⟨⟨(scan 1 false rest.toList).1, (scan 1 false rest.toList).2, ?_, ?_⟩,
    Text.quote_staysOnLine text, ?_⟩
  · have hmark : (";" ++ rest).toList = ';' :: rest.toList := by simp
    rw [ofSource, hmark, scan_mark 1 true (by decide)]
    rfl
  · rw [ofSource, String.toList_append, scan_quote]
    rfl
  · have hscan := scan_quote 1 true text []
    rw [List.append_nil, scan_nil] at hscan
    exact hscan

theorem escape_read {name : String} (h : IsName name) :
    ofSource (Identifier.escape name) =
      ([⟨.identifier name (Identifier.isKeyword name), 1⟩, ⟨.done, 1⟩], []) := by
  rw [ofSource, Identifier.escape]
  split
  · next hkeyword =>
    have hscan := scan_verbatim 1 true h endsName_nil
    rw [List.append_nil, scan_nil] at hscan
    rw [hkeyword, String.toList_append]
    exact hscan
  · next hkeyword =>
    have hscan := scan_word 1 true h endsName_nil
    rw [List.append_nil, scan_nil] at hscan
    rw [Bool.eq_false_iff.mpr hkeyword]
    exact hscan

/-- The name made from a key, in either style, is read as one identifier, verbatim just if it is a
reserved word. A key that is an identifier is its own name, so a name made from a key is made from
itself too. -/
theorem key_read (key : String) (enabled : Bool) :
    let name := Identifier.capitalize enabled (Identifier.sanitize key)
    ofSource (Identifier.escape name) =
        ([⟨.identifier name (Identifier.isKeyword name), 1⟩, ⟨.done, 1⟩], []) ∧
      (∀ word, IsName word → Identifier.sanitize word = word) ∧
      Identifier.sanitize (Identifier.sanitize key) = Identifier.sanitize key :=
  ⟨escape_read (Identifier.capitalize_isName enabled (Identifier.sanitize_isName key)),
    fun _ => Identifier.sanitize_of_isName,
    Identifier.sanitize_of_isName (Identifier.sanitize_isName key)⟩

end Token
end DataClasses
