import DataClasses.Proofs.Declaration.Types

/-!
# Reading the heads of generated source

Dotted names, imports, and the attributes and modifiers of a member.
-/

set_option autoImplicit false

namespace DataClasses.Parse

open ClassTree (dottedAtoms)

variable {e l n : Nat} {r : List Diagnostic} {u : Token} {ts : List Token}

def furtherParts (line : Nat) : List String → List Token
  | [] => []
  | part :: rest => .ofMark line '.' :: .ofWord line part :: furtherParts line rest

theorem tokens_dottedAtoms (line : Nat) (part : String) (rest : List String) :
    Atom.tokens line (dottedAtoms (part :: rest)) = .ofWord line part :: furtherParts line rest := by
  induction rest generalizing part with
  | nil => rfl
  | cons next rest ih => exact congrArg (fun ts => .ofWord line part :: .ofMark line '.' :: ts) (ih next)

theorem ofWord_name? {line : Nat} {word : String} (h : Identifier.isKeyword word = false) :
    (Token.ofWord line word).name? = some word := by
  simp [Token.ofWord, Token.name?, h]

theorem nextPart_part (acc : List String) {part : String} (h : Identifier.isKeyword part = false) :
    nextPart acc ⟨.ofMark n '.' :: .ofWord n part :: ts, e, l, r⟩ =
      (.again (acc ++ [part]), ⟨ts, e, n, r⟩) := by
  have hseparator : (Cursor.mk (.ofMark n '.' :: .ofWord n part :: ts) e l r).atSeparator = true := rfl
  simp [nextPart, bind_apply, get_apply, hseparator, Token.isName, ofWord_name? h]
  rfl

theorem nextPart_done (acc : List String) (h : EndsSegments u) :
    nextPart acc ⟨u :: ts, e, l, r⟩ = (.done acc, ⟨u :: ts, e, l, r⟩) := by
  have hu := isMark_of_isAnyMark h
  simp [nextPart, bind_apply, get_apply, pure_apply, Cursor.atSeparator, Token.isAnyMark,
    hu "." (by simp), hu "::" (by simp)]

theorem furtherParts_read (acc : List String) {parts : List String}
    (hparts : ∀ part ∈ parts, Identifier.isKeyword part = false) (h : EndsSegments u) :
    loop id nextPart acc ⟨furtherParts n parts ++ u :: ts, e, n, r⟩ =
      (acc ++ parts, ⟨u :: ts, e, n, r⟩) := by
  induction parts generalizing acc with
  | nil =>
    rw [List.append_nil]
    exact loop_done (nextPart_done acc h)
  | cons part parts ih =>
    rw [furtherParts, List.cons_append, List.cons_append,
      loop_again (nextPart_part acc (hparts part (by simp))) (by simp only [List.length_cons]; omega),
      ih _ fun q hq => hparts q (by simp [hq])]
    simp

theorem dottedName_spelled {parts : List String} (hne : parts ≠ [])
    (hparts : ∀ part ∈ parts, Identifier.isKeyword part = false) (h : EndsSegments u) :
    dottedName ⟨Atom.tokens n (dottedAtoms parts) ++ u :: ts, e, l, r⟩ =
      (⟨parts, n⟩, ⟨u :: ts, e, n, r⟩) := by
  cases parts with
  | nil => exact absurd rfl hne
  | cons part parts =>
    have hroot : (Cursor.mk (.ofWord n part :: (furtherParts n parts ++ u :: ts)) e l r).atRoot =
        false := by
      cases parts with
      | nil => simp [Cursor.atRoot, furtherParts, isMark_of_isAnyMark h "::"]
      | cons next parts =>
        have hdot : (Token.ofMark n '.').isMark "::" = false := rfl
        simp [Cursor.atRoot, furtherParts, hdot]
    rw [tokens_dottedAtoms, List.cons_append, dottedName, bind_apply, current_apply, bind_apply,
      get_apply]
    simp only [hroot, Bool.false_eq_true, if_false]
    rw [bind_apply, expectName_of (ofWord_name? (hparts part (by simp)))]
    simp only
    rw [bind_apply, Token.ofWord, furtherParts_read _ (fun q hq => hparts q (by simp [hq])) h]
    rfl

theorem attributes_none {t : Token} (h : t.isMark "[" = false) :
    attributes ⟨t :: ts, e, l, r⟩ = ([], ⟨t :: ts, e, l, r⟩) := by
  refine loop_done ?_
  rw [bind_apply, atMark_apply]
  simp only [ahead_zero, h]
  rfl

def attributeTokens (line : Nat) (name key : String) : List Token :=
  [.ofMark line '[', .ofWord line name, .ofMark line '(', ⟨.text key, line⟩, .ofMark line ')',
    .ofMark line ']']

theorem oneAttribute_spelled {name : String} (h : Identifier.isKeyword name = false) (key : String) :
    oneAttribute ⟨.ofWord n name :: .ofMark n '(' :: ⟨.text key, n⟩ :: .ofMark n ')' :: ts, e, l, r⟩ =
      (⟨⟨[name], n⟩, some key, n⟩, ⟨ts, e, n, r⟩) := by
  have hparts : ∀ part ∈ [name], Identifier.isKeyword part = false := by simpa using h
  have hname : dottedName ⟨.ofWord n name :: .ofMark n '(' :: ⟨.text key, n⟩ :: .ofMark n ')' :: ts,
      e, l, r⟩ = (⟨[name], n⟩, ⟨.ofMark n '(' :: ⟨.text key, n⟩ :: .ofMark n ')' :: ts, e,
        n, r⟩) :=
    dottedName_spelled (List.cons_ne_nil name []) hparts rfl
  rw [oneAttribute, bind_apply, current_apply, bind_apply, hname]
  rfl

theorem attributeTarget?_none {c : Cursor} (h : (c.ahead 1).isMark ":" = false) :
    attributeTarget? c = (none, c) := by
  rw [attributeTarget?, bind_apply, get_apply]
  simp [h, pure_apply]

theorem attributeSection_spelled {name : String} (h : Identifier.isKeyword name = false)
    (key : String) :
    attributeSection ⟨attributeTokens n name key ++ ts, e, l, r⟩ =
      ((none, [⟨⟨[name], n⟩, some key, n⟩]), ⟨ts, e, n, r⟩) := by
  simp only [attributeTokens, List.cons_append, List.nil_append]
  rw [attributeSection, bind_apply, skip_apply, drop_one, bind_apply, attributeTarget?_none rfl, bind_apply]
  rw [loop_done (a := [⟨⟨[name], n⟩, some key, n⟩]) (d := ⟨.ofMark n ']' :: ts, e, n, r⟩)]
  · rfl
  · rw [bind_apply]
    simp only [oneAttribute_spelled h]
    rfl

theorem attributes_spelled {name : String} (h : Identifier.isKeyword name = false) (key : String)
    {t : Token} (ht : t.isMark "[" = false) :
    attributes ⟨attributeTokens n name key ++ t :: ts, e, l, r⟩ =
      ([⟨⟨[name], n⟩, some key, n⟩], ⟨t :: ts, e, n, r⟩) := by
  rw [attributes, loop_again (y := [⟨⟨[name], n⟩, some key, n⟩]) (d := ⟨t :: ts, e, n, r⟩)]
  · refine loop_done ?_
    rw [bind_apply, atMark_apply]
    simp only [ahead_zero, ht]
    rfl
  · have hopen : (((Cursor.mk (attributeTokens n name key ++ t :: ts) e l r).ahead 0).isMark "[") =
        true := rfl
    rw [bind_apply, atMark_apply]
    simp only [hopen, if_true]
    rw [bind_apply, attributeSection_spelled h]
    rfl
  · simp [attributeTokens]

theorem nextModifier_done {c : Cursor} (h : c.atModifier = false) (acc : List String) :
    nextModifier acc c = (.done acc, c) := by
  rw [nextModifier, bind_apply, get_apply]
  simp only [h]
  rfl

theorem nextModifier_again {t : Token} (h : (Cursor.mk (t :: ts) e l r).atModifier = true)
    (acc : List String) :
    nextModifier acc ⟨t :: ts, e, l, r⟩ =
      (.again (acc ++ t.identifier?.toList), ⟨ts, e, t.line, r⟩) := by
  rw [nextModifier, bind_apply, get_apply]
  simp only [h]
  rfl

theorem modifiers_none {c : Cursor} (h : c.atModifier = false) : modifiers c = ([], c) :=
  loop_done (nextModifier_done h [])

theorem modifiers_public (h : (Cursor.mk ts e n r).atModifier = false) :
    modifiers ⟨.ofWord n "public" :: ts, e, l, r⟩ = (["public"], ⟨ts, e, n, r⟩) := by
  have hpublic : (Cursor.mk (.ofWord n "public" :: ts) e l r).atModifier = true := rfl
  rw [modifiers, loop_again (nextModifier_again hpublic []) (Nat.lt_succ_self _)]
  exact loop_done (nextModifier_done h _)

/-- A class with the name of a contextual modifier is one before the name of a member. -/
theorem modifiers_contextual {word name : String} (hword : word ∈ contextualWords)
    (hname : Identifier.isKeyword word = false)
    (h : (Cursor.mk (.ofName n name :: ts) e n r).atModifier = false) :
    modifiers ⟨.ofWord n "public" :: .ofName n word :: .ofName n name :: ts, e, l, r⟩ =
      (["public", word], ⟨.ofName n name :: ts, e, n, r⟩) := by
  have hone : (Token.ofName n word).isOneOf contextualWords = true := by
    rw [Token.isOneOf, List.any_eq_true]
    exact ⟨word, hword, by simp [Token.ofName_isWord, hname]⟩
  have hat (l : Nat) : (Cursor.mk (.ofName n word :: .ofName n name :: ts) e l r).atModifier = true := by
    simp [Cursor.atModifier, hone]
  have hpublic : (Cursor.mk (.ofWord n "public" :: .ofName n word :: .ofName n name :: ts) e l r).atModifier =
      true := rfl
  rw [modifiers, loop_again (nextModifier_again hpublic []) (Nat.lt_succ_self _),
    loop_again (nextModifier_again (hat _) _) (Nat.lt_succ_self _)]
  exact loop_done (nextModifier_done h _)

theorem leading_spelled {before ts : List Token} {c : Cursor} {as : List Attribute}
    {ms : List String} {l' : Nat}
    (ha : attributes ⟨before, e, l, r⟩ = (as, ⟨ts, e, l', r⟩))
    (hm : modifiers ⟨ts, e, l', r⟩ = (ms, c)) :
    leading ⟨before, e, l, r⟩ = (⟨as, ms⟩, c) := by
  rw [leading, bind_apply, ha, bind_apply, hm]
  rfl

end DataClasses.Parse
