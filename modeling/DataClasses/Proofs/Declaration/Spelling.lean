import DataClasses.Declaration.Name
import DataClasses.Proofs.Declaration.Depth
import DataClasses.Proofs.Declaration.Words
import DataClasses.Proofs.Token.Marks

/-!
# The spelling of types

The tokens of a type as its text spells it. Scanning the text finds them, as long as what stands
behind it does not go on with its last mark or name.
-/

set_option autoImplicit false

namespace DataClasses

open Identifier (IsName isKeyword isStart isPart)
open Token (EndsName before scan)

namespace TypeExpr

def isNullable : TypeExpr → Bool
  | nullable _ => true
  | _ => false

/-- Whether the text of a type can be told apart: its names are identifiers and not reserved, its lists
have something in them, and no two marks of missing values stand together. -/
inductive WellSpelled : TypeExpr → Prop where
  | predefined {keyword : String} {line : Nat} (h : keyword ∈ Parse.predefinedTypes) :
    WellSpelled (predefined keyword line)
  | named {segments : List (String × List TypeExpr)} {fromRoot : Bool} {line : Nat}
    (hne : segments ≠ []) (hnames : ∀ s ∈ segments, IsName s.1 ∧ isKeyword s.1 = false)
    (harguments : ∀ s ∈ segments, ∀ t ∈ s.2, WellSpelled t) :
    WellSpelled (named segments fromRoot line)
  | array {element : TypeExpr} {rank : Nat} (helement : WellSpelled element) (hrank : 1 ≤ rank) :
    WellSpelled (array element rank)
  | nullable {inner : TypeExpr} (hinner : WellSpelled inner) (h : inner.isNullable = false) :
    WellSpelled (nullable inner)
  | tuple {elements : List TypeExpr} {line : Nat} (hne : elements ≠ [])
    (helements : ∀ t ∈ elements, WellSpelled t) : WellSpelled (tuple elements line)

def argumentText (arguments : List TypeExpr) : String :=
  if arguments.isEmpty then "" else "<" ++ ", ".intercalate (arguments.map text) ++ ">"

theorem texts_eq (ts : List TypeExpr) : texts ts = ts.map text := by
  induction ts with
  | nil => rfl
  | cons t ts ih => rw [texts, ih, List.map_cons]

theorem segmentTexts_eq (segments : List (String × List TypeExpr)) :
    segmentTexts segments = segments.map fun s => s.1 ++ argumentText s.2 := by
  induction segments with
  | nil => rfl
  | cons s segments ih => rw [segmentTexts, ih, texts_eq, List.map_cons, argumentText]

def rowTokens (line : Nat) (ts : List (List Token)) : List Token := [.ofMark line ','].intercalate ts

mutual

def tokens (line : Nat) : TypeExpr → List Token
  | predefined keyword _ => [.ofWord line keyword]
  | named segments fromRoot _ =>
    (if fromRoot then [.ofWord line "global", ⟨.mark "::", line⟩] else []) ++
      [.ofMark line '.'].intercalate (segmentTokens line segments)
  | array element rank =>
    tokens line element ++
      .ofMark line '[' :: (List.replicate (rank - 1) (.ofMark line ',') ++ [.ofMark line ']'])
  | nullable inner => tokens line inner ++ [.ofMark line '?']
  | tuple elements _ => .ofMark line '(' :: (rowTokens line (listTokens line elements) ++ [.ofMark line ')'])

def listTokens (line : Nat) : List TypeExpr → List (List Token)
  | [] => []
  | t :: rest => tokens line t :: listTokens line rest

def segmentTokens (line : Nat) : List (String × List TypeExpr) → List (List Token)
  | [] => []
  | (name, arguments) :: rest =>
    (.ofWord line name ::
      if arguments.isEmpty then []
      else .ofMark line '<' :: (rowTokens line (listTokens line arguments) ++ [.ofMark line '>'])) ::
        segmentTokens line rest

end

def argumentTokens (line : Nat) (arguments : List TypeExpr) : List Token :=
  if arguments.isEmpty then []
  else .ofMark line '<' :: (rowTokens line (arguments.map (tokens line)) ++ [.ofMark line '>'])

theorem listTokens_eq (line : Nat) (ts : List TypeExpr) : listTokens line ts = ts.map (tokens line) := by
  induction ts with
  | nil => rfl
  | cons t ts ih => rw [listTokens, ih, List.map_cons]

theorem segmentTokens_eq (line : Nat) (segments : List (String × List TypeExpr)) :
    segmentTokens line segments =
      segments.map fun s => .ofWord line s.1 :: argumentTokens line s.2 := by
  induction segments with
  | nil => rfl
  | cons s segments ih => rw [segmentTokens, ih, listTokens_eq, List.map_cons, argumentTokens]

theorem argumentTokens_cases (line : Nat) (arguments : List TypeExpr) :
    argumentTokens line arguments = [] ∨
      ∃ more, argumentTokens line arguments = .ofMark line '<' :: more := by
  rw [argumentTokens]
  split
  · exact .inl rfl
  · exact .inr ⟨_, rfl⟩

def nameTokens (line : Nat) (segments : List (String × List TypeExpr)) : List Token :=
  [.ofMark line '.'].intercalate (segmentTokens line segments)

theorem nameTokens_singleton (line : Nat) (s : String × List TypeExpr) :
    nameTokens line [s] = .ofWord line s.1 :: argumentTokens line s.2 := by
  rw [nameTokens, segmentTokens_eq, List.map_singleton, List.intercalate_singleton]

theorem nameTokens_cons (line : Nat) (s next : String × List TypeExpr)
    (rest : List (String × List TypeExpr)) :
    nameTokens line (s :: next :: rest) =
      .ofWord line s.1 :: (argumentTokens line s.2 ++
        .ofMark line '.' :: nameTokens line (next :: rest)) := by
  rw [nameTokens, nameTokens, segmentTokens_eq, segmentTokens_eq, List.map_cons, List.map_cons,
    List.intercalate_cons_cons, List.append_assoc]
  rfl

theorem nameTokens_append (line : Nat) {front : List (String × List TypeExpr)} (hne : front ≠ [])
    (s : String × List TypeExpr) :
    nameTokens line (front ++ [s]) = nameTokens line front ++ .ofMark line '.' :: nameTokens line [s] := by
  induction front with
  | nil => exact absurd rfl hne
  | cons first front ih =>
    cases front with
    | nil =>
      rw [List.singleton_append, nameTokens_cons, nameTokens_singleton, nameTokens_singleton]
      simp
    | cons next front =>
      have hrest := ih (List.cons_ne_nil next front)
      rw [List.cons_append] at hrest
      rw [List.cons_append, List.cons_append, nameTokens_cons, hrest, nameTokens_cons]
      simp

structure EndsPart (rest : List Char) : Prop where
  name : EndsName rest
  equals : ¬['='] <+: rest
  shift : ¬['>', '='] <+: rest

structure EndsBefore (t : TypeExpr) (rest : List Char) : Prop extends EndsPart rest where
  point : ¬['.'] <+: rest
  question : t.isNullable = true → ¬['?'] <+: rest

theorem endsPart_cons {c : Char} (hc : isPart c = false) (h : c ∉ ['=', '>']) (cs : List Char) :
    EndsPart (c :: cs) := by
  simp only [List.mem_cons, List.not_mem_nil, or_false, not_or] at h
  refine ⟨Token.endsName_cons hc cs, ?_, ?_⟩
  · simpa [List.cons_prefix_cons] using Ne.symm h.1
  · simp [List.cons_prefix_cons, Ne.symm h.2]

theorem endsBefore_cons (t : TypeExpr) {c : Char} (hc : isPart c = false) (h : c ∉ ['=', '>', '.', '?'])
    (cs : List Char) : t.EndsBefore (c :: cs) := by
  simp only [List.mem_cons, List.not_mem_nil, or_false, not_or] at h
  refine ⟨endsPart_cons hc (by simp [h]) cs, ?_, fun _ => ?_⟩
  · simpa [List.cons_prefix_cons] using Ne.symm h.2.2.1
  · simpa [List.cons_prefix_cons] using Ne.symm h.2.2.2

theorem endsBefore_question {t : TypeExpr} (h : t.isNullable = false) (cs : List Char) :
    t.EndsBefore ('?' :: cs) :=
  ⟨endsPart_cons (by decide) (by decide) cs, by simp [List.cons_prefix_cons], by simp [h]⟩

theorem endsBefore_closeAngle (t : TypeExpr) {cs : List Char} (h : ¬['='] <+: cs) :
    t.EndsBefore ('>' :: cs) := by
  refine ⟨⟨Token.endsName_cons (by decide) cs, ?_, ?_⟩, ?_, fun _ => ?_⟩
  · simp [List.cons_prefix_cons]
  · simpa [List.cons_prefix_cons] using h
  · simp [List.cons_prefix_cons]
  · simp [List.cons_prefix_cons]

/-- What has separators in it begins with its first part. -/
theorem intercalate_begins {α : Type} (separator x : List α) (xs : List (List α)) :
    ∃ more, separator.intercalate (x :: xs) = x ++ more := by
  cases xs with
  | nil => exact ⟨[], by simp⟩
  | cons y ys => exact ⟨_, by rw [List.intercalate_cons_cons, List.append_assoc]⟩

/-- Items that are scanned one by one are scanned with separators between them. -/
theorem scan_joined {α : Type} {line : Nat} {separator : List Char} {mark : Token}
    {chars : α → List Char} {tokens : α → List Token} {ends : List Char → Prop} {xs : List α}
    (hne : xs ≠ [])
    (hitem : ∀ x ∈ xs, ∀ cs, ends cs →
      scan line false (chars x ++ cs) = before (tokens x) (scan line false cs))
    (hseparator : ∀ x ∈ xs, ∀ cs, ends (separator ++ (chars x ++ cs)) ∧
      scan line false (separator ++ (chars x ++ cs)) = before [mark] (scan line false (chars x ++ cs)))
    {rest : List Char} (hrest : ends rest) :
    scan line false (separator.intercalate (xs.map chars) ++ rest) =
      before ([mark].intercalate (xs.map tokens)) (scan line false rest) := by
  induction xs with
  | nil => exact absurd rfl hne
  | cons x xs ih =>
    cases xs with
    | nil => simpa using hitem x (by simp) rest hrest
    | cons y ys =>
      have hys := ih (List.cons_ne_nil y ys) (fun z hz => hitem z (List.mem_cons_of_mem x hz))
        (fun z hz => hseparator z (List.mem_cons_of_mem x hz))
      obtain ⟨more, hmore⟩ := intercalate_begins separator (chars y) (ys.map chars)
      obtain ⟨hends, hscan⟩ := hseparator y (by simp) (more ++ rest)
      rw [List.map_cons, hmore, List.append_assoc] at hys
      rw [List.map_cons, List.map_cons, List.intercalate_cons_cons, hmore, List.map_cons, List.map_cons,
        List.intercalate_cons_cons, ← List.map_cons, List.append_assoc, List.append_assoc,
        List.append_assoc, hitem x (by simp) _ hends, hscan, hys, Token.before_before,
        Token.before_before, List.append_assoc]

/-- Types whose texts are scanned are scanned with commas between them. -/
theorem scan_texts {line : Nat} {ts : List TypeExpr} (hne : ts ≠ [])
    (h : ∀ t ∈ ts, ∀ rest, t.EndsBefore rest →
      scan line false (t.text.toList ++ rest) = before (t.tokens line) (scan line false rest))
    {rest : List Char} (hrest : ∀ t ∈ ts, t.EndsBefore rest) :
    scan line false ((", ".intercalate (ts.map text)).toList ++ rest) =
      before (rowTokens line (ts.map (tokens line))) (scan line false rest) := by
  have hitem : ∀ t ∈ ts, ∀ cs, (∀ u ∈ ts, u.EndsBefore cs) →
      scan line false (t.text.toList ++ cs) = before (t.tokens line) (scan line false cs) :=
    fun t ht cs hcs => h t ht cs (hcs t ht)
  rw [String.toList_intercalate, List.map_map]
  refine scan_joined hne hitem (fun t _ cs => ⟨?_, ?_⟩) hrest
  · exact fun u _ => endsBefore_cons u (by decide) (by decide) _
  · have hspace : ", ".toList = [',', ' '] := rfl
    rw [hspace, List.cons_append, List.cons_append, List.nil_append, Token.scan_comma, Token.scan_space]

def StartsType (c : Char) : Prop := c = '(' ∨ isStart c = true

theorem StartsType.not_prefix {c d : Char} (h : StartsType c) (hd : isStart d = false) (hparen : d ≠ '(')
    (cs : List Char) : ¬[d] <+: c :: cs := by
  rw [List.cons_prefix_cons]
  rintro ⟨rfl, -⟩
  rcases h with rfl | h
  · exact hparen rfl
  · simp [hd] at h

theorem name_head {name : String} (h : IsName name) :
    ∃ c cs, name.toList = c :: cs ∧ StartsType c := by
  obtain ⟨c, cs, hname, hc, -⟩ := Identifier.isIdentifier_iff.mp h
  exact ⟨c, cs, hname, .inr hc⟩

theorem predefined_isName : ∀ keyword ∈ Parse.predefinedTypes, IsName keyword := by decide

theorem WellSpelled.text_head {t : TypeExpr} (h : t.WellSpelled) :
    ∃ c cs, t.text.toList = c :: cs ∧ StartsType c := by
  induction h with
  | @predefined keyword _ hkeyword => exact name_head (predefined_isName keyword hkeyword)
  | @named segments fromRoot _ hne hnames harguments ih =>
    cases segments with
    | nil => exact absurd rfl hne
    | cons s segments =>
      obtain ⟨c, cs, hname, hc⟩ := name_head (hnames s (by simp)).1
      obtain ⟨more, hmore⟩ := intercalate_begins ".".toList (s.1 ++ argumentText s.2).toList
        (((segments.map fun s => s.1 ++ argumentText s.2)).map String.toList)
      rw [text, segmentTexts_eq, String.toList_append, String.toList_intercalate, List.map_cons,
        List.map_cons, hmore, String.toList_append, hname]
      cases fromRoot with
      | true => exact ⟨'g', _, rfl, .inr (by decide)⟩
      | false => exact ⟨c, _, rfl, hc⟩
  | array helement hrank ih =>
    obtain ⟨c, cs, hcs, hc⟩ := ih
    exact ⟨c, _, by rw [text, String.toList_append, String.toList_append,
      String.toList_append, hcs]; rfl, hc⟩
  | nullable hinner hnot ih =>
    obtain ⟨c, cs, hcs, hc⟩ := ih
    exact ⟨c, _, by rw [text, String.toList_append, hcs]; rfl, hc⟩
  | tuple hne helements ih =>
    exact ⟨'(', _, by rw [text, String.toList_append, String.toList_append]; rfl, .inl rfl⟩

theorem scan_arguments {line : Nat} {arguments : List TypeExpr}
    (hspelled : ∀ t ∈ arguments, t.WellSpelled) (h : ∀ t ∈ arguments, ∀ rest, t.EndsBefore rest →
      scan line false (t.text.toList ++ rest) = before (t.tokens line) (scan line false rest))
    {rest : List Char} (hrest : EndsPart rest) :
    scan line false ((argumentText arguments).toList ++ rest) =
      before (argumentTokens line arguments) (scan line false rest) := by
  cases arguments with
  | nil => rfl
  | cons t ts =>
    obtain ⟨c, cs, htext, hc⟩ := (hspelled t (by simp)).text_head
    have hclose : ∀ u ∈ t :: ts, u.EndsBefore ('>' :: rest) :=
      fun u _ => endsBefore_closeAngle u hrest.equals
    have hscan := scan_texts (List.cons_ne_nil t ts) h hclose
    obtain ⟨more, hmore⟩ : ∃ more, (", ".intercalate ((t :: ts).map text)).toList = c :: more := by
      obtain ⟨more, hmore⟩ := intercalate_begins ", ".toList t.text.toList
        ((ts.map text).map String.toList)
      exact ⟨cs ++ more, by rw [String.toList_intercalate, List.map_cons,
        List.map_cons, hmore, htext]; rfl⟩
    have hopen : (argumentText (t :: ts)).toList ++ rest =
        '<' :: ((", ".intercalate ((t :: ts).map text)).toList ++ '>' :: rest) := by
      simp [argumentText]
    rw [hopen, hmore, List.cons_append, Token.scan_openAngle line false
      (hc.not_prefix (by decide) (by decide) _) (hc.not_prefix (by decide) (by decide) _),
      ← List.cons_append, ← hmore, hscan, Token.scan_closeAngle line false hrest.equals hrest.shift,
      Token.before_before, Token.before_before]
    rfl

theorem scan_segments {line : Nat} {segments : List (String × List TypeExpr)} (hne : segments ≠ [])
    (hnames : ∀ s ∈ segments, IsName s.1)
    (hscan : ∀ s ∈ segments, ∀ rest, EndsPart rest →
      scan line false ((argumentText s.2).toList ++ rest) =
        before (argumentTokens line s.2) (scan line false rest))
    {rest : List Char} (hrest : EndsPart rest) :
    scan line false ((".".intercalate (segmentTexts segments)).toList ++ rest) =
      before (nameTokens line segments) (scan line false rest) := by
  rw [nameTokens, segmentTexts_eq, segmentTokens_eq, String.toList_intercalate, List.map_map]
  refine scan_joined hne (fun s hs cs hcs => ?_) (fun s hs cs => ⟨?_, ?_⟩) hrest
  · have hends : EndsName ((argumentText s.2).toList ++ cs) := by
      rw [argumentText]
      split
      · exact hcs.name
      · rw [String.toList_append, String.toList_append]
        exact Token.endsName_cons (c := '<') (by decide) _
    rw [Function.comp_apply, String.toList_append, List.append_assoc,
      Token.scan_word line false (hnames s hs) hends, hscan s hs cs hcs, Token.before_before]
    rfl
  · exact endsPart_cons (by decide) (by decide) _
  · rw [Function.comp_apply, String.toList_append, List.append_assoc]
    exact Token.scan_dot line false (hnames s hs) _

theorem scan_commas (line count : Nat) (rest : List Char) :
    scan line false (List.replicate count ',' ++ rest) =
      before (List.replicate count (.ofMark line ',')) (scan line false rest) := by
  induction count with
  | zero => rfl
  | succ count ih =>
    rw [List.replicate_succ, List.cons_append, Token.scan_comma, ih, Token.before_before]
    rfl

/-- The text of a type is scanned as its tokens. -/
theorem scan_text {t : TypeExpr} (h : t.WellSpelled) (line : Nat) {rest : List Char}
    (hrest : t.EndsBefore rest) :
    scan line false (t.text.toList ++ rest) = before (t.tokens line) (scan line false rest) := by
  induction h generalizing rest with
  | predefined hkeyword => exact Token.scan_word line false (predefined_isName _ hkeyword) hrest.name
  | @named segments fromRoot _ hne hnames harguments ih =>
    have hsegments := scan_segments hne (fun s hs => (hnames s hs).1)
      (fun s hs _ => scan_arguments (harguments s hs) (fun t ht _ => ih s hs t ht)) hrest.toEndsPart
    cases fromRoot with
    | false =>
      rw [text, String.toList_append]
      exact hsegments
    | true =>
      have hglobal : "global::".toList = "global".toList ++ [':', ':'] := rfl
      rw [text, if_pos rfl, String.toList_append, hglobal, List.append_assoc, List.append_assoc,
        List.cons_append, List.cons_append, List.nil_append,
        Token.scan_word line false (by decide) (Token.endsName_cons (c := ':') (by decide) _),
        Token.scan_colons, hsegments, Token.before_before, Token.before_before]
      rfl
  | @array element rank helement hrank ih =>
    have htext : (array element rank).text.toList ++ rest =
        element.text.toList ++ '[' :: (List.replicate (rank - 1) ',' ++ ']' :: rest) := by
      simp [text]
    rw [htext, ih (endsBefore_cons element (by decide) (by decide) _),
      Token.scan_mark line false (by decide), scan_commas, Token.scan_mark line false (by decide),
      Token.before_before, Token.before_before, Token.before_before, tokens]
    simp [Token.ofMark]
  | @nullable inner hinner hnot ih =>
    have htext : (nullable inner).text.toList ++ rest = inner.text.toList ++ '?' :: rest := by
      simp [text]
    rw [htext, ih (endsBefore_question hnot rest),
      Token.scan_question line false (hrest.question rfl) hrest.point, Token.before_before, tokens]
  | @tuple elements first hne helements ih =>
    have htext : (tuple elements first).text.toList ++ rest =
        '(' :: ((", ".intercalate (elements.map text)).toList ++ ')' :: rest) := by
      simp [text, texts_eq]
    rw [htext, Token.scan_mark line false (by decide), scan_texts hne (fun t ht _ => ih t ht)
      (fun t _ => endsBefore_cons t (by decide) (by decide) _), Token.scan_mark line false (by decide),
      Token.before_before, Token.before_before, tokens, listTokens_eq]
    simp [Token.ofMark]

end TypeExpr
end DataClasses
