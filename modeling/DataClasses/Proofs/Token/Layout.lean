import DataClasses.Proofs.Token.Scanning

/-!
# Laid-out source

Source that is given as lines of words, marks and quoted texts. Scanning its spelling finds
these again, each on the line it stands on, and nothing is wrong with it.
-/

set_option autoImplicit false

namespace DataClasses

open Identifier (IsName)
open Token (before scan)

def Token.ofName (line : Nat) (name : String) : Token :=
  ⟨.identifier name (Identifier.isKeyword name), line⟩

def Token.ofWord (line : Nat) (word : String) : Token := ⟨.identifier word false, line⟩

def Token.ofMark (line : Nat) (m : Char) : Token := ⟨.mark (String.singleton m), line⟩

inductive Atom where
  | space
  | word (name : String)
  | verbatim (name : String)
  | mark (m : Char)
  | dot
  | text (value : String)

namespace Atom

def spelling : Atom → List Char
  | space => [' ']
  | word name => name.toList
  | verbatim name => '@' :: name.toList
  | mark m => [m]
  | dot => ['.']
  | text value => (Text.quote value).toList

def kind? : Atom → Option TokenKind
  | space => none
  | word name => some (.identifier name false)
  | verbatim name => some (.identifier name true)
  | mark m => some (.mark (String.singleton m))
  | dot => some (.mark ".")
  | text value => some (.text value)

def isWord : Atom → Bool
  | word _ => true
  | _ => false

def ofName (name : String) : Atom := if Identifier.isKeyword name then verbatim name else word name

/-- Whether an atom can be told from those behind it. Two words have to be kept apart, and a
point stands before a word. -/
def Fits : Atom → List Atom → Prop
  | space, _ => True
  | word name, rest => IsName name ∧ (rest.head?.any isWord) = false
  | verbatim name, rest => IsName name ∧ (rest.head?.any isWord) = false
  | mark m, _ => m ∈ Token.plainMarks
  | dot, rest => ∃ name, rest.head? = some (word name) ∧ IsName name
  | text _, _ => True

def WellSpelled : List Atom → Prop
  | [] => True
  | a :: rest => a.Fits rest ∧ WellSpelled rest

def spell (atoms : List Atom) : List Char := atoms.flatMap spelling

def tokens (line : Nat) (atoms : List Atom) : List Token :=
  atoms.filterMap fun a => a.kind?.map fun kind => ⟨kind, line⟩

@[simp] theorem spelling_space : space.spelling = [' '] := rfl
@[simp] theorem spelling_word (name : String) : (word name).spelling = name.toList := rfl
@[simp] theorem spelling_mark (m : Char) : (mark m).spelling = [m] := rfl
@[simp] theorem spelling_dot : dot.spelling = ['.'] := rfl
@[simp] theorem spelling_text (value : String) :
    (text value).spelling = (Text.quote value).toList := rfl

@[simp] theorem spell_nil : spell [] = [] := rfl

@[simp] theorem spell_cons (a : Atom) (rest : List Atom) :
    spell (a :: rest) = a.spelling ++ spell rest := rfl

@[simp] theorem spell_append (as bs : List Atom) : spell (as ++ bs) = spell as ++ spell bs := by
  simp [spell]

@[simp] theorem spelling_ofName (name : String) :
    (ofName name).spelling = (Identifier.escape name).toList := by
  rw [ofName, Identifier.escape]
  split
  · simp [spelling]
  · rfl

@[simp] theorem tokens_nil (line : Nat) : tokens line [] = [] := rfl

@[simp] theorem tokens_space (line : Nat) (rest : List Atom) :
    tokens line (space :: rest) = tokens line rest := rfl

@[simp] theorem tokens_word (line : Nat) (name : String) (rest : List Atom) :
    tokens line (word name :: rest) = .ofWord line name :: tokens line rest := rfl

@[simp] theorem tokens_mark (line : Nat) (m : Char) (rest : List Atom) :
    tokens line (mark m :: rest) = .ofMark line m :: tokens line rest := rfl

@[simp] theorem tokens_dot (line : Nat) (rest : List Atom) :
    tokens line (dot :: rest) = .ofMark line '.' :: tokens line rest := rfl

@[simp] theorem tokens_text (line : Nat) (value : String) (rest : List Atom) :
    tokens line (text value :: rest) = ⟨.text value, line⟩ :: tokens line rest := rfl

@[simp] theorem tokens_append (line : Nat) (as bs : List Atom) :
    tokens line (as ++ bs) = tokens line as ++ tokens line bs := by
  simp [tokens]

@[simp] theorem tokens_replicate_space (line n : Nat) :
    tokens line (List.replicate n space) = [] := by
  induction n with
  | zero => rfl
  | succ n ih => rw [List.replicate_succ, tokens_space, ih]

theorem kind?_ofName (name : String) :
    (ofName name).kind? = some (.identifier name (Identifier.isKeyword name)) := by
  rw [ofName]
  split
  · next h => simp [kind?, h]
  · next h => simp [kind?, h]

@[simp] theorem tokens_ofName (line : Nat) (name : String) (rest : List Atom) :
    tokens line (ofName name :: rest) = .ofName line name :: tokens line rest := by
  simp [tokens, kind?_ofName, Token.ofName]

theorem ofName_fits {name : String} (h : IsName name) {rest : List Atom}
    (hr : (rest.head?.any isWord) = false) : (ofName name).Fits rest := by
  rw [ofName]
  split
  · exact ⟨h, hr⟩
  · exact ⟨h, hr⟩

theorem endsName_spell {atoms : List Atom} (hw : WellSpelled atoms)
    (h : (atoms.head?.any isWord) = false) (rest : List Char) :
    Token.EndsName (spell atoms ++ '\n' :: rest) := by
  cases atoms with
  | nil => exact Token.endsName_cons (by decide) _
  | cons a atoms =>
    cases a with
    | space => exact Token.endsName_cons (by decide) _
    | word name => simp [isWord] at h
    | verbatim name => exact Token.endsName_cons (by decide) _
    | mark m =>
      have hmarks : Token.plainMarks.all (fun m => !Identifier.isPart m) = true := by decide
      exact Token.endsName_cons (by simpa using List.all_eq_true.mp hmarks m hw.1) _
    | dot => exact Token.endsName_cons (by decide) _
    | text value =>
      rw [spell_cons, spelling, Token.quote_toList]
      exact Token.endsName_cons (by decide) _

theorem scan_spell (line : Nat) (fresh : Bool) {atoms : List Atom} (h : WellSpelled atoms)
    (rest : List Char) :
    scan line fresh (spell atoms ++ '\n' :: rest) =
      before (tokens line atoms) (scan (line + 1) true rest) := by
  induction atoms generalizing fresh with
  | nil => exact Token.scan_newline line fresh rest
  | cons a atoms ih =>
    obtain ⟨hfits, h⟩ := h
    rw [spell_cons, List.append_assoc]
    cases a with
    | space =>
      rw [spelling, List.singleton_append, Token.scan_space, ih _ h]
      rfl
    | word name =>
      rw [spelling, Token.scan_word line fresh hfits.1 (endsName_spell h hfits.2 rest), ih _ h,
        Token.before_before]
      rfl
    | verbatim name =>
      rw [spelling, Token.scan_verbatim line fresh hfits.1 (endsName_spell h hfits.2 rest), ih _ h,
        Token.before_before]
      rfl
    | mark m =>
      rw [spelling, List.singleton_append, Token.scan_mark line fresh hfits, ih _ h,
        Token.before_before]
      rfl
    | dot =>
      obtain ⟨name, hhead, hname⟩ := hfits
      cases atoms with
      | nil => simp at hhead
      | cons b atoms =>
        simp only [List.head?_cons, Option.some.injEq] at hhead
        subst hhead
        have ih := ih false h
        rw [spell_cons, spelling, List.append_assoc] at ih ⊢
        rw [spelling, List.singleton_append, Token.scan_dot line fresh hname, ih,
          Token.before_before]
        rfl
    | text value =>
      rw [spelling, Token.scan_quote, ih _ h, Token.before_before]
      rfl

end Atom

inductive Line where
  | code (atoms : List Atom)
  | comment (indent : Nat) (text : List Char)

namespace Line

def spelling : Line → List Char
  | code atoms => Atom.spell atoms ++ ['\n']
  | comment indent text => List.replicate indent ' ' ++ '/' :: '/' :: text ++ ['\n']

def WellSpelled : Line → Prop
  | code atoms => Atom.WellSpelled atoms
  | comment _ text => '\n' ∉ text

def tokens (line : Nat) : Line → List Token
  | code atoms => Atom.tokens line atoms
  | comment _ _ => []

def spell (lines : List Line) : List Char := lines.flatMap spelling

def tokensFrom : Nat → List Line → List Token
  | _, [] => []
  | n, l :: rest => l.tokens n ++ tokensFrom (n + 1) rest

theorem scan_spaces (line : Nat) (fresh : Bool) (n : Nat) (rest : List Char) :
    scan line fresh (List.replicate n ' ' ++ rest) = scan line fresh rest := by
  induction n with
  | zero => rfl
  | succ n ih => rw [List.replicate_succ, List.cons_append, Token.scan_space, ih]

theorem scan_spelling (n : Nat) (fresh : Bool) {l : Line} (h : l.WellSpelled) (rest : List Char) :
    scan n fresh (l.spelling ++ rest) = before (l.tokens n) (scan (n + 1) true rest) := by
  cases l with
  | code atoms =>
    rw [spelling, List.append_assoc, List.singleton_append]
    exact Atom.scan_spell n fresh h rest
  | comment indent text =>
    rw [spelling, List.append_assoc, List.append_assoc, scan_spaces]
    exact Token.scan_comment n fresh h rest

theorem scan_spell (n : Nat) {lines : List Line} (h : ∀ l ∈ lines, l.WellSpelled)
    (rest : List Char) :
    scan n true (spell lines ++ rest) =
      before (tokensFrom n lines) (scan (n + lines.length) true rest) := by
  induction lines generalizing n with
  | nil => rfl
  | cons l lines ih =>
    have hl := h l (by simp)
    have hrest : ∀ k ∈ lines, k.WellSpelled := fun k hk => h k (by simp [hk])
    rw [spell, List.flatMap_cons, List.append_assoc, scan_spelling n true hl]
    rw [← spell, ih (n + 1) hrest, Token.before_before, List.length_cons]
    rw [show n + 1 + lines.length = n + (lines.length + 1) by omega]
    rfl

theorem ofSource_spell {source : String} {lines : List Line} (hs : source.toList = spell lines)
    (h : ∀ l ∈ lines, l.WellSpelled) :
    Token.ofSource source = (tokensFrom 1 lines ++ [⟨.done, 1 + lines.length⟩], []) := by
  have hscan := scan_spell 1 h []
  rw [List.append_nil, Token.scan_nil] at hscan
  rw [Token.ofSource, hs, hscan]
  rfl

@[simp] theorem spelling_code (atoms : List Atom) :
    (code atoms).spelling = Atom.spell atoms ++ ['\n'] := rfl

@[simp] theorem spelling_comment (indent : Nat) (text : List Char) :
    (comment indent text).spelling =
      List.replicate indent ' ' ++ '/' :: '/' :: text ++ ['\n'] := rfl

@[simp] theorem spell_nil : spell [] = [] := rfl

@[simp] theorem spell_cons (l : Line) (rest : List Line) :
    spell (l :: rest) = l.spelling ++ spell rest := rfl

@[simp] theorem spell_append (ls ks : List Line) : spell (ls ++ ks) = spell ls ++ spell ks := by
  simp [spell]

@[simp] theorem tokensFrom_nil (n : Nat) : tokensFrom n [] = [] := rfl

@[simp] theorem tokensFrom_cons (n : Nat) (l : Line) (rest : List Line) :
    tokensFrom n (l :: rest) = l.tokens n ++ tokensFrom (n + 1) rest := rfl

theorem tokensFrom_append (n : Nat) (ls ks : List Line) :
    tokensFrom n (ls ++ ks) = tokensFrom n ls ++ tokensFrom (n + ls.length) ks := by
  induction ls generalizing n with
  | nil => rfl
  | cons l ls ih =>
    rw [List.cons_append, tokensFrom_cons, ih, tokensFrom_cons, List.length_cons, List.append_assoc]
    rw [show n + 1 + ls.length = n + (ls.length + 1) by omega]

end Line
end DataClasses
