import DataClasses.Text.Basic
import DataClasses.Token.Basic
import DataClasses.Token.Lexeme

/-!
# From source text to tokens

A text is taken apart step by step. Each step passes over a token, a comment, a directive,
a blank or a character that is out of place, and leaves a shorter text.
-/

set_option autoImplicit false

namespace DataClasses.Token

open Lexeme (Flaw Body)

structure Piece where
  kind : Option TokenKind
  flaws : List Flaw
  rest : List Char

def Piece.skip (rest : List Char) : Piece := ⟨none, [], rest⟩

def Piece.ofBody (b : Body) : Piece := ⟨some (.text (String.ofList b.value)), b.flaws, b.rest⟩

def identifierPiece (verbatim : Bool) (c : Char) (cs : List Char) : Piece :=
  let (text, rest) := Lexeme.name cs
  ⟨some (.identifier (String.ofList (c :: text)) verbatim), [], rest⟩

def numberPiece (c : Char) (cs : List Char) : Piece :=
  let (text, rest) := Lexeme.numberRest (Lexeme.isHexadecimal c cs) c cs
  ⟨some (.number (String.ofList (c :: text))), [], rest⟩

def characterPiece (cs : List Char) : Piece :=
  let b := Lexeme.quoted '\'' cs
  ⟨some .character, Lexeme.characterFlaws b, b.rest⟩

def markPiece (c : Char) (cs : List Char) : Piece :=
  match Lexeme.mark? (c :: cs) with
  | some m => ⟨some (.mark m), [], cs.drop (m.length - 1)⟩
  | none => ⟨none, [.strayCharacter c], cs⟩

def commentPiece (cs : List Char) : Piece :=
  let (closed, rest) := Lexeme.afterComment cs
  ⟨none, if closed then [] else [.openComment], rest⟩

def tokenPiece (c : Char) (cs : List Char) : Piece :=
  match c, cs with
  | '"', _ => .ofBody (Lexeme.quoted '"' cs)
  | '\'', _ => characterPiece cs
  | '@', '"' :: ds => .ofBody (Lexeme.verbatim ds)
  | '@', '$' :: '"' :: ds => .ofBody (Lexeme.verbatim ds)
  | '$', '"' :: ds => .ofBody (Lexeme.quoted '"' ds)
  | '$', '@' :: '"' :: ds => .ofBody (Lexeme.verbatim ds)
  | '@', d :: ds => if Identifier.isStart d then identifierPiece true d ds else markPiece c cs
  | _, _ =>
    if Identifier.isStart c then identifierPiece false c cs
    else if c.isDigit || (c == '.' && Lexeme.isDigitNext cs) then numberPiece c cs
    else markPiece c cs

/-- The step that begins with a character. Where no token stands before it on its line, a
hash begins a directive. -/
def piece (fresh : Bool) (c : Char) (cs : List Char) : Piece :=
  if Text.isBlank c then .skip cs
  else if c == '#' && fresh then .skip (Lexeme.afterLine cs)
  else if c == '/' && cs.head? == some '/' then .skip (Lexeme.afterLine cs)
  else if c == '/' && cs.head? == some '*' then commentPiece (cs.drop 1)
  else tokenPiece c cs

theorem markPiece_suffix (c : Char) (cs : List Char) : (markPiece c cs).rest <:+ cs := by
  simp only [markPiece]
  split
  · exact List.drop_suffix _ _
  · exact List.suffix_refl _

theorem tokenPiece_suffix (c : Char) (cs : List Char) : (tokenPiece c cs).rest <:+ cs := by
  unfold tokenPiece
  split
  · exact Lexeme.quoted_suffix ..
  · exact Lexeme.quoted_suffix ..
  · exact (Lexeme.verbatim_suffix _).trans (List.suffix_cons ..)
  · exact (Lexeme.verbatim_suffix _).trans ⟨['$', '"'], rfl⟩
  · exact (Lexeme.quoted_suffix ..).trans (List.suffix_cons ..)
  · exact (Lexeme.verbatim_suffix _).trans ⟨['@', '"'], rfl⟩
  · split
    · exact (Lexeme.name_suffix _).trans (List.suffix_cons ..)
    · exact markPiece_suffix ..
  · split
    · exact Lexeme.name_suffix _
    · split
      · exact Lexeme.numberRest_suffix ..
      · exact markPiece_suffix ..

theorem piece_suffix (fresh : Bool) (c : Char) (cs : List Char) :
    (piece fresh c cs).rest <:+ cs := by
  unfold piece
  split
  · exact List.suffix_refl _
  · split
    · exact Lexeme.afterLine_suffix _
    · split
      · exact Lexeme.afterLine_suffix _
      · split
        · exact (Lexeme.afterComment_suffix _).trans (List.drop_suffix _ _)
        · exact tokenPiece_suffix ..

def lineEnds (cs : List Char) : Nat := cs.count '\n'

def scan (line : Nat) (fresh : Bool) : List Char → List Token × List Diagnostic
  | [] => ([⟨.done, line⟩], [])
  | c :: cs =>
    have := (piece_suffix fresh c cs).length_le
    let p := piece fresh c cs
    let passed := lineEnds (c :: cs) - lineEnds p.rest
    let (tokens, diagnostics) :=
      scan (line + passed) (p.kind.isNone && (fresh || 0 < passed)) p.rest
    (match p.kind with
      | some kind => ⟨kind, line⟩ :: tokens
      | none => tokens,
     p.flaws.map (Flaw.onLine line) ++ diagnostics)
termination_by cs => cs.length

/-- The tokens of a source text. The last of them, and no other, is its end. -/
def ofSource (source : String) : List Token × List Diagnostic := scan 1 true source.toList

end DataClasses.Token
