import DataClasses.Identifier.Basic

/-!
# Tokens

The words, literals and marks of C# source, each with the line it begins on.
-/

set_option autoImplicit false

namespace DataClasses

/-- What a token is. A verbatim identifier is one with `@` before it, and a text is the
value of a string literal. -/
inductive TokenKind where
  | identifier (text : String) (verbatim : Bool)
  | text (value : String)
  | character
  | number (text : String)
  | mark (text : String)
  | done
  deriving DecidableEq, Repr

structure Token where
  kind : TokenKind
  line : Nat
  deriving DecidableEq, Repr

namespace Token

def identifier? (t : Token) : Option String :=
  match t.kind with
  | .identifier text _ => some text
  | _ => none

def isIdentifier (t : Token) : Bool := t.identifier?.isSome

def isWord (t : Token) (word : String) : Bool := t.kind == .identifier word false

def isOneOf (t : Token) (words : List String) : Bool := words.any t.isWord

def isMark (t : Token) (mark : String) : Bool := t.kind == .mark mark

def isAnyMark (t : Token) (marks : List String) : Bool := marks.any t.isMark

def isDone (t : Token) : Bool := t.kind == .done

/-- The name that an identifier can give: any but a reserved word without `@`. -/
def name? (t : Token) : Option String :=
  match t.kind with
  | .identifier text verbatim =>
    if verbatim || !Identifier.isKeyword text then some text else none
  | _ => none

def isName (t : Token) : Bool := t.name?.isSome

def spelling (t : Token) : String :=
  match t.kind with
  | .identifier text verbatim => if verbatim then "@" ++ text else text
  | .text _ => "string literal"
  | .character => "character literal"
  | .number text => text
  | .mark text => text
  | .done => "end of file"

end Token
end DataClasses
