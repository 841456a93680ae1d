import DataClasses.Diagnostic
import DataClasses.Identifier.Basic
import DataClasses.Text.Basic

/-!
# Lexemes

The longest beginnings of a text that are comments, identifiers, numbers and literals. Each
function returns what it found and the text behind it, which is an end of the text it was
given.
-/

set_option autoImplicit false

namespace DataClasses.Lexeme

inductive Flaw where
  | newlineInConstant
  | unknownEscape
  | emptyCharacter
  | longCharacter
  | openComment
  | openString
  | strayCharacter (c : Char)
  deriving DecidableEq, Repr

def Flaw.code : Flaw → String
  | newlineInConstant => "CS1010"
  | unknownEscape => "CS1009"
  | emptyCharacter => "CS1011"
  | longCharacter => "CS1012"
  | openComment => "CS1035"
  | openString => "CS1039"
  | strayCharacter _ => "CS1056"

def Flaw.message : Flaw → String
  | newlineInConstant => "Newline in constant"
  | unknownEscape => "Unrecognized escape sequence"
  | emptyCharacter => "Empty character literal"
  | longCharacter => "Too many characters in character literal"
  | openComment => "End-of-file found, '*/' expected"
  | openString => "Unterminated string literal"
  | strayCharacter c => "Unexpected character '" ++ String.singleton c ++ "'"

def Flaw.onLine (line : Nat) (flaw : Flaw) : Diagnostic := .error flaw.code flaw.message line

def afterLine (cs : List Char) : List Char := cs.dropWhile (· != '\n')

theorem afterLine_suffix (cs : List Char) : afterLine cs <:+ cs := List.dropWhile_suffix _

def afterComment : List Char → Bool × List Char
  | [] => (false, [])
  | '*' :: '/' :: cs => (true, cs)
  | _ :: cs => afterComment cs

theorem afterComment_suffix (cs : List Char) : (afterComment cs).2 <:+ cs := by
  fun_induction afterComment cs with
  | case1 => exact List.suffix_refl _
  | case2 cs => exact ⟨['*', '/'], rfl⟩
  | case3 c cs _ ih => exact ih.trans (List.suffix_cons c cs)

def name (cs : List Char) : List Char × List Char :=
  (cs.takeWhile Identifier.isPart, cs.dropWhile Identifier.isPart)

theorem name_suffix (cs : List Char) : (name cs).2 <:+ cs := List.dropWhile_suffix _

def isDigitNext : List Char → Bool
  | c :: _ => c.isDigit
  | [] => false

/-- The rest of a number, behind the character `before`. A point belongs to it before a
digit, and a sign behind the exponent mark of a number that is not hexadecimal. -/
def numberRest (hex : Bool) : Char → List Char → List Char × List Char
  | _, [] => ([], [])
  | before, c :: cs =>
    let sign := (c == '+' || c == '-') && (before == 'e' || before == 'E') && !hex
    if c.isAlphanum || c == '_' || (c == '.' && isDigitNext cs) || sign then
      let (text, rest) := numberRest hex c cs
      (c :: text, rest)
    else ([], c :: cs)

theorem numberRest_suffix (hex : Bool) (before : Char) (cs : List Char) :
    (numberRest hex before cs).2 <:+ cs := by
  induction cs generalizing before with
  | nil => exact List.suffix_refl _
  | cons c cs ih =>
    simp only [numberRest]
    split
    · exact (ih c).trans (List.suffix_cons c cs)
    · exact List.suffix_refl _

def isHexadecimal (c : Char) (cs : List Char) : Bool :=
  c == '0' && (cs.head? == some 'x' || cs.head? == some 'X')

/-- The character of up to `most` hexadecimal digits, if there are `least` and they are a
code point. -/
def hexEscape (least most : Nat) (cs : List Char) : Option Char × List Char :=
  let digits := (cs.take most).takeWhile Text.isHexDigit
  let rest := cs.drop digits.length
  if digits.length < least then (none, rest)
  else
    match Text.hexNumber? digits with
    | some n => (if n.isValidChar then some (Char.ofNat n) else none, rest)
    | none => (none, rest)

def simpleEscape? (c : Char) : Option Char :=
  match c with
  | '\'' => some '\''
  | '"' => some '"'
  | '\\' => some '\\'
  | '0' => some '\x00'
  | 'a' => some '\x07'
  | 'b' => some '\x08'
  | 'f' => some '\x0c'
  | 'n' => some '\n'
  | 'r' => some '\r'
  | 't' => some '\t'
  | 'v' => some '\x0b'
  | _ => none

/-- The character of an escape, behind its backslash `c` stands for the first of it. -/
def escape (c : Char) (cs : List Char) : Option Char × List Char :=
  match c with
  | 'u' => hexEscape 4 4 cs
  | 'U' => hexEscape 8 8 cs
  | 'x' => hexEscape 1 4 cs
  | _ => (simpleEscape? c, cs)

theorem hexEscape_suffix (least most : Nat) (cs : List Char) :
    (hexEscape least most cs).2 <:+ cs := by
  simp only [hexEscape]
  split
  · exact List.drop_suffix _ _
  · split <;> exact List.drop_suffix _ _

theorem escape_suffix (c : Char) (cs : List Char) : (escape c cs).2 <:+ cs := by
  simp only [escape]
  split
  · exact hexEscape_suffix ..
  · exact hexEscape_suffix ..
  · exact hexEscape_suffix ..
  · exact List.suffix_refl _

structure Body where
  value : List Char
  flaws : List Flaw
  closed : Bool
  rest : List Char

def Body.push (c : Char) (b : Body) : Body := { b with value := c :: b.value }
def Body.flawed (f : Flaw) (b : Body) : Body := { b with flaws := f :: b.flaws }

def quoted (quote : Char) : List Char → Body
  | [] => ⟨[], [.newlineInConstant], false, []⟩
  | c :: cs =>
    if c == '\n' || c == '\r' then ⟨[], [.newlineInConstant], false, c :: cs⟩
    else if c == quote then ⟨[], [], true, cs⟩
    else if c == '\\' then
      match cs with
      | [] => ⟨[], [.newlineInConstant], false, []⟩
      | d :: ds =>
        have := (escape_suffix d ds).length_le
        let tail := quoted quote (escape d ds).2
        match (escape d ds).1 with
        | some e => tail.push e
        | none => tail.flawed .unknownEscape
    else (quoted quote cs).push c
termination_by cs => cs.length

theorem quoted_suffix (quote : Char) (cs : List Char) : (quoted quote cs).rest <:+ cs := by
  fun_induction quoted quote cs with
  | case1 => exact List.suffix_refl _
  | case2 => exact List.suffix_refl _
  | case3 => exact List.suffix_cons ..
  | case4 => exact List.nil_suffix
  | case5 c _ _ _ d ds _ _ _ _ ih | case6 c _ _ _ d ds _ _ _ ih =>
    exact ih.trans ((escape_suffix d ds).trans
      ((List.suffix_cons d ds).trans (List.suffix_cons c _)))
  | case7 c cs _ _ _ ih => exact ih.trans (List.suffix_cons c cs)

def verbatim : List Char → Body
  | [] => ⟨[], [.openString], false, []⟩
  | '"' :: '"' :: cs => (verbatim cs).push '"'
  | '"' :: cs => ⟨[], [], true, cs⟩
  | c :: cs => (verbatim cs).push c

theorem verbatim_suffix (cs : List Char) : (verbatim cs).rest <:+ cs := by
  fun_induction verbatim cs with
  | case1 => exact List.suffix_refl _
  | case2 cs ih => exact ih.trans ⟨['"', '"'], rfl⟩
  | case3 cs _ => exact List.suffix_cons '"' cs
  | case4 c cs _ _ ih => exact ih.trans (List.suffix_cons c cs)

def characterFlaws (b : Body) : List Flaw :=
  if !b.closed then b.flaws
  else
    match b.value with
    | [] => b.flaws ++ [.emptyCharacter]
    | [_] => b.flaws
    | _ => b.flaws ++ [.longCharacter]

def marks : List String :=
  ["<<=", ">>=", "??=", "...", "=>", "::", "??", "?.", "==", "!=", "<=", ">=", "&&", "||",
   "++", "--", "+=", "-=", "*=", "/=", "%=", "&=", "|=", "^=", "<<", "\x7b", "\x7d", "(", ")",
   "[", "]", ";", ",", ".", ":", "?", "=", "<", ">", "+", "-", "*", "/", "%", "&", "|",
   "!", "~", "^"]

def mark? (cs : List Char) : Option String := marks.find? fun m => m.toList.isPrefixOf cs

end DataClasses.Lexeme
