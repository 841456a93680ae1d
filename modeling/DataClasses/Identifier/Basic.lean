import DataClasses.Identifier.Letters
import DataClasses.Identifier.Marks
import DataClasses.Text.Basic

/-!
# Identifiers and reserved words

An identifier begins with `_` or a letter and goes on with letters, digits, marks and
connectors. ASCII is decided by cases and the rest of Unicode by tables. The reserved words
of C# cannot name anything unless `@` stands before them.
-/

set_option autoImplicit false

namespace DataClasses.Identifier

def isStart (c : Char) : Bool :=
  if c.toNat < 128 then c.isAlpha || c == '_' else Text.inRanges Letters.ranges c.toNat

/-- Whether a character may continue an identifier but not begin one. -/
def isMark (c : Char) : Bool :=
  if c.toNat < 128 then c.isDigit else Text.inRanges Marks.ranges c.toNat

def isPart (c : Char) : Bool := isStart c || isMark c

theorem isPart_of_isStart {c : Char} (h : isStart c = true) : isPart c = true := by
  simp [isPart, h]

def isIdentifier : List Char → Bool
  | [] => false
  | c :: cs => isStart c && cs.all isPart

def keywords : List String :=
  ["abstract", "as", "base", "bool", "break", "byte", "case", "catch", "char", "checked",
   "class", "const", "continue", "decimal", "default", "delegate", "do", "double", "else",
   "enum", "event", "explicit", "extern", "false", "finally", "fixed", "float", "for",
   "foreach", "goto", "if", "implicit", "in", "int", "interface", "internal", "is", "lock",
   "long", "namespace", "new", "null", "object", "operator", "out", "override", "params",
   "private", "protected", "public", "readonly", "ref", "return", "sbyte", "sealed", "short",
   "sizeof", "stackalloc", "static", "string", "struct", "switch", "this", "throw", "true",
   "try", "typeof", "uint", "ulong", "unchecked", "unsafe", "ushort", "using", "virtual",
   "void", "volatile", "while"]

def isKeyword (name : String) : Bool := keywords.contains name

end DataClasses.Identifier
