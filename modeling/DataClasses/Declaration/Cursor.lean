import DataClasses.Diagnostic
import DataClasses.Text.Rounds
import DataClasses.Token.Basic

/-!
# Moving over tokens

The tokens that are left, and steps that move over them and report what is wrong. Behind
the last token stands the end, however far one looks.
-/

set_option autoImplicit false

namespace DataClasses.Parse

/-- The tokens before the end, the line of the end, the line of the token that was passed
last, and the reports so far with the latest first. -/
structure Cursor where
  rest : List Token
  endLine : Nat
  last : Nat := 1
  reports : List Diagnostic := []

end Parse

abbrev Parse := StateM Parse.Cursor

namespace Parse

inductive Fault where
  | semicolonExpected
  | nameExpected
  | typeExpected
  | openBraceExpected
  | closeBraceExpected
  | openParenExpected
  | closeParenExpected
  | closeBracketExpected
  | closeAngleExpected
  | misplaced
  | lateImport
  | invalidMember (spelling : String)
  | returnTypeMissing
  | accessorExpected
  | accessorBodyExpected
  | tooDeep
  deriving DecidableEq, Repr

def Fault.code : Fault → String
  | semicolonExpected => "CS1002"
  | nameExpected => "CS1001"
  | typeExpected => "CS1031"
  | openBraceExpected => "CS1514"
  | closeBraceExpected => "CS1513"
  | openParenExpected => "CS1003"
  | closeParenExpected => "CS1026"
  | closeBracketExpected => "CS1003"
  | closeAngleExpected => "CS1003"
  | misplaced => "CS1022"
  | lateImport => "CS1529"
  | invalidMember _ => "CS1519"
  | returnTypeMissing => "CS1520"
  | accessorExpected => "CS1014"
  | accessorBodyExpected => "CS1043"
  | tooDeep => "CS8078"

def Fault.message : Fault → String
  | semicolonExpected => "; expected"
  | nameExpected => "Identifier expected"
  | typeExpected => "Type expected"
  | openBraceExpected => "\x7b expected"
  | closeBraceExpected => "\x7d expected"
  | openParenExpected => "Syntax error, '(' expected"
  | closeParenExpected => ") expected"
  | closeBracketExpected => "Syntax error, ']' expected"
  | closeAngleExpected => "Syntax error, '>' expected"
  | misplaced => "Type or namespace definition, or end-of-file expected"
  | lateImport =>
    "A using clause must precede all other elements defined in the namespace except extern alias declarations"
  | invalidMember spelling =>
    "Invalid token '" ++ spelling ++
      "' in class, record, struct, or interface member declaration"
  | returnTypeMissing => "Method must have a return type"
  | accessorExpected => "A get or set accessor expected"
  | accessorBodyExpected => "\x7b or ; expected"
  | tooDeep => "An expression is too long or complex to compile"

def openBrace : String := "\x7b"
def closeBrace : String := "\x7d"

def Cursor.ahead (c : Cursor) (n : Nat) : Token := c.rest[n]?.getD ⟨.done, c.endLine⟩

def Cursor.drop (c : Cursor) (n : Nat) : Cursor :=
  { c with
    rest := c.rest.drop n
    last := ((c.rest.take n).getLast?.map Token.line).getD c.last }

def ahead (n : Nat) : Parse Token := return (← get).ahead n

def current : Parse Token := ahead 0

def skip (n : Nat) : Parse Unit := modify (·.drop n)

def advance : Parse Token := do
  let t ← current
  skip 1
  pure t

def Fault.onLine (line : Nat) (fault : Fault) : Diagnostic := .error fault.code fault.message line

def report (fault : Fault) (line : Nat) : Parse Unit :=
  modify fun c => { c with reports := fault.onLine line :: c.reports }

/-- Reports a fault on the line of the token that was passed last. -/
def reportBehind (fault : Fault) : Parse Unit := do report fault (← get).last

def atMark (mark : String) : Parse Bool := return (← current).isMark mark

def atWord (word : String) : Parse Bool := return (← current).isWord word

def atEnd : Parse Bool := return (← current).isDone

def eatMark (mark : String) : Parse Bool := do
  if ← atMark mark then
    skip 1
    pure true
  else pure false

def eatWord (word : String) : Parse Bool := do
  if ← atWord word then
    skip 1
    pure true
  else pure false

def expectMark (mark : String) (fault : Fault) : Parse Bool := do
  if ← eatMark mark then pure true
  else
    reportBehind fault
    pure false

def expectSemicolon : Parse Unit := do
  let _ ← expectMark ";" .semicolonExpected

def expectName : Parse (Option String) := do
  let t ← current
  match t.name? with
  | some name =>
    skip 1
    pure (some name)
  | none =>
    report .nameExpected t.line
    pure none

def loop {σ α : Type} (close : σ → α) (round : σ → Parse (Round σ α)) (x : σ) : Parse α :=
  fun c =>
    rounds (fun y : σ × Cursor => y.2.rest.length)
      (fun y => (close y.1, y.2))
      (fun y =>
        match round y.1 y.2 with
        | (.done a, d) => .done (a, d)
        | (.again z, d) => .again (z, d))
      (x, c)

def nextItem {α : Type} (item : Parse (Option α)) (acc : List α) :
    Parse (Round (List α) (List α)) := do
  let acc := acc ++ (← item).toList
  if ← eatMark "," then pure (.again acc) else pure (.done acc)

def commaList {α : Type} (item : Parse (Option α)) : Parse (List α) := loop id (nextItem item) []

end DataClasses.Parse
