import DataClasses.Declaration.Cursor

/-!
# Passing over code

How many tokens belong to the parts of source that are not looked into: blocks,
expressions, arguments, and members and types of unknown form.
-/

set_option autoImplicit false

namespace DataClasses.Parse

def isOpener (t : Token) : Bool := t.isAnyMark ["(", "[", openBrace]
def isCloser (t : Token) : Bool := t.isAnyMark [")", "]", closeBrace]

def blockLength : Nat → List Token → Nat × Bool
  | _, [] => (0, false)
  | depth, t :: ts =>
    if t.isMark openBrace then
      let (n, closed) := blockLength (depth + 1) ts
      (n + 1, closed)
    else if t.isMark closeBrace then
      match depth with
      | 0 => (1, true)
      | depth + 1 =>
        let (n, closed) := blockLength depth ts
        (n + 1, closed)
    else
      let (n, closed) := blockLength depth ts
      (n + 1, closed)

/-- The tokens of an expression before a mark that ends it, or before a bracket that
closes what was not opened in it. -/
def expressionLength (stops : List String) : Nat → List Token → Nat
  | _, [] => 0
  | depth, t :: ts =>
    if depth == 0 && t.isAnyMark stops then 0
    else if isOpener t then expressionLength stops (depth + 1) ts + 1
    else if isCloser t then
      match depth with
      | 0 => 0
      | depth + 1 => expressionLength stops depth ts + 1
    else expressionLength stops depth ts + 1

inductive Ending where
  | closed
  | stray (line : Nat)
  | atEnd

/-- The tokens up to a closing bracket, which is included, and how they end. -/
def closedLength (close : String) : Nat → List Token → Nat × Ending
  | _, [] => (0, .atEnd)
  | depth, t :: ts =>
    if depth == 0 && t.isMark close then (1, .closed)
    else if isOpener t then
      let (n, ending) := closedLength close (depth + 1) ts
      (n + 1, ending)
    else if isCloser t then
      match depth with
      | 0 => (0, .stray t.line)
      | depth + 1 =>
        let (n, ending) := closedLength close depth ts
        (n + 1, ending)
    else
      let (n, ending) := closedLength close depth ts
      (n + 1, ending)

def typeLength : Nat → List Token → Nat
  | _, [] => 0
  | depth, t :: ts =>
    if t.isAnyMark ["<", "(", "["] then typeLength (depth + 1) ts + 1
    else if t.isAnyMark [">", ")", "]"] then
      match depth with
      | 0 => 0
      | depth + 1 => typeLength depth ts + 1
    else if depth == 0 && t.isAnyMark [",", ";", openBrace, closeBrace, "=", "=>"] then 0
    else typeLength depth ts + 1

def skipBlock : Parse Unit := do
  skip 1
  let c ← get
  let (n, closed) := blockLength 0 c.rest
  skip n
  if !closed then report .closeBraceExpected c.endLine

def skipExpression (stops : List String) : Parse Unit := do
  skip (expressionLength stops 0 (← get).rest)

def skipArguments : Parse Unit := do
  let c ← get
  let (n, ending) := closedLength ")" 0 c.rest
  skip n
  match ending with
  | .closed => pure ()
  | .stray line => report .closeParenExpected line
  | .atEnd => report .closeParenExpected c.endLine

def skipType : Parse Unit := do skip (typeLength 0 (← get).rest)

def startsDeclarator (c : Cursor) : Bool :=
  (c.ahead 1).isName && (c.ahead 2).isAnyMark ["=", ",", ";"]

/-- One step over an initial value: up to a mark that may end it, and on if the mark does not. -/
def nextInitial (_ : Unit) : Parse (Round Unit Unit) := do
  skipExpression [";", ",", closeBrace]
  if !(← atMark ",") || startsDeclarator (← get) then pure (.done ())
  else
    skip 1
    pure (.again ())

def skipInitializer : Parse Unit := loop id nextInitial ()

/-- One step over a member. The number counts the brackets that are open, braces apart. -/
def passed (depth : Nat) : Parse (Round Nat Unit) := do
  let t ← current
  if t.isDone then pure (.done ())
  else if depth == 0 && t.isMark ";" then
    skip 1
    pure (.done ())
  else if depth == 0 && t.isMark closeBrace then pure (.done ())
  else if depth == 0 && t.isMark openBrace then
    skipBlock
    if ← atMark "=" then pure (.again 0) else pure (.done ())
  else
    skip 1
    pure (.again (if t.isAnyMark ["(", "["] then depth + 1
      else if t.isAnyMark [")", "]"] then depth - 1 else depth))

def skipMember : Parse Unit := loop (fun _ => ()) passed 0

end DataClasses.Parse
