import DataClasses.Declaration.Basic
import DataClasses.Declaration.Skip

/-!
# Reading names and types

Dotted names and types. Types may be nested, and every namespace, type declaration and
type around a type takes from the room that is left for it.
-/

set_option autoImplicit false

namespace DataClasses.Parse

def depthLimit : Nat := 128

def predefinedTypes : List String :=
  ["bool", "byte", "char", "decimal", "double", "float", "int", "long", "object", "sbyte",
   "short", "string", "uint", "ulong", "ushort", "void"]

def Cursor.atRoot (c : Cursor) : Bool := (c.ahead 0).isWord "global" && (c.ahead 1).isMark "::"

def Cursor.atSeparator (c : Cursor) : Bool := (c.ahead 0).isAnyMark [".", "::"]

def nextPart (acc : List String) : Parse (Round (List String) (List String)) := do
  let c ← get
  if c.atSeparator && (c.ahead 1).isName then
    skip 2
    pure (.again (acc ++ (c.ahead 1).name?.toList))
  else pure (.done acc)

def dottedName : Parse DottedName := do
  let line := (← current).line
  if (← get).atRoot then skip 2
  match ← expectName with
  | none => pure ⟨[], line⟩
  | some first =>
    let parts ← loop id nextPart [first]
    pure ⟨parts, line⟩

def typeArguments (inner : Parse (Option TypeExpr)) : Parse (List TypeExpr) := do
  skip 1
  let arguments ← commaList inner
  let _ ← expectMark ">" .closeAngleExpected
  pure arguments

def Cursor.isMemberName (c : Cursor) (n : Nat) : Bool :=
  (c.ahead (n + 1)).isAnyMark ["(", openBrace, "=>"]

def typeArguments? (inner : Parse (Option TypeExpr)) : Parse (List TypeExpr) := do
  if ← atMark "<" then typeArguments inner else pure []

/-- Whether a further part of a type's name stands here. A name that a member's list of
parameters or body follows belongs to the member. -/
def Cursor.atPart (c : Cursor) : Bool := c.atSeparator && (c.ahead 1).isName && !c.isMemberName 1

def nextSegment (inner : Parse (Option TypeExpr)) (acc : List (String × List TypeExpr)) :
    Parse (Round (List (String × List TypeExpr)) (List (String × List TypeExpr))) := do
  let name := (← current).name?.getD ""
  skip 1
  let arguments ← typeArguments? inner
  let acc := acc ++ [(name, arguments)]
  if (← get).atPart then
    skip 1
    pure (.again acc)
  else pure (.done acc)

def segments (inner : Parse (Option TypeExpr)) : Parse (List (String × List TypeExpr)) :=
  loop id (nextSegment inner) []

def tupleItem (inner : Parse (Option TypeExpr)) : Parse (Option TypeExpr) := do
  let element ← inner
  if (← current).isName then skip 1
  pure element

def simpleType (inner : Parse (Option TypeExpr)) : Parse (Option TypeExpr) := do
  let c ← get
  let t := c.ahead 0
  if t.isMark "(" then
    skip 1
    let elements ← commaList (tupleItem inner)
    let _ ← expectMark ")" .closeParenExpected
    pure (some (.tuple elements t.line))
  else
    match predefinedTypes.find? t.isWord with
    | some keyword =>
      skip 1
      pure (some (.predefined keyword t.line))
    | none =>
      if t.isName || c.atRoot then
        if c.atRoot then skip 2
        let parts ← segments inner
        pure (some (.named parts c.atRoot t.line))
      else
        report .typeExpected t.line
        pure none

/-- A mark of a list or of a value that may be missing, behind a type. It is kept if there is
room for it; the first one beyond is reported. -/
def suffix (line : Nat) : TypeExpr × Nat × Bool → Parse (Round (TypeExpr × Nat × Bool) TypeExpr)
  | (type, room, reported) => do
    let c ← get
    let isNullable := (c.ahead 0).isMark "?"
    let isArray := (c.ahead 0).isMark "[" && (c.ahead 1).isAnyMark ["]", ","]
    let tooDeep := (isNullable || isArray) && room == 0
    if tooDeep && !reported then report .tooDeep line
    if isNullable then
      skip 1
      pure (.again (if tooDeep then type else .nullable type, room - 1, reported || tooDeep))
    else if isArray then
      skip 1
      let commas := ((← get).rest.takeWhile (·.isMark ",")).length
      skip commas
      let _ ← expectMark "]" .closeBracketExpected
      pure (.again
        (if tooDeep then type else .array type (commas + 1), room - 1, reported || tooDeep))
    else if (c.ahead 0).isMark "*" then
      skip 1
      pure (.again (type, room, reported))
    else pure (.done type)

/-- A type with the marks behind it, of which at most `room` are kept. -/
def suffixes (line room : Nat) (type : TypeExpr) : Parse TypeExpr :=
  loop (fun x => x.1) (suffix line) (type, room, false)

/-- A type for which there is room; none, after a report, where there is no type or no
room for it. -/
def typeExpr : Nat → Parse (Option TypeExpr)
  | 0 => do
    report .tooDeep (← current).line
    skipType
    pure none
  | room + 1 => do
    let line := (← current).line
    match ← simpleType (typeExpr room) with
    | none => pure none
    | some type => some <$> suffixes line room type

end DataClasses.Parse
