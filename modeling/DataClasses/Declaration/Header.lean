import DataClasses.Declaration.Name

/-!
# Reading the heads of declarations

Attributes, modifiers, type parameters, constraints and parameters.
-/

set_option autoImplicit false

namespace DataClasses.Parse

def modifierWords : List String :=
  ["public", "private", "protected", "internal", "static", "abstract", "sealed", "readonly",
   "virtual", "override", "new", "extern", "unsafe", "volatile", "const", "fixed"]

/-- Words that are modifiers only before another identifier. -/
def contextualWords : List String := ["partial", "async", "required", "file", "ref"]

def parameterWords : List String := ["ref", "out", "in", "params", "this", "scoped"]

structure Leading where
  attributes : List Attribute
  modifiers : List String

def Cursor.atModifier (c : Cursor) : Bool :=
  (c.ahead 0).isOneOf modifierWords ||
    ((c.ahead 1).isIdentifier && (c.ahead 0).isOneOf contextualWords)

/-- The first argument of an attribute, if it is a text alone. -/
def Cursor.textArgument? (c : Cursor) : Option String :=
  match (c.ahead 0).kind with
  | .text value => if (c.ahead 1).isAnyMark [",", ")"] then some value else none
  | _ => none

def oneAttribute : Parse Attribute := do
  let line := (← current).line
  let name ← dottedName
  if ← eatMark "(" then
    let argument := (← get).textArgument?
    skipArguments
    pure ⟨name, argument, line⟩
  else pure ⟨name, none, line⟩

def attributeTarget? : Parse (Option String) := do
  let c ← get
  if (c.ahead 0).isIdentifier && (c.ahead 1).isMark ":" then
    skip 2
    pure (c.ahead 0).identifier?
  else pure none

def attributeSection : Parse (Option String × List Attribute) := do
  skip 1
  let target ← attributeTarget?
  let attributes ← loop id (fun acc => do
    let acc := acc ++ [← oneAttribute]
    if ← eatMark "," then
      if ← atMark "]" then pure (.done acc) else pure (.again acc)
    else pure (.done acc)) []
  let _ ← expectMark "]" .closeBracketExpected
  pure (target, attributes)

/-- The attributes before a declaration. Those of the assembly or module are left out. -/
def attributes : Parse (List Attribute) :=
  loop id (fun acc => do
    if ← atMark "[" then
      let (target, attributes) ← attributeSection
      pure (.again (if target == some "assembly" || target == some "module" then acc
        else acc ++ attributes))
    else pure (.done acc)) []

def nextModifier (acc : List String) : Parse (Round (List String) (List String)) := do
  let c ← get
  if c.atModifier then
    skip 1
    pure (.again (acc ++ (c.ahead 0).identifier?.toList))
  else pure (.done acc)

def modifiers : Parse (List String) := loop id nextModifier []

def leading : Parse Leading := do
  let attributes ← attributes
  let modifiers ← modifiers
  pure ⟨attributes, modifiers⟩

def skipAttributes : Parse Unit :=
  loop id (fun _ => do
    if ← atMark "[" then
      let _ ← attributeSection
      pure (.again ())
    else pure (.done ())) ()

def typeParameters : Parse (List String) := do
  skip 1
  let names ← commaList (do
    skipAttributes
    if (← current).isOneOf ["in", "out"] then skip 1
    expectName)
  let _ ← expectMark ">" .closeAngleExpected
  pure names

def typeParameters? : Parse (List String) := do
  if ← atMark "<" then typeParameters else pure []

def skipConstraints : Parse Unit := do
  if ← atWord "where" then
    skip ((← get).rest.takeWhile fun t => !t.isAnyMark [openBrace, ";", "=>"]).length

def skipParameterWords : Parse Unit := do
  skip ((← get).rest.takeWhile fun t => t.isOneOf parameterWords).length

def nextParameter (acc : List Parameter) :
    Parse (Round (List Parameter) (List Parameter)) := do
  if ← eatMark "," then pure (.again acc)
  else
    let _ ← expectMark ")" .closeParenExpected
    pure (.done acc)

def oneParameter (type : Parse (Option TypeExpr)) (acc : List Parameter) :
    Parse (Round (List Parameter) (List Parameter)) := do
  if ← eatMark ")" then pure (.done acc)
  else if ← atEnd then
    report .closeParenExpected (← current).line
    pure (.done acc)
  else
    let lead ← leading
    skipParameterWords
    let line := (← current).line
    match ← type with
    | none =>
      skipExpression [",", ")"]
      nextParameter acc
    | some t =>
      let name := (← expectName).getD ""
      if ← eatMark "=" then skipExpression [",", ")"]
      nextParameter (acc ++ [⟨lead.attributes, t, name, line⟩])

def parameters (type : Parse (Option TypeExpr)) : Parse (List Parameter) := do
  skip 1
  loop id (oneParameter type) []

def parameters? (type : Parse (Option TypeExpr)) : Parse (List Parameter) := do
  if ← atMark "(" then parameters type else pure []

end DataClasses.Parse
