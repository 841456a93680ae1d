import DataClasses.Declaration.Header

/-!
# Reading types and their members

Type declarations with their fields, properties, methods, constructors and values. Of a
body only the end is looked for.
-/

set_option autoImplicit false

namespace DataClasses.Parse

def accessorWords : List String := ["get", "set", "init", "add", "remove"]

def Cursor.atTypeWord (c : Cursor) : Bool :=
  (c.ahead 0).isOneOf ["class", "struct", "interface", "enum"] ||
    ((c.ahead 0).isWord "record" &&
      ((c.ahead 1).isName || (c.ahead 1).isOneOf ["class", "struct"]))

def Cursor.canStartType (c : Cursor) : Bool :=
  (c.ahead 0).isMark "(" || (c.ahead 0).isOneOf predefinedTypes || (c.ahead 0).isName || c.atRoot

def skipStatement : Parse Unit := do
  skipExpression [";", closeBrace]
  expectSemicolon

def skipBody : Parse Unit := do
  if ← atMark openBrace then skipBlock
  else if ← eatMark "=>" then skipStatement
  else expectSemicolon

def skipAccessorBody : Parse Unit := do
  if ← eatMark ";" then pure ()
  else if ← atMark openBrace then skipBlock
  else if ← eatMark "=>" then skipStatement
  else reportBehind .accessorBodyExpected

def nextAccessor (acc : List String) : Parse (Round (List String) (List String)) := do
  if ← eatMark closeBrace then pure (.done acc)
  else if ← atEnd then
    report .closeBraceExpected (← current).line
    pure (.done acc)
  else
    let _ ← leading
    let t ← current
    match accessorWords.find? t.isWord with
    | none =>
      report .accessorExpected t.line
      skip 1
      pure (.again acc)
    | some word =>
      skip 1
      skipAccessorBody
      pure (.again (acc ++ [word]))

def accessors : Parse (List String) := do
  skip 1
  loop id nextAccessor []

def initialValue : Parse Unit := do
  if ← eatMark "=" then skipInitializer

def nextDeclarator (acc : List String) : Parse (Round (List String) (List String)) := do
  initialValue
  if ← eatMark "," then
    match ← expectName with
    | some name => pure (.again (acc ++ [name]))
    | none => pure (.done acc)
  else pure (.done acc)

def declarators (first : String) : Parse (List String) := do
  let names ← loop id nextDeclarator [first]
  expectSemicolon
  pure names

def enumValues : Parse (List Member) :=
  loop id (fun acc => do
    if (← atMark closeBrace) || (← atEnd) then pure (.done acc)
    else
      let lead ← leading
      let line := (← current).line
      match ← expectName with
      | none =>
        skip 1
        pure (.again acc)
      | some name =>
        if ← eatMark "=" then skipExpression [",", closeBrace]
        let acc := acc ++ [Member.enumValue ⟨lead.attributes, name, line⟩]
        if ← eatMark "," then pure (.again acc) else pure (.done acc)) []

def constructor (type : Parse (Option TypeExpr)) (lead : Leading) : Parse Member := do
  let t ← advance
  let ps ← parameters type
  if ← eatMark ":" then
    skip 1
    if ← eatMark "(" then skipArguments
  skipBody
  pure (.constructor
    ⟨lead.attributes, lead.modifiers, none, t.identifier?.getD "", [], ps, t.line⟩)

/-- The name of a member; of a name with dots, the last part. -/
def memberName (first : String) : Parse String :=
  loop id (fun name => do
    let c ← get
    if (c.ahead 0).isMark "." && (c.ahead 1).isName then
      skip 2
      pure (.again ((c.ahead 1).name?.getD ""))
    else pure (.done name)) first

def methodParameters (type : Parse (Option TypeExpr)) : Parse (List Parameter) := do
  if ← atMark "(" then parameters type
  else
    reportBehind .openParenExpected
    pure []

def method (type : Parse (Option TypeExpr)) (lead : Leading) (returns : TypeExpr)
    (name : String) : Parse Member := do
  let tps ← typeParameters?
  let ps ← methodParameters type
  skipConstraints
  skipBody
  pure (.method ⟨lead.attributes, lead.modifiers, some returns, name, tps, ps, returns.line⟩)

def typedMember (type : Parse (Option TypeExpr)) (lead : Leading) (t : TypeExpr)
    (name : String) : Parse Member := do
  if (← current).isAnyMark ["(", "<"] then method type lead t name
  else if ← atMark openBrace then
    let words ← accessors
    if ← eatMark "=" then skipStatement
    pure (.property ⟨lead.attributes, lead.modifiers, t, name, words, false, t.line⟩)
  else if ← eatMark "=>" then
    skipStatement
    pure (.property ⟨lead.attributes, lead.modifiers, t, name, ["get"], true, t.line⟩)
  else
    let names ← declarators name
    pure (.field ⟨lead.attributes, lead.modifiers, t, names, t.line⟩)

/-- The name of a method whose return type is missing: a type of one plain name before a
list of parameters. -/
def bareName? : TypeExpr → Option String
  | .named [(name, [])] _ _ => some name
  | _ => none

def namedMember (type : Parse (Option TypeExpr)) (lead : Leading) (t : TypeExpr) :
    Parse (Option Member) := do
  match ← expectName with
  | none =>
    skipMember
    pure none
  | some first =>
    let name ← memberName first
    some <$> typedMember type lead t name

def memberOfType (type : Parse (Option TypeExpr)) (lead : Leading) (t : TypeExpr) :
    Parse (Option Member) := do
  let c ← get
  match bareName? t, (c.ahead 0).isMark "(" with
  | some name, true =>
    report .returnTypeMissing t.line
    let ps ← parameters type
    skipBody
    pure (some (.method ⟨lead.attributes, lead.modifiers, none, name, [], ps, t.line⟩))
  | _, _ =>
    if (c.ahead 0).isWord "operator" || ((c.ahead 0).isWord "this" && (c.ahead 1).isMark "[") then
      skipMember
      pure none
    else namedMember type lead t

def memberFromType (type : Parse (Option TypeExpr)) (lead : Leading) : Parse (Option Member) := do
  match ← type with
  | none => pure none
  | some t => memberOfType type lead t

def member (type : Parse (Option TypeExpr)) (nested : Leading → Parse (TypeHead × List Member))
    (typeName : String) : Parse (Option Member) := do
  let lead ← leading
  let c ← get
  let t := c.ahead 0
  if c.atTypeWord then
    let (head, members) ← nested lead
    pure (some (.nested head members))
  else if t.isOneOf ["event", "delegate", "implicit", "explicit"] || t.isMark "~" then
    skipMember
    pure none
  else if t.identifier? == some typeName && (c.ahead 1).isMark "(" then
    some <$> constructor type lead
  else if !c.canStartType then
    report (.invalidMember t.spelling) t.line
    skip 1
    pure none
  else memberFromType type lead

/-- One step over the members of a type. A member that moves over nothing gives way to the
token it stands at. -/
def nextMember (item : Parse (Option Member)) (acc : List Member) :
    Parse (Round (List Member) (List Member)) := do
  let c ← get
  if (c.ahead 0).isDone || (c.ahead 0).isMark closeBrace then pure (.done acc)
  else if (c.ahead 0).isMark ";" then
    skip 1
    pure (.again acc)
  else
    let found ← item
    if (← get).rest.length == c.rest.length then skip 1
    pure (.again (acc ++ found.toList))

def members (item : Parse (Option Member)) : Parse (List Member) := loop id (nextMember item) []

def typeKind : Parse TypeKind := do
  let t ← advance
  match t.identifier? with
  | some "struct" => pure .struct
  | some "interface" => pure .interface
  | some "enum" => pure .enum
  | some "record" =>
    if !(← eatWord "class") then
      let _ ← eatWord "struct"
    pure .record
  | _ => pure .plainClass

def baseItem (type : Parse (Option TypeExpr)) : Parse (Option TypeExpr) := do
  let t ← type
  if ← eatMark "(" then skipArguments
  pure t

def baseTypes (type : Parse (Option TypeExpr)) : Parse (List TypeExpr) := commaList (baseItem type)

def baseTypes? (type : Parse (Option TypeExpr)) : Parse (List TypeExpr) := do
  if ← eatMark ":" then baseTypes type else pure []

def bracedMembers (kind : TypeKind) (item : Parse (Option Member)) : Parse (List Member) := do
  if ← expectMark openBrace .openBraceExpected then
    let inside ← if kind == .enum then enumValues else members item
    let _ ← expectMark closeBrace .closeBraceExpected
    pure inside
  else pure []

def typeBody (kind : TypeKind) (item : Parse (Option Member)) : Parse (List Member) := do
  if ← eatMark ";" then pure []
  else
    let inside ← bracedMembers kind item
    let _ ← eatMark ";"
    pure inside

def typeDeclWith (type : Parse (Option TypeExpr))
    (nested : Leading → Parse (TypeHead × List Member)) (lead : Leading) :
    Parse (TypeHead × List Member) := do
  let line := (← current).line
  let kind ← typeKind
  let name := (← expectName).getD ""
  let tps ← typeParameters?
  let ps ← parameters? type
  let bases ← baseTypes? type
  skipConstraints
  let inside ← typeBody kind (member type nested name)
  pure (⟨kind, name, tps, lead.modifiers, lead.attributes, bases, ps, line⟩, inside)

/-- A type declaration for which there is room. One without is reported and passed over,
and has no name. -/
def typeDecl : Nat → Leading → Parse (TypeHead × List Member)
  | 0 => fun lead => do
    let line := (← current).line
    report .tooDeep line
    skipMember
    let _ ← eatMark ";"
    pure (⟨.plainClass, "", [], lead.modifiers, lead.attributes, [], [], line⟩, [])
  | room + 1 => typeDeclWith (typeExpr room) (typeDecl room)

end DataClasses.Parse
