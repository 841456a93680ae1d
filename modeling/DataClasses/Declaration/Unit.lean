import DataClasses.Declaration.Member
import DataClasses.Token.Scan

/-!
# Reading whole sources

Imports, namespaces and the types in them. Reading never stops at a fault: it is reported
and reading goes on where the next declaration may begin.
-/

set_option autoImplicit false

namespace DataClasses

namespace Parse

def Cursor.atImport (c : Cursor) : Bool :=
  (c.ahead 0).isWord "using" || ((c.ahead 0).isWord "global" && (c.ahead 1).isWord "using")

def shortName? : Parse (Option String) := do
  let c ← get
  if (c.ahead 0).isName && (c.ahead 1).isMark "=" then
    skip 2
    pure (c.ahead 0).name?
  else pure none

def importDecl (type : Parse (Option TypeExpr)) : Parse Import := do
  let isGlobal ← eatWord "global"
  let line := (← advance).line
  let isStatic ← eatWord "static"
  let shortName ← shortName?
  let target ← dottedName
  if ← atMark "<" then
    let _ ← typeArguments type
  expectSemicolon
  pure ⟨target, shortName, isStatic, isGlobal, line⟩

def nextImport (type : Parse (Option TypeExpr)) (acc : List Import) :
    Parse (Round (List Import) (List Import)) := do
  if (← get).atImport then
    let i ← importDecl type
    pure (.again (acc ++ [i]))
  else pure (.done acc)

def imports (type : Parse (Option TypeExpr)) : Parse (List Import) := loop id (nextImport type) []

def Cursor.atDeclaration (c : Cursor) : Bool :=
  (c.ahead 0).isDone || (c.ahead 0).isAnyMark [closeBrace, "["] ||
    (c.ahead 0).isOneOf ["namespace", "delegate"] || c.atImport || c.atTypeWord || c.atModifier

def skipBlockOrToken : Parse Unit := do
  if ← atMark openBrace then skipBlock else skip 1

def recover : Parse Unit := do
  report .misplaced (← current).line
  skipBlockOrToken
  loop id (fun _ => do
    if (← get).atDeclaration then pure (.done ())
    else
      skipBlockOrToken
      pure (.again ())) ()

structure Inner where
  type : Parse (Option TypeExpr)
  typeDecl : Leading → Parse (TypeHead × List Member)
  scope : Parse Declaration

def declaration (inner : Inner) (enclosed : Bool) (acc : List Declaration) :
    Parse (Round (List Declaration) (List Declaration)) := do
  let c ← get
  let t := c.ahead 0
  if t.isDone then
    if enclosed then report .closeBraceExpected t.line
    pure (.done acc)
  else if t.isMark closeBrace then
    if enclosed then pure (.done acc)
    else
      report .misplaced t.line
      skip 1
      pure (.again acc)
  else if t.isWord "namespace" then
    let d ← inner.scope
    pure (.again (acc ++ [d]))
  else if c.atImport then
    report .lateImport t.line
    let _ ← importDecl inner.type
    pure (.again acc)
  else if t.isWord "extern" && (c.ahead 1).isWord "alias" then
    skipMember
    pure (.again acc)
  else
    let lead ← leading
    let d ← get
    if (d.ahead 0).isWord "delegate" then
      skipMember
      pure (.again acc)
    else if d.atTypeWord then
      let (head, members) ← inner.typeDecl lead
      pure (.again (acc ++ [.type head members]))
    else if d.rest.length < c.rest.length && (d.ahead 0).isDone then pure (.again acc)
    else
      recover
      pure (.again acc)

def declarations (inner : Inner) (enclosed : Bool) : Parse (List Declaration) :=
  loop id (declaration inner enclosed) []

def scopeBody (inner : Inner) (name : DottedName) (line : Nat) : Parse Declaration := do
  if ← eatMark ";" then
    let is ← imports inner.type
    let members ← declarations inner false
    pure (.scope ⟨name, is, true, line⟩ members)
  else
    let _ ← expectMark openBrace .openBraceExpected
    let is ← imports inner.type
    let members ← declarations inner true
    let _ ← expectMark closeBrace .closeBraceExpected
    let _ ← eatMark ";"
    pure (.scope ⟨name, is, false, line⟩ members)

def scope : Nat → Parse Declaration
  | 0 => do
    let line := (← advance).line
    let name ← dottedName
    report .tooDeep line
    skipMember
    let _ ← eatMark ";"
    pure (.scope ⟨name, [], false, line⟩ [])
  | room + 1 => do
    let line := (← advance).line
    let name ← dottedName
    scopeBody ⟨typeExpr room, typeDecl room, scope room⟩ name line

def sourceUnit : Parse SourceUnit := do
  let is ← imports (typeExpr depthLimit)
  let members ← declarations ⟨typeExpr depthLimit, typeDecl depthLimit, scope depthLimit⟩ false
  pure ⟨is, members⟩

def start (tokens : List Token) : Cursor :=
  { rest := tokens.dropLast, endLine := (tokens.getLast?.map Token.line).getD 1 }

end Parse

/-- The declarations of a source text and what is wrong with it, first about its tokens
and then about their order. -/
def SourceUnit.ofSource (source : String) : SourceUnit × List Diagnostic :=
  let (tokens, diagnostics) := Token.ofSource source
  let (u, c) := Parse.sourceUnit.run (Parse.start tokens)
  (u, diagnostics ++ c.reports.reverse)

end DataClasses
