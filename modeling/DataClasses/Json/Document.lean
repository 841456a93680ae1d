import DataClasses.Json.Numeral
import DataClasses.Json.Quoted

/-!
# JSON documents

The value of a JSON text. Lists and objects may stand in each other up to a depth of
127. The parts of lists and objects are readers of their own, since values of a known
shape are made of the same parts.
-/

set_option autoImplicit false

namespace DataClasses.Json

open Reader

def word : List Char → Reader Unit
  | [] => pure ()
  | c :: cs => do
    match ← peek? with
    | none => failHere .endInValue
    | some d =>
      if d == c then
        skip
        word cs
      else failNext .expectedIdent

def depthLimit : Nat := 127

def hasElement (first : Bool) : Reader Bool := do
  match ← next? with
  | none => failNext .endInList
  | some ']' => pure false
  | some c =>
    if first then pure true
    else if c == ',' then
      skip
      match ← next? with
      | some ']' => failNext .trailingComma
      | some _ => pure true
      | none => failNext .endInValue
    else failNext .expectedListComma

def endList : Reader Unit := do
  match ← next? with
  | some ']' => skip
  | some ',' =>
    skip
    match ← next? with
    | some ']' => failNext .trailingComma
    | _ => failNext .trailingCharacters
  | some _ => failNext .trailingCharacters
  | none => failNext .endInList

def hasKey (first : Bool) : Reader Bool := do
  match ← next? with
  | none => failNext .endInObject
  | some '}' => pure false
  | some c =>
    if first then
      if c == '"' then pure true else failNext .keyNotText
    else if c == ',' then
      skip
      match ← next? with
      | some '"' => pure true
      | some '}' => failNext .trailingComma
      | some _ => failNext .keyNotText
      | none => failNext .endInValue
    else failNext .expectedObjectComma

def endObject : Reader Unit := do
  match ← next? with
  | some '}' => skip
  | some ',' => failNext .trailingComma
  | some _ => failNext .trailingCharacters
  | none => failNext .endInObject

def key : Reader String := do
  skip
  quotedRest

def colon : Reader Unit := do
  match ← next? with
  | some ':' => skip
  | some _ => failNext .expectedColon
  | none => failNext .endInObject

def listRest (element : Reader Json) : Reader Json :=
  loop (fun acc => .arr acc.reverse) (fun acc => do
    if ← hasElement acc.isEmpty then
      pure (.again ((← element) :: acc))
    else
      endList
      pure (.done (.arr acc.reverse))) []

def objectRest (element : Reader Json) : Reader Json :=
  loop (fun x => .obj x.2) (fun x => do
    if ← hasKey x.1 then
      let k ← key
      colon
      let v ← element
      pure (.again (false, Entries.put x.2 k v))
    else
      endObject
      pure (.done (.obj x.2))) (true, ([] : Entries Json))

def nested (inner : Option (Reader Json)) (rest : Reader Json → Reader Json) :
    Reader Json := do
  match inner with
  | none => failNext .tooDeep
  | some element =>
    skip
    rest element

def valueWith (inner : Option (Reader Json)) : Reader Json := do
  match ← next? with
  | none => failNext .endInValue
  | some 'n' => skip; word "ull".toList; pure .null
  | some 't' => skip; word "rue".toList; pure (.bool true)
  | some 'f' => skip; word "alse".toList; pure (.bool false)
  | some '"' => skip; return .str (← quotedRest)
  | some '[' => nested inner listRest
  | some '{' => nested inner objectRest
  | some c => if c == '-' || c.isDigit then number else failNext .expectedValue

def value : Nat → Reader Json
  | 0 => valueWith none
  | room + 1 => valueWith (some (value room))

def atEnd : Reader Unit := do
  match ← next? with
  | none => pure ()
  | some _ => failNext .trailingCharacters

def readAll {α : Type} (reader : Reader α) (text : String) : Except Fault α :=
  ((do let a ← reader; atEnd; pure a : Reader α) { rest := text.toList }).map (·.1)

def parse (text : String) : Except Fault Json := readAll (value depthLimit) text

end DataClasses.Json
