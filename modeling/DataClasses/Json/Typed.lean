import DataClasses.Json.Document
import DataClasses.Json.Schema

/-!
# Reading text by a schema

A value of a known shape is read straight from its text, so that the first fault in the
text is the one that is reported, whether it is of form or of shape. Fields that the
schema does not know are passed over.
-/

set_option autoImplicit false

namespace DataClasses.Json

open Reader

inductive Enclosing where
  | list
  | object
  deriving DecidableEq, Repr

def Enclosing.closer : Enclosing → Char
  | list => ']'
  | object => '}'

def Enclosing.atEnd : Enclosing → Cause
  | list => .endInList
  | object => .endInObject

def Enclosing.expected : Enclosing → Cause
  | list => .expectedListComma
  | object => .expectedObjectComma

def toValue : Enclosing → Reader Unit
  | .list => pure ()
  | .object => do
    match ← next? with
    | some '"' =>
      skip
      skipQuotedRest
      colon
    | some _ => failNext .keyNotText
    | none => failNext .endInObject

def closeAfter : List Enclosing → Reader (List Enclosing)
  | [] => pure []
  | e :: outer => do
    match ← next? with
    | some ',' =>
      skip
      toValue e
      pure (e :: outer)
    | some c =>
      if c == e.closer then
        skip
        closeAfter outer
      else failNext e.expected
    | none => failNext e.atEnd

def openInto (e : Enclosing) (outer : List Enclosing) : Reader (List Enclosing) := do
  skip
  match ← next? with
  | some c =>
    if c == e.closer then
      skip
      closeAfter outer
    else
      toValue e
      pure (e :: outer)
  | none => failNext e.atEnd

def skipValue : Reader Unit :=
  loop (fun _ => ()) (fun outer => do
    let after ← (do
      match ← next? with
      | none => failNext .endInValue
      | some 'n' => skip; word "ull".toList; closeAfter outer
      | some 't' => skip; word "rue".toList; closeAfter outer
      | some 'f' => skip; word "alse".toList; closeAfter outer
      | some '"' => skip; skipQuotedRest; closeAfter outer
      | some '[' => openInto .list outer
      | some '{' => openInto .object outer
      | some c =>
        if c == '-' || c.isDigit then
          let _ ← numeral .invalidNumber
          closeAfter outer
        else failNext .expectedValue : Reader (List Enclosing))
    pure (if after.isEmpty then .done () else .again after)) []

def foundNumber : Json → Found
  | .integer n => .integer n
  | .float x => .float x.shortestText
  | _ => .null

def found : Reader Found := do
  match ← next? with
  | some 'n' => skip; word "ull".toList; pure .null
  | some 't' => skip; word "rue".toList; pure (.bool true)
  | some 'f' => skip; word "alse".toList; pure (.bool false)
  | some '"' => skip; return .str (← quotedRest)
  | some '[' => pure .sequence
  | some '{' => pure .map
  | some c => if c == '-' || c.isDigit then return foundNumber (← number) else failNext .expectedValue
  | none => failNext .expectedValue

def wrongType {α : Type} (expected : String) : Reader α := do
  let f ← found
  failHere (.mismatch (invalidType f expected))

def textReader (expected : String) : Reader String := do
  match ← next? with
  | none => failNext .endInValue
  | some '"' =>
    skip
    quotedRest
  | some _ => wrongType expected

def flagReader : Reader Json := do
  match ← next? with
  | none => failNext .endInValue
  | some 't' => skip; word "rue".toList; pure (.bool true)
  | some 'f' => skip; word "alse".toList; pure (.bool false)
  | some _ => wrongType "a boolean"

def byteReader : Reader Json := do
  match ← next? with
  | none => failNext .endInValue
  | some c =>
    if c == '-' || c.isDigit then
      match ← number with
      | .integer n =>
        match byteOf n with
        | .ok v => pure v
        | .error message => failHere (.mismatch message)
      | v => failHere (.mismatch (invalidType (foundNumber v) "u8"))
    else wrongType "u8"

def optionalReader (inner : Reader Json) : Reader Json := do
  match ← next? with
  | some 'n' => skip; word "ull".toList; pure .null
  | _ => inner

def nullReader : Reader Unit := do
  match ← next? with
  | none => failNext .endInValue
  | some 'n' => skip; word "ull".toList
  | some _ => wrongType "unit"

def variantName (expected : String) (names : List String) : Reader String := do
  let name ← textReader expected
  if names.contains name then pure name
  else failHere (.mismatch (unknownVariant name names))

/-- One of several names, or an object whose only key is one and whose value is null. -/
def choiceReader (names : List String) : Reader Json := do
  match ← next? with
  | none => failNext .endInValue
  | some '"' => return .str (← variantName "variant identifier" names)
  | some '{' =>
    skip
    let name ← variantName "variant identifier" names
    colon
    nullReader
    match ← next? with
    | some '}' =>
      skip
      pure (.str name)
    | some _ => failHere .expectedValue
    | none => failHere .endInObject
  | some _ => failNext .expectedValue

def listReader (element : Reader Json) : Reader Json := do
  match ← next? with
  | none => failNext .endInValue
  | some '[' =>
    skip
    listRest element
  | some _ => wrongType "a sequence"

def dictionaryReader (element : Reader Json) : Reader Json := do
  match ← next? with
  | none => failNext .endInValue
  | some '{' =>
    skip
    objectRest element
  | some _ => wrongType "a map"

def failBehindObject {α : Type} (message : String) : Reader α := do
  match ← next? with
  | some '}' =>
    skip
    failHere (.mismatch message)
  | _ => failHere (.mismatch message)

def fieldsRest (fields : List (Field (Reader Json))) : Reader (Entries Json) :=
  loop (fun x => x.2) (fun x => do
    if ← hasKey x.1 then
      let k ← key
      match fields.find? (·.name == k) with
      | none =>
        colon
        skipValue
        pure (.again (false, x.2))
      | some f =>
        if Entries.has x.2 k then failBehindObject (duplicateField k)
        else
          colon
          let v ← f.reader
          pure (.again (false, Entries.put x.2 k v))
    else pure (.done x.2)) (true, ([] : Entries Json))

def elementsRest (name : String) (count : Nat) :
    List (Field (Reader Json)) → Nat → Reader (Entries Json)
  | [], _ => pure []
  | f :: fields, i => do
    if ← hasElement (i == 0) then
      let v ← f.reader
      return (f.name, v) :: (← elementsRest name count fields (i + 1))
    else
      match f.fallback with
      | some v => return (f.name, v) :: (← elementsRest name count fields (i + 1))
      | none =>
        skip
        failHere (.mismatch (invalidLength i (recordWithLength name count)))

def recordReader (name : String) (fields : List (Field (Reader Json))) : Reader Json := do
  match ← next? with
  | none => failNext .endInValue
  | some '{' =>
    skip
    let written ← fieldsRest fields
    match fill written fields with
    | .ok all =>
      endObject
      pure (.obj all)
    | .error message => failBehindObject message
  | some '[' =>
    skip
    let all ← elementsRest name fields.length fields 0
    endList
    pure (.obj all)
  | some _ => wrongType (recordText name)

mutual

def Schema.reader : Schema → Reader Json
  | .text => Json.str <$> textReader "a string"
  | .flag => flagReader
  | .byte => byteReader
  | .optional inner => optionalReader inner.reader
  | .choice names => choiceReader names
  | .list element => listReader element.reader
  | .dictionary element => dictionaryReader element.reader
  | .record name fields => recordReader name (fieldReaders fields)

def fieldReaders : List (String × Schema × Option Json) → List (Field (Reader Json))
  | [] => []
  | (name, schema, fallback) :: fields =>
    ⟨name, schema.reader, fallback⟩ :: fieldReaders fields

end

def Schema.parse (schema : Schema) (text : String) : Except Fault Json :=
  readAll schema.reader text

end DataClasses.Json
