import DataClasses.Identifier.Basic
import DataClasses.Text.Basic
import DataClasses.Text.Upper

/-!
# Names for members and classes

An arbitrary key becomes an identifier by `sanitize`; `capitalize`, `singular` and
`escape` give the spelling of a member, of the class of a list's elements, and of a
name in source text.
-/

set_option autoImplicit false

namespace DataClasses.Identifier

def replaceEntities : List Char → List Char
  | '&' :: 'n' :: 'b' :: 's' :: 'p' :: ';' :: cs => '_' :: replaceEntities cs
  | c :: cs => c :: replaceEntities cs
  | [] => []

/-- A run of blanks becomes one underscore, as does each character that no identifier
has. The flag says that a blank stood before. -/
def maskForeign : Bool → List Char → List Char
  | _, [] => []
  | afterBlank, c :: cs =>
    if Text.isBlank c then
      if afterBlank then maskForeign true cs else '_' :: maskForeign true cs
    else (if isPart c then c else '_') :: maskForeign false cs

def startSafely : List Char → List Char
  | [] => []
  | c :: cs => if isStart c then c :: cs else "Prop_".toList ++ c :: cs

/-- The identifier made from a key. An empty key has the name `EmptyProperty`, and one
that no letter begins is led by `Prop_`. -/
def sanitize (key : String) : String :=
  if key.isEmpty then "EmptyProperty"
  else String.ofList (startSafely (maskForeign false (replaceEntities key.toList)))

def capitalizeFirst : List Char → List Char
  | [] => []
  | c :: cs => Text.upperChar c :: cs

def capitalize (enabled : Bool) (name : String) : String :=
  if enabled then String.ofList (capitalizeFirst name.toList) else name

/-- The name for one element of a list: a final `s` is dropped, unless it is the whole
name; any other name gets `Item` behind it. -/
def singular (name : String) : String :=
  match name.toList.reverse with
  | 's' :: c :: cs => String.ofList (c :: cs).reverse
  | _ => name ++ "Item"

def escape (name : String) : String :=
  if isKeyword name then "@" ++ name else name

end DataClasses.Identifier
