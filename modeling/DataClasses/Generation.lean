import DataClasses.ClassTree.Inference
import DataClasses.ClassTree.Source
import DataClasses.Failure
import DataClasses.Json.Document

/-!
# From sample to source

The source text of the classes for a sample document.
-/

set_option autoImplicit false

namespace DataClasses

namespace Sample

def read (text : String) : Except Failure Json :=
  if Text.allBlank text then .error (.invalidInput "JSON input cannot be empty")
  else
    match Json.parse text with
    | .ok v => .ok v
    | .error fault => .error (.invalidInput ("invalid JSON: " ++ fault.message))

def isValid (text : String) : Bool :=
  !Text.allBlank text && (Json.parse text).isOk

end Sample

def classesFor (text : String) (settings : Settings) : Except Failure ClassTree :=
  (Sample.read text).map (ClassTree.ofDocument · settings)

def sourceFor (text : String) (settings : Settings) : Except Failure String :=
  (classesFor text settings).map (ClassTree.source · settings)

end DataClasses
