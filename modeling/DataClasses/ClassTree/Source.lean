import DataClasses.ClassTree.Basic
import DataClasses.Identifier.Naming
import DataClasses.Settings.Basic
import DataClasses.Text.Basic

/-!
# Source text of a class tree

The C# source of the classes of a tree, line by line, in one namespace.
-/

set_option autoImplicit false

namespace DataClasses.ClassTree

def baseImports : List String :=
  ["System", "System.Collections.Generic", "System.Runtime.Serialization",
   "System.ComponentModel", "System.Linq"]

def typeText : MemberType → String
  | .primitive kind => kind.spelling
  | .classNamed name => Identifier.escape name
  | .listOf element => typeText element ++ "[]"

def classIndent : String := "    "
def memberIndent : String := "        "

def line (indent text : String) : String := indent ++ text ++ "\n"

def summary (indent text : String) : String :=
  line indent "/// <summary>" ++ line indent ("/// " ++ text) ++ line indent "/// </summary>"

def annotation (settings : Settings) (p : Property) : String :=
  line memberIndent
    ("[" ++ settings.library.keyAttribute ++ "(" ++ Text.quote p.key ++ ")]")

def declaration (settings : Settings) (p : Property) : String :=
  line memberIndent
    ("public " ++ typeText p.type ++ " " ++ Identifier.escape p.name ++
      (if settings.accessors then " \x7b get; set; \x7d" else ";"))

def propertyText (settings : Settings) (p : Property) : String :=
  (if settings.annotations then annotation settings p else "") ++
    (if settings.documentation then summary memberIndent ("Property " ++ p.name) else "") ++
    declaration settings p

def constructorText (c : ClassShape) : String :=
  line memberIndent ("public " ++ Identifier.escape c.name ++ "()") ++
    line memberIndent "\x7b" ++ line memberIndent "\x7d"

def members (settings : Settings) (c : ClassShape) : List String :=
  (if settings.constructors then [constructorText c] else []) ++
    c.properties.map (propertyText settings)

def classText (settings : Settings) (c : ClassShape) : String :=
  (if settings.documentation then summary classIndent ("Represents " ++ c.name) else "") ++
    line classIndent ("public class " ++ Identifier.escape c.name) ++
    line classIndent "\x7b" ++ "\n".intercalate (members settings c) ++
    line classIndent "\x7d" ++ "\n"

def importText (name : String) : String := line "" ("using " ++ name ++ ";")

def source (tree : ClassTree) (settings : Settings) : String :=
  String.join ((baseImports ++ settings.library.namespaces).map importText) ++ "\n" ++
    line "" ("namespace " ++ settings.container) ++ line "" "\x7b" ++
    String.join (tree.classes.map (classText settings)) ++ line "" "\x7d"

end DataClasses.ClassTree
