import DataClasses.Files.Tree
import DataClasses.Settings.Shape
import DataClasses.Toml.Printer
import DataClasses.Toml.Shape

/-!
# Settings from text and files

Settings from TOML text, and their text. A file with the extension `json` holds settings in JSON,
and any other in TOML.
-/

set_option autoImplicit false

namespace DataClasses.Settings

def ofToml (text : String) : Except Failure Settings :=
  match Toml.read schema text with
  | .ok v => .ok (ofJson v)
  | .error fault => .error (.invalidInput ("invalid settings TOML: " ++ fault.message))

def toToml (s : Settings) : String := Toml.ofEntries (toJson s).entries

def load (files : Files) (path : String) : Except Failure Settings :=
  match files.readText path with
  | .error fault => .error (.file fault)
  | .ok text => if Path.extension? path == some "json" then ofJsonText text else ofToml text

end DataClasses.Settings
