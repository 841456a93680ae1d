import DataClasses.Diagnostic

/-!
# Failures

Why a request cannot be met, in the words and with the number that callers see.
-/

set_option autoImplicit false

namespace DataClasses

inductive FileFault where
  | notFound
  | alreadyExists
  | notDirectory
  | isDirectory
  | notText
  | other (message : String)
  deriving DecidableEq, Repr

def FileFault.message : FileFault → String
  | notFound => "No such file or directory (os error 2)"
  | alreadyExists => "File exists (os error 17)"
  | notDirectory => "Not a directory (os error 20)"
  | isDirectory => "Is a directory (os error 21)"
  | notText => "stream did not contain valid UTF-8"
  | other message => message

inductive Failure where
  | invalidInput (message : String)
  | environment (message : String)
  | compilation (diagnostics : List Diagnostic) (report : String)
  | reference (path message : String)
  | moduleFault (message : String)
  | file (fault : FileFault)
  deriving DecidableEq, Repr

namespace Failure

def message : Failure → String
  | invalidInput message => "invalid input: " ++ message
  | environment message => "environment error: " ++ message
  | compilation _ report => report
  | reference path message => "invalid reference " ++ path ++ ": " ++ message
  | moduleFault message => "module error: " ++ message
  | file fault => "I/O error: " ++ fault.message

def number : Failure → Nat
  | invalidInput _ => 1
  | environment _ => 2
  | compilation _ _ => 3
  | reference _ _ => 4
  | moduleFault _ => 5
  | file _ => 6

def diagnostics : Failure → List Diagnostic
  | compilation ds _ => ds
  | _ => []

end Failure
end DataClasses
