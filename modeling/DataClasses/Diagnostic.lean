/-!
# Diagnostics

What a compilation has to say about a line of source, and which of it makes the
compilation fail.
-/

set_option autoImplicit false

namespace DataClasses

inductive Severity where
  | hidden
  | info
  | warning
  | error
  deriving DecidableEq, Repr

namespace Severity

def all : List Severity := [hidden, info, warning, error]

def name : Severity → String
  | hidden => "hidden"
  | info => "info"
  | warning => "warning"
  | error => "error"

def rank : Severity → Nat
  | hidden => 0
  | info => 1
  | warning => 2
  | error => 3

def ofName? (name : String) : Option Severity := all.find? (·.name == name)

def worst? : List Severity → Option Severity
  | [] => none
  | s :: rest =>
    match worst? rest with
    | none => some s
    | some t => some (if t.rank ≤ s.rank then s else t)

end Severity

structure Diagnostic where
  code : String
  message : String
  severity : Severity
  line : Nat
  warningAsError : Bool := false
  deriving DecidableEq, Repr

namespace Diagnostic

def error (code message : String) (line : Nat) : Diagnostic := ⟨code, message, .error, line, false⟩

/-- Errors make a compilation fail, and so do warnings that count as errors. -/
def isFailure (d : Diagnostic) : Bool := d.severity == .error || d.warningAsError

def missingNameCodes : List String := ["CS0012", "CS0246", "CS0234"]

def isMissingName (d : Diagnostic) : Bool := missingNameCodes.contains d.code

def text (d : Diagnostic) : String :=
  "[" ++ d.code ++ "] " ++ d.message ++ " (line " ++ toString d.line ++ ")"

end Diagnostic
end DataClasses
