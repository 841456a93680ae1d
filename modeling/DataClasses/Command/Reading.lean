import DataClasses.Command.Switch
import DataClasses.Entries

/-!
# Reading a command line

A switch is written in full behind two dashes or as one letter behind one dash, and letters
may share their dash. Its value is the next argument, or stands behind an equals sign or
right behind its letter. A value is looked at only when something follows on it, so that
faults are found in the order in which they are written.
-/

set_option autoImplicit false

namespace DataClasses

/-- What has been read: the switches with their values, the last switch with the value that
it may have got, and whether two dashes have ended the switches. -/
structure Reading where
  given : Entries (List String) := []
  pending : Option (Switch × Option String) := none
  onlyValues : Bool := false

namespace Reading

def values (r : Reading) (long : String) : List String := (r.given.get? long).getD []

def value? (r : Reading) (long : String) : Option String := (r.values long).head?

def isOn (r : Reading) (long : String) : Bool := r.given.has long

def accept (r : Reading) (s : Switch) (value : String) (kind : ValueKind) (once : Bool) :
    Except Stop Reading :=
  if once && r.isOn s.long then .error (.repeated s.shown)
  else
    match kind.refusal? s.shown value with
    | some stop => .error stop
    | none => .ok { r with given := r.given.put s.long (r.values s.long ++ [value]) }

def take (r : Reading) (s : Switch) (value : Option String) : Except Stop Reading :=
  match s.kind, value with
  | .ending stop, _ => .error stop
  | .flag, _ =>
    if r.isOn s.long then .error (.repeated s.shown)
    else .ok { r with given := r.given.put s.long [] }
  | .counter, _ => .ok { r with given := r.given.put s.long [] }
  | .single kind, some v => r.accept s v kind true
  | .several kind, some v => r.accept s v kind false
  | _, none => .error (.noValue s.shown)

def settle (r : Reading) : Except Stop Reading :=
  match r.pending with
  | none => .ok r
  | some (s, value) => take { r with pending := none } s value

def next (r : Reading) (s : Switch) (attached : Option String) : Except Stop Reading :=
  r.settle.bind fun r =>
    if s.takesValue && attached.isNone then .ok { r with pending := some (s, none) }
    else r.take s attached

def long (switches : List Switch) (r : Reading) (written : List Char) : Except Stop Reading :=
  let name := String.ofList (written.takeWhile (· != '='))
  let attached := match written.dropWhile (· != '=') with
    | [] => none
    | _ :: value => some (String.ofList value)
  match switches.find? (·.long == name) with
  | none => .error (.unexpected ("--" ++ name))
  | some s =>
    match attached with
    | some value =>
      if s.takesValue then r.next s attached else .error (.unneededValue value s.shown)
    | none => r.next s none

def attachedTo : List Char → Option String
  | [] => none
  | '=' :: value => some (String.ofList value)
  | value => some (String.ofList value)

def letters (switches : List Switch) : Reading → List Char → Except Stop Reading
  | r, [] => .ok r
  | r, c :: rest =>
    match switches.find? (·.short == some c) with
    | none => .error (.unexpected (String.ofList ['-', c]))
    | some s =>
      if s.takesValue then r.next s (attachedTo rest)
      else (r.next s none).bind fun r => letters switches r rest

def plain (r : Reading) (stray : String → Stop) (argument : String) : Except Stop Reading :=
  match r.pending with
  | some (s, none) => .ok { r with pending := some (s, some argument) }
  | _ => .error (stray argument)

def step (switches : List Switch) (stray : String → Stop) (r : Reading) (argument : String) :
    Except Stop Reading :=
  if r.onlyValues then .error (stray argument)
  else
    match argument.toList with
    | ['-', '-'] => .ok { r with onlyValues := true }
    | '-' :: '-' :: written => r.long switches written
    | '-' :: c :: rest => letters switches r (c :: rest)
    | _ => r.plain stray argument

def finish (switches : List Switch) (r : Reading) : Except Stop Reading :=
  r.settle.bind fun r =>
    match switches.filter fun s => s.required && !r.isOn s.long with
    | [] => .ok r
    | missing => .error (.missing (missing.map Switch.shown))

end Reading
end DataClasses
