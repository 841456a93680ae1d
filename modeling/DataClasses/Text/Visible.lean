import DataClasses.Text.Basic
import DataClasses.Text.Hidden

/-!
# Text made visible

A text between quotes in which every character shows: those that do not are written by
their code point.
-/

set_option autoImplicit false

namespace DataClasses.Text

def isHidden (c : Char) : Bool :=
  let n := c.toNat
  if n < 128 then n < 32 || n == 127 else inRanges Hidden.ranges n

def showChar (c : Char) : List Char :=
  match c with
  | '"' => ['\\', '"']
  | '\\' => ['\\', '\\']
  | '\n' => ['\\', 'n']
  | '\r' => ['\\', 'r']
  | '\t' => ['\\', 't']
  | '\x00' => ['\\', '0']
  | _ =>
    if isHidden c then "\\u\x7b".toList ++ Nat.toDigits 16 c.toNat ++ ['\x7d'] else [c]

def visible (text : String) : String :=
  String.ofList ('"' :: text.toList.flatMap showChar ++ ['"'])

end DataClasses.Text
