import DocBridge.Text

/- Environment variables in texts, written `$name` or with braces around the name. -/
namespace DocBridge

/-- Variables and their values; the first of a name counts. -/
abbrev Environment := List (Text × Text)

namespace Environment

def get (env : Environment) (name : Text) : Text := (env.lookup name).getD []

def isSpecial (b : UInt8) : Bool := Text.isDigit b || Text.containsByte b "*#$@!?-"

def isNameByte (b : UInt8) : Bool := b == 0x5F || Text.isDigit b || Text.isLetter b

inductive Reference where
  | named (name : Text) (width : Nat)
  | dropped (width : Nat)
  | none

def reference (s : Text) : Reference :=
  match s with
  | [] => .none
  | b :: rest =>
    if b == 0x7B then
      match rest with
      | c :: d :: _ =>
        if isSpecial c && d == 0x7D then .named [c] 3 else braced rest
      | _ => braced rest
    else if isSpecial b then .named [b] 1
    else
      let name := s.takeWhile isNameByte
      if name.isEmpty then .none else .named name name.length
where
  braced (rest : Text) : Reference :=
    let name := rest.takeWhile (· != 0x7D)
    if name.length == rest.length then .dropped 1
    else if name.isEmpty then .dropped 2
    else .named name (name.length + 2)

/- `skip` counts the bytes of the last reference that are still to be passed over. -/
def expandFrom (env : Environment) : Nat → Text → Text
  | _, [] => []
  | skip + 1, _ :: rest => expandFrom env skip rest
  | 0, b :: rest =>
    if b == 0x24 then
      match reference rest with
      | .named name width => env.get name ++ expandFrom env width rest
      | .dropped width => expandFrom env width rest
      | .none => b :: expandFrom env 0 rest
    else b :: expandFrom env 0 rest

def namesFrom : Nat → Text → List Text
  | _, [] => []
  | skip + 1, _ :: rest => namesFrom skip rest
  | 0, b :: rest =>
    if b == 0x24 then
      match reference rest with
      | .named name width => name :: namesFrom width rest
      | .dropped width => namesFrom width rest
      | .none => namesFrom 0 rest
    else namesFrom 0 rest

def names (s : Text) : List Text := namesFrom 0 s

/-- Replaces references by values. Values are not expanded again. -/
def expand (env : Environment) (s : Text) : Text := expandFrom env 0 s

end Environment
end DocBridge
