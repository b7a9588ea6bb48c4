import DocBridge.Comment.Rule
import DocBridge.Fault
import DocBridge.Token.Stream

/-
Which rules a doc comment goes through, and the search for the variable that a `@var` comment
documents.
-/
namespace DocBridge

/-- Offsets, relative to the comment, at which the documented variable is searched. White space
counts as a token, so 4 fits `public $x` after the comment and 6 fits `public static $x`. -/
structure Lookahead where
  min : Int := 4
  max : Int := 6
  deriving DecidableEq, Repr

structure Rule where
  name : Text
  apply : Text → Text

namespace Dialect

def commonRules : List Rule :=
  [⟨"namespace_separator", Rule.namespaceSeparators⟩,
    ⟨"property_link", Rule.propertyLinks⟩,
    ⟨"inline_url_link", Rule.inlineUrlLinks⟩,
    ⟨"block_url_link", Rule.blockUrlLinks⟩]

def headerRules : List Rule :=
  [⟨"file_command", Rule.fileCommand⟩, ⟨"license", Rule.licenseCommand⟩]

def typedArrayVarRule : Rule := ⟨"typed_array_var", Rule.typedArrayVars⟩

def varNameRule (variableName : Text) : Rule := ⟨"var_name", Rule.annotateVar variableName⟩

def memberRules : List Rule :=
  [⟨"typed_array_param", Rule.typedArrayParams⟩,
    ⟨"internal", Rule.internalCommand⟩,
    ⟨"property", Rule.properties⟩,
    ⟨"property_read", Rule.readOnlyProperties⟩,
    ⟨"return", Rule.returns⟩,
    ⟨"inheritdoc", Rule.inheritdoc⟩]

def rules (variableName : Text) : List Rule :=
  commonRules ++ headerRules ++ [typedArrayVarRule, varNameRule variableName] ++ memberRules

def ruleNames : List Text := (rules []).map Rule.name

def rule? (name variableName : Text) : Option Rule := (rules variableName).find? (·.name == name)

def applyRules (rules : List Rule) (text : Text) : Text :=
  rules.foldl (fun text rule => rule.apply text) text

/-- The first variable among `tokens`, and the line of the last token before it that is not a
bare character. `line` is zero until such a token has been seen. -/
def firstVariable (line : Nat) : List Token → Option Token × Nat
  | [] => (none, line)
  | t :: rest =>
    if t.kind = .char then firstVariable line rest
    else if t.kind = .variableName then (some t, line)
    else firstVariable t.line rest

def resolveVariable (c : Cursor) (l : Lookahead) : Option Token × Nat :=
  firstVariable 0 (c.window l.min l.max)

def notFound (line : Nat) : Fault where
  category := .lookup
  severity := .warning
  message := "Variable not found"
  context := if line = 0 then [] else [(Log.Key.line, .int line)]

/-- The text of the doc comment at `c` for Doxygen. If a `@var` comment's variable is not found,
the member rules are left out and a warning is given. -/
def comment (l : Lookahead) (headerPassed : Bool) (c : Cursor) (text : Text) :
    Text × Option Fault :=
  let text := applyRules commonRules text
  if headerPassed then
    if Text.contains "@var" text then
      let text := Rule.typedArrayVars text
      match resolveVariable c l with
      | (some variableToken, _) =>
        (applyRules memberRules (Rule.annotateVar variableToken.text text), none)
      | (none, line) => (text, some (notFound line))
    else (applyRules memberRules text, none)
  else (applyRules headerRules text, none)

end Dialect
end DocBridge
