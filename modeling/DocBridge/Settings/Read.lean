import DocBridge.Settings.Check
import DocBridge.Settings.Expand
import DocBridge.Yaml.Value

/-
Reading settings from YAML. Unknown and repeated fields are refused, and a null leaves its field at
zero.
-/
namespace DocBridge.Settings

inductive ReadError where
  | malformed (p : Yaml.Problem)
  | unknownField (name : Text)
  | mistyped
  | rejected (p : Problem)
  deriving DecidableEq, Repr

def ReadError.message : ReadError → Text
  | .malformed p => p.message
  | .unknownField name => "yaml: field " ++ name ++ " not found"
  | .mistyped => "yaml: cannot unmarshal value"
  | .rejected p => p.message

def value : Yaml.Node → Except ReadError Yaml.Value
  | .scalar tag style text => (Yaml.scalarValue tag style text).mapError .malformed
  | _ => .error .mistyped

def text? (n : Yaml.Node) : Except ReadError (Option Text) := do
  match n, ← value n with
  | _, .null => return none
  | .scalar _ _ text, _ => return some text
  | _, _ => throw .mistyped

def text (n : Yaml.Node) : Except ReadError Text := do return (← text? n).getD []

def leastInt : Int := -9223372036854775808

def greatestInt : Int := 9223372036854775807

def intOfFloat (x : Float) : Except ReadError Int :=
  if x ≤ 9223372036854775808.0 then
    .ok (if x < -9223372036854775808.0 || 9223372036854775808.0 ≤ x then leastInt
      else x.toInt64.toInt)
  else .error .mistyped

def int (n : Yaml.Node) : Except ReadError Int := do
  match ← value n with
  | .null => return 0
  | .int n => if n ≤ greatestInt then return n else throw .mistyped
  | .float x => intOfFloat x
  | _ => throw .mistyped

def trueWords : List Text := ["y", "Y", "yes", "on"]

def falseWords : List Text := ["n", "N", "no", "off"]

def bool (n : Yaml.Node) : Except ReadError Bool := do
  match ← value n with
  | .null => return false
  | .bool b => return b
  | .text t =>
    if trueWords.contains t then return true
    else if falseWords.contains t then return false
    else throw .mistyped
  | _ => throw .mistyped

/-- The fields of a mapping; a null has none, and a field under a null key is passed over. -/
def fields (n : Yaml.Node) : Except ReadError (List (Text × Yaml.Node)) := do
  match n with
  | .mapping pairs =>
    let pairs ← (Yaml.Node.entries pairs).mapError .malformed
    let named ← pairs.mapM fun (k, v) => do return (← text? k).map fun name => (name, v)
    return named.filterMap id
  | _ =>
    match ← value n with
    | .null => return []
    | _ => throw .mistyped

def items (n : Yaml.Node) : Except ReadError (List Yaml.Node) := do
  match n with
  | .sequence items => items.filterM fun item => do return !(← isNull item)
  | _ =>
    match ← value n with
    | .null => return []
    | _ => throw .mistyped
where
  isNull (item : Yaml.Node) : Except ReadError Bool := do
    match item with
    | .scalar _ _ _ =>
      match ← value item with
      | .null => return true
      | _ => return false
    | _ => return false

def record {α : Type} (setField : α → Text → Yaml.Node → Except ReadError α) (start : α)
    (n : Yaml.Node) : Except ReadError α := do
  (← fields n).foldlM (fun a (name, v) => setField a name v) start

def setLookahead (l : Lookahead) (name : Text) (v : Yaml.Node) : Except ReadError Lookahead := do
  match Utf8.toString name with
  | "min_offset" => return { l with min := ← int v }
  | "max_offset" => return { l with max := ← int v }
  | _ => throw (.unknownField name)

def setQuery (q : SeparatorQuery) (name : Text) (v : Yaml.Node) :
    Except ReadError SeparatorQuery := do
  match Utf8.toString name with
  | "name" => return { q with name := ← text v }
  | "query" => return { q with query := ← text v }
  | "attribute" => return { q with attr := ← text v }
  | _ => throw (.unknownField name)

def setPage (p : PageSettings) (name : Text) (v : Yaml.Node) : Except ReadError PageSettings := do
  match Utf8.toString name with
  | "extension" => return { p with extension := ← text v }
  | "source_suffix" => return { p with sourceSuffix := ← text v }
  | "lenient" => return { p with lenient := ← bool v }
  | "preserve_whitespace" => return { p with preserveWhitespace := ← bool v }
  | "namespaces" =>
    return { p with namespaces := ← (← fields v).mapM fun (k, v) => do return (k, ← text v) }
  | "separator_queries" =>
    return { p with separatorQueries := ← (← items v).mapM (record setQuery {}) }
  | "link_query" => return { p with linkQuery := ← text v }
  | "manual_link_pattern" => return { p with manualLinkPattern := ← text v }
  | "manual_link_suffix" => return { p with manualLinkSuffix := ← text v }
  | "metrics_file" => return { p with metricsFile := ← text v }
  | _ => throw (.unknownField name)

def setFilter (l : Lookahead) (name : Text) (v : Yaml.Node) : Except ReadError Lookahead := do
  match Utf8.toString name with
  | "var_lookahead" => record setLookahead l v
  | _ => throw (.unknownField name)

def setTop (s : Settings) (name : Text) (v : Yaml.Node) : Except ReadError Settings := do
  match Utf8.toString name with
  | "filter" => return { s with lookahead := ← record setFilter s.lookahead v }
  | "fixhtml" => return { s with pages := ← record setPage s.pages v }
  | _ => throw (.unknownField name)

def decode (yaml : Text) : Except ReadError Settings := do
  match ← (Yaml.document yaml).mapError .malformed with
  | none => return {}
  | some n => record setTop {} n

def read (env : Environment) (yaml : Text) : Except ReadError Settings := do
  let s := (← decode (env.expand yaml)).orDefault
  s.check.mapError .rejected
  return s

end DocBridge.Settings
