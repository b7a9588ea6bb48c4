import DocBridge.Pattern.Written
import DocBridge.Query.Parse
import DocBridge.Settings.Basic

/- Which settings are accepted. -/
namespace DocBridge.Settings

def lookaheadLimit : Int := 32

inductive Problem where
  | minTooSmall (got : Int)
  | maxBelowMin (max min : Int)
  | maxTooLarge (got : Int)
  | blankExtension
  | emptyQuery (index : Nat)
  | badQuery (index : Nat) (p : Query.Problem)
  | badLinkQuery (p : Query.Problem)
  | badLinkPattern (p : Pattern.Written.Problem)
  deriving DecidableEq, Repr

def Problem.message : Problem → Text
  | .minTooSmall got =>
    "filter.var_lookahead.min_offset must be at least 1, got " ++ Text.ofInt got
  | .maxBelowMin max min =>
    "filter.var_lookahead.max_offset (" ++ Text.ofInt max ++ ") must not be less than min_offset ("
      ++ Text.ofInt min ++ ")"
  | .maxTooLarge got =>
    "filter.var_lookahead.max_offset must not exceed " ++ Text.ofInt lookaheadLimit ++ ", got "
      ++ Text.ofInt got
  | .blankExtension => "fixhtml.extension must not be blank"
  | .emptyQuery i => "fixhtml.separator_queries[" ++ Text.ofNat i ++ "].query must not be empty"
  | .badQuery i p =>
    "fixhtml.separator_queries[" ++ Text.ofNat i ++ "].query: " ++ p.message
  | .badLinkQuery p => "fixhtml.link_query: " ++ p.message
  | .badLinkPattern p => "fixhtml.manual_link_pattern: " ++ p.message

def isBlank (t : Text) : Bool := (Utf8.trimWhite t).isEmpty

def checkLookahead (l : Lookahead) : Except Problem Unit :=
  if l.min < 1 then .error (.minTooSmall l.min)
  else if l.max < l.min then .error (.maxBelowMin l.max l.min)
  else if lookaheadLimit < l.max then .error (.maxTooLarge l.max)
  else .ok ()

def checkQueries (ns : Query.Namespaces) : Nat → List SeparatorQuery → Except Problem Unit
  | _, [] => .ok ()
  | i, q :: rest =>
    if isBlank q.query then .error (.emptyQuery i)
    else match Query.compile ns q.query with
      | .error p => .error (.badQuery i p)
      | .ok _ => checkQueries ns (i + 1) rest

def checkPages (p : PageSettings) : Except Problem Unit := do
  if isBlank p.extension then throw .blankExtension
  checkQueries p.namespaces 0 p.separatorQueries
  let _ ← (Query.compile p.namespaces p.linkQuery).mapError .badLinkQuery
  let _ ← (Pattern.Written.compile p.manualLinkPattern).mapError .badLinkPattern

def check (s : Settings) : Except Problem Unit := do
  checkLookahead s.lookahead
  checkPages s.pages

end DocBridge.Settings
