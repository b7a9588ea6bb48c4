import DocBridge.Fix.Report
import DocBridge.Fix.Tree
import DocBridge.Page.Document
import DocBridge.Pattern.Written
import DocBridge.Query.Parse
import DocBridge.Settings.Basic

/-
Fixing one page: namespace separators become backslashes again, and links into the PHP manual lose
the ending that Doxygen appended.
-/
namespace DocBridge

structure Separators where
  label : Text
  query : Query.Expr
  attr : Text

structure Fixer where
  settings : PageSettings
  separators : List Separators
  links : Query.Expr
  manualLink : Pattern Char

namespace Fixer

def invalid (message : Text) (context : Context) (cause : Text) : Failure :=
  .caused { category := .config, severity := .fatal, message := message, context := context }
    (.plain cause)

def compileQuery (p : PageSettings) (message query : Text) : Except Failure Query.Expr :=
  (Query.compile p.namespaces query).mapError fun e =>
    invalid message [(Log.Key.query, .text query)] e.message

def compileSeparators (p : PageSettings) (q : SeparatorQuery) : Except Failure Separators :=
  (compileQuery p "invalid separator query" q.query).map fun e => ⟨q.label, e, q.attr⟩

def ofSettings (p : PageSettings) : Except Failure Fixer := do
  let separators ← p.separatorQueries.mapM (compileSeparators p)
  let links ← compileQuery p "invalid link query" p.linkQuery
  let manualLink ←
    (Pattern.Written.compile p.manualLinkPattern).mapError fun e =>
      invalid "invalid manual link pattern" [] e.message
  return ⟨p, separators, links, manualLink⟩

def wants (p : PageSettings) (path : Text) : Bool :=
  p.extension.isSuffixOf path && !p.sourceSuffix.isSuffixOf path

def restored? (value : Option Text) : Option Text :=
  value.bind fun v => if Fix.hasSeparator v then some (Fix.restoreSeparators v) else none

/-- Restores the separators that one query selects; the number tells how many elements changed. -/
def fixSelected (s : Separators) (t : Query.Tree) : Query.Tree × Nat :=
  let selected := Query.elements t s.query
  if s.attr.isEmpty then Fix.fixTexts t selected
  else Fix.fixAttributes s.attr restored? t selected

def fixSeparators (f : Fixer) (t : Query.Tree) : Query.Tree × Tally :=
  f.separators.foldl
    (fun (t, tally) s =>
      let (t, n) := fixSelected s t
      (t, if n = 0 then tally else tally.add s.label n))
    (t, [])

def hrefKey : Text := "href"

def shortened? (f : Fixer) (value : Option Text) : Option Text :=
  let href := value.getD []
  if f.manualLink.occursIn (Utf8.chars href) && !f.settings.manualLinkSuffix.isEmpty then
    Text.cutEnd? f.settings.manualLinkSuffix href
  else none

def fixLinks (f : Fixer) (t : Query.Tree) : Query.Tree × Nat :=
  Fix.fixAttributes hrefKey f.shortened? t (Query.elements t f.links)

/-- Changed links are tallied as `href`, in place of what a query of that name has tallied. -/
def fixTree (f : Fixer) (t : Query.Tree) : Query.Tree × Tally :=
  let (t, tally) := f.fixSeparators t
  let (t, n) := f.fixLinks t
  (t, if n = 0 then tally else tally.set hrefKey n)

def fixDocument (f : Fixer) (d : Document) : Document × Tally :=
  let d := if f.settings.preserveWhitespace then d else d.mapRoot Node.collapse
  let (nodes, tally) := f.fixTree d.nodes
  ({ d with nodes := nodes }, tally)

def fixPage (f : Fixer) (page : Text) : Except Document.ParseError (Text × Tally) :=
  (Document.parse f.settings.lenient page).map fun d =>
    let (d, tally) := f.fixDocument d
    (d.render, tally)

end Fixer
end DocBridge
