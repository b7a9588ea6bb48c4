import DocBridge.Comment.Dialect

/- The settings of both tools and their defaults. A zero or empty setting counts as not given. -/
namespace DocBridge

/-- Elements whose text holds Doxygen's namespace separator, or whose attribute does if one is
named. -/
structure SeparatorQuery where
  name : Text := []
  query : Text := []
  attr : Text := []
  deriving DecidableEq, Repr

def SeparatorQuery.label (q : SeparatorQuery) : Text :=
  if q.name != [] then q.name
  else if q.attr == [] then q.query
  else q.query ++ "@" ++ q.attr

structure PageSettings where
  extension : Text := []
  sourceSuffix : Text := []
  lenient : Bool := false
  preserveWhitespace : Bool := false
  /-- What the qualifiers in queries stand for. -/
  namespaces : List (Text × Text) := []
  separatorQueries : List SeparatorQuery := []
  linkQuery : Text := []
  manualLinkPattern : Text := []
  manualLinkSuffix : Text := []
  metricsFile : Text := []
  deriving DecidableEq, Repr

structure Settings where
  lookahead : Lookahead := ⟨0, 0⟩
  pages : PageSettings := {}
  deriving DecidableEq, Repr

def Lookahead.orDefault (l : Lookahead) : Lookahead :=
  if l.min = 0 && l.max = 0 then {} else l

namespace PageSettings

def xhtml : Text := "http://www.w3.org/1999/xhtml"

def classQuery (element className : Text) : Text :=
  "//html:" ++ element ++ "[contains(concat(' ', normalize-space(@class), ' '), ' " ++ className
    ++ " ')]"

def defaultQueries : List SeparatorQuery :=
  [{ name := "a.el", query := classQuery "a" "el" },
    { name := "a.elRef", query := classQuery "a" "elRef" },
    { name := "area@alt", query := "//html:area", attr := "alt" }]

def orElse (given fallback : Text) : Text := if given.isEmpty then fallback else given

def orDefault (p : PageSettings) : PageSettings :=
  { p with
    extension := orElse p.extension ".html"
    sourceSuffix := orElse p.sourceSuffix "_source.html"
    namespaces := if p.namespaces.isEmpty then [(Text.ofString "html", xhtml)] else p.namespaces
    separatorQueries := if p.separatorQueries.isEmpty then defaultQueries else p.separatorQueries
    linkQuery := orElse p.linkQuery "//*[@href]"
    manualLinkPattern :=
      orElse p.manualLinkPattern "^https://php\\.net/manual/en/[\\w.-]+?\\.php\\.html$"
    manualLinkSuffix := orElse p.manualLinkSuffix ".html" }

end PageSettings

namespace Settings

def orDefault (s : Settings) : Settings := ⟨s.lookahead.orDefault, s.pages.orDefault⟩

def standard : Settings := orDefault {}

end Settings
end DocBridge
