import DocBridge.Yaml.Reader

/-
Reading scalars. Line breaks inside plain and quoted scalars are folded: one break becomes a blank,
several lose the first.
-/
namespace DocBridge.Yaml

structure Gap where
  blanks : List Char := []
  first : List Char := []
  more : List Char := []
  broken : Bool := false

namespace Gap

def text (g : Gap) : List Char :=
  if g.broken then
    if g.first.head? == some '\n' then if g.more.isEmpty then [' '] else g.more
    else g.first ++ g.more
  else g.blanks

def read (indent : Int) : Nat → Gap → Reader → Except Problem (Gap × Reader)
  | 0, g, r => .ok (g, r)
  | fuel + 1, g, r =>
    match r.rest with
    | [] => .ok (g, r)
    | c :: _ =>
      if isBlank c then
        if g.broken && (r.column : Int) < indent && c == '\t' then .error .tabIndentation
        else read indent fuel (if g.broken then g else { g with blanks := g.blanks ++ [c] }) (r.skip 1)
      else if isBreak c then
        let (b, r) := r.lineBreak
        if g.broken then read indent fuel { g with more := g.more ++ b } r
        else read indent fuel { blanks := [], first := b, more := [], broken := true } r
      else .ok (g, r)

end Gap

def plainRun (inFlow : Bool) : List Char → List Char
  | [] => []
  | c :: rest =>
    if isGap c || (c == ':' && atGap rest)
      || (inFlow && [',', '?', '[', ']', '\x7b', '\x7d'].contains c) then []
    else c :: plainRun inFlow rest

def plain (inFlow : Bool) (indent : Int) : Nat → List Char → Gap → Reader →
    Except Problem (List Char × Gap × Reader)
  | 0, done, gap, r => .ok (done, gap, r)
  | fuel + 1, done, gap, r =>
    if r.atDocumentMark || r.rest.head? == some '#' then .ok (done, gap, r)
    else
      let run := plainRun inFlow r.rest
      let done := if run.isEmpty then done else done ++ gap.text ++ run
      let gap := if run.isEmpty then gap else {}
      let r := r.skip run.length
      match r.rest with
      | [] => .ok (done, gap, r)
      | c :: _ =>
        if !isGap c then .ok (done, gap, r)
        else do
          let (gap, r) ← Gap.read indent r.room gap r
          if !inFlow && (r.column : Int) < indent then return (done, gap, r)
          plain inFlow indent fuel done gap r

def isHexDigit (c : Char) : Bool :=
  c.isDigit || ('a' ≤ c && c ≤ 'f') || ('A' ≤ c && c ≤ 'F')

def hexDigit (c : Char) : Nat :=
  if c.isDigit then c.toNat - 48 else if 'a' ≤ c then c.toNat - 87 else c.toNat - 55

def hexEscape (width : Nat) (cs : List Char) : Except Problem (Char × Nat) :=
  let ds := cs.take width
  let n := ds.foldl (fun n c => n * 16 + hexDigit c) 0
  if ds.length < width || !ds.all isHexDigit then .error .unknownEscape
  else if (0xD800 ≤ n && n ≤ 0xDFFF) || 0x10FFFF < n then .error .unknownEscape
  else .ok (Char.ofNat n, width + 1)

def namedEscapes : List (Char × Nat) :=
  [('0', 0), ('a', 7), ('b', 8), ('t', 9), ('\t', 9), ('n', 10), ('v', 11), ('f', 12), ('r', 13),
    ('e', 0x1B), (' ', 0x20), ('"', 0x22), ('\'', 0x27), ('/', 0x2F), ('\\', 0x5C), ('N', 0x85),
    ('_', 0xA0), ('L', 0x2028), ('P', 0x2029)]

def escape : List Char → Except Problem (Char × Nat)
  | [] => .error .unknownEscape
  | c :: rest =>
    match namedEscapes.lookup c with
    | some n => .ok (Char.ofNat n, 1)
    | none =>
      match c with
      | 'x' => hexEscape 2 rest
      | 'u' => hexEscape 4 rest
      | 'U' => hexEscape 8 rest
      | _ => .error .unknownEscape

/-- A stretch of a quoted scalar without gaps: its text, its width, and whether it ends in a
backslash before a line break. `skip` counts characters that are already accounted for. -/
structure QuotedRun where
  text : List Char := []
  width : Nat := 0
  joined : Bool := false

def QuotedRun.cons (c : Char) (width : Nat) (r : QuotedRun) : QuotedRun :=
  { r with text := c :: r.text, width := r.width + width }

def singleRun : Nat → List Char → QuotedRun
  | _, [] => {}
  | skip + 1, _ :: rest => singleRun skip rest
  | 0, c :: rest =>
    if isGap c then {}
    else if c == '\'' then
      if rest.head? == some '\'' then .cons '\'' 2 (singleRun 1 rest) else {}
    else .cons c 1 (singleRun 0 rest)

def doubleRun : Nat → List Char → Except Problem QuotedRun
  | _, [] => .ok {}
  | skip + 1, _ :: rest => doubleRun skip rest
  | 0, c :: rest =>
    if isGap c || c == '"' then .ok {}
    else if c == '\\' then
      if rest.head?.any isBreak then .ok { joined := true }
      else do
        let (d, width) ← escape rest
        return .cons d (width + 1) (← doubleRun width rest)
    else do return .cons c 1 (← doubleRun 0 rest)

def quoted (quote : Char) : Nat → List Char → Reader → Except Problem (List Char × Reader)
  | 0, _, _ => .error .unclosedScalar
  | fuel + 1, done, r =>
    if r.atDocumentMark || r.rest.isEmpty then .error .unclosedScalar
    else do
      let run ← if quote == '\'' then pure (singleRun 0 r.rest) else doubleRun 0 r.rest
      let r := r.skip run.width
      let done := done ++ run.text
      if r.rest.head? == some quote && !run.joined then return (done, r.skip 1)
      let r := if run.joined then ((r.skip 1).lineBreak).2 else r
      let (gap, r) ← Gap.read (-1) r.room { broken := run.joined } r
      quoted quote fuel (done ++ gap.text) r

inductive Chomp where
  | strip | clip | keep
  deriving DecidableEq, Repr

def chomp? : Char → Option Chomp
  | '+' => some .keep
  | '-' => some .strip
  | _ => none

def blockHeader (cs : List Char) : Except Problem (Chomp × Nat × Nat) :=
  let digit (c : Char) : Except Problem Nat :=
    if c == '0' then .error .badBlockHeader else .ok (c.toNat - 48)
  match cs with
  | a :: rest =>
    match chomp? a with
    | some chomp =>
      match rest with
      | b :: _ => if b.isDigit then (digit b).map fun n => (chomp, n, 2) else .ok (chomp, 0, 1)
      | [] => .ok (chomp, 0, 1)
    | none =>
      if a.isDigit then
        (digit a).map fun n =>
          match rest.head?.bind chomp? with
          | some chomp => (chomp, n, 2)
          | none => (.clip, n, 1)
      else .ok (.clip, 0, 0)
  | [] => .ok (.clip, 0, 0)

/-- Empty lines and the indentation of the next line. The indentation of the scalar is that of its
first line if `indent` is zero. -/
def blockBreaks (parent : Int) : Nat → (indent deepest : Nat) → List Char → Reader →
    Except Problem (Nat × List Char × Reader)
  | 0, indent, _, breaks, r => .ok (indent, breaks, r)
  | fuel + 1, indent, deepest, breaks, r =>
    let blanks := (r.rest.takeWhile (· == ' ')).length
    let r := r.skip (if indent == 0 then blanks else min blanks (indent - r.column))
    let deepest := max deepest r.column
    if (indent == 0 || r.column < indent) && r.rest.head? == some '\t' then .error .tabIndentation
    else if r.rest.head?.any isBreak then
      let (b, r) := r.lineBreak
      blockBreaks parent fuel indent deepest (breaks ++ b) r
    else
      let found := max (max deepest (parent + 1).toNat) 1
      .ok (if indent == 0 then found else indent, breaks, r)

structure BlockText where
  done : List Char := []
  lastBreak : List Char := []
  empty : List Char := []
  indented : Bool := false

/-- Adds a line. Between two lines that do not start with a blank, a single break is folded. -/
def BlockText.addLine (folded : Bool) (t : BlockText) (line : List Char) : BlockText :=
  let indented := line.head?.any isBlank
  let seam :=
    if folded && !t.indented && !indented && t.lastBreak.head? == some '\n' then
      if t.empty.isEmpty then [' '] else []
    else t.lastBreak
  { done := t.done ++ seam ++ t.empty ++ line, lastBreak := [], empty := [], indented := indented }

def BlockText.finish (chomp : Chomp) (t : BlockText) : List Char :=
  match chomp with
  | .strip => t.done
  | .clip => t.done ++ t.lastBreak
  | .keep => t.done ++ t.lastBreak ++ t.empty

def blockLines (folded : Bool) (parent : Int) (indent : Nat) : Nat → BlockText → Reader →
    Except Problem (BlockText × Reader)
  | 0, t, r => .ok (t, r)
  | fuel + 1, t, r =>
    if r.column != indent || r.rest.isEmpty then .ok (t, r)
    else do
      let line := r.rest.takeWhile (!isBreak ·)
      let (b, r) := (r.skip line.length).lineBreak
      let (_, empty, r) ← blockBreaks parent r.room indent 0 [] r
      blockLines folded parent indent fuel
        { t.addLine folded line with lastBreak := b, empty := empty } r

def block (folded : Bool) (parent : Int) (r : Reader) : Except Problem (List Char × Reader) := do
  let (chomp, step, width) ← blockHeader r.rest
  let r := (r.skip width).skipWhile isBlank
  let r := if r.rest.head? == some '#' then r.skipWhile (!isBreak ·) else r
  if !atLineEnd r.rest then throw .badBlockHeader
  let r := r.lineBreak.2
  let indent := if step == 0 then 0 else (max parent 0).toNat + step
  let (indent, empty, r) ← blockBreaks parent r.room indent 0 [] r
  let (t, r) ← blockLines folded parent indent r.room { empty := empty } r
  return (t.finish chomp, r)

end DocBridge.Yaml
