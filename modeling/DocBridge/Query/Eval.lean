import DocBridge.Page.Node
import DocBridge.Query.Expr
import DocBridge.Text.Utf8

/-
What a path expression selects. Selections are lists in the order in which their nodes are visited:
a step visits what it selects in document order, or the nearest node first on a reverse axis, and a
union visits the nodes of its left side first. Positions in a selection in parentheses are counted in
document order, whatever it is made of.
-/
namespace DocBridge.Query

/-- Child numbers from the top level of the page down; the page itself has none. -/
abbrev Path := List Nat

structure Item where
  path : Path
  attr : Option Nat := none
  deriving DecidableEq, Repr

abbrev Tree := List Node

/-- Whether `i` does not stand after `j` in document order: a node comes before its attributes, and
these before what is inside of it. -/
def Item.le (i j : Item) : Bool :=
  i.path < j.path || (i.path == j.path && i.attr.elim 0 (· + 1) ≤ j.attr.elim 0 (· + 1))

/-- Puts `i` in front of the first item that does not stand before it. -/
def insertItem (i : Item) : List Item → List Item
  | [] => [i]
  | j :: is => if i.le j then i :: j :: is else j :: insertItem i is

def inOrder (is : List Item) : List Item := is.foldr insertItem []

def nodeAt? : Tree → Path → Option Node
  | _, [] => none
  | nodes, [i] => nodes[i]?
  | nodes, i :: rest => nodes[i]?.bind fun n => nodeAt? n.children rest

def childrenAt (t : Tree) (path : Path) : List Node :=
  if path.isEmpty then t else ((nodeAt? t path).map Node.children).getD []

def childPaths (t : Tree) (path : Path) : List Path :=
  (List.range (childrenAt t path).length).map fun i => path ++ [i]

mutual

def below (path : Path) : Node → List Path
  | .element _ cs => belowAll path 0 cs
  | _ => []

def belowAll (path : Path) (i : Nat) : List Node → List Path
  | [] => []
  | c :: cs => (path ++ [i]) :: below (path ++ [i]) c ++ belowAll path (i + 1) cs

end

def descendants (t : Tree) (path : Path) : List Path := belowAll path 0 (childrenAt t path)

def ancestors (path : Path) : List Path :=
  (List.range path.length).reverse.map fun n => path.take n

def siblings (t : Tree) (path : Path) : List Path :=
  if path.isEmpty then [] else childPaths t path.dropLast

def itemAttr? (t : Tree) (i : Item) : Option Attr :=
  match i.attr, nodeAt? t i.path with
  | some n, some (.element tag _) => tag.attrs[n]?
  | _, _ => none

inductive ItemKind where
  | page | element | text | comment | instruction | attribute
  deriving DecidableEq, Repr

def kindOf (t : Tree) (i : Item) : ItemKind :=
  if i.attr.isSome then .attribute
  else match nodeAt? t i.path with
    | some (.element _ _) => .element
    | some (.text _) | some (.cdata _) | some (.directive _) => .text
    | some (.comment _) => .comment
    | some (.instruction _ _) => .instruction
    | some .declaration | none => .page

def nameOf (t : Tree) (i : Item) : Text × Text × Text :=
  match itemAttr? t i, nodeAt? t i.path with
  | some a, _ => (a.qualifier, a.name, a.uri)
  | none, some (.element tag _) => (tag.qualifier, tag.name, tag.uri)
  | none, some (.instruction target _) => ([], target, [])
  | _, _ => ([], [], [])

def valueOf (t : Tree) (i : Item) : Text :=
  match itemAttr? t i, nodeAt? t i.path with
  | some a, _ => a.value
  | none, some (.comment data) => data
  | none, some n => n.innerText
  | none, none => Node.innerTexts t

def Test.holds (test : Test) (axis : Axis) (t : Tree) (i : Item) : Bool :=
  let principal : ItemKind := if axis = .attribute then .attribute else .element
  let kind := kindOf t i
  match test with
  | .node => true
  | .any => kind == principal
  | .text => kind == .text
  | .comment => kind == .comment
  | .instruction => kind == .instruction
  | .plain name => kind == principal && (nameOf t i).1.isEmpty && (nameOf t i).2.1 == name
  | .inSpace uri name => kind == principal && (nameOf t i).2.1 == name && (nameOf t i).2.2 == uri

def attributeItems (t : Tree) (path : Path) : List Item :=
  match nodeAt? t path with
  | some (.element tag _) => (List.range tag.attrs.length).map fun n => ⟨path, some n⟩
  | _ => []

/-- The nodes on an axis, nearest first. -/
def Axis.items (axis : Axis) (t : Tree) (i : Item) : List Item :=
  let nodes (paths : List Path) : List Item := paths.map fun p => ⟨p, none⟩
  if i.attr.isSome then
    match axis with
    | .self | .descendantOrSelf => [i]
    | .parent => [⟨i.path, none⟩]
    | .ancestor => nodes (i.path :: ancestors i.path)
    | .ancestorOrSelf => i :: nodes (i.path :: ancestors i.path)
    | _ => []
  else
    let before := (siblings t i.path).takeWhile (· != i.path)
    let after := ((siblings t i.path).dropWhile (· != i.path)).drop 1
    match axis with
    | .child => nodes (childPaths t i.path)
    | .descendant => nodes (descendants t i.path)
    | .descendantOrSelf => i :: nodes (descendants t i.path)
    | .self => [i]
    | .parent => if i.path.isEmpty then [] else nodes [i.path.dropLast]
    | .ancestor => nodes (ancestors i.path)
    | .ancestorOrSelf => i :: nodes (ancestors i.path)
    | .followingSibling => nodes after
    | .precedingSibling => nodes before.reverse
    | .following =>
      let all := descendants t []
      nodes ((all.dropWhile (· != i.path)).drop 1 |>.filter fun p => !i.path.isPrefixOf p)
    | .preceding =>
      let all := descendants t []
      nodes ((all.takeWhile (· != i.path)).filter fun p => !p.isPrefixOf i.path).reverse
    | .attribute => attributeItems t i.path

inductive Result where
  | items (is : List Item)
  | text (t : Text)
  | number (x : Float)
  | bool (b : Bool)

structure Context where
  item : Item
  position : Nat := 1
  size : Nat := 1

def isDecimal (s : Text) : Bool :=
  let s := if s.head? == some 0x2D then s.drop 1 else s
  s.any Text.isDigit && s.all (fun b => Text.isDigit b || b == 0x2E) && Text.countByte 0x2E s ≤ 1

def toNumber (s : Text) : Float :=
  let s := Utf8.trimWhite s
  if isDecimal s then
    let body := if s.head? == some 0x2D then s.drop 1 else s
    let whole := body.takeWhile Text.isDigit
    let fraction := (body.dropWhile Text.isDigit).drop 1
    let digits := (whole ++ fraction).foldl (fun n b => n * 10 + (b.toNat - 48)) 0
    let x := Float.ofScientific digits true fraction.length
    if s.head? == some 0x2D then -x else x
  else 0.0 / 0.0

namespace Result

def asBool : Result → Bool
  | .items is => !is.isEmpty
  | .text t => !t.isEmpty
  | .number x => x != 0.0
  | .bool b => b

def asText? (t : Tree) : Result → Option Text
  | .items is => is.head?.map (valueOf t)
  | .text s => some s
  | _ => none

def asText (t : Tree) (r : Result) : Text := (r.asText? t).getD []

def asNumber (t : Tree) : Result → Float
  | .items is => (is.head?.map fun i => toNumber (valueOf t i)).getD (0.0 / 0.0)
  | .text s => toNumber s
  | .number x => x
  | .bool b => if b then 1.0 else 0.0

def passes (position : Nat) : Result → Bool
  | .number x => x.toInt64.toInt == position
  | r => r.asBool

end Result

def compareNumbers (o : Op) (x y : Float) : Bool :=
  match o with
  | .eq => x == y
  | .ne => x != y
  | .lt => x < y
  | .le => x ≤ y
  | .gt => y < x
  | .ge => y ≤ x
  | _ => false

def compareTexts (o : Op) (x y : Text) : Bool :=
  match o with
  | .eq => x == y
  | .ne => x != y
  | .lt => x < y
  | .le => Text.le x y
  | .gt => y < x
  | .ge => Text.le y x
  | _ => false

def compareBools (o : Op) (x y : Bool) : Bool :=
  match o with
  | .eq => x == y
  | .ne => x != y
  | _ => false

def compare (t : Tree) (o : Op) : Result → Result → Bool
  | .number x, .number y => compareNumbers o x y
  | .number x, .text y => compareNumbers o x (toNumber y)
  | .text x, .number y => compareNumbers o (toNumber x) y
  | .text x, .text y => compareTexts o x y
  | .items is, .number y => is.any fun i => compareNumbers o (toNumber (valueOf t i)) y
  | .number x, .items is => is.any fun i => compareNumbers o x (toNumber (valueOf t i))
  | .items is, .text y => is.any fun i => compareTexts o (valueOf t i) y
  | .text x, .items is => is.any fun i => compareTexts o x (valueOf t i)
  | .items is, .items js => (is.zip js).any fun (i, j) => compareTexts o (valueOf t i) (valueOf t j)
  | r, s => compareBools o r.asBool s.asBool

def calculate (o : Op) (x y : Float) : Float :=
  match o with
  | .add => x + y
  | .sub => x - y
  | .mul => x * y
  | .div => x / y
  | .mod => Float.ofInt (Int.tmod x.toInt64.toInt y.toInt64.toInt)
  | _ => 0.0 / 0.0

def normalizeSpace (s : Text) : Text :=
  Utf8.ofChars (squeeze (Utf8.chars (Utf8.trimWhite s)))
where
  squeeze : List Char → List Char
    | [] => []
    | c :: rest =>
      if Utf8.isWhite c then
        if (rest.head?.map Utf8.isWhite).getD false then squeeze rest else ' ' :: squeeze rest
      else c :: squeeze rest

def translate (s old new : Text) : Text :=
  let old := Utf8.chars old
  let new := Utf8.chars new
  Utf8.ofChars ((Utf8.chars s).filterMap fun c =>
    match old.findIdx? (· == c) with
    | some i => new[i]?
    | none => some c)

def substring (s : Text) (start : Float) (length : Option Float) : Text :=
  let from_ := start.round
  let upto := length.map fun l => from_ + l.round
  (s.zipIdx.filter fun (_, i) =>
    let p := Float.ofNat (i + 1)
    decide (from_ ≤ p) && upto.all fun u => decide (p < u)).map Prod.fst

def qualifiedName (t : Tree) (i : Item) : Text :=
  let (qualifier, name, _) := nameOf t i
  Tag.qualified qualifier name

/-- A function applied to its arguments. Text functions read the first node of a selection and
fail on an empty one. -/
def apply (t : Tree) (c : Context) (f : Fn) (args : List Result) : Result :=
  let arg (n : Nat) : Result := args.getD n (.text [])
  let subject : Option Item :=
    match args.head? with
    | none => some c.item
    | some (.items is) => is.head?
    | some _ => none
  let both (test : Text → Text → Bool) : Result :=
    match (arg 0).asText? t with
    | some s => .bool (test s ((arg 1).asText t))
    | none => .bool false
  match f with
  | .position => .number (Float.ofNat c.position)
  | .last => .number (Float.ofNat c.size)
  | .count =>
    match arg 0 with
    | .items is => .number (Float.ofNat is.length)
    | _ => .number 0.0
  | .sum =>
    match arg 0 with
    | .items is => .number (is.foldl (fun x i => x + toNumber (valueOf t i)) 0.0)
    | r => .number (r.asNumber t)
  | .name => .text ((subject.map (qualifiedName t)).getD [])
  | .localName => .text ((subject.map fun i => (nameOf t i).2.1).getD [])
  | .namespaceUri => .text ((subject.map fun i => (nameOf t i).2.2).getD [])
  | .string => .text (if args.isEmpty then valueOf t c.item else (arg 0).asText t)
  | .concat => .text (args.flatMap (Result.asText t))
  | .startsWith => both fun s u => u.isPrefixOf s
  | .endsWith => both fun s u => u.isSuffixOf s
  | .contains => both fun s u => Text.contains u s
  | .substring =>
    .text (substring ((arg 0).asText t) ((arg 1).asNumber t) ((args[2]?).map (Result.asNumber t)))
  | .substringBefore =>
    .text (((Text.cut? ((arg 1).asText t) ((arg 0).asText t)).map Prod.fst).getD [])
  | .substringAfter =>
    .text (((Text.cut? ((arg 1).asText t) ((arg 0).asText t)).map Prod.snd).getD [])
  | .stringLength => .number (Float.ofNat ((arg 0).asText t).length)
  | .normalizeSpace => .text (normalizeSpace ((arg 0).asText t))
  | .translate => .text (translate ((arg 0).asText t) ((arg 1).asText t) ((arg 2).asText t))
  | .lowerCase => .text (Text.lowerAscii ((arg 0).asText t))
  | .boolean => .bool (if args.isEmpty then true else (arg 0).asBool)
  | .not =>
    match arg 0 with
    | .bool b => .bool !b
    | .items is => .bool is.isEmpty
    | _ => .bool false
  | .true_ => .bool true
  | .false_ => .bool false
  | .number => .number (if args.isEmpty then toNumber (valueOf t c.item) else (arg 0).asNumber t)
  | .floor => .number ((arg 0).asNumber t).floor
  | .ceiling => .number ((arg 0).asNumber t).ceil
  | .round => .number ((arg 0).asNumber t).round

def contexts (is : List Item) : List Context :=
  is.zipIdx.map fun (i, n) => ⟨i, n + 1, is.length⟩

def itemsOf : Result → List Item
  | .items is => is
  | _ => []

def distinct (is : List Item) : List Item :=
  is.foldl (fun kept i => if kept.contains i then kept else kept ++ [i]) []

/-- What the steps from several nodes select together. -/
def Axis.merge (axis : Axis) (is : List Item) : List Item :=
  match axis with
  | .ancestor | .ancestorOrSelf => distinct is
  | .preceding | .precedingSibling => is
  | _ => inOrder is

mutual

def eval (t : Tree) : Expr → Context → Result
  | .root, _ => .items [⟨[], none⟩]
  | .context, c => .items [c.item]
  | .step input axis test predicates, c =>
    .items (axis.merge ((itemsOf (eval t input c)).flatMap fun i =>
      keep t predicates ((axis.items t i).filter (test.holds axis t))))
  | .filter input [], c => eval t input c
  | .filter input (e :: es), c =>
    match eval t input c with
    | .items is => .items (keep t (e :: es) (inOrder is))
    | r => r
  | .union left right, c =>
    .items (distinct (itemsOf (eval t left c) ++ itemsOf (eval t right c)))
  | .literal s, _ => .text s
  | .number x, _ => .number x
  | .call f args, c => apply t c f (evalAll t args c)
  | .op o left right, c =>
    match o with
    | .or => .bool ((eval t left c).asBool || (eval t right c).asBool)
    | .and => .bool ((eval t left c).asBool && (eval t right c).asBool)
    | .add | .sub | .mul | .div | .mod =>
      .number (calculate o ((eval t left c).asNumber t) ((eval t right c).asNumber t))
    | _ => .bool (compare t o (eval t left c) (eval t right c))
  | .negate e, c => .number (-(eval t e c).asNumber t)

def evalAll (t : Tree) : List Expr → Context → List Result
  | [], _ => []
  | e :: es, c => eval t e c :: evalAll t es c

/-- The items that pass every predicate, each judged by its position among those left. -/
def keep (t : Tree) : List Expr → List Item → List Item
  | [], is => is
  | e :: es, is =>
    keep t es (((contexts is).filter fun c => (eval t e c).passes c.position).map Context.item)

end

def select (t : Tree) (e : Expr) : List Item := itemsOf (eval t e ⟨⟨[], none⟩, 1, 1⟩)

def elements (t : Tree) (e : Expr) : List Path :=
  ((select t e).filter fun i => kindOf t i == .element).map Item.path

end DocBridge.Query
