import DocBridge.Fault

/-
A file system as a value: regular files, directories and symbolic links, named from the working
directory on, or from the root on after an empty first name. Looking up a path follows links the
way an operating system does.
-/
namespace DocBridge

inductive Entry where
  | file (data : Text) (mode : Nat)
  | directory
  | link (target : Text)
  deriving DecidableEq, Repr

namespace Path

def names (path : Text) : List Text := Text.splitOn 0x2F path

def isAbsolute (path : Text) : Bool := path.head? == some 0x2F

/-- One name after `done`, innermost first: `.` and empty names vanish, `..` cancels the name
before it if there is one. -/
def push (rooted : Bool) (done : List Text) (name : Text) : List Text :=
  if name == [] || name == Text.ofString "." then done
  else if name == Text.ofString ".." then
    match done with
    | [] => if rooted then [] else [name]
    | last :: before => if last == name then name :: done else before
  else name :: done

def clean (path : Text) : Text :=
  let rooted := isAbsolute path
  let body := Text.join "/" ((names path).foldl (push rooted) []).reverse
  if rooted then 0x2F :: body else if body.isEmpty then "." else body

def join (dir name : Text) : Text := clean (dir ++ "/" ++ name)

def parent (path : Text) : Text := clean (path.reverse.dropWhile (· != 0x2F)).reverse

def base (path : Text) : Text :=
  let trimmed := Text.trimEnd (· == 0x2F) path
  if trimmed.isEmpty then (if path.isEmpty then "." else "/")
  else (trimmed.reverse.takeWhile (· != 0x2F)).reverse

def inside (dir name : Text) : Text :=
  if dir.getLast? == some 0x2F then dir ++ name else dir ++ "/" ++ name

/-- Order of paths in a walk: names are compared from the outermost on. -/
def before : List Text → List Text → Bool
  | [], _ => true
  | _ :: _, [] => false
  | a :: as, b :: bs => if a == b then before as bs else Text.le a b

end Path

inductive LookupError where
  | missing
  | notDirectory
  | isDirectory
  | linkLoop
  deriving DecidableEq, Repr

def LookupError.message : LookupError → Text
  | .missing => "no such file or directory"
  | .notDirectory => "not a directory"
  | .isDirectory => "is a directory"
  | .linkLoop => "too many levels of symbolic links"

/-- Entries under their names from the outermost directory on. The working directory and the root
have no entry. -/
structure Disk where
  entries : List (List Text × Entry) := []

namespace Disk

def root : List Text := [[]]

def entry? (d : Disk) (path : List Text) : Option Entry :=
  if path.isEmpty || path == root then some .directory else d.entries.lookup path

def put (d : Disk) (path : List Text) (e : Entry) : Disk where
  entries :=
    if d.entries.any (·.1 == path) then d.entries.map fun (p, old) => if p == path then (p, e) else (p, old)
    else d.entries ++ [(path, e)]

def withParents (d : Disk) (path : List Text) : Disk :=
  (List.range path.length).foldl
    (fun d n =>
      match d.entry? (path.take n) with
      | some _ => d
      | none => d.put (path.take n) .directory)
    d

def add (d : Disk) (path : Text) (e : Entry) : Disk :=
  let names := (Path.names (Path.clean path)).filter (· != Text.ofString ".")
  (d.withParents names).put names e

def passingMark : Text := "N"

def linkLimit : Nat := 40

/-- Walks along `todo` from the directory `at_`; the last name is followed if it is a link and
`follow` is set. -/
def resolveFrom (d : Disk) (follow : Bool) :
    (links : Nat) → (at_ todo : List Text) → Except LookupError (List Text)
  | links, at_, todo =>
    match todo with
    | [] => .ok at_
    | name :: rest =>
      match d.entry? at_ with
      | some .directory =>
        if name == [] || name == Text.ofString "." then resolveFrom d follow links at_ rest
        else if name == Text.ofString ".." then
          if at_.isEmpty then .error .missing
          else if at_ == root then resolveFrom d follow links at_ rest
          else resolveFrom d follow links (at_.take (at_.length - 1)) rest
        else
          match d.entry? (at_ ++ [name]) with
          | none => .error .missing
          | some (.link target) =>
            if rest.isEmpty && !follow then .ok (at_ ++ [name])
            else match links with
              | 0 => .error .linkLoop
              | links + 1 =>
                resolveFrom d follow links (if Path.isAbsolute target then root else at_)
                  (Path.names target ++ rest)
          | some _ => resolveFrom d follow links (at_ ++ [name]) rest
      | some _ => .error .notDirectory
      | none => .error .missing
termination_by links _ todo => (links, todo.length)

def resolve (d : Disk) (follow : Bool) (path : Text) : Except LookupError (List Text) :=
  if path.isEmpty then .error .missing
  else resolveFrom d follow linkLimit (if Path.isAbsolute path then root else []) (Path.names path)

def failure (verb : String) (path : Text) (e : LookupError) : Failure :=
  .plain (Text.ofString verb ++ " " ++ path ++ ": " ++ e.message)

def stat (d : Disk) (path : Text) : Except Failure Entry :=
  match d.resolve true path with
  | .error e => .error (failure "stat" path e)
  | .ok names => .ok ((d.entry? names).getD .directory)

def read (d : Disk) (path : Text) : Except Failure Text :=
  match d.resolve true path with
  | .error e => .error (failure "open" path e)
  | .ok names =>
    match d.entry? names with
    | some (.file data _) => .ok data
    | _ => .error (failure "read" path .isDirectory)

def overwrite (d : Disk) (path data : Text) : Except Failure Disk :=
  match d.resolve true path with
  | .error e => .error (failure "open" path e)
  | .ok names =>
    match d.entry? names with
    | some (.file _ mode) => .ok (d.put names (.file data mode))
    | _ => .error (failure "open" path .isDirectory)

/-- Puts a new file in the place of whatever stands under a name, without following a link there.
The file is first made under a passing name in the same directory. -/
def replace (d : Disk) (path data : Text) (mode : Nat) : Except Failure Disk :=
  let dir := Path.parent path
  let passing := Path.inside dir (Path.base path ++ passingMark)
  match d.resolve true dir with
  | .error e => .error (failure "open" passing e)
  | .ok names =>
    match d.entry? names, d.resolve false path with
    | some .directory, .ok found =>
      if d.entry? found == some .directory then
        .error (.plain ("rename " ++ passing ++ " " ++ path ++ ": file exists"))
      else .ok (d.put found (.file data mode))
    | some .directory, .error _ => .ok (d.put (names ++ [Path.base path]) (.file data mode))
    | _, _ => .error (failure "open" passing .notDirectory)

def files (d : Disk) : List (Text × Text × Nat) :=
  (d.entries.filterMap fun (path, e) =>
    match e with
    | .file data mode => some (Text.join "/" path, data, mode)
    | _ => none).mergeSort fun a b => Text.le a.1 b.1

def isRooted (path : List Text) : Bool := path.head? == some []

/-- Whether names lead through a directory. What is named from the root on is not looked for below
the working directory. -/
def isBelow (dir path : List Text) : Bool :=
  dir.isPrefixOf path && isRooted path == isRooted dir

def below (d : Disk) (dir : List Text) : List (List Text) :=
  (d.entries.filterMap fun (path, e) =>
    if isBelow dir path && e != .directory then some (path.drop dir.length) else none).mergeSort
    Path.before

end Disk
end DocBridge
