import ArchLint.Path

/-!
# Volumes

The files that a run can see: a tree of directories with files as byte sequences at the leaves.
-/

namespace ArchLint

inductive Volume where
  | file (content : ByteArray)
  | directory (entries : List (String × Volume))
  deriving Inhabited

namespace Volume

def empty : Volume := .directory []

def isFile : Volume → Bool
  | .file _ => true
  | .directory _ => false

def isDirectory (v : Volume) : Bool := !v.isFile

def entry? (v : Volume) (name : String) : Option Volume :=
  match v with
  | .directory entries => entries.lookup name
  | .file _ => none

def at? (v : Volume) : List String → Option Volume
  | [] => some v
  | name :: names => (v.entry? name).bind (·.at? names)

def insertEntry (name : String) (v : Volume) : List (String × Volume) → List (String × Volume)
  | [] => [(name, v)]
  | (n, old) :: rest => if n = name then (n, v) :: rest else (n, old) :: insertEntry name v rest

/-- Puts `new` where the names lead to, with directories on the way. A file in the way blocks. -/
def insert (new : Volume) : List String → Volume → Option Volume
  | [], .file _ => if new.isFile then some new else none
  | [], .directory entries =>
    match new with
    | .file _ => none
    | .directory _ => some (.directory entries)
  | _ :: _, .file _ => none
  | [name], .directory entries => do
    let placed ← match entries.lookup name with
      | some old => insert new [] old
      | none => some new
    return .directory (insertEntry name placed entries)
  | name :: names, .directory entries => do
    let child ← insert new names ((entries.lookup name).getD empty)
    return .directory (insertEntry name child entries)

/-- Follows the components of a path from the names in `here`; dots are resolved on the way. -/
def follow (v : Volume) (here : List String) : List Path.Component → Option (List String)
  | [] => some here
  | component :: rest =>
    if !(v.at? here).any isDirectory then none
    else
      match component with
      | .root => v.follow [] rest
      | .current => v.follow here rest
      | .parent => v.follow here.dropLast rest
      | .normal name => v.follow (here ++ [name]) rest

/-- The names that an absolute path leads to, when there is something. -/
def resolve? (v : Volume) (p : Path) : Option (List String) := do
  let names ← v.follow [] p.components
  let found ← v.at? names
  if p.endsOpen && found.isFile then none else some names

def find? (v : Volume) (p : Path) : Option Volume :=
  (v.resolve? p).bind v.at?

def hasFile (v : Volume) (p : Path) : Bool :=
  (v.find? p).any isFile

inductive AccessError where
  | notFound
  | isDirectory
  | notText
  deriving DecidableEq, Repr

def AccessError.message : AccessError → String
  | .notFound => "No such file or directory (os error 2)"
  | .isDirectory => "Is a directory (os error 21)"
  | .notText => "stream did not contain valid UTF-8"

def readText (v : Volume) (p : Path) : Except AccessError String :=
  match v.find? p with
  | none => .error .notFound
  | some (.directory _) => .error .isDirectory
  | some (.file content) =>
    match String.fromUTF8? content with
    | some text => .ok text
    | none => .error .notText

def occupied (v : Volume) (p : Path) : Bool :=
  (v.find? p).isSome

def writeText (v : Volume) (p : Path) (text : String) : Except AccessError Volume :=
  match v.find? p with
  | some (.directory _) => .error .isDirectory
  | _ =>
    match (v.follow [] p.components).bind fun names => insert (.file text.toUTF8) names v with
    | some v => .ok v
    | none => .error .notFound

end Volume

end ArchLint
