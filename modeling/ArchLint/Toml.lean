import ArchLint.Toml.Reader
import ArchLint.Toml.Table

/-!
# TOML documents

Version 1.0 of the format. Values and keys have less than `Reader.depthLimit` levels.
-/

namespace ArchLint.Toml

namespace Reader

def splitKey (parts : List String) : List String × String :=
  (parts.dropLast, parts.getLast?.getD "")

/-- The values of an array, after its opening bracket. -/
def elements (value : Reader Value) (lines : Nat) : Nat → List Value → Reader (List Value)
  | 0, _ => refuse
  | n + 1, done => do
    spacing lines
    if ← flag ']' then return done.reverse
    let v ← value
    spacing lines
    if ← flag ',' then elements value lines n (v :: done)
    else
      exactly "]"
      return (v :: done).reverse

def keyValue (value : Reader Value) : Reader (List String × Value) := do
  let parts ← key
  exactly "="
  blanks
  return (parts, ← value)

def inlineEntries (value : Reader Value) : Nat → Table → Reader Table
  | 0, _ => refuse
  | n + 1, t => do
    let (parts, v) ← keyValue value
    let (path, last) := splitKey parts
    match t.assign path last v with
    | none => refuse
    | some t =>
      blanks
      if ← flag ',' then inlineEntries value n t
      else
        exactly "\x7d"
        return t

def inlineTable (value : Reader Value) (limit : Nat) : Reader Value := do
  blanks
  if ← flag '\x7d' then return .table []
  let t ← inlineEntries value limit {}
  return .table (entriesToValues t.entries)

def scalar : Reader Value := do
  match ← peek with
  | some '"' | some '\'' => return .string (← string)
  | some 't' =>
    exactly "true"
    return .boolean true
  | some 'f' =>
    exactly "false"
    return .boolean false
  | _ => numeric

def value (limit : Nat) : Nat → Reader Value
  | 0 => scalar
  | depth + 1 => do
    match ← peek with
    | some '[' =>
      exactly "["
      return .array (← elements (value limit depth) limit limit [])
    | some '\x7b' =>
      exactly "\x7b"
      inlineTable (value limit depth) limit
    | _ => scalar

end Reader

inductive Section where
  | top
  | table (path : List String) (key : String)
  | element (path : List String) (key : String)
  deriving DecidableEq, Repr

/-- A document of which some lines are read: what is finished, and the table at work. -/
structure Draft where
  root : Table := {}
  current : Table := {}
  section_ : Section := .top

namespace Draft

def close (d : Draft) : Option Table :=
  match d.section_ with
  | .top => some d.current
  | .table path key => Table.closeTable path key d.current d.root
  | .element path key => Table.appendTable path key d.current d.root

def startTable (path : List String) (key : String) (d : Draft) : Option Draft := do
  let (current, root) ← Table.openTable path key (← d.close)
  return ⟨root, current, .table path key⟩

def startElement (path : List String) (key : String) (d : Draft) : Option Draft := do
  let root ← d.close
  let _ ← Table.appendTable path key {} root
  return ⟨root, {}, .element path key⟩

def assign (parts : List String) (v : Value) (d : Draft) : Option Draft := do
  let (path, key) := Reader.splitKey parts
  return { d with current := ← d.current.assign path key v }

end Draft

namespace Reader

/-- Turns a refusal of the draft into one of the text. -/
def accept {α : Type} : Option α → Reader α
  | some a => pure a
  | none => refuse

def header (d : Draft) : Reader Draft := do
  exactly "["
  if ← flag '[' then
    let (path, last) := splitKey (← key)
    exactly "]]"
    lineEnd
    accept (d.startElement path last)
  else
    let (path, last) := splitKey (← key)
    exactly "]"
    lineEnd
    accept (d.startTable path last)

def line (limit : Nat) (d : Draft) : Reader Draft := do
  blanks
  match ← peek with
  | none => return d
  | some '#' | some '\n' | some '\r' =>
    lineEnd
    return d
  | some '[' => header d
  | some _ =>
    let (parts, v) ← keyValue (value limit (depthLimit - 1))
    lineEnd
    accept (d.assign parts v)

def lines (limit : Nat) : Nat → Draft → Reader Draft
  | 0, _ => refuse
  | n + 1, d => do
    if ← atEnd then return d
    lines limit n (← line limit d)

end Reader

/-- The entries of a document, unless it is malformed. A byte order mark at its start is no part
of it. -/
def parse? (text : String) : Option (List (String × Value)) := do
  let cs := match text.toList with
    | '\uFEFF' :: rest => rest
    | cs => cs
  let (draft, _) ← Reader.lines cs.length (cs.length + 1) {} cs
  return entriesToValues (← draft.close).entries

end ArchLint.Toml
