import ArchLint.Toml.Value

/-!
# Tables under construction

While a document is read, a table remembers how it came about, because that decides what may
still be added to it.
-/

namespace ArchLint.Toml

inductive Item where
  | value (v : Value)
  /-- A table with its own header, or one that exists because something was put into it. A table
  that dotted keys made can be added to by dotted keys only. -/
  | table (implicit dotted : Bool) (entries : List (String × Item))
  /-- The tables with one double-bracketed header, without what led to them. -/
  | tables (elements : List (List (String × Item)))
  deriving Inhabited

structure Table where
  implicit : Bool := false
  dotted : Bool := false
  entries : List (String × Item) := []
  deriving Inhabited

namespace Table

def toItem (t : Table) : Item :=
  .table t.implicit t.dotted t.entries

def get? (t : Table) (key : String) : Option Item :=
  t.entries.lookup key

def set (t : Table) (key : String) (item : Item) : Table :=
  if (t.get? key).isSome then
    { t with entries := t.entries.map fun (k, i) => if k = key then (k, item) else (k, i) }
  else { t with entries := t.entries ++ [(key, item)] }

def erase (t : Table) (key : String) : Table :=
  { t with entries := t.entries.filter fun (k, _) => k ≠ key }

/-- Changes the table that a path leads to, making tables on the way where there are none. A path
through tables with the same header leads into the last of them. -/
def descend (dotted : Bool) (change : Table → Option Table) : List String → Table → Option Table
  | [], t => change t
  | key :: path, t =>
    match t.get? key with
    | none => do
      let child ← descend dotted change path { implicit := true, dotted }
      return t.set key child.toItem
    | some (.value _) => none
    | some (.table implicit isDotted entries) =>
      if dotted && !implicit then none
      else do
        let child ← descend dotted change path ⟨implicit, isDotted, entries⟩
        return t.set key child.toItem
    | some (.tables elements) => do
      let last ← elements.getLast?
      let child ← descend dotted change path { entries := last }
      return t.set key (.tables (elements.dropLast ++ [child.entries]))

def assign (path : List String) (key : String) (v : Value) : Table → Option Table :=
  descend true (fun t =>
    if t.dotted = path.isEmpty then none
    else if (t.get? key).isSome then none
    else some (t.set key (.value v))) path

/-- Takes out the table that a header `[path.key]` is about to describe: a new one, or one that
exists only because something was put into it. -/
def openTable (path : List String) (key : String) (root : Table) : Option (Table × Table) := do
  let entry ← find path root
  match entry with
  | none => return ({}, root)
  | some (.table true false entries) =>
    let root ← descend false (fun t => some (t.erase key)) path root
    return ({ entries }, root)
  | some _ => none
where
  /-- The item under `path.key`, if there is one; fails where the path is blocked. -/
  find : List String → Table → Option (Option Item)
    | [], t => some (t.get? key)
    | k :: path, t =>
      match t.get? k with
      | none => some none
      | some (.value _) => none
      | some (.table implicit isDotted entries) => find path ⟨implicit, isDotted, entries⟩
      | some (.tables elements) => do find path { entries := ← elements.getLast? }

def closeTable (path : List String) (key : String) (table root : Table) : Option Table :=
  descend false (fun t =>
    match t.get? key with
    | none | some (.table true _ _) => some (t.set key table.toItem)
    | some _ => none) path root

def appendTable (path : List String) (key : String) (table root : Table) : Option Table :=
  descend false (fun t =>
    match t.get? key with
    | none => some (t.set key (.tables [table.entries]))
    | some (.tables elements) => some (t.set key (.tables (elements ++ [table.entries])))
    | some _ => none) path root

end Table

mutual

def Item.toValue : Item → Value
  | .value v => v
  | .table _ _ entries => .table (entriesToValues entries)
  | .tables elements => .array (tablesToValues elements)

def entriesToValues : List (String × Item) → List (String × Value)
  | [] => []
  | (key, item) :: rest => (key, item.toValue) :: entriesToValues rest

def tablesToValues : List (List (String × Item)) → List Value
  | [] => []
  | entries :: rest => .table (entriesToValues entries) :: tablesToValues rest

end

end ArchLint.Toml
