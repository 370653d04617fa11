import ArchLint.Config
import ArchLint.Volume

/-!
# Where the configuration comes from

A file that the caller names comes first, then one in the project, then the one for the whole
account. Without any of them the defaults hold.
-/

namespace ArchLint

structure Environment where
  volume : Volume
  workingDirectory : Path
  globalDirectory : Option Path

namespace Environment

def locate (e : Environment) (p : Path) : Path :=
  e.workingDirectory.join p

def hasFile (e : Environment) (p : Path) : Bool :=
  e.volume.hasFile (e.locate p)

def readText (e : Environment) (p : Path) : Except Volume.AccessError String :=
  e.volume.readText (e.locate p)

end Environment

inductive ConfigSource where
  | explicit (path : Path)
  | project (path : Path)
  | global (path : Path)
  | builtin
  deriving DecidableEq, Repr

namespace ConfigSource

def path? : ConfigSource → Option Path
  | .explicit p | .project p | .global p => some p
  | .builtin => none

def projectNames : List String := ["archcheck.toml", ".archcheck.toml"]

def globalName : String := "config.toml"

/-- The source for the project in `directory`. A file that the caller names is taken whether it is
there or not. -/
def find (e : Environment) (directory : Path) (named : Option Path) : ConfigSource :=
  match named with
  | some path => .explicit path
  | none =>
    match (projectNames.map fun n => directory.join ⟨n⟩).find? e.hasFile with
    | some path => .project path
    | none =>
      match (e.globalDirectory.map fun d => d.join ⟨globalName⟩).filter e.hasFile with
      | some path => .global path
      | none => .builtin

/-- The configuration of a source, or the path of the file that does not give one. -/
def load (e : Environment) (s : ConfigSource) : Except Path Config :=
  match s.path? with
  | none => .ok {}
  | some path =>
    match e.readText path with
    | .error _ => .error path
    | .ok text =>
      match Config.parse? text with
      | some config => .ok config
      | none => .error path

end ConfigSource

end ArchLint
