import ArchLint.Ignore
import ArchLint.Volume

/-!
# Discovery

The files beneath a directory that no ignore file leaves out. Nothing inside an ignored directory
is looked at.
-/

namespace ArchLint.Discovery

open Ignore (Directory)

def textAt (v : Volume) (names : List String) : String :=
  match v.at? names with
  | some (.file content) => (String.fromUTF8? content).getD ""
  | _ => ""

/-- The ignore files of a directory. Those for version control count only if `git` is set, its
private list always. -/
def directory (git : Bool) (path : String) (v : Volume) : Directory where
  path := path
  general := Ignore.parse (textAt v [".ignore"])
  git := if git then Ignore.parse (textAt v [".gitignore"]) else []
  exclude := Ignore.parse (textAt v [".git", "info", "exclude"])

mutual

/-- The files beneath an entry that lies at `path`. -/
def filesAt (git : Bool) (outer : List Directory) (path : Path) : Volume → List Path
  | .file _ => [path]
  | .directory entries =>
    filesAmong git (directory git path.text (.directory entries) :: outer) path entries

def filesAmong (git : Bool) (directories : List Directory) (path : Path) :
    List (String × Volume) → List Path
  | [] => []
  | (name, entry) :: rest =>
    let child := path.join ⟨name⟩
    (if Ignore.isIgnored directories child.text entry.isDirectory then []
      else filesAt git directories child entry) ++
    filesAmong git directories path rest

end

def surrounding (git : Bool) (v : Volume) (names : List String) : List Directory :=
  ((List.range names.length).reverse).map fun n =>
    let outer := names.take n
    directory git ("/" ++ "/".intercalate outer) ((v.at? outer).getD .empty)

def files? (git : Bool) (v : Volume) (root : Path) : Option (List Path) := do
  let names ← v.resolve? root
  return filesAt git (surrounding git v names) root (← v.at? names)

end ArchLint.Discovery
