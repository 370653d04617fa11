import ArchLint.Path
import ArchLint.Text.Line

/-!
# Source files

A file under analysis: its path below the project root, its text, and where its lines lie.
-/

namespace ArchLint

structure SourceFile where
  path : Path
  relativePath : Path
  content : String
  deriving DecidableEq, Repr, Inhabited

namespace SourceFile

open Text

def ofRoot (path : Path) (content : String) (root : Path) : SourceFile :=
  ⟨path, path.relativeTo root, content⟩

/-- Byte offset of the start of a line among `ls`, and whether there is such a line. -/
def lineStart : List (List Char) → Nat → Nat × Bool
  | [], _ => (0, false)
  | _ :: _, 0 => (0, true)
  | l :: ls, n + 1 => ((lineStart ls n).1 + byteLength l, (lineStart ls n).2)

/-- Byte offset of a line and column, both counted from one. A line past the end lies at the end
of the text. -/
def offsetOf (f : SourceFile) (line column : Nat) : Nat :=
  match line with
  | 0 => 0
  | n + 1 =>
    match lineStart (terminatedLines f.content.toList) n with
    | (offset, true) => offset + (column - 1)
    | (offset, false) => offset

def lineLength (f : SourceFile) (line : Nat) : Nat :=
  match line with
  | 0 => 0
  | n + 1 => ((lines f.content.toList)[n]?).elim 0 byteLength

end SourceFile

end ArchLint
