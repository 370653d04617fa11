import ArchLint.Ignore.Pattern
import ArchLint.Path
import ArchLint.Text.Blank
import ArchLint.Text.Line

/-!
# Ignore files

A file that says which paths beneath its directory are left out. The last line that matches a
path decides.
-/

namespace ArchLint.Ignore

structure Line where
  tokens : List Token
  /-- The line takes paths in again. -/
  negated : Bool
  directoriesOnly : Bool
  deriving Inhabited

def dropStart (start : Char) : List Char → Bool × List Char
  | c :: cs => if c = start then (true, cs) else (false, c :: cs)
  | [] => (false, [])

def dropTrailingBlanks (cs : List Char) : List Char :=
  match cs.reverse with
  | ' ' :: '\\' :: _ => cs
  | reversed => (reversed.dropWhile Text.isBlank).reverse

def dropFinalSlash (cs : List Char) : Bool × List Char :=
  match cs.reverse with
  | '/' :: '\\' :: rest => (true, rest.reverse)
  | '/' :: rest => (true, rest.reverse)
  | _ => (false, cs)

def endsWith (ending : String) (cs : List Char) : Bool :=
  ending.toList.reverse.isPrefixOf cs.reverse

/-- Patterns without a slash match at any depth, and `x/**` only what is inside `x`. -/
def complete (anchored : Bool) (cs : List Char) : List Char :=
  let cs :=
    if anchored || cs.contains '/' || "**/".toList.isPrefixOf cs || cs = ['*', '*'] then cs
    else "**/".toList ++ cs
  if endsWith "/**" cs then cs ++ ['/', '*'] else cs

/-- The sign and the pattern of a line, and whether it is anchored to its directory. -/
def dropSigns (cs : List Char) : Bool × Bool × List Char :=
  match cs with
  | '\\' :: '!' :: _ | '\\' :: '#' :: _ => (false, false, cs.tail)
  | _ =>
    let (negated, cs) := dropStart '!' cs
    let (anchored, cs) := dropStart '/' cs
    (negated, anchored, cs)

def Line.parse? (line : List Char) : Option Line := do
  if line.head? = some '#' then none
  let line := dropTrailingBlanks line
  if line.isEmpty then none
  let (negated, anchored, line) := dropSigns line
  let (directoriesOnly, line) := dropFinalSlash line
  let tokens ← parseTokens? (complete anchored line)
  return ⟨tokens, negated, directoriesOnly⟩

def parse (content : String) : List Line :=
  (Text.lines content.toList).filterMap Line.parse?

inductive Verdict where
  | ignored
  | kept
  deriving DecidableEq, Repr

def verdict? (lines : List Line) (path : List Char) (isDirectory : Bool) : Option Verdict :=
  (lines.reverse.find? fun l =>
    (!l.directoriesOnly || isDirectory) && matchesPath l.tokens path).map fun l =>
      if l.negated then .kept else .ignored

structure Directory where
  path : String
  general : List Line := []
  git : List Line := []
  exclude : List Line := []
  deriving Inhabited

def Directory.relative (d : Directory) (path : String) : List Char :=
  match d.path.toList.isPrefixOf? path.toList with
  | some ('/' :: rest) => rest
  | some rest => rest
  | none => path.toList

/-- Whether a path is left out. The directories around it are given from the nearest outward; for
each sort of file the nearest one that says something decides. -/
def isIgnored (directories : List Directory) (path : String) (isDirectory : Bool) : Bool :=
  let ask (lines : Directory → List Line) : Option Verdict :=
    directories.findSome? fun d => verdict? (lines d) (d.relative path) isDirectory
  ((ask Directory.general).or ((ask Directory.git).or (ask Directory.exclude))) = some .ignored

end ArchLint.Ignore
