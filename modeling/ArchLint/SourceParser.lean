import ArchLint.Syntax.Builder

/-!
# Source parsers

A language is known to the analyzer by the extensions of its files and by a function from source
text to syntax trees.
-/

namespace ArchLint

open Syntax

inductive ParseError where
  | grammar (language message : String)
  | syntaxFault (line : Nat)
  | nestingTooDeep (line limit : Nat)
  | noTree
  | tree (e : BuildError)
  deriving DecidableEq, Repr

def ParseError.message : ParseError → String
  | .grammar language message => "failed to load " ++ language ++ " grammar: " ++ message
  | .syntaxFault line => "syntax error at line " ++ toString line
  | .nestingTooDeep line limit =>
    "nesting at line " ++ toString line ++ " exceeds the limit of " ++ toString limit ++ " levels"
  | .noTree => "parser returned no tree"
  | .tree e => e.message

structure SourceParser where
  language : String
  extensions : List String
  parse : String → Except ParseError Tree

end ArchLint
