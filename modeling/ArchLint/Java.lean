import ArchLint.Java.Lowering
import ArchLint.Java.Parser

/-!
# Java source files
-/

namespace ArchLint.Java

/-- The syntax tree of a source text without faults. -/
def parse (source : String) : Except ParseError Syntax.Tree :=
  let program := Parser.parse source
  if program.hasFault then .error (.syntaxFault (program.firstFaultLine.getD 1))
  else program.toTree

def sourceParser : SourceParser where
  language := "java"
  extensions := ["java"]
  parse := parse

end ArchLint.Java
