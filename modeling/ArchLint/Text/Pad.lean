/-!
# Columns of text
-/

namespace ArchLint.Text

def blanks (n : Nat) : String :=
  String.ofList (List.replicate n ' ')

def padEnd (n : Nat) (text : String) : String :=
  text ++ blanks (n - text.length)

end ArchLint.Text
