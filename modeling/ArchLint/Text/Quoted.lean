import ArchLint.Text.Printable

/-!
# Quoted text

A text in double quotes on one line: quotes, backslashes and whatever does not show as itself are
escaped.
-/

namespace ArchLint.Text

def escapeNumber (c : Char) : List Char :=
  "\\u\x7b".toList ++ Nat.toDigits 16 c.toNat ++ ['\x7d']

def escapeChar (c : Char) : List Char :=
  match c with
  | '\x00' => ['\\', '0']
  | '\t' => ['\\', 't']
  | '\r' => ['\\', 'r']
  | '\n' => ['\\', 'n']
  | '\\' => ['\\', '\\']
  | '"' => ['\\', '"']
  | c => if graphemeExtend.contains c || unprintable.contains c then escapeNumber c else [c]

def quote (text : String) : String :=
  "\"" ++ String.ofList (text.toList.flatMap escapeChar) ++ "\""

end ArchLint.Text
