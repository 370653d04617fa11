import ArchLint.Java.Concrete

/-!
# Content models

A regular expression over the children of a node: which tokens and which kinds of node stand there,
in which roles and in which order. A sequence of children is matched one child at a time.
-/

namespace ArchLint.Java

/-- The children that may stand at one place. -/
structure Slot where
  field : Option Field := none
  kinds : List Kind
  texts : List String := []
  deriving DecidableEq, Repr

def Slot.admits (s : Slot) (c : Cst) : Bool :=
  c.field = s.field && s.kinds.contains c.kind &&
    (c.kind ≠ .token || s.texts.contains c.text)

inductive Content where
  | never
  | empty
  | child (s : Slot)
  | seq (a b : Content)
  | alt (a b : Content)
  | many (a : Content)
  deriving DecidableEq, Repr

namespace Content

def nullable : Content → Bool
  | .never | .child _ => false
  | .empty | .many _ => true
  | .seq a b => a.nullable && b.nullable
  | .alt a b => a.nullable || b.nullable

def andThen : Content → Content → Content
  | .never, _ => .never
  | .empty, b => b
  | a, b => .seq a b

def orElse : Content → Content → Content
  | .never, b => b
  | a, .never => a
  | a, b => .alt a b

/-- What may follow the child `c`. -/
def after (c : Cst) : Content → Content
  | .never | .empty => .never
  | .child s => if s.admits c then .empty else .never
  | .seq a b =>
    if a.nullable then orElse (andThen (a.after c) b) (b.after c) else andThen (a.after c) b
  | .alt a b => orElse (a.after c) (b.after c)
  | .many a => andThen (a.after c) (.many a)

/-- The children fit. -/
def accepts (m : Content) (cs : List Cst) : Bool :=
  (cs.foldl (fun m c => m.after c) m).nullable

/-- The first child that cannot stand where it does. -/
def stray? (m : Content) : List Cst → Option Cst
  | [] => none
  | c :: cs => if m.after c = .never then some c else (m.after c).stray? cs

def all : List Content → Content
  | [] => .empty
  | [m] => m
  | m :: ms => .seq m (all ms)

def any : List Content → Content
  | [] => .never
  | [m] => m
  | m :: ms => .alt m (any ms)

def opt (m : Content) : Content :=
  .alt .empty m

def many1 (m : Content) : Content :=
  .seq m (.many m)

def separated (mark m : Content) : Content :=
  .seq m (.many (.seq mark m))

def token (text : String) : Content :=
  .child { kinds := [.token], texts := [text] }

def oneOf (texts : List String) : Content :=
  .child { kinds := [.token], texts }

def tokenAs (f : Field) (texts : List String) : Content :=
  .child { field := some f, kinds := [.token], texts }

def node (kinds : List Kind) : Content :=
  .child { kinds }

def role (f : Field) (kinds : List Kind) : Content :=
  .child { field := some f, kinds }

def commas1 (m : Content) : Content :=
  separated (token ",") m

def commas (m : Content) : Content :=
  opt (commas1 m)

def between (opening closing : String) (m : Content) : Content :=
  all [token opening, m, token closing]

def parens (m : Content) : Content :=
  between "(" ")" m

def brackets (m : Content) : Content :=
  between "[" "]" m

def braces (m : Content) : Content :=
  between "\x7b" "\x7d" m

end Content

end ArchLint.Java
