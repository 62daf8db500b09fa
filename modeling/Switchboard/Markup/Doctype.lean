import Switchboard.Markup.Reference
/-! # What a document declares

A document may declare entities, which stand for texts, and rules for the attributes of elements: whether
the blanks of a value count, and which value a missing attribute has. The value of an attribute is made
from the text between its quotes by these declarations.
-/
namespace Switchboard.Markup

structure AttributeRule where
  element : String
  name : String
  /-- Whether runs of blanks in the value count as one, and blanks at its ends as none. -/
  tokenized : Bool
  default? : Option String
deriving DecidableEq, Repr

structure Doctype where
  entities : List (String × Option (List Char)) := []
  rules : List AttributeRule := []
  isOpen : Bool := false
  standalone : Bool := false
  heeded : Bool := true
  written : Nat := 0
deriving DecidableEq, Repr

namespace Doctype

def isComplete (doctype : Doctype) : Bool :=
  !doctype.isOpen || doctype.standalone

def rulesOf (doctype : Doctype) (element : String) : List AttributeRule :=
  doctype.rules.filter fun rule => rule.element == element

def isTokenized (doctype : Doctype) (element name : String) : Bool :=
  ((doctype.rulesOf element).find? fun rule => rule.name == name).any AttributeRule.tokenized

/-- Declares an entity. The first declaration counts, and the entities with a character of their own stay
as they are. -/
def declareEntity (doctype : Doctype) (name : String) (text : Option (List Char)) : Doctype :=
  if !doctype.heeded || (predefined? name).isSome || (doctype.entities.lookup name).isSome then doctype
  else { doctype with entities := doctype.entities ++ [(name, text)] }

/-- Declares a rule. A rule that gives a value or an identity is only kept when it is the first of its
attribute. -/
def declareRule (doctype : Doctype) (rule : AttributeRule) (identity : Bool) : Doctype :=
  let known := (doctype.rulesOf rule.element).any fun other => other.name == rule.name
  if !doctype.heeded || (known && (rule.default?.isSome || identity)) then doctype
  else { doctype with rules := doctype.rules ++ [rule] }

/-- A reference to a parameter: unless the document stands alone, what is declared after it may depend on
declarations from outside and does not count. -/
def meetParameter (doctype : Doctype) : Doctype :=
  { doctype with isOpen := true, heeded := doctype.standalone }

def addBlank (tokenized : Bool) (value : List Char) : List Char :=
  if tokenized && (value.isEmpty || value.head? == some ' ') then value else ' ' :: value

/-- A value that has been read so far, last character first, with one more piece. Blanks become spaces, and
entities are put in by `expand`. -/
def addPiece (expand : String → List Char → Option (List Char)) (tokenized : Bool) (value : List Char) :
    Piece → Option (List Char)
  | .char c =>
    if isSpace c then some (addBlank tokenized value)
    else if c = '<' then none
    else some (c :: value)
  | .numbered c => some (if c = ' ' then addBlank tokenized value else c :: value)
  | .entity name =>
    match predefined? name with
    | some c => some (c :: value)
    | none => expand name value

/-- A value that has been read so far, last character first, with a text added, when the entities in `busy`
are already being put in. The depth bounds how far entities are nested. -/
def addText (doctype : Doctype) (tokenized : Bool) :
    Nat → List String → List Char → List Char → Option (List Char)
  | 0, _, _, _ => none
  | depth + 1, busy, value, text => do
    let expand (name : String) (value : List Char) : Option (List Char) :=
      match doctype.entities.lookup name with
      | none => if doctype.isComplete then none else some value
      | some none => none
      | some (some text) =>
        if busy.contains name then none else addText doctype tokenized depth (name :: busy) value text
    (← pieces? text).foldlM (addPiece expand tokenized) value

def value? (doctype : Doctype) (busy : List String) (tokenized : Bool) (text : List Char) :
    Option String := do
  let value ← doctype.addText tokenized (doctype.entities.length + 1) busy [] text
  let value := if tokenized && value.head? == some ' ' then value.tail else value
  return String.ofList value.reverse

end Doctype
end Switchboard.Markup
