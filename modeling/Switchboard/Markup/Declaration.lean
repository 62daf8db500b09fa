import Switchboard.Markup.Growth
import Switchboard.Markup.Token
/-! # Reading declarations

The document type names the root and may hold declarations of entities, of attributes, of elements and of
notations. All of them have to be well formed, but only entities and attributes make a difference.
-/
namespace Switchboard.Markup

namespace Declaration

def isPublicId (text : List Char) : Bool :=
  text.all fun c => c.isAlphanum || c = ' ' || c = '\n' || c = '\r' || "-'()+,./:=?;!*#@$_%".toList.contains c

def afterPlace? : List Token → Option (List Token)
  | .name "SYSTEM" :: .literal _ :: rest => some rest
  | .name "PUBLIC" :: .literal id :: .literal _ :: rest => if isPublicId id then some rest else none
  | _ => none

def afterClosing? : List Token → Option (List Token)
  | .closing :: rest => some rest
  | _ => none

def entity? (doctype : Doctype) : List Token → Option (Doctype × List Token)
  | .name name :: .literal value :: rest => do
    let text ← if doctype.heeded then entityText? value else some []
    return (doctype.declareEntity name (some text), ← afterClosing? rest)
  | .percent :: .name _ :: .literal value :: rest => do
    if doctype.heeded then
      let _ ← entityText? value
    return (doctype, ← afterClosing? rest)
  | .percent :: .name _ :: rest => do
    return (doctype, ← afterClosing? (← afterPlace? rest))
  | .name name :: rest => do
    match ← afterPlace? rest with
    | .name "NDATA" :: .name _ :: rest => return (doctype.declareEntity name none, ← afterClosing? rest)
    | rest => return (doctype.declareEntity name none, ← afterClosing? rest)
  | _ => none

def notation? : List Token → Option (List Token)
  | .name _ :: .name "PUBLIC" :: .literal id :: .closing :: rest => if isPublicId id then some rest else none
  | .name _ :: rest => (afterPlace? rest).bind afterClosing?
  | _ => none

def attributeTypes : List String :=
  ["CDATA", "ID", "IDREF", "IDREFS", "ENTITY", "ENTITIES", "NMTOKEN", "NMTOKENS"]

def isChoice : Token → Bool
  | .name _ | .prefixed _ | .word => true
  | _ => false

def isPlainName : Token → Bool
  | .name _ => true
  | _ => false

def afterChoices? (accepts : Token → Bool) : List Token → Option (List Token)
  | choice :: .bar :: rest => if accepts choice then afterChoices? accepts rest else none
  | choice :: .closeGroup none :: rest => if accepts choice then some rest else none
  | _ => none

def attributeType? : List Token → Option (Option String × List Token)
  | .openGroup :: rest => (afterChoices? isChoice rest).map (none, ·)
  | .name "NOTATION" :: .openGroup :: rest => (afterChoices? isPlainName rest).map (none, ·)
  | .name type :: rest => if attributeTypes.contains type then some (some type, rest) else none
  | _ => none

/-- What is told about an attribute that is missing: the text of its value, if it has one, and the tokens
after it. -/
def attributeDefault? : List Token → Option (Option (List Char) × List Token)
  | .hash "IMPLIED" :: rest | .hash "REQUIRED" :: rest => some (none, rest)
  | .hash "FIXED" :: .literal text :: rest | .literal text :: rest => some (some text, rest)
  | _ => none

/-- The value that a missing attribute has, from the text of its declaration. -/
def given? (doctype : Doctype) (tokenized : Bool) (text : List Char) : Option String :=
  if doctype.mayGrow text then doctype.value? [] tokenized text else none

def nameOf? : Token → Option String
  | .name text | .prefixed text => some text
  | _ => none

/-- The declaration of attributes of an element, after the name of the element, with a bound on their
number. -/
def attributes? (element : String) : Nat → Doctype → List Token → Option (Doctype × List Token)
  | 0, _, _ => none
  | _, doctype, .closing :: rest => some (doctype, rest)
  | bound + 1, doctype, token :: rest => do
    let name ← nameOf? token
    let (type, rest) ← attributeType? rest
    let tokenized := type != some "CDATA"
    let (text, rest) ← attributeDefault? rest
    let default? ← if doctype.heeded then text.mapM (given? doctype tokenized) else some none
    let identity := type == some "ID" && default?.isNone
    attributes? element bound (doctype.declareRule { element, name, tokenized, default? } identity) rest
  | _, _, [] => none

inductive Connector where
  | sequence
  | choice
deriving DecidableEq, Repr

/-- The groups that are open, innermost first, with a further part of the innermost one put to the others
by a connector; a group has one connector. -/
def connect? (connector : Connector) : List (Option Connector) → Option (List (Option Connector))
  | none :: outer => some (some connector :: outer)
  | some known :: outer => if known = connector then some (some known :: outer) else none
  | [] => none

/-- The tokens after a model of what elements may hold. `groups` are the groups that are open, innermost
first; `complete` tells whether a part has just been read. -/
def afterModel? (complete : Bool) (groups : List (Option Connector)) : List Token → Option (List Token)
  | [] => none
  | token :: rest =>
    match complete, token with
    | false, .openGroup => afterModel? false (none :: groups) rest
    | false, .name _ | false, .prefixed _ | false, .counted => afterModel? true groups rest
    | true, .closeGroup _ =>
      match groups.tail with
      | [] => some rest
      | outer => afterModel? true outer rest
    | true, .comma => do afterModel? false (← connect? .sequence groups) rest
    | true, .bar => do afterModel? false (← connect? .choice groups) rest
    | _, _ => none

def afterMixed? : List Token → Option (List Token)
  | .closeGroup (some '*') :: rest => some rest
  | .bar :: .name _ :: rest | .bar :: .prefixed _ :: rest => afterMixed? rest
  | _ => none

def element? : List Token → Option (List Token)
  | name :: rest => do
    let _ ← nameOf? name
    match rest with
    | .name "EMPTY" :: rest | .name "ANY" :: rest => afterClosing? rest
    | .openGroup :: .hash "PCDATA" :: .closeGroup none :: rest => afterClosing? rest
    | .openGroup :: .hash "PCDATA" :: rest => afterClosing? (← afterMixed? rest)
    | .openGroup :: rest => afterClosing? (← afterModel? false [none] rest)
    | _ => none
  | [] => none

def many? : Nat → Doctype → List Token → Option (Doctype × List Token)
  | 0, _, _ => none
  | bound + 1, doctype, tokens =>
    match tokens with
    | .closeBracket :: rest => some (doctype, rest)
    | .aside :: rest => many? bound doctype rest
    | .parameter :: rest => many? bound doctype.meetParameter rest
    | .opening "ENTITY" :: rest => do
      let (doctype, rest) ← entity? doctype rest
      many? bound doctype rest
    | .opening "ATTLIST" :: name :: rest => do
      let (doctype, rest) ← attributes? (← nameOf? name) (rest.length + 1) doctype rest
      many? bound doctype rest
    | .opening "ELEMENT" :: rest => do many? bound doctype (← element? rest)
    | .opening "NOTATION" :: rest => do many? bound doctype (← notation? rest)
    | _ => none

def inner? (doctype : Doctype) : List Token → Option (Doctype × List Token)
  | .openBracket :: rest => many? (rest.length + 1) doctype rest
  | tokens => some (doctype, tokens)

def doctype? (doctype : Doctype) : List Token → Option (Doctype × List Token)
  | name :: rest => do
    let _ ← nameOf? name
    let place := afterPlace? rest
    let (doctype, rest) ← inner? { doctype with isOpen := place.isSome } (place.getD rest)
    return (doctype, ← afterClosing? rest)
  | [] => none

end Declaration

/-- What a document declares: what is known before, and what the tokens before its root say. -/
def Doctype.ofTokens? (doctype : Doctype) (tokens : List Token) : Option Doctype :=
  match tokens.dropWhile (· = .aside) with
  | [] => some doctype
  | .opening "DOCTYPE" :: rest => do
    let (doctype, rest) ← Declaration.doctype? doctype rest
    if rest.all (· = .aside) then some doctype else none
  | _ => none

end Switchboard.Markup
