import Switchboard.Markup.Declaration
import Switchboard.Markup.Element
import Switchboard.Markup.Namespace
/-! # Reading markup

A document is read if it is well formed: a declaration of itself and a document type, both of which may be
missing, and one root with matching tags, legal characters, known references and bound namespaces. Comments
and instructions are passed over, and entities are put in where they are used.
-/
namespace Switchboard.Markup

def areDistinct : List String → Bool
  | [] => true
  | text :: rest => !rest.contains text && areDistinct rest

def qualifiedName? (s : List Char) : Option (String × List Char) := do
  let (first, rest) ← Token.name? s
  match rest with
  | ':' :: rest => do
    let (second, rest) ← Token.name? rest
    if rest.head? == some ':' then none else return (first ++ ":" ++ second, rest)
  | rest => return (first, rest)

def attribute? (s : List Char) : Option ((String × List Char) × List Char) := do
  let (name, rest) ← qualifiedName? s
  let rest ← after? "=" (rest.dropWhile isSpace)
  match rest.dropWhile isSpace with
  | quote :: rest =>
    if quote = '"' || quote = '\'' then
      let (text, rest) ← upTo? [quote] rest
      return ((name, text), rest)
    else none
  | [] => none

def attributesWithin? : Nat → List Char → Option (List (String × List Char) × Bool × List Char)
  | 0, _ => none
  | bound + 1, s =>
    match s.dropWhile isSpace with
    | '>' :: rest => some ([], false, rest)
    | '/' :: '>' :: rest => some ([], true, rest)
    | inner =>
      if s.head?.any isSpace then do
        let (first, rest) ← attribute? inner
        let (others, ends, rest) ← attributesWithin? bound rest
        return (first :: others, ends, rest)
      else none

structure Tag where
  written : String
  name : String
  attributes : List (String × String)
  spaces : Namespaces
  ends : Bool

/-- The values of the attributes of a tag: those that are given, and those that the rules give. -/
def attributeValues? (doctype : Doctype) (busy : List String) (element : String)
    (given : List (String × List Char)) : Option (List (String × String)) := do
  let values ← given.mapM fun (name, text) => do
    let tokenized := doctype.isTokenized element name
    return (name, ← doctype.value? busy tokenized text)
  let added := (doctype.rulesOf element).filterMap fun rule =>
    if given.any fun pair => pair.1 == rule.name then none
    else rule.default?.map fun value => (rule.name, value)
  return values ++ added

def tag? (doctype : Doctype) (busy : List String) (spaces : Namespaces) (bound : Nat) (s : List Char) :
    Option (Tag × List Char) := do
  let (written, rest) ← qualifiedName? s
  let (given, ends, rest) ← attributesWithin? bound rest
  if !areDistinct (given.map Prod.fst) then none
  else
    let values ← attributeValues? doctype busy written given
    let spaces ← values.foldlM (fun spaces (value : String × String) =>
      match Namespaces.bound? value.1 with
      | some short => spaces.bind? short value.2
      | none => some spaces) spaces
    let attributes ← (values.filter fun value => (Namespaces.bound? value.1).isNone).mapM fun value => do
      return (← spaces.attributeName? value.1, value.2)
    let name ← spaces.elementName? written
    if areDistinct (attributes.map Prod.fst) then return ({ written, name, attributes, spaces, ends }, rest)
    else none

structure Content where
  text : List Char
  children : List (Element × String)

namespace Content

def empty : Content := ⟨[], []⟩

def after (text : List Char) (content : Content) : Content :=
  { content with text := text ++ content.text }

def afterChild (child : Element) (content : Content) : Content :=
  ⟨[], (child, String.ofList content.text) :: content.children⟩

def append (first second : Content) : Content :=
  first.children.foldr (fun child content =>
    afterChild child.1 (content.after child.2.toList)) second |>.after first.text

end Content

def normalLines : List Char → List Char
  | '\r' :: '\n' :: rest => '\n' :: normalLines rest
  | '\r' :: rest => '\n' :: normalLines rest
  | c :: rest => c :: normalLines rest
  | [] => []

structure Surroundings where
  doctype : Doctype
  busy : List String
  entity? : Namespaces → String → Option Content

mutual

def element? (around : Surroundings) (spaces : Namespaces) : Nat → List Char → Option (Element × List Char)
  | 0, _ => none
  | fuel + 1, s => do
    let (tag, rest) ← tag? around.doctype around.busy spaces fuel s
    if tag.ends then return (.node tag.name tag.attributes "" [], rest)
    else
      let (content, rest) ← content? around tag.spaces fuel rest
      let rest ← after? tag.written (← rest)
      let rest ← after? ">" (rest.dropWhile isSpace)
      return (.node tag.name tag.attributes (String.ofList content.text) content.children, rest)

/-- The content up to a closing tag or the end. The text after the mark of that tag follows, if there is
one. -/
def content? (around : Surroundings) (spaces : Namespaces) :
    Nat → List Char → Option (Content × Option (List Char))
  | 0, _ => none
  | fuel + 1, s =>
    match s with
    | [] => some (.empty, none)
    | '<' :: '/' :: rest => some (.empty, some rest)
    | '<' :: '!' :: '[' :: _ => do
      let rest ← after? "<![CDATA[" s
      let (text, rest) ← upTo? [']', ']', '>'] rest
      let (content, rest) ← content? around spaces fuel rest
      return (content.after (normalLines text), rest)
    | '<' :: '!' :: rest => do content? around spaces fuel (← Token.afterComment? rest)
    | '<' :: '?' :: rest => do content? around spaces fuel (← Token.afterInstruction? rest)
    | '<' :: rest => do
      let (child, rest) ← element? around spaces fuel rest
      let (content, rest) ← content? around spaces fuel rest
      return (content.afterChild child, rest)
    | '&' :: rest => do
      let (piece, rest) ← reference? rest
      let (content, rest) ← content? around spaces fuel rest
      match piece with
      | .char c | .numbered c => return (content.after [c], rest)
      | .entity name =>
        match predefined? name with
        | some c => return (content.after [c], rest)
        | none => return ((← around.entity? spaces name).append content, rest)
    | ']' :: ']' :: '>' :: _ => none
    | '\r' :: rest => do
      let (content, rest) ← content? around spaces fuel (if rest.head? == some '\n' then rest.drop 1 else rest)
      return (content.after ['\n'], rest)
    | c :: rest =>
      if isLegal c then do
        let (content, rest) ← content? around spaces fuel rest
        return (content.after [c], rest)
      else none

end

/-- The content of an entity, when those in `busy` are already being put in. The depth bounds how far
entities are nested. -/
def entityContent? (doctype : Doctype) : Nat → List String → Namespaces → String → Option Content
  | 0, _, _, _ => none
  | depth + 1, busy, spaces, name => do
    let text ← (← doctype.entities.lookup name)
    let around : Surroundings :=
      { doctype, busy := name :: busy, entity? := entityContent? doctype depth (name :: busy) }
    let (content, rest) ← content? around spaces (text.length + 1) text
    if busy.contains name || rest.isSome then none else return content

/-- A pair of a name and a value at the front of a declaration, after a blank, and the text after it;
nothing when only blanks are left. -/
def pair? (s : List Char) : Option (Option ((String × String) × List Char)) := do
  let inner := s.dropWhile isSpace
  if inner.isEmpty then return none
  else if !s.head?.any isSpace then none
  else
    let name := inner.takeWhile fun c => c != '=' && !isSpace c
    let rest ← after? "=" ((inner.drop name.length).dropWhile isSpace)
    match rest.dropWhile isSpace with
    | quote :: rest =>
      let value := rest.takeWhile fun c => c.isAlphanum || c = '.' || c = '-' || c = '_'
      if quote = '"' || quote = '\'' then
        let rest ← after? (String.ofList [quote]) (rest.drop value.length)
        return some ((String.ofList name, String.ofList value), rest)
      else none
    | [] => none

def standalone? (s : List Char) : Option Bool := do
  match ← pair? s with
  | none => return false
  | some ((name, value), rest) =>
    if name = "standalone" && (value = "yes" || value = "no") && rest.all isSpace then return value = "yes"
    else none

def declared? (s : List Char) : Option Bool := do
  let ((name, _), rest) ← (← pair? s)
  if name ≠ "version" then none
  else
    match ← pair? rest with
    | some (("encoding", value), after) =>
      if value.toList.head?.any Char.isAlpha then standalone? after else none
    | _ => standalone? rest

def afterDeclaration? (s : List Char) : Option (Bool × List Char) :=
  match after? "<?xml" s with
  | some (c :: rest) =>
    if isSpace c then do
      let (inner, rest) ← upTo? ['?', '>'] (c :: rest)
      return (← declared? inner, rest)
    else some (false, s)
  | _ => some (false, s)

def readDocument? (document : String) : Option Element := do
  let s := document.toList
  let (standalone, s) ← afterDeclaration? (if s.head? == some '\ufeff' then s.drop 1 else s)
  let (tokens, s) ← Token.many? s
  let doctype ← Doctype.ofTokens? { standalone, written := document.utf8ByteSize } tokens
  if !doctype.mayGrow s then none
  let around : Surroundings :=
    { doctype, busy := [], entity? := entityContent? doctype (doctype.entities.length + 1) [] }
  let (root, rest) ← element? around Namespaces.first (s.length + 1) (← after? "<" s)
  if Token.areAsides rest then some root else none

end Switchboard.Markup
