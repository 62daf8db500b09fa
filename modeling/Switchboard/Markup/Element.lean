/-! # Elements of markup

A document is an element with attributes, a text and further elements. It is written without blanks; the
attributes come in the order of their names.
-/
namespace Switchboard.Markup

inductive Element where
  /-- An element with a name, attributes, the text at its front, and its children, each with the text
  after it. -/
  | node (name : String) (attributes : List (String × String)) (text : String)
      (children : List (Element × String))
deriving Repr, Inhabited

namespace Element

def leaf (name : String) (attributes : List (String × String)) (text : String) : Element :=
  node name attributes text []

def parent (name : String) (attributes : List (String × String)) (children : List Element) : Element :=
  node name attributes "" (children.map fun child => (child, ""))

def name : Element → String
  | node name _ _ _ => name

def attributes : Element → List (String × String)
  | node _ attributes _ _ => attributes

def text : Element → String
  | node _ _ text _ => text

def children : Element → List Element
  | node _ _ _ children => children.map Prod.fst

def child? (e : Element) (name : String) : Option Element :=
  e.children.find? fun child => child.name == name

def attribute? (e : Element) (name : String) : Option String :=
  e.attributes.lookup name

end Element

def escapeText (c : Char) : List Char :=
  if c = '&' then "&amp;".toList
  else if c = '<' then "&lt;".toList
  else if c = '>' then "&gt;".toList
  else [c]

def escapeAttribute (c : Char) : List Char :=
  if c = '"' then "&quot;".toList
  else if c = '\t' then "&#09;".toList
  else if c = '\n' then "&#10;".toList
  else if c = '\r' then "&#13;".toList
  else escapeText c

def escaped (escape : Char → List Char) (s : String) : String :=
  String.ofList (s.toList.flatMap escape)

def sortedAttributes (attributes : List (String × String)) : List (String × String) :=
  attributes.mergeSort fun a b => !decide (b.1 < a.1)

def attributesText (attributes : List (String × String)) : String :=
  String.join ((sortedAttributes attributes).map fun a =>
    " " ++ a.1 ++ "=\"" ++ escaped escapeAttribute a.2 ++ "\"")

mutual

def Element.print : Element → String
  | .node name attributes text children =>
    let opening := "<" ++ name ++ attributesText attributes
    if text = "" ∧ children.isEmpty then opening ++ " />"
    else opening ++ ">" ++ escaped escapeText text ++ printChildren children ++ "</" ++ name ++ ">"

def printChildren : List (Element × String) → String
  | [] => ""
  | (child, tail) :: rest => child.print ++ escaped escapeText tail ++ printChildren rest

end

def declaration : String := "<?xml version=\"1.0\" encoding=\"UTF-8\"?>"

def document (root : Element) : String :=
  declaration ++ root.print

end Switchboard.Markup
