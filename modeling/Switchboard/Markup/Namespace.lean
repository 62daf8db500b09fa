import Switchboard.Markup.Character
/-! # Namespaces

An attribute may bind a short name to the address of a namespace, for the element that it stands in and
for all inside it. A name in a namespace is written with the address in braces before it.
-/
namespace Switchboard.Markup

/-- The namespaces that are bound, by their short names; the last binding comes first. The empty short name
is that of elements without one. -/
abbrev Namespaces := List (String × String)

namespace Namespaces

def ownAddress : String := "http://www.w3.org/XML/1998/namespace"

def bindingAddress : String := "http://www.w3.org/2000/xmlns/"

def first : Namespaces := [("xml", ownAddress)]

/-- The namespaces with one more binding. The names with a meaning of their own keep it, and only the empty
short name can be bound to nothing. -/
def bind? (spaces : Namespaces) (short address : String) : Option Namespaces :=
  if (address = "" && short ≠ "") || short = "xmlns" || address.toList.contains '\x7d' ||
      (short = "xml") ≠ (address = ownAddress) || address = bindingAddress then none
  else some ((short, address) :: spaces)

def split (name : String) : Option String × String :=
  let first := name.toList.takeWhile (· != ':')
  match name.toList.drop first.length with
  | [] => (none, name)
  | _ :: rest => (some (String.ofList first), String.ofList rest)

def bound? (name : String) : Option String :=
  match split name with
  | (none, "xmlns") => some ""
  | (some "xmlns", short) => some short
  | _ => none

def qualify (address name : String) : String :=
  if address = "" then name else "\x7b" ++ address ++ "\x7d" ++ name

def elementName? (spaces : Namespaces) (name : String) : Option String :=
  match split name with
  | (none, name) => some (qualify ((spaces.lookup "").getD "") name)
  | (some short, name) => (spaces.lookup short).map (qualify · name)

def attributeName? (spaces : Namespaces) (name : String) : Option String :=
  match split name with
  | (none, name) => some name
  | (some short, name) => (spaces.lookup short).map (qualify · name)

end Namespaces
end Switchboard.Markup
