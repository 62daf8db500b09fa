import Switchboard.Http.Form
import Switchboard.Http.HeaderValue
import Switchboard.Value.Display
/-! # Forms in parts

A form may come in parts, with a delimiter before each of them: a line end, two hyphens and a boundary, and
then another line end. Two more hyphens stand after the last one. A part has headers, an empty line and a
content, and one of its headers names it. Parts whose end is missing do not count.
-/
namespace Switchboard.Http.Multipart

def cr : UInt8 := 0x0d

def lf : UInt8 := 0x0a

def hyphen : UInt8 := 0x2d

def isNameByte (b : UInt8) : Bool :=
  let c := Char.ofNat b.toNat
  c.isAlphanum || "!#$%&'*+-.^_\x60|~".toList.contains c

def byteText (bytes : List UInt8) : String :=
  String.ofList (bytes.map fun b => Char.ofNat b.toNat)

def textBytes (s : String) : List UInt8 :=
  s.toList.map fun c => UInt8.ofNat c.toNat

def header (bytes : List UInt8) : Except FormFault (Option ((String × String) × List UInt8)) :=
  let name := bytes.takeWhile isNameByte
  match bytes.drop name.length with
  | [] => .ok none
  | c :: rest =>
    if c ≠ 0x3a ∨ name.isEmpty then .error .broken
    else
      let rest := rest.dropWhile (· == 0x20)
      let value := rest.takeWhile (· != cr)
      match rest.drop (value.length + 1) with
      | [] => .ok none
      | b :: rest =>
        if b = lf then .ok (some ((headerName (byteText name), byteText value), rest)) else .error .broken

/-- The headers up to an empty line, at most `fuel` of them, and the bytes after that; nothing when the
bytes break off before. -/
def headers : Nat → List UInt8 → Except FormFault (Option (List (String × String) × List UInt8))
  | 0, _ => .ok none
  | fuel + 1, bytes =>
    match bytes with
    | [] => .ok none
    | first :: rest =>
      if first = cr then
        match rest with
        | [] => .ok none
        | second :: rest => if second = lf then .ok (some ([], rest)) else .error .broken
      else do
        match ← header bytes with
        | none => return none
        | some (h, rest) =>
          let more ← headers fuel rest
          return more.map fun (others, rest) => (h :: others, rest)

def delimited? (delimiter bytes : List UInt8) : Option (Bool × List UInt8) :=
  if delimiter.isPrefixOf bytes then
    match bytes.drop delimiter.length with
    | a :: b :: rest =>
      if a = cr ∧ b = lf then some (true, rest)
      else if a = hyphen ∧ b = hyphen then some (false, rest)
      else none
    | _ => none
  else none

/-- A content up to the next delimiter, whether another part follows, and the bytes after the delimiter;
nothing when there is no delimiter. -/
def content? (delimiter : List UInt8) : List UInt8 → Option (List UInt8 × Bool × List UInt8)
  | [] => none
  | b :: rest =>
    match delimited? delimiter (b :: rest) with
    | some after => some ([], after)
    | none => (content? delimiter rest).map fun found => (b :: found.1, found.2)

def isUtf8 (encoding : String) : Bool :=
  ["utf8", "u8", "utf"].contains
    (String.ofList ((headerName encoding).toList.filter fun c => c != '-' && c != '_'))

/-- The text of bytes in an encoding. Bytes that are no UTF-8, or are not meant to be, are characters. -/
def decode (encoding : String) (bytes : List UInt8) : String :=
  match if isUtf8 encoding then Text.decode? bytes else none with
  | some s => String.ofList s
  | none => byteText bytes

structure Head where
  headers : List (String × String)
  name : String
  fileName : Option String
deriving DecidableEq, Repr

def Head.ofHeaders (encoding : String) (headers : List (String × String)) : Except FormFault Head :=
  let disposition := HeaderValue.parse ((headers.reverse.lookup "content-disposition").getD "")
  let text (s : String) := decode encoding (textBytes s)
  match disposition.get? "name" with
  | none => .error .unnamedPart
  | some name => .ok { headers, name := text name, fileName := (disposition.get? "filename").map text }

/-- What a part stands for: its content, or a description of the file. -/
def Head.value (head : Head) (encoding : String) (content : List UInt8) : String :=
  match head.fileName with
  | none => decode encoding content
  | some name =>
    let headers : Value := .obj (Entries.ofList (head.headers.map fun h => ((h.1 : Text), .str h.2)))
    "UploadFile(filename=" ++ Text.quoted name ++ ", size=" ++ toString content.length ++
      ", headers=Headers(" ++ headers.quoted?.getD "" ++ "))"

def parts (delimiter : List UInt8) (encoding : String) :
    Nat → Nat → Nat → List UInt8 → Except FormFault Parameters
  | 0, _, _, _ => .ok []
  | fuel + 1, fields, files, bytes => do
    match ← headers bytes.length bytes with
    | none => return []
    | some (headers, rest) =>
      let head ← Head.ofHeaders encoding headers
      let isFile := head.fileName.isSome
      if !isFile && mostFields ≤ fields then throw .tooManyFields
      if isFile && mostFields ≤ files then throw .tooManyFiles
      match content? delimiter rest with
      | none => return []
      | some (content, more, rest) =>
        let field := (head.name, head.value encoding content)
        if more then
          let others ← parts delimiter encoding fuel (if isFile then fields else fields + 1)
            (if isFile then files + 1 else files) rest
          return field :: others
        else return [field]

/-- The bytes after the delimiter in front of the first part; nothing when there is no part. -/
def start (boundary body : List UInt8) : Except FormFault (Option (List UInt8)) :=
  let opening := hyphen :: hyphen :: boundary
  let body := body.dropWhile fun b => b == cr || b == lf
  if opening.isPrefixOf body then
    match body.drop opening.length with
    | a :: b :: rest =>
      if a = cr ∧ b = lf then .ok (some rest)
      else if a = hyphen ∧ b = hyphen then .ok none
      else .error .broken
    | [a] => if a = cr ∨ a = hyphen then .ok none else .error .broken
    | [] => .ok none
  else if body.isPrefixOf opening then .ok none
  else .error .broken

def parameters (type : HeaderValue) (body : List UInt8) : Except FormFault Parameters :=
  match type.get? "boundary" with
  | none => .error .noBoundary
  | some boundary => do
    let boundary := textBytes boundary
    match ← start boundary body with
    | none => return []
    | some rest =>
      let encoding := (type.get? "charset").getD "utf-8"
      let fields ← parts (cr :: lf :: hyphen :: hyphen :: boundary) encoding body.length 0 0 rest
      return Parameters.settle fields

end Switchboard.Http.Multipart
