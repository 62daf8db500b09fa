import Switchboard.Markup.Character
/-! # Tokens

What stands before the root of a document is read token by token: names, literals, the marks that open and
close declarations, and comments and instructions that are passed over. Blanks between tokens say nothing.
-/
namespace Switchboard.Markup

inductive Token where
  | name (text : String)
  | prefixed (text : String)
  | word
  | counted
  | literal (text : List Char)
  | opening (keyword : String)
  | closing
  | hash (word : String)
  | percent
  | parameter
  | openBracket
  | closeBracket
  | openGroup
  /-- A parenthesis that closes, with a mark that tells how often the group comes. -/
  | closeGroup (mark : Option Char)
  | comma
  | bar
  | aside
deriving DecidableEq, Repr

namespace Token

def isWordChar (c : Char) : Bool :=
  isNameChar c || c = ':'

def ofRun (run : List Char) : Token :=
  let first := run.takeWhile (· != ':')
  let tail := run.drop (first.length + 1)
  if !isName first then word
  else if first.length = run.length then name (String.ofList run)
  else if tail.isEmpty || tail.contains ':' then word
  else prefixed (String.ofList run)

def endsWord (c : Char) : Bool :=
  isSpace c || c = '>' || c = ')' || c = ',' || c = '|' || c = '[' || c = '%'

def isMark (c : Char) : Bool :=
  c = '?' || c = '*' || c = '+'

def word? (s : List Char) : Option (Token × List Char) :=
  let token := ofRun (s.takeWhile isWordChar)
  match s.dropWhile isWordChar with
  | c :: rest =>
    if endsWord c then some (token, c :: rest)
    else if isMark c && token ≠ word then some (counted, rest)
    else none
  | [] => none

def literal? (quote : Char) (s : List Char) : Option (Token × List Char) := do
  let (text, rest) ← upTo? [quote] s
  let next ← rest.head?
  if isSpace next || next = '>' || next = '[' || next = '%' then some (literal text, rest) else none

def name? (s : List Char) : Option (String × List Char) :=
  if s.head?.any isNameStart then
    some (String.ofList (s.takeWhile isNameChar), s.dropWhile isNameChar)
  else none

/-- The text after a comment, whose first two characters of four are read. -/
def afterComment? (s : List Char) : Option (List Char) := do
  let rest ← after? "--" s
  let (_, rest) ← upTo? ['-', '-'] rest
  after? ">" rest

/-- The text after an instruction, whose first two characters are read. The name of an instruction is not
that of a declaration, in whatever case. -/
def afterInstruction? (s : List Char) : Option (List Char) := do
  let (target, rest) ← name? s
  if target.toLower = "xml" then none
  else
    let (inner, rest) ← upTo? ['?', '>'] rest
    if inner.isEmpty || inner.head?.any isSpace then some rest else none

def opening? (s : List Char) : Option (Token × List Char) :=
  let isLetter (c : Char) : Bool := c.isAlpha || c = '_'
  let rest := s.dropWhile isLetter
  if rest.head?.any isSpace then some (opening (String.ofList (s.takeWhile isLetter)), rest) else none

def closeGroup? : List Char → Option (Token × List Char)
  | [] => none
  | c :: rest =>
    if isMark c then some (closeGroup (some c), rest)
    else if isSpace c || c = '>' || c = ',' || c = '|' || c = ')' then some (closeGroup none, c :: rest)
    else none

def percent? (s : List Char) : Option (Token × List Char) :=
  if s.head?.any fun c => isSpace c || c = '%' then some (percent, s)
  else do
    let (_, rest) ← name? s
    return (parameter, ← after? ";" rest)

def hash? (s : List Char) : Option (Token × List Char) := do
  let (text, rest) ← name? s
  let next ← rest.head?
  if isSpace next || next = ')' || next = '>' || next = '%' || next = '|' then some (hash text, rest)
  else none

def ofText? : List Char → Option (Token × List Char)
  | '<' :: '!' :: rest =>
    if rest.head? == some '-' then (afterComment? rest).map (aside, ·) else opening? rest
  | '<' :: '?' :: rest => (afterInstruction? rest).map (aside, ·)
  | '"' :: rest => literal? '"' rest
  | '\'' :: rest => literal? '\'' rest
  | '>' :: rest => some (closing, rest)
  | '[' :: rest => some (openBracket, rest)
  | ']' :: ']' :: '>' :: _ => none
  | ']' :: rest => some (closeBracket, rest)
  | '(' :: rest => some (openGroup, rest)
  | ')' :: rest => closeGroup? rest
  | ',' :: rest => some (comma, rest)
  | '|' :: rest => some (bar, rest)
  | '%' :: rest => percent? rest
  | '#' :: rest => hash? rest
  | c :: rest => if isWordChar c then word? (c :: rest) else none
  | [] => none

/-- The tokens up to the first tag, and the text from it on, with a bound on the number of tokens. -/
def manyWithin? : Nat → List Char → Option (List Token × List Char)
  | 0, _ => none
  | bound + 1, s =>
    match s.dropWhile isSpace with
    | '<' :: c :: rest =>
      if isNameStart c then some ([], '<' :: c :: rest)
      else do
        let (token, rest) ← ofText? ('<' :: c :: rest)
        let (tokens, rest) ← manyWithin? bound rest
        return (token :: tokens, rest)
    | s => do
      let (token, rest) ← ofText? s
      let (tokens, rest) ← manyWithin? bound rest
      return (token :: tokens, rest)

def many? (s : List Char) : Option (List Token × List Char) :=
  manyWithin? (s.length + 1) s

def areAsidesWithin : Nat → List Char → Bool
  | 0, _ => false
  | bound + 1, s =>
    match s.dropWhile isSpace with
    | [] => true
    | s =>
      match ofText? s with
      | some (aside, rest) => areAsidesWithin bound rest
      | _ => false

def areAsides (s : List Char) : Bool :=
  areAsidesWithin (s.length + 1) s

end Token
end Switchboard.Markup
