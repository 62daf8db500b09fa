import Switchboard.Text.Part
/-! # Hosts of addresses

The part of an address that names a host may hold a numeric address in brackets. No character of it may be
a variant of one that separates the parts of an address.
-/
namespace Switchboard.Http.HostName

def isHexDigit (c : Char) : Bool :=
  c.isDigit || ('a' ≤ c && c ≤ 'f') || ('A' ≤ c && c ≤ 'F')

def isGroup (s : List Char) : Bool :=
  !s.isEmpty && s.length ≤ 4 && s.all isHexDigit

def isOctet (s : List Char) : Bool :=
  !s.isEmpty && s.length ≤ 3 && s.all Char.isDigit && (s.length = 1 || s.head? != some '0') &&
    s.foldl (fun n c => n * 10 + (c.toNat - 48)) 0 ≤ 255

def isShort (s : List Char) : Bool :=
  let octets := Text.pieces '.' s
  octets.length = 4 && octets.all isOctet

/-- The groups of a long numeric address; a short address at its end stands for two groups. -/
def groupsOf? (s : List Char) : Option (List (List Char)) :=
  let parts := Text.pieces ':' s
  let last := parts.getLast?.getD []
  if parts.length < 3 then none
  else if !last.contains '.' then some parts
  else if isShort last then some (parts.dropLast ++ [['0'], ['0']])
  else none

/-- The number of groups on one side of the gap, if they are groups; the gap may be at an end. -/
def countSide? (side : List (List Char)) : Option Nat :=
  if side = [[]] then some 0 else if side.all isGroup then some side.length else none

def isLong (s : List Char) : Bool :=
  match groupsOf? s with
  | none => false
  | some groups =>
    let gap := 1 + (groups.tail.dropLast.takeWhile (!·.isEmpty)).length
    if gap + 1 < groups.length then
      match countSide? (groups.take gap), countSide? (groups.drop (gap + 1)) with
      | some before, some behind => before + behind < 8
      | _, _ => false
    else groups.length = 8 && groups.all isGroup

/-- Whether the text may stand in brackets: a long numeric address, which may have a zone, or one of a later
version. -/
def isBracketed (s : List Char) : Bool :=
  match s with
  | 'v' :: rest =>
    let version := rest.takeWhile isHexDigit
    let tail := rest.drop version.length
    !version.isEmpty && tail.head? == some '.' && 1 < tail.length
  | s =>
    let address := s.takeWhile (· != '%')
    let zone := s.drop (address.length + 1)
    let zoned := address.length < s.length
    isLong address && (!zoned || (!zone.isEmpty && !zone.contains '%'))

def separatorVariants : List Nat :=
  [0x2047, 0x2048, 0x2049, 0x2100, 0x2101, 0x2105, 0x2106, 0x2a74, 0xfe13, 0xfe16, 0xfe55, 0xfe56, 0xfe5f,
    0xfe6b, 0xff03, 0xff0f, 0xff1a, 0xff1f, 0xff20]

def isAccepted (s : List Char) : Bool :=
  let inner := (s.dropWhile (· != '[')).drop 1
  let bracketed := !s.contains '[' || isBracketed (inner.takeWhile (· != ']'))
  s.contains '[' == s.contains ']' && bracketed && !s.any fun c => separatorVariants.contains c.toNat

end Switchboard.Http.HostName
