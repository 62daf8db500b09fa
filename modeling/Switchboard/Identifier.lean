import Switchboard.Value.Display
/-! # Fresh identifiers

New flows, blocks and calls get identifiers that no earlier one has. A supply counts those it has given
out; the identifier of a count is 32 hexadecimal digits, of which the first eight show the count.
-/
namespace Switchboard

structure Supply where
  used : Nat
deriving DecidableEq, Repr, Inhabited

namespace Supply

def identifier (count : Nat) : String :=
  Text.hexText 8 count ++ String.ofList (List.replicate 24 '0')

def next (supply : Supply) : String :=
  identifier (supply.used + 1)

def nextShort (supply : Supply) : String :=
  String.ofList (supply.next.toList.take 8)

def advance (supply : Supply) : Supply :=
  { used := supply.used + 1 }

end Supply
end Switchboard
