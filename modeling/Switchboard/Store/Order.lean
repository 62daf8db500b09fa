import Switchboard.Text.Basic
/-! # Newest first

Rows are listed by a text that tells their time, the greatest first. Rows without one come last, and rows
with equal times keep their order.
-/
namespace Switchboard.Store

/-- Whether one time is before another; no time is before every time. -/
def earlier : Option Text → Option Text → Bool
  | none, none => false
  | none, some _ => true
  | some _, none => false
  | some s, some t => decide (s < t)

def newestFirst {α : Type} (time : α → Option Text) (rows : List α) : List α :=
  rows.mergeSort fun a b => !earlier (time a) (time b)

def filled (t : Option Text) : Option Text :=
  t.filter (· != ("" : Text))

end Switchboard.Store
