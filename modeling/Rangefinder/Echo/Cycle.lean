import Rangefinder.Time

/-! One ranging cycle, from a trigger pulse (`firedAt`) or from a rising edge that no trigger explains (a
stray) to the falling edge or the timeout. `risenAt` is the tick of the latest rising edge. Edges carry
no instant, so a stray is timed from the first instant at which the node looks at it (`seenAt`). -/
namespace Rangefinder.Echo

def echoTimeout : Nat := 40000

structure Cycle where
  risenAt : Option Tick
  firedAt : Option Nat
  seenAt : Option Nat
  deriving DecidableEq, Repr

namespace Cycle

def idle : Cycle := ⟨none, none, none⟩

def isStray (c : Cycle) : Bool := c.firedAt.isNone && c.risenAt.isSome

def since (c : Cycle) : Option Nat := c.firedAt.or c.seenAt

def inFlight (c : Cycle) (now : Nat) : Bool :=
  match c.since with
  | some opened => decide (now - opened < echoTimeout)
  | none => c.risenAt.isSome

def timedOut (c : Cycle) (now : Nat) : Bool :=
  c.since.any fun opened => decide (echoTimeout ≤ now - opened)

def deadline (c : Cycle) : Except Overflow (Option Nat) :=
  match c.since with
  | some opened => (inWord (opened + echoTimeout)).map some
  | none => .ok none

def anchor (c : Cycle) (now : Nat) : Cycle :=
  if c.isStray && c.seenAt.isNone then { c with seenAt := some now } else c

def trigger (now : Nat) : Cycle := ⟨none, some now, none⟩

def rise (c : Cycle) (tick : Tick) : Cycle := { c with risenAt := some tick }

def fall (c : Cycle) : Option Tick × Cycle :=
  match c.risenAt with
  | some tick => (some tick, idle)
  | none => (none, c)

@[simp] theorem anchorRisenAt (c : Cycle) (now : Nat) : (c.anchor now).risenAt = c.risenAt := by
  unfold anchor
  split <;> rfl

@[simp] theorem anchorFiredAt (c : Cycle) (now : Nat) :
    (c.anchor now).firedAt = c.firedAt := by
  unfold anchor
  split <;> rfl

@[simp] theorem isStrayAnchor (c : Cycle) (now : Nat) : (c.anchor now).isStray = c.isStray := by
  simp [isStray]

theorem inFlightOfSince {c : Cycle} {opened now : Nat} (h : c.since = some opened) :
    c.inFlight now = !c.timedOut now := by
  simp only [inFlight, timedOut, h, Option.any_some, ← decide_not, Nat.not_le]

end Cycle

end Rangefinder.Echo
