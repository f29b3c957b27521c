import Rangefinder.Time

/-! The two deadlines of a node, both due at boot. A heartbeat moves its deadline by exactly one period,
so that missed heartbeats are made up one at a time. A trigger moves its deadline past the present
along the grid of periods from boot, so that missed triggers fall together. -/
namespace Rangefinder

structure Schedule where
  boot : Nat
  triggerPeriod : Nat
  heartbeatPeriod : Nat
  nextTrigger : Nat
  nextHeartbeat : Nat
  triggerPeriodPos : 0 < triggerPeriod
  heartbeatPeriodPos : 0 < heartbeatPeriod
  deriving DecidableEq, Repr

namespace Schedule

def start (boot triggerPeriod heartbeatPeriod : Nat) : Schedule :=
  { boot
    triggerPeriod := max triggerPeriod 1
    heartbeatPeriod := max heartbeatPeriod 1
    nextTrigger := boot
    nextHeartbeat := boot
    triggerPeriodPos := by omega
    heartbeatPeriodPos := by omega }

def uptime (s : Schedule) (now : Nat) : UInt32 :=
  UInt32.ofNat (min ((now - s.boot) / 1000000) 4294967295)

def takeTrigger (s : Schedule) (now : Nat) : Except Overflow (Bool × Schedule) :=
  if now < s.nextTrigger then .ok (false, s)
  else do
    let periods ← inWord ((now - s.nextTrigger) / s.triggerPeriod + 1)
    let ahead ← inWord (periods * s.triggerPeriod)
    let nextTrigger ← inWord (s.nextTrigger + ahead)
    .ok (true, { s with nextTrigger })

def takeHeartbeat (s : Schedule) (now : Nat) : Except Overflow (Option UInt32 × Schedule) :=
  if now < s.nextHeartbeat then .ok (none, s)
  else do
    let nextHeartbeat ← inWord (s.nextHeartbeat + s.heartbeatPeriod)
    .ok (some (s.uptime now), { s with nextHeartbeat })

def deadline (s : Schedule) : Nat := min s.nextTrigger s.nextHeartbeat

def backlog (s : Schedule) (now : Nat) : Nat :=
  if now < s.nextHeartbeat then 0 else (now - s.nextHeartbeat) / s.heartbeatPeriod + 1

end Schedule

end Rangefinder
