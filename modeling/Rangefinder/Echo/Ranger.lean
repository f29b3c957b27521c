import Rangefinder.Binary32
import Rangefinder.Notice
import Rangefinder.Sink
import Rangefinder.Echo.Cycle

/-! The ultrasonic ranger: pulses out on the trigger line, echo edges in, and an account of everything
that did not become a measurement. A measurement is the width of an echo and the distance that sound
covers in half of it, in centimetres; whole microseconds are halved before they become a
floating-point number. Statistics wrap at 32 bits. -/
namespace Rangefinder.Echo

def pulseMicros : Nat := 10

def longestEcho : Nat := 38000

def soundSpeed : Binary32 := .ofQuotient 343 10000

structure Measurement where
  elapsed : Nat
  centimetres : Binary32
  deriving DecidableEq, Repr

def Measurement.ofElapsed (elapsed : Nat) : Measurement :=
  ⟨elapsed, (Binary32.ofQuotient (elapsed / 2) 1).mulFinite soundSpeed⟩

structure RangerStats where
  measurements : UInt32
  skippedTriggers : UInt32
  timeouts : UInt32
  anomalies : UInt32
  triggerFailures : UInt32
  deriving DecidableEq, Repr

def RangerStats.zero : RangerStats := ⟨0, 0, 0, 0, 0⟩

structure Ranger where
  echoLine : Nat
  cycle : Cycle
  stats : RangerStats
  deriving DecidableEq, Repr

inductive TriggerError
  | setHigh (fault : Fault)
  | setLow (fault : Fault)
  deriving DecidableEq, Repr

def TriggerError.message : TriggerError → String
  | setHigh fault => s!"Trigger pin set-high failed: {fault.text}"
  | setLow fault => s!"Trigger pin set-low failed: {fault.text}"

inductive LineEvent
  | high
  | low
  | highFailed
  | lowFailed
  | delay (nanos : Nat)
  deriving DecidableEq, Repr

inductive Expiry
  | stray
  | unanswered
  deriving DecidableEq, Repr

def Expiry.notice : Expiry → Notice
  | stray => .strayExpired
  | unanswered => .unanswered

inductive Firing
  | fired
  | skipped
  | failed (error : TriggerError) (failures : UInt32)
  deriving DecidableEq, Repr

namespace Firing

def activity : Firing → List LineEvent
  | fired => [.high, .delay (pulseMicros * 1000), .low]
  | skipped => []
  | failed (.setHigh _) _ => [.highFailed]
  | failed (.setLow _) _ => [.high, .delay (pulseMicros * 1000), .lowFailed]

def notices : Firing → List Notice
  | skipped => [.skipped]
  | _ => []

end Firing

structure TriggerReport where
  expiry : Option Expiry
  firing : Firing
  deriving DecidableEq, Repr

def TriggerReport.notices (r : TriggerReport) : List Notice :=
  r.expiry.toList.map Expiry.notice ++ r.firing.notices

inductive Hearing
  | foreign
  | opened
  | orphan (tick : Tick)
  | tooLong (elapsed : Nat)
  | measured (measurement : Measurement)
  deriving DecidableEq, Repr

namespace Hearing

def measurement? : Hearing → Option Measurement
  | measured m => some m
  | _ => none

def notices : Hearing → List Notice
  | orphan tick => [.orphanFall tick.count.toNat]
  | tooLong elapsed => [.tooLong elapsed]
  | _ => []

end Hearing

def pulse (sink : Sink) : Option TriggerError × Sink :=
  if sink.answer then
    if sink.next.answer then (none, sink.next.next)
    else (some (.setLow (.trigger sink.next.calls)), sink.next.next)
  else (some (.setHigh (.trigger sink.calls)), sink.next)

namespace Ranger

def start (echoLine : Nat) : Ranger := ⟨echoLine, .idle, .zero⟩

def countMeasurement (r : Ranger) : Ranger :=
  { r with stats := { r.stats with measurements := r.stats.measurements + 1 } }

def countSkip (r : Ranger) : Ranger :=
  { r with stats := { r.stats with skippedTriggers := r.stats.skippedTriggers + 1 } }

def countTimeout (r : Ranger) : Ranger :=
  { r with stats := { r.stats with timeouts := r.stats.timeouts + 1 } }

def countAnomaly (r : Ranger) : Ranger :=
  { r with stats := { r.stats with anomalies := r.stats.anomalies + 1 } }

def countFailure (r : Ranger) : Ranger :=
  { r with stats := { r.stats with triggerFailures := r.stats.triggerFailures + 1 } }

def expire (r : Ranger) (now : Nat) : Option Expiry × Ranger :=
  let cycle := r.cycle.anchor now
  if cycle.timedOut now then
    if cycle.isStray then (some .stray, { r with cycle := .idle }.countAnomaly)
    else (some .unanswered, { r with cycle := .idle }.countTimeout)
  else (none, { r with cycle })

def fire (r : Ranger) (sink : Sink) (now : Nat) : TriggerReport × Ranger × Sink :=
  let (expiry, r) := r.expire now
  if r.cycle.inFlight now then (⟨expiry, .skipped⟩, r.countSkip, sink)
  else
    match pulse sink with
    | (none, sink) => (⟨expiry, .fired⟩, { r with cycle := .trigger now }, sink)
    | (some error, sink) =>
      let r := { r with cycle := .idle }.countFailure
      (⟨expiry, .failed error r.stats.triggerFailures⟩, r, sink)

def hear (r : Ranger) (edge : Edge) : Hearing × Ranger :=
  if edge.line = r.echoLine then
    match edge.level with
    | .rising => (.opened, { r with cycle := r.cycle.rise edge.tick })
    | .falling =>
      match r.cycle.fall with
      | (none, cycle) => (.orphan edge.tick, { r with cycle }.countAnomaly)
      | (some start, cycle) =>
        let elapsed := edge.tick.since start
        if longestEcho < elapsed then (.tooLong elapsed, { r with cycle }.countAnomaly)
        else (.measured (.ofElapsed elapsed), { r with cycle }.countMeasurement)
  else (.foreign, r)

end Ranger

end Rangefinder.Echo
