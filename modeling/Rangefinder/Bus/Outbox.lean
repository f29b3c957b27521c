import Rangefinder.Notice
import Rangefinder.Sink
import Rangefinder.Bus.Segmentation

/-! Frames on their way to the bus, first in first out. A transfer is taken in whole or not at all.
The bus may refuse a frame: it is then kept for the next pass, or dropped and counted. Statistics
wrap at 32 bits. -/
namespace Rangefinder.Bus

inductive FailurePolicy
  | retry
  | drop
  deriving DecidableEq, Repr

structure OutboxStats where
  transmitted : UInt32
  transmitErrors : UInt32
  droppedFrames : UInt32
  rejectedTransfers : UInt32
  deriving DecidableEq, Repr

namespace OutboxStats

def zero : OutboxStats := ⟨0, 0, 0, 0⟩

def accept (s : OutboxStats) : OutboxStats := { s with transmitted := s.transmitted + 1 }

def refuse (s : OutboxStats) : OutboxStats := { s with transmitErrors := s.transmitErrors + 1 }

def discard (s : OutboxStats) : OutboxStats := { s with droppedFrames := s.droppedFrames + 1 }

def reject (s : OutboxStats) : OutboxStats :=
  { s with rejectedTransfers := s.rejectedTransfers + 1 }

end OutboxStats

structure Outbox where
  source : NodeId
  policy : FailurePolicy
  capacity : Nat
  frames : List Frame
  stats : OutboxStats
  deriving DecidableEq, Repr

structure OutboxFull where
  needed : Nat
  available : Nat
  deriving DecidableEq, Repr

def OutboxFull.message (e : OutboxFull) : String :=
  s!"TX queue full -> needed: {e.needed} frames, available: {e.available}"

inductive Admission
  | queued (frames : Nat)
  | refused (full : OutboxFull)
  deriving DecidableEq, Repr

def Admission.notices (t : Transfer) : Admission → List Notice
  | queued frames => [.queued t.subject.val t.transferId.val frames]
  | refused _ => []

structure SendError where
  fault : Fault
  deriving DecidableEq, Repr

def SendError.message (e : SendError) : String := s!"CAN bus send error: {e.fault.text}"

inductive Attempt
  | idle
  | accepted (frame : Frame)
  | refused (frame : Frame) (error : SendError)
  deriving DecidableEq, Repr

def Attempt.result : Attempt → Except SendError Bool
  | idle => .ok false
  | accepted _ => .ok true
  | refused _ error => .error error

inductive Offer
  | accepted (frame : Frame)
  | kept (frame : Frame) (errors : UInt32) (waiting : Nat)
  | dropped (frame : Frame) (errors drops : UInt32)
  deriving DecidableEq, Repr

namespace Offer

def frame : Offer → Frame
  | accepted frame | kept frame .. | dropped frame .. => frame

def sent? : Offer → Option Frame
  | accepted frame => some frame
  | _ => none

def notice? : Offer → Option Notice
  | accepted _ => none
  | kept _ errors waiting => some (.kept errors.toNat waiting)
  | dropped _ errors drops => some (.dropped errors.toNat drops.toNat)

def isDropped : Offer → Bool
  | dropped .. => true
  | _ => false

end Offer

structure Drain where
  offers : List Offer
  remaining : Nat
  deriving DecidableEq, Repr

namespace Drain

def sent (d : Drain) : List Frame := d.offers.filterMap Offer.sent?

def notices (d : Drain) : List Notice := d.offers.filterMap Offer.notice?

def transmitted (d : Drain) : Nat := d.sent.length

def failed (d : Drain) : Nat := d.offers.countP fun o => o.sent?.isNone

def dropped (d : Drain) : Nat := d.offers.countP Offer.isDropped

end Drain

namespace Outbox

def empty (source : NodeId) (policy : FailurePolicy) (capacity : Nat) : Outbox :=
  ⟨source, policy, capacity, [], .zero⟩

def available (q : Outbox) : Nat := q.capacity - q.frames.length

def push (q : Outbox) : List Frame → Outbox × Bool
  | [] => (q, true)
  | frame :: rest =>
    if q.frames.length < q.capacity then { q with frames := q.frames ++ [frame] }.push rest
    else (q, false)

def add (q : Outbox) (t : Transfer) : Admission × Outbox :=
  let needed := framesNeeded t.payload.length
  let full := Admission.refused ⟨needed, q.available⟩
  if q.available < needed then (full, { q with stats := q.stats.reject })
  else
    match q.push (t.frames q.source) with
    | (filled, true) => (.queued needed, filled)
    | (filled, false) => (full, { filled with stats := filled.stats.reject })

def offerHead (q : Outbox) (bus : Sink) : Attempt × Outbox × Sink :=
  match q.frames with
  | [] => (.idle, q, bus)
  | frame :: rest =>
    if bus.answer then
      (.accepted frame, { q with frames := rest, stats := q.stats.accept }, bus.next)
    else (.refused frame ⟨.bus bus.calls⟩, { q with stats := q.stats.refuse }, bus.next)

def offerAll (policy : FailurePolicy) (stats : OutboxStats) (bus : Sink) :
    List Frame → List Offer × List Frame × OutboxStats × Sink
  | [] => ([], [], stats, bus)
  | frame :: rest =>
    if bus.answer then
      let (offers, left, stats, bus) := offerAll policy stats.accept bus.next rest
      (.accepted frame :: offers, left, stats, bus)
    else
      let stats := stats.refuse
      match policy with
      | .retry =>
        ([.kept frame stats.transmitErrors (rest.length + 1)], frame :: rest, stats, bus.next)
      | .drop =>
        let stats := stats.discard
        let offer := Offer.dropped frame stats.transmitErrors stats.droppedFrames
        let (offers, left, stats, bus) := offerAll policy stats bus.next rest
        (offer :: offers, left, stats, bus)

def drain (q : Outbox) (bus : Sink) : Drain × Outbox × Sink :=
  let (offers, left, stats, bus) := offerAll q.policy q.stats bus q.frames
  (⟨offers, left.length⟩, { q with frames := left, stats }, bus)

def peek? (q : Outbox) : Option Frame := q.frames.head?

def pop (q : Outbox) : Option Frame × Outbox := (q.frames.head?, { q with frames := q.frames.tail })

end Outbox

end Rangefinder.Bus
