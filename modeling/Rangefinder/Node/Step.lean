import Rangefinder.Schedule
import Rangefinder.Echo.Ranger
import Rangefinder.Message.Numbering
import Rangefinder.Node.Config

/-! A node: the ranger, the numbering of its transfers, its outbox and its schedule. It acts on edges
and on the clock, and never fails but by an instant out of range: a refused write or a full outbox is
reported, counted and passed over. -/
namespace Rangefinder
open Bus (Transfer Outbox Admission Drain Frame)
open Echo (Ranger Hearing Expiry TriggerReport Firing LineEvent Measurement)
open Message (Numbering)

def defaultCapacity : Nat := 16

def retryMicros : Nat := 1000

structure Node where
  config : Config
  ranger : Ranger
  numbering : Numbering
  outbox : Outbox
  schedule : Schedule
  deriving DecidableEq, Repr

structure Publication where
  transfer : Transfer
  admission : Admission
  deriving DecidableEq, Repr

def Publication.notices (p : Publication) : List Notice :=
  match p.admission with
  | .queued _ => p.admission.notices p.transfer
  | .refused full =>
    [.rejected p.transfer.subject.val p.transfer.transferId.val full.needed full.available]

structure EdgeReport where
  edge : Edge
  hearing : Hearing
  publication : Option Publication
  deriving DecidableEq, Repr

namespace EdgeReport

def measurement? (r : EdgeReport) : Option Measurement := r.hearing.measurement?

def notices (r : EdgeReport) : List Notice :=
  r.hearing.notices ++ (r.measurement?.toList.map fun m => .measured m.elapsed) ++
    r.publication.toList.flatMap Publication.notices

end EdgeReport

structure Beat where
  uptime : UInt32
  publication : Publication
  deriving DecidableEq, Repr

structure StepReport where
  expiry : Option Expiry
  trigger : Option TriggerReport
  beat : Option Beat
  drain : Drain
  deriving DecidableEq, Repr

namespace StepReport

def sent (r : StepReport) : List Frame := r.drain.sent

def activity (r : StepReport) : List LineEvent :=
  r.trigger.toList.flatMap fun t => t.firing.activity

def failureNotices : TriggerReport → List Notice
  | ⟨_, .failed _ failures⟩ => [.triggerFailed failures.toNat]
  | _ => []

def notices (r : StepReport) : List Notice :=
  r.expiry.toList.map Expiry.notice ++
    (r.trigger.toList.flatMap fun t => t.notices ++ failureNotices t) ++
    (r.beat.toList.flatMap fun b => b.publication.notices) ++ r.drain.notices

end StepReport

namespace Node

def start (config : Config) (capacity boot : Nat) : Node :=
  { config
    ranger := .start config.echoLine
    numbering := .start
    outbox := .empty config.node config.policy capacity
    schedule := .start boot config.triggerPeriod config.heartbeatPeriod }

def publish (n : Node) (transfer : Transfer) : Publication × Node :=
  let (admission, outbox) := n.outbox.add transfer
  (⟨transfer, admission⟩, { n with outbox })

def publishDistance (n : Node) (m : Measurement) : Publication × Node :=
  let (transfer, numbering) := n.numbering.ofDistance m.centimetres
  { n with numbering }.publish transfer

def publishHeartbeat (n : Node) (uptime : UInt32) : Publication × Node :=
  let (transfer, numbering) := n.numbering.ofHeartbeat uptime
  { n with numbering }.publish transfer

def observe (n : Node) (edge : Edge) : EdgeReport × Node :=
  let (hearing, ranger) := n.ranger.hear edge
  let n := { n with ranger }
  match hearing.measurement? with
  | none => (⟨edge, hearing, none⟩, n)
  | some m =>
    let (publication, n) := n.publishDistance m
    (⟨edge, hearing, some publication⟩, n)

def fireIfDue (n : Node) (trigger : Sink) (now : Nat) :
    Except Overflow (Option TriggerReport × Node × Sink) := do
  let (due, schedule) ← n.schedule.takeTrigger now
  let n := { n with schedule }
  if due then
    let (report, ranger, trigger) := n.ranger.fire trigger now
    .ok (some report, { n with ranger }, trigger)
  else .ok (none, n, trigger)

def beatIfDue (n : Node) (now : Nat) : Except Overflow (Option Beat × Node) := do
  let (uptime?, schedule) ← n.schedule.takeHeartbeat now
  let n := { n with schedule }
  match uptime? with
  | none => .ok (none, n)
  | some uptime =>
    let (publication, n) := n.publishHeartbeat uptime
    .ok (some ⟨uptime, publication⟩, n)

def step (n : Node) (sinks : Sinks) (now : Nat) : Except Overflow (StepReport × Node × Sinks) := do
  let (expiry, ranger) := n.ranger.expire now
  let (trigger, n, line) ← { n with ranger }.fireIfDue sinks.trigger now
  let (beat, n) ← n.beatIfDue now
  let (drain, outbox, bus) := n.outbox.drain sinks.bus
  .ok (⟨expiry, trigger, beat, drain⟩, { n with outbox }, ⟨bus, line⟩)

def wake (n : Node) (now : Nat) : Except Overflow Nat := do
  let timeout ← n.ranger.cycle.deadline
  let due := timeout.elim n.schedule.deadline (min n.schedule.deadline)
  if n.outbox.frames.isEmpty then .ok due
  else
    let retry ← inWord (now + retryMicros)
    .ok (min due retry)

end Node

end Rangefinder
