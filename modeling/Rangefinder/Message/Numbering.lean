import Rangefinder.Bus.Segmentation
import Rangefinder.Message.Heartbeat

/-! Messages become transfers of nominal priority. Each subject counts its own transfers from zero, and
a number is spent whatever becomes of the transfer. -/
namespace Rangefinder.Message
open Bus (Priority SubjectId Transfer TransferId)

def priority : Priority := .nominal

structure Numbering where
  heartbeat : TransferId
  distance : TransferId
  deriving DecidableEq, Repr

namespace Numbering

def start : Numbering := ⟨.first, .first⟩

def next? (n : Numbering) (subject : SubjectId) : Option TransferId :=
  if subject = Layout.subject Heartbeat then some n.heartbeat
  else if subject = Layout.subject Distance then some n.distance
  else none

def ofHeartbeat (n : Numbering) (uptime : UInt32) : Transfer × Numbering :=
  ({ priority
     subject := Layout.subject Heartbeat
     transferId := n.heartbeat
     payload := Layout.toBytes (Heartbeat.nominal uptime)
     fits := by simp [Layout.toBytes, Bus.payloadLimit] },
    { n with heartbeat := n.heartbeat.next })

def ofDistance (n : Numbering) (centimetres : Binary32) : Transfer × Numbering :=
  ({ priority
     subject := Layout.subject Distance
     transferId := n.distance
     payload := Layout.toBytes (⟨centimetres⟩ : Distance)
     fits := by simp [Layout.toBytes, Bus.payloadLimit] },
    { n with distance := n.distance.next })

end Numbering

def numbers : Nat → TransferId → List TransferId × TransferId
  | 0, t => ([], t)
  | count + 1, t =>
    let (ids, after) := numbers count t.next
    (t :: ids, after)

end Rangefinder.Message
