import Rangefinder.Bus.Outbox

/-! What is chosen before a node starts. Periods are in microseconds. -/
namespace Rangefinder

structure Config where
  node : Bus.NodeId
  triggerPeriod : Nat
  heartbeatPeriod : Nat
  policy : Bus.FailurePolicy
  echoLine : Nat
  deriving DecidableEq, Repr

namespace Config

def defaultEchoLine : Nat := 24

def ofNode (node : Bus.NodeId) : Config :=
  { node
    triggerPeriod := 50000
    heartbeatPeriod := 1000000
    policy := .retry
    echoLine := defaultEchoLine }

def standard : Config := ofNode (.truncate 0)

def notice (c : Config) : Notice :=
  .up c.node.val (c.triggerPeriod / 1000) (c.heartbeatPeriod / 1000)

end Config

end Rangefinder
