import Rangefinder.Node.Step

/-! A node behind a bounded inbox of edges. Edges are posted from outside, and refused when the inbox is
full; a turn hands all that wait to the node in order and then lets it step. -/
namespace Rangefinder

structure Station where
  node : Node
  capacity : Nat
  waiting : List Edge
  deriving DecidableEq, Repr

structure TurnReport where
  edges : List EdgeReport
  step : StepReport
  deriving DecidableEq, Repr

def TurnReport.notices (r : TurnReport) : List Notice :=
  r.edges.flatMap EdgeReport.notices ++ r.step.notices

namespace Node

def observeAll (n : Node) : List Edge → List EdgeReport × Node
  | [] => ([], n)
  | edge :: rest =>
    let (report, n) := n.observe edge
    let (reports, n) := n.observeAll rest
    (report :: reports, n)

end Node

namespace Station

def start (node : Node) (capacity : Nat) : Station := ⟨node, capacity, []⟩

def post (s : Station) (edge : Edge) : Bool × Station :=
  if s.waiting.length < s.capacity then (true, { s with waiting := s.waiting ++ [edge] })
  else (false, s)

def postNotices (edge : Edge) (accepted : Bool) : List Notice :=
  if accepted then [] else [.inboxFull edge.tick.count.toNat]

def pump (s : Station) : List EdgeReport × Station :=
  let (reports, node) := s.node.observeAll s.waiting
  (reports, { s with node, waiting := [] })

def turn (s : Station) (sinks : Sinks) (now : Nat) :
    Except Overflow (TurnReport × Station × Sinks) := do
  let (edges, s) := s.pump
  let (step, node, sinks) ← s.node.step sinks now
  .ok (⟨edges, step⟩, { s with node }, sinks)

end Station

end Rangefinder
