import Rangefinder.Node.Station

/-! The loop that drives a station on a clock. After each turn it sleeps until the node's next instant of
work, or until an edge is posted: the oldest edge is then taken from the inbox before the next turn.
The loop is parked when no edge waits and its instant is still to come; before the first turn it has no
such instant. -/
namespace Rangefinder

structure Loop where
  station : Station
  sinks : Sinks
  clock : Nat
  wake : Option Nat

namespace Loop

def start (station : Station) (sinks : Sinks) (boot : Nat) : Loop := ⟨station, sinks, boot, none⟩

def ready (l : Loop) : Bool :=
  match l.wake with
  | none => true
  | some wake => !l.station.waiting.isEmpty || decide (wake ≤ l.clock)

def takeEdge (l : Loop) : List EdgeReport × Station :=
  match l.wake, l.station.waiting with
  | some _, edge :: rest =>
    let (report, node) := l.station.node.observe edge
    ([report], { l.station with node, waiting := rest })
  | _, _ => ([], l.station)

def turn (l : Loop) : Except Overflow (TurnReport × Loop) := do
  let (first, station) := l.takeEdge
  let (report, station, sinks) ← station.turn l.sinks l.clock
  let wake ← station.node.wake l.clock
  .ok (⟨first ++ report.edges, report.step⟩, { l with station, sinks, wake := some wake })

def run : Nat → Loop → Except Overflow (List TurnReport × Loop)
  | 0, l => .ok ([], l)
  | limit + 1, l =>
    if l.ready then do
      let (report, l) ← l.turn
      let (reports, l) ← run limit l
      .ok (report :: reports, l)
    else .ok ([], l)

/-- Turns until the loop is parked. Only missed heartbeats make the loop turn again at once, so their
number bounds the turns. -/
def settle (l : Loop) : Except Overflow (List TurnReport × Loop) :=
  run (l.station.node.schedule.backlog l.clock + 1) l

def advance (l : Loop) (us : Nat) : Except Overflow Loop := do
  let clock ← inWord (l.clock + us)
  .ok { l with clock }

def tick (l : Loop) (us : Nat) : Nat → Except Overflow (List TurnReport × Loop)
  | 0 => .ok ([], l)
  | count + 1 => do
    let l ← l.advance us
    let (now, l) ← l.settle
    let (later, l) ← l.tick us count
    .ok (now ++ later, l)

def post (l : Loop) (edge : Edge) : Bool × Loop :=
  let (accepted, station) := l.station.post edge
  (accepted, { l with station })

end Loop

end Rangefinder
