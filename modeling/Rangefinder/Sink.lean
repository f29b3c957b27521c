/-! Something outside that accepts or refuses each call: the bus, or the trigger line. Calls are numbered
over the whole life of a sink, and a refusal is known by the number of its call. -/
namespace Rangefinder

structure Sink where
  accepts : Nat → Bool
  calls : Nat

namespace Sink

def willing : Sink := ⟨fun _ => true, 0⟩

def answer (s : Sink) : Bool := s.accepts s.calls

def next (s : Sink) : Sink := { s with calls := s.calls + 1 }

def script (s : Sink) (plan : List Bool) (thereafter : Bool) : Sink :=
  { s with accepts := fun call => (plan[call - s.calls]?).getD thereafter }

@[simp] theorem callsNext (s : Sink) : s.next.calls = s.calls + 1 := rfl

@[simp] theorem acceptsNext (s : Sink) : s.next.accepts = s.accepts := rfl

@[simp] theorem answerWilling : willing.answer = true := rfl

end Sink

inductive Fault
  | bus (call : Nat)
  | trigger (call : Nat)
  deriving DecidableEq, Repr

def Fault.text : Fault → String
  | bus call => s!"BusFault({call})"
  | trigger call => s!"PinFault({call})"

structure Sinks where
  bus : Sink
  trigger : Sink

def Sinks.willing : Sinks := ⟨.willing, .willing⟩

end Rangefinder
