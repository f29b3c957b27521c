/-! What the node has to say while it runs, and the wording of each line. -/
namespace Rangefinder

inductive Severity
  | trace
  | debug
  | info
  | warn
  deriving DecidableEq, Repr

def Severity.word : Severity → String
  | trace => "TRACE"
  | debug => "DEBUG"
  | info => "INFO"
  | warn => "WARN"

inductive Notice
  | up (node triggerMillis heartbeatMillis : Nat)
  | measured (elapsed : Nat)
  | skipped
  | orphanFall (tick : Nat)
  | tooLong (elapsed : Nat)
  | strayExpired
  | unanswered
  | triggerFailed (failures : Nat)
  | queued (subject transferId frames : Nat)
  | rejected (subject transferId needed available : Nat)
  | kept (errors waiting : Nat)
  | dropped (errors drops : Nat)
  | inboxFull (tick : Nat)
  deriving DecidableEq, Repr

namespace Notice

def severity : Notice → Severity
  | up .. => .info
  | measured _ | skipped | queued .. => .trace
  | orphanFall _ | tooLong _ | strayExpired | unanswered => .debug
  | triggerFailed _ | rejected .. | kept .. | dropped .. | inboxFull _ => .warn

def text : Notice → String
  | up node trigger heartbeat =>
    s!"node {node} up: trigger every {trigger} ms, heartbeat every {heartbeat} ms"
  | measured elapsed => s!"range {elapsed} us"
  | skipped => "trigger skipped, cycle in flight"
  | orphanFall tick => s!"falling edge at {tick} without rising edge"
  | tooLong elapsed => s!"echo of {elapsed} us exceeds the sensor range"
  | strayExpired => "rising edge without trigger never fell, discarded"
  | unanswered => "echo timeout, cycle abandoned"
  | triggerFailed failures => s!"trigger pin write failed, cycle abandoned ({failures} total)"
  | queued subject id frames => s!"queued subject {subject} tid {id} as {frames} frame(s)"
  | rejected subject id needed available =>
    s!"subject {subject} tid {id} dropped: queue full " ++
      s!"({needed} frames needed, {available} free)"
  | kept errors waiting =>
    s!"CAN write failed ({errors} total), {waiting} frame(s) kept for retry"
  | dropped errors drops =>
    s!"CAN write failed ({errors} total), frame dropped ({drops} dropped)"
  | inboxFull tick => s!"edge channel full, edge at {tick} dropped"

def line (n : Notice) : String := n.severity.word ++ " " ++ n.text

end Notice

end Rangefinder
