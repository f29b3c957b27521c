import Rangefinder.Proofs.Bus.Cursor
import Rangefinder.Proofs.Node.Query
import Rangefinder.Proofs.Node.Wire

/-! A node with all its arithmetic checked: the numbers of its transfers, the way into the outbox, the
counts of a pass, both deadlines, the timeout and the retry. It agrees with the node itself, so it
traps only where the node refuses an instant, and never while the word has room for the run. -/
namespace Rangefinder
open Bus (Outbox Transfer TransferId)
open Echo (Cycle Measurement TriggerReport echoTimeout)
open Message (Numbering)

namespace Bus.TransferId

def byteLimit : Nat := 256

def nextChecked (t : TransferId) : Except Trap TransferId := do
  let raw ← Trap.add byteLimit t.val 1
  .ok (.truncate raw)

theorem nextExact (t : TransferId) : t.nextChecked = .ok t.next := by
  have fits := t.fits
  have raw : Trap.add byteLimit t.val 1 = .ok (t.val + 1) :=
    Trap.addFits (by simp only [byteLimit]; omega)
  simp only [nextChecked, raw, bind, Except.bind]
  rfl

end Bus.TransferId

namespace Message.Numbering

def ofHeartbeatChecked (n : Numbering) (uptime : UInt32) : Except Trap (Transfer × Numbering) := do
  let heartbeat ← n.heartbeat.nextChecked
  .ok ((n.ofHeartbeat uptime).1, { n with heartbeat })

def ofDistanceChecked (n : Numbering) (centimetres : Binary32) :
    Except Trap (Transfer × Numbering) := do
  let distance ← n.distance.nextChecked
  .ok ((n.ofDistance centimetres).1, { n with distance })

theorem ofHeartbeatExact (n : Numbering) (uptime : UInt32) :
    n.ofHeartbeatChecked uptime = .ok (n.ofHeartbeat uptime) := by
  simp only [ofHeartbeatChecked, TransferId.nextExact, bind, Except.bind]
  rfl

theorem ofDistanceExact (n : Numbering) (centimetres : Binary32) :
    n.ofDistanceChecked centimetres = .ok (n.ofDistance centimetres) := by
  simp only [ofDistanceChecked, TransferId.nextExact, bind, Except.bind]
  rfl

end Message.Numbering

namespace Echo.Cycle

def deadlineChecked (c : Cycle) : Except Trap (Option Nat) :=
  match c.since with
  | some opened => (Trap.add wordLimit opened echoTimeout).map some
  | none => .ok none

theorem deadlineAgrees (c : Cycle) : Agrees c.deadlineChecked c.deadline := by
  unfold deadlineChecked deadline
  cases c.since with
  | none => exact agreesOk none
  | some opened => exact agreesMap (agreesFit _) some

end Echo.Cycle

namespace Node

def publishChecked (n : Node) (transfer : Transfer) : Except Trap (Publication × Node) := do
  let (admission, outbox) ← n.outbox.addChecked transfer
  .ok (⟨transfer, admission⟩, { n with outbox })

def publishDistanceChecked (n : Node) (m : Measurement) : Except Trap (Publication × Node) := do
  let (transfer, numbering) ← n.numbering.ofDistanceChecked m.centimetres
  { n with numbering }.publishChecked transfer

def publishHeartbeatChecked (n : Node) (uptime : UInt32) : Except Trap (Publication × Node) := do
  let (transfer, numbering) ← n.numbering.ofHeartbeatChecked uptime
  { n with numbering }.publishChecked transfer

def observeChecked (n : Node) (edge : Edge) : Except Trap (EdgeReport × Node) := do
  let (hearing, ranger) := n.ranger.hear edge
  let n := { n with ranger }
  match hearing.measurement? with
  | none => .ok (⟨edge, hearing, none⟩, n)
  | some m =>
    let (publication, n) ← n.publishDistanceChecked m
    .ok (⟨edge, hearing, some publication⟩, n)

def fireIfDueChecked (n : Node) (trigger : Sink) (now : Nat) :
    Except Trap (Option TriggerReport × Node × Sink) := do
  let (due, schedule) ← n.schedule.takeTriggerChecked now
  let n := { n with schedule }
  if due then
    let (report, ranger, trigger) := n.ranger.fire trigger now
    .ok (some report, { n with ranger }, trigger)
  else .ok (none, n, trigger)

def beatIfDueChecked (n : Node) (now : Nat) : Except Trap (Option Beat × Node) := do
  let (uptime?, schedule) ← n.schedule.takeHeartbeatChecked now
  let n := { n with schedule }
  match uptime? with
  | none => .ok (none, n)
  | some uptime =>
    let (publication, n) ← n.publishHeartbeatChecked uptime
    .ok (some ⟨uptime, publication⟩, n)

def stepChecked (n : Node) (sinks : Sinks) (now : Nat) : Except Trap (StepReport × Node × Sinks) := do
  let (expiry, ranger) := n.ranger.expire now
  let (trigger, n, line) ← { n with ranger }.fireIfDueChecked sinks.trigger now
  let (beat, n) ← n.beatIfDueChecked now
  let (drain, outbox, bus) ← n.outbox.drainChecked sinks.bus
  .ok (⟨expiry, trigger, beat, drain⟩, { n with outbox }, ⟨bus, line⟩)

def wakeChecked (n : Node) (now : Nat) : Except Trap Nat := do
  let timeout ← n.ranger.cycle.deadlineChecked
  let due := timeout.elim n.schedule.deadline (min n.schedule.deadline)
  if n.outbox.frames.isEmpty then .ok due
  else
    let retry ← Trap.add wordLimit now retryMicros
    .ok (min due retry)

def askChecked (n : Node) (sinks : Sinks) : Query → Except Trap Entry
  | .observe edge => do
    let (report, n) ← n.observeChecked edge
    .ok ⟨.observed report, n, sinks⟩
  | .step now => do
    let (report, n, sinks) ← n.stepChecked sinks now
    .ok ⟨.stepped now report, n, sinks⟩
  | .wake now => do
    let wake ← n.wakeChecked now
    .ok ⟨.woken now wake, n, sinks⟩

def serveChecked (n : Node) (sinks : Sinks) : List Query → Except Trap (List Entry)
  | [] => .ok []
  | q :: rest => do
    let entry ← n.askChecked sinks q
    let later ← entry.node.serveChecked entry.sinks rest
    .ok (entry :: later)

section
variable {n : Node}

theorem publishExact (sized : n.outbox.Sized) (transfer : Transfer) :
    n.publishChecked transfer = .ok (n.publish transfer) := by
  simp only [publishChecked, Outbox.addExact sized, bind, Except.bind]
  rfl

theorem publishDistanceExact (sized : n.outbox.Sized) (m : Measurement) :
    n.publishDistanceChecked m = .ok (n.publishDistance m) := by
  simp only [publishDistanceChecked, Numbering.ofDistanceExact, bind, Except.bind]
  exact publishExact (n := { n with numbering := (n.numbering.ofDistance m.centimetres).2 }) sized _

theorem publishHeartbeatExact (sized : n.outbox.Sized) (uptime : UInt32) :
    n.publishHeartbeatChecked uptime = .ok (n.publishHeartbeat uptime) := by
  simp only [publishHeartbeatChecked, Numbering.ofHeartbeatExact, bind, Except.bind]
  exact publishExact (n := { n with numbering := (n.numbering.ofHeartbeat uptime).2 }) sized _

theorem observeExact (sized : n.outbox.Sized) (edge : Edge) :
    n.observeChecked edge = .ok (n.observe edge) := by
  have heard : { n with ranger := (n.ranger.hear edge).2 }.outbox.Sized := sized
  simp only [observeChecked, observe, publishDistanceExact heard, bind, Except.bind]
  cases (n.ranger.hear edge).1.measurement? <;> rfl

theorem observeSized (sized : n.outbox.Sized) (edge : Edge) : (n.observe edge).2.outbox.Sized := by
  rcases observeCases n edge with ⟨_, same⟩ | ⟨m, _, same⟩
  · rw [same]
    exact sized
  · rw [same]
    exact Outbox.addSized sized _

theorem fireIfDueAgrees (n : Node) (line : Sink) (now : Nat) :
    Agrees (n.fireIfDueChecked line now) (n.fireIfDue line now) := by
  refine agreesBind (n.schedule.takeTriggerAgrees now) fun (due, s) _ => ?_
  cases due <;> exact agreesOk _

theorem fireIfDueOutbox {line : Sink} {now : Nat} {out : Option TriggerReport × Node × Sink}
    (fired : n.fireIfDue line now = .ok out) : out.2.1.outbox = n.outbox := by
  obtain ⟨⟨due, s⟩, _, rest⟩ := bindOk.mp fired
  cases due <;> cases rest <;> rfl

theorem beatIfDueAgrees (sized : n.outbox.Sized) (now : Nat) :
    Agrees (n.beatIfDueChecked now) (n.beatIfDue now) := by
  refine agreesBind (n.schedule.takeHeartbeatAgrees now) fun (uptime?, s) _ => ?_
  cases uptime? with
  | none => exact agreesOk _
  | some uptime =>
    have scheduled : { n with schedule := s }.outbox.Sized := sized
    simp only [publishHeartbeatExact scheduled]
    exact agreesOk _

theorem beatIfDueSized (sized : n.outbox.Sized) {now : Nat} {out : Option Beat × Node}
    (beaten : n.beatIfDue now = .ok out) : out.2.outbox.Sized := by
  obtain ⟨⟨uptime?, s⟩, _, rest⟩ := bindOk.mp beaten
  cases uptime? with
  | none =>
    cases rest
    exact sized
  | some uptime =>
    cases rest
    exact Outbox.addSized sized _

theorem stepAgrees (sized : n.outbox.Sized) (sinks : Sinks) (now : Nat) :
    Agrees (n.stepChecked sinks now) (n.step sinks now) := by
  refine agreesBind (fireIfDueAgrees _ sinks.trigger now) fun (trigger, m, line) fired => ?_
  have fresh : m.outbox.Sized := (fireIfDueOutbox fired : m.outbox = _) ▸ sized
  refine agreesBind (beatIfDueAgrees fresh now) fun (beat, m') beaten => ?_
  have filled : m'.outbox.Sized := beatIfDueSized fresh beaten
  simp only [Outbox.drainExact filled]
  exact agreesOk _

theorem stepSized (sized : n.outbox.Sized) {sinks : Sinks} {now : Nat}
    {out : StepReport × Node × Sinks} (ran : n.step sinks now = .ok out) : out.2.1.outbox.Sized := by
  obtain ⟨⟨trigger, m, line⟩, fired, rest⟩ := bindOk.mp ran
  obtain ⟨⟨beat, m'⟩, beaten, last⟩ := bindOk.mp rest
  have fresh : m.outbox.Sized := (fireIfDueOutbox fired : m.outbox = _) ▸ sized
  cases last
  exact Outbox.drainSized (beatIfDueSized fresh beaten) sinks.bus

theorem wakeAgrees (n : Node) (now : Nat) : Agrees (n.wakeChecked now) (n.wake now) := by
  refine agreesBind n.ranger.cycle.deadlineAgrees fun timeout _ => ?_
  split
  · exact agreesOk _
  · exact agreesBind (agreesFit _) fun retry _ => agreesOk _

theorem askAgrees (sized : n.outbox.Sized) (sinks : Sinks) (q : Query) :
    Agrees (n.askChecked sinks q) (n.ask sinks q) := by
  cases q with
  | observe edge =>
    simp only [askChecked, observeExact sized]
    exact agreesOk _
  | step now => exact agreesBind (stepAgrees sized sinks now) fun _ _ => agreesOk _
  | wake now => exact agreesBind (n.wakeAgrees now) fun _ _ => agreesOk _

theorem askSized (sized : n.outbox.Sized) {sinks : Sinks} {q : Query} {entry : Entry}
    (asked : n.ask sinks q = .ok entry) : entry.node.outbox.Sized := by
  cases q with
  | observe edge =>
    rw [askObserve.mp asked]
    exact observeSized sized edge
  | step now =>
    obtain ⟨report, n', sinks', ran, rfl⟩ := askStep.mp asked
    exact stepSized sized ran
  | wake now =>
    obtain ⟨wake, _, rfl⟩ := askWake.mp asked
    exact sized

theorem serveAgrees (sized : n.outbox.Sized) (sinks : Sinks) (queries : List Query) :
    Agrees (n.serveChecked sinks queries) (n.serve sinks queries) := by
  induction queries generalizing n sinks with
  | nil => exact agreesOk []
  | cons q rest ih =>
    refine agreesBind (askAgrees sized sinks q) fun entry asked => ?_
    exact agreesBind (ih (askSized sized asked) entry.sinks) fun _ _ => agreesOk _

end

theorem arithmeticHolds (config : Config) (capacity boot : Nat) (sinks : Sinks)
    (queries : List Query) (word : capacity < wordLimit)
    (room : ∀ q ∈ queries, ∀ now ∈ q.instant?, config.Room now) :
    (∃ entries, (start config capacity boot).serveChecked sinks queries = .ok entries ∧
      (start config capacity boot).serve sinks queries = .ok entries) ∧
    ∀ (s : Schedule) (now : Nat), (∃ trap, s.takeTriggerChecked now = .error trap) ↔
      s.nextTrigger ≤ now ∧
        wordLimit ≤ s.nextTrigger +
          ((now - s.nextTrigger) / s.triggerPeriod + 1) * s.triggerPeriod := by
  have sized : (start config capacity boot).outbox.Sized := ⟨Nat.zero_le capacity, word⟩
  obtain ⟨entries, served⟩ := serveRoom (startStands config capacity boot) sinks room
  have checked := (serveAgrees sized sinks queries entries).mpr served
  exact ⟨⟨entries, checked, served⟩, Schedule.takeTriggerTraps⟩

theorem arithmeticAtRim :
    let config : Config :=
      { Config.standard with triggerPeriod := 0, heartbeatPeriod := 18446744073709551615 }
    let queries : List Query :=
      [.step 0, .observe ⟨24, .rising, .ofMicros 100⟩, .observe ⟨24, .falling, .ofMicros 700⟩,
        .wake 0, .step 0, .wake 0]
    (defaultCapacity < wordLimit ∧ ∀ q ∈ queries, ∀ now ∈ q.instant?, config.Room now) ∧
      (∃ entries, (start config defaultCapacity 0).serveChecked .willing queries = .ok entries ∧
        (start config defaultCapacity 0).serve .willing queries = .ok entries) ∧
      ∃ trap, (Schedule.start 0 9223372036854775808 1).takeTriggerChecked 9223372036854775808 =
        .error trap := by
  intro config queries
  have word : defaultCapacity < wordLimit := by decide
  have room : config.Room 0 := ⟨by decide, by decide, by decide⟩
  have rooms : ∀ q ∈ queries, ∀ now ∈ q.instant?, config.Room now := by
    have boot : ∀ q ∈ queries, ∀ now ∈ q.instant?, now ≤ 0 := by decide
    intro q member now asked
    exact Config.roomEarlier (boot q member now asked) room
  obtain ⟨served, trigger⟩ := arithmeticHolds config defaultCapacity 0 .willing queries word rooms
  exact ⟨⟨word, rooms⟩, served, (trigger _ _).mpr ⟨by decide, by decide⟩⟩

end Node

end Rangefinder
