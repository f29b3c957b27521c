import Rangefinder.Node.Station
import Rangefinder.Proofs.Schedule
import Rangefinder.Proofs.Bus.Ledger
import Rangefinder.Proofs.Echo.Ranger

/-! What edges and steps do to a node. A step fails only where the schedule refuses an instant: once its
deadlines are taken, it goes on to its end. An edge leaves the schedule alone, and so do the ranger,
the numbering and the outbox in a step. -/
namespace Rangefinder.Node
open Bus (Outbox)
open Echo (Ranger Cycle TriggerReport LineEvent echoTimeout)

def rangeWhen (due : Bool) (r : Ranger) (line : Sink) (now : Nat) :
    Option TriggerReport × Ranger × Sink :=
  if due then
    let (report, r, line) := (r.expire now).2.fire line now
    (some report, r, line)
  else (none, (r.expire now).2, line)

def beatWith (n : Node) : Option UInt32 → Option Beat × Node
  | none => (none, n)
  | some uptime =>
    let (publication, n) := n.publishHeartbeat uptime
    (some ⟨uptime, publication⟩, n)

def act (n : Node) (sinks : Sinks) (now : Nat) (due : Bool) (uptime? : Option UInt32)
    (schedule : Schedule) : StepReport × Node × Sinks :=
  let (trigger, ranger, line) := rangeWhen due n.ranger sinks.trigger now
  let (beat, rest) := { n with ranger, schedule }.beatWith uptime?
  let (drain, outbox, bus) := rest.outbox.drain sinks.bus
  (⟨(n.ranger.expire now).1, trigger, beat, drain⟩, { rest with outbox }, ⟨bus, line⟩)

theorem fireIfDueTaken {n : Node} {now : Nat} {due : Bool} {s : Schedule}
    (taken : n.schedule.takeTrigger now = .ok (due, s)) (line : Sink) :
    { n with ranger := (n.ranger.expire now).2 }.fireIfDue line now =
      .ok ((rangeWhen due n.ranger line now).1,
        { n with ranger := (rangeWhen due n.ranger line now).2.1, schedule := s },
        (rangeWhen due n.ranger line now).2.2) := by
  simp only [fireIfDue, taken, bind, Except.bind]
  cases due <;> rfl

theorem beatIfDueTaken {n : Node} {now : Nat} {uptime? : Option UInt32} {s : Schedule}
    (taken : n.schedule.takeHeartbeat now = .ok (uptime?, s)) :
    n.beatIfDue now = .ok ({ n with schedule := s }.beatWith uptime?) := by
  simp only [beatIfDue, taken, bind, Except.bind]
  cases uptime? <;> rfl

theorem stepAct (n : Node) (sinks : Sinks) (now : Nat) :
    n.step sinks now = n.schedule.takeTrigger now >>= fun (due, s) =>
      s.takeHeartbeat now >>= fun (uptime?, s) => .ok (n.act sinks now due uptime? s) := by
  cases taken : n.schedule.takeTrigger now with
  | error e => simp only [step, fireIfDue, taken, bind, Except.bind]
  | ok out =>
    obtain ⟨due, s⟩ := out
    simp only [step, fireIfDueTaken taken, bind, Except.bind]
    cases beaten : s.takeHeartbeat now with
    | error e => simp only [beatIfDue, beaten, bind, Except.bind]
    | ok out =>
      obtain ⟨uptime?, s'⟩ := out
      rw [beatIfDueTaken beaten]
      rfl

theorem stepOk {n : Node} {sinks : Sinks} {now : Nat} {out : StepReport × Node × Sinks} :
    n.step sinks now = .ok out ↔
      ∃ due s uptime? s', n.schedule.takeTrigger now = .ok (due, s) ∧
        s.takeHeartbeat now = .ok (uptime?, s') ∧ out = n.act sinks now due uptime? s' := by
  rw [stepAct, bindOk]
  constructor
  · rintro ⟨⟨due, s⟩, taken, rest⟩
    obtain ⟨⟨uptime?, s'⟩, beaten, same⟩ := bindOk.mp rest
    cases same
    exact ⟨due, s, uptime?, s', taken, beaten, rfl⟩
  · rintro ⟨due, s, uptime?, s', taken, beaten, rfl⟩
    exact ⟨(due, s), taken, bindOk.mpr ⟨(uptime?, s'), beaten, rfl⟩⟩

section
variable (n : Node) (sinks : Sinks) (now : Nat) (due : Bool) (uptime? : Option UInt32)
  (s : Schedule)

@[simp] theorem actSchedule : (n.act sinks now due uptime? s).2.1.schedule = s := by
  cases uptime? <;> rfl

@[simp] theorem actRanger : (n.act sinks now due uptime? s).2.1.ranger =
    (rangeWhen due n.ranger sinks.trigger now).2.1 := by
  cases uptime? <;> rfl

theorem actBusAccepts : (n.act sinks now due uptime? s).2.2.bus.accepts = sinks.bus.accepts := by
  cases uptime? <;> exact Outbox.drainAccepts _ _

theorem actOffers (waiting : n.outbox.frames ≠ []) :
    sinks.bus.calls < (n.act sinks now due uptime? s).2.2.bus.calls := by
  cases uptime? with
  | none => exact Outbox.drainOffers waiting sinks.bus
  | some uptime => exact Outbox.drainOffers (Outbox.addKeeps waiting _) sinks.bus

theorem actEmpties {sinks : Sinks} (willing : ∀ call, sinks.bus.accepts call = true) :
    (n.act sinks now due uptime? s).2.1.outbox.frames = [] := by
  cases uptime? <;> exact Outbox.drainWilling willing

end

theorem rangeWhenTimed (due : Bool) (r : Ranger) (line : Sink) (now : Nat) :
    (rangeWhen due r line now).2.1.cycle.Timed := by
  cases due with
  | true => exact (r.expire now).2.fireTimed line now
  | false => exact r.expireTimed now

theorem rangeWhenFresh (due : Bool) (r : Ranger) (line : Sink) (now : Nat) :
    (rangeWhen due r line now).2.1.cycle.timedOut now = false := by
  cases due with
  | true => exact (r.expire now).2.fireFresh line now
  | false => exact r.expireSettles now

theorem rangeWhenOpened (due : Bool) {r : Ranger} {now last : Nat} (opened : r.cycle.OpenedBy last)
    (order : now ≤ last) (line : Sink) : (rangeWhen due r line now).2.1.cycle.OpenedBy last := by
  have kept := Ranger.expireOpened opened order
  cases due with
  | true => exact Ranger.fireOpened kept order line
  | false => exact kept

structure Stepped (n : Node) (sinks : Sinks) (now : Nat) (report : StepReport) (n' : Node)
    (sinks' : Sinks) : Prop where
  config : n'.config = n.config
  schedule : n.schedule.Asked now report.trigger.isSome (report.beat.map Beat.uptime) n'.schedule
  heartbeat : n'.numbering.heartbeat =
    if report.beat.isSome then n.numbering.heartbeat.next else n.numbering.heartbeat
  distance : n'.numbering.distance = n.numbering.distance
  expiry : report.expiry.isSome = n.ranger.cycle.timedOut now
  looked : report.trigger = none → n'.ranger = (n.ranger.expire now).2
  timed : n'.ranger.cycle.Timed
  fresh : n'.ranger.cycle.timedOut now = false
  opened : ∀ last, n.ranger.cycle.OpenedBy last → now ≤ last → n'.ranger.cycle.OpenedBy last
  offers : n.outbox.frames ≠ [] → sinks.bus.calls < sinks'.bus.calls

theorem stepStepped {n n' : Node} {sinks sinks' : Sinks} {now : Nat} {report : StepReport}
    (ran : n.step sinks now = .ok (report, n', sinks')) : Stepped n sinks now report n' sinks' := by
  obtain ⟨due, s, uptime?, s', taken, beaten, same⟩ := stepOk.mp ran
  have asked := Schedule.asked taken beaten
  obtain rfl : report = (n.act sinks now due uptime? s').1 := congrArg Prod.fst same
  obtain rfl : n' = (n.act sinks now due uptime? s').2.1 := congrArg (·.2.1) same
  obtain rfl : sinks' = (n.act sinks now due uptime? s').2.2 := congrArg (·.2.2) same
  have ranger := actRanger n sinks now due uptime? s'
  have fired : (n.act sinks now due uptime? s').1.trigger.isSome = due := by
    cases uptime? <;> cases due <;> rfl
  have beat : (n.act sinks now due uptime? s').1.beat.map Beat.uptime = uptime? := by
    cases uptime? <;> rfl
  refine ⟨?_, ?_, ?_, ?_, Ranger.expireReports n.ranger now, ?_, ?_, ?_, ?_, ?_⟩
  · cases uptime? <;> rfl
  · rw [fired, beat, actSchedule]
    exact asked
  · cases uptime? <;> rfl
  · cases uptime? <;> rfl
  · intro unfired
    rw [unfired] at fired
    subst fired
    exact ranger
  · rw [ranger]
    exact rangeWhenTimed due n.ranger sinks.trigger now
  · rw [ranger]
    exact rangeWhenFresh due n.ranger sinks.trigger now
  · intro last opened order
    rw [ranger]
    exact rangeWhenOpened due opened order sinks.trigger
  · exact actOffers n sinks now due uptime? s'

theorem observeSchedule (n : Node) (edge : Edge) :
    (n.observe edge).2.schedule = n.schedule := by
  dsimp only [observe]
  split <;> rfl

theorem observeRanger (n : Node) (edge : Edge) :
    (n.observe edge).2.ranger = (n.ranger.hear edge).2 := by
  dsimp only [observe]
  split <;> rfl

theorem observeHeartbeat (n : Node) (edge : Edge) :
    (n.observe edge).2.numbering.heartbeat = n.numbering.heartbeat := by
  dsimp only [observe]
  split <;> rfl

theorem observeOpened {n : Node} {last : Nat} (opened : n.ranger.cycle.OpenedBy last) (edge : Edge) :
    (n.observe edge).2.ranger.cycle.OpenedBy last := by
  rw [observeRanger]
  exact Ranger.hearOpened opened edge

theorem observeAllKeeps {P : Node → Prop} (kept : ∀ n edge, P n → P (n.observe edge).2) {n : Node}
    (holds : P n) (edges : List Edge) : P (n.observeAll edges).2 := by
  induction edges generalizing n with
  | nil => exact holds
  | cons edge rest ih => exact ih (kept n edge holds)

theorem observeAllSchedule (n : Node) (edges : List Edge) :
    (n.observeAll edges).2.schedule = n.schedule :=
  observeAllKeeps (P := fun m => m.schedule = n.schedule)
    (fun m edge same => (observeSchedule m edge).trans same) rfl edges

theorem observeAllHeartbeat (n : Node) (edges : List Edge) :
    (n.observeAll edges).2.numbering.heartbeat = n.numbering.heartbeat :=
  observeAllKeeps (P := fun m => m.numbering.heartbeat = n.numbering.heartbeat)
    (fun m edge same => (observeHeartbeat m edge).trans same) rfl edges

theorem observeAllOpened {n : Node} {last : Nat} (opened : n.ranger.cycle.OpenedBy last)
    (edges : List Edge) : (n.observeAll edges).2.ranger.cycle.OpenedBy last :=
  observeAllKeeps (P := fun m => m.ranger.cycle.OpenedBy last)
    (fun _ edge opened => observeOpened opened edge) opened edges

def due (n : Node) : Nat :=
  n.ranger.cycle.since.elim n.schedule.deadline fun opened =>
    min n.schedule.deadline (opened + echoTimeout)

theorem dueAfter {n : Node} {now : Nat} :
    now < n.due ↔ now < n.schedule.nextTrigger ∧ now < n.schedule.nextHeartbeat ∧
      n.ranger.cycle.timedOut now = false := by
  rw [Cycle.freshUntil]
  unfold due Schedule.deadline
  cases n.ranger.cycle.since with
  | none =>
    rw [Option.elim_none, Nat.lt_min]
    simp
  | some opened =>
    rw [Option.elim_some, Nat.lt_min, Nat.lt_min]
    simp [and_assoc]

theorem wakeOk {n : Node} {now wake : Nat} :
    n.wake now = .ok wake ↔
      (∀ opened ∈ n.ranger.cycle.since, opened + echoTimeout < wordLimit) ∧
        (n.outbox.frames = [] ∧ wake = n.due ∨
          n.outbox.frames ≠ [] ∧ now + retryMicros < wordLimit ∧
            wake = min n.due (now + retryMicros)) := by
  have first : (n.ranger.cycle.since.map (· + echoTimeout)).elim n.schedule.deadline
      (min n.schedule.deadline) = n.due := by
    unfold due
    cases n.ranger.cycle.since <;> rfl
  simp only [Node.wake, bindOk, Cycle.deadlineOk]
  constructor
  · rintro ⟨_, ⟨fits, rfl⟩, rest⟩
    rw [first] at rest
    refine ⟨fits, ?_⟩
    split at rest
    · rename_i empty
      cases rest
      exact .inl ⟨List.isEmpty_iff.mp empty, rfl⟩
    · rename_i waiting
      obtain ⟨_, retry, same⟩ := bindOk.mp rest
      obtain ⟨near, rfl⟩ := inWordOk.mp retry
      cases same
      exact .inr ⟨mt List.isEmpty_iff.mpr waiting, near, rfl⟩
  · rintro ⟨fits, rest⟩
    refine ⟨_, ⟨fits, rfl⟩, ?_⟩
    rw [first]
    rcases rest with ⟨empty, rfl⟩ | ⟨waiting, near, rfl⟩
    · rw [if_pos (List.isEmpty_iff.mpr empty)]
    · rw [if_neg (mt List.isEmpty_iff.mp waiting)]
      exact bindOk.mpr ⟨_, inWordOk.mpr ⟨near, rfl⟩, rfl⟩

structure Idle (n : Node) (now : Nat) : Prop where
  trigger : now < n.schedule.nextTrigger
  heartbeat : now < n.schedule.nextHeartbeat
  timed : n.ranger.cycle.Timed
  fresh : n.ranger.cycle.timedOut now = false
  empty : n.outbox.frames = []

theorem stepIdle {n : Node} {now : Nat} (idle : n.Idle now) (sinks : Sinks) :
    n.step sinks now = .ok (⟨none, none, none, ⟨[], 0⟩⟩, n, sinks) := by
  have looked := Ranger.expireIdle idle.timed idle.fresh
  have drained := Outbox.drainIdle idle.empty sinks.bus
  refine stepOk.mpr ⟨false, n.schedule, none, n.schedule, ?_, ?_, ?_⟩
  · exact Schedule.takeTriggerOk.mpr (.inl ⟨idle.trigger, rfl⟩)
  · exact Schedule.takeHeartbeatOk.mpr (.inl ⟨idle.heartbeat, rfl⟩)
  · simp [act, rangeWhen, beatWith, looked, drained]

theorem idleUntilDue {n : Node} {now : Nat} (timed : n.ranger.cycle.Timed)
    (empty : n.outbox.frames = []) (early : now < n.due) : n.Idle now := by
  obtain ⟨trigger, heartbeat, fresh⟩ := dueAfter.mp early
  exact ⟨trigger, heartbeat, timed, fresh, empty⟩

theorem wakeBounded {n : Node} {now wake : Nat} (asked : n.wake now = .ok wake) :
    wake ≤ n.due ∧ (now < wake ↔ now < n.due) := by
  obtain ⟨_, ⟨_, same⟩ | ⟨_, _, same⟩⟩ := wakeOk.mp asked
  · simp [same]
  · rw [same, Nat.lt_min]
    simp only [retryMicros]
    omega

end Rangefinder.Node
