import Rangefinder.Proofs.Node.Step

/-! Runs of a node: edges and steps in any order, at any instants, over any sinks. Only an instant out
of range ends a run before its last call, and none is while the word has room for all that a node
can set at the instants of the run, whatever their order. -/
namespace Rangefinder
open Echo (echoTimeout)

/-- The word holds every deadline that a node of this configuration can set at `now`. -/
structure Config.Room (config : Config) (now : Nat) : Prop where
  trigger : now + max config.triggerPeriod 1 < wordLimit
  heartbeat : now + max config.heartbeatPeriod 1 < wordLimit
  timeout : now + echoTimeout < wordLimit

theorem Config.roomEarlier {config : Config} {now later : Nat} (order : now ≤ later)
    (room : config.Room later) : config.Room now where
  trigger := Nat.lt_of_le_of_lt (Nat.add_le_add_right order _) room.trigger
  heartbeat := Nat.lt_of_le_of_lt (Nat.add_le_add_right order _) room.heartbeat
  timeout := Nat.lt_of_le_of_lt (Nat.add_le_add_right order _) room.timeout

namespace Node

def latestOpening : Nat := wordLimit - 1 - echoTimeout

theorem latestOpeningFits {opened : Nat} :
    opened ≤ latestOpening ↔ opened + echoTimeout < wordLimit := by
  simp only [latestOpening, wordLimit, echoTimeout]
  omega

structure Stands (config : Config) (n : Node) : Prop where
  triggerPeriod : n.schedule.triggerPeriod = max config.triggerPeriod 1
  heartbeatPeriod : n.schedule.heartbeatPeriod = max config.heartbeatPeriod 1
  opened : n.ranger.cycle.OpenedBy latestOpening

theorem startStands (config : Config) (capacity boot : Nat) :
    Stands config (.start config capacity boot) where
  triggerPeriod := rfl
  heartbeatPeriod := rfl
  opened := Echo.Cycle.openedByIdle latestOpening

section
variable {config : Config} {n n' : Node} {sinks sinks' : Sinks} {now : Nat} {report : StepReport}

theorem observeStands (stands : Stands config n) (edge : Edge) :
    Stands config (n.observe edge).2 where
  triggerPeriod := by rw [observeSchedule, stands.triggerPeriod]
  heartbeatPeriod := by rw [observeSchedule, stands.heartbeatPeriod]
  opened := observeOpened stands.opened edge

theorem observeAllStands (stands : Stands config n) (edges : List Edge) :
    Stands config (n.observeAll edges).2 :=
  observeAllKeeps (P := Stands config) (fun _ edge kept => observeStands kept edge) stands edges

theorem stepStands (stands : Stands config n) (room : config.Room now)
    (ran : n.step sinks now = .ok (report, n', sinks')) : Stands config n' where
  triggerPeriod := (stepStepped ran).schedule.triggerPeriod.trans stands.triggerPeriod
  heartbeatPeriod := (stepStepped ran).schedule.heartbeatPeriod.trans stands.heartbeatPeriod
  opened := (stepStepped ran).opened _ stands.opened (latestOpeningFits.mpr room.timeout)

theorem stepRoom (stands : Stands config n) (room : config.Room now) (sinks : Sinks) :
    ∃ report n' sinks', n.step sinks now = .ok (report, n', sinks') := by
  have triggerFits : n.schedule.nextTrigger ≤ now →
      gridAfter n.schedule.nextTrigger n.schedule.triggerPeriod now < wordLimit := by
    intro due
    refine Nat.lt_of_le_of_lt (gridAfterNear due) ?_
    rw [stands.triggerPeriod]
    exact room.trigger
  obtain ⟨due, s, taken⟩ := Schedule.triggerTaken triggerFits
  obtain ⟨_, _, rest⟩ := Schedule.triggerAsked taken
  have heartbeatFits : s.nextHeartbeat ≤ now →
      s.nextHeartbeat + s.heartbeatPeriod < wordLimit := by
    intro due
    have bound := room.heartbeat
    rw [rest] at due ⊢
    simp only [stands.heartbeatPeriod] at due ⊢
    omega
  obtain ⟨uptime?, s', beaten⟩ := Schedule.heartbeatTaken heartbeatFits
  exact ⟨_, _, _, stepOk.mpr ⟨due, s, uptime?, s', taken, beaten, rfl⟩⟩

theorem wakeRoom (stands : Stands config n) (room : config.Room now) :
    ∃ wake, n.wake now = .ok wake := by
  have fits : ∀ opened ∈ n.ranger.cycle.since, opened + echoTimeout < wordLimit :=
    fun opened since => latestOpeningFits.mp (stands.opened opened since)
  by_cases empty : n.outbox.frames = []
  · exact ⟨_, wakeOk.mpr ⟨fits, .inl ⟨empty, rfl⟩⟩⟩
  · have retry : now + retryMicros < wordLimit := by
      have timeout := room.timeout
      simp only [echoTimeout, retryMicros] at timeout ⊢
      omega
    exact ⟨_, wakeOk.mpr ⟨fits, .inr ⟨empty, retry, rfl⟩⟩⟩

end

inductive Call
  | observe (edge : Edge)
  | step (now : Nat)
  deriving DecidableEq, Repr

def Call.instant? : Call → Option Nat
  | observe _ => none
  | step now => some now

theorem roomsBefore {config : Config} {last : Nat} (room : config.Room last) {calls : List Call}
    (before : ∀ now ∈ calls.filterMap Call.instant?, now ≤ last) :
    ∀ now, .step now ∈ calls → config.Room now := by
  intro now member
  have asked : now ∈ calls.filterMap Call.instant? :=
    List.mem_filterMap.mpr ⟨.step now, member, rfl⟩
  exact Config.roomEarlier (before now asked) room

inductive Reply
  | observed (report : EdgeReport)
  | stepped (now : Nat) (report : StepReport)
  deriving DecidableEq, Repr

def call (n : Node) (sinks : Sinks) : Call → Except Overflow (Reply × Node × Sinks)
  | .observe edge =>
    let (report, n) := n.observe edge
    .ok (.observed report, n, sinks)
  | .step now => do
    let (report, n, sinks) ← n.step sinks now
    .ok (.stepped now report, n, sinks)

def run (n : Node) (sinks : Sinks) : List Call → Except Overflow (List Reply × Node × Sinks)
  | [] => .ok ([], n, sinks)
  | c :: rest => do
    let (reply, n, sinks) ← n.call sinks c
    let (replies, n, sinks) ← n.run sinks rest
    .ok (reply :: replies, n, sinks)

section
variable {n : Node} {sinks : Sinks} {out : List Reply × Node × Sinks}

theorem callStep {now : Nat} {reply : Reply} {n' : Node} {sinks' : Sinks} :
    n.call sinks (.step now) = .ok (reply, n', sinks') ↔
      ∃ report, n.step sinks now = .ok (report, n', sinks') ∧ reply = .stepped now report := by
  rw [call, bindOk]
  constructor
  · intro ⟨⟨report, m, line⟩, ran, same⟩
    cases same
    exact ⟨report, ran, rfl⟩
  · intro ⟨report, ran, same⟩
    exact ⟨(report, n', sinks'), ran, same ▸ rfl⟩

theorem runCons {c : Call} {rest : List Call} :
    n.run sinks (c :: rest) = .ok out ↔
      ∃ reply m line replies n' sinks', n.call sinks c = .ok (reply, m, line) ∧
        m.run line rest = .ok (replies, n', sinks') ∧ out = (reply :: replies, n', sinks') := by
  rw [run, bindOk]
  constructor
  · intro ⟨⟨reply, m, line⟩, first, later⟩
    obtain ⟨⟨replies, n', sinks'⟩, ran, same⟩ := bindOk.mp later
    cases same
    exact ⟨reply, m, line, replies, n', sinks', first, ran, rfl⟩
  · intro ⟨reply, m, line, replies, n', sinks', first, ran, same⟩
    exact ⟨(reply, m, line), first, bindOk.mpr ⟨(replies, n', sinks'), ran, same ▸ rfl⟩⟩

theorem runAppend {front back : List Call} :
    n.run sinks (front ++ back) = .ok out ↔
      ∃ first m line later n' sinks', n.run sinks front = .ok (first, m, line) ∧
        m.run line back = .ok (later, n', sinks') ∧ out = (first ++ later, n', sinks') := by
  induction front generalizing n sinks out with
  | nil =>
    constructor
    · intro ran
      exact ⟨[], n, sinks, out.1, out.2.1, out.2.2, rfl, ran, rfl⟩
    · intro ⟨first, m, line, later, n', sinks', still, ran, same⟩
      cases still
      exact same ▸ ran
  | cons c front ih =>
    rw [List.cons_append, runCons]
    constructor
    · intro ⟨reply, m, line, replies, n', sinks', called, ran, same⟩
      obtain ⟨first, m', line', later, n'', sinks'', before, after, joined⟩ := ih.mp ran
      cases joined
      exact ⟨reply :: first, m', line', later, n', sinks',
        runCons.mpr ⟨reply, m, line, first, m', line', called, before, rfl⟩, after, same⟩
    · intro ⟨first, m', line', later, n', sinks', before, after, same⟩
      obtain ⟨reply, m, line, replies, _, _, called, ran, joined⟩ := runCons.mp before
      cases joined
      exact ⟨reply, m, line, replies ++ later, n', sinks', called,
        ih.mpr ⟨replies, m', line', later, n', sinks', ran, after, rfl⟩, same⟩

theorem runRoom {config : Config} (stands : Stands config n) (sinks : Sinks) {calls : List Call}
    (room : ∀ now, .step now ∈ calls → config.Room now) :
    ∃ replies n' sinks', n.run sinks calls = .ok (replies, n', sinks') ∧ Stands config n' := by
  induction calls generalizing n sinks with
  | nil => exact ⟨[], n, sinks, rfl, stands⟩
  | cons c rest ih =>
    have later : ∀ now, .step now ∈ rest → config.Room now :=
      fun now member => room now (List.mem_cons_of_mem c member)
    cases c with
    | observe edge =>
      obtain ⟨replies, n', sinks', ran, stands⟩ := ih (observeStands stands edge) sinks later
      exact ⟨_, n', sinks', runCons.mpr ⟨_, _, _, replies, n', sinks', rfl, ran, rfl⟩, stands⟩
    | step now =>
      have here := room now List.mem_cons_self
      obtain ⟨report, m, line, stepped⟩ := stepRoom stands here sinks
      obtain ⟨replies, n', sinks', ran, stands⟩ := ih (stepStands stands here stepped) line later
      exact ⟨_, n', sinks', runCons.mpr ⟨_, m, line, replies, n', sinks',
        callStep.mpr ⟨report, stepped, rfl⟩, ran, rfl⟩, stands⟩

end

end Node

end Rangefinder
