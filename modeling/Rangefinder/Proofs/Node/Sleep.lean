import Rangefinder.Proofs.Node.Step

/-! Sleeping until the wake loses nothing. Of two runs of a node one visits it at every instant, the other
only at boot, at edges, and from each wake on. On a bus that never refuses, all that the second run
leaves out are visits to an idle node, so that both end with the same node and have sent the same
frames and pulsed the trigger line in the same way, each at the same instants. -/
namespace Rangefinder
open Bus (Frame)
open Echo (LineEvent echoTimeout)

structure Watch where
  node : Node
  sinks : Sinks
  sent : List (Nat × Frame)
  line : List (Nat × LineEvent)

namespace Watch

def start (config : Config) (capacity boot : Nat) (sinks : Sinks) : Watch :=
  ⟨.start config capacity boot, sinks, [], []⟩

def visit (w : Watch) (edges : List Edge) (now : Nat) : Except Overflow Watch := do
  let (report, node, sinks) ← (w.node.observeAll edges).2.step w.sinks now
  .ok
    { node, sinks
      sent := w.sent ++ report.sent.map fun frame => (now, frame)
      line := w.line ++ report.activity.map fun event => (now, event) }

def attend (w : Watch) (edges : List Edge) (now : Nat) : Except Overflow (Watch × Nat) := do
  let w ← w.visit edges now
  let wake ← w.node.wake now
  .ok (w, wake)

def everyTick (w : Watch) (edges : Nat → List Edge) (boot : Nat) : Nat → Except Overflow Watch
  | 0 => w.visit (edges boot) boot
  | span + 1 => do
    let w ← w.everyTick edges boot span
    w.visit (edges (boot + (span + 1))) (boot + (span + 1))

def onWake (w : Watch) (edges : Nat → List Edge) (boot : Nat) : Nat → Except Overflow (Watch × Nat)
  | 0 => w.attend (edges boot) boot
  | span + 1 => do
    let (w, wake) ← w.onWake edges boot span
    let now := boot + (span + 1)
    if edges now ≠ [] ∨ wake ≤ now then w.attend (edges now) now else .ok (w, wake)

/-- No deadline of the run at every instant leaves the word: it goes on, and always has a wake. -/
def DeadlinesFit (w : Watch) (edges : Nat → List Edge) (boot span : Nat) : Prop :=
  ∀ k ≤ span, ∃ v wake, w.everyTick edges boot k = .ok v ∧ v.node.wake (boot + k) = .ok wake

structure AtRest (w : Watch) : Prop where
  timed : w.node.ranger.cycle.Timed
  empty : w.node.outbox.frames = []
  willing : ∀ call, w.sinks.bus.accepts call = true

section
variable {w v : Watch} {edges : List Edge} {now : Nat}

theorem visitAct (visited : w.visit edges now = .ok v) :
    ∃ due s uptime? s', w.node.schedule.takeTrigger now = .ok (due, s) ∧
      s.takeHeartbeat now = .ok (uptime?, s') ∧
      v.node = ((w.node.observeAll edges).2.act w.sinks now due uptime? s').2.1 ∧
      v.sinks = ((w.node.observeAll edges).2.act w.sinks now due uptime? s').2.2 := by
  obtain ⟨_, stepped, same⟩ := bindOk.mp visited
  obtain ⟨due, s, uptime?, s', taken, beaten, rfl⟩ := Node.stepOk.mp stepped
  rw [Node.observeAllSchedule] at taken
  cases same
  exact ⟨due, s, uptime?, s', taken, beaten, rfl, rfl⟩

theorem visitRests (willing : ∀ call, w.sinks.bus.accepts call = true)
    (visited : w.visit edges now = .ok v) : v.AtRest := by
  obtain ⟨due, s, uptime?, s', _, _, node, sinks⟩ := visitAct visited
  constructor
  · rw [node, Node.actRanger]
    exact Node.rangeWhenTimed due _ _ now
  · rw [node]
    exact Node.actEmpties _ now due uptime? s' willing
  · rw [sinks, Node.actBusAccepts]
    exact willing

theorem visitIdle (rest : w.AtRest) (early : now < w.node.due) : w.visit [] now = .ok w := by
  have idle := Node.idleUntilDue rest.timed rest.empty early
  refine bindOk.mpr ⟨_, Node.stepIdle idle w.sinks, ?_⟩
  obtain ⟨node, sinks, sent, line⟩ := w
  simp [StepReport.sent, StepReport.activity, Bus.Drain.sent]

theorem visitOnGrid {origin : Schedule} (grid : origin.OnGrid w.node.schedule)
    (visited : w.visit edges now = .ok v) : origin.OnGrid v.node.schedule := by
  obtain ⟨due, s, uptime?, s', taken, beaten, node, _⟩ := visitAct visited
  rw [node, Node.actSchedule]
  exact Schedule.heartbeatOnGrid (Schedule.triggerOnGrid grid taken) beaten

theorem visitOpened (opened : w.node.ranger.cycle.OpenedBy now)
    (visited : w.visit edges now = .ok v) : v.node.ranger.cycle.OpenedBy now := by
  obtain ⟨due, s, uptime?, s', _, _, node, _⟩ := visitAct visited
  rw [node, Node.actRanger]
  exact Node.rangeWhenOpened due (Node.observeAllOpened opened edges) (Nat.le_refl now) _

theorem visitFits {origin : Schedule} (grid : origin.OnGrid w.node.schedule)
    (lasts : origin.Lasts now) (edges : List Edge) : ∃ v, w.visit edges now = .ok v := by
  rw [← w.node.observeAllSchedule edges] at grid
  obtain ⟨due, s, taken⟩ := Schedule.triggerFits grid lasts
  obtain ⟨uptime?, s', beaten⟩ :=
    Schedule.heartbeatFits (Schedule.triggerOnGrid grid taken) lasts
  exact ⟨_, bindOk.mpr ⟨_, Node.stepOk.mpr ⟨due, s, uptime?, s', taken, beaten, rfl⟩, rfl⟩⟩

theorem wakeStays (rest : w.AtRest) {wake : Nat} (asked : w.node.wake now = .ok wake) :
    wake = w.node.due ∧ ∀ later, w.node.wake later = .ok wake := by
  obtain ⟨fits, ⟨_, same⟩ | ⟨waiting, _⟩⟩ := Node.wakeOk.mp asked
  · exact ⟨same, fun later => Node.wakeOk.mpr ⟨fits, .inl ⟨rest.empty, same⟩⟩⟩
  · exact absurd rest.empty waiting

end

theorem sleepMatches {w : Watch} {edges : Nat → List Edge} {boot span : Nat}
    (willing : ∀ call, w.sinks.bus.accepts call = true) (fits : w.DeadlinesFit edges boot span) :
    ∃ v wake, w.everyTick edges boot span = .ok v ∧ w.onWake edges boot span = .ok (v, wake) ∧
      v.AtRest ∧ v.node.wake (boot + span) = .ok wake := by
  induction span with
  | zero =>
    obtain ⟨v, wake, visited, asked⟩ := fits 0 (Nat.le_refl 0)
    have attended : w.onWake edges boot 0 = .ok (v, wake) :=
      bindOk.mpr ⟨v, visited, bindOk.mpr ⟨wake, asked, rfl⟩⟩
    exact ⟨v, wake, visited, attended, visitRests willing visited, asked⟩
  | succ span ih =>
    obtain ⟨v, wake, dense, sparse, rest, asked⟩ := ih fun k le => fits k (Nat.le_succ_of_le le)
    obtain ⟨v', wake', dense', asked'⟩ := fits (span + 1) (Nat.le_refl _)
    obtain ⟨_, before, visited⟩ := bindOk.mp dense'
    rw [dense] at before
    cases before
    refine ⟨v', wake', dense', bindOk.mpr ⟨(v, wake), sparse, ?_⟩, visitRests rest.willing visited,
      asked'⟩
    by_cases called : edges (boot + (span + 1)) ≠ [] ∨ wake ≤ boot + (span + 1)
    · simp only [if_pos called]
      exact bindOk.mpr ⟨v', visited, bindOk.mpr ⟨wake', asked', rfl⟩⟩
    · simp only [if_neg called]
      obtain ⟨silent, early⟩ := not_or.mp called
      rw [Decidable.not_not.mp silent] at visited
      obtain ⟨rfl, stays⟩ := wakeStays rest asked
      rw [visitIdle rest (Nat.lt_of_not_le early)] at visited
      cases visited
      rw [stays] at asked'
      cases asked'
      rfl

theorem everyTickFits {w : Watch} {origin : Schedule} {boot : Nat} (edges : Nat → List Edge)
    (grid : origin.OnGrid w.node.schedule) (opened : w.node.ranger.cycle.OpenedBy boot)
    (willing : ∀ call, w.sinks.bus.accepts call = true) (span : Nat)
    (lasts : origin.Lasts (boot + span)) :
    ∃ v, w.everyTick edges boot span = .ok v ∧ origin.OnGrid v.node.schedule ∧
      v.node.ranger.cycle.OpenedBy (boot + span) ∧ v.AtRest := by
  induction span with
  | zero =>
    obtain ⟨v, visited⟩ := visitFits grid lasts (edges boot)
    exact ⟨v, visited, visitOnGrid grid visited, visitOpened opened visited,
      visitRests willing visited⟩
  | succ span ih =>
    have order : boot + span ≤ boot + (span + 1) := by omega
    obtain ⟨u, before, grid, opened, rest⟩ := ih (Schedule.lastsEarlier order lasts)
    have opened : u.node.ranger.cycle.OpenedBy (boot + (span + 1)) :=
      fun instant since => Nat.le_trans (opened instant since) order
    obtain ⟨v, visited⟩ := visitFits grid lasts (edges (boot + (span + 1)))
    exact ⟨v, bindOk.mpr ⟨u, before, visited⟩, visitOnGrid grid visited,
      visitOpened opened visited, visitRests rest.willing visited⟩

theorem deadlinesFit {w : Watch} {origin : Schedule} {boot span : Nat} (edges : Nat → List Edge)
    (grid : origin.OnGrid w.node.schedule) (opened : w.node.ranger.cycle.OpenedBy boot)
    (willing : ∀ call, w.sinks.bus.accepts call = true) (lasts : origin.Lasts (boot + span))
    (timeouts : boot + span + echoTimeout < wordLimit) : w.DeadlinesFit edges boot span := by
  intro k within
  have order : boot + k ≤ boot + span := Nat.add_le_add_left within boot
  obtain ⟨v, visited, _, opened, rest⟩ :=
    everyTickFits edges grid opened willing k (Schedule.lastsEarlier order lasts)
  have fits : ∀ instant ∈ v.node.ranger.cycle.since, instant + echoTimeout < wordLimit := by
    intro instant since
    have past := opened instant since
    omega
  exact ⟨v, v.node.due, visited, Node.wakeOk.mpr ⟨fits, .inl ⟨rest.empty, rfl⟩⟩⟩

theorem sleepLosesNothing (config : Config) (capacity boot span : Nat) (sinks : Sinks)
    (edges : Nat → List Edge) (willing : ∀ call, sinks.bus.accepts call = true) :
    ((start config capacity boot sinks).DeadlinesFit edges boot span →
      ∃ v wake, (start config capacity boot sinks).everyTick edges boot span = .ok v ∧
        (start config capacity boot sinks).onWake edges boot span = .ok (v, wake)) ∧
    (gridAfter boot (max config.triggerPeriod 1) (boot + span) < wordLimit →
      gridAfter boot (max config.heartbeatPeriod 1) (boot + span) < wordLimit →
      boot + span + echoTimeout < wordLimit →
      (start config capacity boot sinks).DeadlinesFit edges boot span) := by
  constructor
  · intro fits
    obtain ⟨v, wake, dense, sparse, _⟩ := sleepMatches willing fits
    exact ⟨v, wake, dense, sparse⟩
  · intro trigger heartbeat timeouts
    exact deadlinesFit edges (Schedule.startOnGrid _ _ _) (Echo.Cycle.openedByIdle boot) willing
      ⟨trigger, heartbeat⟩ timeouts

theorem sleepThroughEcho :
    (∀ call, Sinks.willing.bus.accepts call = true) ∧
      ∃ v wake,
        (start .standard defaultCapacity 7 .willing).everyTick
          (fun now => if now = 100 then [⟨24, .rising, .ofMicros 100⟩]
            else if now = 700 then [⟨24, .falling, .ofMicros 700⟩] else []) 7 60000 = .ok v ∧
        (start .standard defaultCapacity 7 .willing).onWake
          (fun now => if now = 100 then [⟨24, .rising, .ofMicros 100⟩]
            else if now = 700 then [⟨24, .falling, .ofMicros 700⟩] else []) 7 60000 =
          .ok (v, wake) := by
  have willing : ∀ call, Sinks.willing.bus.accepts call = true := fun _ => rfl
  obtain ⟨same, fits⟩ := sleepLosesNothing .standard defaultCapacity 7 60000 .willing
    (fun now => if now = 100 then [⟨24, .rising, .ofMicros 100⟩]
      else if now = 700 then [⟨24, .falling, .ofMicros 700⟩] else []) willing
  exact ⟨willing, same (fits (by decide) (by decide) (by decide))⟩

end Watch

end Rangefinder
