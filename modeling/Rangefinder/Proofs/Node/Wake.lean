import Rangefinder.Proofs.Node.Run

/-! The wake that a node names after a step. Until then a node with an empty outbox has nothing to do:
a step changes nothing and calls nobody. At the wake, or at once if it has passed, a step always
finds work. -/
namespace Rangefinder.Node
open Echo (Ranger Cycle)

inductive Works (n : Node) (sinks : Sinks) (now : Nat) (report : StepReport) (n' : Node)
    (sinks' : Sinks) : Prop
  | trigger (due : n.schedule.nextTrigger ≤ now) (fired : report.trigger.isSome)
      (later : now < n'.schedule.nextTrigger)
  | heartbeat (due : n.schedule.nextHeartbeat ≤ now) (beaten : report.beat.isSome)
      (next : n'.schedule.nextHeartbeat = n.schedule.nextHeartbeat + n.schedule.heartbeatPeriod)
  | timeout (out : n.ranger.cycle.timedOut now = true) (expired : report.expiry.isSome)
      (reset : n'.ranger.cycle = .idle)
  | offer (called : sinks.bus.calls < sinks'.bus.calls)

section
variable {n n' : Node} {sinks sinks' : Sinks} {t now wake : Nat} {report : StepReport}

theorem quietUntilWake (stepped : n.step sinks t = .ok (report, n', sinks'))
    (asked : n'.wake t = .ok wake) (empty : n'.outbox.frames = []) (early : now < wake) :
    n'.step sinks' now = .ok (⟨none, none, none, ⟨[], 0⟩⟩, n', sinks') := by
  have timed := (stepStepped stepped).timed
  have bound := (wakeBounded asked).1
  exact stepIdle (idleUntilDue timed empty (Nat.lt_of_lt_of_le early bound)) sinks'

theorem stepResets (stepped : n.step sinks now = .ok (report, n', sinks'))
    (early : now < n.schedule.nextTrigger) (out : n.ranger.cycle.timedOut now = true) :
    n'.ranger.cycle = .idle := by
  have does := stepStepped stepped
  have unfired : report.trigger = none := by
    rw [← Option.not_isSome_iff_eq_none, does.schedule.due]
    simpa using early
  rw [does.looked unfired]
  exact (Ranger.expireOut out).2

theorem worksFromWake (asked : n.wake t = .ok wake) (order : wake ≤ now)
    (stepped : n.step sinks now = .ok (report, n', sinks')) :
    n.Works sinks now report n' sinks' := by
  have does := stepStepped stepped
  have schedule := does.schedule
  by_cases waiting : n.outbox.frames = []
  · obtain ⟨_, ⟨_, same⟩ | ⟨frames, _⟩⟩ := wakeOk.mp asked
    · -- With nothing to retry, the wake is the first of the three deadlines, and it has passed.
      have passed : ¬ now < n.due := Nat.not_lt.mpr (same ▸ order)
      by_cases trigger : n.schedule.nextTrigger ≤ now
      · exact .trigger trigger (schedule.due.trans (decide_eq_true trigger)) schedule.nextTrigger
      · by_cases heartbeat : n.schedule.nextHeartbeat ≤ now
        · have uptime := schedule.uptime
          have next := schedule.nextHeartbeat
          rw [if_pos heartbeat] at uptime next
          have beaten : report.beat.isSome := by
            rw [← Option.isSome_map, uptime, Option.isSome_some]
          exact .heartbeat heartbeat beaten next
        · have out : n.ranger.cycle.timedOut now = true := by
            rw [dueAfter] at passed
            simpa [Nat.lt_of_not_le trigger, Nat.lt_of_not_le heartbeat] using passed
          have reset := stepResets stepped (Nat.lt_of_not_le trigger) out
          exact .timeout out (does.expiry.trans out) reset
    · exact absurd waiting frames
  · exact .offer (does.offers waiting)

end

theorem runLast {n n' : Node} {sinks sinks' : Sinks} {calls : List Call} {t : Nat}
    {replies : List Reply} (ran : n.run sinks (calls ++ [.step t]) = .ok (replies, n', sinks')) :
    ∃ (m : Node) (line : Sinks) (report : StepReport), m.step line t = .ok (report, n', sinks') := by
  obtain ⟨_, m, line, _, _, _, _, last, same⟩ := runAppend.mp ran
  cases same
  obtain ⟨_, _, _, _, _, _, called, done, same⟩ := runCons.mp last
  cases done
  cases same
  obtain ⟨report, stepped, _⟩ := callStep.mp called
  exact ⟨m, line, report, stepped⟩

theorem wakeExact (config : Config) (capacity boot : Nat) (sinks : Sinks) (calls : List Call)
    (t : Nat) :
    (∀ replies n sinks' wake,
      (start config capacity boot).run sinks (calls ++ [.step t]) = .ok (replies, n, sinks') →
      n.wake t = .ok wake →
      (n.outbox.frames = [] → ∀ now < wake,
        n.step sinks' now = .ok (⟨none, none, none, ⟨[], 0⟩⟩, n, sinks')) ∧
      ∀ report n' sinks'', n.step sinks' (max t wake) = .ok (report, n', sinks'') →
        n.Works sinks' (max t wake) report n' sinks'') ∧
    ((∀ now, .step now ∈ calls → config.Room now) → config.Room t →
      ∃ replies n sinks' wake,
        (start config capacity boot).run sinks (calls ++ [.step t]) = .ok (replies, n, sinks') ∧
        n.wake t = .ok wake ∧
        (config.Room wake → ∃ report n' sinks'',
          n.step sinks' (max t wake) = .ok (report, n', sinks''))) := by
  refine ⟨?_, ?_⟩
  · intro replies n sinks' wake ran asked
    obtain ⟨m, line, report, stepped⟩ := runLast ran
    refine ⟨?_, ?_⟩
    · intro empty now early
      exact quietUntilWake stepped asked empty early
    · intro report' n' sinks'' again
      exact worksFromWake asked (Nat.le_max_right t wake) again
  · intro rooms room
    have all : ∀ now, .step now ∈ calls ++ [Call.step t] → config.Room now := by
      intro now member
      rcases List.mem_append.mp member with earlier | last
      · exact rooms now earlier
      · cases List.mem_singleton.mp last
        exact room
    obtain ⟨replies, n, sinks', ran, stands⟩ := runRoom (startStands config capacity boot) sinks all
    obtain ⟨wake, asked⟩ := wakeRoom stands room
    refine ⟨replies, n, sinks', wake, ran, asked, ?_⟩
    intro later
    have most : config.Room (max t wake) := by
      rcases Nat.le_total t wake with order | order
      · rwa [Nat.max_eq_right order]
      · rwa [Nat.max_eq_left order]
    exact stepRoom stands most sinks'

theorem wakeAfterEcho :
    (∃ replies n sinks', (start .standard defaultCapacity 0).run .willing
        ([.step 0, .observe ⟨24, .rising, .ofMicros 100⟩, .observe ⟨24, .falling, .ofMicros 700⟩] ++
          [.step 5000]) = .ok (replies, n, sinks') ∧
      n.wake 5000 = .ok 50000 ∧ n.outbox.frames = [] ∧
      (∀ now < 50000, n.step sinks' now = .ok (⟨none, none, none, ⟨[], 0⟩⟩, n, sinks')) ∧
      ∃ report n' sinks'', n.step sinks' 50000 = .ok (report, n', sinks'') ∧
        n.Works sinks' 50000 report n' sinks'') ∧
    Config.standard.Room 50000 ∧
    ∃ replies n sinks' wake, (start .standard defaultCapacity 0).run .willing
        ([.step 0, .observe ⟨24, .rising, .ofMicros 100⟩, .observe ⟨24, .falling, .ofMicros 700⟩] ++
          [.step 5000]) = .ok (replies, n, sinks') ∧
      n.wake 5000 = .ok wake ∧
      (Config.standard.Room wake → ∃ report n' sinks'',
        n.step sinks' (max 5000 wake) = .ok (report, n', sinks'')) := by
  have room : Config.standard.Room 50000 := ⟨by decide, by decide, by decide⟩
  obtain ⟨exact, fits⟩ := wakeExact .standard defaultCapacity 0 .willing
    [.step 0, .observe ⟨24, .rising, .ofMicros 100⟩, .observe ⟨24, .falling, .ofMicros 700⟩] 5000
  obtain ⟨quiet, works⟩ := exact _ _ _ 50000 rfl rfl
  refine ⟨⟨_, _, _, rfl, rfl, rfl, quiet rfl, _, _, _, rfl, works _ _ _ rfl⟩, room, fits ?_ ?_⟩
  · exact roomsBefore room (by decide)
  · exact Config.roomEarlier (by decide) room

end Rangefinder.Node
