import Rangefinder.Proofs.Node.Query

/-! A run moved in time. The counter of the edges starts elsewhere, and every instant is later by the same
span: what the node answers, counts and hands to its sinks stays as it was, and only what it
remembers or names as an instant moves along. The deadlines of a run have to stay in the word. -/
namespace Rangefinder
open Echo (Cycle Ranger Hearing echoTimeout)

structure Offset where
  ticks : UInt32
  micros : Nat
  deriving DecidableEq, Repr

def Offset.Fits (o : Offset) (deadlines : List Nat) : Prop :=
  ∀ deadline ∈ deadlines, deadline + o.micros < wordLimit

instance (o : Offset) (deadlines : List Nat) : Decidable (o.Fits deadlines) :=
  inferInstanceAs (Decidable (∀ deadline ∈ deadlines, deadline + o.micros < wordLimit))

def Tick.moved (o : Offset) (t : Tick) : Tick := ⟨t.count + o.ticks⟩

def Edge.moved (o : Offset) (e : Edge) : Edge := { e with tick := e.tick.moved o }

theorem Tick.sinceMoved (o : Offset) (later earlier : Tick) :
    (later.moved o).since (earlier.moved o) = later.since earlier := by
  have same : later.count + o.ticks - (earlier.count + o.ticks) = later.count - earlier.count := by
    grind
  exact congrArg UInt32.toNat same

namespace Echo

namespace Cycle

def moved (o : Offset) (c : Cycle) : Cycle :=
  { risenAt := c.risenAt.map (Tick.moved o)
    firedAt := c.firedAt.map (· + o.micros)
    seenAt := c.seenAt.map (· + o.micros) }

section
variable (o : Offset) (c : Cycle) (now : Nat)

@[simp] theorem isStrayMoved : (c.moved o).isStray = c.isStray := by
  simp [moved, isStray]

@[simp] theorem sinceMoved : (c.moved o).since = c.since.map (· + o.micros) := by
  cases fired : c.firedAt <;> simp [moved, since, fired]

@[simp] theorem timedOutMoved : (c.moved o).timedOut (now + o.micros) = c.timedOut now := by
  cases opened : c.since <;> simp [timedOut, opened, Nat.add_sub_add_right]

@[simp] theorem inFlightMoved : (c.moved o).inFlight (now + o.micros) = c.inFlight now := by
  rw [inFlight, inFlight, sinceMoved]
  cases c.since with
  | none => simp [moved]
  | some opened => simp [Nat.add_sub_add_right]

theorem anchorMoved : (c.moved o).anchor (now + o.micros) = (c.anchor now).moved o := by
  have unseen : (c.moved o).seenAt.isNone = c.seenAt.isNone := by simp [moved]
  unfold anchor
  rw [isStrayMoved, unseen]
  split <;> rfl

theorem fallMoved : (c.moved o).fall = (c.fall.1.map (Tick.moved o), c.fall.2.moved o) := by
  cases risen : c.risenAt <;> simp [fall, moved, risen, idle]

end

end Cycle

def Hearing.moved (o : Offset) : Hearing → Hearing
  | .orphan tick => .orphan (tick.moved o)
  | heard => heard

@[simp] theorem Hearing.measurementMoved (o : Offset) (h : Hearing) :
    (h.moved o).measurement? = h.measurement? := by
  cases h <;> rfl

namespace Ranger

def moved (o : Offset) (r : Ranger) : Ranger := { r with cycle := r.cycle.moved o }

section
variable (o : Offset) (r : Ranger) (now : Nat)

theorem expireMoved : (r.moved o).expire (now + o.micros) =
    ((r.expire now).1, (r.expire now).2.moved o) := by
  simp only [expire, moved, Cycle.anchorMoved, Cycle.timedOutMoved, Cycle.isStrayMoved]
  split
  · split <;> rfl
  · rfl

theorem fireMoved (line : Sink) : (r.moved o).fire line (now + o.micros) =
    ((r.fire line now).1, (r.fire line now).2.1.moved o, (r.fire line now).2.2) := by
  simp only [fire, expireMoved]
  generalize r.expire now = expired
  simp only [moved, Cycle.inFlightMoved]
  split
  · rfl
  · split <;> rfl

theorem hearMoved (edge : Edge) : (r.moved o).hear (edge.moved o) =
    ((r.hear edge).1.moved o, (r.hear edge).2.moved o) := by
  obtain ⟨line, level, tick⟩ := edge
  by_cases own : line = r.echoLine
  · cases level with
    | rising => simp [hear, moved, Edge.moved, own, Hearing.moved, Cycle.rise, Cycle.moved]
    | falling =>
      simp only [hear, moved, Edge.moved, own, if_true, Cycle.fallMoved]
      rcases r.cycle.fall with ⟨risen, cycle⟩
      cases risen with
      | none => rfl
      | some start =>
        simp only [Option.map_some, Tick.sinceMoved]
        split <;> rfl
  · simp [hear, moved, Edge.moved, own, Hearing.moved]

end

end Ranger

end Echo

namespace Schedule

def moved (o : Offset) (s : Schedule) : Schedule :=
  { s with
    boot := s.boot + o.micros
    nextTrigger := s.nextTrigger + o.micros
    nextHeartbeat := s.nextHeartbeat + o.micros }

def deadlines (s : Schedule) : List Nat := [s.nextTrigger, s.nextHeartbeat]

theorem uptimeMoved (o : Offset) (s : Schedule) (now : Nat) :
    (s.moved o).uptime (now + o.micros) = s.uptime now := by
  simp only [uptime, moved, Nat.add_sub_add_right]

section
variable {o : Offset} {s : Schedule} {now : Nat}

theorem fitsDeadlines :
    o.Fits s.deadlines ↔ s.nextTrigger + o.micros < wordLimit ∧ s.nextHeartbeat + o.micros < wordLimit := by
  simp [Offset.Fits, deadlines]

theorem takeTriggerMoved {out : Bool × Schedule} (fits : s.nextTrigger + o.micros < wordLimit) :
    (s.moved o).takeTrigger (now + o.micros) = .ok out ↔
      ∃ due s', s.takeTrigger now = .ok (due, s') ∧ s'.nextTrigger + o.micros < wordLimit ∧
        out = (due, s'.moved o) := by
  have target : gridAfter (s.nextTrigger + o.micros) s.triggerPeriod (now + o.micros) =
      gridAfter s.nextTrigger s.triggerPeriod now + o.micros := gridAfterMoved _ _ _ _
  rw [takeTriggerOk]
  simp only [moved, target, Nat.add_lt_add_iff_right, Nat.add_le_add_iff_right]
  constructor
  · rintro (⟨early, same⟩ | ⟨due, later, same⟩)
    · exact ⟨false, s, takeTriggerOk.mpr (.inl ⟨early, rfl⟩), fits, same⟩
    · have own := Nat.lt_of_le_of_lt (Nat.le_add_right _ o.micros) later
      exact ⟨true, _, takeTriggerOk.mpr (.inr ⟨due, own, rfl⟩), later, same⟩
  · rintro ⟨due, s', taken, later, same⟩
    rcases takeTriggerOk.mp taken with ⟨early, still⟩ | ⟨passed, _, onward⟩
    · cases still
      exact .inl ⟨early, same⟩
    · cases onward
      exact .inr ⟨passed, later, same⟩

theorem takeHeartbeatMoved {out : Option UInt32 × Schedule}
    (fits : s.nextHeartbeat + o.micros < wordLimit) :
    (s.moved o).takeHeartbeat (now + o.micros) = .ok out ↔
      ∃ uptime? s', s.takeHeartbeat now = .ok (uptime?, s') ∧
        s'.nextHeartbeat + o.micros < wordLimit ∧ out = (uptime?, s'.moved o) := by
  have target : s.nextHeartbeat + o.micros + s.heartbeatPeriod =
      s.nextHeartbeat + s.heartbeatPeriod + o.micros := Nat.add_right_comm _ _ _
  rw [takeHeartbeatOk, uptimeMoved]
  simp only [moved, target, Nat.add_lt_add_iff_right, Nat.add_le_add_iff_right]
  constructor
  · rintro (⟨early, same⟩ | ⟨due, later, same⟩)
    · exact ⟨none, s, takeHeartbeatOk.mpr (.inl ⟨early, rfl⟩), fits, same⟩
    · have own := Nat.lt_of_le_of_lt (Nat.le_add_right _ o.micros) later
      exact ⟨_, _, takeHeartbeatOk.mpr (.inr ⟨due, own, rfl⟩), later, same⟩
  · rintro ⟨uptime?, s', taken, later, same⟩
    rcases takeHeartbeatOk.mp taken with ⟨early, still⟩ | ⟨passed, _, onward⟩
    · cases still
      exact .inl ⟨early, same⟩
    · cases onward
      exact .inr ⟨passed, later, same⟩

end

end Schedule

def EdgeReport.moved (o : Offset) (r : EdgeReport) : EdgeReport :=
  { r with edge := r.edge.moved o, hearing := r.hearing.moved o }

namespace Node

def moved (o : Offset) (n : Node) : Node :=
  { n with ranger := n.ranger.moved o, schedule := n.schedule.moved o }

def Query.moved (o : Offset) : Query → Query
  | .observe edge => .observe (edge.moved o)
  | .step now => .step (now + o.micros)
  | .wake now => .wake (now + o.micros)

def Answer.moved (o : Offset) : Answer → Answer
  | .observed report => .observed (report.moved o)
  | .stepped now report => .stepped (now + o.micros) report
  | .woken now wake => .woken (now + o.micros) (wake + o.micros)

def Entry.moved (o : Offset) (e : Entry) : Entry :=
  { e with answer := e.answer.moved o, node := e.node.moved o }

def sooner (n : Node) (now : Nat) : List Nat :=
  n.ranger.cycle.since.toList.map (· + echoTimeout) ++
    if n.outbox.frames = [] then [] else [now + retryMicros]

def Entry.deadlines (e : Entry) : List Nat :=
  match e.answer with
  | .observed _ => []
  | .stepped _ _ => e.node.schedule.deadlines
  | .woken now _ => e.node.sooner now

theorem startMoved (config : Config) (capacity boot : Nat) (o : Offset) :
    (start config capacity boot).moved o = start config capacity (boot + o.micros) := rfl

section
variable (o : Offset) (n : Node) (sinks : Sinks) (now : Nat)

theorem observeMoved (edge : Edge) : (n.moved o).observe (edge.moved o) =
    ((n.observe edge).1.moved o, (n.observe edge).2.moved o) := by
  have heard : (n.moved o).ranger.hear (edge.moved o) =
      ((n.ranger.hear edge).1.moved o, (n.ranger.hear edge).2.moved o) := Ranger.hearMoved o _ _
  simp only [observe, heard, Hearing.measurementMoved]
  split <;> rfl

theorem rangeWhenMoved (due : Bool) (r : Ranger) (line : Sink) :
    rangeWhen due (r.moved o) line (now + o.micros) =
      ((rangeWhen due r line now).1, (rangeWhen due r line now).2.1.moved o,
        (rangeWhen due r line now).2.2) := by
  cases due <;> simp only [rangeWhen, Ranger.expireMoved, Ranger.fireMoved] <;> rfl

theorem actMoved (due : Bool) (uptime? : Option UInt32) (s : Schedule) :
    (n.moved o).act sinks (now + o.micros) due uptime? (s.moved o) =
      ((n.act sinks now due uptime? s).1, (n.act sinks now due uptime? s).2.1.moved o,
        (n.act sinks now due uptime? s).2.2) := by
  have ranged : rangeWhen due (n.moved o).ranger sinks.trigger (now + o.micros) = _ :=
    rangeWhenMoved o now due n.ranger sinks.trigger
  have expired : (n.moved o).ranger.expire (now + o.micros) = _ := Ranger.expireMoved o n.ranger now
  simp only [act, ranged, expired]
  cases uptime? <;> rfl

theorem dueMoved : (n.moved o).due = n.due + o.micros := by
  have deadline : (n.moved o).schedule.deadline = n.schedule.deadline + o.micros :=
    Nat.add_min_add_right _ _ _
  have since : (n.moved o).ranger.cycle.since = n.ranger.cycle.since.map (· + o.micros) :=
    Cycle.sinceMoved o _
  rw [due, due, deadline, since]
  cases n.ranger.cycle.since with
  | none => rfl
  | some opened =>
    simp only [Option.map_some, Option.elim_some, Nat.add_right_comm opened, Nat.add_min_add_right]

end

section
variable {o : Offset} {n : Node} {sinks : Sinks} {now : Nat}

theorem stepMoved {out : StepReport × Node × Sinks} (fits : o.Fits n.schedule.deadlines) :
    (n.moved o).step sinks (now + o.micros) = .ok out ↔
      ∃ report n' sinks', n.step sinks now = .ok (report, n', sinks') ∧
        o.Fits n'.schedule.deadlines ∧ out = (report, n'.moved o, sinks') := by
  obtain ⟨trigger, heartbeat⟩ := Schedule.fitsDeadlines.mp fits
  have same : (n.moved o).schedule = n.schedule.moved o := rfl
  -- Neither deadline moves the other, so what fits before the step carries the two taken in turn.
  rw [stepOk, same]
  constructor
  · intro ⟨_, _, _, _, takenLater, beatenLater, acted⟩
    obtain ⟨due, s, taken, first, pair⟩ := (Schedule.takeTriggerMoved trigger).mp takenLater
    obtain ⟨rfl, rfl⟩ := Prod.mk.inj pair
    have still : s.nextHeartbeat + o.micros < wordLimit := by
      rwa [Schedule.triggerKeeps taken]
    obtain ⟨uptime?, s', beaten, second, pair⟩ := (Schedule.takeHeartbeatMoved still).mp beatenLater
    obtain ⟨rfl, rfl⟩ := Prod.mk.inj pair
    have kept : o.Fits s'.deadlines := by
      rw [Schedule.fitsDeadlines, Schedule.heartbeatKeeps beaten]
      exact ⟨first, second⟩
    rw [← actSchedule n sinks now _ _ s'] at kept
    exact ⟨_, _, _, stepOk.mpr ⟨_, s, _, s', taken, beaten, rfl⟩, kept, acted.trans (actMoved ..)⟩
  · intro ⟨report, n', sinks', ran, later, out⟩
    obtain ⟨due, s, uptime?, s', taken, beaten, acted⟩ := stepOk.mp ran
    have schedule : n'.schedule = s' := by
      rw [show n' = _ from congrArg (·.2.1) acted, actSchedule]
    rw [schedule, Schedule.fitsDeadlines, Schedule.heartbeatKeeps beaten] at later
    have still : s.nextHeartbeat + o.micros < wordLimit := by
      rwa [Schedule.triggerKeeps taken]
    refine ⟨due, s.moved o, uptime?, s'.moved o, ?_, ?_, ?_⟩
    · exact (Schedule.takeTriggerMoved trigger).mpr ⟨due, s, taken, later.1, rfl⟩
    · exact (Schedule.takeHeartbeatMoved still).mpr ⟨uptime?, s', beaten, later.2, rfl⟩
    · rw [actMoved, ← acted, out]

theorem fitsSooner :
    o.Fits (n.sooner now) ↔
      (∀ opened ∈ n.ranger.cycle.since, opened + echoTimeout + o.micros < wordLimit) ∧
        (n.outbox.frames ≠ [] → now + retryMicros + o.micros < wordLimit) := by
  unfold Offset.Fits sooner
  rw [List.forall_mem_append]
  by_cases empty : n.outbox.frames = [] <;> simp [empty]

theorem wakeMoved {out : Nat} :
    (n.moved o).wake (now + o.micros) = .ok out ↔
      ∃ wake, n.wake now = .ok wake ∧ o.Fits (n.sooner now) ∧ out = wake + o.micros := by
  have since : (n.moved o).ranger.cycle.since = n.ranger.cycle.since.map (· + o.micros) :=
    Cycle.sinceMoved o _
  have frames : (n.moved o).outbox.frames = n.outbox.frames := rfl
  rw [wakeOk, since, frames, dueMoved, fitsSooner]
  constructor
  · intro ⟨timeout, rest⟩
    have timeout : ∀ opened ∈ n.ranger.cycle.since, opened + echoTimeout + o.micros < wordLimit := by
      intro opened open'
      have later := timeout (opened + o.micros) (Option.mem_map_of_mem _ open')
      rwa [Nat.add_right_comm] at later
    have own : ∀ opened ∈ n.ranger.cycle.since, opened + echoTimeout < wordLimit :=
      fun opened open' => Nat.lt_of_le_of_lt (Nat.le_add_right _ _) (timeout opened open')
    rcases rest with ⟨empty, same⟩ | ⟨waiting, near, same⟩
    · exact ⟨n.due, wakeOk.mpr ⟨own, .inl ⟨empty, rfl⟩⟩, ⟨timeout, absurd empty⟩, same⟩
    · rw [Nat.add_right_comm] at near same
      have here := Nat.lt_of_le_of_lt (Nat.le_add_right _ o.micros) near
      refine ⟨_, wakeOk.mpr ⟨own, .inr ⟨waiting, here, rfl⟩⟩, ⟨timeout, fun _ => near⟩, ?_⟩
      rw [same, Nat.add_min_add_right]
  · intro ⟨wake, asked, ⟨timeout, retry⟩, out⟩
    constructor
    · intro opened open'
      obtain ⟨own, since, rfl⟩ := Option.map_eq_some_iff.mp open'
      rw [Nat.add_right_comm]
      exact timeout own since
    · rcases (wakeOk.mp asked).2 with ⟨empty, rfl⟩ | ⟨waiting, _, rfl⟩
      · exact .inl ⟨empty, out⟩
      · rw [Nat.add_right_comm, Nat.add_min_add_right]
        exact .inr ⟨waiting, retry waiting, out⟩

theorem askMoved {q : Query} {entry' : Entry} (fits : o.Fits n.schedule.deadlines) :
    (n.moved o).ask sinks (q.moved o) = .ok entry' ↔
      ∃ entry, n.ask sinks q = .ok entry ∧ o.Fits entry.deadlines ∧ entry' = entry.moved o := by
  cases q with
  | observe edge =>
    rw [Query.moved, askObserve, observeMoved]
    constructor
    · intro same
      exact ⟨_, askObserve.mpr rfl, nofun, same⟩
    · intro ⟨entry, asked, _, same⟩
      rw [same, askObserve.mp asked]
      rfl
  | step now =>
    rw [Query.moved, askStep]
    constructor
    · intro ⟨_, _, _, ranLater, same⟩
      obtain ⟨report, n', sinks', ran, later, out⟩ := (stepMoved fits).mp ranLater
      cases out
      exact ⟨_, askStep.mpr ⟨_, n', _, ran, rfl⟩, later, same⟩
    · intro ⟨entry, asked, later, same⟩
      obtain ⟨report, n', sinks', ran, rfl⟩ := askStep.mp asked
      exact ⟨_, _, _, (stepMoved fits).mpr ⟨report, n', sinks', ran, later, rfl⟩, same⟩
  | wake now =>
    rw [Query.moved, askWake]
    constructor
    · intro ⟨_, askedLater, same⟩
      obtain ⟨wake, asked, later, rfl⟩ := wakeMoved.mp askedLater
      exact ⟨_, askWake.mpr ⟨wake, asked, rfl⟩, later, same⟩
    · intro ⟨entry, asked, later, same⟩
      obtain ⟨wake, woken, rfl⟩ := askWake.mp asked
      exact ⟨_, wakeMoved.mpr ⟨wake, woken, later, rfl⟩, same⟩

theorem askFits {q : Query} {entry : Entry} (fits : o.Fits n.schedule.deadlines)
    (asked : n.ask sinks q = .ok entry) (later : o.Fits entry.deadlines) :
    o.Fits entry.node.schedule.deadlines := by
  cases q with
  | observe edge =>
    rw [askObserve.mp asked, observeSchedule]
    exact fits
  | step now =>
    obtain ⟨report, n', sinks', _, rfl⟩ := askStep.mp asked
    exact later
  | wake now =>
    obtain ⟨wake, _, rfl⟩ := askWake.mp asked
    exact fits

theorem serveMoved {queries : List Query} {entries' : List Entry}
    (fits : o.Fits n.schedule.deadlines) :
    (n.moved o).serve sinks (queries.map (Query.moved o)) = .ok entries' ↔
      ∃ entries, n.serve sinks queries = .ok entries ∧ o.Fits (entries.flatMap Entry.deadlines) ∧
        entries' = entries.map (Entry.moved o) := by
  induction queries generalizing n sinks entries' with
  | nil =>
    constructor
    · intro same
      cases same
      exact ⟨[], rfl, nofun, rfl⟩
    · intro ⟨entries, served, _, same⟩
      cases served
      exact same ▸ rfl
  | cons q rest ih =>
    rw [List.map_cons, serveCons]
    constructor
    · intro ⟨_, _, askedLater, servedLater, same⟩
      obtain ⟨entry, asked, here, rfl⟩ := (askMoved fits).mp askedLater
      obtain ⟨later, served, beyond, rfl⟩ := (ih (askFits fits asked here)).mp servedLater
      refine ⟨entry :: later, serveCons.mpr ⟨entry, later, asked, served, rfl⟩, ?_, same⟩
      exact List.forall_mem_append.mpr ⟨here, beyond⟩
    · intro ⟨entries, all, every, same⟩
      obtain ⟨entry, later, asked, served, rfl⟩ := serveCons.mp all
      obtain ⟨here, beyond⟩ := List.forall_mem_append.mp every
      refine ⟨entry.moved o, later.map (Entry.moved o), ?_, ?_, same⟩
      · exact (askMoved fits).mpr ⟨entry, asked, here, rfl⟩
      · exact (ih (askFits fits asked here)).mpr ⟨later, served, beyond, rfl⟩

end

theorem runsShift (config : Config) (capacity boot : Nat) (sinks : Sinks) (queries : List Query)
    (o : Offset) (fits : boot + o.micros < wordLimit) (entries' : List Entry) :
    (start config capacity (boot + o.micros)).serve sinks (queries.map (Query.moved o)) =
        .ok entries' ↔
      ∃ entries, (start config capacity boot).serve sinks queries = .ok entries ∧
        o.Fits (entries.flatMap Entry.deadlines) ∧ entries' = entries.map (Entry.moved o) := by
  rw [← startMoved]
  exact serveMoved (Schedule.fitsDeadlines.mpr ⟨fits, fits⟩)

def echoQueries : List Query :=
  [.step 0, .observe ⟨24, .rising, .ofMicros 100⟩, .observe ⟨24, .falling, .ofMicros 700⟩,
    .step 5000, .wake 5000]

theorem echoAcrossWrap :
    0 + 1000000000000 < wordLimit ∧
      ∃ entries, (start .standard defaultCapacity 0).serve .willing echoQueries = .ok entries ∧
        (start .standard defaultCapacity (0 + 1000000000000)).serve .willing
          (echoQueries.map (Query.moved ⟨4294967000, 1000000000000⟩)) =
            .ok (entries.map (Entry.moved ⟨4294967000, 1000000000000⟩)) := by
  have fits : 0 + 1000000000000 < wordLimit := by decide
  refine ⟨fits, _, rfl, ?_⟩
  refine (runsShift .standard defaultCapacity 0 .willing echoQueries ⟨4294967000, 1000000000000⟩
    fits _).mpr ⟨_, rfl, by decide, rfl⟩

end Node

end Rangefinder
