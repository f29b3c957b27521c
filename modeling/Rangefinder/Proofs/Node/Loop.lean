import Rangefinder.Node.Loop
import Rangefinder.Proofs.Node.Run

/-! The driven loop. The world moves between its turns: time passes, edges are posted, and a turn itself
may take time. A turn leaves every deadline but a missed heartbeat in the future, so that the loop
turns again at once only to make up heartbeats, one for each period, and parks when it has none left
to make up. -/
namespace Rangefinder
open Message (Heartbeat Layout)
open Node (Stands)

theorem Station.postCases (s : Station) (edge : Edge) :
    (s.waiting.length < s.capacity ∧
      s.post edge = (true, { s with waiting := s.waiting ++ [edge] })) ∨
    (s.capacity ≤ s.waiting.length ∧ s.post edge = (false, s)) := by
  unfold post
  split
  · rename_i free
    exact .inl ⟨free, rfl⟩
  · rename_i full
    exact .inr ⟨Nat.not_lt.mp full, rfl⟩

theorem Station.turnOk {s : Station} {sinks : Sinks} {now : Nat}
    {out : TurnReport × Station × Sinks} :
    s.turn sinks now = .ok out ↔ ∃ step node sinks',
      (s.node.observeAll s.waiting).2.step sinks now = .ok (step, node, sinks') ∧
        out = (⟨(s.node.observeAll s.waiting).1, step⟩, { s with node, waiting := [] }, sinks') := by
  rw [turn, bindOk]
  constructor
  · intro ⟨⟨step, node, sinks'⟩, stepped, same⟩
    cases same
    exact ⟨step, node, sinks', stepped, rfl⟩
  · intro ⟨step, node, sinks', stepped, same⟩
    exact ⟨(step, node, sinks'), stepped, same ▸ rfl⟩

theorem Station.turnRoom {config : Config} {s : Station} {now : Nat} (stands : Stands config s.node)
    (room : config.Room now) (sinks : Sinks) :
    ∃ report s' sinks', s.turn sinks now = .ok (report, s', sinks') ∧ Stands config s'.node := by
  have heard := Node.observeAllStands stands s.waiting
  obtain ⟨step, node, sinks', stepped⟩ := Node.stepRoom heard room sinks
  exact ⟨_, _, sinks', turnOk.mpr ⟨step, node, sinks', stepped, rfl⟩,
    Node.stepStands heard room stepped⟩

namespace Loop

def Parked (l : Loop) : Prop := ∃ wake, l.wake = some wake ∧ l.station.waiting = [] ∧ l.clock < wake

theorem parkedUnready {l : Loop} : l.Parked ↔ l.ready = false := by
  unfold Parked ready
  cases l.wake with
  | none => simp
  | some wake => simp

def missed (l : Loop) : Nat := l.station.node.schedule.backlog l.clock

def demand (l : Loop) : Nat := if l.ready then max 1 l.missed else 0

section
variable {l l' : Loop} {report : TurnReport}

theorem takePump (l : Loop) :
    l.takeEdge.1 ++ l.takeEdge.2.pump.1 = l.station.pump.1 ∧
      l.takeEdge.2.pump.2 = l.station.pump.2 := by
  unfold takeEdge
  split
  · rename_i waiting
    simp [Station.pump, waiting, Node.observeAll]
  · exact ⟨rfl, rfl⟩

theorem turnWakes (l : Loop) :
    l.turn = l.station.turn l.sinks l.clock >>= fun (report, station, sinks) =>
      station.node.wake l.clock >>= fun wake =>
        .ok (report, { l with station, sinks, wake := some wake }) := by
  obtain ⟨edges, pumped⟩ := l.takePump
  have pump : l.station.pump = (l.takeEdge.1 ++ l.takeEdge.2.pump.1, l.takeEdge.2.pump.2) :=
    Prod.ext edges.symm pumped.symm
  unfold turn Station.turn
  rw [pump]
  obtain ⟨first, taken⟩ := l.takeEdge
  dsimp only
  cases taken.pump.2.node.step l.sinks l.clock <;> rfl

theorem turnOk {out : TurnReport × Loop} :
    l.turn = .ok out ↔ ∃ step node sinks wake,
      (l.station.node.observeAll l.station.waiting).2.step l.sinks l.clock =
        .ok (step, node, sinks) ∧
      node.wake l.clock = .ok wake ∧
      out = (⟨(l.station.node.observeAll l.station.waiting).1, step⟩,
        { l with station := { l.station with node, waiting := [] }, sinks, wake := some wake }) := by
  rw [turnWakes, bindOk]
  constructor
  · intro ⟨⟨report, station, sinks⟩, turned, rest⟩
    obtain ⟨wake, asked, same⟩ := bindOk.mp rest
    obtain ⟨step, node, sinks, stepped, parts⟩ := Station.turnOk.mp turned
    cases same
    cases parts
    exact ⟨step, node, sinks, wake, stepped, asked, rfl⟩
  · intro ⟨step, node, sinks, wake, stepped, asked, same⟩
    exact ⟨_, Station.turnOk.mpr ⟨step, node, sinks, stepped, rfl⟩,
      bindOk.mpr ⟨wake, asked, same ▸ rfl⟩⟩

theorem turnClock (turned : l.turn = .ok (report, l')) : l'.clock = l.clock := by
  obtain ⟨_, _, _, _, _, _, same⟩ := turnOk.mp turned
  cases same
  rfl

theorem turnDemand (awake : l.ready = true) (turned : l.turn = .ok (report, l')) :
    l'.demand = l.demand - 1 := by
  obtain ⟨step, node, sinks, wake, stepped, asked, same⟩ := turnOk.mp turned
  cases same
  have does := Node.stepStepped stepped
  have schedule := does.schedule
  rw [Node.observeAllSchedule] at schedule
  -- Right after a step only the heartbeat can be due, so that the wake has passed just if it is.
  have early : l.clock < wake ↔ l.clock < node.schedule.nextHeartbeat := by
    rw [(Node.wakeBounded asked).2, Node.dueAfter]
    simp [schedule.nextTrigger, does.fresh]
  have fewer : node.schedule.backlog l.clock = l.missed - 1 := Schedule.backlogAsked schedule
  have none : l.clock < node.schedule.nextHeartbeat ↔ node.schedule.backlog l.clock = 0 := by
    have first : 0 < node.schedule.backlog l.clock ↔
        node.schedule.nextHeartbeat + 0 * node.schedule.heartbeatPeriod ≤ l.clock :=
      Schedule.backlogLt
    omega
  have later : demand { l with
      station := { l.station with node, waiting := [] }, sinks, wake := some wake } =
      node.schedule.backlog l.clock := by
    unfold demand ready
    simp only [List.isEmpty_nil, Bool.not_true, Bool.false_or, decide_eq_true_eq, missed]
    split <;> omega
  rw [later, fewer, demand, if_pos awake]
  omega

theorem runDemand (limit : Nat) {l : Loop} {reports : List TurnReport} {l' : Loop}
    (ran : l.run limit = .ok (reports, l')) :
    reports.length = min limit l.demand ∧ (l'.Parked ↔ l.demand ≤ limit) ∧ l'.clock = l.clock := by
  rw [parkedUnready]
  induction limit generalizing l reports with
  | zero =>
    cases ran
    unfold demand
    cases l'.ready <;> simp
  | succ limit ih =>
    rw [run] at ran
    cases ready : l.ready with
    | false =>
      rw [ready] at ran
      cases ran
      simp [demand, ready]
    | true =>
      rw [ready, if_pos rfl] at ran
      obtain ⟨⟨report, m⟩, turned, rest⟩ := bindOk.mp ran
      obtain ⟨⟨later, m'⟩, again, same⟩ := bindOk.mp rest
      cases same
      have fewer := turnDemand ready turned
      obtain ⟨count, parked, kept⟩ := ih again
      have positive : 0 < l.demand := by
        rw [demand, if_pos ready]
        omega
      rw [fewer] at count parked
      refine ⟨?_, ?_, kept.trans (turnClock turned)⟩
      · rw [List.length_cons, count]
        omega
      · rw [parked]
        omega

theorem settleParks {reports : List TurnReport} (settled : l.settle = .ok (reports, l')) :
    reports.length = l.demand ∧ l'.Parked := by
  obtain ⟨count, parked, _⟩ := runDemand (l.missed + 1) settled
  have enough : l.demand ≤ l.missed + 1 := by
    unfold demand
    split <;> omega
  exact ⟨count.trans (Nat.min_eq_right enough), parked.mpr enough⟩

end

section
variable {config : Config} {l : Loop}

theorem turnRoom (stands : Stands config l.station.node) (room : config.Room l.clock) :
    ∃ report l', l.turn = .ok (report, l') ∧ Stands config l'.station.node := by
  obtain ⟨report, station, sinks, turned, stands⟩ := Station.turnRoom stands room l.sinks
  obtain ⟨wake, asked⟩ := Node.wakeRoom stands room
  refine ⟨report, { l with station, sinks, wake := some wake }, ?_, stands⟩
  rw [turnWakes]
  exact bindOk.mpr ⟨_, turned, bindOk.mpr ⟨wake, asked, rfl⟩⟩

theorem runRoom (limit : Nat) {l : Loop} (stands : Stands config l.station.node)
    (room : config.Room l.clock) : ∃ reports l', l.run limit = .ok (reports, l') := by
  induction limit generalizing l with
  | zero => exact ⟨[], l, rfl⟩
  | succ limit ih =>
    rw [run]
    split
    · obtain ⟨report, m, turned, stands⟩ := turnRoom stands room
      obtain ⟨later, l', ran⟩ := ih stands (turnClock turned ▸ room)
      exact ⟨report :: later, l',
        bindOk.mpr ⟨(report, m), turned, bindOk.mpr ⟨(later, l'), ran, rfl⟩⟩⟩
    · exact ⟨[], l, rfl⟩

end

inductive Move
  | advance (us : Nat)
  | post (edge : Edge)
  | turn (us : Nat)
  deriving DecidableEq, Repr

def Move.us : Move → Nat
  | advance us | turn us => us
  | post _ => 0

def elapsed : List Move → Nat
  | [] => 0
  | m :: rest => m.us + elapsed rest

def turnFor (l : Loop) (us : Nat) : Except Overflow (TurnReport × Loop) := do
  let (report, l) ← l.turn
  let l ← l.advance us
  let wake ← l.station.node.wake l.clock
  .ok (report, { l with wake := some wake })

def move (l : Loop) : Move → Except Overflow (List TurnReport × Loop)
  | .advance us => do
    let l ← l.advance us
    .ok ([], l)
  | .post edge => .ok ([], (l.post edge).2)
  | .turn us =>
    if l.ready then do
      let (report, l) ← l.turnFor us
      .ok ([report], l)
    else .ok ([], l)

def play (l : Loop) : List Move → Except Overflow (List TurnReport × Loop)
  | [] => .ok ([], l)
  | m :: rest => do
    let (first, l) ← l.move m
    let (later, l) ← l.play rest
    .ok (first ++ later, l)

inductive Moved (l : Loop) : List TurnReport → Loop → Prop
  | passed (us : Nat) : Moved l [] { l with clock := l.clock + us }
  | posted (waiting : List Edge) : Moved l [] { l with station := { l.station with waiting } }
  | turned {step : StepReport} {node : Node} {sinks : Sinks} {wake : Nat} (us : Nat)
      (stepped : (l.station.node.observeAll l.station.waiting).2.step l.sinks l.clock =
        .ok (step, node, sinks))
      (asked : node.wake (l.clock + us) = .ok wake) :
      Moved l [⟨(l.station.node.observeAll l.station.waiting).1, step⟩]
        ⟨{ l.station with node, waiting := [] }, sinks, l.clock + us, some wake⟩

theorem advanceOk {l l' : Loop} {us : Nat} :
    l.advance us = .ok l' ↔
      l.clock + us < wordLimit ∧ l' = { l with clock := l.clock + us } := by
  rw [advance, bindOk]
  simp only [inWordOk]
  constructor
  · intro ⟨clock, ⟨word, passed⟩, same⟩
    cases passed
    cases same
    exact ⟨word, rfl⟩
  · intro ⟨word, same⟩
    exact ⟨_, ⟨word, rfl⟩, same ▸ rfl⟩

theorem postWaiting (l : Loop) (edge : Edge) :
    ∃ waiting, (l.post edge).2 = { l with station := { l.station with waiting } } := by
  obtain ⟨_, same⟩ | ⟨_, same⟩ := l.station.postCases edge
  · exact ⟨l.station.waiting ++ [edge], by rw [post, same]⟩
  · exact ⟨l.station.waiting, by rw [post, same]⟩

theorem moveMoved {l l' : Loop} {m : Move} {reports : List TurnReport}
    (moved : l.move m = .ok (reports, l')) : l.Moved reports l' := by
  cases m with
  | advance us =>
    obtain ⟨after, passed, same⟩ := bindOk.mp moved
    cases same
    rw [(advanceOk.mp passed).2]
    exact .passed us
  | post edge =>
    cases moved
    obtain ⟨waiting, same⟩ := l.postWaiting edge
    rw [same]
    exact .posted waiting
  | turn us =>
    rw [move] at moved
    split at moved
    · obtain ⟨⟨report, after⟩, slow, same⟩ := bindOk.mp moved
      cases same
      obtain ⟨⟨first, asleep⟩, turned, rest⟩ := bindOk.mp slow
      obtain ⟨later, passed, rest⟩ := bindOk.mp rest
      obtain ⟨wake, asked, same⟩ := bindOk.mp rest
      cases same
      obtain ⟨step, node, sinks, _, stepped, _, parts⟩ := turnOk.mp turned
      cases parts
      obtain ⟨_, passed⟩ := advanceOk.mp passed
      cases passed
      exact .turned us stepped asked
    · cases moved
      exact .passed 0

theorem turnForZero {l : Loop} (word : l.clock < wordLimit) : l.turnFor 0 = l.turn := by
  unfold turnFor
  cases turned : l.turn with
  | error overflow => rfl
  | ok out =>
    obtain ⟨_, node, _, wake, _, asked, same⟩ := turnOk.mp turned
    cases same
    exact bindOk.mpr ⟨_, rfl, bindOk.mpr ⟨_, advanceOk.mpr ⟨word, rfl⟩,
      bindOk.mpr ⟨wake, asked, rfl⟩⟩⟩

theorem runPlays (limit : Nat) {l : Loop} (word : l.clock < wordLimit) :
    l.run limit = l.play (List.replicate limit (.turn 0)) := by
  induction limit generalizing l with
  | zero => rfl
  | succ limit ih =>
    rw [run, List.replicate_succ, play, move]
    cases ready : l.ready with
    | false =>
      have still : l.run limit = .ok ([], l) := by cases limit <;> simp [run, ready]
      simp only [Bool.false_eq_true, if_false, bind, Except.bind, ← ih word, still, List.append_nil]
    | true =>
      simp only [if_true, turnForZero word]
      cases turned : l.turn with
      | error overflow => rfl
      | ok out =>
        have later : out.2.clock < wordLimit := turnClock turned ▸ word
        simp only [bind, Except.bind, ih later]
        rfl

theorem playKeeps {P : List TurnReport → Loop → Prop}
    (kept : ∀ past l reports l', P past l → l.Moved reports l' → P (past ++ reports) l')
    {moves : List Move} (past : List TurnReport) {l : Loop} {reports : List TurnReport} {l' : Loop}
    (holds : P past l) (played : l.play moves = .ok (reports, l')) : P (past ++ reports) l' := by
  induction moves generalizing past l reports with
  | nil =>
    cases played
    rwa [List.append_nil]
  | cons m rest ih =>
    obtain ⟨⟨first, after⟩, moved, more⟩ := bindOk.mp played
    obtain ⟨⟨later, last⟩, again, same⟩ := bindOk.mp more
    cases same
    rw [← List.append_assoc]
    exact ih (past ++ first) (kept past l first after holds (moveMoved moved)) again

def launch (config : Config) (capacity inbox boot : Nat) (sinks : Sinks) : Loop :=
  .start (.start (.start config capacity boot) inbox) sinks boot

def beats (reports : List TurnReport) : Nat := reports.countP (·.step.beat.isSome)

/-- The heartbeats so far against the clock; `near` says that none was sent before its deadline. -/
structure Paced (config : Config) (boot : Nat) (reports : List TurnReport) (l : Loop) : Prop where
  period : l.station.node.schedule.heartbeatPeriod = max config.heartbeatPeriod 1
  next : l.station.node.schedule.nextHeartbeat =
    boot + beats reports * max config.heartbeatPeriod 1
  number : l.station.node.numbering.heartbeat = .truncate (beats reports)
  begun : boot ≤ l.clock
  near : l.station.node.schedule.nextHeartbeat ≤ l.clock + max config.heartbeatPeriod 1
  wake : ∀ wake ∈ l.wake, wake ≤ l.station.node.schedule.nextHeartbeat

theorem launchPaced (config : Config) (capacity inbox boot : Nat) (sinks : Sinks) :
    Paced config boot [] (launch config capacity inbox boot sinks) where
  period := rfl
  next := (Nat.zero_mul _).symm ▸ rfl
  number := rfl
  begun := Nat.le_refl boot
  near := Nat.le_add_right boot _
  wake := nofun

theorem beatsSnoc (past : List TurnReport) (report : TurnReport) :
    beats (past ++ [report]) = beats past + if report.step.beat.isSome then 1 else 0 := by
  cases beaten : report.step.beat.isSome <;> simp [beats, beaten]

theorem turnedPaced {config : Config} {boot us wake : Nat} {past : List TurnReport} {l : Loop}
    {step : StepReport} {node : Node} {sinks : Sinks} (paced : Paced config boot past l)
    (stepped : (l.station.node.observeAll l.station.waiting).2.step l.sinks l.clock =
      .ok (step, node, sinks))
    (asked : node.wake (l.clock + us) = .ok wake) (edges : List EdgeReport) :
    Paced config boot (past ++ [⟨edges, step⟩])
      ⟨{ l.station with node, waiting := [] }, sinks, l.clock + us, some wake⟩ := by
  have does := Node.stepStepped stepped
  have schedule := does.schedule
  have number := does.heartbeat
  rw [Node.observeAllSchedule] at schedule
  rw [Node.observeAllHeartbeat, paced.number] at number
  have period := schedule.heartbeatPeriod.trans paced.period
  have beaten : step.beat.isSome = true ↔ l.station.node.schedule.nextHeartbeat ≤ l.clock := by
    rw [← Option.isSome_map, schedule.uptime]
    split <;> simp [*]
  have count := beatsSnoc past ⟨edges, step⟩
  have next := schedule.nextHeartbeat
  have near := paced.near
  simp only [beaten] at count number
  rw [paced.period] at next
  refine ⟨period, ?_, ?_, Nat.le_add_right_of_le paced.begun, ?_, ?_⟩
  · rw [next, count, paced.next, Nat.add_mul, Nat.add_assoc]
    split <;> simp
  · rw [number, count]
    split
    · exact Bus.TransferId.nextTruncate _
    · rfl
  · simp only [next]
    split <;> omega
  · intro instant same
    cases same
    refine Nat.le_of_not_lt ?_
    intro late
    have early := Nat.lt_of_lt_of_le late (Node.wakeBounded asked).1
    exact Nat.lt_irrefl _ (Node.dueAfter.mp early).2.1

theorem movedPaced {config : Config} {boot : Nat} {past reports : List TurnReport} {l l' : Loop}
    (paced : Paced config boot past l) (moved : l.Moved reports l') :
    Paced config boot (past ++ reports) l' := by
  cases moved with
  | passed us =>
    rw [List.append_nil]
    have begun := paced.begun
    have near := paced.near
    exact { paced with
      begun := Nat.le_add_right_of_le begun
      near := Nat.le_trans near (Nat.add_le_add_right (Nat.le_add_right _ _) _) }
  | posted waiting =>
    rw [List.append_nil]
    exact { paced with }
  | turned us stepped asked => exact turnedPaced paced stepped asked _

theorem movedStands {config : Config} {reports : List TurnReport} {l l' : Loop}
    (stands : config.Room l.clock → Stands config l.station.node) (moved : l.Moved reports l') :
    config.Room l'.clock → Stands config l'.station.node := by
  intro room
  cases moved with
  | passed us => exact stands (Config.roomEarlier (Nat.le_add_right _ us) room)
  | posted => exact stands room
  | turned us stepped asked =>
    have earlier := Config.roomEarlier (Nat.le_add_right l.clock us) room
    exact Node.stepStands (Node.observeAllStands (stands earlier) _) earlier stepped

theorem moveRoom {config : Config} {l : Loop} (stands : Stands config l.station.node) (m : Move)
    (room : config.Room (l.clock + m.us)) :
    ∃ reports l', l.move m = .ok (reports, l') ∧ Stands config l'.station.node ∧
      l'.clock ≤ l.clock + m.us := by
  have word : l.clock + m.us < wordLimit := Nat.lt_of_le_of_lt (Nat.le_add_right _ _) room.timeout
  cases m with
  | advance us =>
    exact ⟨[], _, bindOk.mpr ⟨_, advanceOk.mpr ⟨word, rfl⟩, rfl⟩, stands, Nat.le_refl _⟩
  | post edge =>
    obtain ⟨waiting, same⟩ := l.postWaiting edge
    refine ⟨[], _, rfl, ?_, ?_⟩
    · rw [same]
      exact stands
    · rw [same]
      exact Nat.le_refl _
  | turn us =>
    by_cases ready : l.ready = true
    · obtain ⟨report, m, turned, stands⟩ :=
        turnRoom stands (Config.roomEarlier (Nat.le_add_right _ us) room)
      have clock := turnClock turned
      obtain ⟨wake, asked⟩ := Node.wakeRoom stands room
      have slow : l.turnFor us =
          .ok (report, { m with clock := l.clock + us, wake := some wake }) := by
        refine bindOk.mpr ⟨_, turned, bindOk.mpr ⟨_, advanceOk.mpr ⟨clock ▸ word, rfl⟩, ?_⟩⟩
        exact bindOk.mpr ⟨wake, clock ▸ asked, clock ▸ rfl⟩
      refine ⟨[report], { m with clock := l.clock + us, wake := some wake }, ?_, stands,
        Nat.le_refl _⟩
      rw [move, if_pos ready]
      exact bindOk.mpr ⟨_, slow, rfl⟩
    · refine ⟨[], l, ?_, stands, Nat.le_add_right _ _⟩
      rw [move, if_neg ready]

theorem playRoom {config : Config} {l : Loop} (stands : Stands config l.station.node)
    (moves : List Move) (room : config.Room (l.clock + elapsed moves)) :
    ∃ reports l', l.play moves = .ok (reports, l') := by
  induction moves generalizing l with
  | nil => exact ⟨[], l, rfl⟩
  | cons m rest ih =>
    rw [elapsed, ← Nat.add_assoc] at room
    obtain ⟨first, after, moved, stands, clock⟩ :=
      moveRoom stands m (Config.roomEarlier (Nat.le_add_right _ _) room)
    obtain ⟨later, l', played⟩ :=
      ih stands (Config.roomEarlier (Nat.add_le_add_right clock _) room)
    exact ⟨first ++ later, l', bindOk.mpr ⟨_, moved, bindOk.mpr ⟨_, played, rfl⟩⟩⟩

section
variable {config : Config} {capacity inbox boot : Nat} {sinks : Sinks} {moves : List Move}
  {reports : List TurnReport} {l : Loop}
  (played : (launch config capacity inbox boot sinks).play moves = .ok (reports, l))
include played

theorem playPaced : Paced config boot reports l :=
  playKeeps (fun _ _ _ _ paced moved => movedPaced paced moved) []
    (launchPaced config capacity inbox boot sinks) played

theorem playStands : config.Room l.clock → Stands config l.station.node :=
  playKeeps (P := fun _ l => config.Room l.clock → Stands config l.station.node)
    (fun _ _ _ _ stands moved => movedStands stands moved) []
    (fun _ => Node.startStands config capacity boot) played

end

theorem heartbeatsKeepPace (config : Config) (capacity inbox boot : Nat) (sinks : Sinks)
    (moves : List Move) :
    (∀ reports l, (launch config capacity inbox boot sinks).play moves = .ok (reports, l) →
      l.Parked →
      beats reports = (l.clock - boot) / max config.heartbeatPeriod 1 + 1 ∧
      l.station.node.numbering.heartbeat.val = beats reports % 32 ∧
      l.station.node.schedule.nextHeartbeat =
        boot + beats reports * max config.heartbeatPeriod 1 ∧
      l.clock < l.station.node.schedule.nextHeartbeat) ∧
    (config.Room (boot + elapsed moves) →
      ∃ reports l, (launch config capacity inbox boot sinks).play moves = .ok (reports, l)) := by
  constructor
  · intro reports l played parked
    have paced := playPaced played
    obtain ⟨wake, asleep, _, early⟩ := parked
    have later := Nat.lt_of_lt_of_le early (paced.wake wake asleep)
    refine ⟨?_, congrArg Bus.Field.val paced.number, paced.next, later⟩
    have next := paced.next
    have begun := paced.begun
    have near := paced.near
    have positive : 0 < max config.heartbeatPeriod 1 := by omega
    generalize max config.heartbeatPeriod 1 = period at next near positive ⊢
    obtain ⟨before, count⟩ : ∃ before, beats reports = before + 1 := by
      refine Nat.exists_eq_succ_of_ne_zero ?_
      intro none
      rw [none, Nat.zero_mul] at next
      omega
    rw [count, Nat.succ_mul] at next
    rw [count, Nat.succ.injEq, eq_comm]
    refine (Nat.div_eq_iff positive).mpr ?_
    omega
  · intro room
    exact playRoom (Node.startStands config capacity boot) moves room

theorem paceThroughStall :
    ∃ reports l, (launch .standard defaultCapacity 8 7 .willing).play
        [.turn 0, .post ⟨24, .rising, .ofMicros 100⟩, .advance 2500000, .turn 30, .turn 0] =
          .ok (reports, l) ∧
      l.Parked ∧ beats reports = 3 ∧ l.station.node.schedule.nextHeartbeat = 3000007 := by
  obtain ⟨paced, plays⟩ := heartbeatsKeepPace .standard defaultCapacity 8 7 .willing
    [.turn 0, .post ⟨24, .rising, .ofMicros 100⟩, .advance 2500000, .turn 30, .turn 0]
  obtain ⟨reports, l, played⟩ := plays ⟨by decide, by decide, by decide⟩
  have last : ((launch .standard defaultCapacity 8 7 .willing).play
      [.turn 0, .post ⟨24, .rising, .ofMicros 100⟩, .advance 2500000, .turn 30, .turn 0]).toOption.map
        (fun (_, l) => (l.ready, l.clock)) = some (false, 2500037) := by decide +kernel
  rw [played] at last
  obtain ⟨still, clock⟩ := Prod.mk.inj (Option.some.inj last)
  have parked : l.Parked := parkedUnready.mpr still
  obtain ⟨count, _, next, _⟩ := paced reports l played parked
  rw [clock] at count
  refine ⟨reports, l, played, parked, count, ?_⟩
  rw [next, count]
  decide

def woken (l : Loop) (edges : List Edge) (now : Nat) : Loop :=
  { l with station := { l.station with waiting := edges }, clock := now }

theorem loopParks (config : Config) (capacity inbox boot : Nat) (sinks : Sinks) (moves : List Move)
    {past : List TurnReport} {l : Loop} {wake : Nat}
    (played : (launch config capacity inbox boot sinks).play moves = .ok (past, l))
    (asleep : l.wake = some wake) (edges : List Edge) (now : Nat) :
    ∃ missed turns, (∀ k, k < missed ↔
        l.station.node.schedule.nextHeartbeat + k * max config.heartbeatPeriod 1 ≤ now) ∧
      turns = (if edges = [] ∧ now < wake then 0 else max 1 missed) ∧
      (∀ limit reports l', (l.woken edges now).run limit = .ok (reports, l') →
        reports.length = min limit turns ∧ (l'.Parked ↔ turns ≤ limit) ∧ l'.clock = now) ∧
      (l.clock ≤ now → config.Room now → ∀ limit, ∃ reports l',
        (l.woken edges now).run limit = .ok (reports, l')) := by
  have paced := playPaced played
  have stands := playStands played
  refine ⟨(l.woken edges now).missed, (l.woken edges now).demand, ?_, ?_, ?_, ?_⟩
  · intro k
    rw [← paced.period]
    exact Schedule.backlogLt
  · have reason : (l.woken edges now).ready = true ↔ ¬ (edges = [] ∧ now < wake) := by
      unfold ready woken
      rw [asleep]
      by_cases none : edges = [] <;> simp [none]
    unfold demand
    by_cases idle : edges = [] ∧ now < wake
    · rw [if_pos idle, if_neg (mt reason.mp (not_not_intro idle))]
    · rw [if_neg idle, if_pos (reason.mpr idle)]
  · intro limit reports l' ran
    exact runDemand limit ran
  · intro order room limit
    exact runRoom limit (stands (Config.roomEarlier order room)) room

theorem parksAfterStall :
    ∃ past l wake, (launch .standard defaultCapacity 8 7 .willing).play [.turn 0] = .ok (past, l) ∧
      l.wake = some wake ∧ l.clock ≤ 2500007 ∧ Config.standard.Room 2500007 ∧
      ∃ reports l', (l.woken [⟨24, .rising, .ofMicros 100⟩] 2500007).run 10 = .ok (reports, l') ∧
        reports.length = 2 ∧ l'.Parked := by
  have room : Config.standard.Room 2500007 := ⟨by decide, by decide, by decide⟩
  obtain ⟨past, l, played⟩ :
      ∃ past l, (launch .standard defaultCapacity 8 7 .willing).play [.turn 0] = .ok (past, l) :=
    ⟨_, _, rfl⟩
  have first : ((launch .standard defaultCapacity 8 7 .willing).play [.turn 0]).toOption.map
      (fun (_, l) => (l.wake, l.clock, l.station.node.schedule.nextHeartbeat)) =
        some (some 40007, 7, 1000007) := by decide +kernel
  rw [played] at first
  obtain ⟨asleep, rest⟩ := Prod.mk.inj (Option.some.inj first)
  obtain ⟨clock, next⟩ := Prod.mk.inj rest
  have order : l.clock ≤ 2500007 := by simp [clock]
  obtain ⟨missed, turns, deadlines, count, runs, goes⟩ :=
    loopParks .standard defaultCapacity 8 7 .willing [.turn 0] played asleep
      [⟨24, .rising, .ofMicros 100⟩] 2500007
  obtain ⟨reports, l', ran⟩ := goes order room 10
  obtain ⟨length, parked, _⟩ := runs 10 reports l' ran
  rw [next] at deadlines
  have two : missed = 2 := by
    have second : 1 < missed := (deadlines 1).mpr (by decide)
    have third : ¬ 2 < missed := mt (deadlines 2).mp (by decide)
    omega
  rw [if_neg (by simp), two] at count
  rw [count] at length parked
  exact ⟨past, l, _, played, asleep, order, room, reports, l', ran, length, parked.mpr (by decide)⟩

end Loop

end Rangefinder
