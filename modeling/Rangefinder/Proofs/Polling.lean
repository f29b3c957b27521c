import Rangefinder.Proofs.Schedule

/-! A schedule under any sequence of polls. What a trigger has come to is told by the grid from boot: its
deadline is the first point of the grid that lies past every poll, in whatever order they came.
What heartbeats have come to is told by their number, which is the least of as many bounds as there
were polls. A sequence is cut short only where one of the two deadlines leaves the word. -/
namespace Rangefinder.Schedule

inductive Poll
  | trigger (now : Nat)
  | heartbeat (now : Nat)
  deriving DecidableEq, Repr

def Poll.beat? : Poll → Option Nat
  | trigger _ => none
  | heartbeat now => some now

inductive Entry
  | trigger (now : Nat) (due : Bool) (after : Schedule)
  | heartbeat (now : Nat) (uptime? : Option UInt32) (after : Schedule)
  deriving DecidableEq, Repr

namespace Entry

def poll : Entry → Poll
  | trigger now .. => .trigger now
  | heartbeat now .. => .heartbeat now

def after : Entry → Schedule
  | trigger _ _ after | heartbeat _ _ after => after

def uptime? : Entry → Option UInt32
  | trigger .. => none
  | heartbeat _ uptime? _ => uptime?

end Entry

def ask (s : Schedule) : Poll → Except Overflow Entry
  | .trigger now => do
    let (due, after) ← s.takeTrigger now
    .ok (.trigger now due after)
  | .heartbeat now => do
    let (uptime?, after) ← s.takeHeartbeat now
    .ok (.heartbeat now uptime? after)

def run : Schedule → List Poll → Except Overflow (List Entry)
  | _, [] => .ok []
  | s, poll :: rest => do
    let entry ← s.ask poll
    let log ← run entry.after rest
    .ok (entry :: log)

def left (s : Schedule) (log : List Entry) : Schedule := log.foldl (fun _ entry => entry.after) s

def beatTimes (polls : List Poll) : List Nat := polls.filterMap Poll.beat?

def uptimes (log : List Entry) : List UInt32 := log.filterMap Entry.uptime?

theorem askTrigger {s : Schedule} {now : Nat} {entry : Entry} :
    s.ask (.trigger now) = .ok entry ↔
      now < s.nextTrigger ∧ entry = .trigger now false s ∨
      s.nextTrigger ≤ now ∧ gridAfter s.nextTrigger s.triggerPeriod now < wordLimit ∧
        entry = .trigger now true
          { s with nextTrigger := gridAfter s.nextTrigger s.triggerPeriod now } := by
  simp only [ask, bindOk, takeTriggerOk]
  constructor
  · rintro ⟨_, ⟨early, rfl⟩ | ⟨due, fits, rfl⟩, same⟩
    · exact .inl ⟨early, (Except.ok.inj same).symm⟩
    · exact .inr ⟨due, fits, (Except.ok.inj same).symm⟩
  · rintro (⟨early, rfl⟩ | ⟨due, fits, rfl⟩)
    · exact ⟨_, .inl ⟨early, rfl⟩, rfl⟩
    · exact ⟨_, .inr ⟨due, fits, rfl⟩, rfl⟩

theorem askHeartbeat {s : Schedule} {now : Nat} {entry : Entry} :
    s.ask (.heartbeat now) = .ok entry ↔
      now < s.nextHeartbeat ∧ entry = .heartbeat now none s ∨
      s.nextHeartbeat ≤ now ∧ s.nextHeartbeat + s.heartbeatPeriod < wordLimit ∧
        entry = .heartbeat now (some (s.uptime now))
          { s with nextHeartbeat := s.nextHeartbeat + s.heartbeatPeriod } := by
  simp only [ask, bindOk, takeHeartbeatOk]
  constructor
  · rintro ⟨_, ⟨early, rfl⟩ | ⟨due, fits, rfl⟩, same⟩
    · exact .inl ⟨early, (Except.ok.inj same).symm⟩
    · exact .inr ⟨due, fits, (Except.ok.inj same).symm⟩
  · rintro (⟨early, rfl⟩ | ⟨due, fits, rfl⟩)
    · exact ⟨_, .inl ⟨early, rfl⟩, rfl⟩
    · exact ⟨_, .inr ⟨due, fits, rfl⟩, rfl⟩

theorem runCons {s : Schedule} {poll : Poll} {rest : List Poll} {log : List Entry} :
    s.run (poll :: rest) = .ok log ↔
      ∃ entry later, s.ask poll = .ok entry ∧ entry.after.run rest = .ok later ∧
        log = entry :: later := by
  simp only [run, bindOk]
  constructor
  · rintro ⟨entry, asked, later, ran, same⟩
    exact ⟨entry, later, asked, ran, (Except.ok.inj same).symm⟩
  · rintro ⟨entry, later, asked, ran, rfl⟩
    exact ⟨entry, asked, later, ran, rfl⟩

theorem askPoll {s : Schedule} {poll : Poll} {entry : Entry} (asked : s.ask poll = .ok entry) :
    entry.poll = poll := by
  cases poll with
  | trigger now => rcases askTrigger.mp asked with ⟨_, rfl⟩ | ⟨_, _, rfl⟩ <;> rfl
  | heartbeat now => rcases askHeartbeat.mp asked with ⟨_, rfl⟩ | ⟨_, _, rfl⟩ <;> rfl

theorem runPolls {s : Schedule} {polls : List Poll} {log : List Entry}
    (ran : s.run polls = .ok log) : log.map Entry.poll = polls := by
  induction polls generalizing s log with
  | nil =>
    cases ran
    rfl
  | cons poll rest ih =>
    obtain ⟨entry, later, asked, rest, rfl⟩ := runCons.mp ran
    rw [List.map_cons, askPoll asked, ih rest]

theorem runAt {s : Schedule} {polls : List Poll} {log : List Entry} (ran : s.run polls = .ok log)
    {i : Nat} {entry : Entry} (found : log[i]? = some entry) :
    s.run (polls.take i) = .ok (log.take i) ∧ (s.left (log.take i)).ask entry.poll = .ok entry := by
  induction polls generalizing s log i with
  | nil =>
    cases ran
    exact absurd found nofun
  | cons poll rest ih =>
    obtain ⟨first, later, asked, more, rfl⟩ := runCons.mp ran
    cases i with
    | zero =>
      cases Option.some.inj found
      exact ⟨rfl, (askPoll asked).symm ▸ asked⟩
    | succ i =>
      obtain ⟨front, here⟩ := ih more found
      exact ⟨runCons.mpr ⟨first, later.take i, asked, front, rfl⟩, here⟩

theorem askOnGrid {origin s : Schedule} (grid : OnGrid origin s) {poll : Poll} {entry : Entry}
    (asked : s.ask poll = .ok entry) : OnGrid origin entry.after := by
  cases poll with
  | trigger now =>
    obtain ⟨_, taken, same⟩ := bindOk.mp asked
    cases same
    exact triggerOnGrid grid taken
  | heartbeat now =>
    obtain ⟨_, taken, same⟩ := bindOk.mp asked
    cases same
    exact heartbeatOnGrid grid taken

theorem askForward {s : Schedule} {poll : Poll} {entry : Entry} (asked : s.ask poll = .ok entry) :
    s.nextTrigger ≤ entry.after.nextTrigger := by
  cases poll with
  | trigger now =>
    rcases askTrigger.mp asked with ⟨_, rfl⟩ | ⟨_, _, rfl⟩
    · exact Nat.le_refl _
    · exact Nat.le_add_right _ _
  | heartbeat now => rcases askHeartbeat.mp asked with ⟨_, rfl⟩ | ⟨_, _, rfl⟩ <;> exact Nat.le_refl _

/-- Where the trigger deadline stands after some polls: a point of the grid from boot lies at or past it
exactly if it lies past every one of them. -/
structure Passed (origin : Schedule) (earlier : List Poll) (s : Schedule) : Prop where
  grid : OnGrid origin s
  passed : ∀ k, s.nextTrigger ≤ origin.boot + k * origin.triggerPeriod ↔
    ∀ now, .trigger now ∈ earlier → now < origin.boot + k * origin.triggerPeriod

theorem startPassed (boot triggerPeriod heartbeatPeriod : Nat) :
    Passed (start boot triggerPeriod heartbeatPeriod) []
      (start boot triggerPeriod heartbeatPeriod) where
  grid := startOnGrid boot triggerPeriod heartbeatPeriod
  passed k := by
    constructor
    · intro _ now never
      exact absurd never List.not_mem_nil
    · intro _
      exact Nat.le_add_right boot _

section
variable {origin s : Schedule} {earlier : List Poll}

theorem askPassed (before : Passed origin earlier s) {poll : Poll} {entry : Entry}
    (asked : s.ask poll = .ok entry) : Passed origin (earlier ++ [poll]) entry.after := by
  refine ⟨askOnGrid before.grid asked, ?_⟩
  intro k
  have stood := before.passed k
  cases poll with
  | trigger now =>
    simp only [List.mem_append, List.mem_singleton, Poll.trigger.injEq, or_imp, forall_and, forall_eq]
    rcases askTrigger.mp asked with ⟨early, rfl⟩ | ⟨due, _, rfl⟩
    · constructor
      · intro reached
        exact ⟨stood.mp reached, Nat.lt_of_lt_of_le early reached⟩
      · intro ⟨past, _⟩
        exact stood.mpr past
    · have target : gridAfter s.nextTrigger s.triggerPeriod now ≤
          origin.boot + k * origin.triggerPeriod ↔ now < origin.boot + k * origin.triggerPeriod := by
        rw [triggerTarget before.grid due]
        exact gridAfterLe origin.triggerPeriodPos (Nat.le_trans (bootReached before.grid) due)
      refine target.trans ⟨?_, And.right⟩
      intro later
      exact ⟨stood.mp (Nat.le_trans due (Nat.le_of_lt later)), later⟩
  | heartbeat now =>
    have kept : entry.after.nextTrigger = s.nextTrigger := by
      rcases askHeartbeat.mp asked with ⟨_, rfl⟩ | ⟨_, _, rfl⟩ <;> rfl
    rw [kept, stood]
    simp

theorem runPassed (before : Passed origin earlier s) {polls : List Poll} {log : List Entry}
    (ran : s.run polls = .ok log) : Passed origin (earlier ++ polls) (s.left log) := by
  induction polls generalizing s earlier log with
  | nil =>
    cases ran
    exact (List.append_nil earlier).symm ▸ before
  | cons poll rest ih =>
    obtain ⟨entry, later, asked, more, rfl⟩ := runCons.mp ran
    have after := ih (askPassed before asked) more
    rwa [List.append_assoc] at after

theorem passedDue (before : Passed origin earlier s) (now : Nat) :
    s.nextTrigger ≤ now ↔ origin.boot ≤ now ∧ ∀ t, .trigger t ∈ earlier → origin.boot ≤ t →
      (t - origin.boot) / origin.triggerPeriod < (now - origin.boot) / origin.triggerPeriod := by
  obtain ⟨k, stands⟩ := before.grid.trigger
  have positive := origin.triggerPeriodPos
  have last := before.passed ((now - origin.boot) / origin.triggerPeriod)
  constructor
  · intro due
    have begun : origin.boot ≤ now := Nat.le_trans (bootReached before.grid) due
    have reached : k ≤ (now - origin.boot) / origin.triggerPeriod := by
      rw [Nat.le_div_iff_mul_le positive]
      omega
    have past := last.mp (stands ▸ Nat.add_le_add_left (Nat.mul_le_mul_right _ reached) _)
    refine ⟨begun, ?_⟩
    intro t polled onward
    rw [Nat.div_lt_iff_lt_mul positive]
    have earlier := past t polled
    omega
  · intro ⟨begun, cells⟩
    have within := Nat.div_mul_le_self (now - origin.boot) origin.triggerPeriod
    have past : s.nextTrigger ≤ origin.boot +
        (now - origin.boot) / origin.triggerPeriod * origin.triggerPeriod := by
      refine last.mpr ?_
      intro t polled
      by_cases onward : origin.boot ≤ t
      · have cell := (Nat.div_lt_iff_lt_mul positive).mp (cells t polled onward)
        omega
      · omega
    omega

end

def TriggersFit (origin : Schedule) (deadline : Nat) (polls : List Poll) : Prop :=
  ∀ now, .trigger now ∈ polls → deadline ≤ now →
    gridAfter origin.boot origin.triggerPeriod now < wordLimit

def makeUp (boot period count now : Nat) : Nat :=
  if boot + count * period ≤ now then count + 1 else count

def made (boot period count : Nat) (times : List Nat) : Nat := times.foldl (makeUp boot period) count

def BeatsFit (origin : Schedule) (count : Nat) (polls : List Poll) : Prop :=
  count < made origin.boot origin.heartbeatPeriod count (beatTimes polls) →
    origin.boot + made origin.boot origin.heartbeatPeriod count (beatTimes polls) *
      origin.heartbeatPeriod < wordLimit

section
variable (boot period count : Nat)

theorem makeUpGrows (now : Nat) : count ≤ makeUp boot period count now := by
  unfold makeUp
  split
  · exact Nat.le_succ count
  · exact Nat.le_refl count

theorem madeGrows (times : List Nat) : count ≤ made boot period count times := by
  induction times generalizing count with
  | nil => exact Nat.le_refl count
  | cons now rest ih => exact Nat.le_trans (makeUpGrows boot period count now) (ih _)

theorem madeAppend (front back : List Nat) :
    made boot period count (front ++ back) = made boot period (made boot period count front) back :=
  List.foldl_append

end

theorem beatTimesCons (poll : Poll) (rest : List Poll) :
    beatTimes (poll :: rest) = poll.beat?.toList ++ beatTimes rest := by
  cases here : poll.beat? <;> simp [beatTimes, here]

theorem uptimesCons (entry : Entry) (later : List Entry) :
    uptimes (entry :: later) = entry.uptime?.toList ++ uptimes later := by
  cases here : entry.uptime? <;> simp [uptimes, here]

structure Counted (origin : Schedule) (count : Nat) (s : Schedule) : Prop where
  grid : OnGrid origin s
  stands : s.nextHeartbeat = origin.boot + count * origin.heartbeatPeriod

theorem startCounted (boot triggerPeriod heartbeatPeriod : Nat) :
    Counted (start boot triggerPeriod heartbeatPeriod) 0
      (start boot triggerPeriod heartbeatPeriod) where
  grid := startOnGrid boot triggerPeriod heartbeatPeriod
  stands := (Nat.zero_mul _).symm ▸ rfl

section
variable {origin s : Schedule} {count : Nat}

theorem beatTarget (counted : Counted origin count s) :
    s.nextHeartbeat + s.heartbeatPeriod = origin.boot + (count + 1) * origin.heartbeatPeriod := by
  rw [counted.stands, counted.grid.heartbeatPeriod, Nat.succ_mul, Nat.add_assoc]

theorem askCounted (counted : Counted origin count s) {poll : Poll} {entry : Entry}
    (asked : s.ask poll = .ok entry) :
    Counted origin (count + entry.uptime?.toList.length) entry.after ∧
      count + entry.uptime?.toList.length =
        made origin.boot origin.heartbeatPeriod count poll.beat?.toList := by
  have grid := askOnGrid counted.grid asked
  have stands := counted.stands
  cases poll with
  | trigger now =>
    rcases askTrigger.mp asked with ⟨_, rfl⟩ | ⟨_, _, rfl⟩ <;> exact ⟨⟨grid, stands⟩, rfl⟩
  | heartbeat now =>
    rcases askHeartbeat.mp asked with ⟨early, rfl⟩ | ⟨due, _, rfl⟩
    · rw [stands] at early
      exact ⟨⟨grid, stands⟩, (if_neg (Nat.not_le.mpr early)).symm⟩
    · rw [stands] at due
      exact ⟨⟨grid, beatTarget counted⟩, (if_pos due).symm⟩

theorem runCounted (counted : Counted origin count s) {polls : List Poll} {log : List Entry}
    (ran : s.run polls = .ok log) :
    Counted origin (count + (uptimes log).length) (s.left log) ∧
      count + (uptimes log).length =
        made origin.boot origin.heartbeatPeriod count (beatTimes polls) := by
  induction polls generalizing s count log with
  | nil =>
    cases ran
    exact ⟨counted, rfl⟩
  | cons poll rest ih =>
    obtain ⟨entry, later, asked, more, rfl⟩ := runCons.mp ran
    obtain ⟨after, one⟩ := askCounted counted asked
    obtain ⟨last, all⟩ := ih after more
    rw [uptimesCons, beatTimesCons, List.length_append, ← Nat.add_assoc, madeAppend, ← one]
    exact ⟨last, all⟩

theorem askFits (counted : Counted origin count s) (poll : Poll) :
    (∃ entry, s.ask poll = .ok entry) ↔
      TriggersFit origin s.nextTrigger [poll] ∧ BeatsFit origin count [poll] := by
  cases poll with
  | trigger now =>
    have silent : BeatsFit origin count [.trigger now] := fun more => absurd more (Nat.lt_irrefl count)
    simp only [askTrigger, TriggersFit, List.mem_singleton, Poll.trigger.injEq, forall_eq, silent,
      and_true]
    constructor
    · rintro ⟨_, ⟨early, _⟩ | ⟨_, fits, _⟩⟩ due
      · exact absurd due (Nat.not_le.mpr early)
      · exact triggerTarget counted.grid due ▸ fits
    · intro fits
      rcases Nat.lt_or_ge now s.nextTrigger with early | due
      · exact ⟨_, .inl ⟨early, rfl⟩⟩
      · exact ⟨_, .inr ⟨due, (triggerTarget counted.grid due).symm ▸ fits due, rfl⟩⟩
  | heartbeat now =>
    have one : made origin.boot origin.heartbeatPeriod count (beatTimes [.heartbeat now]) =
        if s.nextHeartbeat ≤ now then count + 1 else count := by
      rw [counted.stands]
      rfl
    simp only [askHeartbeat, TriggersFit, List.mem_singleton, reduceCtorEq, false_implies,
      implies_true, true_and, beatTarget counted, BeatsFit, one]
    rcases Nat.lt_or_ge now s.nextHeartbeat with early | due
    · simp [early, Nat.not_le.mpr early]
    · simp [due, Nat.not_lt.mpr due]

theorem triggerWord {poll : Poll} {entry : Entry} (asked : s.ask poll = .ok entry)
    (moved : s.nextTrigger < entry.after.nextTrigger) : entry.after.nextTrigger < wordLimit := by
  cases poll with
  | trigger now =>
    rcases askTrigger.mp asked with ⟨_, rfl⟩ | ⟨_, fits, rfl⟩
    · exact absurd moved (Nat.lt_irrefl _)
    · exact fits
  | heartbeat now =>
    rcases askHeartbeat.mp asked with ⟨_, rfl⟩ | ⟨_, _, rfl⟩ <;> exact absurd moved (Nat.lt_irrefl _)

theorem triggersFitAsked (grid : OnGrid origin s) {poll : Poll} {entry : Entry}
    (asked : s.ask poll = .ok entry) (rest : List Poll) :
    TriggersFit origin s.nextTrigger (poll :: rest) ↔
      TriggersFit origin s.nextTrigger [poll] ∧ TriggersFit origin entry.after.nextTrigger rest := by
  have forward := askForward asked
  constructor
  · intro fits
    constructor
    · intro now polled
      exact fits now (List.mem_cons.mpr (.inl (List.mem_singleton.mp polled)))
    · intro now polled due
      exact fits now (List.mem_cons_of_mem poll polled) (Nat.le_trans forward due)
  · intro ⟨here, later⟩ now polled due
    rcases List.mem_cons.mp polled with same | polled
    · exact here now (List.mem_singleton.mpr same) due
    · rcases Nat.lt_or_ge now entry.after.nextTrigger with early | late
      · have word := triggerWord asked (Nat.lt_of_le_of_lt due early)
        obtain ⟨k, stands⟩ := (askOnGrid grid asked).trigger
        rw [stands] at early word
        have begun := Nat.le_trans (bootReached grid) due
        exact Nat.lt_of_le_of_lt ((gridAfterLe origin.triggerPeriodPos begun).mpr early) word
      · exact later now polled late

theorem beatsFitCons (origin : Schedule) (count : Nat) (poll : Poll) (rest : List Poll) :
    BeatsFit origin count (poll :: rest) ↔
      BeatsFit origin count [poll] ∧
        BeatsFit origin (made origin.boot origin.heartbeatPeriod count poll.beat?.toList) rest := by
  have one : beatTimes [poll] = poll.beat?.toList := by
    rw [beatTimesCons]
    exact List.append_nil _
  simp only [BeatsFit, one, beatTimesCons poll rest, madeAppend]
  have grows := madeGrows origin.boot origin.heartbeatPeriod count poll.beat?.toList
  generalize made origin.boot origin.heartbeatPeriod count poll.beat?.toList = first at grows ⊢
  have onward := madeGrows origin.boot origin.heartbeatPeriod first (beatTimes rest)
  generalize made origin.boot origin.heartbeatPeriod first (beatTimes rest) = last at onward ⊢
  have least := Nat.mul_le_mul_right origin.heartbeatPeriod onward
  constructor
  · intro fits
    constructor
    · intro some
      have word := fits (Nat.lt_of_lt_of_le some onward)
      exact Nat.lt_of_le_of_lt (Nat.add_le_add_left least _) word
    · intro some
      exact fits (Nat.lt_of_le_of_lt grows some)
  · intro ⟨here, later⟩ some
    rcases Nat.lt_or_eq_of_le onward with other | same
    · exact later other
    · exact same ▸ here (same ▸ some)

theorem runFits (counted : Counted origin count s) (polls : List Poll) :
    (∃ log, s.run polls = .ok log) ↔
      TriggersFit origin s.nextTrigger polls ∧ BeatsFit origin count polls := by
  induction polls generalizing s count with
  | nil =>
    have triggers : TriggersFit origin s.nextTrigger [] := fun _ never => absurd never List.not_mem_nil
    have beats : BeatsFit origin count [] := fun more => absurd more (Nat.lt_irrefl count)
    exact ⟨fun _ => ⟨triggers, beats⟩, fun _ => ⟨[], rfl⟩⟩
  | cons poll rest ih =>
    have here := askFits counted poll
    rw [beatsFitCons]
    constructor
    · intro ⟨log, ran⟩
      obtain ⟨entry, later, asked, more, rfl⟩ := runCons.mp ran
      obtain ⟨after, one⟩ := askCounted counted asked
      obtain ⟨trigger, beat⟩ := here.mp ⟨entry, asked⟩
      obtain ⟨triggers, beats⟩ := (ih after).mp ⟨later, more⟩
      exact ⟨(triggersFitAsked counted.grid asked rest).mpr ⟨trigger, triggers⟩, beat, one ▸ beats⟩
    · intro ⟨triggers, beat, beats⟩
      have trigger : TriggersFit origin s.nextTrigger [poll] := fun now polled =>
        triggers now (List.mem_cons.mpr (.inl (List.mem_singleton.mp polled)))
      obtain ⟨entry, asked⟩ := here.mpr ⟨trigger, beat⟩
      obtain ⟨after, one⟩ := askCounted counted asked
      have rests := ((triggersFitAsked counted.grid asked rest).mp triggers).2
      obtain ⟨later, more⟩ := (ih after).mpr ⟨rests, one.symm ▸ beats⟩
      exact ⟨entry :: later, runCons.mpr ⟨entry, later, asked, more, rfl⟩⟩

end

theorem startFits (boot triggerPeriod heartbeatPeriod : Nat) (polls : List Poll) :
    (∃ log, (start boot triggerPeriod heartbeatPeriod).run polls = .ok log) ↔
      TriggersFit (start boot triggerPeriod heartbeatPeriod) boot polls ∧
        BeatsFit (start boot triggerPeriod heartbeatPeriod) 0 polls :=
  runFits (startCounted boot triggerPeriod heartbeatPeriod) polls

theorem triggersCoalesce (boot triggerPeriod heartbeatPeriod : Nat) (polls : List Poll) :
    let origin := start boot triggerPeriod heartbeatPeriod
    let period := max triggerPeriod 1
    ((∃ log, origin.run polls = .ok log) ↔ TriggersFit origin boot polls ∧ BeatsFit origin 0 polls) ∧
    ∀ log, origin.run polls = .ok log → log.map Entry.poll = polls ∧
      ∀ i entry, log[i]? = some entry →
        (∃ k, entry.after.nextTrigger = boot + k * period) ∧
        (origin.left (log.take i)).nextTrigger ≤ entry.after.nextTrigger ∧
        ∀ now due after, entry = .trigger now due after →
          (due = true ↔ boot ≤ now ∧ ∀ t, .trigger t ∈ polls.take i → boot ≤ t →
            (t - boot) / period < (now - boot) / period) ∧
          now < after.nextTrigger ∧ (due = true → after.nextTrigger ≤ now + period) := by
  intro origin period
  refine ⟨startFits boot triggerPeriod heartbeatPeriod polls, ?_⟩
  intro log ran
  refine ⟨runPolls ran, ?_⟩
  intro i entry found
  obtain ⟨front, asked⟩ := runAt ran found
  have before : Passed origin (polls.take i) (origin.left (log.take i)) :=
    runPassed (startPassed boot triggerPeriod heartbeatPeriod) front
  refine ⟨(askOnGrid before.grid asked).trigger, askForward asked, ?_⟩
  rintro now due after rfl
  have earlier := passedDue before now
  rcases askTrigger.mp asked with ⟨early, same⟩ | ⟨reached, _, same⟩
  · cases same
    have never := mt earlier.mpr (Nat.not_le.mpr early)
    exact ⟨⟨nofun, fun cells => absurd cells never⟩, early, nofun⟩
  · cases same
    have same : (origin.left (log.take i)).triggerPeriod ≤ period := Nat.le_of_eq before.grid.triggerPeriod
    have near := Nat.le_trans (gridAfterNear reached) (Nat.add_le_add_left same now)
    exact ⟨⟨fun _ => earlier.mp reached, fun _ => rfl⟩, gridAfterLater (triggerPeriodPos _), fun _ => near⟩

end Rangefinder.Schedule
