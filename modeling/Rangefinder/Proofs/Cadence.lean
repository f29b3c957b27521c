import Rangefinder.Proofs.Polling

/-! How many heartbeats polls make up when time does not run backwards. Each poll bounds the number: the
periods that have begun by then, and one for every poll that follows. The least bound is attained.
Polls that are never more than a period apart make up every period that has begun, each in time. -/
namespace Rangefinder.Schedule

/-- The least of the number of polls and, for every poll, of the periods begun at its instant and the
polls after it. -/
def quota (boot period : Nat) (times : List Nat) : Nat :=
  (times.mapIdx fun j now => (now - boot) / period + 1 + (times.length - (j + 1))).foldl min
    times.length

structure Dense (limit period : Nat) (times : List Nat) : Prop where
  first : ∀ now, times[0]? = some now → now < limit
  near : ∀ (j now later : Nat), times[j]? = some now → times[j + 1]? = some later →
    later ≤ now + period

theorem denseTail {limit period now : Nat} {rest : List Nat} (dense : Dense limit period (now :: rest)) :
    Dense (now + period + 1) period rest where
  first later found := Nat.lt_succ_of_le (dense.near 0 now later rfl found)
  near j := dense.near (j + 1)

theorem denseLater {limit later period : Nat} {times : List Nat} (order : limit ≤ later)
    (dense : Dense limit period times) : Dense later period times :=
  { dense with first := fun now found => Nat.lt_of_lt_of_le (dense.first now found) order }

section
variable {boot period count now : Nat}

theorem makeUpDue (due : boot + count * period ≤ now) : makeUp boot period count now = count + 1 :=
  if_pos due

theorem makeUpEarly (early : now < boot + count * period) : makeUp boot period count now = count :=
  if_neg (Nat.not_le.mpr early)

theorem periodsBegun (positive : 0 < period) (begun : boot ≤ now) :
    boot + count * period ≤ now ↔ count ≤ (now - boot) / period := by
  rw [Nat.le_div_iff_mul_le positive]
  omega

theorem makeUpLeast (positive : 0 < period) (begun : boot ≤ now)
    (near : count ≤ (now - boot) / period + 1) :
    makeUp boot period count now = min (count + 1) ((now - boot) / period + 1) := by
  by_cases due : boot + count * period ≤ now
  · have past := (periodsBegun positive begun).mp due
    rw [makeUpDue due]
    omega
  · have future := mt (periodsBegun positive begun).mpr due
    rw [makeUpEarly (Nat.lt_of_not_le due)]
    omega

theorem makeUpPast (near : now < boot + (count + 1) * period) :
    now < boot + makeUp boot period count now * period := by
  by_cases due : boot + count * period ≤ now
  · rwa [makeUpDue due]
  · rw [makeUpEarly (Nat.lt_of_not_le due)]
    exact Nat.lt_of_not_le due

theorem denseOnward {rest : List Nat}
    (dense : Dense (boot + (count + 1) * period) period (now :: rest)) :
    Dense (boot + (makeUp boot period count now + 1) * period) period rest := by
  have past := makeUpPast (dense.first now rfl)
  refine denseLater ?_ (denseTail dense)
  rw [Nat.succ_mul]
  omega

theorem madeLeast (positive : 0 < period) {times : List Nat} (ordered : times.Pairwise (· ≤ ·))
    (begun : ∀ now ∈ times, boot ≤ now) (near : ∀ now ∈ times, count ≤ (now - boot) / period + 1) :
    made boot period count times =
      (times.mapIdx fun j now => (now - boot) / period + 1 + (times.length - (j + 1))).foldl min
        (count + times.length) := by
  induction times generalizing count with
  | nil => rfl
  | cons now rest ih =>
    obtain ⟨after, ordered⟩ := List.pairwise_cons.mp ordered
    obtain ⟨here, begun⟩ := List.forall_mem_cons.mp begun
    obtain ⟨first, near⟩ := List.forall_mem_cons.mp near
    have one := makeUpLeast positive here first
    have later : ∀ t ∈ rest, makeUp boot period count now ≤ (t - boot) / period + 1 := by
      intro t polled
      have quotients := Nat.div_le_div_right (c := period) (Nat.sub_le_sub_right (after t polled) boot)
      rw [one]
      omega
    have total : min (count + (rest.length + 1))
        ((now - boot) / period + 1 + (rest.length + 1 - (0 + 1))) =
          makeUp boot period count now + rest.length := by
      rw [one]
      omega
    have shift : ∀ j, rest.length + 1 - (j + 1 + 1) = rest.length - (j + 1) := by omega
    change made boot period (makeUp boot period count now) rest = _
    rw [ih ordered begun later, List.mapIdx_cons, List.foldl_cons, List.length_cons, total]
    simp only [shift]

theorem madeBounded (positive : 0 < period) {times : List Nat} {last : Nat}
    (before : ∀ now ∈ times, now ≤ last) (near : count ≤ (last - boot) / period + 1) :
    made boot period count times ≤ (last - boot) / period + 1 := by
  induction times generalizing count with
  | nil => exact near
  | cons now rest ih =>
    obtain ⟨here, before⟩ := List.forall_mem_cons.mp before
    refine ih before ?_
    by_cases due : boot + count * period ≤ now
    · have past : boot + count * period ≤ last := Nat.le_trans due here
      rw [makeUpDue due]
      exact Nat.succ_le_succ ((periodsBegun positive (by omega)).mp past)
    · rwa [makeUpEarly (Nat.lt_of_not_le due)]

theorem madeCovers {times : List Nat} (dense : Dense (boot + (count + 1) * period) period times)
    {last : Nat} (final : times.getLast? = some last) :
    last < boot + made boot period count times * period := by
  induction times generalizing count with
  | nil => exact absurd final nofun
  | cons now rest ih =>
    cases rest with
    | nil =>
      cases Option.some.inj final
      exact makeUpPast (dense.first now rfl)
    | cons next more =>
      rw [List.getLast?_cons_cons] at final
      exact ih (denseOnward dense) final

theorem madeSome {times : List Nat} (begun : ∀ now ∈ times, boot ≤ now) :
    0 < made boot period 0 times ↔ times ≠ [] := by
  cases times with
  | nil => exact ⟨fun none => absurd none (Nat.lt_irrefl 0), fun some => absurd rfl some⟩
  | cons now rest =>
    have due : boot + 0 * period ≤ now := by
      rw [Nat.zero_mul]
      exact begun now List.mem_cons_self
    have first : makeUp boot period 0 now = 1 := makeUpDue due
    have grows : 1 ≤ made boot period (makeUp boot period 0 now) rest :=
      Nat.le_trans (Nat.le_of_eq first.symm) (madeGrows boot period _ rest)
    exact ⟨fun _ => nofun, fun _ => grows⟩

end

theorem orderedBefore {times : List Nat} (ordered : times.Pairwise (· ≤ ·)) {last : Nat}
    (final : times.getLast? = some last) : ∀ now ∈ times, now ≤ last := by
  obtain ⟨front, rfl⟩ := List.getLast?_eq_some_iff.mp final
  intro now polled
  rcases List.mem_append.mp polled with earlier | same
  · exact (List.pairwise_append.mp ordered).2.2 now earlier last (List.mem_singleton_self last)
  · exact Nat.le_of_eq (List.mem_singleton.mp same)

section
variable {boot period : Nat} (positive : 0 < period) {times : List Nat}
  (ordered : times.Pairwise (· ≤ ·)) (begun : ∀ now ∈ times, boot ≤ now)
include positive ordered begun

theorem madeQuota : made boot period 0 times = quota boot period times := by
  rw [madeLeast positive ordered begun fun _ _ => Nat.zero_le _, Nat.zero_add]
  rfl

theorem madeBegun {last : Nat} (final : times.getLast? = some last) :
    made boot period 0 times ≤ (last - boot) / period + 1 ∧
      (Dense (boot + period) period times →
        made boot period 0 times = (last - boot) / period + 1) := by
  have most : made boot period 0 times ≤ (last - boot) / period + 1 :=
    madeBounded positive (orderedBefore ordered final) (Nat.zero_le _)
  refine ⟨most, ?_⟩
  intro dense
  have limit : boot + period = boot + (0 + 1) * period := by rw [Nat.zero_add, Nat.one_mul]
  have past := madeCovers (limit ▸ dense) final
  have here := begun last (List.mem_of_getLast? final)
  have least : (last - boot) / period < made boot period 0 times := by
    rw [Nat.div_lt_iff_lt_mul positive]
    omega
  omega

end

def saturated (seconds : Nat) : UInt32 := .ofNat (min seconds 4294967295)

section
variable {origin s : Schedule} {count : Nat}

theorem uptimeInTime (counted : Counted origin count s) (second : origin.heartbeatPeriod = 1000000)
    {now : Nat} (due : s.nextHeartbeat ≤ now)
    (near : now < origin.boot + (count + 1) * origin.heartbeatPeriod) :
    s.uptime now = saturated count := by
  rw [counted.stands, second] at due
  rw [second] at near
  have seconds : (now - s.boot) / 1000000 = count := by
    rw [counted.grid.boot]
    omega
  rw [uptime, seconds, saturated]

theorem askSeconds (counted : Counted origin count s) (second : origin.heartbeatPeriod = 1000000)
    {poll : Poll} (near : ∀ now, poll.beat? = some now →
      now < origin.boot + (count + 1) * origin.heartbeatPeriod)
    {entry : Entry} (asked : s.ask poll = .ok entry) :
    entry.uptime?.toList = (List.range' count entry.uptime?.toList.length).map saturated := by
  cases poll with
  | trigger now => rcases askTrigger.mp asked with ⟨_, rfl⟩ | ⟨_, _, rfl⟩ <;> rfl
  | heartbeat now =>
    rcases askHeartbeat.mp asked with ⟨_, rfl⟩ | ⟨due, _, rfl⟩
    · rfl
    · exact congrArg (fun seconds => [seconds]) (uptimeInTime counted second due (near now rfl))

theorem runSeconds (counted : Counted origin count s) (second : origin.heartbeatPeriod = 1000000)
    {polls : List Poll} (dense : Dense (origin.boot + (count + 1) * origin.heartbeatPeriod)
      origin.heartbeatPeriod (beatTimes polls)) {log : List Entry} (ran : s.run polls = .ok log) :
    uptimes log = (List.range' count (uptimes log).length).map saturated := by
  induction polls generalizing s count log with
  | nil =>
    cases ran
    rfl
  | cons poll rest ih =>
    obtain ⟨entry, later, asked, more, rfl⟩ := runCons.mp ran
    obtain ⟨after, one⟩ := askCounted counted asked
    rw [beatTimesCons] at dense
    have near : ∀ now, poll.beat? = some now →
        now < origin.boot + (count + 1) * origin.heartbeatPeriod := by
      intro now beat
      rw [beat] at dense
      exact dense.first now rfl
    have onward : Dense (origin.boot + (count + entry.uptime?.toList.length + 1) *
        origin.heartbeatPeriod) origin.heartbeatPeriod (beatTimes rest) := by
      rw [one]
      cases beat : poll.beat? with
      | none => rwa [beat] at dense
      | some now =>
        rw [beat] at dense
        exact denseOnward dense
    have first := askSeconds counted second near asked
    have others := ih after onward more
    rw [uptimesCons, List.length_append, ← List.range'_append_1, List.map_append, ← first, ← others]

end

theorem heartbeatCadence (boot triggerPeriod heartbeatPeriod : Nat) (polls : List Poll)
    (ordered : (beatTimes polls).Pairwise (· ≤ ·)) (begun : ∀ now ∈ beatTimes polls, boot ≤ now) :
    let origin := start boot triggerPeriod heartbeatPeriod
    let period := max heartbeatPeriod 1
    let times := beatTimes polls
    ((∃ log, origin.run polls = .ok log) ↔ TriggersFit origin boot polls ∧
      (times ≠ [] → boot + quota boot period times * period < wordLimit)) ∧
    ∀ log, origin.run polls = .ok log →
      let beats := (uptimes log).length
      log.map Entry.poll = polls ∧
      (origin.left log).nextHeartbeat = boot + beats * period ∧
      beats = quota boot period times ∧
      (∀ last, times.getLast? = some last → beats ≤ (last - boot) / period + 1 ∧
        (Dense (boot + period) period times → beats = (last - boot) / period + 1)) ∧
      (Dense (boot + period) period times → heartbeatPeriod = 1000000 →
        uptimes log = (List.range beats).map saturated) := by
  intro origin period times
  have positive : 0 < period := origin.heartbeatPeriodPos
  have closed : made boot period 0 times = quota boot period times := madeQuota positive ordered begun
  have counted : Counted origin 0 origin := startCounted boot triggerPeriod heartbeatPeriod
  constructor
  · rw [startFits, ← closed]
    exact and_congr_right' (imp_congr (madeSome begun) Iff.rfl)
  · intro log ran beats
    obtain ⟨stands, count⟩ := runCounted counted ran
    rw [Nat.zero_add] at stands count
    refine ⟨runPolls ran, stands.stands, count.trans closed, ?_, ?_⟩
    · intro last final
      rw [show beats = made boot period 0 times from count]
      exact madeBegun positive ordered begun final
    · intro dense seconds
      have second : origin.heartbeatPeriod = 1000000 := congrArg (max · 1) seconds
      have limit : boot + origin.heartbeatPeriod = boot + (0 + 1) * origin.heartbeatPeriod := by
        rw [Nat.zero_add, Nat.one_mul]
      have said := runSeconds counted second (limit ▸ dense) ran
      rwa [← List.range_eq_range'] at said

theorem cadenceThroughStall :
    let polls : List Poll := [.heartbeat 7, .trigger 49999, .heartbeat 2500000, .heartbeat 2500000,
      .trigger 3, .heartbeat 2500000, .heartbeat 2600000]
    (beatTimes polls).Pairwise (· ≤ ·) ∧ (∀ now ∈ beatTimes polls, 7 ≤ now) ∧
      ∃ log, (start 7 50000 1000000).run polls = .ok log ∧ (uptimes log).length = 3 ∧
        ((start 7 50000 1000000).left log).nextHeartbeat = 3000007 := by
  intro polls
  have ordered : (beatTimes polls).Pairwise (· ≤ ·) := by decide
  have begun : ∀ now ∈ beatTimes polls, 7 ≤ now := by decide
  obtain ⟨fits, counts⟩ := heartbeatCadence 7 50000 1000000 polls ordered begun
  have triggers : TriggersFit (start 7 50000 1000000) 7 polls := by
    intro now polled _
    have early : now ≤ 49999 := by
      simp [polls] at polled
      omega
    exact Nat.lt_of_le_of_lt (gridAfterMono early) (by decide)
  obtain ⟨log, ran⟩ := fits.mpr ⟨triggers, fun _ => by decide⟩
  obtain ⟨_, next, count, _⟩ := counts log ran
  have three : (uptimes log).length = 3 := count.trans (by decide)
  refine ⟨ordered, begun, log, ran, three, ?_⟩
  rw [next, three]
  decide

end Rangefinder.Schedule
