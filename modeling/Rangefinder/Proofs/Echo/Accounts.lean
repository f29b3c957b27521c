import Rangefinder.Proofs.Echo.Guard

/-! The statistics of a ranger over whole runs. Each trigger is skipped, fails or pulses; each fall of the
echo line, and each stray that times out, is a measurement or an anomaly; each pulse opens a cycle
that times out, is closed by a fall, or is still open. All counts wrap at 32 bits. -/
namespace Rangefinder.Echo.Ranger

instance (line : Nat) (edge : Edge) : Decidable (edge.Falls line) := by
  unfold Edge.Falls
  infer_instance

namespace Call

def asks : Call → Bool
  | fire _ => true
  | hear _ | expire _ => false

def falls (line : Nat) : Call → Bool
  | hear edge => decide (edge.Falls line)
  | expire _ | fire _ => false

end Call

namespace History

def fires (h : History) : Call → Bool
  | .fire now => decide ((h.ranger.fire h.trigger now).1.firing = .fired)
  | .hear _ | .expire _ => false

def dropsStray (h : History) (c : Call) : Bool :=
  c.instant?.any fun now => h.ranger.cycle.isStray && h.ranger.cycle.timedOut now

def closesFired (h : History) (c : Call) : Bool :=
  c.falls h.ranger.echoLine && h.ranger.cycle.risenAt.isSome && h.ranger.cycle.firedAt.isSome

def count (p : History → Call → Bool) (h : History) : List Call → Nat
  | [] => 0
  | c :: rest => (p h c).toNat + (h.call c).count p rest

end History

attribute [simp] Call.asks Call.falls Call.instant? History.fires History.dropsStray
  History.closesFired History.count

def underway (r : Ranger) : UInt32 := .ofNat r.cycle.firedAt.isSome.toNat

structure Looked (r : Ranger) (now : Nat) (r' : Ranger) : Prop where
  skips : r'.stats.skippedTriggers = r.stats.skippedTriggers
  failures : r'.stats.triggerFailures = r.stats.triggerFailures
  measurements : r'.stats.measurements = r.stats.measurements
  anomalies : r'.stats.anomalies =
    r.stats.anomalies + .ofNat (r.cycle.isStray && r.cycle.timedOut now).toNat
  cycles : r'.stats.timeouts + r'.underway = r.stats.timeouts + r.underway

theorem expireLooked {r : Ranger} (kept : r.cycle.SeenStray) (now : Nat) :
    Looked r now (r.expire now).2 := by
  cases out : r.cycle.timedOut now with
  | false =>
    rw [expireFresh out]
    constructor <;> simp [out, underway]
  | true =>
    have same : (r.cycle.anchor now).timedOut now = true := by rw [Cycle.timedOutAnchor, out]
    cases stray : r.cycle.isStray with
    | true =>
      have unfired : r.cycle.firedAt = none :=
        Option.isNone_iff_eq_none.mp (Bool.and_eq_true_iff.mp stray).1
      constructor <;>
        simp [expire, same, stray, out, unfired, underway, countAnomaly, Cycle.idle]
    | false =>
      have fired : r.cycle.firedAt.isSome := by
        obtain ⟨opened, since, _⟩ := Cycle.timedOutOpened out
        obtain fired | seen := (Cycle.seenStrayOpened kept).mp since
        · rw [fired, Option.isSome_some]
        · rw [kept (by rw [seen, Option.isSome_some])] at stray
          cases stray
      constructor <;>
        simp [expire, same, stray, out, fired, underway, countTimeout, Cycle.idle]

structure Balanced (line : Nat) (h : History) (calls : List Call) : Prop where
  triggers : (h.run calls).ranger.stats.skippedTriggers +
      (h.run calls).ranger.stats.triggerFailures + .ofNat (h.count History.fires calls) =
    h.ranger.stats.skippedTriggers + h.ranger.stats.triggerFailures +
      .ofNat (calls.countP Call.asks)
  falls : (h.run calls).ranger.stats.measurements + (h.run calls).ranger.stats.anomalies =
    h.ranger.stats.measurements + h.ranger.stats.anomalies +
      (.ofNat (calls.countP (Call.falls line)) + .ofNat (h.count History.dropsStray calls))
  cycles : (h.run calls).ranger.stats.timeouts + .ofNat (h.count History.closesFired calls) +
      (h.run calls).ranger.underway =
    h.ranger.stats.timeouts + h.ranger.underway + .ofNat (h.count History.fires calls)

theorem balancedCons {line : Nat} {h : History} {c : Call} {rest : List Call}
    (first : Balanced line h [c]) (later : Balanced line (h.call c) rest) :
    Balanced line h (c :: rest) := by
  have one : h.run [c] = h.call c := rfl
  have all : h.run (c :: rest) = (h.call c).run rest := rfl
  obtain ⟨triggers, falls, cycles⟩ := first
  obtain ⟨triggers', falls', cycles'⟩ := later
  simp only [one, History.count, List.countP_singleton, Nat.add_zero] at triggers falls cycles
  constructor <;> simp only [all, History.count, List.countP_cons, UInt32.ofNat_add]
  all_goals grind

section
variable {h : History}

theorem hearBalanced (edge : Edge) : Balanced h.ranger.echoLine h [.hear edge] := by
  have run : (h.run [.hear edge]).ranger = (h.ranger.hear edge).2 := rfl
  obtain ⟨foreign, same⟩ | ⟨rise, same⟩ | ⟨fall, low, same⟩ | ⟨fall, tick, risen, same | same⟩ :=
    hearCases h.ranger edge
  · have other : ¬ edge.Falls h.ranger.echoLine := fun fall => foreign fall.1
    constructor <;> simp [run, same, other]
  · have other : ¬ edge.Falls h.ranger.echoLine := by
      intro fall
      cases rise.2.symm.trans fall.2
    constructor <;> simp [run, same, other, underway, Cycle.rise]
  · constructor <;> simp [run, same, fall, low, underway, countAnomaly, UInt32.add_assoc]
  · constructor <;>
      simp [run, same, fall, risen, underway, countAnomaly, Cycle.idle, UInt32.add_assoc]
  · constructor <;>
      simp [run, same, fall, risen, underway, countMeasurement, Cycle.idle, UInt32.add_assoc,
        UInt32.add_comm 1]

theorem expireBalanced (kept : h.ranger.cycle.SeenStray) (now : Nat) :
    Balanced h.ranger.echoLine h [.expire now] := by
  have run : (h.run [.expire now]).ranger = (h.ranger.expire now).2 := rfl
  have looked := expireLooked kept now
  constructor
  · simp [run, looked.skips, looked.failures]
  · simp [run, looked.measurements, looked.anomalies, UInt32.add_assoc]
  · simpa [run] using looked.cycles

theorem fireBalanced (kept : h.ranger.cycle.SeenStray) (now : Nat) :
    Balanced h.ranger.echoLine h [.fire now] := by
  have run : (h.run [.fire now]).ranger = (h.ranger.fire h.trigger now).2.1 := rfl
  have looked := expireLooked kept now
  obtain ⟨_, same⟩ | ⟨empty, _, same⟩ | ⟨empty, _, _, same⟩ := fireCases h.ranger h.trigger now
  · constructor
    · simp [run, same, looked.skips, looked.failures, countSkip, UInt32.add_assoc,
        UInt32.add_comm 1]
    · simp [run, same, looked.measurements, looked.anomalies, countSkip, UInt32.add_assoc]
    · simpa [run, same, underway, countSkip] using looked.cycles
  · constructor
    · simp [run, same, looked.skips, looked.failures]
    · simp [run, same, looked.measurements, looked.anomalies, UInt32.add_assoc]
    · have closed : (h.ranger.expire now).2.underway = 0 := by simp [underway, empty, Cycle.idle]
      have cycles := looked.cycles
      rw [closed, UInt32.add_zero] at cycles
      simpa [run, same, underway, Cycle.trigger] using cycles
  · constructor
    · simp [run, same, looked.skips, looked.failures, countFailure, UInt32.add_assoc]
    · simp [run, same, looked.measurements, looked.anomalies, countFailure, UInt32.add_assoc]
    · simpa [run, same, underway, countFailure] using looked.cycles

theorem callBalanced (kept : h.ranger.cycle.SeenStray) (c : Call) :
    Balanced h.ranger.echoLine h [c] := by
  cases c with
  | hear edge => exact hearBalanced edge
  | expire now => exact expireBalanced kept now
  | fire now => exact fireBalanced kept now

theorem runBalanced {line : Nat} (tracks : Tracks line h) (kept : h.ranger.cycle.SeenStray)
    (calls : List Call) : Balanced line h calls := by
  induction calls generalizing h with
  | nil => constructor <;> simp [History.run]
  | cons c rest ih =>
    have first := callBalanced kept c
    rw [tracks.echoLine] at first
    exact balancedCons first (ih (callTracks tracks c) (callSeenStray c kept))

end

theorem eventsBooked (line : Nat) (trigger : Sink) (calls : List Call) :
    let start := History.start line trigger
    let h := start.run calls
    let fires := UInt32.ofNat (start.count History.fires calls)
    h.ranger.stats.skippedTriggers + h.ranger.stats.triggerFailures + fires =
        .ofNat (calls.countP Call.asks) ∧
      h.ranger.stats.measurements + h.ranger.stats.anomalies =
        .ofNat (calls.countP (Call.falls line)) + .ofNat (start.count History.dropsStray calls) ∧
      fires = h.ranger.stats.timeouts + .ofNat (start.count History.closesFired calls) +
        (if h.ranger.cycle.firedAt.isSome then 1 else 0) := by
  intro start h fires
  have balanced : Balanced line start calls :=
    runBalanced (startTracks line trigger) Cycle.seenStrayIdle calls
  obtain ⟨triggers, falls, cycles⟩ := balanced
  have clear : start.ranger.stats = .zero := rfl
  have idle : start.ranger.underway = 0 := rfl
  have unfinished : (if h.ranger.cycle.firedAt.isSome then 1 else 0) = h.ranger.underway := by
    unfold underway
    cases h.ranger.cycle.firedAt <;> rfl
  simp only [clear, idle, RangerStats.zero, UInt32.add_zero, UInt32.zero_add]
    at triggers falls cycles
  exact ⟨triggers, falls, unfinished ▸ cycles.symm⟩

end Rangefinder.Echo.Ranger
