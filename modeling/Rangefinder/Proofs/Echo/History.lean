import Rangefinder.Proofs.Echo.Ranger

/-! A ranger over whole runs. The history keeps every call with its report. Read back from its end it
tells which rising edge is pending, and a fall becomes a measurement exactly when one is and the echo
is not too long. -/
namespace Rangefinder.Echo

namespace Ranger

inductive Call
  | hear (edge : Edge)
  | expire (now : Nat)
  | fire (now : Nat)
  deriving DecidableEq, Repr

def Call.instant? : Call → Option Nat
  | hear _ => none
  | expire now | fire now => some now

inductive Event
  | heard (edge : Edge) (hearing : Hearing)
  | expired (now : Nat) (expiry : Option Expiry)
  | fired (now : Nat) (report : TriggerReport)
  deriving DecidableEq, Repr

namespace Event

def edge? : Event → Option Edge
  | heard edge _ => some edge
  | expired .. | fired .. => none

def expiry? : Event → Option Expiry
  | heard .. => none
  | expired _ expiry => expiry
  | fired _ report => report.expiry

def measurement? : Event → Option Measurement
  | heard _ hearing => hearing.measurement?
  | expired .. | fired .. => none

def Rises (line : Nat) (e : Event) : Prop := ∃ edge, e.edge? = some edge ∧ edge.Rises line

def Falls (line : Nat) (e : Event) : Prop := ∃ edge, e.edge? = some edge ∧ edge.Falls line

def TimesOut (e : Event) : Prop := e.expiry?.isSome

def Quiet (line : Nat) (e : Event) : Prop := ¬ e.Rises line ∧ ¬ e.Falls line ∧ ¬ e.TimesOut

theorem risesNotFalls {line : Nat} {e : Event} (rise : e.Rises line) : ¬ e.Falls line := by
  rintro ⟨edge, found, fall⟩
  obtain ⟨edge', found', rise⟩ := rise
  cases Option.some.inj (found.symm.trans found')
  have same := rise.2.symm.trans fall.2
  cases same

end Event

structure History where
  ranger : Ranger
  trigger : Sink
  events : List Event

namespace History

def start (line : Nat) (trigger : Sink) : History := ⟨.start line, trigger, []⟩

def call (h : History) : Call → History
  | .hear edge =>
    let (hearing, ranger) := h.ranger.hear edge
    { h with ranger, events := h.events ++ [.heard edge hearing] }
  | .expire now =>
    let (expiry, ranger) := h.ranger.expire now
    { h with ranger, events := h.events ++ [.expired now expiry] }
  | .fire now =>
    let (report, ranger, trigger) := h.ranger.fire h.trigger now
    ⟨ranger, trigger, h.events ++ [.fired now report]⟩

def event (h : History) : Call → Event
  | .hear edge => .heard edge (h.ranger.hear edge).1
  | .expire now => .expired now (h.ranger.expire now).1
  | .fire now => .fired now (h.ranger.fire h.trigger now).1

theorem callEvents (h : History) (c : Call) : (h.call c).events = h.events ++ [h.event c] := by
  cases c <;> rfl

def run (h : History) (calls : List Call) : History := calls.foldl call h

theorem runKeeps {P : History → Prop} {calls : List Call}
    (kept : ∀ c ∈ calls, ∀ h, P h → P (h.call c)) {h : History} (holds : P h) : P (h.run calls) := by
  induction calls generalizing h with
  | nil => exact holds
  | cons c rest ih =>
    obtain ⟨first, later⟩ := List.forall_mem_cons.mp kept
    exact ih later (first h holds)

end History

/-- The rise at position `i` still waits for its fall: since then the echo line was still and no
cycle timed out. -/
structure Pending (line : Nat) (events : List Event) (i : Nat) (tick : Tick) : Prop where
  rise : ∃ edge hearing, events[i]? = some (.heard edge hearing) ∧ edge.Rises line ∧ edge.tick = tick
  quiet : ∀ (j : Nat) (e : Event), i < j → events[j]? = some e → e.Quiet line

theorem pendingBefore {line : Nat} {events : List Event} {i : Nat} {tick : Tick}
    (pending : Pending line events i tick) : i < events.length := by
  obtain ⟨_, _, found, _⟩ := pending.rise
  exact (List.getElem?_eq_some_iff.mp found).1

theorem eventAt {past : List Event} {last e : Event} {j : Nat} :
    (past ++ [last])[j]? = some e ↔ past[j]? = some e ∨ j = past.length ∧ e = last := by
  rcases Nat.lt_trichotomy j past.length with within | same | beyond
  · have other : j ≠ past.length := Nat.ne_of_lt within
    simp [List.getElem?_append_left within, other]
  · simp [same, eq_comm]
  · have other : j ≠ past.length := Nat.ne_of_gt beyond
    have missing : past[j]? = none := List.getElem?_eq_none (Nat.le_of_lt beyond)
    have outside : (past ++ [last])[j]? = none := by
      rw [List.getElem?_eq_none_iff, List.length_append, List.length_singleton]
      exact beyond
    simp [outside, missing, other]

theorem pendingRise {line : Nat} {edge : Edge} (rise : edge.Rises line) (past : List Event)
    (hearing : Hearing) {i : Nat} {tick : Tick} :
    Pending line (past ++ [.heard edge hearing]) i tick ↔ i = past.length ∧ edge.tick = tick := by
  constructor
  · intro pending
    obtain ⟨edge', hearing', found, _, tick⟩ := pending.rise
    rcases eventAt.mp found with earlier | ⟨same, last⟩
    · have before := (List.getElem?_eq_some_iff.mp earlier).1
      have quiet := pending.quiet past.length _ before (eventAt.mpr (.inr ⟨rfl, rfl⟩))
      exact absurd ⟨edge, rfl, rise⟩ quiet.1
    · cases last
      exact ⟨same, tick⟩
  · rintro ⟨rfl, rfl⟩
    refine ⟨⟨edge, hearing, eventAt.mpr (.inr ⟨rfl, rfl⟩), rise, rfl⟩, ?_⟩
    intro j e late found
    rcases eventAt.mp found with earlier | ⟨same, _⟩
    · have before := (List.getElem?_eq_some_iff.mp earlier).1
      omega
    · omega

theorem pendingKept {line : Nat} {e : Event} (still : ¬ e.Rises line) (past : List Event)
    {i : Nat} {tick : Tick} :
    Pending line (past ++ [e]) i tick ↔ Pending line past i tick ∧ e.Quiet line := by
  constructor
  · intro pending
    obtain ⟨edge, hearing, found, rise, tick⟩ := pending.rise
    rcases eventAt.mp found with earlier | ⟨_, last⟩
    · have before := (List.getElem?_eq_some_iff.mp earlier).1
      refine ⟨⟨⟨edge, hearing, earlier, rise, tick⟩, ?_⟩, ?_⟩
      · intro j e' late found
        exact pending.quiet j e' late (eventAt.mpr (.inl found))
      · exact pending.quiet past.length e before (eventAt.mpr (.inr ⟨rfl, rfl⟩))
    · exact absurd ⟨edge, last ▸ rfl, rise⟩ still
  · rintro ⟨pending, quiet⟩
    obtain ⟨edge, hearing, found, rise, tick⟩ := pending.rise
    refine ⟨⟨edge, hearing, eventAt.mpr (.inl found), rise, tick⟩, ?_⟩
    intro j e' late found
    rcases eventAt.mp found with earlier | ⟨_, rfl⟩
    · exact pending.quiet j e' late earlier
    · exact quiet

structure Tracks (line : Nat) (h : History) : Prop where
  echoLine : h.ranger.echoLine = line
  risen : ∀ tick, h.ranger.cycle.risenAt = some tick ↔ ∃ i, Pending line h.events i tick

theorem startTracks (line : Nat) (trigger : Sink) : Tracks line (.start line trigger) := by
  refine ⟨rfl, ?_⟩
  intro tick
  constructor
  · intro risen
    cases risen
  · rintro ⟨i, pending⟩
    exact absurd (pendingBefore pending) (Nat.not_lt_zero i)

theorem hearTracks {line : Nat} {h : History} (tracks : Tracks line h) (edge : Edge) :
    Tracks line (h.call (.hear edge)) := by
  refine ⟨(hearLine h.ranger edge).trans tracks.echoLine, ?_⟩
  intro tick
  change (h.ranger.hear edge).2.cycle.risenAt = some tick ↔
    ∃ i, Pending line (h.events ++ [.heard edge (h.ranger.hear edge).1]) i tick
  obtain rfl := tracks.echoLine
  by_cases own : edge.line = h.ranger.echoLine
  · cases level : edge.level with
    | rising =>
      have rise : edge.Rises h.ranger.echoLine := ⟨own, level⟩
      simp only [pendingRise rise, exists_eq_left, hearRise rise]
      exact Option.some_inj
    | falling =>
      have fall : edge.Falls h.ranger.echoLine := ⟨own, level⟩
      have lowered : (h.ranger.hear edge).2.cycle.risenAt = none := by
        cases risen : h.ranger.cycle.risenAt with
        | none => rw [hearOrphan fall risen]; exact risen
        | some start => rw [(hearEcho fall risen).2]; rfl
      have still : ¬ (Event.heard edge (h.ranger.hear edge).1).Rises h.ranger.echoLine :=
        fun rise => Event.risesNotFalls rise ⟨edge, rfl, fall⟩
      simp only [pendingKept still, lowered]
      constructor
      · intro risen
        cases risen
      · rintro ⟨_, _, _, quiet, _⟩
        exact absurd ⟨edge, rfl, fall⟩ quiet
  · rw [hearForeign own]
    have still : ¬ (Event.heard edge .foreign).Rises h.ranger.echoLine := by
      rintro ⟨_, same, rise⟩
      cases same
      exact own rise.1
    have quiet : (Event.heard edge .foreign).Quiet h.ranger.echoLine := by
      refine ⟨still, ?_, by simp [Event.TimesOut, Event.expiry?]⟩
      rintro ⟨_, same, fall⟩
      cases same
      exact own fall.1
    simp only [pendingKept still, quiet, and_true]
    exact tracks.risen tick

theorem lookTracks {line : Nat} {h : History} (tracks : Tracks line h) {now : Nat} {e : Event}
    (silent : e.edge? = none) (reported : e.expiry? = (h.ranger.expire now).1) {tick : Tick} :
    (h.ranger.expire now).2.cycle.risenAt = some tick ↔
      ∃ i, Pending line (h.events ++ [e]) i tick := by
  have still : ¬ e.Rises line := by
    rintro ⟨edge, found, _⟩
    rw [silent] at found
    cases found
  simp only [pendingKept still, exists_and_right, ← tracks.risen, expireRisen]
  cases expiry : (h.ranger.expire now).1 with
  | none =>
    rw [if_pos rfl]
    refine (and_iff_left ⟨still, ?_, ?_⟩).symm
    · rintro ⟨edge, found, _⟩
      rw [silent] at found
      cases found
    · simp [Event.TimesOut, reported, expiry]
  | some kind => simp [Event.Quiet, Event.TimesOut, reported, expiry]

theorem callTracks {line : Nat} {h : History} (tracks : Tracks line h) (c : Call) :
    Tracks line (h.call c) := by
  cases c with
  | hear edge => exact hearTracks tracks edge
  | expire now =>
    refine ⟨(expireLine h.ranger now).trans tracks.echoLine, ?_⟩
    intro tick
    change (h.ranger.expire now).2.cycle.risenAt = some tick ↔
      ∃ i, Pending line (h.events ++ [.expired now (h.ranger.expire now).1]) i tick
    exact lookTracks tracks rfl rfl
  | fire now =>
    refine ⟨(fireLine h.ranger h.trigger now).trans tracks.echoLine, ?_⟩
    intro tick
    change (h.ranger.fire h.trigger now).2.1.cycle.risenAt = some tick ↔
      ∃ i, Pending line (h.events ++ [.fired now (h.ranger.fire h.trigger now).1]) i tick
    have reported : (Event.fired now (h.ranger.fire h.trigger now).1).expiry? =
        (h.ranger.expire now).1 := fireExpiry h.ranger h.trigger now
    rw [fireRisen]
    exact lookTracks tracks rfl reported

theorem runTracks {line : Nat} {h : History} (tracks : Tracks line h) (calls : List Call) :
    Tracks line (h.run calls) :=
  History.runKeeps (P := Tracks line) (fun c _ _ kept => callTracks kept c) tracks

theorem hearMeasured {r : Ranger} {edge : Edge} (fall : edge.Falls r.echoLine) {m : Measurement} :
    (r.hear edge).1.measurement? = some m ↔ ∃ tick, r.cycle.risenAt = some tick ∧
      edge.tick.since tick ≤ longestEcho ∧ m.elapsed = edge.tick.since tick ∧
        m = .ofElapsed (edge.tick.since tick) := by
  cases risen : r.cycle.risenAt with
  | none =>
    rw [hearOrphan fall risen]
    simp [Hearing.measurement?]
  | some start =>
    rw [(hearEcho fall risen).1]
    by_cases long : longestEcho < edge.tick.since start
    · rw [if_pos long]
      constructor
      · intro none
        cases none
      · rintro ⟨_, same, short, _⟩
        cases same
        exact absurd long (Nat.not_lt.mpr short)
    · rw [if_neg long]
      constructor
      · intro made
        cases made
        exact ⟨start, rfl, Nat.le_of_not_lt long, rfl, rfl⟩
      · rintro ⟨_, same, _, _, made⟩
        cases same
        rw [made]
        rfl

theorem hearUnmeasured {r : Ranger} {edge : Edge} (other : ¬ edge.Falls r.echoLine) :
    (r.hear edge).1.measurement? = none := by
  obtain ⟨_, same⟩ | ⟨_, same⟩ | ⟨fall, _⟩ | ⟨fall, _⟩ := hearCases r edge
  · rw [same]
    rfl
  · rw [same]
    rfl
  · exact absurd fall other
  · exact absurd fall other

def Genuine (line : Nat) (past : List Event) (e : Event) : Prop :=
  ∀ m, e.measurement? = some m ↔ ∃ edge i tick, e.edge? = some edge ∧ edge.Falls line ∧
    Pending line past i tick ∧
      let width := (edge.tick.count - tick.count).toNat
      width ≤ longestEcho ∧ m.elapsed = width ∧ m = .ofElapsed width

theorem hearGenuine {line : Nat} {h : History} (tracks : Tracks line h) (edge : Edge) :
    Genuine line h.events (.heard edge (h.ranger.hear edge).1) := by
  intro m
  change (h.ranger.hear edge).1.measurement? = some m ↔ _
  obtain rfl := tracks.echoLine
  by_cases fall : edge.Falls h.ranger.echoLine
  · rw [hearMeasured fall]
    constructor
    · rintro ⟨tick, risen, echo⟩
      obtain ⟨i, pending⟩ := (tracks.risen tick).mp risen
      exact ⟨edge, i, tick, rfl, fall, pending, echo⟩
    · rintro ⟨_, i, tick, same, _, pending, echo⟩
      cases same
      exact ⟨tick, (tracks.risen tick).mpr ⟨i, pending⟩, echo⟩
  · rw [hearUnmeasured fall]
    constructor
    · intro none
      cases none
    · rintro ⟨_, _, _, same, other, _⟩
      cases same
      exact absurd other fall

theorem silentGenuine {line : Nat} {past : List Event} {e : Event} (silent : e.edge? = none)
    (unmeasured : e.measurement? = none) : Genuine line past e := by
  intro m
  rw [unmeasured, silent]
  constructor
  · intro none
    cases none
  · rintro ⟨_, _, _, same, _⟩
    cases same

def AllGenuine (line : Nat) (events : List Event) : Prop :=
  ∀ (j : Nat) (e : Event), events[j]? = some e → Genuine line (events.take j) e

theorem genuineAppend {line : Nat} {events : List Event} (all : AllGenuine line events) {e : Event}
    (last : Genuine line events e) : AllGenuine line (events ++ [e]) := by
  intro j e' found
  rcases eventAt.mp found with earlier | ⟨rfl, rfl⟩
  · have before := (List.getElem?_eq_some_iff.mp earlier).1
    rw [List.take_append_of_le_length (Nat.le_of_lt before)]
    exact all j e' earlier
  · rwa [List.take_left]

theorem callGenuine {line : Nat} {h : History} (tracks : Tracks line h)
    (all : AllGenuine line h.events) (c : Call) : AllGenuine line (h.call c).events := by
  cases c with
  | hear edge => exact genuineAppend all (hearGenuine tracks edge)
  | expire now => exact genuineAppend all (silentGenuine rfl rfl)
  | fire now => exact genuineAppend all (silentGenuine rfl rfl)

theorem runGenuine {line : Nat} {h : History} (tracks : Tracks line h)
    (all : AllGenuine line h.events) (calls : List Call) : AllGenuine line (h.run calls).events := by
  induction calls generalizing h with
  | nil => exact all
  | cons c rest ih => exact ih (callTracks tracks c) (callGenuine tracks all c)

theorem startGenuine (line : Nat) (trigger : Sink) :
    AllGenuine line (History.start line trigger).events := by
  intro j e found
  cases found

theorem measuredOnce {line : Nat} {events : List Event} (all : AllGenuine line events) {i j k : Nat}
    {first : Event} {tick tick' : Tick} (found : events[j]? = some first)
    (measured : first.measurement?.isSome) (mine : Pending line (events.take j) i tick)
    (theirs : Pending line (events.take k) i tick') : k ≤ j := by
  refine Nat.le_of_not_lt ?_
  intro later
  obtain ⟨m, made⟩ := Option.isSome_iff_exists.mp measured
  obtain ⟨edge, _, _, same, fall, _⟩ := (all j first found m).mp made
  have before := pendingBefore mine
  rw [List.length_take] at before
  have seen : (events.take k)[j]? = some first := by
    rwa [List.getElem?_take_of_lt (by omega)]
  exact (theirs.quiet j first (by omega) seen).2.1 ⟨edge, same, fall⟩

theorem measurementsGenuine (line : Nat) (trigger : Sink) (calls : List Call) :
    let h := (History.start line trigger).run calls
    (∀ (j : Nat) (e : Event), h.events[j]? = some e → Genuine line (h.events.take j) e) ∧
    (∀ now, (h.ranger.expire now).1.isSome = h.ranger.cycle.timedOut now ∧
      (h.ranger.fire h.trigger now).1.expiry.isSome = h.ranger.cycle.timedOut now) ∧
    (∀ tick, h.ranger.cycle.risenAt = some tick ↔ ∃ i, Pending line h.events i tick) ∧
    (∀ now, h.ranger.cycle.timedOut now = false →
      (h.ranger.fire h.trigger now).2.1.cycle.risenAt = h.ranger.cycle.risenAt) ∧
    ∀ (i j k : Nat) (first second : Event) (tick tick' : Tick),
      h.events[j]? = some first → first.measurement?.isSome → Pending line (h.events.take j) i tick →
      h.events[k]? = some second → second.measurement?.isSome →
      Pending line (h.events.take k) i tick' → j = k := by
  intro h
  have all : AllGenuine line h.events :=
    runGenuine (startTracks line trigger) (startGenuine line trigger) calls
  have tracks : Tracks line h := runTracks (startTracks line trigger) calls
  refine ⟨all, ?_, tracks.risen, ?_, ?_⟩
  · intro now
    exact ⟨expireReports _ _, by rw [fireExpiry, expireReports]⟩
  · intro now fresh
    rw [fireRisen, expireFresh fresh]
    exact Cycle.anchorRisenAt _ _
  · intro i j k first second tick tick' found measured mine found' measured' theirs
    exact Nat.le_antisymm (measuredOnce all found' measured' theirs mine)
      (measuredOnce all found measured mine theirs)

end Ranger

end Rangefinder.Echo
