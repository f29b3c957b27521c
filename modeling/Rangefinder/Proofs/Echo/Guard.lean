import Rangefinder.Proofs.Echo.History

/-! The overlap guard of a ranger. After any look at the time a cycle is either empty or has a deadline
still to come, and only an empty one lets a trigger through to the line. Over a whole run that
does not go back in time, two pulses are therefore a timeout apart, unless an echo came between
them, and no cycle holds back the trigger for longer than a timeout. -/
namespace Rangefinder.Echo

structure Cycle.Settled (c : Cycle) (now : Nat) : Prop where
  flying : c.inFlight now = true ↔ c ≠ .idle
  deadline : ∃ timeout, c.deadline = .ok timeout ∧ (timeout.isSome ↔ c ≠ .idle) ∧
    ∀ deadline ∈ timeout, now < deadline

namespace Cycle

theorem sinceTimed {c : Cycle} (timed : c.Timed) : c.since.isSome ↔ c ≠ .idle := by
  constructor
  · rintro some rfl
    cases some
  · intro other
    refine Option.isSome_iff_ne_none.mpr ?_
    intro unopened
    obtain ⟨unfired, unseen⟩ := Option.or_eq_none_iff.mp unopened
    have low : c.risenAt = none := by
      refine Option.not_isSome_iff_eq_none.mp ?_
      intro risen
      have seen := timed (Bool.and_eq_true_iff.mpr ⟨Option.isNone_iff_eq_none.mpr unfired, risen⟩)
      rw [unseen] at seen
      cases seen
    obtain ⟨risenAt, firedAt, seenAt⟩ := c
    simp only at unfired unseen low
    exact other (by rw [unfired, unseen, low, idle])

theorem settled {c : Cycle} {now : Nat} (fresh : c.timedOut now = false) (timed : c.Timed)
    (fits : ∀ opened ∈ c.since, opened + echoTimeout < wordLimit) : c.Settled now where
  flying := by
    constructor
    · rintro flying rfl
      cases flying
    · intro other
      refine Bool.of_not_eq_false ?_
      intro landed
      exact other (idleOfLanded fresh landed)
  deadline := by
    refine ⟨_, deadlineOk.mpr ⟨fits, rfl⟩, ?_, ?_⟩
    · rw [Option.isSome_map]
      exact sinceTimed timed
    · intro deadline found
      obtain ⟨opened, since, rfl⟩ := Option.map_eq_some_iff.mp found
      exact freshUntil.mp fresh opened since

end Cycle

namespace Ranger

theorem pulseCalls (sink : Sink) : sink.calls < (pulse sink).2.calls := by
  unfold pulse
  split
  · split <;> exact Nat.lt_succ_of_lt (Nat.lt_succ_self _)
  · exact Nat.lt_succ_self _

section
variable (r : Ranger) (sink : Sink) (now : Nat)

theorem fireGuarded :
    ((r.fire sink now).1.firing = .skipped ↔ (r.expire now).2.cycle ≠ .idle) ∧
      (sink.calls < (r.fire sink now).2.2.calls ↔ (r.expire now).2.cycle = .idle) := by
  have pulsed := pulseCalls sink
  obtain ⟨flying, same⟩ | ⟨empty, _, same⟩ | ⟨empty, _, _, same⟩ := fireCases r sink now
  · have other : (r.expire now).2.cycle ≠ .idle := by
      intro landed
      rw [landed] at flying
      cases flying
    simp [same, other]
  · simp [same, empty, pulsed]
  · simp [same, empty, pulsed]

theorem fireFails {error : TriggerError} {failures : UInt32}
    (failed : (r.fire sink now).1.firing = .failed error failures) :
    (r.fire sink now).2.1.cycle = .idle := by
  obtain ⟨_, same⟩ | ⟨_, _, same⟩ | ⟨empty, _, _, same⟩ := fireCases r sink now
  · simp [same] at failed
  · simp [same] at failed
  · rw [same]
    exact empty

theorem fireFires (fired : (r.fire sink now).1.firing = .fired) :
    (r.expire now).2.cycle = .idle ∧ (r.fire sink now).2.1.cycle = .trigger now := by
  obtain ⟨_, same⟩ | ⟨empty, _, same⟩ | ⟨_, _, _, same⟩ := fireCases r sink now
  · simp [same] at fired
  · rw [same]
    exact ⟨empty, rfl⟩
  · simp [same] at fired

end

section
variable {r : Ranger} {t : Nat}

theorem expireFired (fired : r.cycle.firedAt = some t) (now : Nat) :
    (r.expire now).2.cycle.firedAt = some t ∨ t + echoTimeout ≤ now := by
  cases out : r.cycle.timedOut now with
  | true =>
    have since : r.cycle.since = some t := by simp [Cycle.since, fired]
    obtain ⟨opened, same, late⟩ := Cycle.timedOutOpened out
    cases since.symm.trans same
    exact .inr late
  | false =>
    rw [expireFresh out, Cycle.anchorFiredAt]
    exact .inl fired

theorem fireFired (fired : r.cycle.firedAt = some t) (sink : Sink) (now : Nat) :
    (r.fire sink now).2.1.cycle.firedAt = some t ∨ t + echoTimeout ≤ now := by
  obtain kept | late := expireFired fired now
  · obtain ⟨_, same⟩ | ⟨empty, _, _⟩ | ⟨empty, _, _, _⟩ := fireCases r sink now
    · rw [same]
      exact .inl kept
    · rw [empty] at kept
      cases kept
    · rw [empty] at kept
      cases kept
  · exact .inr late

theorem hearFired (fired : r.cycle.firedAt = some t) (edge : Edge) :
    (r.hear edge).2.cycle.firedAt = some t ∨
      edge.Falls r.echoLine ∧ ∃ tick, r.cycle.risenAt = some tick := by
  obtain ⟨_, same⟩ | ⟨_, same⟩ | ⟨_, _, same⟩ | ⟨fall, tick, risen, _⟩ := hearCases r edge
  · rw [same]
    exact .inl fired
  · rw [same]
    exact .inl fired
  · rw [same]
    exact .inl fired
  · exact .inr ⟨fall, tick, risen⟩

theorem hearIdle (empty : r.cycle = .idle) {edge : Edge} (still : ¬ edge.Rises r.echoLine) :
    (r.hear edge).2.cycle = .idle := by
  obtain ⟨_, same⟩ | ⟨rise, _⟩ | ⟨_, _, same⟩ | ⟨_, _, risen, _⟩ := hearCases r edge
  · rw [same]
    exact empty
  · exact absurd rise still
  · rw [same]
    exact empty
  · rw [empty] at risen
    cases risen

end

def Closed (line : Nat) (events : List Event) (i : Nat) : Prop :=
  ∃ (k : Nat) (edge : Edge) (hearing : Hearing) (p : Nat) (tick : Tick),
    i < k ∧ events[k]? = some (.heard edge hearing) ∧ edge.Falls line ∧
      Pending line (events.take k) p tick

theorem closedAppend {line : Nat} {past : List Event} {i : Nat} (closed : Closed line past i)
    (e : Event) : Closed line (past ++ [e]) i := by
  obtain ⟨k, edge, hearing, p, tick, after, found, fall, pending⟩ := closed
  have before := (List.getElem?_eq_some_iff.mp found).1
  refine ⟨k, edge, hearing, p, tick, after, eventAt.mpr (.inl found), fall, ?_⟩
  rwa [List.take_append_of_le_length (Nat.le_of_lt before)]

def Spaced (line : Nat) (events : List Event) : Prop :=
  ∀ (i j t₁ t₂ : Nat) (first second : Option Expiry), i < j →
    events[i]? = some (.fired t₁ ⟨first, .fired⟩) →
    events[j]? = some (.fired t₂ ⟨second, .fired⟩) →
    Closed line (events.take j) i ∨ t₁ + echoTimeout ≤ t₂

/-- What has become of a pulse at `t`: its cycle was closed, is a timeout old, or is in flight. -/
inductive Fate (line : Nat) (h : History) (last i t : Nat) : Prop
  | closed (after : Closed line h.events i)
  | elapsed (late : t + echoTimeout ≤ last)
  | flying (fired : h.ranger.cycle.firedAt = some t)

structure Guarded (line : Nat) (h : History) (last : Nat) : Prop where
  tracks : Tracks line h
  fates : ∀ (i t : Nat) (expiry : Option Expiry),
    h.events[i]? = some (.fired t ⟨expiry, .fired⟩) → Fate line h last i t
  spaced : Spaced line h.events

theorem startGuarded (line : Nat) (trigger : Sink) : Guarded line (.start line trigger) 0 := by
  refine ⟨startTracks line trigger, ?_, ?_⟩
  · intro i t expiry found
    cases found
  · intro i j t₁ t₂ first second order found
    cases found

section
variable {line : Nat} {h : History} {last : Nat}

theorem fateKept (tracks : Tracks line h) {i t : Nat} (within : i < h.events.length)
    (fate : Fate line h last i t) (c : Call) (order : ∀ now ∈ c.instant?, last ≤ now) :
    Fate line (h.call c) (c.instant?.getD last) i t := by
  cases fate with
  | closed after =>
    refine .closed ?_
    rw [History.callEvents]
    exact closedAppend after _
  | elapsed late =>
    refine .elapsed ?_
    cases c with
    | hear edge => exact late
    | expire now | fire now => exact Nat.le_trans late (order now rfl)
  | flying fired =>
    cases c with
    | hear edge =>
      obtain kept | ⟨fall, tick, risen⟩ := hearFired fired edge
      · exact .flying kept
      · rw [tracks.echoLine] at fall
        obtain ⟨p, pending⟩ := (tracks.risen tick).mp risen
        refine .closed ⟨h.events.length, edge, (h.ranger.hear edge).1, p, tick, within, ?_, fall, ?_⟩
        · exact eventAt.mpr (.inr ⟨rfl, rfl⟩)
        · rwa [History.callEvents, List.take_left]
    | expire now =>
      obtain kept | late := expireFired fired now
      · exact .flying kept
      · exact .elapsed late
    | fire now =>
      obtain kept | late := fireFired fired h.trigger now
      · exact .flying kept
      · exact .elapsed late

theorem eventFires {c : Call} {t : Nat} {expiry : Option Expiry}
    (fires : h.event c = .fired t ⟨expiry, .fired⟩) :
    c.instant? = some t ∧ (h.ranger.expire t).2.cycle = .idle ∧
      (h.call c).ranger.cycle = .trigger t := by
  cases c with
  | hear edge => cases fires
  | expire now => cases fires
  | fire now =>
    obtain ⟨rfl, same⟩ := Event.fired.inj fires
    exact ⟨rfl, fireFires h.ranger h.trigger now (congrArg TriggerReport.firing same)⟩

theorem callGuarded (guarded : Guarded line h last) (c : Call)
    (order : ∀ now ∈ c.instant?, last ≤ now) :
    Guarded line (h.call c) (c.instant?.getD last) := by
  refine ⟨callTracks guarded.tracks c, ?_, ?_⟩
  · intro i t expiry found
    rw [History.callEvents] at found
    obtain earlier | ⟨_, fires⟩ := eventAt.mp found
    · have within := (List.getElem?_eq_some_iff.mp earlier).1
      exact fateKept guarded.tracks within (guarded.fates i t expiry earlier) c order
    · obtain ⟨_, _, flying⟩ := eventFires fires.symm
      exact .flying (congrArg Cycle.firedAt flying)
  · intro i j t₁ t₂ first second before found found'
    rw [History.callEvents] at found found' ⊢
    obtain earlier' | ⟨rfl, fires⟩ := eventAt.mp found'
    · have within := (List.getElem?_eq_some_iff.mp earlier').1
      rw [List.getElem?_append_left (Nat.lt_trans before within)] at found
      rw [List.take_append_of_le_length (Nat.le_of_lt within)]
      exact guarded.spaced i j t₁ t₂ first second before found earlier'
    · rw [List.getElem?_append_left before] at found
      rw [List.take_left]
      obtain ⟨instant, empty, _⟩ := eventFires fires.symm
      cases guarded.fates i t₁ first found with
      | closed after => exact .inl after
      | elapsed late => exact .inr (Nat.le_trans late (order t₂ instant))
      | flying fired =>
        obtain kept | late := expireFired fired t₂
        · rw [empty] at kept
          cases kept
        · exact .inr late

theorem runGuarded (guarded : Guarded line h last) {calls : List Call}
    (order : (last :: calls.filterMap Call.instant?).Pairwise (· ≤ ·)) :
    ∃ last', Guarded line (h.run calls) last' := by
  induction calls generalizing h last with
  | nil => exact ⟨last, guarded⟩
  | cons c rest ih =>
    obtain ⟨later, ordered⟩ := List.pairwise_cons.mp order
    cases instant : c.instant? with
    | none =>
      rw [List.filterMap_cons_none instant] at order
      have next := callGuarded guarded c (by simp [instant])
      rw [instant] at next
      exact ih next order
    | some now =>
      rw [List.filterMap_cons_some instant] at later ordered
      have next := callGuarded guarded c (by
        intro now' same
        rw [instant] at same
        cases same
        exact later now List.mem_cons_self)
      rw [instant] at next
      exact ih next ordered

def Call.Calm (line : Nat) : Call → Prop
  | hear edge => ¬ edge.Rises line
  | expire _ => True
  | fire _ => False

theorem callCalm {c : Call} (calm : c.Calm h.ranger.echoLine) (empty : h.ranger.cycle = .idle) :
    (h.call c).ranger.cycle = .idle := by
  cases c with
  | hear edge => exact hearIdle empty calm
  | expire now => exact expireKeeps (P := fun c => c = .idle) rfl (by rw [empty]; rfl)
  | fire now => exact calm.elim

theorem runCalm (tracks : Tracks line h) (empty : h.ranger.cycle = .idle) {calls : List Call}
    (calm : ∀ c ∈ calls, c.Calm line) : (h.run calls).ranger.cycle = .idle := by
  have kept : ∀ c ∈ calls, ∀ h, Tracks line h ∧ h.ranger.cycle = .idle →
      Tracks line (h.call c) ∧ (h.call c).ranger.cycle = .idle := by
    rintro c member h ⟨tracks, empty⟩
    exact ⟨callTracks tracks c, callCalm (tracks.echoLine ▸ calm c member) empty⟩
  exact (History.runKeeps (P := fun h => Tracks line h ∧ h.ranger.cycle = .idle) kept
    ⟨tracks, empty⟩).2

end

theorem idleHolds {c : Cycle} :
    c = .idle ↔ c.firedAt = none ∧ c.risenAt = none ∧ c.seenAt = none := by
  obtain ⟨risenAt, firedAt, seenAt⟩ := c
  simp only [Cycle.idle, Cycle.mk.injEq]
  exact and_left_comm

theorem pulsesSpaced (line : Nat) (trigger : Sink) (calls : List Call) :
    let h := (History.start line trigger).run calls
    ((calls.filterMap Call.instant?).Pairwise (· ≤ ·) →
      ∀ (i j t₁ t₂ : Nat) (first second : Option Expiry), i < j →
        h.events[i]? = some (.fired t₁ ⟨first, .fired⟩) →
        h.events[j]? = some (.fired t₂ ⟨second, .fired⟩) →
        Closed line (h.events.take j) i ∨ t₁ + echoTimeout ≤ t₂) ∧
    (∀ now,
      let looked := (h.ranger.expire now).2.cycle
      let empty := looked.firedAt = none ∧ looked.risenAt = none ∧ looked.seenAt = none
      (h.trigger.calls < (h.ranger.fire h.trigger now).2.2.calls ↔ empty) ∧
        ((h.ranger.fire h.trigger now).1.firing = .skipped ↔ ¬ empty)) ∧
    ∀ now error failures, (h.ranger.fire h.trigger now).1.firing = .failed error failures →
      (h.call (.fire now)).ranger.cycle = .idle ∧
        ∀ between : List Call, (∀ c ∈ between, c.Calm line) → ∀ later,
          let g := (h.call (.fire now)).run between
          g.trigger.calls < (g.ranger.fire g.trigger later).2.2.calls := by
  intro h
  refine ⟨?_, ?_, ?_⟩
  · intro order
    have first : ((0 : Nat) :: calls.filterMap Call.instant?).Pairwise (· ≤ ·) :=
      List.pairwise_cons.mpr ⟨fun now _ => Nat.zero_le now, order⟩
    obtain ⟨_, guarded⟩ := runGuarded (startGuarded line trigger) first
    exact guarded.spaced
  · intro now looked empty
    obtain ⟨skips, pulses⟩ := fireGuarded h.ranger h.trigger now
    exact ⟨pulses.trans idleHolds, skips.trans (not_congr idleHolds)⟩
  · intro now error failures failed
    have tracks : Tracks line h := runTracks (startTracks line trigger) calls
    have empty : (h.call (.fire now)).ranger.cycle = .idle := fireFails h.ranger h.trigger now failed
    refine ⟨empty, ?_⟩
    intro between calm later g
    have still : g.ranger.cycle = .idle := runCalm (callTracks tracks (.fire now)) empty calm
    refine (fireGuarded g.ranger g.trigger later).2.mpr ?_
    exact expireKeeps (P := fun c => c = .idle) rfl (by rw [still]; rfl)

theorem pulsesAfterEcho :
    ([Call.fire 0, .hear ⟨24, .rising, .ofMicros 300⟩, .hear ⟨24, .falling, .ofMicros 900⟩,
        .fire 1000, .fire 30000, .expire 41000, .fire 41000].filterMap
          Call.instant?).Pairwise (· ≤ ·) ∧
    let h := (History.start 24 .willing).run
      [.fire 0, .hear ⟨24, .rising, .ofMicros 300⟩, .hear ⟨24, .falling, .ofMicros 900⟩,
        .fire 1000, .fire 30000, .expire 41000, .fire 41000]
    (h.events[0]? = some (.fired 0 ⟨none, .fired⟩) ∧ h.events[3]? = some (.fired 1000 ⟨none, .fired⟩) ∧
      h.events[6]? = some (.fired 41000 ⟨none, .fired⟩)) ∧
    Closed 24 (h.events.take 3) 0 ∧ ¬ 0 + echoTimeout ≤ 1000 ∧
    (Closed 24 (h.events.take 6) 3 ∨ 1000 + echoTimeout ≤ 41000) ∧
    let between := [Call.expire 8, .hear ⟨24, .falling, .ofMicros 9⟩]
    let failing := (History.start 24 (Sink.willing.script [false] true)).run []
    let g := (failing.call (.fire 7)).run between
    (failing.ranger.fire failing.trigger 7).1.firing = .failed (.setHigh (.trigger 0)) 1 ∧
      (∀ c ∈ between, c.Calm 24) ∧ g.trigger.calls < (g.ranger.fire g.trigger 10).2.2.calls := by
  have order : ([Call.fire 0, .hear ⟨24, .rising, .ofMicros 300⟩,
      .hear ⟨24, .falling, .ofMicros 900⟩, .fire 1000, .fire 30000, .expire 41000,
      .fire 41000].filterMap Call.instant?).Pairwise (· ≤ ·) := by decide
  obtain ⟨spaced, _⟩ := pulsesSpaced 24 .willing
    [.fire 0, .hear ⟨24, .rising, .ofMicros 300⟩, .hear ⟨24, .falling, .ofMicros 900⟩,
      .fire 1000, .fire 30000, .expire 41000, .fire 41000]
  have early : ¬ 0 + echoTimeout ≤ 1000 := by decide
  refine ⟨order, ⟨rfl, rfl, rfl⟩, ?_, early, ?_, ?_⟩
  · exact (spaced order 0 3 0 1000 none none (by decide) rfl rfl).resolve_right early
  · exact spaced order 3 6 1000 41000 none none (by decide) rfl rfl
  · intro between failing g
    obtain ⟨_, _, retries⟩ := pulsesSpaced 24 (Sink.willing.script [false] true) []
    have failed : (failing.ranger.fire failing.trigger 7).1.firing =
        .failed (.setHigh (.trigger 0)) 1 := by decide
    have calm : ∀ c ∈ between, c.Calm 24 := by simp [between, Call.Calm, Edge.Rises]
    exact ⟨failed, calm, (retries 7 _ _ failed).2 between calm 10⟩

section
variable {h : History}

theorem callSeenStray (c : Call) (kept : h.ranger.cycle.SeenStray) :
    (h.call c).ranger.cycle.SeenStray := by
  cases c with
  | hear edge => exact hearSeenStray kept edge
  | expire now => exact expireSeenStray kept now
  | fire now => exact fireSeenStray kept h.trigger now

theorem runSeenStray (line : Nat) (trigger : Sink) (calls : List Call) :
    ((History.start line trigger).run calls).ranger.cycle.SeenStray :=
  History.runKeeps (P := fun h => h.ranger.cycle.SeenStray) (fun c _ _ => callSeenStray c)
    Cycle.seenStrayIdle

theorem callOpened {last : Nat} (opened : h.ranger.cycle.OpenedBy last) {c : Call}
    (order : ∀ now ∈ c.instant?, now ≤ last) : (h.call c).ranger.cycle.OpenedBy last := by
  cases c with
  | hear edge => exact hearOpened opened edge
  | expire now => exact expireOpened opened (order now rfl)
  | fire now => exact fireOpened opened (order now rfl) h.trigger

theorem runOpened {last : Nat} (opened : h.ranger.cycle.OpenedBy last) {calls : List Call}
    (order : ∀ c ∈ calls, ∀ now ∈ c.instant?, now ≤ last) :
    (h.run calls).ranger.cycle.OpenedBy last :=
  History.runKeeps (P := fun h => h.ranger.cycle.OpenedBy last)
    (fun c member _ opened => callOpened opened (order c member)) opened

end

theorem openedFits {c : Cycle} :
    c.OpenedBy (wordLimit - 1 - echoTimeout) ↔
      ∀ opened ∈ c.since, opened + echoTimeout < wordLimit := by
  refine forall_congr' fun opened => imp_congr_right fun _ => ?_
  simp only [wordLimit, echoTimeout]
  omega

theorem noCycleStuck (line : Nat) (trigger : Sink) (calls : List Call) :
    let h := (History.start line trigger).run calls
    (h.ranger.cycle.seenAt.isSome →
      h.ranger.cycle.risenAt.isSome ∧ h.ranger.cycle.firedAt = none) ∧
    ((∀ c ∈ calls, ∀ now ∈ c.instant?, now + echoTimeout < wordLimit) →
      ∀ now, now + echoTimeout < wordLimit →
        (h.ranger.expire now).2.cycle.Settled now ∧
          (h.ranger.fire h.trigger now).2.1.cycle.Settled now) ∧
    ∀ now, (h.ranger.fire h.trigger now).1.firing = .skipped ↔
      ∃ opened, now < opened + echoTimeout ∧
        ((h.ranger.expire now).2.cycle.firedAt = some opened ∨
          (h.ranger.expire now).2.cycle.seenAt = some opened) := by
  intro h
  have kept : h.ranger.cycle.SeenStray := runSeenStray line trigger calls
  refine ⟨?_, ?_, ?_⟩
  · intro seen
    obtain ⟨unfired, risen⟩ := Bool.and_eq_true_iff.mp (kept seen)
    exact ⟨risen, Option.isNone_iff_eq_none.mp unfired⟩
  · intro fits now near
    have within : ∀ now, now + echoTimeout < wordLimit → now ≤ wordLimit - 1 - echoTimeout := by
      simp only [wordLimit, echoTimeout]
      omega
    have opened : h.ranger.cycle.OpenedBy (wordLimit - 1 - echoTimeout) :=
      runOpened (Cycle.openedByIdle _) fun c member now same => within now (fits c member now same)
    refine ⟨Cycle.settled (expireSettles _ _) (expireTimed _ _) ?_,
      Cycle.settled (fireFresh _ _ _) (fireTimed _ _ _) ?_⟩
    · exact openedFits.mp (expireOpened opened (within now near))
    · exact openedFits.mp (fireOpened opened (within now near) h.trigger)
  · intro now
    have looked := expireSeenStray kept now
    have since := Cycle.sinceTimed (expireTimed h.ranger now)
    rw [(fireGuarded h.ranger h.trigger now).1, ← since, Option.isSome_iff_exists]
    refine exists_congr fun opened => ?_
    rw [← Cycle.seenStrayOpened looked]
    refine ⟨fun same => ⟨Cycle.freshUntil.mp (expireSettles h.ranger now) opened same, same⟩, ?_⟩
    exact And.right

theorem strayLetsGo :
    let calls := [Call.fire 90000, .expire 130000, .hear ⟨24, .rising, .ofMicros 5⟩, .expire 100]
    let h := (History.start 24 .willing).run calls
    h.ranger.cycle.seenAt = some 100 ∧
      (h.ranger.cycle.risenAt.isSome ∧ h.ranger.cycle.firedAt = none) ∧
      (∀ c ∈ calls, ∀ now ∈ c.instant?, now + echoTimeout < wordLimit) ∧
      40099 + echoTimeout < wordLimit ∧ (h.ranger.expire 40099).2.cycle.Settled 40099 ∧
      (h.ranger.fire h.trigger 40099).1.firing = .skipped ∧
      ∃ opened, 40099 < opened + echoTimeout ∧
        ((h.ranger.expire 40099).2.cycle.firedAt = some opened ∨
          (h.ranger.expire 40099).2.cycle.seenAt = some opened) := by
  intro calls h
  obtain ⟨stray, settles, skips⟩ := noCycleStuck 24 .willing calls
  have seen : h.ranger.cycle.seenAt = some 100 := by decide
  have skipped : (h.ranger.fire h.trigger 40099).1.firing = .skipped := by decide
  have fits : ∀ c ∈ calls, ∀ now ∈ c.instant?, now + echoTimeout < wordLimit := by decide
  have near : 40099 + echoTimeout < wordLimit := by decide
  exact ⟨seen, stray (by rw [seen]; rfl), fits, near, (settles fits 40099 near).1, skipped,
    (skips 40099).mp skipped⟩

end Ranger
end Rangefinder.Echo
