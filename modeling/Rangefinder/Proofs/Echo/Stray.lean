import Rangefinder.Proofs.Echo.Guard

/-! How long a stray is kept. Its timeout runs from the first look at the time after its rise, but a rise
that takes over from a stray already looked at gets the tick and not the instant: it is dropped
when the earlier one would have been, however short its own wait was. -/
namespace Rangefinder.Echo

theorem Cycle.anchorStray (tick : Tick) (seen : Option Nat) (now : Nat) :
    (Cycle.mk (some tick) none seen).anchor now = ⟨some tick, none, seen.or (some now)⟩ := by
  cases seen <;> rfl

theorem Cycle.timedOutStray (tick : Tick) (seen : Option Nat) (now : Nat) :
    (Cycle.mk (some tick) none seen).timedOut now = true ↔ seen.getD now + echoTimeout ≤ now := by
  cases seen with
  | none => simp [timedOut, since, echoTimeout]
  | some opened =>
    simp only [timedOut, since, Option.none_or, Option.any_some, decide_eq_true_eq, Option.getD_some]
    simp only [echoTimeout]
    omega

namespace Ranger

def History.Keeps (h : History) (tick : Tick) (now : Nat) : Prop :=
  (h.call (.expire now)).ranger.cycle.risenAt = some tick ∧
    (h.call (.fire now)).ranger.cycle.risenAt = some tick

section
variable {line : Nat} {h : History} {tick : Tick} {seen : Option Nat}

theorem runEvents (h : History) (calls : List Call) :
    ∃ more : List Event, more.length = calls.length ∧ (h.run calls).events = h.events ++ more := by
  induction calls generalizing h with
  | nil => exact ⟨[], rfl, (List.append_nil _).symm⟩
  | cons c rest ih =>
    obtain ⟨more, same, events⟩ := ih (h.call c)
    refine ⟨h.event c :: more, by rw [List.length_cons, same, List.length_cons], ?_⟩
    have first : (h.run (c :: rest)).events = ((h.call c).run rest).events := rfl
    rw [first, events, History.callEvents, List.append_assoc, List.singleton_append]

theorem quietCycle (tracks : Tracks line h) (stray : h.ranger.cycle = ⟨some tick, none, seen⟩)
    {c : Call} (quiet : (h.event c).Quiet line) :
    (h.call c).ranger.cycle = ⟨some tick, none, seen.or c.instant?⟩ ∧
      ∀ now ∈ c.instant?, now < seen.getD now + echoTimeout := by
  obtain ⟨still, unfallen, kept⟩ := quiet
  obtain rfl := tracks.echoLine
  have looked : ∀ now, ¬ (h.ranger.expire now).1.isSome →
      (h.ranger.expire now).2.cycle = ⟨some tick, none, seen.or (some now)⟩ ∧
        now < seen.getD now + echoTimeout := by
    intro now silent
    rw [expireReports, Bool.not_eq_true] at silent
    rw [expireFresh silent]
    refine ⟨by rw [stray, Cycle.anchorStray], ?_⟩
    rw [stray, ← Bool.not_eq_true, Cycle.timedOutStray] at silent
    exact Nat.lt_of_not_le silent
  cases c with
  | hear edge =>
    refine ⟨?_, nofun⟩
    have foreign : edge.line ≠ h.ranger.echoLine := by
      intro own
      cases level : edge.level with
      | rising => exact still ⟨edge, rfl, own, level⟩
      | falling => exact unfallen ⟨edge, rfl, own, level⟩
    change (h.ranger.hear edge).2.cycle = _
    rw [hearForeign foreign, stray]
    exact congrArg (Cycle.mk (some tick) none) (Option.or_none).symm
  | expire now =>
    obtain ⟨cycle, early⟩ := looked now kept
    exact ⟨cycle, fun _ same => Option.some.inj same ▸ early⟩
  | fire now =>
    have silent : ¬ (h.ranger.expire now).1.isSome := by
      rw [← fireExpiry h.ranger h.trigger now]
      exact kept
    obtain ⟨cycle, early⟩ := looked now silent
    refine ⟨?_, fun _ same => Option.some.inj same ▸ early⟩
    change (h.ranger.fire h.trigger now).2.1.cycle = _
    obtain ⟨_, same⟩ | ⟨empty, _⟩ | ⟨empty, _⟩ := fireCases h.ranger h.trigger now
    · rw [same]
      exact cycle
    · cases cycle.symm.trans empty
    · cases cycle.symm.trans empty

theorem quietRun (tracks : Tracks line h) (stray : h.ranger.cycle = ⟨some tick, none, seen⟩)
    {calls : List Call} {more : List Event} (events : (h.run calls).events = h.events ++ more)
    (quiet : ∀ e ∈ more, e.Quiet line) :
    let looks := calls.filterMap Call.instant?
    (h.run calls).ranger.cycle = ⟨some tick, none, seen.or looks.head?⟩ ∧
      ∀ first ∈ seen.or looks.head?, ∀ now ∈ looks, now < first + echoTimeout := by
  induction calls generalizing h seen more with
  | nil => exact ⟨stray.trans (congrArg (Cycle.mk (some tick) none) Option.or_none.symm), nofun⟩
  | cons c rest ih =>
    obtain ⟨later, _, after⟩ := runEvents (h.call c) rest
    have whole : (h.run (c :: rest)).events = h.events ++ h.event c :: later := by
      change ((h.call c).run rest).events = _
      rw [after, History.callEvents, List.append_assoc, List.singleton_append]
    obtain rfl := List.append_cancel_left (events.symm.trans whole)
    obtain ⟨own, others⟩ := List.forall_mem_cons.mp quiet
    obtain ⟨cycle, early⟩ := quietCycle tracks stray own
    obtain ⟨last, waits⟩ := ih (callTracks tracks c) cycle after others
    cases instant : c.instant? with
    | none =>
      rw [instant, Option.or_none] at last waits
      rw [List.filterMap_cons_none instant]
      exact ⟨last, waits⟩
    | some now =>
      rw [instant, Option.or_assoc, Option.some_or] at last waits
      rw [List.filterMap_cons_some instant]
      refine ⟨last, ?_⟩
      intro first found now' member
      obtain rfl | member := List.mem_cons.mp member
      · have bound := early now' instant
        cases seen <;> cases found <;> exact bound
      · exact waits first found now' member

theorem keepsStray (stray : h.ranger.cycle = ⟨some tick, none, seen⟩) (now : Nat) :
    h.Keeps tick now ↔ now < seen.getD now + echoTimeout := by
  have fired : (h.call (.fire now)).ranger.cycle.risenAt =
      (h.call (.expire now)).ranger.cycle.risenAt := fireRisen h.ranger h.trigger now
  have looked : (h.call (.expire now)).ranger.cycle.risenAt =
      if (h.ranger.expire now).1 = none then some tick else none := by
    rw [← show h.ranger.cycle.risenAt = some tick by rw [stray]]
    exact expireRisen h.ranger now
  have silent : (h.ranger.expire now).1 = none ↔ now < seen.getD now + echoTimeout := by
    rw [← Option.not_isSome_iff_eq_none, expireReports, stray, Cycle.timedOutStray, Nat.not_le]
  rw [History.Keeps, fired, and_self, looked, ← silent]
  exact ite_eq_left_iff.trans (by simp)

end

structure Stray (line : Nat) (trigger : Sink) (before : List Call) (edge : Edge)
    (later : List Call) : Prop where
  rise : edge.Rises line
  unfired : ((History.start line trigger).run before).ranger.cycle.firedAt = none
  pending : Pending line ((History.start line trigger).run (before ++ .hear edge :: later)).events
    before.length edge.tick

def firstLook (calls : List Call) (now : Nat) : Nat :=
  (calls.filterMap Call.instant?).head?.getD now

/-- No look of a run that does not go back in time drops the rise before a full timeout has passed since
the first look after it. -/
def KeptInFull (line : Nat) (trigger : Sink) (before : List Call) (edge : Edge)
    (later : List Call) : Prop :=
  ∀ now, (∀ earlier ∈ (before ++ .hear edge :: later).filterMap Call.instant?, earlier ≤ now) →
    now < firstLook later now + echoTimeout →
    ((History.start line trigger).run (before ++ .hear edge :: later)).Keeps edge.tick now

section
variable {line : Nat} {trigger : Sink} {before later : List Call} {edge : Edge}

theorem strayRun (stray : Stray line trigger before edge later) :
    let seen := ((History.start line trigger).run before).ranger.cycle.seenAt
    let looks := later.filterMap Call.instant?
    ((History.start line trigger).run (before ++ .hear edge :: later)).ranger.cycle =
        ⟨some edge.tick, none, seen.or looks.head?⟩ ∧
      ∀ first ∈ seen.or looks.head?, ∀ now ∈ looks, now < first + echoTimeout := by
  obtain ⟨rise, unfired, pending⟩ := stray
  have split : (History.start line trigger).run (before ++ .hear edge :: later) =
      (((History.start line trigger).run before).call (.hear edge)).run later :=
    List.foldl_append
  have tracks : Tracks line ((History.start line trigger).run before) :=
    runTracks (startTracks line trigger) before
  obtain ⟨past, count, events⟩ := runEvents (History.start line trigger) before
  rw [split] at pending ⊢
  generalize (History.start line trigger).run before = h at unfired pending tracks events
  have risen : (h.call (.hear edge)).ranger.cycle = ⟨some edge.tick, none, h.ranger.cycle.seenAt⟩ := by
    change (h.ranger.hear edge).2.cycle = _
    rw [hearRise (tracks.echoLine ▸ rise), Cycle.rise, unfired]
  obtain ⟨more, _, after⟩ := runEvents (h.call (.hear edge)) later
  refine quietRun (callTracks tracks (.hear edge)) risen after ?_
  intro e member
  obtain ⟨k, found⟩ := List.mem_iff_getElem?.mp member
  have position : h.events.length = before.length := by
    rw [events]
    exact count
  have known : (h.call (.hear edge)).events.length = before.length + 1 := by
    rw [History.callEvents, List.length_append, position, List.length_singleton]
  refine pending.quiet (before.length + 1 + k) e (by omega) ?_
  rw [after, List.getElem?_append_right (by omega), known, Nat.add_sub_cancel_left]
  exact found

theorem boundedBy (instants : List Nat) : ∃ top, ∀ t ∈ instants, t ≤ top := by
  induction instants with
  | nil => exact ⟨0, nofun⟩
  | cons t rest ih =>
    obtain ⟨top, above⟩ := ih
    exact ⟨max t top, by grind⟩

theorem seenBefore {opened first : Nat}
    (order : ((before ++ .hear edge :: later).filterMap Call.instant?).Pairwise (· ≤ ·))
    (looked : (later.filterMap Call.instant?).head? = some first)
    (unfired : ((History.start line trigger).run before).ranger.cycle.firedAt = none)
    (seen : ((History.start line trigger).run before).ranger.cycle.seenAt = some opened) :
    opened ≤ first := by
  rw [List.filterMap_append, List.filterMap_cons_none rfl] at order
  have past : ((History.start line trigger).run before).ranger.cycle.OpenedBy first := by
    refine runOpened (Cycle.openedByIdle first) ?_
    intro c member now instant
    have asked : now ∈ before.filterMap Call.instant? := List.mem_filterMap.mpr ⟨c, member, instant⟩
    exact (List.pairwise_append.mp order).2.2 now asked first (List.mem_of_head? looked)
  exact past opened (by simp [Cycle.since, unfired, seen])

theorem strayKeeps (stray : Stray line trigger before edge later) (now : Nat) :
    ((History.start line trigger).run (before ++ .hear edge :: later)).Keeps edge.tick now ↔
      now < (((History.start line trigger).run before).ranger.cycle.seenAt).getD
        (firstLook later now) + echoTimeout := by
  rw [keepsStray (strayRun stray).1, firstLook, Option.getD_or]

theorem droppedEarly {opened : Nat} (stray : Stray line trigger before edge later)
    (order : ((before ++ .hear edge :: later).filterMap Call.instant?).Pairwise (· ≤ ·))
    (seen : ((History.start line trigger).run before).ranger.cycle.seenAt = some opened)
    (other : (later.filterMap Call.instant?).head? ≠ some opened) :
    ¬ KeptInFull line trigger before edge later := by
  intro full
  obtain ⟨top, above⟩ := boundedBy ((before ++ .hear edge :: later).filterMap Call.instant?)
  have dropped : ∀ now, (∀ earlier ∈ (before ++ .hear edge :: later).filterMap Call.instant?,
      earlier ≤ now) → now < firstLook later now + echoTimeout → now < opened + echoTimeout := by
    intro now latest early
    have kept := (strayKeeps stray now).mp (full now latest early)
    rwa [seen, Option.getD_some] at kept
  cases looked : (later.filterMap Call.instant?).head? with
  | none =>
    have late := dropped (max (opened + echoTimeout) top)
      (fun earlier member => Nat.le_trans (above earlier member) (Nat.le_max_right _ _))
      (by simp [firstLook, looked, echoTimeout])
    omega
  | some first =>
    have past : opened ≤ first := seenBefore order looked stray.unfired seen
    have before' : opened ≠ first := fun same => other (looked.trans (congrArg some same.symm))
    have waits := (strayRun stray).2 opened (by rw [seen]; rfl)
    have late := dropped (opened + echoTimeout) ?_ (by simp only [firstLook, looked, Option.getD_some]; omega)
    · omega
    · intro earlier member
      rw [List.filterMap_append, List.filterMap_cons_none rfl] at order member
      rcases List.mem_append.mp member with front | back
      · have reached := (List.pairwise_append.mp order).2.2 earlier front first (List.mem_of_head? looked)
        have due := waits first (List.mem_of_head? looked)
        omega
      · exact Nat.le_of_lt (waits earlier back)

theorem strayKept (line : Nat) (trigger : Sink) (before : List Call) (edge : Edge)
    (later : List Call) (stray : Stray line trigger before edge later) :
    let found := (History.start line trigger).run before
    let h := (History.start line trigger).run (before ++ .hear edge :: later)
    let seen := found.ranger.cycle.seenAt
    (∀ now, h.Keeps edge.tick now ↔ now < seen.getD (firstLook later now) + echoTimeout) ∧
    (∀ first ∈ seen, ∃ i tick, Pending line found.events i tick) ∧
    (((before ++ .hear edge :: later).filterMap Call.instant?).Pairwise (· ≤ ·) →
      (KeptInFull line trigger before edge later ↔
        seen = none ∨ seen = (later.filterMap Call.instant?).head?)) := by
  intro found h seen
  refine ⟨strayKeeps stray, ?_, ?_⟩
  · intro first opened
    have waiting : found.ranger.cycle.isStray = true :=
      runSeenStray line trigger before (Option.isSome_of_mem opened)
    obtain ⟨tick, risen⟩ := Option.isSome_iff_exists.mp (Bool.and_eq_true_iff.mp waiting).2
    obtain ⟨i, pending⟩ := ((runTracks (startTracks line trigger) before).risen tick).mp risen
    exact ⟨i, tick, pending⟩
  · intro order
    constructor
    · intro full
      cases opened : seen with
      | none => exact .inl rfl
      | some first =>
        refine .inr (Decidable.byContradiction fun other => ?_)
        exact droppedEarly stray order opened (Ne.symm other) full
    · intro unseen now _ early
      refine (strayKeeps stray now).mpr ?_
      have instant : seen.getD (firstLook later now) = firstLook later now := by
        rcases unseen with none | same
        · rw [none, Option.getD_none]
        · rw [same, firstLook]
          cases (later.filterMap Call.instant?).head? <;> rfl
      change now < seen.getD (firstLook later now) + echoTimeout
      rwa [instant]

theorem strayCutShort :
    let before := [Call.hear ⟨24, .rising, ⟨0⟩⟩, .expire 0]
    let edge : Edge := ⟨24, .rising, ⟨30000⟩⟩
    let later := [Call.expire 30000]
    let h := (History.start 24 .willing).run (before ++ .hear edge :: later)
    Stray 24 .willing before edge later ∧
      ((before ++ .hear edge :: later).filterMap Call.instant?).Pairwise (· ≤ ·) ∧
      firstLook later 40000 = 30000 ∧ (h.ranger.expire 40000).1 = some .stray ∧
      ¬ KeptInFull 24 .willing before edge later := by
  intro before edge later h
  have rise : edge.Rises 24 := ⟨rfl, rfl⟩
  have pending : Pending 24 h.events 2 ⟨30000⟩ := by
    have still : ¬ (Event.expired 30000 none).Rises 24 := nofun
    refine (pendingKept still [.heard ⟨24, .rising, ⟨0⟩⟩ .opened, .expired 0 none,
      .heard edge .opened]).mpr ⟨?_, ?_⟩
    · exact (pendingRise rise [.heard ⟨24, .rising, ⟨0⟩⟩ .opened, .expired 0 none] .opened).mpr
        ⟨rfl, rfl⟩
    · exact ⟨still, nofun, nofun⟩
  refine ⟨⟨rise, rfl, pending⟩, by decide, rfl, by decide, ?_⟩
  intro full
  have kept := full 40000 (by decide) (by decide)
  exact absurd kept.1 (by decide)

theorem strayTakesOver :
    let before := [Call.hear ⟨24, .rising, ⟨0⟩⟩]
    let edge : Edge := ⟨24, .rising, ⟨500⟩⟩
    let later := [Call.expire 1000]
    let h := (History.start 24 .willing).run (before ++ .hear edge :: later)
    Stray 24 .willing before edge later ∧
      ((before ++ .hear edge :: later).filterMap Call.instant?).Pairwise (· ≤ ·) ∧
      h.Keeps ⟨500⟩ 40999 ∧ ¬ h.Keeps ⟨500⟩ 41000 ∧ KeptInFull 24 .willing before edge later := by
  intro before edge later h
  have rise : edge.Rises 24 := ⟨rfl, rfl⟩
  have pending : Pending 24 h.events 1 ⟨500⟩ := by
    have still : ¬ (Event.expired 1000 none).Rises 24 := nofun
    refine (pendingKept still [.heard ⟨24, .rising, ⟨0⟩⟩ .opened, .heard edge .opened]).mpr ⟨?_, ?_⟩
    · exact (pendingRise rise [.heard ⟨24, .rising, ⟨0⟩⟩ .opened] .opened).mpr ⟨rfl, rfl⟩
    · exact ⟨still, nofun, nofun⟩
  have stray : Stray 24 .willing before edge later := ⟨rise, rfl, pending⟩
  have order : ((before ++ .hear edge :: later).filterMap Call.instant?).Pairwise (· ≤ ·) := by
    decide
  obtain ⟨keeps, _, full⟩ := strayKept 24 .willing before edge later stray
  exact ⟨stray, order, (keeps 40999).mpr (by decide), mt (keeps 41000).mp (by decide),
    (full order).mpr (.inl rfl)⟩

end

end Ranger
end Rangefinder.Echo
