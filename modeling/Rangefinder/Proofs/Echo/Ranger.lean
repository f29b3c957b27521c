import Rangefinder.Echo.Ranger

/-! What each call does to the cycle of a ranger. A timeout empties the cycle and nothing else does so
while an edge has risen, but the fall that the edge waits for: a trigger that finds a cycle in flight
leaves it alone, and one that does not finds the cycle empty. -/
namespace Rangefinder

def Edge.Rises (line : Nat) (edge : Edge) : Prop := edge.line = line ∧ edge.level = .rising

def Edge.Falls (line : Nat) (edge : Edge) : Prop := edge.line = line ∧ edge.level = .falling

namespace Echo

namespace Cycle

@[simp] theorem timedOutIdle (now : Nat) : idle.timedOut now = false := rfl

@[simp] theorem timedOutTrigger (now : Nat) : (trigger now).timedOut now = false := by
  simp [trigger, timedOut, since, echoTimeout]

theorem timedOutAnchor (c : Cycle) (now : Nat) : (c.anchor now).timedOut now = c.timedOut now := by
  unfold anchor
  split
  · rename_i untimed
    simp only [isStray, Bool.and_eq_true, Option.isNone_iff_eq_none] at untimed
    obtain ⟨⟨unfired, _⟩, unseen⟩ := untimed
    simp [timedOut, since, unfired, unseen, echoTimeout]
  · rfl

theorem idleOfLanded {c : Cycle} {now : Nat} (fresh : c.timedOut now = false)
    (landed : c.inFlight now = false) : c = idle := by
  cases opened : c.since with
  | none =>
    obtain ⟨unfired, unseen⟩ := Option.or_eq_none_iff.mp opened
    rw [inFlight, opened] at landed
    obtain ⟨risen, fired, seen⟩ := c
    simp only [Option.isSome_eq_false_iff, Option.isNone_iff_eq_none] at landed
    simp only [idle, landed] at unfired unseen ⊢
    rw [unfired, unseen]
  | some at' =>
    rw [inFlightOfSince opened, fresh] at landed
    cases landed

theorem deadlineOk {c : Cycle} {timeout : Option Nat} :
    c.deadline = .ok timeout ↔
      (∀ opened ∈ c.since, opened + echoTimeout < wordLimit) ∧
        timeout = c.since.map (· + echoTimeout) := by
  unfold deadline
  cases c.since with
  | none => simp [eq_comm]
  | some opened =>
    simp only [Option.mem_some_iff, forall_eq', Option.map_some]
    generalize opened + echoTimeout = deadline
    cases fits : inWord deadline with
    | error e =>
      have far := Nat.not_lt.mpr (inWordError.mp fits).1
      simp [far, Except.map]
    | ok word =>
      obtain ⟨near, rfl⟩ := inWordOk.mp fits
      simp [near, Except.map, eq_comm]

def Timed (c : Cycle) : Prop := c.isStray = true → c.seenAt.isSome = true

theorem timedIdle : idle.Timed := nofun

theorem timedTrigger (now : Nat) : (trigger now).Timed := nofun

theorem timedOfAnchor (c : Cycle) (now : Nat) : (c.anchor now).Timed := by
  intro stray
  rw [isStrayAnchor] at stray
  cases seen : c.seenAt <;> simp [anchor, stray, seen]

theorem anchorTimed {c : Cycle} (timed : c.Timed) (now : Nat) : c.anchor now = c := by
  unfold anchor
  split
  · rename_i untimed
    obtain ⟨stray, unseen⟩ := Bool.and_eq_true_iff.mp untimed
    have seen := timed stray
    rw [Option.isNone_iff_eq_none.mp unseen] at seen
    cases seen
  · rfl

def SeenStray (c : Cycle) : Prop := c.seenAt.isSome = true → c.isStray = true

theorem seenStrayIdle : idle.SeenStray := nofun

theorem seenStrayTrigger (now : Nat) : (trigger now).SeenStray := nofun

theorem seenStrayAnchor {c : Cycle} (kept : c.SeenStray) (now : Nat) : (c.anchor now).SeenStray := by
  unfold SeenStray
  rw [isStrayAnchor]
  intro seen
  unfold anchor at seen
  split at seen
  · rename_i untimed
    exact (Bool.and_eq_true_iff.mp untimed).1
  · exact kept seen

theorem seenStrayRise {c : Cycle} (kept : c.SeenStray) (tick : Tick) : (c.rise tick).SeenStray := by
  intro seen
  obtain ⟨unfired, _⟩ := Bool.and_eq_true_iff.mp (kept seen)
  exact Bool.and_eq_true_iff.mpr ⟨unfired, rfl⟩

theorem seenStrayOpened {c : Cycle} (kept : c.SeenStray) {opened : Nat} :
    c.since = some opened ↔ c.firedAt = some opened ∨ c.seenAt = some opened := by
  cases fired : c.firedAt with
  | none => simp [since, fired]
  | some at' =>
    have unseen : c.seenAt = none := by
      refine Option.not_isSome_iff_eq_none.mp ?_
      intro seen
      simpa [isStray, fired] using kept seen
    simp [since, fired, unseen]

def OpenedBy (c : Cycle) (now : Nat) : Prop := ∀ opened ∈ c.since, opened ≤ now

theorem openedByIdle (now : Nat) : idle.OpenedBy now := nofun

theorem openedByTrigger {now last : Nat} (order : now ≤ last) : (trigger now).OpenedBy last := by
  intro opened same
  cases same
  exact order

theorem openedByAnchor {c : Cycle} {now last : Nat} (opened : c.OpenedBy last)
    (order : now ≤ last) : (c.anchor now).OpenedBy last := by
  unfold anchor
  split
  · rename_i untimed
    simp only [isStray, Bool.and_eq_true, Option.isNone_iff_eq_none] at untimed
    obtain ⟨⟨unfired, _⟩, _⟩ := untimed
    intro instant same
    rw [since, unfired] at same
    cases same
    exact order
  · exact opened

theorem freshUntil {c : Cycle} {now : Nat} :
    c.timedOut now = false ↔ ∀ opened ∈ c.since, now < opened + echoTimeout := by
  unfold timedOut
  cases c.since with
  | none => simp
  | some opened =>
    simp only [Option.any_some, decide_eq_false_iff_not, Option.mem_some_iff, forall_eq']
    simp only [echoTimeout]
    omega

theorem timedOutOpened {c : Cycle} {now : Nat} (out : c.timedOut now = true) :
    ∃ opened, c.since = some opened ∧ opened + echoTimeout ≤ now := by
  obtain ⟨opened, since, late⟩ := (Option.any_eq_true _ _).mp out
  have late := of_decide_eq_true late
  refine ⟨opened, since, ?_⟩
  simp only [echoTimeout] at late ⊢
  omega

end Cycle

namespace Ranger

theorem expireOut {r : Ranger} {now : Nat} (out : r.cycle.timedOut now = true) :
    (r.expire now).1.isSome ∧ (r.expire now).2.cycle = .idle := by
  rw [← Cycle.timedOutAnchor] at out
  simp only [expire, out, if_true]
  split <;> exact ⟨rfl, rfl⟩

theorem expireFresh {r : Ranger} {now : Nat} (fresh : r.cycle.timedOut now = false) :
    r.expire now = (none, { r with cycle := r.cycle.anchor now }) := by
  rw [← Cycle.timedOutAnchor] at fresh
  simp [expire, fresh]

theorem expireCycle (r : Ranger) (now : Nat) :
    (r.expire now).2.cycle = if r.cycle.timedOut now = true then .idle else r.cycle.anchor now := by
  cases out : r.cycle.timedOut now with
  | true => rw [(expireOut out).2, if_pos rfl]
  | false => rw [expireFresh out, if_neg Bool.false_ne_true]

theorem expireKeeps {P : Cycle → Prop} {r : Ranger} {now : Nat} (empty : P .idle)
    (looked : P (r.cycle.anchor now)) : P (r.expire now).2.cycle := by
  rw [expireCycle]
  split
  · exact empty
  · exact looked

theorem expireReports (r : Ranger) (now : Nat) : (r.expire now).1.isSome = r.cycle.timedOut now := by
  cases out : r.cycle.timedOut now with
  | true => exact (expireOut out).1
  | false => rw [expireFresh out, Option.isSome_none]

theorem expireSettles (r : Ranger) (now : Nat) : (r.expire now).2.cycle.timedOut now = false := by
  cases out : r.cycle.timedOut now with
  | true => rw [(expireOut out).2, Cycle.timedOutIdle]
  | false => rw [expireFresh out, Cycle.timedOutAnchor, out]

theorem expireRisen (r : Ranger) (now : Nat) :
    (r.expire now).2.cycle.risenAt = if (r.expire now).1 = none then r.cycle.risenAt else none := by
  cases out : r.cycle.timedOut now with
  | true =>
    obtain ⟨reported, empty⟩ := expireOut out
    rw [empty, if_neg (Option.isSome_iff_ne_none.mp reported), Cycle.idle]
  | false => rw [expireFresh out, if_pos rfl, Cycle.anchorRisenAt]

theorem expireLine (r : Ranger) (now : Nat) : (r.expire now).2.echoLine = r.echoLine := by
  dsimp only [expire]
  split
  · split <;> rfl
  · rfl

theorem expireTimed (r : Ranger) (now : Nat) : (r.expire now).2.cycle.Timed :=
  expireKeeps Cycle.timedIdle (Cycle.timedOfAnchor r.cycle now)

theorem expireIdle {r : Ranger} {now : Nat} (timed : r.cycle.Timed)
    (fresh : r.cycle.timedOut now = false) : r.expire now = (none, r) := by
  rw [expireFresh fresh, Cycle.anchorTimed timed]

theorem expireOpened {r : Ranger} {now last : Nat} (opened : r.cycle.OpenedBy last)
    (order : now ≤ last) : (r.expire now).2.cycle.OpenedBy last :=
  expireKeeps (P := fun c => c.OpenedBy last) (Cycle.openedByIdle last)
    (Cycle.openedByAnchor opened order)

theorem expireSeenStray {r : Ranger} (kept : r.cycle.SeenStray) (now : Nat) :
    (r.expire now).2.cycle.SeenStray :=
  expireKeeps Cycle.seenStrayIdle (Cycle.seenStrayAnchor kept now)

theorem fireCases (r : Ranger) (sink : Sink) (now : Nat) :
    ((r.expire now).2.cycle.inFlight now = true ∧ r.fire sink now =
      (⟨(r.expire now).1, .skipped⟩, (r.expire now).2.countSkip, sink)) ∨
    ((r.expire now).2.cycle = .idle ∧ (pulse sink).1 = none ∧ r.fire sink now =
      (⟨(r.expire now).1, .fired⟩, { (r.expire now).2 with cycle := .trigger now },
        (pulse sink).2)) ∨
    ((r.expire now).2.cycle = .idle ∧ ∃ error, (pulse sink).1 = some error ∧ r.fire sink now =
      (⟨(r.expire now).1, .failed error (r.expire now).2.countFailure.stats.triggerFailures⟩,
        (r.expire now).2.countFailure, (pulse sink).2)) := by
  cases flying : (r.expire now).2.cycle.inFlight now with
  | true => exact .inl ⟨rfl, by simp [fire, flying]⟩
  | false =>
    have empty := Cycle.idleOfLanded (expireSettles r now) flying
    cases outcome : pulse sink with
    | mk error? after =>
      cases error? with
      | none => exact .inr (.inl ⟨empty, rfl, by simp [fire, flying, outcome]⟩)
      | some error =>
        refine .inr (.inr ⟨empty, error, rfl, ?_⟩)
        simp only [fire, flying, outcome, ← empty]
        rfl

theorem fireExpiry (r : Ranger) (sink : Sink) (now : Nat) :
    (r.fire sink now).1.expiry = (r.expire now).1 := by
  obtain ⟨_, same⟩ | ⟨_, _, same⟩ | ⟨_, _, _, same⟩ := fireCases r sink now <;> rw [same]

theorem fireRisen (r : Ranger) (sink : Sink) (now : Nat) :
    (r.fire sink now).2.1.cycle.risenAt = (r.expire now).2.cycle.risenAt := by
  obtain ⟨_, same⟩ | ⟨empty, _, same⟩ | ⟨_, _, _, same⟩ := fireCases r sink now
  · rw [same]
    rfl
  · rw [same, empty]
    rfl
  · rw [same]
    rfl

theorem fireLine (r : Ranger) (sink : Sink) (now : Nat) :
    (r.fire sink now).2.1.echoLine = r.echoLine := by
  rw [← expireLine r now]
  obtain ⟨_, same⟩ | ⟨_, _, same⟩ | ⟨_, _, _, same⟩ := fireCases r sink now <;> rw [same] <;> rfl

theorem fireKeeps {P : Cycle → Prop} {r : Ranger} {now : Nat} (sink : Sink) (fired : P (.trigger now))
    (looked : P (r.expire now).2.cycle) : P (r.fire sink now).2.1.cycle := by
  obtain ⟨_, same⟩ | ⟨_, _, same⟩ | ⟨_, _, _, same⟩ := fireCases r sink now
  · rw [same]
    exact looked
  · rw [same]
    exact fired
  · rw [same]
    exact looked

theorem fireTimed (r : Ranger) (sink : Sink) (now : Nat) : (r.fire sink now).2.1.cycle.Timed :=
  fireKeeps sink (Cycle.timedTrigger now) (expireTimed r now)

theorem fireFresh (r : Ranger) (sink : Sink) (now : Nat) :
    (r.fire sink now).2.1.cycle.timedOut now = false :=
  fireKeeps (P := fun c => c.timedOut now = false) sink (Cycle.timedOutTrigger now)
    (expireSettles r now)

theorem fireOpened {r : Ranger} {now last : Nat} (opened : r.cycle.OpenedBy last)
    (order : now ≤ last) (sink : Sink) : (r.fire sink now).2.1.cycle.OpenedBy last :=
  fireKeeps (P := fun c => c.OpenedBy last) sink (Cycle.openedByTrigger order)
    (expireOpened opened order)

theorem fireSeenStray {r : Ranger} (kept : r.cycle.SeenStray) (sink : Sink) (now : Nat) :
    (r.fire sink now).2.1.cycle.SeenStray :=
  fireKeeps sink (Cycle.seenStrayTrigger now) (expireSeenStray kept now)

theorem hearRise {r : Ranger} {edge : Edge} (rise : edge.Rises r.echoLine) :
    r.hear edge = (.opened, { r with cycle := r.cycle.rise edge.tick }) := by
  simp [hear, rise.1, rise.2]

theorem hearForeign {r : Ranger} {edge : Edge} (foreign : edge.line ≠ r.echoLine) :
    r.hear edge = (.foreign, r) := by
  simp [hear, foreign]

theorem hearOrphan {r : Ranger} {edge : Edge} (fall : edge.Falls r.echoLine)
    (low : r.cycle.risenAt = none) : r.hear edge = (.orphan edge.tick, r.countAnomaly) := by
  simp [hear, fall.1, fall.2, Cycle.fall, low]

theorem hearEcho {r : Ranger} {edge : Edge} (fall : edge.Falls r.echoLine) {tick : Tick}
    (risen : r.cycle.risenAt = some tick) :
    (r.hear edge).1 = (if longestEcho < edge.tick.since tick then .tooLong (edge.tick.since tick)
      else .measured (.ofElapsed (edge.tick.since tick))) ∧ (r.hear edge).2.cycle = .idle := by
  simp only [hear, fall.1, fall.2, Cycle.fall, risen, if_true]
  split <;> exact ⟨rfl, rfl⟩

theorem hearCases (r : Ranger) (edge : Edge) :
    (edge.line ≠ r.echoLine ∧ r.hear edge = (.foreign, r)) ∨
    (edge.Rises r.echoLine ∧
      r.hear edge = (.opened, { r with cycle := r.cycle.rise edge.tick })) ∨
    (edge.Falls r.echoLine ∧ r.cycle.risenAt = none ∧
      r.hear edge = (.orphan edge.tick, r.countAnomaly)) ∨
    (edge.Falls r.echoLine ∧ ∃ tick, r.cycle.risenAt = some tick ∧
      (r.hear edge =
          (.tooLong (edge.tick.since tick), { r with cycle := .idle }.countAnomaly) ∨
        r.hear edge =
          (.measured (.ofElapsed (edge.tick.since tick)),
            { r with cycle := .idle }.countMeasurement))) := by
  by_cases home : edge.line = r.echoLine
  · cases level : edge.level with
    | rising => exact .inr (.inl ⟨⟨home, level⟩, hearRise ⟨home, level⟩⟩)
    | falling =>
      refine .inr (.inr ?_)
      cases risen : r.cycle.risenAt with
      | none => exact .inl ⟨⟨home, level⟩, rfl, hearOrphan ⟨home, level⟩ risen⟩
      | some tick =>
        refine .inr ⟨⟨home, level⟩, tick, rfl, ?_⟩
        simp only [hear, home, level, Cycle.fall, risen, if_true]
        split
        · exact .inl rfl
        · exact .inr rfl
  · exact .inl ⟨home, hearForeign home⟩

theorem hearKeeps {P : Cycle → Prop} {r : Ranger} (held : P r.cycle)
    (risen : ∀ tick, P (r.cycle.rise tick)) (empty : P .idle) (edge : Edge) :
    P (r.hear edge).2.cycle := by
  obtain ⟨_, same⟩ | ⟨_, same⟩ | ⟨_, _, same⟩ | ⟨_, _, _, same | same⟩ := hearCases r edge
  · rw [same]
    exact held
  · rw [same]
    exact risen edge.tick
  · rw [same]
    exact held
  · rw [same]
    exact empty
  · rw [same]
    exact empty

theorem hearOpened {r : Ranger} {now : Nat} (opened : r.cycle.OpenedBy now) (edge : Edge) :
    (r.hear edge).2.cycle.OpenedBy now :=
  hearKeeps (P := fun c => c.OpenedBy now) opened (fun _ => opened) (Cycle.openedByIdle now) edge

theorem hearSeenStray {r : Ranger} (kept : r.cycle.SeenStray) (edge : Edge) :
    (r.hear edge).2.cycle.SeenStray :=
  hearKeeps kept (Cycle.seenStrayRise kept) Cycle.seenStrayIdle edge

theorem hearMeasures (r : Ranger) (edge : Edge) :
    2 * (r.hear edge).1.measurement?.toList.length + (r.hear edge).2.cycle.risenAt.toList.length ≤
      r.cycle.risenAt.toList.length + 1 := by
  obtain ⟨_, same⟩ | ⟨_, same⟩ | ⟨_, _, same⟩ | ⟨_, _, risen, same | same⟩ := hearCases r edge
  · simp [same, Hearing.measurement?]
  · simp [same, Hearing.measurement?, Cycle.rise]
  · simp [same, Hearing.measurement?, countAnomaly]
  · simp [same, Hearing.measurement?, countAnomaly, Cycle.idle]
  · simp [same, Hearing.measurement?, countMeasurement, Cycle.idle, risen]

theorem hearLine (r : Ranger) (edge : Edge) : (r.hear edge).2.echoLine = r.echoLine := by
  obtain ⟨_, same⟩ | ⟨_, same⟩ | ⟨_, _, same⟩ | ⟨_, _, _, same | same⟩ := hearCases r edge <;>
    rw [same] <;> rfl

end Ranger

end Echo

end Rangefinder
