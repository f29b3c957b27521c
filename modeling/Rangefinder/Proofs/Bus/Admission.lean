import Rangefinder.Proofs.Bus.Ledger

/-! A transfer goes into the outbox in whole or not at all. Whether it may is told beforehand by its length,
while its frames come out of the segmenter one at a time: the two agree, so that once a transfer is
let in there is room for each of its frames. -/
namespace Rangefinder.Bus.Outbox

def fill (q : Outbox) (s : Segmenter) : Nat → Outbox × Segmenter × Bool
  | 0 => (q, s, true)
  | rounds + 1 =>
    match s.next with
    | none => (q, s, true)
    | some (frame, s) =>
      if q.frames.length < q.capacity then fill { q with frames := q.frames ++ [frame] } s rounds
      else (q, s, false)

theorem fillEnded {q : Outbox} {s : Segmenter} (ended : s.next = none) (rounds : Nat) :
    q.fill s rounds = (q, s, true) := by
  cases rounds with
  | zero => rfl
  | succ rounds => simp only [fill, ended]

theorem fillPush (q : Outbox) (s : Segmenter) (rounds : Nat) :
    ((q.fill s rounds).1, (q.fill s rounds).2.2) = q.push (s.run rounds).1 := by
  induction rounds generalizing q s with
  | zero => rfl
  | succ rounds ih =>
    cases step : s.next with
    | none =>
      rw [fillEnded step, Segmenter.runEnded step]
      rfl
    | some pair =>
      obtain ⟨frame, s'⟩ := pair
      rw [Segmenter.runNext step, push]
      simp only [fill, step]
      split
      · exact ih _ s'
      · rfl

theorem fillFits {q : Outbox} {s : Segmenter} {rounds : Nat}
    (room : q.frames.length + (s.run rounds).1.length ≤ q.capacity) :
    (q.fill s rounds).1 = { q with frames := q.frames ++ (s.run rounds).1 } ∧
      (q.fill s rounds).2.2 = true := by
  have same := fillPush q s rounds
  rw [pushFits room] at same
  exact Prod.mk.inj same

theorem addExactly (q : Outbox) (t : Transfer) :
    q.add t = if framesNeeded t.payload.length ≤ q.available then
        (.queued (framesNeeded t.payload.length), { q with frames := q.frames ++ t.frames q.source })
      else (.refused ⟨framesNeeded t.payload.length, q.available⟩, { q with stats := q.stats.reject }) := by
  by_cases room : framesNeeded t.payload.length ≤ q.available
  · rw [if_pos room, addQueued room]
  · rw [if_neg room, addRefused (Nat.lt_of_not_le room)]

theorem addQueuedIff {q : Outbox} {t : Transfer} {k : Nat} :
    (q.add t).1 = .queued k ↔ k = framesNeeded t.payload.length ∧ k ≤ q.available := by
  rw [addExactly]
  by_cases room : framesNeeded t.payload.length ≤ q.available
  · rw [if_pos room, Admission.queued.injEq]
    constructor
    · rintro rfl
      exact ⟨rfl, room⟩
    · intro ⟨same, _⟩
      exact same.symm
  · rw [if_neg room]
    constructor
    · exact nofun
    · intro ⟨same, fits⟩
      exact absurd (same ▸ fits) room

theorem transferWholly (source : NodeId) (policy : FailurePolicy) (capacity : Nat) (bus : Sink)
    (calls : List Call) (t : Transfer) :
    let q := ((empty source policy capacity).run bus calls).outbox
    let needed := framesNeeded t.payload.length
    let room := capacity - q.frames.length
    q.frames.length ≤ capacity ∧ framesNeeded? t.payload.length = .ok needed ∧
    (∀ k, (q.add t).1 = .queued k ↔ k = needed ∧ k ≤ room) ∧
    (needed ≤ room → (t.frames source).length = needed ∧
      (q.add t).2 = { q with frames := q.frames ++ t.frames source } ∧
      ∀ rounds, (q.fill (.ofTransfer t source) rounds).1 =
          { q with frames := q.frames ++ (t.frames source).take rounds } ∧
        (q.fill (.ofTransfer t source) rounds).2.2 = true) ∧
    (room < needed → q.add t = (.refused ⟨needed, room⟩, { q with stats :=
      { q.stats with rejectedTransfers := q.stats.rejectedTransfers + 1 } })) := by
  intro q needed room
  have exchange : Exchange (empty source policy capacity) bus
      ((empty source policy capacity).run bus calls) := exchangeRun _ _ _
  have own : q.source = source := exchange.source
  have size : q.capacity = capacity := exchange.capacity
  have fits : q.frames.length ≤ capacity := exchange.room (Nat.zero_le _)
  have free : q.available = room := by rw [available, size]
  refine ⟨fits, framesNeededFits t.fits, ?_, ?_, ?_⟩
  · intro k
    rw [addQueuedIff, free]
  · intro enough
    refine ⟨framesLength t source, ?_, ?_⟩
    · rw [addExactly, free, if_pos enough, own]
    · intro rounds
      have taken : ((Segmenter.ofTransfer t source).run rounds).1 = (t.frames source).take rounds :=
        (Segmenter.runPrefix (framesCut t source).1 rounds).1
      have few : q.frames.length + ((Segmenter.ofTransfer t source).run rounds).1.length ≤
          q.capacity := by
        rw [taken, List.length_take, framesLength, size]
        omega
      rw [← taken]
      exact fillFits few
  · intro full
    rw [addExactly, free, if_neg (Nat.not_le.mpr full)]
    rfl

end Rangefinder.Bus.Outbox
