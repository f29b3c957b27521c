import Rangefinder.Proofs.Bus.Cursor

/-! One pass over the waiting frames, to the frame. The course of a pass is followed offer by offer. It says
what was offered, what became of it, and what is counted; and a loop that offers the head of the
outbox again and again takes this course and ends, whatever the bus answers. -/
namespace Rangefinder.Bus

def Drain.counts (d : Drain) : Tally := ⟨d.transmitted, d.failed, d.dropped⟩

def Tally.plus (t more : Tally) : Tally :=
  ⟨t.transmitted + more.transmitted, t.failed + more.failed, t.dropped + more.dropped⟩

section
variable (frame : Frame) (offers : List Offer) (remaining : Nat)

theorem countsAccepted :
    (Drain.mk (.accepted frame :: offers) remaining).counts =
      Tally.plus ⟨1, 0, 0⟩ (Drain.mk offers remaining).counts := by
  simp [Drain.counts, Tally.plus, Drain.transmitted, Drain.sent, Drain.failed, Drain.dropped,
    Offer.sent?, Offer.isDropped, Nat.add_comm 1]

theorem countsKept (errors : UInt32) (waiting : Nat) :
    (Drain.mk (.kept frame errors waiting :: offers) remaining).counts =
      Tally.plus ⟨0, 1, 0⟩ (Drain.mk offers remaining).counts := by
  simp [Drain.counts, Tally.plus, Drain.transmitted, Drain.sent, Drain.failed, Drain.dropped,
    List.filterMap_cons, Offer.sent?, Offer.isDropped, Nat.add_comm 1]

theorem countsDropped (errors drops : UInt32) :
    (Drain.mk (.dropped frame errors drops :: offers) remaining).counts =
      Tally.plus ⟨0, 1, 1⟩ (Drain.mk offers remaining).counts := by
  simp [Drain.counts, Tally.plus, Drain.transmitted, Drain.sent, Drain.failed, Drain.dropped,
    List.filterMap_cons, List.countP_cons, Offer.sent?, Offer.isDropped, Nat.add_comm 1]

theorem countsNone : (Drain.mk [] remaining).counts = ⟨0, 0, 0⟩ := rfl

end

theorem Tally.nonePlus (t : Tally) : (Tally.mk 0 0 0).plus t = t := by simp [plus]

theorem Tally.plusNone (t : Tally) : t.plus ⟨0, 0, 0⟩ = t := rfl

theorem Tally.plusAssoc (a b c : Tally) : (a.plus b).plus c = a.plus (b.plus c) := by
  simp [plus, Nat.add_assoc]

namespace OutboxStats

def grown (s : OutboxStats) (t : Tally) : OutboxStats :=
  { s with
    transmitted := s.transmitted + .ofNat t.transmitted
    transmitErrors := s.transmitErrors + .ofNat t.failed
    droppedFrames := s.droppedFrames + .ofNat t.dropped }

theorem grownPlus (s : OutboxStats) (t more : Tally) : s.grown (t.plus more) = (s.grown t).grown more := by
  simp [grown, Tally.plus, UInt32.ofNat_add, UInt32.add_assoc]

theorem grownNone (s : OutboxStats) : s.grown ⟨0, 0, 0⟩ = s := by simp [grown]

theorem grownAccept (s : OutboxStats) : s.accept = s.grown ⟨1, 0, 0⟩ := by simp [accept, grown]

theorem grownRefuse (s : OutboxStats) : s.refuse = s.grown ⟨0, 1, 0⟩ := by simp [refuse, grown]

theorem grownDiscard (s : OutboxStats) : s.refuse.discard = s.grown ⟨0, 1, 1⟩ := by
  simp [refuse, discard, grown]

end OutboxStats

def streak (answers : List Bool) : Nat := (answers.takeWhile id).length

section
variable {policy : FailurePolicy} {stats stats' : OutboxStats} {bus bus' : Sink}
  {frames left : List Frame} {offers : List Offer}

theorem courseStats (course : Course policy stats bus frames offers left stats' bus') :
    stats' = stats.grown (Drain.mk offers left.length).counts := by
  induction course with
  | done stats bus => rw [countsNone, OutboxStats.grownNone]
  | accepted yes next ih => rw [ih, countsAccepted, OutboxStats.grownPlus, OutboxStats.grownAccept]
  | kept no retry =>
    rw [countsKept, countsNone, OutboxStats.grownPlus, OutboxStats.grownNone, OutboxStats.grownRefuse]
  | dropped no drop next ih =>
    rw [ih, countsDropped, OutboxStats.grownPlus, OutboxStats.grownDiscard]

theorem courseLeaves (course : Course policy stats bus frames offers left stats' bus') :
    (Drain.mk offers left.length).counts.transmitted +
        (Drain.mk offers left.length).counts.dropped + left.length = frames.length ∧
      left = frames.drop ((Drain.mk offers left.length).counts.transmitted +
        (Drain.mk offers left.length).counts.dropped) := by
  induction course with
  | done => exact ⟨rfl, rfl⟩
  | accepted yes next ih =>
    obtain ⟨total, rest⟩ := ih
    rw [countsAccepted]
    simp only [Tally.plus, Nat.zero_add, Nat.add_comm 1, Nat.add_right_comm _ 1, List.length_cons,
      List.drop_succ_cons]
    exact ⟨congrArg Nat.succ total, rest⟩
  | kept no retry =>
    rw [countsKept, countsNone]
    exact ⟨Nat.zero_add _, rfl⟩
  | dropped no drop next ih =>
    obtain ⟨total, rest⟩ := ih
    rw [countsDropped]
    simp only [Tally.plus, Nat.zero_add, Nat.add_comm 1, ← Nat.add_assoc, Nat.add_right_comm _ 1,
      List.length_cons, List.drop_succ_cons]
    exact ⟨congrArg Nat.succ total, rest⟩

theorem courseDrops (course : Course .drop stats bus frames offers left stats' bus') :
    offers.length = frames.length ∧ left = [] ∧ (Drain.mk offers left.length).counts =
      ⟨(bus.answers frames.length).count true, (bus.answers frames.length).count false,
        (bus.answers frames.length).count false⟩ := by
  induction course with
  | done => exact ⟨rfl, rfl, rfl⟩
  | accepted yes next ih =>
    obtain ⟨all, none, counts⟩ := ih
    rw [countsAccepted, counts, List.length_cons, List.length_cons, Sink.answersSucc, yes]
    refine ⟨congrArg Nat.succ all, none, ?_⟩
    simp [Tally.plus, Nat.add_comm 1]
  | kept no retry => exact absurd retry nofun
  | dropped no drop next ih =>
    obtain ⟨all, none, counts⟩ := ih
    rw [countsDropped, counts, List.length_cons, List.length_cons, Sink.answersSucc, no]
    refine ⟨congrArg Nat.succ all, none, ?_⟩
    simp [Tally.plus, Nat.add_comm 1]

theorem courseKeeps (course : Course .retry stats bus frames offers left stats' bus') :
    offers.length = (Drain.mk offers left.length).counts.transmitted +
        (Drain.mk offers left.length).counts.failed ∧
      (Drain.mk offers left.length).counts = ⟨streak (bus.answers frames.length),
        if false ∈ bus.answers frames.length then 1 else 0, 0⟩ := by
  induction course with
  | done => exact ⟨rfl, rfl⟩
  | accepted yes next ih =>
    obtain ⟨calls, counts⟩ := ih
    rw [countsAccepted, counts, List.length_cons, List.length_cons, Sink.answersSucc, yes, calls, counts]
    simp [Tally.plus, streak, Nat.add_comm 1, Nat.add_right_comm _ 1]
  | kept no retry =>
    rw [countsKept, countsNone, List.length_cons, List.length_cons, Sink.answersSucc, no]
    simp [Tally.plus, streak]
  | dropped no drop next ih => exact absurd drop nofun

end

structure Passing where
  outbox : Outbox
  bus : Sink
  offered : List Frame
  tally : Tally

namespace Passing

def turn (p : Passing) : Bool × Passing :=
  match p.outbox.offerHead p.bus with
  | (.idle, outbox, bus) => (false, { p with outbox, bus })
  | (.accepted frame, outbox, bus) =>
    let tally := { p.tally with transmitted := p.tally.transmitted + 1 }
    (true, { outbox, bus, offered := p.offered ++ [frame], tally })
  | (.refused frame _, outbox, bus) =>
    let tally := { p.tally with failed := p.tally.failed + 1 }
    let offered := p.offered ++ [frame]
    match outbox.policy with
    | .retry => (false, { outbox, bus, offered, tally })
    | .drop =>
      let outbox := { outbox.pop.2 with stats := outbox.stats.discard }
      (true, { outbox, bus, offered, tally := { tally with dropped := tally.dropped + 1 } })

/-- At most so many turns; without a result the loop has not ended by then. -/
def run : Nat → Passing → Option Passing
  | 0, _ => none
  | turns + 1, p =>
    match p.turn with
    | (false, p) => some p
    | (true, p) => run turns p

section
variable {source : NodeId} {policy : FailurePolicy} {capacity : Nat} {stats : OutboxStats} {bus : Sink}
  {frame : Frame} {rest offered : List Frame} {tally : Tally} {turns : Nat}

theorem runIdle : run (turns + 1) ⟨⟨source, policy, capacity, [], stats⟩, bus, offered, tally⟩ =
    some ⟨⟨source, policy, capacity, [], stats⟩, bus, offered, tally⟩ := rfl

theorem runAccepted (yes : bus.answer = true) :
    run (turns + 1) ⟨⟨source, policy, capacity, frame :: rest, stats⟩, bus, offered, tally⟩ =
      run turns ⟨⟨source, policy, capacity, rest, stats.accept⟩, bus.next, offered ++ [frame],
        tally.plus ⟨1, 0, 0⟩⟩ := by
  simp [run, turn, Outbox.offerHead, yes, Tally.plus]

theorem runKept (no : bus.answer = false) :
    run (turns + 1) ⟨⟨source, .retry, capacity, frame :: rest, stats⟩, bus, offered, tally⟩ =
      some ⟨⟨source, .retry, capacity, frame :: rest, stats.refuse⟩, bus.next, offered ++ [frame],
        tally.plus ⟨0, 1, 0⟩⟩ := by
  simp [run, turn, Outbox.offerHead, no, Tally.plus]

theorem runDropped (no : bus.answer = false) :
    run (turns + 1) ⟨⟨source, .drop, capacity, frame :: rest, stats⟩, bus, offered, tally⟩ =
      run turns ⟨⟨source, .drop, capacity, rest, stats.refuse.discard⟩, bus.next, offered ++ [frame],
        tally.plus ⟨0, 1, 1⟩⟩ := by
  simp [run, turn, Outbox.offerHead, no, Tally.plus, Outbox.pop]

end

end Passing

-- One turn more than there are frames: the last one finds the outbox empty.
theorem courseRuns {policy : FailurePolicy} {stats stats' : OutboxStats} {bus bus' : Sink}
    {frames left : List Frame} {offers : List Offer}
    (course : Course policy stats bus frames offers left stats' bus') (source : NodeId)
    (capacity : Nat) (offered : List Frame) (tally : Tally) (spare : Nat) :
    Passing.run (spare + (frames.length + 1))
        ⟨⟨source, policy, capacity, frames, stats⟩, bus, offered, tally⟩ =
      some ⟨⟨source, policy, capacity, left, stats'⟩, bus', offered ++ offers.map Offer.frame,
        tally.plus (Drain.mk offers left.length).counts⟩ := by
  induction course generalizing offered tally with
  | done => simp [Passing.runIdle, countsNone, Tally.plusNone]
  | accepted yes next ih =>
    refine (Passing.runAccepted yes).trans ((ih _ _).trans ?_)
    rw [countsAccepted, Tally.plusAssoc, List.append_assoc]
    rfl
  | kept no retry =>
    subst retry
    refine (Passing.runKept no).trans ?_
    rw [countsKept, countsNone]
    rfl
  | dropped no drop next ih =>
    subst drop
    refine (Passing.runDropped no).trans ((ih _ _).trans ?_)
    rw [countsDropped, Tally.plusAssoc, List.append_assoc]
    rfl

namespace Outbox

theorem passExactly (q : Outbox) (bus : Sink) :
    let drain := (q.drain bus).1
    let after := (q.drain bus).2.1
    let waiting := q.frames.length
    let calls := drain.offers.length
    let answers := bus.answers waiting
    (∀ turns, waiting < turns → Passing.run turns ⟨q, bus, [], ⟨0, 0, 0⟩⟩ =
      some ⟨after, bus.advance calls, q.frames.take calls,
        ⟨drain.transmitted, drain.failed, drain.dropped⟩⟩) ∧
    calls ≤ waiting ∧ (q.drain bus).2.2 = bus.advance calls ∧
    drain.offers.map Offer.frame = q.frames.take calls ∧
    (q.policy = .drop → calls = waiting ∧ drain.transmitted = answers.count true ∧
      drain.failed = answers.count false ∧ drain.dropped = answers.count false ∧
      drain.remaining = 0) ∧
    (q.policy = .retry → calls = drain.transmitted + drain.failed ∧
      drain.transmitted = streak answers ∧ drain.failed = (if false ∈ answers then 1 else 0) ∧
      drain.dropped = 0 ∧ drain.remaining = waiting - streak answers ∧
      after.frames = q.frames.drop (streak answers)) ∧
    drain.transmitted + drain.dropped + drain.remaining = waiting ∧
    after.frames.length = drain.remaining ∧
    after = { q with
      frames := after.frames
      stats := { q.stats with
        transmitted := q.stats.transmitted + .ofNat drain.transmitted
        transmitErrors := q.stats.transmitErrors + .ofNat drain.failed
        droppedFrames := q.stats.droppedFrames + .ofNat drain.dropped } } := by
  intro drain after waiting calls answers
  have course : Course q.policy q.stats bus q.frames drain.offers after.frames after.stats
      (q.drain bus).2.2 := drainCourse q bus
  obtain ⟨order, few, _⟩ := courseOffers course
  obtain ⟨_, _, advanced⟩ := courseExchange course
  have stats : after.stats = q.stats.grown drain.counts := courseStats course
  obtain ⟨total, left⟩ := courseLeaves course
  refine ⟨?_, few, advanced, order, ?_, ?_, total, rfl, ?_⟩
  · intro turns enough
    obtain ⟨spare, rfl⟩ := Nat.exists_eq_add_of_le' (Nat.succ_le_of_lt enough)
    have ends := courseRuns course q.source q.capacity [] ⟨0, 0, 0⟩ spare
    rwa [advanced, List.nil_append, order, Tally.nonePlus] at ends
  · intro drop
    obtain ⟨all, none, counts⟩ := courseDrops (drop ▸ course)
    obtain ⟨transmitted, failed, dropped⟩ := Tally.mk.inj counts
    exact ⟨all, transmitted, failed, dropped, congrArg List.length none⟩
  · intro retry
    obtain ⟨all, counts⟩ := courseKeeps (retry ▸ course)
    obtain ⟨transmitted, failed, dropped⟩ := Tally.mk.inj counts
    rw [counts] at left
    have rest : after.frames = q.frames.drop (streak answers) := left
    refine ⟨all, transmitted, failed, dropped, ?_, rest⟩
    exact (congrArg List.length rest).trans List.length_drop
  · exact congrArg (fun stats => { q with frames := after.frames, stats }) stats

end Outbox

end Rangefinder.Bus
