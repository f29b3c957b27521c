import Rangefinder.Bus.Outbox
import Rangefinder.Proofs.Bus.Segmentation

/-! The outbox over whole runs. A ledger keeps the reply to every call: what was taken in, what was
offered and what has left. Whatever the bus answers, frames leave in the order in which they were
taken in, none is lost and none doubled; when refused frames are kept, the bus gets each transfer
in one piece. What a pass does is read off its course, offer by offer. -/
namespace Rangefinder

namespace Sink

def answers (s : Sink) (n : Nat) : List Bool := (List.range n).map fun i => s.accepts (s.calls + i)

def advance (s : Sink) (n : Nat) : Sink := { s with calls := s.calls + n }

@[simp] theorem answersZero (s : Sink) : s.answers 0 = [] := rfl

@[simp] theorem advanceZero (s : Sink) : s.advance 0 = s := rfl

theorem answersSucc (s : Sink) (n : Nat) : s.answers (n + 1) = s.answer :: s.next.answers n := by
  simp only [answers, answer, List.range_succ_eq_map, List.map_cons, List.map_map, Nat.add_zero,
    callsNext, acceptsNext]
  congr 2
  funext i
  exact congrArg s.accepts (by omega)

theorem advanceSucc (s : Sink) (n : Nat) : s.advance (n + 1) = s.next.advance n := by
  simp only [advance, next, Nat.add_comm n 1, Nat.add_assoc]

theorem answersAdd (s : Sink) (m n : Nat) :
    s.answers (m + n) = s.answers m ++ (s.advance m).answers n := by
  simp [answers, advance, List.range_add, Nat.add_assoc]

theorem advanceAdd (s : Sink) (m n : Nat) : s.advance (m + n) = (s.advance m).advance n := by
  simp [advance, Nat.add_assoc]

end Sink

namespace Bus

def Offer.departed? : Offer → Option Frame
  | .accepted frame | .dropped frame .. => some frame
  | .kept .. => none

inductive Course (policy : FailurePolicy) :
    OutboxStats → Sink → List Frame → List Offer → List Frame → OutboxStats → Sink → Prop where
  | done (stats bus) : Course policy stats bus [] [] [] stats bus
  | accepted {stats bus frame rest offers left stats' bus'} (yes : bus.answer = true)
      (next : Course policy stats.accept bus.next rest offers left stats' bus') :
      Course policy stats bus (frame :: rest) (.accepted frame :: offers) left stats' bus'
  | kept {stats bus frame rest} (no : bus.answer = false) (retry : policy = .retry) :
      Course policy stats bus (frame :: rest)
        [.kept frame stats.refuse.transmitErrors (rest.length + 1)] (frame :: rest) stats.refuse bus.next
  | dropped {stats bus frame rest offers left stats' bus'} (no : bus.answer = false)
      (drop : policy = .drop)
      (next : Course policy stats.refuse.discard bus.next rest offers left stats' bus') :
      Course policy stats bus (frame :: rest)
        (.dropped frame stats.refuse.transmitErrors stats.refuse.discard.droppedFrames :: offers) left
        stats' bus'

namespace Outbox

inductive Call
  | add (transfer : Transfer)
  | offerHead
  | drain
  | pop
  deriving DecidableEq, Repr

inductive Reply
  | added (transfer : Transfer) (admission : Admission)
  | offered (attempt : Attempt)
  | drained (drain : Drain)
  | popped (frame : Option Frame)
  deriving DecidableEq, Repr

namespace Reply

def transfer? : Reply → Option Transfer
  | added transfer (.queued _) => some transfer
  | added _ (.refused _) | offered _ | drained _ | popped _ => none

def refused : Reply → Bool
  | added _ (.refused _) => true
  | added _ (.queued _) | offered _ | drained _ | popped _ => false

def trials : Reply → List (Frame × Bool)
  | offered (.accepted frame) => [(frame, true)]
  | offered (.refused frame _) => [(frame, false)]
  | drained drain => drain.offers.map fun offer => (offer.frame, offer.sent?.isSome)
  | offered .idle | added .. | popped _ => []

def departed : Reply → List Frame
  | offered (.accepted frame) => [frame]
  | drained drain => drain.offers.filterMap Offer.departed?
  | popped frame => frame.toList
  | offered .idle | offered (.refused ..) | added .. => []

end Reply

structure Ledger where
  replies : List Reply
  outbox : Outbox
  bus : Sink

namespace Ledger

def transfers (l : Ledger) : List Transfer := l.replies.filterMap Reply.transfer?

def trials (l : Ledger) : List (Frame × Bool) := l.replies.flatMap Reply.trials

def departed (l : Ledger) : List Frame := l.replies.flatMap Reply.departed

def sent (l : Ledger) : List Frame := (l.trials.filter Prod.snd).map Prod.fst

section
variable (reply : Reply) (q : Outbox) (bus : Sink)

@[simp] theorem transfersOne : transfers ⟨[reply], q, bus⟩ = reply.transfer?.toList := by
  cases taken : reply.transfer? <;> simp [transfers, taken]

@[simp] theorem trialsOne : trials ⟨[reply], q, bus⟩ = reply.trials := List.append_nil _

@[simp] theorem departedOne : departed ⟨[reply], q, bus⟩ = reply.departed := List.append_nil _

end

attribute [simp] Reply.transfer? Reply.trials Reply.departed

end Ledger

def call (q : Outbox) (bus : Sink) : Call → Reply × Outbox × Sink
  | .add transfer =>
    let (admission, q) := q.add transfer
    (.added transfer admission, q, bus)
  | .offerHead =>
    let (attempt, q, bus) := q.offerHead bus
    (.offered attempt, q, bus)
  | .drain =>
    let (drain, q, bus) := q.drain bus
    (.drained drain, q, bus)
  | .pop =>
    let (frame, q) := q.pop
    (.popped frame, q, bus)

def run (q : Outbox) (bus : Sink) : List Call → Ledger
  | [] => ⟨[], q, bus⟩
  | c :: rest =>
    let (reply, q, bus) := q.call bus c
    let l := q.run bus rest
    { l with replies := reply :: l.replies }

theorem pushFits {q : Outbox} {frames : List Frame}
    (room : q.frames.length + frames.length ≤ q.capacity) :
    q.push frames = ({ q with frames := q.frames ++ frames }, true) := by
  induction frames generalizing q with
  | nil => simp [push]
  | cons frame rest ih =>
    rw [List.length_cons] at room
    have free : q.frames.length < q.capacity := by omega
    rw [push, if_pos free, ih]
    · simp
    · simp only [List.length_append, List.length_singleton]
      omega

theorem addQueued {q : Outbox} {t : Transfer} (room : framesNeeded t.payload.length ≤ q.available) :
    q.add t = (.queued (framesNeeded t.payload.length),
      { q with frames := q.frames ++ t.frames q.source }) := by
  have some := framesNeededPos t.payload.length
  have fits : q.frames.length + (t.frames q.source).length ≤ q.capacity := by
    rw [framesLength]
    simp only [available] at room
    omega
  simp only [add, if_neg (Nat.not_lt.mpr room), pushFits fits]

theorem addRefused {q : Outbox} {t : Transfer} (full : q.available < framesNeeded t.payload.length) :
    q.add t = (.refused ⟨framesNeeded t.payload.length, q.available⟩,
      { q with stats := q.stats.reject }) := by
  simp only [add, if_pos full]

theorem offerAllCourse (policy : FailurePolicy) (stats : OutboxStats) (bus : Sink)
    (frames : List Frame) :
    Course policy stats bus frames (offerAll policy stats bus frames).1
      (offerAll policy stats bus frames).2.1 (offerAll policy stats bus frames).2.2.1
      (offerAll policy stats bus frames).2.2.2 := by
  induction frames generalizing stats bus with
  | nil => exact .done stats bus
  | cons frame rest ih =>
    cases answer : bus.answer with
    | true =>
      simp only [offerAll, answer, if_true]
      exact .accepted answer (ih stats.accept bus.next)
    | false =>
      cases policy with
      | retry =>
        simp only [offerAll, answer, Bool.false_eq_true, if_false]
        exact .kept answer rfl
      | drop =>
        simp only [offerAll, answer, Bool.false_eq_true, if_false]
        exact .dropped answer rfl (ih stats.refuse.discard bus.next)

theorem drainCourse (q : Outbox) (bus : Sink) :
    Course q.policy q.stats bus q.frames (q.drain bus).1.offers (q.drain bus).2.1.frames
      (q.drain bus).2.1.stats (q.drain bus).2.2 := offerAllCourse q.policy q.stats bus q.frames

def Clears (policy : FailurePolicy) (bus : Sink) : Prop :=
  (∀ call, bus.accepts call = true) ∨ policy = .drop

end Outbox

section
variable {policy : FailurePolicy} {stats stats' : OutboxStats} {bus bus' : Sink}
  {frames left : List Frame} {offers : List Offer}

theorem courseExchange (course : Course policy stats bus frames offers left stats' bus') :
    offers.filterMap Offer.departed? ++ left = frames ∧
      (offers.map fun offer => offer.sent?.isSome) = bus.answers offers.length ∧
      bus' = bus.advance offers.length := by
  induction course with
  | done => exact ⟨rfl, rfl, rfl⟩
  | accepted yes next ih =>
    obtain ⟨order, answers, calls⟩ := ih
    rw [List.length_cons, Sink.answersSucc, Sink.advanceSucc, yes]
    exact ⟨congrArg (_ :: ·) order, congrArg (true :: ·) answers, calls⟩
  | kept no retry =>
    rw [List.length_singleton, Sink.answersSucc, Sink.advanceSucc, no]
    exact ⟨rfl, rfl, rfl⟩
  | dropped no drop next ih =>
    obtain ⟨order, answers, calls⟩ := ih
    rw [List.length_cons, Sink.answersSucc, Sink.advanceSucc, no]
    exact ⟨congrArg (_ :: ·) order, congrArg (false :: ·) answers, calls⟩

theorem courseOffers (course : Course policy stats bus frames offers left stats' bus') :
    offers.map Offer.frame = frames.take offers.length ∧ offers.length ≤ frames.length ∧
      (frames ≠ [] → 0 < offers.length) := by
  induction course with
  | done => exact ⟨rfl, Nat.le_refl 0, fun waiting => absurd rfl waiting⟩
  | kept no retry => exact ⟨rfl, Nat.succ_le_succ (Nat.zero_le _), fun _ => Nat.succ_pos _⟩
  | accepted _ _ ih | dropped _ _ _ ih =>
    obtain ⟨order, few, _⟩ := ih
    exact ⟨congrArg (_ :: ·) order, Nat.succ_le_succ few, fun _ => Nat.succ_pos _⟩

theorem courseRetry (course : Course .retry stats bus frames offers left stats' bus') :
    offers.filterMap Offer.departed? = offers.filterMap Offer.sent? := by
  induction course with
  | done => rfl
  | accepted yes next ih => exact congrArg (_ :: ·) ih
  | kept no retry => rfl
  | dropped no drop next ih => exact absurd drop nofun

theorem courseRejected (course : Course policy stats bus frames offers left stats' bus') :
    stats'.rejectedTransfers = stats.rejectedTransfers := by
  induction course with
  | done => rfl
  | kept no retry => rfl
  | accepted _ _ ih | dropped _ _ _ ih => exact ih

theorem courseClears (course : Course policy stats bus frames offers left stats' bus')
    (clears : Outbox.Clears policy bus) : offers.map Offer.frame = frames ∧ left = [] := by
  induction course with
  | done => exact ⟨rfl, rfl⟩
  | accepted _ _ ih | dropped _ _ _ ih =>
    obtain ⟨order, none⟩ := ih clears
    exact ⟨congrArg (_ :: ·) order, none⟩
  | @kept _ bus _ _ no retry =>
    obtain willing | drop := clears
    · exact absurd ((willing bus.calls).symm.trans no) nofun
    · exact absurd (retry.symm.trans drop) nofun

end

namespace Outbox

theorem drainClears {q : Outbox} {bus : Sink} (clears : Clears q.policy bus) :
    (q.drain bus).1.offers.filterMap Offer.departed? = (q.drain bus).1.offers.map Offer.frame ∧
      (q.drain bus).2.1.frames = [] := by
  obtain ⟨offers, left⟩ := courseClears (drainCourse q bus) clears
  obtain ⟨order, _⟩ := courseExchange (drainCourse q bus)
  rw [left, List.append_nil] at order
  exact ⟨order.trans offers.symm, left⟩

theorem drainWilling {q : Outbox} {bus : Sink} (willing : ∀ call, bus.accepts call = true) :
    (q.drain bus).2.1.frames = [] := (drainClears (.inl willing)).2

theorem drainAccepts (q : Outbox) (bus : Sink) : (q.drain bus).2.2.accepts = bus.accepts := by
  obtain ⟨_, _, calls⟩ := courseExchange (drainCourse q bus)
  rw [calls]
  rfl

theorem addKeeps {q : Outbox} (waiting : q.frames ≠ []) (t : Transfer) :
    (q.add t).2.frames ≠ [] := by
  by_cases room : framesNeeded t.payload.length ≤ q.available
  · rw [addQueued room]
    exact List.append_ne_nil_of_left_ne_nil waiting _
  · rw [addRefused (Nat.lt_of_not_le room)]
    exact waiting

theorem drainOffers {q : Outbox} (waiting : q.frames ≠ []) (bus : Sink) :
    bus.calls < (q.drain bus).2.2.calls := by
  obtain ⟨_, _, offered⟩ := courseOffers (drainCourse q bus)
  obtain ⟨_, _, calls⟩ := courseExchange (drainCourse q bus)
  rw [calls]
  exact Nat.lt_add_of_pos_right (offered waiting)

theorem drainIdle {q : Outbox} (empty : q.frames = []) (bus : Sink) :
    q.drain bus = (⟨[], 0⟩, q, bus) := by
  obtain ⟨source, policy, capacity, frames, stats⟩ := q
  cases empty
  rfl

structure Exchange (q : Outbox) (bus : Sink) (l : Ledger) : Prop where
  frames : q.frames ++ l.transfers.flatMap (·.frames q.source) = l.departed ++ l.outbox.frames
  answers : l.trials.map Prod.snd = bus.answers l.trials.length
  bus : l.bus = bus.advance l.trials.length
  source : l.outbox.source = q.source
  policy : l.outbox.policy = q.policy
  capacity : l.outbox.capacity = q.capacity
  room : q.frames.length ≤ q.capacity → l.outbox.frames.length ≤ q.capacity

theorem exchangeAdd (q : Outbox) (bus : Sink) (t : Transfer) :
    Exchange q bus ⟨[.added t (q.add t).1], (q.add t).2, bus⟩ := by
  by_cases room : framesNeeded t.payload.length ≤ q.available
  · rw [addQueued room]
    constructor
    case frames => simp
    case room =>
      intro fits
      simp only [List.length_append, framesLength]
      simp only [available] at room
      omega
    all_goals rfl
  · rw [addRefused (Nat.lt_of_not_le room)]
    constructor
    case frames => simp
    case room => exact id
    all_goals rfl

theorem exchangeOffer (q : Outbox) (bus : Sink) :
    Exchange q bus ⟨[.offered (q.offerHead bus).1], (q.offerHead bus).2.1, (q.offerHead bus).2.2⟩ := by
  cases frames : q.frames with
  | nil =>
    simp only [offerHead, frames]
    constructor
    case frames => simp
    case room => exact id
    all_goals rfl
  | cons frame rest =>
    cases answer : bus.answer with
    | true =>
      simp only [offerHead, frames, answer, if_true]
      constructor
      case frames => simp [frames]
      case answers => simp [Sink.answersSucc, answer]
      case room =>
        intro fits
        rw [frames, List.length_cons] at fits
        exact Nat.le_of_succ_le fits
      all_goals rfl
    | false =>
      simp only [offerHead, frames, answer, Bool.false_eq_true, if_false]
      constructor
      case frames => simp [frames]
      case answers => simp [Sink.answersSucc, answer]
      case room =>
        intro fits
        rwa [frames] at fits
      all_goals rfl

theorem exchangeDrain (q : Outbox) (bus : Sink) :
    Exchange q bus ⟨[.drained (q.drain bus).1], (q.drain bus).2.1, (q.drain bus).2.2⟩ := by
  obtain ⟨order, answers, calls⟩ := courseExchange (drainCourse q bus)
  constructor
  case frames =>
    change q.frames ++ [] = _
    rw [List.append_nil]
    simpa using order.symm
  case answers => simpa [Function.comp_def] using answers
  case bus => simpa using calls
  case room =>
    intro fits
    have total := congrArg List.length order
    rw [List.length_append] at total
    simp only
    omega
  all_goals rfl

theorem exchangePop (q : Outbox) (bus : Sink) :
    Exchange q bus ⟨[.popped q.pop.1], q.pop.2, bus⟩ := by
  constructor
  case frames => cases frames : q.frames <;> simp [pop, frames]
  case room =>
    intro fits
    simp only [pop, List.length_tail]
    omega
  all_goals rfl

theorem exchangeCall (q : Outbox) (bus : Sink) (c : Call) : Exchange q bus (q.run bus [c]) := by
  cases c with
  | add t => exact exchangeAdd q bus t
  | offerHead => exact exchangeOffer q bus
  | drain => exact exchangeDrain q bus
  | pop => exact exchangePop q bus

theorem exchangeTrans {q q' : Outbox} {bus bus' : Sink} {replies : List Reply} {l : Ledger}
    (first : Exchange q bus ⟨replies, q', bus'⟩) (later : Exchange q' bus' l) :
    Exchange q bus { l with replies := replies ++ l.replies } := by
  constructor
  case frames =>
    have front := first.frames
    have back := later.frames
    have source := first.source
    simp only [Ledger.transfers, Ledger.departed] at front back source ⊢
    rw [List.filterMap_append, List.flatMap_append, List.flatMap_append, ← List.append_assoc, front,
      List.append_assoc, ← source, back, List.append_assoc]
  case answers =>
    have front := first.answers
    have back := later.answers
    have bus := first.bus
    simp only [Ledger.trials] at front back bus ⊢
    rw [List.flatMap_append, List.map_append, List.length_append, Sink.answersAdd, front, back, bus]
  case bus =>
    have front := first.bus
    have back := later.bus
    simp only [Ledger.trials] at front back ⊢
    rw [List.flatMap_append, List.length_append, Sink.advanceAdd, back, front]
  case source => exact later.source.trans first.source
  case policy => exact later.policy.trans first.policy
  case capacity => exact later.capacity.trans first.capacity
  case room =>
    intro fits
    have capacity := first.capacity
    have front := first.room fits
    have back := later.room
    simp only at capacity front back ⊢
    omega

theorem exchangeRun (q : Outbox) (bus : Sink) (calls : List Call) :
    Exchange q bus (q.run bus calls) := by
  induction calls generalizing q bus with
  | nil =>
    constructor
    case frames => simp [run, Ledger.transfers, Ledger.departed]
    case room => exact id
    all_goals rfl
  | cons c rest ih => exact exchangeTrans (exchangeCall q bus c) (ih _ _)

theorem callRejected (q : Outbox) (bus : Sink) (c : Call) :
    (q.call bus c).2.1.stats.rejectedTransfers =
      q.stats.rejectedTransfers + .ofNat (if (q.call bus c).1.refused then 1 else 0) := by
  cases c with
  | add t =>
    by_cases room : framesNeeded t.payload.length ≤ q.available
    · simp [call, addQueued room, Reply.refused]
    · simp [call, addRefused (Nat.lt_of_not_le room), Reply.refused, OutboxStats.reject]
  | offerHead =>
    rw [call, offerHead]
    cases q.frames with
    | nil => simp [Reply.refused]
    | cons frame rest =>
      cases bus.answer <;> simp [Reply.refused, OutboxStats.accept, OutboxStats.refuse]
  | drain => simpa [call, Reply.refused] using courseRejected (drainCourse q bus)
  | pop => simp [call, pop, Reply.refused]

theorem runRejected (q : Outbox) (bus : Sink) (calls : List Call) :
    (q.run bus calls).outbox.stats.rejectedTransfers =
      q.stats.rejectedTransfers + .ofNat ((q.run bus calls).replies.countP Reply.refused) := by
  induction calls generalizing q bus with
  | nil => simp [run]
  | cons c rest ih =>
    simp only [run, ih, callRejected, List.countP_cons]
    rw [UInt32.add_assoc, ← UInt32.ofNat_add, Nat.add_comm]

theorem runAppend (q : Outbox) (bus : Sink) (front back : List Call) :
    q.run bus (front ++ back) =
      { (q.run bus front).outbox.run (q.run bus front).bus back with
        replies := (q.run bus front).replies ++
          ((q.run bus front).outbox.run (q.run bus front).bus back).replies } := by
  induction front generalizing q bus with
  | nil => rfl
  | cons c front ih =>
    rw [List.cons_append]
    simp only [run, ih, List.cons_append]

theorem offersSent (offers : List Offer) :
    ((offers.map fun offer => (offer.frame, offer.sent?.isSome)).filter Prod.snd).map Prod.fst =
      offers.filterMap Offer.sent? := by
  induction offers with
  | nil => rfl
  | cons offer rest ih =>
    cases offer with
    | accepted frame => exact congrArg (frame :: ·) ih
    | kept => exact ih
    | dropped => exact ih

theorem replySent (reply : Reply) :
    ((reply.trials.filter Prod.snd).map Prod.fst).Sublist reply.departed := by
  match reply with
  | .added .. => exact List.Sublist.refl []
  | .offered .idle => exact List.Sublist.refl []
  | .offered (.accepted frame) => exact List.Sublist.refl [frame]
  | .offered (.refused ..) => exact List.Sublist.refl []
  | .popped frame => exact List.nil_sublist frame.toList
  | .drained drain =>
    rw [Reply.trials, Reply.departed, offersSent]
    induction drain.offers with
    | nil => exact List.Sublist.refl []
    | cons offer rest ih =>
      cases offer with
      | accepted frame => exact ih.cons_cons frame
      | kept => exact ih
      | dropped frame => exact ih.cons frame

theorem ledgerSent (l : Ledger) : l.sent.Sublist l.departed := by
  unfold Ledger.sent Ledger.trials Ledger.departed
  induction l.replies with
  | nil => exact List.Sublist.refl []
  | cons reply rest ih =>
    rw [List.flatMap_cons, List.flatMap_cons, List.filter_append, List.map_append]
    exact (replySent reply).append ih

theorem callRetry (q : Outbox) (bus : Sink) {c : Call} (policy : q.policy = .retry) (kept : c ≠ .pop) :
    (q.call bus c).1.departed = ((q.call bus c).1.trials.filter Prod.snd).map Prod.fst := by
  cases c with
  | add t => rfl
  | offerHead =>
    change (Reply.offered (q.offerHead bus).1).departed = _
    cases attempt : (q.offerHead bus).1 <;> simp [call, attempt]
  | drain =>
    change (Reply.drained (q.drain bus).1).departed =
      ((Reply.drained (q.drain bus).1).trials.filter Prod.snd).map Prod.fst
    rw [Reply.departed, Reply.trials, offersSent]
    exact courseRetry (policy ▸ drainCourse q bus)
  | pop => exact absurd rfl kept

theorem runRetry (q : Outbox) (bus : Sink) (calls : List Call) (policy : q.policy = .retry)
    (popless : Call.pop ∉ calls) : (q.run bus calls).departed = (q.run bus calls).sent := by
  induction calls generalizing q bus with
  | nil => rfl
  | cons c rest ih =>
    obtain ⟨kept, popless⟩ := not_or.mp (mt List.mem_cons.mpr popless)
    have first := callRetry q bus policy (Ne.symm kept)
    have later := ih (q.call bus c).2.1 (q.call bus c).2.2
      ((exchangeCall q bus c).policy.trans policy) popless
    simp only [Ledger.departed, Ledger.sent, Ledger.trials] at later ⊢
    simp only [run, List.flatMap_cons, List.filter_append, List.map_append, first, later]

/-- The frames of the first transfers in full, then a beginning of the next. -/
def InTurn (source : NodeId) (transfers : List Transfer) (frames : List Frame) : Prop :=
  ∃ whole rest begun, transfers = whole ++ rest ∧
    frames = whole.flatMap (·.frames source) ++ begun ∧
    begun <+: rest.head?.elim [] (·.frames source)

theorem inTurnOfPrefix {source : NodeId} {transfers : List Transfer} {frames : List Frame}
    (front : frames <+: transfers.flatMap (·.frames source)) : InTurn source transfers frames := by
  induction transfers generalizing frames with
  | nil => exact ⟨[], [], frames, rfl, rfl, front⟩
  | cons t rest ih =>
    rw [List.flatMap_cons] at front
    rcases List.prefix_or_prefix_of_prefix front (List.prefix_append _ _) with short | long
    · exact ⟨[], t :: rest, frames, rfl, rfl, short⟩
    · obtain ⟨more, rfl⟩ := long
      obtain ⟨whole, later, begun, split, same, part⟩ :=
        ih ((List.prefix_append_right_inj _).mp front)
      refine ⟨t :: whole, later, begun, ?_, ?_, part⟩
      · rw [split, List.cons_append]
      · rw [same, List.flatMap_cons, List.append_assoc]

theorem framesConserved (source : NodeId) (policy : FailurePolicy) (capacity : Nat) (bus : Sink)
    (calls : List Call) :
    let l := (empty source policy capacity).run bus calls
    l.departed ++ l.outbox.frames = l.transfers.flatMap (·.frames source) ∧
      l.outbox.frames.length ≤ capacity ∧
      l.trials.map Prod.snd = bus.answers l.trials.length ∧
      (policy = .retry → Call.pop ∉ calls →
        l.sent <+: l.transfers.flatMap (·.frames source) ∧ InTurn source l.transfers l.sent) := by
  intro l
  have exchange : Exchange (empty source policy capacity) bus l := exchangeRun _ _ _
  have order : l.departed ++ l.outbox.frames = l.transfers.flatMap (·.frames source) :=
    exchange.frames.symm
  refine ⟨order, exchange.room (Nat.zero_le _), exchange.answers, ?_⟩
  intro retry popless
  have front : l.sent <+: l.transfers.flatMap (·.frames source) := by
    rw [← runRetry _ bus calls retry popless]
    exact ⟨l.outbox.frames, order⟩
  exact ⟨front, inTurnOfPrefix front⟩

end Outbox

end Bus

end Rangefinder
