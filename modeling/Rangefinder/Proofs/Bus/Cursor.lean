import Rangefinder.Proofs.Trap
import Rangefinder.Proofs.Bus.Ledger

/-! The way of a transfer into the outbox with every index and every sum spelled out. A cursor reads the
payload and the checksum byte by byte at positions of one stream; it follows the segmenter, and
neither it nor the counts around it trap as long as the capacity of the outbox is a word. -/
namespace Rangefinder.Bus

def Transfer.bytesChecked (t : Transfer) : Except Trap (List UInt8) :=
  Trap.front (t.payload ++ List.replicate (payloadLimit - t.payload.length) 0) t.payload.length

theorem Transfer.bytesExact (t : Transfer) : t.bytesChecked = .ok t.payload := by
  rw [bytesChecked, Trap.front, if_pos, List.take_left]
  rw [List.length_append]
  exact Nat.le_add_right _ _

def framesNeededChecked (length : Nat) : Except Trap Nat :=
  if length ≤ chunkBytes then .ok 1
  else do
    let stream ← Trap.add wordLimit length Checksum.sumBytes
    let whole ← Trap.div stream chunkBytes
    if stream % chunkBytes = 0 then .ok whole else Trap.add wordLimit whole 1

structure Cursor where
  id : ArbitrationId
  transferId : TransferId
  payload : List UInt8
  checksum : List UInt8
  streamLength : Nat
  offset : Nat
  toggle : Bool
  done : Bool
  deriving DecidableEq, Repr

namespace Cursor

def ofTransfer (t : Transfer) (source : NodeId) : Except Trap Cursor := do
  let payload ← t.bytesChecked
  let long := decide (chunkBytes < payload.length)
  let streamLength ←
    if long then Trap.add wordLimit payload.length Checksum.sumBytes else .ok payload.length
  .ok
    { id := .build t.priority t.subject source
      transferId := t.transferId
      payload
      checksum := if long then Checksum.toBytes (Checksum.ofBytes payload) else [0, 0]
      streamLength
      offset := 0
      toggle := firstToggle
      done := false }

def byte (c : Cursor) (index : Nat) : Except Trap UInt8 :=
  match c.payload[index]? with
  | some byte => .ok byte
  | none => do
    let beyond ← Trap.sub index c.payload.length
    Trap.item c.checksum beyond

def next (c : Cursor) : Except Trap (Option (Frame × Cursor)) :=
  if c.done then .ok none
  else do
    let reach ← Trap.add wordLimit c.offset chunkBytes
    let stop := min reach c.streamLength
    let chunk ← (List.range' c.offset (min frameBytes (stop - c.offset))).mapM c.byte
    let count ← Trap.sub stop c.offset
    let ends := decide (stop = c.streamLength)
    let tail : TailByte := ⟨decide (c.offset = 0), ends, c.toggle, c.transferId⟩
    let _ ← Trap.item (List.replicate frameBytes 0) count
    let _ ← Trap.add wordLimit count 1
    .ok (some (.fill c.id (chunk ++ [tail.toByte]),
      { c with offset := stop, toggle := !c.toggle, done := ends }))

def run : Nat → Cursor → Except Trap (List Frame)
  | 0, _ => .ok []
  | limit + 1, c => do
    match ← c.next with
    | none => .ok []
    | some (frame, c) =>
      let frames ← run limit c
      .ok (frame :: frames)

structure Follows (stream : List UInt8) (c : Cursor) (s : Segmenter) : Prop where
  id : c.id = s.id
  transferId : c.transferId = s.transferId
  toggle : c.toggle = s.toggle
  length : c.streamLength = stream.length
  short : stream.length ≤ payloadLimit + Checksum.sumBytes
  reads : ∀ index found, stream[index]? = some found → c.byte index = .ok found
  offset : c.offset ≤ stream.length
  rest : s.rest = if c.done then none else some (stream.drop c.offset)
  starts : c.done = false → s.starts = decide (c.offset = 0)

theorem byteRead {c : Cursor} {index : Nat} {found : UInt8}
    (at' : (c.payload ++ c.checksum)[index]? = some found) : c.byte index = .ok found := by
  rw [byte]
  cases here : c.payload[index]? with
  | some own =>
    rw [List.getElem?_append_left (List.getElem?_eq_some_iff.mp here).1, here] at at'
    cases at'
    rfl
  | none =>
    have beyond : c.payload.length ≤ index := List.getElem?_eq_none_iff.mp here
    rw [List.getElem?_append_right beyond] at at'
    simp only [Trap.subFits beyond, bind, Except.bind, Trap.itemFound at']

theorem bytesRead {stream : List UInt8} {read : Nat → Except Trap UInt8}
    (reads : ∀ index found, stream[index]? = some found → read index = .ok found)
    (offset count : Nat) (within : offset + count ≤ stream.length) :
    (List.range' offset count).mapM read = .ok ((stream.drop offset).take count) := by
  induction count generalizing offset with
  | zero => rfl
  | succ count ih =>
    have here : offset < stream.length := by omega
    rw [List.range'_succ, List.mapM_cons, reads offset _ (List.getElem?_eq_getElem here),
      ih (offset + 1) (by omega), List.drop_eq_getElem_cons here]
    rfl

section
variable {stream : List UInt8} {c : Cursor} {s : Segmenter}

theorem nextDone (follows : Follows stream c s) (done : c.done = true) :
    c.next = .ok none ∧ s.next = none := by
  have rest := follows.rest
  rw [if_pos done] at rest
  exact ⟨if_pos done, Segmenter.nextEnded rest⟩

theorem nextReads (follows : Follows stream c s) (going : c.done = false) {count : Nat}
    (counted : count = min chunkBytes (stream.length - c.offset)) {ends : Bool}
    (last : ends = decide ((stream.drop c.offset).length ≤ chunkBytes)) :
    c.next = .ok (some (.fill c.id ((stream.drop c.offset).take chunkBytes ++
        [(TailByte.mk (decide (c.offset = 0)) ends c.toggle c.transferId).toByte]),
      { c with offset := c.offset + count, toggle := !c.toggle, done := ends })) := by
  have order := follows.offset
  have short := follows.short
  simp only [payloadLimit, Checksum.sumBytes] at short
  have reach : Trap.add wordLimit c.offset chunkBytes = .ok (c.offset + chunkBytes) :=
    Trap.addFits (by simp only [chunkBytes, wordLimit]; omega)
  have stop : min (c.offset + chunkBytes) c.streamLength = c.offset + count := by
    rw [follows.length, counted]
    omega
  have few : count ≤ chunkBytes := counted ▸ Nat.min_le_left _ _
  have slots : min frameBytes count = count := Nat.min_eq_right (Nat.le_succ_of_le few)
  have chunk : (List.range' c.offset count).mapM c.byte =
      .ok ((stream.drop c.offset).take chunkBytes) := by
    rw [bytesRead follows.reads _ _ (by omega), counted, ← List.length_drop, ← List.take_eq_take_min]
  have slot : Trap.item (List.replicate frameBytes 0) count = .ok 0 :=
    Trap.itemFound (List.getElem?_replicate_of_lt (Nat.lt_succ_of_le few))
  have size : Trap.add wordLimit count 1 = .ok (count + 1) :=
    Trap.addFits (by simp only [chunkBytes, wordLimit] at few ⊢; omega)
  have whole : decide (c.offset + count = c.streamLength) = ends := by
    rw [last, follows.length, counted, List.length_drop]
    exact decide_eq_decide.mpr (by omega)
  rw [next, if_neg (Bool.eq_false_iff.mp going)]
  simp only [reach, stop, bind, Except.bind, Nat.add_sub_cancel_left, slots, chunk,
    Trap.subFits (Nat.le_add_right c.offset count), slot, size, whole]

theorem nextFollows (follows : Follows stream c s) (going : c.done = false) :
    ∃ frame c' s', c.next = .ok (some (frame, c')) ∧ s.next = some (frame, s') ∧
      Follows stream c' s' := by
  have rest : s.rest = some (stream.drop c.offset) := by
    rw [follows.rest, going]
    rfl
  have order := follows.offset
  obtain ⟨count, counted⟩ : ∃ count, count = min chunkBytes (stream.length - c.offset) :=
    ⟨_, rfl⟩
  obtain ⟨ends, last⟩ : ∃ ends, ends = decide ((stream.drop c.offset).length ≤ chunkBytes) :=
    ⟨_, rfl⟩
  have here := nextReads follows going counted last
  have step : s.next = some (.fill c.id ((stream.drop c.offset).take chunkBytes ++
        [(TailByte.mk (decide (c.offset = 0)) ends c.toggle c.transferId).toByte]),
      { s with
        rest := if ends then none else some ((stream.drop c.offset).drop chunkBytes)
        starts := false
        toggle := !s.toggle }) := by
    simp only [Segmenter.next, rest, Option.map_some, follows.id, follows.toggle, follows.transferId,
      follows.starts going, last]
  have onward : ends = false → count = chunkBytes := by
    intro more
    rw [last, decide_eq_false_iff_not, List.length_drop] at more
    omega
  have behind : (if ends then none else some ((stream.drop c.offset).drop chunkBytes)) =
      if ends then none else some (stream.drop (c.offset + count)) := by
    cases more : ends with
    | true => rfl
    | false => rw [onward more, List.drop_drop]
  have started : ends = false → false = decide (c.offset + count = 0) := by
    intro more
    rw [onward more]
    rfl
  have within : c.offset + count ≤ stream.length := by omega
  exact ⟨_, _, _, here, step, follows.id, follows.transferId, congrArg not follows.toggle,
    follows.length, follows.short, follows.reads, within, behind, started⟩

theorem runFollows (follows : Follows stream c s) (limit : Nat) :
    c.run limit = .ok (s.run limit).1 := by
  induction limit generalizing c s with
  | zero => rfl
  | succ limit ih =>
    cases done : c.done with
    | true =>
      obtain ⟨here, ended⟩ := nextDone follows done
      rw [Segmenter.runEnded ended, run, here]
      rfl
    | false =>
      obtain ⟨frame, c', s', here, step, later⟩ := nextFollows follows done
      rw [Segmenter.runNext step, run, here]
      simp only [bind, Except.bind, ih later]

end

theorem ofTransferFollows (t : Transfer) (source : NodeId) :
    ∃ c, ofTransfer t source = .ok c ∧ Follows t.stream c (.ofTransfer t source) := by
  have fits := t.fits
  simp only [payloadLimit] at fits
  by_cases short : t.payload.length ≤ chunkBytes
  · have stream : t.stream = t.payload := if_pos short
    have single : decide (chunkBytes < t.payload.length) = false :=
      decide_eq_false (Nat.not_lt.mpr short)
    simp only [ofTransfer, t.bytesExact, single, bind, Except.bind]
    refine ⟨_, rfl, rfl, rfl, rfl, ?_, ?_, ?_, Nat.zero_le _, rfl, fun _ => rfl⟩
    · rw [stream]
    · rw [stream]
      exact Nat.le_add_right_of_le t.fits
    · intro index found at'
      rw [stream] at at'
      refine byteRead ?_
      rw [List.getElem?_append_left (List.getElem?_eq_some_iff.mp at').1]
      exact at'
  · have stream : t.stream = t.payload ++ Checksum.toBytes (Checksum.ofBytes t.payload) :=
      if_neg short
    have many : decide (chunkBytes < t.payload.length) = true :=
      decide_eq_true (Nat.lt_of_not_le short)
    have length : Trap.add wordLimit t.payload.length Checksum.sumBytes =
        .ok (t.payload.length + Checksum.sumBytes) :=
      Trap.addFits (by simp only [Checksum.sumBytes, wordLimit]; omega)
    simp only [ofTransfer, t.bytesExact, many, if_true, length, bind, Except.bind]
    refine ⟨_, rfl, rfl, rfl, rfl, ?_, ?_, ?_, Nat.zero_le _, rfl, fun _ => rfl⟩
    · rw [stream, List.length_append, Checksum.toBytesLength]
    · rw [stream, List.length_append, Checksum.toBytesLength]
      exact Nat.add_le_add_right t.fits _
    · intro index found at'
      rw [stream] at at'
      exact byteRead at'

end Cursor

def Transfer.framesChecked (t : Transfer) (source : NodeId) : Except Trap (List Frame) := do
  let c ← Cursor.ofTransfer t source
  c.run (c.streamLength + 1)

theorem framesExact (t : Transfer) (source : NodeId) :
    t.framesChecked source = .ok (t.frames source) := by
  obtain ⟨c, made, follows⟩ := Cursor.ofTransferFollows t source
  simp only [Transfer.framesChecked, made, bind, Except.bind, Cursor.runFollows follows,
    follows.length]
  rfl

theorem framesNeededExact {length : Nat} (fits : length ≤ payloadLimit) :
    framesNeededChecked length = .ok (framesNeeded length) := by
  unfold framesNeededChecked framesNeeded
  split
  · rfl
  · simp only [payloadLimit] at fits
    have stream : Trap.add wordLimit length Checksum.sumBytes = .ok (length + Checksum.sumBytes) :=
      Trap.addFits (by simp only [Checksum.sumBytes, wordLimit]; omega)
    have whole : Trap.div (length + Checksum.sumBytes) chunkBytes =
        .ok ((length + Checksum.sumBytes) / chunkBytes) := Trap.divFits (Nat.succ_pos _)
    have one : Trap.add wordLimit ((length + Checksum.sumBytes) / chunkBytes) 1 =
        .ok ((length + Checksum.sumBytes) / chunkBytes + 1) :=
      Trap.addFits (by simp only [Checksum.sumBytes, chunkBytes, wordLimit]; omega)
    simp only [stream, whole, one, bind, Except.bind]
    by_cases even : (length + Checksum.sumBytes) % chunkBytes = 0
    · rw [if_pos even]
      simp only [Checksum.sumBytes, chunkBytes] at even ⊢
      exact congrArg Except.ok (by omega)
    · rw [if_neg even]
      simp only [Checksum.sumBytes, chunkBytes] at even ⊢
      exact congrArg Except.ok (by omega)

structure Tally where
  transmitted : Nat
  failed : Nat
  dropped : Nat
  deriving DecidableEq, Repr

def Tally.count (t : Tally) : Offer → Except Trap Tally
  | .accepted _ => do
    let transmitted ← Trap.add wordLimit t.transmitted 1
    .ok { t with transmitted }
  | .kept .. => do
    let failed ← Trap.add wordLimit t.failed 1
    .ok { t with failed }
  | .dropped .. => do
    let failed ← Trap.add wordLimit t.failed 1
    let dropped ← Trap.add wordLimit t.dropped 1
    .ok { t with failed, dropped }

def Drain.tally (d : Drain) : Except Trap Tally := d.offers.foldlM Tally.count ⟨0, 0, 0⟩

theorem tallyFrom (offers : List Offer) (remaining : Nat) (t : Tally)
    (room : max t.transmitted (max t.failed t.dropped) + offers.length < wordLimit) :
    offers.foldlM Tally.count t = .ok
      ⟨t.transmitted + (Drain.mk offers remaining).transmitted,
        t.failed + (Drain.mk offers remaining).failed,
        t.dropped + (Drain.mk offers remaining).dropped⟩ := by
  induction offers generalizing t with
  | nil => rfl
  | cons offer rest ih =>
    rw [List.length_cons] at room
    simp only [Drain.transmitted, Drain.sent, Drain.failed, Drain.dropped] at ih ⊢
    rw [List.foldlM_cons]
    cases offer with
    | accepted frame =>
      have one : Trap.add wordLimit t.transmitted 1 = .ok (t.transmitted + 1) := Trap.addFits (by omega)
      simp only [Tally.count, one, bind, Except.bind]
      rw [ih _ (by simp only; omega)]
      simp [Offer.sent?, Offer.isDropped, Nat.add_assoc, Nat.add_comm 1]
    | kept frame errors waiting =>
      have one : Trap.add wordLimit t.failed 1 = .ok (t.failed + 1) := Trap.addFits (by omega)
      simp only [Tally.count, one, bind, Except.bind]
      rw [ih _ (by simp only; omega)]
      simp [List.filterMap_cons, Offer.sent?, Offer.isDropped, Nat.add_assoc, Nat.add_comm 1]
    | dropped frame errors drops =>
      have one : Trap.add wordLimit t.failed 1 = .ok (t.failed + 1) := Trap.addFits (by omega)
      have two : Trap.add wordLimit t.dropped 1 = .ok (t.dropped + 1) := Trap.addFits (by omega)
      simp only [Tally.count, one, two, bind, Except.bind]
      rw [ih _ (by simp only; omega)]
      simp [List.filterMap_cons, List.countP_cons, Offer.sent?, Offer.isDropped, Nat.add_assoc,
        Nat.add_comm 1]

theorem tallyExact {d : Drain} (room : d.offers.length < wordLimit) :
    d.tally = .ok ⟨d.transmitted, d.failed, d.dropped⟩ := by
  obtain ⟨offers, remaining⟩ := d
  rw [Drain.tally, tallyFrom offers remaining ⟨0, 0, 0⟩ (by simpa using room)]
  simp only [Nat.zero_add]

namespace Outbox

def addChecked (q : Outbox) (t : Transfer) : Except Trap (Admission × Outbox) := do
  let payload ← t.bytesChecked
  let needed ← framesNeededChecked payload.length
  let available ← Trap.sub q.capacity q.frames.length
  let full := Admission.refused ⟨needed, available⟩
  if available < needed then .ok (full, { q with stats := q.stats.reject })
  else do
    let frames ← t.framesChecked q.source
    match q.push frames with
    | (filled, true) => .ok (.queued needed, filled)
    | (filled, false) => .ok (full, { filled with stats := filled.stats.reject })

def drainChecked (q : Outbox) (bus : Sink) : Except Trap (Drain × Outbox × Sink) := do
  let (drain, q, bus) := q.drain bus
  let _ ← drain.tally
  .ok (drain, q, bus)

structure Sized (q : Outbox) : Prop where
  fits : q.frames.length ≤ q.capacity
  word : q.capacity < wordLimit

theorem addExact {q : Outbox} (sized : q.Sized) (t : Transfer) : q.addChecked t = .ok (q.add t) := by
  have free : Trap.sub q.capacity q.frames.length = .ok q.available := Trap.subFits sized.fits
  simp only [addChecked, t.bytesExact, framesNeededExact t.fits, free, framesExact, bind, Except.bind,
    add]
  by_cases full : q.available < framesNeeded t.payload.length
  · rw [if_pos full, if_pos full]
  · rw [if_neg full, if_neg full]
    rcases q.push (t.frames q.source) with ⟨filled, whole⟩
    cases whole <;> rfl

theorem drainExact {q : Outbox} (sized : q.Sized) (bus : Sink) :
    q.drainChecked bus = .ok (q.drain bus) := by
  have few : (q.drain bus).1.offers.length ≤ q.frames.length := by
    obtain ⟨_, few, _⟩ := courseOffers (drainCourse q bus)
    exact few
  have tallied := tallyExact (Nat.lt_of_le_of_lt (Nat.le_trans few sized.fits) sized.word)
  simp only [drainChecked, tallied, bind, Except.bind]

theorem addSized {q : Outbox} (sized : q.Sized) (t : Transfer) : (q.add t).2.Sized := by
  have exchange := exchangeAdd q .willing t
  have capacity : (q.add t).2.capacity = q.capacity := exchange.capacity
  exact ⟨capacity ▸ exchange.room sized.fits, capacity ▸ sized.word⟩

theorem drainSized {q : Outbox} (sized : q.Sized) (bus : Sink) : (q.drain bus).2.1.Sized := by
  have exchange := exchangeDrain q bus
  have capacity : (q.drain bus).2.1.capacity = q.capacity := exchange.capacity
  exact ⟨capacity ▸ exchange.room sized.fits, capacity ▸ sized.word⟩

end Outbox

end Rangefinder.Bus
