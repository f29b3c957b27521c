import Rangefinder.Bus.Segmentation

/-! The frames of a transfer against its stream. A cut says what each frame of a stream holds: the
segmenter yields exactly a cut and then nothing more, and from the frames of a transfer all of it
can be read back. -/
namespace Rangefinder.Bus

inductive Cut (id : ArbitrationId) (transferId : TransferId) :
    Bool → Bool → List UInt8 → List Frame → Prop where
  | last {starts toggle stream} (fits : stream.length ≤ chunkBytes) :
      Cut id transferId starts toggle stream
        [.fill id (stream ++ [(TailByte.mk starts true toggle transferId).toByte])]
  | more {starts toggle stream frames} (long : chunkBytes < stream.length)
      (rest : Cut id transferId false (!toggle) (stream.drop chunkBytes) frames) :
      Cut id transferId starts toggle stream
        (.fill id (stream.take chunkBytes ++
          [(TailByte.mk starts false toggle transferId).toByte]) :: frames)

theorem cutCount {id transferId starts toggle stream frames}
    (cut : Cut id transferId starts toggle stream frames) :
    frames.length = (stream.length - 1) / chunkBytes + 1 := by
  induction cut with
  | last fits =>
    simp only [chunkBytes] at fits ⊢
    simp only [List.length_singleton]
    omega
  | more long rest ih =>
    simp only [chunkBytes] at long ih ⊢
    rw [List.length_cons, ih, List.length_drop]
    omega

theorem cutBytes {id transferId starts toggle stream frames}
    (cut : Cut id transferId starts toggle stream frames) :
    frames.flatMap Frame.transferBytes = stream := by
  induction cut with
  | last fits => simp only [List.flatMap_singleton, Frame.transferBytesFill fits]
  | more long rest ih =>
    rw [List.flatMap_cons, ih, Frame.transferBytesFill (List.length_take_le _ _),
      List.take_append_drop]

theorem cutAt {id transferId starts toggle stream frames}
    (cut : Cut id transferId starts toggle stream frames) {i : Nat} {frame : Frame}
    (found : frames[i]? = some frame) :
    ∃ chunk : List UInt8, chunk.length ≤ chunkBytes ∧
      (i + 1 < frames.length → chunk.length = chunkBytes) ∧
      frame = .fill id (chunk ++ [(TailByte.mk (starts && decide (i = 0))
        (decide (i + 1 = frames.length)) (toggle == decide (i % 2 = 0)) transferId).toByte]) := by
  induction cut generalizing i with
  | @last starts toggle stream fits =>
    cases i with
    | zero =>
      cases Option.some.inj found
      refine ⟨stream, fits, ?_, ?_⟩
      · intro more
        simp at more
      · simp
    | succ i => simp at found
  | @more starts toggle stream frames long rest ih =>
    cases i with
    | zero =>
      cases Option.some.inj found
      have full : (stream.take chunkBytes).length = chunkBytes := List.length_take_of_le (Nat.le_of_lt long)
      have notLast : frames.length ≠ 0 := by
        rw [cutCount rest]
        exact Nat.succ_ne_zero _
      refine ⟨stream.take chunkBytes, Nat.le_of_eq full, fun _ => full, ?_⟩
      simp [notLast]
    | succ i =>
      obtain ⟨chunk, fits, full, same⟩ := ih found
      refine ⟨chunk, fits, ?_, ?_⟩
      · intro more
        exact full (by simpa using more)
      · have parity : ((!toggle) == decide (i % 2 = 0)) = (toggle == decide ((i + 1) % 2 = 0)) := by
          rcases Nat.mod_two_eq_zero_or_one i with even | odd
          · cases toggle <;> simp [even, Nat.add_mod]
          · cases toggle <;> simp [odd, Nat.add_mod]
        rw [same, parity]
        simp

namespace Segmenter

theorem nextEnded {s : Segmenter} (ended : s.rest = none) : s.next = none := by
  simp [next, ended]

theorem runEnded {s : Segmenter} (ended : s.next = none) (limit : Nat) : s.run limit = ([], s) := by
  cases limit with
  | zero => rfl
  | succ limit => simp [run, ended]

theorem runNext {s s' : Segmenter} {frame : Frame} (step : s.next = some (frame, s')) (limit : Nat) :
    s.run (limit + 1) = (frame :: (s'.run limit).1, (s'.run limit).2) := by
  simp [run, step]

theorem nextFill {s s' : Segmenter} {f : Frame} (step : s.next = some (f, s')) : s'.id = s.id ∧
    ∃ data : List UInt8, data ≠ [] ∧ data.length ≤ frameBytes ∧ f = .fill s.id data := by
  obtain ⟨stream, _, made⟩ := Option.map_eq_some_iff.mp step
  obtain ⟨rfl, rfl⟩ := Prod.mk.inj made
  refine ⟨rfl, _, ?_, ?_, rfl⟩
  · exact List.append_ne_nil_of_right_ne_nil _ (List.cons_ne_nil _ _)
  · rw [List.length_append, List.length_singleton]
    exact Nat.succ_le_succ (List.length_take_le _ _)

theorem runId (s : Segmenter) (calls : Nat) : (s.run calls).2.id = s.id := by
  induction calls generalizing s with
  | zero => rfl
  | succ calls ih =>
    cases step : s.next with
    | none => rw [runEnded step]
    | some pair => rw [runNext step, ih, (nextFill step).1]

theorem runCut {s : Segmenter} {stream : List UInt8} (waiting : s.rest = some stream) {limit : Nat}
    (enough : stream.length < limit) :
    (s.run limit).2.next = none ∧
      Cut s.id s.transferId s.starts s.toggle stream (s.run limit).1 := by
  induction limit generalizing s stream with
  | zero => omega
  | succ limit ih =>
    by_cases fits : stream.length ≤ chunkBytes
    · have step : s.next = some (.fill s.id (stream ++
          [(TailByte.mk s.starts true s.toggle s.transferId).toByte]),
          { s with rest := none, starts := false, toggle := !s.toggle }) := by
        simp [next, waiting, fits, List.take_of_length_le fits]
      rw [runNext step, runEnded (nextEnded rfl)]
      exact ⟨nextEnded rfl, .last fits⟩
    · have step : s.next = some (.fill s.id (stream.take chunkBytes ++
          [(TailByte.mk s.starts false s.toggle s.transferId).toByte]),
          { s with rest := some (stream.drop chunkBytes), starts := false, toggle := !s.toggle }) := by
        simp [next, waiting, fits]
      have shorter : (stream.drop chunkBytes).length < limit := by
        simp only [List.length_drop, chunkBytes] at fits ⊢
        omega
      obtain ⟨ended, cut⟩ := ih (s := { s with
        rest := some (stream.drop chunkBytes), starts := false, toggle := !s.toggle }) rfl shorter
      rw [runNext step]
      exact ⟨ended, .more (Nat.lt_of_not_le fits) cut⟩

theorem runPrefix {s : Segmenter} {limit : Nat} (ended : (s.run limit).2.next = none) (n : Nat) :
    (s.run n).1 = (s.run limit).1.take n ∧
      (s.run n).2.next.map Prod.fst = (s.run limit).1[n]? := by
  induction limit generalizing s n with
  | zero =>
    have halted : s.next = none := ended
    rw [runEnded halted]
    simp [run, halted]
  | succ limit ih =>
    cases step : s.next with
    | none =>
      rw [runEnded step, runEnded step]
      simp [step]
    | some pair =>
      obtain ⟨frame, s'⟩ := pair
      rw [runNext step] at ended ⊢
      cases n with
      | zero => simp [run, step]
      | succ n =>
        obtain ⟨front, rest⟩ := ih ended n
        rw [runNext step]
        simp [front, rest]

end Segmenter

theorem framesNeededFits {length : Nat} (fits : length ≤ payloadLimit) :
    framesNeeded? length = .ok (framesNeeded length) := by
  simp only [payloadLimit] at fits
  by_cases short : length ≤ chunkBytes
  · simp [framesNeeded?, framesNeeded, short]
  · have word : inWord (length + Checksum.sumBytes) = .ok (length + Checksum.sumBytes) :=
      inWordOk.mpr ⟨by simp only [Checksum.sumBytes, wordLimit]; omega, rfl⟩
    simp [framesNeeded?, short, word, Except.map]

theorem framesNeededOne {length : Nat} : framesNeeded length = 1 ↔ length ≤ chunkBytes := by
  by_cases short : length ≤ chunkBytes
  · simp [framesNeeded, short]
  · rw [framesNeeded, if_neg short]
    simp only [chunkBytes, Checksum.sumBytes] at short ⊢
    omega

theorem framesNeededPos (length : Nat) : 0 < framesNeeded length := by
  unfold framesNeeded
  split <;> simp only [chunkBytes, Checksum.sumBytes] at * <;> omega

structure Segmented (t : Transfer) (source : NodeId) (frames : List Frame) : Prop where
  count : framesNeeded? t.payload.length = .ok frames.length
  bytes : frames.flatMap Frame.transferBytes =
    if t.payload.length ≤ chunkBytes then t.payload
    else
      let crc := Checksum.ofBytes t.payload
      t.payload ++ [UInt8.ofNat (crc.toNat / 256), UInt8.ofNat crc.toNat]
  full : ∀ (i : Nat) (frame : Frame), frames[i]? = some frame → i + 1 < frames.length →
    frame.length = frameBytes
  last : ∀ frame, frames.getLast? = some frame → 1 ≤ frame.length ∧ frame.length ≤ frameBytes
  padding : ∀ frame ∈ frames, ∀ byte ∈ frame.buffer.drop frame.length, byte = 0
  tails : ∀ (i : Nat) (frame : Frame), frames[i]? = some frame → frame.tail? =
    some ⟨decide (i = 0), decide (i + 1 = frames.length), decide (i % 2 = 0), t.transferId⟩
  ids : ∀ frame ∈ frames, frame.id.priority = t.priority ∧ frame.id.subject = t.subject ∧
    frame.id.source = source

theorem streamCount (t : Transfer) :
    (t.stream.length - 1) / chunkBytes + 1 = framesNeeded t.payload.length := by
  unfold Transfer.stream framesNeeded
  split
  · simp only [chunkBytes] at *
    omega
  · rw [List.length_append, Checksum.toBytesLength]
    simp only [chunkBytes, Checksum.sumBytes] at *
    omega

theorem paddingZero {bytes : List UInt8} (fits : bytes.length ≤ frameBytes) {byte : UInt8}
    (member : byte ∈ (padded bytes).drop bytes.length) : byte = 0 := by
  rw [padded, List.take_of_length_le fits, List.drop_left] at member
  exact List.eq_of_mem_replicate member

theorem cutSegmented {t : Transfer} {source : NodeId} {frames : List Frame}
    (cut : Cut (.build t.priority t.subject source) t.transferId true firstToggle t.stream frames) :
    Segmented t source frames := by
  have shape : ∀ frame ∈ frames, ∃ data : List UInt8, 1 ≤ data.length ∧ data.length ≤ frameBytes ∧
      frame = .fill (.build t.priority t.subject source) data := by
    intro frame member
    obtain ⟨i, found⟩ := List.mem_iff_getElem?.mp member
    obtain ⟨chunk, fits, _, same⟩ := cutAt cut found
    refine ⟨_, ?_, ?_, same⟩
    · simp
    · rw [List.length_append, List.length_singleton]
      exact Nat.succ_le_succ fits
  constructor
  · rw [framesNeededFits t.fits, cutCount cut, streamCount]
  · rw [cutBytes cut]
    rfl
  · intro i frame found more
    obtain ⟨chunk, _, full, same⟩ := cutAt cut found
    rw [same]
    simp [Frame.fill, full more, chunkBytes, frameBytes]
  · intro frame found
    obtain ⟨data, some, fits, same⟩ := shape frame (List.mem_of_getLast? found)
    rw [same]
    exact ⟨some, fits⟩
  · intro frame member byte beyond
    obtain ⟨data, _, fits, same⟩ := shape frame member
    rw [same] at beyond
    exact paddingZero fits beyond
  · intro i frame found
    obtain ⟨chunk, fits, _, same⟩ := cutAt cut found
    rw [same, Frame.tailFill fits]
    simp [firstToggle]
  · intro frame member
    obtain ⟨data, _, _, same⟩ := shape frame member
    rw [same]
    exact ⟨ArbitrationId.priorityBuild _ _ _, ArbitrationId.subjectBuild _ _ _,
      ArbitrationId.sourceBuild _ _ _⟩

theorem framesCut (t : Transfer) (source : NodeId) :
    (Segmenter.ofTransfer t source).finish.2.next = none ∧
      Cut (.build t.priority t.subject source) t.transferId true firstToggle t.stream
        (t.frames source) :=
  Segmenter.runCut (s := .ofTransfer t source) rfl (Nat.lt_succ_self t.stream.length)

theorem framesStream (t : Transfer) (source : NodeId) :
    (t.frames source).flatMap Frame.transferBytes = t.stream := cutBytes (framesCut t source).2

theorem framesSingle {t : Transfer} (short : t.payload.length ≤ chunkBytes) (source : NodeId) :
    t.frames source = [.fill (.build t.priority t.subject source)
      (t.payload ++ [(TailByte.mk true true firstToggle t.transferId).toByte])] := by
  have stream : t.stream = t.payload := if_pos short
  have cut := (framesCut t source).2
  rw [stream] at cut
  generalize t.frames source = frames at cut ⊢
  cases cut with
  | last => rfl
  | more long => exact absurd short (Nat.not_le.mpr long)

theorem framesSegmented (t : Transfer) (source : NodeId) : Segmented t source (t.frames source) :=
  cutSegmented (framesCut t source).2

theorem framesLength (t : Transfer) (source : NodeId) :
    (t.frames source).length = framesNeeded t.payload.length := by
  have count := (framesSegmented t source).count
  rw [framesNeededFits t.fits] at count
  exact (Except.ok.inj count).symm

theorem segmentedUnique {t t' : Transfer} {source source' : NodeId} {frames : List Frame}
    (left : Segmented t source frames) (right : Segmented t' source' frames) :
    t = t' ∧ source = source' := by
  have count := left.count.trans right.count.symm
  rw [framesNeededFits t.fits, framesNeededFits t'.fits] at count
  have positive : 0 < frames.length := by
    have own := left.count
    rw [framesNeededFits t.fits] at own
    exact Except.ok.inj own ▸ framesNeededPos _
  obtain ⟨first, found⟩ : ∃ first, frames[0]? = some first := ⟨_, List.getElem?_eq_getElem positive⟩
  have member : first ∈ frames := List.mem_of_getElem? found
  have number : t.transferId = t'.transferId := by
    have tails := (left.tails 0 first found).symm.trans (right.tails 0 first found)
    exact congrArg TailByte.transferId (Option.some.inj tails)
  obtain ⟨priority, subject, sender⟩ := left.ids first member
  obtain ⟨priority', subject', sender'⟩ := right.ids first member
  have short : t.payload.length ≤ chunkBytes ↔ t'.payload.length ≤ chunkBytes := by
    rw [← framesNeededOne, ← framesNeededOne, Except.ok.inj count]
  have payload : t.payload = t'.payload := by
    have bytes := left.bytes.symm.trans right.bytes
    by_cases single : t.payload.length ≤ chunkBytes
    · rwa [if_pos single, if_pos (short.mp single)] at bytes
    · rw [if_neg single, if_neg (single ∘ short.mpr)] at bytes
      exact List.append_inj_left' bytes rfl
  exact ⟨Transfer.ext (priority.symm.trans priority') (subject.symm.trans subject') number payload,
    sender.symm.trans sender'⟩

theorem transferSegmentation (t : Transfer) (source : NodeId) :
    Segmented t source (t.frames source) ∧
      (∀ n, ((Segmenter.ofTransfer t source).run n).1 = (t.frames source).take n ∧
        ((Segmenter.ofTransfer t source).run n).2.next.map Prod.fst = (t.frames source)[n]?) ∧
      ∀ t' source', t'.frames source' = t.frames source → t' = t ∧ source' = source := by
  refine ⟨framesSegmented t source, ?_, ?_⟩
  · intro n
    exact Segmenter.runPrefix (framesCut t source).1 n
  · intro t' source' same
    exact segmentedUnique (same ▸ framesSegmented t' source') (framesSegmented t source)

end Rangefinder.Bus
