import Rangefinder.Proofs.Bus.Ledger

/-! A stream of frames read back. A receiver cuts it after each frame that ends a transfer and reads each
parcel by itself: the identifier and the number in its first frame, the bytes in all of them. The
frames of any transfers, one after the other, come back as these transfers; two lists of transfers
never make one stream. -/
namespace Rangefinder.Bus

namespace Frame

def starts (f : Frame) : Bool := f.tail?.any TailByte.starts

def ends (f : Frame) : Bool := f.tail?.any TailByte.ends

end Frame

structure Reception where
  parcels : List (List Frame)
  pending : List Frame
  deriving DecidableEq, Repr

def receive : List Frame → Reception
  | [] => ⟨[], []⟩
  | frame :: rest =>
    let later := receive rest
    if frame.ends then ⟨[frame] :: later.parcels, later.pending⟩
    else
      match later.parcels with
      | [] => ⟨[], frame :: later.pending⟩
      | parcel :: parcels => ⟨(frame :: parcel) :: parcels, later.pending⟩

inductive Parcelled : List Frame → Reception → Prop where
  | pending {frames} (unended : ∀ f ∈ frames, f.ends = false) : Parcelled frames ⟨[], frames⟩
  | parcel {front last rest later} (unended : ∀ f ∈ front, f.ends = false)
      (ends : last.ends = true) (parcelled : Parcelled rest later) :
      Parcelled (front ++ last :: rest) ⟨(front ++ [last]) :: later.parcels, later.pending⟩

theorem receiveParcelled (stream : List Frame) : Parcelled stream (receive stream) := by
  induction stream with
  | nil => exact .pending nofun
  | cons frame rest ih =>
    cases ends : frame.ends with
    | true =>
      rw [receive, if_pos ends]
      exact @Parcelled.parcel [] _ _ _ nofun ends ih
    | false =>
      rw [receive, if_neg (Bool.eq_false_iff.mp ends)]
      generalize receive rest = later at ih
      cases ih with
      | pending unended => exact .pending (List.forall_mem_cons.mpr ⟨ends, unended⟩)
      | @parcel front last _ _ unended closes parcelled =>
        have whole : ∀ f ∈ frame :: front, f.ends = false :=
          List.forall_mem_cons.mpr ⟨ends, unended⟩
        exact Parcelled.parcel whole closes parcelled

theorem receivePending {frames : List Frame} (unended : ∀ f ∈ frames, f.ends = false) :
    receive frames = ⟨[], frames⟩ := by
  induction frames with
  | nil => rfl
  | cons frame rest ih =>
    obtain ⟨first, others⟩ := List.forall_mem_cons.mp unended
    simp only [receive, first, ih others, Bool.false_eq_true, if_false]

theorem receiveParcel {front rest : List Frame} {last : Frame}
    (unended : ∀ f ∈ front, f.ends = false) (ends : last.ends = true) :
    receive (front ++ last :: rest) =
      ⟨(front ++ [last]) :: (receive rest).parcels, (receive rest).pending⟩ := by
  induction front with
  | nil => simp only [List.nil_append, receive, ends, if_true]
  | cons frame front ih =>
    obtain ⟨first, others⟩ := List.forall_mem_cons.mp unended
    simp only [List.cons_append, receive, first, ih others, Bool.false_eq_true, if_false]

theorem receiveExact {stream : List Frame} {r : Reception} :
    receive stream = r ↔ Parcelled stream r := by
  constructor
  · intro received
    rw [← received]
    exact receiveParcelled stream
  · intro parcelled
    induction parcelled with
    | pending unended => exact receivePending unended
    | parcel unended ends _ ih => rw [receiveParcel unended ends, ih]

theorem receiveAppend (front back : List Frame) :
    receive (front ++ back) =
      ⟨(receive front).parcels ++ (receive ((receive front).pending ++ back)).parcels,
        (receive ((receive front).pending ++ back)).pending⟩ := by
  have parcelled := receiveParcelled front
  generalize receive front = r at parcelled ⊢
  induction parcelled with
  | pending => rfl
  | parcel unended ends _ ih =>
    rw [List.append_assoc, List.cons_append, receiveParcel unended ends, ih, List.cons_append]

theorem receivePrefix {front stream : List Frame} (earlier : front <+: stream) :
    (receive front).parcels <+: (receive stream).parcels := by
  obtain ⟨back, rfl⟩ := earlier
  rw [receiveAppend]
  exact List.prefix_append _ _

def parcelPayload (parcel : List Frame) : List UInt8 :=
  let stream := parcel.flatMap Frame.transferBytes
  if parcel.length = 1 then stream else stream.take (stream.length - Checksum.sumBytes)

def readParcel? (parcel : List Frame) : Option (Transfer × NodeId) := do
  let first ← parcel.head?
  let tail ← first.tail?
  let transfer ← (Transfer.message? first.id.priority first.id.subject tail.transferId
    (parcelPayload parcel)).toOption
  some (transfer, first.id.source)

structure WellMarked (parcel : List Frame) : Prop where
  starts : ∃ first rest, parcel = first :: rest ∧ first.starts = true ∧
    ∀ f ∈ rest, f.starts = false
  ends : ∃ front last, parcel = front ++ [last] ∧ (∀ f ∈ front, f.ends = false) ∧
    last.ends = true

section
variable {t : Transfer} {source : NodeId} {frames : List Frame}

theorem segmentedLength (segmented : Segmented t source frames) :
    framesNeeded t.payload.length = frames.length := by
  have count := segmented.count
  rw [framesNeededFits t.fits] at count
  exact Except.ok.inj count

theorem segmentedMarks (segmented : Segmented t source frames) {i : Nat} {frame : Frame}
    (found : frames[i]? = some frame) :
    frame.starts = decide (i = 0) ∧ frame.ends = decide (i + 1 = frames.length) := by
  have tail := segmented.tails i frame found
  constructor
  · rw [Frame.starts, tail, Option.any_some]
  · rw [Frame.ends, tail, Option.any_some]

theorem segmentedMarked (segmented : Segmented t source frames) : WellMarked frames := by
  have positive : 0 < frames.length := segmentedLength segmented ▸ framesNeededPos _
  constructor
  case starts =>
    obtain ⟨first, rest, rfl⟩ := List.exists_cons_of_length_pos positive
    refine ⟨first, rest, rfl, (segmentedMarks segmented (i := 0) rfl).1, ?_⟩
    intro frame member
    obtain ⟨i, found⟩ := List.mem_iff_getElem?.mp member
    exact (segmentedMarks segmented (i := i + 1) found).1
  case ends =>
    obtain rfl | ⟨front, last, split⟩ := List.eq_nil_or_concat frames
    · exact absurd positive (Nat.lt_irrefl 0)
    · rw [List.concat_eq_append] at split
      subst split
      refine ⟨front, last, rfl, ?_, ?_⟩
      · intro frame member
        obtain ⟨i, before, found⟩ := List.mem_iff_getElem.mp member
        have marks := segmentedMarks segmented
          ((List.getElem?_append_left before).trans (List.getElem?_eq_some_iff.mpr ⟨before, found⟩))
        rw [marks.2, List.length_append, List.length_singleton]
        exact decide_eq_false (by omega)
      · rw [(segmentedMarks segmented List.getElem?_concat_length).2, List.length_append]
        exact decide_eq_true rfl

theorem segmentedPayload (segmented : Segmented t source frames) :
    parcelPayload frames = t.payload := by
  have single : frames.length = 1 ↔ t.payload.length ≤ chunkBytes := by
    rw [← segmentedLength segmented, framesNeededOne]
  rw [parcelPayload, segmented.bytes]
  by_cases short : t.payload.length ≤ chunkBytes
  · rw [if_pos (single.mpr short), if_pos short]
  · rw [if_neg (short ∘ single.mp), if_neg short, List.length_append]
    exact List.take_left' rfl

theorem segmentedRead (segmented : Segmented t source frames) :
    readParcel? frames = some (t, source) := by
  obtain ⟨first, rest, rfl⟩ : ∃ first rest, frames = first :: rest :=
    List.exists_cons_of_length_pos (segmentedLength segmented ▸ framesNeededPos _)
  have tail := segmented.tails 0 first rfl
  obtain ⟨priority, subject, sender⟩ := segmented.ids first List.mem_cons_self
  have message : Transfer.message? t.priority t.subject t.transferId t.payload = .ok t := dif_pos t.fits
  simp [readParcel?, tail, segmentedPayload segmented, priority, subject, sender, message,
    Except.toOption]

end

theorem streamParcelled (source : NodeId) (transfers : List Transfer) :
    Parcelled (transfers.flatMap (·.frames source)) ⟨transfers.map (·.frames source), []⟩ := by
  induction transfers with
  | nil => exact .pending nofun
  | cons t rest ih =>
    obtain ⟨front, last, frames, unended, ends⟩ := (segmentedMarked (framesSegmented t source)).ends
    rw [List.flatMap_cons, List.map_cons, frames, List.append_assoc]
    exact .parcel unended ends ih

theorem streamReceived (source : NodeId) (transfers : List Transfer) :
    receive (transfers.flatMap (·.frames source)) = ⟨transfers.map (·.frames source), []⟩ :=
  receiveExact.mpr (streamParcelled source transfers)

theorem streamRead (source : NodeId) (transfers : List Transfer) :
    (receive (transfers.flatMap (·.frames source))).parcels.map readParcel? =
      transfers.map fun t => some (t, source) := by
  rw [streamReceived, List.map_map]
  exact List.map_congr_left fun t _ => segmentedRead (framesSegmented t source)

theorem streamUnique {source source' : NodeId} {transfers transfers' : List Transfer}
    (same : transfers'.flatMap (·.frames source') = transfers.flatMap (·.frames source)) :
    transfers' = transfers ∧ (transfers' ≠ [] → source' = source) := by
  have read := streamRead source' transfers'
  rw [same, streamRead] at read
  have pairs : transfers'.map (·, source') = transfers.map (·, source) := by
    rw [← List.map_inj_right fun _ _ => Option.some.inj, List.map_map, List.map_map]
    exact read.symm
  constructor
  · simpa [Function.comp_def] using congrArg (List.map Prod.fst) pairs
  · intro some
    cases transfers' with
    | nil => exact absurd rfl some
    | cons t' rest' =>
      cases transfers with
      | nil => exact absurd pairs nofun
      | cons t rest =>
        rw [List.map_cons, List.map_cons] at pairs
        exact congrArg Prod.snd (List.head_eq_of_cons_eq pairs)

theorem streamDecoded (source : NodeId) (transfers : List Transfer) :
    let stream := transfers.flatMap (·.frames source)
    receive stream = ⟨transfers.map (·.frames source), []⟩ ∧
      (∀ parcel ∈ (receive stream).parcels, WellMarked parcel) ∧
      (receive stream).parcels.map readParcel? = transfers.map (fun t => some (t, source)) ∧
      (∀ source' transfers', transfers'.flatMap (·.frames source') = stream →
        transfers' = transfers ∧ (transfers' ≠ [] → source' = source)) ∧
      ∀ capacity bus calls, Outbox.Call.pop ∉ calls →
        let l := (Outbox.empty source .retry capacity).run bus calls
        l.transfers = transfers →
          (receive l.sent).parcels.map readParcel? <+: transfers.map (fun t => some (t, source)) ∧
          (l.outbox.frames = [] → l.sent = stream) := by
  intro stream
  have received : receive stream = ⟨transfers.map (·.frames source), []⟩ := streamReceived _ _
  refine ⟨received, ?_, streamRead source transfers, fun _ _ => streamUnique, ?_⟩
  · intro parcel member
    rw [received] at member
    obtain ⟨t, _, rfl⟩ := List.mem_map.mp member
    exact segmentedMarked (framesSegmented t source)
  · intro capacity bus calls popless l taken
    have exchange : Outbox.Exchange (.empty source .retry capacity) bus l := Outbox.exchangeRun _ _ _
    have order : l.sent ++ l.outbox.frames = stream := by
      rw [← Outbox.runRetry _ bus calls rfl popless, ← exchange.frames, taken]
      rfl
    constructor
    · rw [← streamRead]
      exact (receivePrefix ⟨l.outbox.frames, order⟩).map _
    · intro empty
      rwa [empty, List.append_nil] at order

end Rangefinder.Bus
