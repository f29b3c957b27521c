import Rangefinder.Time
import Rangefinder.Bus.Checksum
import Rangefinder.Bus.Frame

/-! A transfer, one message of at most 64 bytes, and its frames. A payload that fits one frame is sent
alone; a longer one is followed by its checksum, and the stream is cut into chunks of seven bytes.
Every chunk gets a tail byte: the first and the last are marked, and the toggle alternates from one. -/
namespace Rangefinder.Bus

def payloadLimit : Nat := 64

structure PayloadTooLarge where
  length : Nat
  deriving DecidableEq, Repr

def PayloadTooLarge.message (e : PayloadTooLarge) : String :=
  s!"Payload too large: {e.length} bytes, max {payloadLimit}"

@[ext] structure Transfer where
  priority : Priority
  subject : SubjectId
  transferId : TransferId
  payload : List UInt8
  fits : payload.length ≤ payloadLimit
  deriving DecidableEq, Repr

def Transfer.message? (priority : Priority) (subject : SubjectId) (transferId : TransferId)
    (payload : List UInt8) : Except PayloadTooLarge Transfer :=
  if h : payload.length ≤ payloadLimit then .ok ⟨priority, subject, transferId, payload, h⟩
  else .error ⟨payload.length⟩

def firstToggle : Bool := true

def framesNeeded (length : Nat) : Nat :=
  if length ≤ chunkBytes then 1
  else (length + Checksum.sumBytes + (chunkBytes - 1)) / chunkBytes

def framesNeeded? (length : Nat) : Except Overflow Nat :=
  if length ≤ chunkBytes then .ok 1
  else (inWord (length + Checksum.sumBytes)).map fun _ => framesNeeded length

def Transfer.stream (t : Transfer) : List UInt8 :=
  if t.payload.length ≤ chunkBytes then t.payload
  else t.payload ++ Checksum.toBytes (Checksum.ofBytes t.payload)

/-- The frames of a transfer still to come; `rest` is `none` once the last frame is out. -/
structure Segmenter where
  id : ArbitrationId
  transferId : TransferId
  rest : Option (List UInt8)
  starts : Bool
  toggle : Bool
  deriving DecidableEq, Repr

namespace Segmenter

def ofTransfer (t : Transfer) (source : NodeId) : Segmenter :=
  { id := .build t.priority t.subject source
    transferId := t.transferId
    rest := some t.stream
    starts := true
    toggle := firstToggle }

def next (s : Segmenter) : Option (Frame × Segmenter) :=
  s.rest.map fun stream =>
    let ends := decide (stream.length ≤ chunkBytes)
    let tail : TailByte := ⟨s.starts, ends, s.toggle, s.transferId⟩
    (Frame.fill s.id (stream.take chunkBytes ++ [tail.toByte]),
      { s with
        rest := if ends then none else some (stream.drop chunkBytes)
        starts := false
        toggle := !s.toggle })

def run : Nat → Segmenter → List Frame × Segmenter
  | 0, s => ([], s)
  | limit + 1, s =>
    match s.next with
    | none => ([], s)
    | some (frame, s) =>
      let (frames, s) := run limit s
      (frame :: frames, s)

/-- Every call of `next` but the last takes at least one byte, so this reaches the end. -/
def finish (s : Segmenter) : List Frame × Segmenter :=
  s.run ((s.rest.getD []).length + 1)

end Segmenter

def Transfer.frames (t : Transfer) (source : NodeId) : List Frame :=
  (Segmenter.ofTransfer t source).finish.1

end Rangefinder.Bus
