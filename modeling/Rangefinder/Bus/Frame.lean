import Rangefinder.Bus.ArbitrationId

/-! One frame of the bus: an identifier, a buffer of eight bytes and the number of bytes in use, the
last of which is the tail byte. Drivers exchange frames as an address with at most eight bytes;
remote frames and the short standard addresses carry no transfer and are refused. -/
namespace Rangefinder.Bus

def frameBytes : Nat := 8

def chunkBytes : Nat := 7

structure TailByte where
  starts : Bool
  ends : Bool
  toggle : Bool
  transferId : TransferId
  deriving DecidableEq, Repr

namespace TailByte

def toByte (t : TailByte) : UInt8 :=
  UInt8.ofNat
    (t.starts.toNat * 128 + t.ends.toNat * 64 + t.toggle.toNat * 32 + t.transferId.val)

def ofByte (b : UInt8) : TailByte :=
  ⟨b.toNat.testBit 7, b.toNat.testBit 6, b.toNat.testBit 5, .truncate b.toNat⟩

theorem ofByteToByte (t : TailByte) : ofByte t.toByte = t := by
  obtain ⟨starts, ends, toggle, id⟩ := t
  have bound := id.fits
  have value : (toByte ⟨starts, ends, toggle, id⟩).toNat =
      starts.toNat * 128 + ends.toNat * 64 + toggle.toNat * 32 + id.val := by
    simp only [toByte, UInt8.toNat_ofNat']
    cases starts <;> cases ends <;> cases toggle <;> simp <;> omega
  simp only [ofByte, value, TailByte.mk.injEq, Nat.testBit_eq_decide_div_mod_eq]
  refine ⟨?_, ?_, ?_, Field.ext ?_⟩ <;>
    cases starts <;> cases ends <;> cases toggle <;> simp <;> omega

theorem toByteOfByte (b : UInt8) : (ofByte b).toByte = b := by
  have bound := b.toNat_lt
  apply UInt8.toNat_inj.mp
  simp only [toByte, ofByte, UInt8.toNat_ofNat', Nat.toNat_testBit, Field.valTruncate]
  omega

end TailByte

@[ext] structure Frame where
  id : ArbitrationId
  buffer : List UInt8
  length : Nat
  full : buffer.length = frameBytes
  deriving DecidableEq, Repr

def padded (bytes : List UInt8) : List UInt8 :=
  bytes.take frameBytes ++ List.replicate (frameBytes - bytes.length) 0

theorem paddedLength (bytes : List UInt8) : (padded bytes).length = frameBytes := by
  simp [padded]
  omega

theorem paddedTake {bytes : List UInt8} (fits : bytes.length ≤ frameBytes) :
    (padded bytes).take bytes.length = bytes := by
  simp [padded, List.take_of_length_le fits]

inductive Address
  | standard (value : Field 2047)
  | extended (value : Field 536870911)
  deriving DecidableEq, Repr

namespace Address

def value : Address → Nat
  | standard v => v.val
  | extended v => v.val

def standard? (raw : Nat) : Option Address :=
  (Field.ofNat? raw).map standard

def extended? (raw : Nat) : Option Address :=
  (Field.ofNat? raw).map extended

end Address

namespace Frame

def fill (id : ArbitrationId) (bytes : List UInt8) : Frame :=
  ⟨id, padded bytes, bytes.length, paddedLength bytes⟩

def bytes (f : Frame) : List UInt8 := f.buffer.take f.length

def tail? (f : Frame) : Option TailByte := f.bytes.getLast?.map .ofByte

def transferBytes (f : Frame) : List UInt8 := f.bytes.dropLast

def address (f : Frame) : Address := .extended (.truncate f.id.raw.toNat)

def isExtended (f : Frame) : Bool :=
  match f.address with
  | .extended _ => true
  | .standard _ => false

def ofAddress? : Address → List UInt8 → Option Frame
  | .standard _, _ => none
  | .extended value, data =>
    if data.length ≤ frameBytes then some (fill ⟨UInt32.ofNat value.val⟩ data) else none

def remote? (_ : Address) (_ : Nat) : Option Frame := none

theorem bytesFill {id data} (fits : data.length ≤ frameBytes) : (fill id data).bytes = data :=
  paddedTake fits

theorem transferBytesFill {id chunk tail} (fits : chunk.length ≤ chunkBytes) :
    (fill id (chunk ++ [tail])).transferBytes = chunk := by
  rw [transferBytes, bytesFill]
  · simp
  · simp only [List.length_append, List.length_singleton]
    exact Nat.succ_le_succ fits

theorem tailFill {id chunk} {tail : TailByte} (fits : chunk.length ≤ chunkBytes) :
    (fill id (chunk ++ [tail.toByte])).tail? = some tail := by
  rw [tail?, bytesFill]
  · simp [TailByte.ofByteToByte]
  · simp only [List.length_append, List.length_singleton]
    exact Nat.succ_le_succ fits

end Frame

end Rangefinder.Bus
