import Rangefinder.Binary32
import Rangefinder.Bus.Identifier

/-! Messages of a fixed subject and size. A payload may be longer than the message, and the excess is
ignored. Numbers are written low byte first. A range reading is the simplest message: one binary
floating-point number of centimetres, NaN patterns included. -/
namespace Rangefinder

def littleEndian : Nat → Nat → List UInt8
  | 0, _ => []
  | count + 1, n => UInt8.ofNat n :: littleEndian count (n / 256)

def ofLittleEndian : List UInt8 → Nat
  | [] => 0
  | b :: bytes => b.toNat + 256 * ofLittleEndian bytes

@[simp] theorem littleEndianLength (count n : Nat) : (littleEndian count n).length = count := by
  induction count generalizing n with
  | zero => rfl
  | succ count ih => simp [littleEndian, ih]

theorem ofLittleEndianLittleEndian (count n : Nat) :
    ofLittleEndian (littleEndian count n) = n % Nat.pow 256 count := by
  induction count generalizing n with
  | zero => exact (Nat.mod_one n).symm
  | succ count ih =>
    have power : Nat.pow 256 (count + 1) = 256 * Nat.pow 256 count := Nat.mul_comm _ _
    rw [littleEndian, ofLittleEndian, ih, UInt8.toNat_ofNat', power, Nat.mod_mul]

theorem littleEndianOfLittleEndian (bytes : List UInt8) :
    littleEndian bytes.length (ofLittleEndian bytes) = bytes := by
  induction bytes with
  | nil => rfl
  | cons b bytes ih =>
    have bound := b.toNat_lt
    have quotient : (b.toNat + 256 * ofLittleEndian bytes) / 256 = ofLittleEndian bytes := by omega
    have low : UInt8.ofNat (b.toNat + 256 * ofLittleEndian bytes) = b := by
      apply UInt8.toNat_inj.mp
      simp only [UInt8.toNat_ofNat']
      omega
    simp only [ofLittleEndian, List.length_cons, littleEndian, quotient, ih, low]

namespace Message

inductive ReadError
  | length (expected actual : Nat)
  | malformed (field : String)
  deriving DecidableEq, Repr

def ReadError.message : ReadError → String
  | length expected actual => s!"Invalid data length -> expected: {expected}, actual: {actual}"
  | malformed field => s!"Malformed data in field {field}"

structure BufferTooSmall where
  needed : Nat
  available : Nat
  deriving DecidableEq, Repr

def BufferTooSmall.message (e : BufferTooSmall) : String :=
  s!"Buffer too small -> needed: {e.needed}, available: {e.available}"

/-- `ofBytes` is only asked about exactly `size` bytes. -/
class Layout (α : Type) where
  subject : Bus.SubjectId
  size : Nat
  toBytes : α → List UInt8
  ofBytes : List UInt8 → Except ReadError α

variable {α : Type} [Layout α]

def read (payload : List UInt8) : Except ReadError α :=
  if payload.length < Layout.size α then .error (.length (Layout.size α) payload.length)
  else Layout.ofBytes (payload.take (Layout.size α))

def write (message : α) (buffer : List UInt8) : Except BufferTooSmall Nat × List UInt8 :=
  if buffer.length < Layout.size α then (.error ⟨Layout.size α, buffer.length⟩, buffer)
  else (.ok (Layout.size α), Layout.toBytes message ++ buffer.drop (Layout.size α))

structure Distance where
  centimetres : Binary32
  deriving DecidableEq, Repr

namespace Distance

def zero : Distance := ⟨.zero⟩

instance : Layout Distance where
  subject := ⟨1610, by decide⟩
  size := 4
  toBytes d := littleEndian 4 d.centimetres.bits.toNat
  ofBytes bytes := .ok ⟨⟨UInt32.ofNat (ofLittleEndian bytes)⟩⟩

def equals (a b : Distance) : Bool := a.centimetres.equals b.centimetres

end Distance

end Message

end Rangefinder
