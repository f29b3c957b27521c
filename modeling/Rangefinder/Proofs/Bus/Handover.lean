import Rangefinder.Proofs.Bus.Arbitration
import Rangefinder.Proofs.Bus.Segmentation

/-! Frames handed to a driver and taken back. A driver gets the address of a frame and the bytes in use, so
that a frame comes back as it was exactly if there is nothing else in it. Every frame that the
segmenter yields or that was taken from a driver is of this kind. -/
namespace Rangefinder.Bus
open ArbitrationId (words29)

structure DriverIds.Exact {Held : Type} (driver : DriverIds Held) : Prop extends driver.Faithful where
  within : ∀ held, (driver.word held).toNat < 2 ^ 29

theorem words29Exact : words29.Exact where
  toFaithful := ArbitrationId.words29Faithful
  within held := by
    have fits := held.fits
    simp only [words29, UInt32.toNat_ofNat']
    omega

inductive DriverAddress (Short Held : Type) where
  | standard (id : Short)
  | extended (id : Held)
  deriving DecidableEq, Repr

def Address.driver : Address → DriverAddress (Field 2047) (Field 536870911)
  | standard value => .standard value
  | extended value => .extended value

def putAll (buffer : List UInt8) (slot : Nat) : List UInt8 → List UInt8
  | [] => buffer
  | byte :: bytes => putAll (buffer.set slot byte) (slot + 1) bytes

theorem putAllBehind {front back bytes : List UInt8} (room : bytes.length ≤ back.length) :
    putAll (front ++ back) front.length bytes = front ++ bytes ++ back.drop bytes.length := by
  induction bytes generalizing front back with
  | nil => simp [putAll]
  | cons byte bytes ih =>
    obtain ⟨old, back, rfl⟩ := List.exists_cons_of_length_pos (Nat.zero_lt_of_lt room)
    have set : (front ++ old :: back).set front.length byte = front ++ [byte] ++ back := by simp
    have next : front.length + 1 = (front ++ [byte]).length := by simp
    rw [putAll, set, next, ih (Nat.le_of_succ_le_succ room)]
    simp

theorem putAllBlank {bytes : List UInt8} (fits : bytes.length ≤ frameBytes) :
    putAll (List.replicate frameBytes 0) 0 bytes = padded bytes := by
  have room : bytes.length ≤ (List.replicate frameBytes (0 : UInt8)).length := by
    rwa [List.length_replicate]
  calc putAll ([] ++ List.replicate frameBytes 0) 0 bytes
      = [] ++ bytes ++ (List.replicate frameBytes 0).drop bytes.length := putAllBehind room
    _ = padded bytes := by
      rw [List.nil_append, List.drop_replicate, padded, List.take_of_length_le fits]

namespace Frame

def toDriver (Short : Type) {Held : Type} (driver : DriverIds Held) (f : Frame) :
    DriverAddress Short Held × List UInt8 := (.extended (f.id.held driver), f.bytes)

def ofDriver? {Short Held : Type} (driver : DriverIds Held) :
    DriverAddress Short Held × List UInt8 → Option Frame
  | (.standard _, _) => none
  | (.extended id, data) =>
    if data.length ≤ frameBytes then some (fill ⟨driver.word id⟩ data) else none

theorem ofAddressDriver (address : Address) (data : List UInt8) :
    ofAddress? address data = ofDriver? words29 (address.driver, data) := by
  cases address <;> rfl

theorem toDriverAddress (f : Frame) :
    f.toDriver (Field 2047) words29 = (f.address.driver, f.bytes) := by
  have mask : f.id.raw.toNat &&& 536870911 = f.id.raw.toNat % 536870912 :=
    Nat.and_two_pow_sub_one_eq_mod _ 29
  have below : f.id.raw.toNat % 536870912 ≤ 536870911 := by omega
  simp [toDriver, address, Address.driver, ArbitrationId.held, words29, Field.ofNat?,
    Field.truncate, mask, below]

structure Clean (f : Frame) : Prop where
  address : f.id.raw.toNat < 2 ^ 29
  length : f.length ≤ frameBytes
  padding : ∀ byte ∈ f.buffer.drop f.length, byte = 0

theorem bytesLength (f : Frame) : f.bytes.length = min f.length frameBytes := by
  rw [bytes, List.length_take, f.full]

theorem lengthExactly (f : Frame) : f.bytes.length = f.length ↔ f.length ≤ frameBytes := by
  rw [bytesLength, min_eq_left_iff]

theorem bytesShort (f : Frame) : f.bytes.length ≤ frameBytes := bytesLength f ▸ Nat.min_le_right _ _

theorem paddedExactly (f : Frame) :
    padded f.bytes = f.buffer ↔ ∀ byte ∈ f.buffer.drop f.length, byte = 0 := by
  have gap : (f.buffer.drop f.length).length = frameBytes - f.bytes.length := by
    rw [List.length_drop, f.full, bytesLength]
    omega
  have parts : f.bytes ++ f.buffer.drop f.length = f.buffer := List.take_append_drop _ _
  have zeros : padded f.bytes = f.bytes ++ List.replicate (frameBytes - f.bytes.length) 0 := by
    rw [padded, List.take_of_length_le (bytesShort f)]
  calc padded f.bytes = f.buffer
      ↔ f.bytes ++ f.buffer.drop f.length =
          f.bytes ++ List.replicate (frameBytes - f.bytes.length) 0 := by rw [parts, zeros, eq_comm]
    _ ↔ ∀ byte ∈ f.buffer.drop f.length, byte = 0 := by
      rw [List.append_right_inj, List.eq_replicate_iff, and_iff_right gap]

theorem cleanExactly (f : Frame) : fill f.id.extended f.bytes = f ↔ f.Clean := by
  rw [Frame.ext_iff]
  simp only [fill]
  rw [ArbitrationId.extendedExactly, paddedExactly, lengthExactly]
  constructor
  · rintro ⟨address, padding, length⟩
    exact ⟨address, length, padding⟩
  · intro clean
    exact ⟨clean.address, clean.padding, clean.length⟩

theorem fillClean {id : ArbitrationId} {data : List UInt8} (address : id.raw.toNat < 2 ^ 29)
    (fits : data.length ≤ frameBytes) : (fill id data).Clean where
  address := address
  length := fits
  padding _ := paddingZero fits

theorem bytesTail (f : Frame) : f.bytes = [] ∨
    ∃ tail, f.tail? = some tail ∧ f.bytes = f.transferBytes ++ [tail.toByte] := by
  rcases List.eq_nil_or_concat f.bytes with empty | ⟨front, last, split⟩
  · exact .inl empty
  · refine .inr ⟨.ofByte last, ?_, ?_⟩
    · simp [tail?, split]
    · simp [transferBytes, split, TailByte.toByteOfByte]

section
variable {Short Held : Type} {driver : DriverIds Held}

theorem ofDriverSome (id : DriverAddress Short Held) (data : List UInt8) :
    (ofDriver? driver (id, data)).isSome = true ↔
      (∃ held, id = .extended held) ∧ data.length ≤ frameBytes := by
  cases id with
  | standard id => simp [ofDriver?]
  | extended id => simp [ofDriver?]

theorem ofDriverClean (exact : driver.Exact) {id : DriverAddress Short Held} {data : List UInt8}
    {f : Frame} (made : ofDriver? driver (id, data) = some f) : f.Clean ∧ f.bytes = data := by
  cases id with
  | standard id => cases made
  | extended id =>
    simp only [ofDriver?] at made
    split at made
    case isTrue fits =>
      obtain rfl := Option.some.inj made
      exact ⟨fillClean (exact.within id) fits, bytesFill fits⟩
    case isFalse => cases made

theorem ofDriverToDriver (faithful : driver.Faithful) (f : Frame) :
    ofDriver? driver (f.toDriver Short driver) = some (fill f.id.extended f.bytes) := by
  simp only [toDriver, ofDriver?, if_pos (bytesShort f), ArbitrationId.heldWord faithful]

theorem survivesExactly (faithful : driver.Faithful) (f : Frame) :
    ofDriver? driver (f.toDriver Short driver) = some f ↔ f.Clean := by
  rw [ofDriverToDriver faithful, Option.some.injEq, cleanExactly]

end

example : let f : Frame := ⟨⟨5⟩, [1, 2, 3, 0, 0, 0, 0, 9], 3, rfl⟩
    ofDriver? words29 (f.toDriver (Field 2047) words29) ≠ some f := by
  decide

/-- A driver gives it back unchanged, and sees in it all that its length and its tail byte say. -/
structure Intact (Short : Type) {Held : Type} (driver : DriverIds Held) (f : Frame) : Prop where
  back : ofDriver? driver (f.toDriver Short driver) = some f
  length : f.length = f.bytes.length
  buffer : f.buffer = putAll (List.replicate 8 0) 0 f.bytes
  tail : f.bytes = [] ∨ ∃ tail, f.tail? = some tail ∧ f.bytes = f.transferBytes ++ [tail.toByte]

theorem cleanIntact (Short : Type) {Held : Type} {driver : DriverIds Held}
    (faithful : driver.Faithful) {f : Frame} (clean : f.Clean) : f.Intact Short driver where
  back := (survivesExactly faithful f).mpr clean
  length := (lengthExactly f).mpr clean.length |>.symm
  buffer := ((putAllBlank (bytesShort f)).trans ((paddedExactly f).mpr clean.padding)).symm
  tail := bytesTail f

end Frame

namespace Segmenter

theorem nextClean {s s' : Segmenter} {calls : Nat} {f : Frame} (address : s.id.raw.toNat < 2 ^ 29)
    (step : (s.run calls).2.next = some (f, s')) : f.Clean ∧ f.bytes ≠ [] := by
  obtain ⟨_, data, some, fits, rfl⟩ := nextFill step
  rw [← runId s calls] at address
  refine ⟨Frame.fillClean address fits, ?_⟩
  rw [Frame.bytesFill fits]
  exact some

end Segmenter

namespace Frame

theorem framesReturn (Short Held : Type) (driver : DriverIds Held) (exact : driver.Exact) :
    (∀ (id : DriverAddress Short Held) (data : List UInt8),
      ((ofDriver? driver (id, data)).isSome = true ↔
        (∃ held, id = .extended held) ∧ data.length ≤ 8) ∧
      ∀ f, ofDriver? driver (id, data) = some f → f.bytes = data ∧ f.Intact Short driver) ∧
    (∀ (t : Transfer) (source : NodeId) (calls : Nat) (f : Frame) (later : Segmenter),
      ((Segmenter.ofTransfer t source).run calls).2.next = some (f, later) →
        f.bytes ≠ [] ∧ f.Intact Short driver) ∧
    (∀ f : Frame, ofDriver? driver (f.toDriver Short driver) = some f ↔ f.Clean) ∧
    (∀ address data, ofAddress? address data = ofDriver? words29 (address.driver, data)) ∧
    ∀ f : Frame, (f.address.driver, f.bytes) = f.toDriver (Field 2047) words29 := by
  refine ⟨?_, ?_, survivesExactly exact.toFaithful, ofAddressDriver, fun f => (toDriverAddress f).symm⟩
  · intro id data
    refine ⟨ofDriverSome id data, ?_⟩
    intro f made
    obtain ⟨clean, bytes⟩ := ofDriverClean exact made
    exact ⟨bytes, cleanIntact Short exact.toFaithful clean⟩
  · intro t source calls f later step
    have address : (Segmenter.ofTransfer t source).id.raw.toNat < 2 ^ 29 :=
      ArbitrationId.belowBuild t.priority t.subject source
    obtain ⟨clean, some⟩ := Segmenter.nextClean address step
    exact ⟨some, cleanIntact Short exact.toFaithful clean⟩

def eightBytes : Transfer :=
  ⟨.nominal, .truncate 1610, .truncate 3, [1, 2, 3, 4, 5, 6, 7, 8], by decide⟩

theorem lastFrameReturns : words29.Exact ∧ ∃ f later,
    ((Segmenter.ofTransfer eightBytes (.truncate 42)).run 1).2.next = some (f, later) ∧
      f.length = 4 ∧ f.bytes ≠ [] ∧ f.Intact (Field 2047) words29 := by
  refine ⟨words29Exact, _, _, rfl, rfl, ?_⟩
  exact (framesReturn (Field 2047) (Field 536870911) words29 words29Exact).2.1 eightBytes
    (.truncate 42) 1 _ _ rfl

end Frame

end Rangefinder.Bus
