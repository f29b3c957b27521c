import Rangefinder.Message.Basic
import Rangefinder.Message.Heartbeat

/-! Messages against their bytes. In a canonical layout a message is read back from its own bytes, whatever
follows them, and nothing else is read as this message. All that a message may lose on the way is
what `narrow` takes from it. -/
namespace Rangefinder.Message

theorem ofLittleEndianLt (bytes : List UInt8) : ofLittleEndian bytes < Nat.pow 256 bytes.length :=
  calc ofLittleEndian bytes
      = ofLittleEndian (littleEndian bytes.length (ofLittleEndian bytes)) := by
        rw [littleEndianOfLittleEndian]
    _ = ofLittleEndian bytes % Nat.pow 256 bytes.length := ofLittleEndianLittleEndian _ _
    _ < Nat.pow 256 bytes.length := Nat.mod_lt _ (Nat.pow_pos (by decide))

theorem wordLittleEndian (word : UInt32) :
    UInt32.ofNat (ofLittleEndian (littleEndian 4 word.toNat)) = word := by
  rw [ofLittleEndianLittleEndian, Nat.mod_eq_of_lt word.toNat_lt]
  exact UInt32.ofNat_toNat

theorem littleEndianWord {bytes : List UInt8} (four : bytes.length = 4) :
    littleEndian 4 (UInt32.ofNat (ofLittleEndian bytes)).toNat = bytes := by
  have bound := ofLittleEndianLt bytes
  rw [four] at bound
  have word : (UInt32.ofNat (ofLittleEndian bytes)).toNat = ofLittleEndian bytes :=
    Nat.mod_eq_of_lt bound
  rw [word, ← four, littleEndianOfLittleEndian]

section
variable {α : Type} [Layout α] {payload : List UInt8}

theorem readShort (short : payload.length < Layout.size α) :
    read (α := α) payload = .error (.length (Layout.size α) payload.length) := if_pos short

theorem readLong (long : Layout.size α ≤ payload.length) :
    read (α := α) payload = Layout.ofBytes (payload.take (Layout.size α)) :=
  if_neg (Nat.not_lt.mpr long)

theorem writeShort (message : α) (short : payload.length < Layout.size α) :
    write message payload = (.error ⟨Layout.size α, payload.length⟩, payload) := if_pos short

theorem writeLong (message : α) (long : Layout.size α ≤ payload.length) : write message payload =
    (.ok (Layout.size α), Layout.toBytes message ++ payload.drop (Layout.size α)) :=
  if_neg (Nat.not_lt.mpr long)

/-- A message is read from its own bytes as `narrow` leaves it, and bytes that are read are those of the
message. -/
structure Layout.Canonical (α : Type) [Layout α] (narrow : α → α) : Prop where
  size : ∀ message : α, (Layout.toBytes message).length = Layout.size α
  back : ∀ message : α, Layout.ofBytes (Layout.toBytes message) = .ok (narrow message)
  forth : ∀ (bytes : List UInt8) (message : α), bytes.length = Layout.size α →
    Layout.ofBytes bytes = .ok message → Layout.toBytes message = bytes

end

namespace Layout.Canonical

variable {α : Type} [Layout α] {narrow : α → α} (canonical : Canonical α narrow)
include canonical

theorem readBytes (message : α) (rest : List UInt8) :
    read (toBytes message ++ rest) = .ok (narrow message) := by
  have long : Layout.size α ≤ (toBytes message ++ rest).length := by
    rw [List.length_append, canonical.size]
    exact Nat.le_add_right _ _
  rw [readLong long, List.take_left' (canonical.size message), canonical.back]

theorem bytesNarrow (message : α) : toBytes (narrow message) = toBytes message :=
  canonical.forth _ _ (canonical.size message) (canonical.back message)

theorem sameBytes (message other : α) :
    toBytes message = toBytes other ↔ narrow message = narrow other := by
  constructor
  · intro same
    have read := canonical.back message
    rw [same, canonical.back] at read
    exact (Except.ok.inj read).symm
  · intro same
    rw [← canonical.bytesNarrow, same, canonical.bytesNarrow]

theorem readExactly {payload : List UInt8} {message : α} :
    read payload = .ok message ↔
      toBytes message = payload.take (Layout.size α) ∧ narrow message = message := by
  constructor
  · intro made
    rcases Nat.lt_or_ge payload.length (Layout.size α) with short | long
    · rw [readShort short] at made
      cases made
    · rw [readLong long] at made
      have own := canonical.forth _ _ (List.length_take_of_le long) made
      rw [← own, canonical.back] at made
      exact ⟨own, Except.ok.inj made⟩
  · intro ⟨own, whole⟩
    rw [← List.take_append_drop (Layout.size α) payload, ← own, canonical.readBytes, whole]

theorem writeLength (message : α) (buffer : List UInt8) :
    (write message buffer).2.length = buffer.length := by
  rcases Nat.lt_or_ge buffer.length (Layout.size α) with short | long
  · rw [writeShort message short]
  · rw [writeLong message long, List.length_append, canonical.size, List.length_drop]
    exact Nat.add_sub_of_le long

theorem writeFront (message : α) {buffer : List UInt8} (room : Layout.size α ≤ buffer.length) :
    let after := (write message buffer).2
    after.take (Layout.size α) = toBytes message ∧
      after.drop (Layout.size α) = buffer.drop (Layout.size α) ∧ read after = .ok (narrow message) := by
  intro after
  have written : after = toBytes message ++ buffer.drop (Layout.size α) :=
    congrArg Prod.snd (writeLong message room)
  rw [written]
  exact ⟨List.take_left' (canonical.size message), List.drop_left' (canonical.size message),
    canonical.readBytes message _⟩

end Layout.Canonical

theorem distanceCanonical : Layout.Canonical Distance id where
  size _ := littleEndianLength _ _
  back _ := congrArg (fun bits => Except.ok (Distance.mk ⟨bits⟩)) (wordLittleEndian _)
  forth bytes d four made := by
    cases made
    exact littleEndianWord four

theorem distanceRead (d : Distance) (rest : List UInt8) :
    read (Layout.toBytes d ++ rest) = .ok d := distanceCanonical.readBytes d rest

theorem Health.ofCodeCode (h : Health) : ofCode h.code = h := by cases h <;> rfl

theorem Mode.ofCodeCode (m : Mode) : ofCode? m.code = some m := by cases m <;> rfl

theorem Health.ofCodeMod (raw : Nat) : ofCode (raw % 4) = ofCode raw := by
  unfold ofCode
  rw [Nat.mod_mod]

theorem Mode.ofCodeMod (raw : Nat) : ofCode? (raw % 8) = ofCode? raw := by
  unfold ofCode?
  rw [Nat.mod_mod]

namespace Heartbeat

def narrow (h : Heartbeat) : Heartbeat :=
  { h with vendorCode := UInt32.ofNat (h.vendorCode.toNat % 524288) }

theorem statusFields (h : Heartbeat) : h.status % 4 = h.health.code ∧
    h.status / 4 % 8 = h.mode.code ∧ h.status / 32 = h.vendorCode.toNat % 524288 := by
  have health := h.health.codeLt
  have mode := h.mode.codeLt
  simp only [status]
  omega

theorem statusLt (h : Heartbeat) : h.status < 16777216 := by
  have health := h.health.codeLt
  have mode := h.mode.codeLt
  simp only [status]
  omega

theorem statusOfFields {raw : Nat} (fits : raw < 16777216) {mode : Mode}
    (found : Mode.ofCode? (raw / 4) = some mode) (uptime : UInt32) :
    status ⟨uptime, .ofCode raw, mode, UInt32.ofNat (raw / 32)⟩ = raw := by
  have code := Mode.codeOfCode found
  simp only [status, Health.codeOfCode, code, UInt32.toNat_ofNat']
  omega

theorem ofBytesToBytes (h : Heartbeat) : Layout.ofBytes (Layout.toBytes h) = .ok h.narrow := by
  have status : ofLittleEndian (littleEndian 3 h.status) = h.status := by
    rw [ofLittleEndianLittleEndian]
    exact Nat.mod_eq_of_lt h.statusLt
  obtain ⟨low, middle, high⟩ := h.statusFields
  simp only [Layout.ofBytes, Layout.toBytes]
  rw [List.drop_left' (littleEndianLength _ _), List.take_left' (littleEndianLength _ _), status,
    wordLittleEndian, ← Mode.ofCodeMod, middle, Mode.ofCodeCode, ← Health.ofCodeMod, low,
    Health.ofCodeCode, high]
  rfl

theorem toBytesOfBytes {bytes : List UInt8} {h : Heartbeat} (seven : bytes.length = 7)
    (made : Layout.ofBytes bytes = .ok h) : Layout.toBytes h = bytes := by
  have front : (bytes.take 4).length = 4 := by simp [seven]
  have back : (bytes.drop 4).length = 3 := by simp [seven]
  have fits := ofLittleEndianLt (bytes.drop 4)
  rw [back] at fits
  simp only [Layout.ofBytes] at made
  split at made
  case h_1 => cases made
  case h_2 mode found =>
    obtain rfl := Except.ok.inj made
    calc littleEndian 4 (UInt32.ofNat (ofLittleEndian (bytes.take 4))).toNat ++
          littleEndian 3 (status _)
        = bytes.take 4 ++ littleEndian 3 (ofLittleEndian (bytes.drop 4)) := by
          rw [littleEndianWord front, statusOfFields fits found]
      _ = bytes.take 4 ++ bytes.drop 4 := by rw [← back, littleEndianOfLittleEndian]
      _ = bytes := List.take_append_drop 4 bytes

end Heartbeat

theorem heartbeatCanonical : Layout.Canonical Heartbeat Heartbeat.narrow where
  size h := by simp [Layout.toBytes, Layout.size]
  back := Heartbeat.ofBytesToBytes
  forth _ _ := Heartbeat.toBytesOfBytes

theorem heartbeatRead (h : Heartbeat) (rest : List UInt8) :
    read (Layout.toBytes h ++ rest) = .ok h.narrow := heartbeatCanonical.readBytes h rest

end Rangefinder.Message
