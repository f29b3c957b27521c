import Mathlib.Data.Set.Function
import Rangefinder.Proofs.Bus.Bits
import Rangefinder.Proofs.Message.Codec

/-! Heartbeats against all payloads. Seven bytes whose mode is not reserved say one heartbeat with a vendor's
code of nineteen bits, and each of these heartbeats has such bytes: nothing else is lost, refused or
read twice. -/
namespace Rangefinder.Message

theorem Mode.reservedExactly (raw : Nat) : ofCode? raw = none ↔ raw % 8 ∈ [4, 5, 6] := by
  have bound : raw % 8 < 8 := Nat.mod_lt _ (by decide)
  unfold ofCode?
  generalize raw % 8 = r at bound ⊢
  match r, bound with
  | 0, _ | 1, _ | 2, _ | 3, _ | 4, _ | 5, _ | 6, _ | 7, _ => simp

namespace Heartbeat

def Reserved (payload : List UInt8) : Prop :=
  (payload.getD 4 0 >>> 2 &&& 0x7).toNat ∈ [4, 5, 6]

/-! The same bytes by shifts and masks of machine words. -/
namespace Word

def pack (health mode : UInt8) (vendor : UInt32) : UInt32 :=
  health.toUInt32 ||| mode.toUInt32 <<< 2 ||| (vendor &&& 0x7ffff) <<< 5

def health (packed : UInt32) : UInt8 := packed.toUInt8 &&& 0x3

def mode (packed : UInt32) : UInt8 := (packed >>> 2).toUInt8 &&& 0x7

def vendor (packed : UInt32) : UInt32 := packed >>> 5

def toBytes (h : Heartbeat) : List UInt8 :=
  littleEndian 4 h.uptime.toNat ++
    (littleEndian 4 (pack (.ofNat h.health.code) (.ofNat h.mode.code) h.vendorCode).toNat).take 3

def read : List UInt8 → Except ReadError Heartbeat
  | a :: b :: c :: d :: e :: f :: g :: _ =>
    let packed := UInt32.ofNat (ofLittleEndian [e, f, g, 0])
    match Mode.ofCode? (mode packed).toNat with
    | none => .error (.malformed "mode")
    | some found =>
      .ok
        { uptime := UInt32.ofNat (ofLittleEndian [a, b, c, d])
          health := .ofCode (health packed).toNat
          mode := found
          vendorCode := vendor packed }
  | payload => .error (.length 7 payload.length)

theorem packNat (h : Heartbeat) :
    (pack (.ofNat h.health.code) (.ofNat h.mode.code) h.vendorCode).toNat = h.status := by
  have low : (UInt8.ofNat h.health.code).toUInt32.toNat = h.health.code := by cases h.health <;> rfl
  have middle : ((UInt8.ofNat h.mode.code).toUInt32 <<< 2).toNat = h.mode.code <<< 2 := by
    cases h.mode <;> rfl
  have health := h.health.codeLt
  have mode := h.mode.codeLt
  rw [pack, UInt32.toNat_or, UInt32.toNat_or, low, middle, Bus.placed 19 5 rfl rfl (by decide)]
  rw [Nat.or_comm h.health.code, ← Nat.shiftLeft_add_eq_or_of_lt health, Nat.or_comm,
    ← Nat.shiftLeft_add_eq_or_of_lt (by omega), Nat.shiftLeft_eq, Nat.shiftLeft_eq, status]
  omega

theorem healthNat (packed : UInt32) : (health packed).toNat = packed.toNat % 4 := by
  have mask (n : Nat) : n &&& 3 = n % 4 := Nat.and_two_pow_sub_one_eq_mod n 2
  simp [health, mask]

theorem modeNat (packed : UInt32) : (mode packed).toNat = packed.toNat / 4 % 8 := by
  have mask (n : Nat) : n &&& 7 = n % 8 := Nat.and_two_pow_sub_one_eq_mod n 3
  simp [mode, mask, Nat.shiftRight_eq_div_pow]

theorem vendorNat (packed : UInt32) : (vendor packed).toNat = packed.toNat / 32 := by
  simp [vendor, Nat.shiftRight_eq_div_pow]

theorem toBytesExact (h : Heartbeat) : Layout.toBytes h = toBytes h := by
  rw [toBytes, packNat]
  rfl

theorem readExact (payload : List UInt8) : Message.read payload = read payload := by
  match payload with
  | [] | [_] | [_, _] | [_, _, _] | [_, _, _, _] | [_, _, _, _, _] | [_, _, _, _, _, _] => rfl
  | a :: b :: c :: d :: e :: f :: g :: rest =>
    have bytes : Message.read (α := Heartbeat) (a :: b :: c :: d :: e :: f :: g :: rest) =
        Layout.ofBytes [a, b, c, d, e, f, g] := readLong (by simp [Layout.size])
    have fits : ofLittleEndian [e, f, g] < Nat.pow 256 3 := ofLittleEndianLt [e, f, g]
    have high : ofLittleEndian [e, f, g, 0] = ofLittleEndian [e, f, g] := by simp [ofLittleEndian]
    rw [bytes, read, high]
    simp only [Layout.ofBytes, List.drop_succ_cons, List.drop_zero, List.take_succ_cons, List.take_zero]
    generalize ofLittleEndian [e, f, g] = status at fits ⊢
    have word : (UInt32.ofNat status).toNat = status := by
      rw [UInt32.toNat_ofNat', Nat.mod_eq_of_lt (Nat.lt_trans fits (by decide))]
    have named : Mode.ofCode? (mode (UInt32.ofNat status)).toNat = Mode.ofCode? (status / 4) := by
      rw [modeNat, word, Mode.ofCodeMod]
    have level : Health.ofCode (health (UInt32.ofNat status)).toNat = Health.ofCode status := by
      rw [healthNat, word, Health.ofCodeMod]
    have code : vendor (UInt32.ofNat status) = UInt32.ofNat (status / 32) := by
      rw [← UInt32.ofNat_toNat (x := vendor _), vendorNat, word]
    cases found : Mode.ofCode? (status / 4) with
    | none => simp only [named, found]
    | some mode => simp only [named, found, level, code]

end Word

theorem narrowMask (h : Heartbeat) :
    h.narrow = { h with vendorCode := h.vendorCode &&& 0x7ffff } := by
  have low : UInt32.ofNat (h.vendorCode.toNat % 524288) = h.vendorCode &&& 0x7ffff := by
    apply UInt32.toNat_inj.mp
    have mask : h.vendorCode.toNat &&& 524287 = h.vendorCode.toNat % 524288 :=
      Nat.and_two_pow_sub_one_eq_mod _ 19
    simp only [UInt32.toNat_ofNat', UInt32.toNat_and, UInt32.reduceToNat, mask]
    omega
  rw [narrow, low]

theorem narrowExactly (h : Heartbeat) : h.narrow = h ↔ h.vendorCode.toNat < 2 ^ 19 := by
  obtain ⟨uptime, health, mode, vendor⟩ := h
  simp only [narrow, Heartbeat.mk.injEq, true_and, ← UInt32.toNat_inj, UInt32.toNat_ofNat']
  omega

section
variable {payload : List UInt8}

theorem reservedTake : Reserved (payload.take 7) ↔ Reserved payload := by
  simp [Reserved]

theorem reservedExactly (long : 5 ≤ payload.length) :
    Mode.ofCode? (ofLittleEndian (payload.drop 4) / 4) = none ↔ Reserved payload := by
  have mask (n : Nat) : n &&& 7 = n % 8 := Nat.and_two_pow_sub_one_eq_mod n 3
  have bits (byte : UInt8) : (byte >>> 2 &&& 0x7).toNat = byte.toNat / 4 % 8 := by
    simp [mask, Nat.shiftRight_eq_div_pow]
  have field : (payload.getD 4 0 >>> 2 &&& 0x7).toNat = ofLittleEndian (payload.drop 4) / 4 % 8 := by
    rw [bits, List.drop_eq_getElem_cons long, List.getD_eq_getElem _ _ long, ofLittleEndian]
    omega
  rw [Mode.reservedExactly, Reserved, field]

theorem readError {error : ReadError} : read (α := Heartbeat) payload = .error error ↔
    payload.length < 7 ∧ error = .length 7 payload.length ∨
      7 ≤ payload.length ∧ Reserved payload ∧ error = .malformed "mode" := by
  rcases Nat.lt_or_ge payload.length 7 with short | long
  · have early : ¬ 7 ≤ payload.length := Nat.not_le.mpr short
    rw [readShort (α := Heartbeat) short]
    simp only [short, early, true_and, false_and, or_false, Except.error.injEq]
    exact eq_comm
  · have late : ¬ payload.length < 7 := Nat.not_lt.mpr long
    have five : 5 ≤ (payload.take 7).length := by
      rw [List.length_take_of_le long]
      decide
    rw [readLong (α := Heartbeat) long, ← reservedTake, ← reservedExactly five]
    simp only [long, late, true_and, false_and, false_or, Layout.ofBytes, Layout.size]
    cases Mode.ofCode? (ofLittleEndian ((payload.take 7).drop 4) / 4) with
    | none => simp [eq_comm]
    | some mode => simp

theorem readSome : (∃ h : Heartbeat, read payload = .ok h) ↔ 7 ≤ payload.length ∧ ¬ Reserved payload := by
  constructor
  · intro ⟨h, made⟩
    have never (error : ReadError) : read (α := Heartbeat) payload ≠ .error error := by simp [made]
    have long : 7 ≤ payload.length :=
      Nat.le_of_not_lt fun short => never _ (readError.mpr (.inl ⟨short, rfl⟩))
    exact ⟨long, fun reserved => never _ (readError.mpr (.inr ⟨long, reserved, rfl⟩))⟩
  · intro ⟨long, clear⟩
    cases out : read (α := Heartbeat) payload with
    | ok h => exact ⟨h, rfl⟩
    | error error =>
      rcases readError.mp out with ⟨short, _⟩ | ⟨_, reserved, _⟩
      · exact absurd long (Nat.not_le.mpr short)
      · exact absurd reserved clear

end

theorem bytesBijective : Set.BijOn (Layout.toBytes (α := Heartbeat))
    {h | h.vendorCode.toNat < 2 ^ 19} {bytes | bytes.length = 7 ∧ ¬ Reserved bytes} := by
  refine ⟨?_, ?_, ?_⟩
  · intro h _
    have size : (Layout.toBytes h).length = 7 := heartbeatCanonical.size h
    have read := heartbeatRead h []
    rw [List.append_nil] at read
    exact ⟨size, (readSome.mp ⟨_, read⟩).2⟩
  · intro h narrow other narrow' same
    rw [← (narrowExactly h).mpr narrow, ← (narrowExactly other).mpr narrow']
    exact (heartbeatCanonical.sameBytes h other).mp same
  · intro bytes ⟨seven, clear⟩
    obtain ⟨h, made⟩ := readSome.mpr ⟨Nat.le_of_eq seven.symm, clear⟩
    obtain ⟨own, narrow⟩ := heartbeatCanonical.readExactly.mp made
    refine ⟨h, (narrowExactly h).mp narrow, ?_⟩
    rw [own]
    exact List.take_of_length_le (Nat.le_of_eq seven)

theorem heartbeatsBijective :
    Set.BijOn (Layout.toBytes (α := Heartbeat))
      {h | h.vendorCode.toNat < 2 ^ 19} {bytes | bytes.length = 7 ∧ ¬ Reserved bytes} ∧
    (∀ (h : Heartbeat) (rest : List UInt8),
      Layout.toBytes h = Word.toBytes h ∧
      read (Layout.toBytes h ++ rest) = .ok { h with vendorCode := h.vendorCode &&& 0x7ffff }) ∧
    (∀ payload : List UInt8, let out : Except ReadError Heartbeat := read payload
      out = Word.read payload ∧
      (∀ error, out = .error error ↔
        payload.length < 7 ∧ error = .length 7 payload.length ∨
          7 ≤ payload.length ∧ Reserved payload ∧ error = .malformed "mode") ∧
      ((∃ h, out = .ok h) ↔ 7 ≤ payload.length ∧ ¬ Reserved payload) ∧
      ∀ h, out = .ok h ↔ Layout.toBytes h = payload.take 7 ∧ h.vendorCode.toNat < 2 ^ 19) ∧
    ∀ (h : Heartbeat) (buffer : List UInt8), let after := (write h buffer).2
      after.length = buffer.length ∧
      (7 ≤ buffer.length → (write h buffer).1 = .ok 7 ∧ after.take 7 = Layout.toBytes h ∧
        after.drop 7 = buffer.drop 7 ∧ read after = .ok h.narrow) ∧
      (buffer.length < 7 → (write h buffer).1 = .error ⟨7, buffer.length⟩ ∧ after = buffer) := by
  refine ⟨bytesBijective, ?_, ?_, ?_⟩
  · intro h rest
    exact ⟨Word.toBytesExact h, narrowMask h ▸ heartbeatRead h rest⟩
  · intro payload out
    refine ⟨Word.readExact payload, fun error => readError, readSome, fun h => ?_⟩
    rw [← narrowExactly]
    exact heartbeatCanonical.readExactly
  · intro h buffer after
    refine ⟨heartbeatCanonical.writeLength h buffer, ?_, ?_⟩
    · intro room
      exact ⟨congrArg Prod.fst (writeLong h room), heartbeatCanonical.writeFront h room⟩
    · intro short
      have refused := writeShort h short
      exact ⟨congrArg Prod.fst refused, congrArg Prod.snd refused⟩

end Heartbeat

end Rangefinder.Message
