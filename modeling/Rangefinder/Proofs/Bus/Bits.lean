import Mathlib
import Rangefinder.Bus.Frame

/-! Numbers and bytes as they go over the bus, bit by bit and the highest bit first, and the fields that
are put into machine words. -/
namespace Rangefinder.Bus

def bitsOf : Nat → Nat → List Bool
  | 0, _ => []
  | width + 1, n => n.testBit width :: bitsOf width n

def bitStream (bytes : List UInt8) : List Bool := bytes.flatMap fun byte => bitsOf 8 byte.toNat

@[simp] theorem bitsLength (width n : Nat) : (bitsOf width n).length = width := by
  induction width with
  | zero => rfl
  | succ width ih => rw [bitsOf, List.length_cons, ih]

theorem bitsSplit (front back n : Nat) :
    bitsOf (front + back) n = bitsOf front (n / 2 ^ back) ++ bitsOf back n := by
  induction front with
  | zero => rw [Nat.zero_add, bitsOf, List.nil_append]
  | succ front ih =>
    rw [Nat.add_right_comm, bitsOf, bitsOf, ih, Nat.testBit_div_two_pow, List.cons_append]

theorem bitsMod {width wide : Nat} (fits : width ≤ wide) (n : Nat) :
    bitsOf width (n % 2 ^ wide) = bitsOf width n := by
  induction width with
  | zero => rfl
  | succ width ih =>
    have below : width < wide := fits
    rw [bitsOf, bitsOf, ih (Nat.le_of_lt below), Nat.testBit_mod_two_pow, decide_eq_true below,
      Bool.true_and]

theorem bitsRaised (width back n : Nat) :
    bitsOf (width + back) (n * 2 ^ back) = bitsOf width n ++ bitsOf back 0 := by
  rw [bitsSplit, Nat.mul_div_cancel _ (Nat.two_pow_pos back), ← bitsMod (Nat.le_refl back) (n * _),
    Nat.mul_mod_left]

theorem bitsNone (width : Nat) : true ∉ bitsOf width 0 := by
  induction width with
  | zero => exact List.not_mem_nil
  | succ width ih => simpa [bitsOf] using ih

theorem bitsXor (width a b : Nat) :
    bitsOf width (a ^^^ b) = List.zipWith Bool.xor (bitsOf width a) (bitsOf width b) := by
  induction width with
  | zero => rfl
  | succ width ih => rw [bitsOf, bitsOf, bitsOf, ih, Nat.testBit_xor, List.zipWith_cons_cons]

theorem sameBits {a b : List Bool} (same : a.length = b.length) :
    true ∉ List.zipWith Bool.xor a b ↔ a = b := by
  induction a generalizing b with
  | nil => simp [List.eq_nil_of_length_eq_zero same.symm]
  | cons x a ih =>
    obtain ⟨y, b, rfl⟩ := List.exists_cons_of_length_eq_add_one same.symm
    rw [List.zipWith_cons_cons, List.mem_cons, not_or, ih (Nat.succ.inj same), List.cons.injEq]
    cases x <;> cases y <;> simp

theorem bitsAgree {width a b : Nat} (same : bitsOf width a = bitsOf width b) :
    ∀ i < width, a.testBit i = b.testBit i := by
  induction width with
  | zero => nofun
  | succ width ih =>
    obtain ⟨top, rest⟩ := List.cons.inj same
    intro i within
    rcases Nat.lt_succ_iff_lt_or_eq.mp within with lower | rfl
    · exact ih rest i lower
    · exact top

theorem bitsUnique {width a b : Nat} (fitsA : a < 2 ^ width) (fitsB : b < 2 ^ width)
    (same : bitsOf width a = bitsOf width b) : a = b := by
  apply Nat.eq_of_testBit_eq
  intro i
  by_cases within : i < width
  · exact bitsAgree same i within
  · have higher : 2 ^ width ≤ 2 ^ i := Nat.pow_le_pow_right (by decide) (Nat.le_of_not_lt within)
    rw [Nat.testBit_lt_two_pow (Nat.lt_of_lt_of_le fitsA higher),
      Nat.testBit_lt_two_pow (Nat.lt_of_lt_of_le fitsB higher)]

@[simp] theorem streamCons (byte : UInt8) (bytes : List UInt8) :
    bitStream (byte :: bytes) = bitsOf 8 byte.toNat ++ bitStream bytes := List.flatMap_cons

@[simp] theorem streamLength (bytes : List UInt8) : (bitStream bytes).length = 8 * bytes.length := by
  induction bytes with
  | nil => rfl
  | cons byte bytes ih =>
    rw [streamCons, List.length_append, bitsLength, ih, List.length_cons, Nat.mul_succ, Nat.add_comm]

theorem streamInjective {bytes other : List UInt8} (same : bitStream bytes = bitStream other) :
    bytes = other := by
  induction bytes generalizing other with
  | nil =>
    cases other with
    | nil => rfl
    | cons => cases same
  | cons byte bytes ih =>
    cases other with
    | nil => cases same
    | cons byte' other =>
      rw [streamCons, streamCons] at same
      obtain ⟨first, rest⟩ := List.append_inj same (by rw [bitsLength, bitsLength])
      have equal : byte = byte' :=
        UInt8.toNat_inj.mp (bitsUnique byte.toNat_lt byte'.toNat_lt first)
      rw [equal, ih rest]

theorem placed (width offset : Nat) {mask place : UInt32} (masks : mask.toNat = 2 ^ width - 1)
    (places : place.toNat = offset) (room : width + offset < 32) (field : UInt32) :
    ((field &&& mask) <<< place).toNat = (field.toNat % 2 ^ width) <<< offset := by
  have below : field.toNat % 2 ^ width * 2 ^ offset < 2 ^ 32 :=
    calc field.toNat % 2 ^ width * 2 ^ offset < 2 ^ width * 2 ^ offset :=
          Nat.mul_lt_mul_of_pos_right (Nat.mod_lt _ (Nat.two_pow_pos width)) (Nat.two_pow_pos offset)
      _ = 2 ^ (width + offset) := (Nat.pow_add ..).symm
      _ ≤ 2 ^ 32 := Nat.pow_le_pow_right (by decide) (Nat.le_of_lt room)
  have short : offset < 32 := by omega
  rw [UInt32.toNat_shiftLeft, UInt32.toNat_and, masks, places, Nat.and_two_pow_sub_one_eq_mod,
    Nat.mod_eq_of_lt short, Nat.shiftLeft_eq, Nat.mod_eq_of_lt below]

end Rangefinder.Bus
