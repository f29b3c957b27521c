import Mathlib
import Rangefinder.Proofs.Bus.Remainder

/-! What the checksum notices on the line. Two streams of one length have the same sum exactly if the
generator divides the polynomial of the bits in which they differ. It divides none of at most sixteen
places, none with an odd number of ones, and no pair of ones within the longest stream. -/
namespace Rangefinder.Bus.Checksum
open Polynomial

def flips (sent received : List UInt8) : List Bool :=
  List.zipWith Bool.xor (bitStream sent) (bitStream received)

inductive LineError (bits : List Bool) : Prop where
  | burst (first : Nat) (within : ∀ i, bits[i]? = some true → first ≤ i ∧ i < first + 16)
  | odd (odd : bits.count true % 2 = 1)
  | pair (pair : bits.count true = 2)

section
variable {sent received : List UInt8} (same : received.length = sent.length)
include same

theorem streamsAlign : (bitStream sent).length = (bitStream received).length := by
  rw [streamLength, streamLength, same]

theorem flipsLength : (flips sent received).length = 8 * sent.length := by
  rw [flips, List.length_zipWith, ← streamsAlign same, Nat.min_self, streamLength]

theorem flipsSome (different : received ≠ sent) : true ∈ flips sent received := by
  by_contra clear
  exact different (streamInjective ((sameBits (streamsAlign same)).mp clear)).symm

theorem flipsVanish (s : Sum) :
    feedAll s received = feedAll s sent ↔ modulo (ofBits (flips sent received)) = 0 := by
  rw [feedAllSame s same, flips, polynomialXor (streamsAlign same), moduloSum, eq_comm]

end

section
variable {bits : List Bool}

theorem burstSeen {first : Nat}
    (within : ∀ i, bits[i]? = some true → first ≤ i ∧ i < first + 16)
    (vanishes : modulo (ofBits bits) = 0) : true ∉ bits := by
  have before : true ∉ bits.take first := by
    intro member
    obtain ⟨i, found⟩ := List.mem_iff_getElem?.mp member
    rw [List.getElem?_take] at found
    split at found
    · exact absurd (within i found).1 (by omega)
    · cases found
  have after : true ∉ bits.drop (first + 16) := by
    intro member
    obtain ⟨i, found⟩ := List.mem_iff_getElem?.mp member
    rw [List.getElem?_drop] at found
    exact absurd (within _ found).2 (by omega)
  have split : bits = bits.take first ++ ((bits.drop first).take 16 ++ bits.drop (first + 16)) := by
    rw [← List.drop_drop, List.take_append_drop, List.take_append_drop]
  have middle : true ∉ (bits.drop first).take 16 := by
    rw [split, polynomialAppend, polynomialAppend, polynomialZero.mpr before,
      polynomialZero.mpr after, zero_mul, zero_add, add_zero, map_mul, map_pow,
      (inverseX.pow _).mul_left_eq_zero] at vanishes
    exact (moduloZero (List.length_take_le _ _)).mp vanishes
  rw [split, List.mem_append, List.mem_append]
  exact not_or.mpr ⟨before, not_or.mpr ⟨middle, after⟩⟩

theorem onesAtOne (bits : List Bool) : (ofBits bits).eval 1 = (bits.count true : ZMod 2) := by
  induction bits with
  | nil => simp [ofBits]
  | cons bit rest ih => cases bit <;> simp [ofBits, ih, add_comm]

theorem oddSeen (vanishes : modulo (ofBits bits) = 0) : bits.count true % 2 = 0 := by
  have root : generator.eval 1 = 0 := by
    simp only [generator, eval_add, eval_pow, eval_X, eval_one, one_pow]
    decide
  have zero : (ofBits bits).eval 1 = 0 := by
    obtain ⟨quotient, product⟩ := AdjoinRoot.mk_eq_zero.mp vanishes
    rw [product, eval_mul, root, zero_mul]
  rw [onesAtOne, ZMod.natCast_eq_zero_iff] at zero
  exact Nat.mod_eq_zero_of_dvd zero

theorem shiftsIterate (n : Nat) (s : Sum) : shifts n s = shift^[n] s := by
  induction n generalizing s with
  | zero => rfl
  | succ n ih => rw [shifts, ih, Function.iterate_succ_apply]

theorem oneReturnsLate {k : Nat} (later : 0 < k) (soon : k < 528) : shifts k 1#16 ≠ 1#16 := by
  have orbit : 1#16 ∉ List.iterate shift (shift 1#16) 527 := by decide +kernel
  intro back
  obtain ⟨k, rfl⟩ := Nat.exists_eq_add_of_lt later
  rw [Nat.zero_add, shifts, shiftsIterate] at back
  exact orbit (List.mem_iterate.mpr ⟨k, by omega, back.symm⟩)

theorem powerOfX (k : Nat) : modulo (ofSum (shifts k 1#16)) = modulo (X ^ k) := by
  have lowest : bitsOf 16 (1#16).toNat = List.replicate 15 false ++ [true] := by decide
  have one : ofSum 1#16 = 1 := by
    rw [ofSum, lowest, polynomialAppend, polynomialZero.mpr (by decide)]
    simp [ofBits]
  rw [moduloShifts, one, map_one, one_mul, map_pow]

theorem pairSeen (short : bits.length ≤ 528) (vanishes : modulo (ofBits bits) = 0) :
    bits.count true ≠ 2 := by
  intro pair
  obtain ⟨front, rest, rfl, before⟩ : ∃ front rest, bits = front ++ true :: rest ∧ true ∉ front :=
    List.eq_append_cons_of_mem (List.count_pos_iff.mp (by omega))
  have single : rest.count true = 1 := by
    simpa [List.count_eq_zero_of_not_mem before] using pair
  obtain ⟨middle, back, rfl, between⟩ : ∃ middle back, rest = middle ++ true :: back ∧ true ∉ middle :=
    List.eq_append_cons_of_mem (List.count_pos_iff.mp (by omega))
  have after : true ∉ back := by
    rw [← List.count_eq_zero]
    simpa [List.count_eq_zero_of_not_mem between] using single
  have product : ofBits (front ++ true :: (middle ++ true :: back)) =
      (X ^ (middle.length + 1) + 1) * X ^ back.length := by
    simp only [polynomialAppend, ofBits, polynomialZero.mpr before, polynomialZero.mpr between,
      polynomialZero.mpr after, if_true, List.length_append, List.length_cons]
    ring
  -- Two ones that cancel are a power of x that has come back to one.
  have again : shifts (middle.length + 1) 1#16 = shifts 0 1#16 := by
    rw [product, map_mul, map_pow, (inverseX.pow _).mul_left_eq_zero, moduloSum] at vanishes
    rw [← sumUnique, powerOfX, powerOfX, vanishes, pow_zero]
  have near : middle.length + 1 < 528 := by
    simp only [List.length_append, List.length_cons] at short
    omega
  exact oneReturnsLate (Nat.succ_pos _) near again

theorem lineErrorSeen (short : bits.length ≤ 528) (flipped : true ∈ bits) (error : LineError bits) :
    modulo (ofBits bits) ≠ 0 := by
  intro vanishes
  cases error with
  | burst first within => exact burstSeen within vanishes flipped
  | odd odd => exact absurd (oddSeen vanishes) (by omega)
  | pair pair => exact pairSeen short vanishes pair

end

theorem streamShort (t : Transfer) : t.stream.length ≤ 66 := by
  have fits := t.fits
  simp only [payloadLimit] at fits
  unfold Transfer.stream
  split
  · omega
  · rw [List.length_append, toBytesLength, sumBytes]
    omega

theorem lineErrorsDetected (t : Transfer) (source : NodeId) (long : chunkBytes < t.payload.length) :
    let sent := (t.frames source).flatMap Frame.transferBytes
    sent.length ≤ 66 ∧ ∀ received : List UInt8, received.length = sent.length → received ≠ sent →
      LineError (flips sent received) → ofBytes received ≠ 0 := by
  intro sent
  have whole : sent = t.stream := framesStream t source
  have size := streamShort t
  rw [whole]
  refine ⟨size, ?_⟩
  intro received same different error vanishes
  have short : (flips t.stream received).length ≤ 528 := by
    rw [flipsLength same]
    omega
  refine lineErrorSeen short (flipsSome same different) error ((flipsVanish same start).mp ?_)
  exact vanishes.trans (streamVanishes long).symm

theorem farPairDetected : chunkBytes < digits.payload.length ∧
    ofBytes [0xb1, 0x32, 0x33, 0x34, 0x35, 0x36, 0x37, 0x38, 0x39, 0x29, 0xb0] ≠ 0 :=
  ⟨by decide, (lineErrorsDetected digits (.truncate 42) (by decide)).2 _ (by decide +kernel)
    (by decide +kernel) (.pair (by decide +kernel))⟩

end Rangefinder.Bus.Checksum
