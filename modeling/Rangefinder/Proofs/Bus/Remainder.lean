import Mathlib
import Rangefinder.Proofs.Bus.Bits
import Rangefinder.Proofs.Bus.Segmentation

/-! The checksum as a remainder. Bits are the coefficients of a polynomial over GF(2), the highest first;
one shift of the sum is a multiplication by x modulo the generator, so that a run over any bytes leaves
the remainder of a division. As x has an inverse there, exactly the bytes of the sum itself take it
to zero. -/
namespace Rangefinder.Bus.Checksum
open Polynomial

noncomputable def ofBits : List Bool → (ZMod 2)[X]
  | [] => 0
  | bit :: rest => (if bit then X ^ rest.length else 0) + ofBits rest

noncomputable def ofSum (s : Sum) : (ZMod 2)[X] := ofBits (bitsOf 16 s.toNat)

noncomputable def generator : (ZMod 2)[X] := X ^ 16 + X ^ 12 + X ^ 5 + 1

theorem polynomialAppend (front back : List Bool) :
    ofBits (front ++ back) = ofBits front * X ^ back.length + ofBits back := by
  induction front with
  | nil => simp only [List.nil_append, ofBits, zero_mul, zero_add]
  | cons bit front ih =>
    simp only [List.cons_append, ofBits, ih, List.length_append, pow_add, add_mul, ite_mul, zero_mul,
      add_assoc]

theorem polynomialXor {a b : List Bool} (same : a.length = b.length) :
    ofBits (List.zipWith Bool.xor a b) = ofBits a + ofBits b := by
  induction a generalizing b with
  | nil =>
    rw [List.eq_nil_of_length_eq_zero same.symm]
    simp only [List.zipWith_nil_left, ofBits, add_zero]
  | cons x a ih =>
    obtain ⟨y, b, rfl⟩ := List.exists_cons_of_length_eq_add_one same.symm
    have tails : a.length = b.length := Nat.succ.inj same
    rw [List.zipWith_cons_cons, ofBits, ofBits, ofBits, ih tails, List.length_zipWith, ← tails,
      Nat.min_self, add_add_add_comm]
    cases x <;> cases y <;> simp [CharTwo.add_self_eq_zero]

theorem polynomialDegree (bits : List Bool) : (ofBits bits).degree < bits.length := by
  induction bits with
  | nil => simp [ofBits]
  | cons bit rest ih =>
    have wider : (rest.length : WithBot ℕ) < (rest.length + 1 : ℕ) :=
      WithBot.coe_lt_coe.mpr (Nat.lt_succ_self _)
    refine (degree_add_le _ _).trans_lt (max_lt ?_ (ih.trans wider))
    split
    · exact (degree_X_pow_le _).trans_lt wider
    · simp

theorem polynomialZero {bits : List Bool} : ofBits bits = 0 ↔ true ∉ bits := by
  induction bits with
  | nil => simp [ofBits]
  | cons bit rest ih =>
    cases bit with
    | false => simpa [ofBits] using ih
    | true =>
      have top : (ofBits (true :: rest)).coeff rest.length = 1 := by
        rw [ofBits, if_pos rfl, coeff_add, coeff_X_pow, if_pos rfl,
          coeff_eq_zero_of_degree_lt (polynomialDegree rest), add_zero]
      refine iff_of_false ?_ (not_not_intro List.mem_cons_self)
      intro vanishes
      rw [vanishes, coeff_zero] at top
      exact zero_ne_one top

theorem generatorDegree : generator.degree = 16 := by
  unfold generator
  compute_degree!

theorem generatorMonic : generator.Monic := by
  unfold generator
  monicity!

noncomputable abbrev modulo : (ZMod 2)[X] →+* AdjoinRoot generator := AdjoinRoot.mk generator

theorem moduloSum {p q : (ZMod 2)[X]} : modulo (p + q) = 0 ↔ modulo p = modulo q := by
  rw [← CharTwo.sub_eq_add, map_sub, sub_eq_zero]

theorem moduloZero {bits : List Bool} (short : bits.length ≤ 16) :
    modulo (ofBits bits) = 0 ↔ true ∉ bits := by
  constructor
  · intro vanishes member
    have nonzero : ofBits bits ≠ 0 := fun zero => polynomialZero.mp zero member
    have below : (ofBits bits).degree < generator.degree := by
      rw [generatorDegree]
      exact (polynomialDegree bits).trans_le (WithBot.coe_le_coe.mpr short)
    exact AdjoinRoot.mk_ne_zero_of_degree_lt generatorMonic nonzero below vanishes
  · intro clear
    rw [polynomialZero.mpr clear, map_zero]

theorem moduloUnique {a b : List Bool} (same : a.length = b.length) (short : a.length ≤ 16) :
    modulo (ofBits a) = modulo (ofBits b) ↔ a = b := by
  have width : (List.zipWith Bool.xor a b).length ≤ 16 := by
    rwa [List.length_zipWith, ← same, Nat.min_self]
  rw [← moduloSum, ← polynomialXor same, moduloZero width, sameBits same]

theorem inverseX : IsUnit (modulo X) := by
  apply IsUnit.of_mul_eq_one (modulo (X ^ 15 + X ^ 11 + X ^ 4))
  rw [← map_mul, ← map_one modulo, ← moduloSum, AdjoinRoot.mk_eq_zero]
  exact dvd_of_eq (by unfold generator; ring)

theorem polynomialRaised (width back n : Nat) :
    ofBits (bitsOf (width + back) (n * 2 ^ back)) = ofBits (bitsOf width n) * X ^ back := by
  rw [bitsRaised, polynomialAppend, polynomialZero.mpr (bitsNone back), add_zero, bitsLength]

theorem sumXor (a b : Sum) : ofSum (a ^^^ b) = ofSum a + ofSum b := by
  rw [ofSum, BitVec.toNat_xor, bitsXor, polynomialXor (by simp), ofSum, ofSum]

theorem sumDoubled (s : Sum) : ofSum s * X = (if s.msb then X ^ 16 else 0) + ofSum (s <<< 1) := by
  have top : s.msb = s.toNat.testBit 15 := rfl
  have doubled : ofSum (s <<< 1) = ofBits (bitsOf 15 s.toNat) * X := by
    rw [ofSum, BitVec.toNat_shiftLeft, bitsMod (Nat.le_refl 16), Nat.shiftLeft_eq,
      polynomialRaised 15 1, pow_one]
  rw [doubled, top, ofSum, bitsOf, ofBits, add_mul, ite_mul, zero_mul, bitsLength, ← pow_succ]

theorem moduloShift (s : Sum) : modulo (ofSum (shift s)) = modulo (ofSum s) * modulo X := by
  have folded : modulo (X ^ 16) = modulo (ofSum polynomial) := by
    have bits : bitsOf 16 polynomial.toNat = [false, false, false, true, false, false, false, false,
        false, false, true, false, false, false, false, true] := by decide
    rw [← moduloSum, AdjoinRoot.mk_eq_zero, ofSum, bits]
    exact dvd_of_eq (by simp [generator, ofBits, add_assoc])
  rw [← map_mul, sumDoubled, map_add, shift]
  split
  · rw [sumXor, map_add, ← folded, add_comm]
  · rw [map_zero, zero_add]

theorem moduloShifts (n : Nat) (s : Sum) :
    modulo (ofSum (shifts n s)) = modulo (ofSum s) * modulo X ^ n := by
  induction n generalizing s with
  | zero => rw [shifts, pow_zero, mul_one]
  | succ n ih => rw [shifts, ih, moduloShift, mul_assoc, ← pow_succ']

theorem moduloFeed (s : Sum) (byte : UInt8) : modulo (ofSum (feed s byte)) =
    modulo (ofSum s) * modulo X ^ 8 + modulo (ofBits (bitsOf 8 byte.toNat)) * modulo X ^ 16 := by
  have raised : ofSum (BitVec.ofNat 16 (byte.toNat * 256)) = ofBits (bitsOf 8 byte.toNat) * X ^ 8 := by
    rw [ofSum, BitVec.toNat_ofNat, bitsMod (Nat.le_refl 16)]
    exact polynomialRaised 8 8 _
  rw [feed, moduloShifts, sumXor, raised, map_add, map_mul, map_pow, add_mul, mul_assoc, ← pow_add]

theorem moduloFeedAll (s : Sum) (bytes : List UInt8) : modulo (ofSum (feedAll s bytes)) =
    modulo (ofSum s) * modulo X ^ (8 * bytes.length) +
      modulo (ofBits (bitStream bytes)) * modulo X ^ 16 := by
  induction bytes generalizing s with
  | nil => simp [bitStream, ofBits]
  | cons byte bytes ih =>
    rw [feedAllCons, ih, moduloFeed, streamCons, polynomialAppend, streamLength, map_add, map_mul,
      map_pow, List.length_cons]
    ring

theorem sumUnique {s s' : Sum} : modulo (ofSum s) = modulo (ofSum s') ↔ s = s' := by
  have same : (bitsOf 16 s.toNat).length = (bitsOf 16 s'.toNat).length := by simp
  rw [ofSum, ofSum, moduloUnique same (by simp)]
  constructor
  · intro bits
    exact BitVec.eq_of_toNat_eq (bitsUnique s.isLt s'.isLt bits)
  · rintro rfl
    rfl

theorem feedAllRemainder (s : Sum) (bytes : List UInt8) : ofSum (feedAll s bytes) =
    (ofSum s * X ^ (8 * bytes.length) + ofBits (bitStream bytes) * X ^ 16) %ₘ generator := by
  have below : (ofSum (feedAll s bytes)).degree < generator.degree := by
    rw [generatorDegree]
    exact (polynomialDegree _).trans_eq (by rw [bitsLength]; rfl)
  have congruent : modulo (ofSum (feedAll s bytes)) =
      modulo (ofSum s * X ^ (8 * bytes.length) + ofBits (bitStream bytes) * X ^ 16) := by
    rw [moduloFeedAll, map_add, map_mul, map_mul, map_pow, map_pow]
  calc ofSum (feedAll s bytes) = ofSum (feedAll s bytes) %ₘ generator :=
        ((modByMonic_eq_self_iff generatorMonic).mpr below).symm
    _ = _ := modByMonic_eq_of_dvd_sub generatorMonic (AdjoinRoot.mk_eq_mk.mp congruent)

theorem feedAllSame (s : Sum) {bytes other : List UInt8} (same : bytes.length = other.length) :
    feedAll s bytes = feedAll s other ↔
      modulo (ofBits (bitStream bytes)) = modulo (ofBits (bitStream other)) := by
  rw [← sumUnique, moduloFeedAll, moduloFeedAll, same, add_right_inj, (inverseX.pow 16).mul_left_inj]

theorem streamToBytes (s : Sum) : bitStream (toBytes s) = bitsOf 16 s.toNat := by
  rw [toBytes, streamCons, streamCons, UInt8.toNat_ofNat', UInt8.toNat_ofNat',
    bitsMod (Nat.le_refl 8), bitsMod (Nat.le_refl 8), bitsSplit 8 8]
  simp [bitStream]

theorem ownBytesVanish (s : Sum) : feedAll s (toBytes s) = 0 := by
  have zero : ofSum 0 = 0 := polynomialZero.mpr (bitsNone 16)
  have width : 8 * (toBytes s).length = 16 := rfl
  rw [← sumUnique, moduloFeedAll, streamToBytes, zero, map_zero, width, ← ofSum, ← map_pow,
    ← map_mul, ← map_add, moduloSum]

theorem vanishExactly (s : Sum) (a b : UInt8) : feedAll s [a, b] = 0 ↔ [a, b] = toBytes s := by
  have same : [a, b].length = (toBytes s).length := rfl
  rw [← ownBytesVanish s, feedAllSame s same, moduloUnique (by rw [streamLength, streamLength, same])
    (by rw [streamLength]; rfl)]
  constructor
  · exact streamInjective
  · intro equal
    rw [equal]

theorem feedAllChunks (s : Sum) (chunks : List (List UInt8)) :
    chunks.foldl feedAll s = feedAll s chunks.flatten := by
  induction chunks generalizing s with
  | nil => rfl
  | cons chunk chunks ih => rw [List.foldl_cons, ih, List.flatten_cons, feedAllAppend]

theorem streamLong {t : Transfer} (long : chunkBytes < t.payload.length) :
    t.stream = t.payload ++ toBytes (ofBytes t.payload) := if_neg (Nat.not_le.mpr long)

theorem streamVanishes {t : Transfer} (long : chunkBytes < t.payload.length) :
    ofBytes t.stream = 0 := by
  rw [streamLong long, ofBytes, feedAllAppend]
  exact ownBytesVanish _

theorem checksumDivides :
    (∀ chunks : List (List UInt8), chunks.foldl feedAll 0xffff#16 = ofBytes chunks.flatten) ∧
    (∀ bytes, ofSum (ofBytes bytes) =
      (ofSum 0xffff#16 * X ^ (8 * bytes.length) + ofBits (bitStream bytes) * X ^ 16) %ₘ
        (X ^ 16 + X ^ 12 + X ^ 5 + 1)) ∧
    (∀ s a b, feedAll s [a, b] = 0 ↔
      a = UInt8.ofNat (s.toNat / 256) ∧ b = UInt8.ofNat s.toNat) ∧
    ∀ (t : Transfer) (source : NodeId), chunkBytes < t.payload.length →
      let carried := (t.frames source).flatMap Frame.transferBytes
      ofBytes carried = 0 ∧
        ∀ a b, ofBytes (t.payload ++ [a, b]) = 0 → t.payload ++ [a, b] = carried := by
  refine ⟨feedAllChunks start, feedAllRemainder start, ?_, ?_⟩
  · intro s a b
    simp only [vanishExactly, toBytes, List.cons.injEq, and_true]
  · intro t source long carried
    have whole : carried = t.stream := framesStream t source
    rw [whole]
    refine ⟨streamVanishes long, ?_⟩
    intro a b vanishes
    rw [ofBytes, feedAllAppend, vanishExactly] at vanishes
    rw [streamLong long, vanishes, ofBytes]

def digits : Transfer :=
  ⟨.nominal, .truncate 1610, .first, [0x31, 0x32, 0x33, 0x34, 0x35, 0x36, 0x37, 0x38, 0x39], by decide⟩

theorem digitsDivide : chunkBytes < digits.payload.length ∧
    digits.stream = digits.payload ++ [0x29, 0xb1] ∧
    ofBytes ((digits.frames (.truncate 42)).flatMap Frame.transferBytes) = 0 :=
  ⟨by decide, by decide +kernel, (checksumDivides.2.2.2 digits _ (by decide)).1⟩

end Rangefinder.Bus.Checksum
