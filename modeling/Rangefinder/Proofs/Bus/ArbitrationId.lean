import Rangefinder.Proofs.Bus.Bits

/-! Identifiers and their fields. Building from fields and reading the fields back are inverse to each other
on the identifiers that a named node sends with a message; of any other word, rebuilding clears
exactly the bits in which it departs from these. -/
namespace Rangefinder.Bus.ArbitrationId

def clearBits : List Nat := [7, 23, 24, 25, 29, 30, 31]

/-! The same fields by shifts and masks of machine words, each cut to the word that it is handed on in. -/
namespace Word

def priority (raw : UInt32) : UInt8 := (raw >>> 26).toUInt8 &&& 0x7

def subject (raw : UInt32) : UInt16 := (raw >>> 8 &&& 0x7fff).toUInt16 &&& 0x7fff

def source (raw : UInt32) : UInt8 := (raw >>> 0 &&& 0x7f).toUInt8 &&& 0x7f

def flagged (raw flags : UInt32) : Bool := raw &&& flags != 0

def isMessage (raw : UInt32) : Bool :=
  !flagged raw ((1 : UInt32) <<< 25 ||| (1 : UInt32) <<< 23 ||| (1 : UInt32) <<< 7)

def isAnonymous (raw : UInt32) : Bool := flagged raw ((1 : UInt32) <<< 24)

def build (priority : UInt8) (subject : UInt16) (source : UInt8) : UInt32 :=
  ((priority.toUInt32 &&& 0x7) <<< 26 ||| (subject.toUInt32 &&& 0x7fff) <<< 8 |||
    (source.toUInt32 &&& 0x7f) <<< 0) &&& 0x1fffffff

theorem flaggedOr (raw a b : UInt32) : flagged raw (a ||| b) = (flagged raw a || flagged raw b) := by
  have both : raw &&& (a ||| b) = raw &&& a ||| raw &&& b :=
    UInt32.toNat_inj.mp (Nat.and_or_distrib_left _ _ _)
  rw [flagged, both, flagged, flagged, Bool.eq_iff_iff, Bool.or_eq_true, bne_iff_ne, bne_iff_ne,
    bne_iff_ne, ne_eq, UInt32.or_eq_zero_iff, Decidable.not_and_iff_not_or_not]

theorem flaggedOne {i : Nat} {flag : UInt32} (single : flag.toNat = 2 ^ i) (raw : UInt32) :
    flagged raw flag = raw.toNat.testBit i := by
  have value : (raw &&& flag).toNat = (raw.toNat.testBit i).toNat * 2 ^ i := by
    rw [UInt32.toNat_and, single, Nat.and_two_pow]
  have zero : raw &&& flag = 0 ↔ (raw &&& flag).toNat = 0 := UInt32.toNat_inj.symm
  rw [Bool.eq_iff_iff, flagged, bne_iff_ne, ne_eq, zero, value]
  cases raw.toNat.testBit i <;> simp

theorem buildNat (priority : UInt8) (subject : UInt16) (source : UInt8) :
    (build priority subject source).toNat = priority.toNat % 8 * 67108864 +
      subject.toNat % 32768 * 256 + source.toNat % 128 := by
  have whole : (0x1fffffff : UInt32).toNat = 2 ^ 29 - 1 := rfl
  rw [build, UInt32.toNat_and, UInt32.toNat_or, UInt32.toNat_or, placed 3 26 rfl rfl (by decide),
    placed 15 8 rfl rfl (by decide), placed 7 0 rfl rfl (by decide), UInt8.toNat_toUInt32,
    UInt16.toNat_toUInt32, UInt8.toNat_toUInt32, whole, Nat.and_two_pow_sub_one_eq_mod, Nat.or_assoc,
    Nat.shiftLeft_zero]
  -- No field reaches into the one above it: bits that are joined are numbers that are added.
  have low : (subject.toNat % 2 ^ 15) <<< 8 ||| source.toNat % 2 ^ 7 =
      subject.toNat % 2 ^ 15 * 256 + source.toNat % 2 ^ 7 := by
    rw [← Nat.shiftLeft_add_eq_or_of_lt (by omega), Nat.shiftLeft_eq]
  rw [low, ← Nat.shiftLeft_add_eq_or_of_lt (by omega), Nat.shiftLeft_eq]
  omega

end Word

theorem priorityWord (id : ArbitrationId) : (Word.priority id.raw).toNat = id.priority.code := by
  have mask (n : Nat) : n &&& 7 = n % 8 := Nat.and_two_pow_sub_one_eq_mod n 3
  simp [Word.priority, priority, Priority.codeOfCode, mask, Nat.shiftRight_eq_div_pow]

theorem subjectWord (id : ArbitrationId) : (Word.subject id.raw).toNat = id.subject.val := by
  have mask (n : Nat) : n &&& 32767 = n % 32768 := Nat.and_two_pow_sub_one_eq_mod n 15
  simp [Word.subject, subject, mask, Nat.shiftRight_eq_div_pow]

theorem sourceWord (id : ArbitrationId) : (Word.source id.raw).toNat = id.source.val := by
  have mask (n : Nat) : n &&& 127 = n % 128 := Nat.and_two_pow_sub_one_eq_mod n 7
  simp [Word.source, source, mask]

theorem messageWord (id : ArbitrationId) : Word.isMessage id.raw = id.isMessage := by
  rw [Word.isMessage, Word.flaggedOr, Word.flaggedOr, Word.flaggedOne (i := 25) rfl,
    Word.flaggedOne (i := 23) rfl, Word.flaggedOne (i := 7) rfl, Bool.not_or, Bool.not_or]
  rfl

theorem anonymousWord (id : ArbitrationId) : Word.isAnonymous id.raw = id.isAnonymous :=
  Word.flaggedOne (i := 24) rfl id.raw

theorem buildWord (p : Priority) (s : SubjectId) (n : NodeId) :
    Word.build (.ofNat p.code) (.ofNat s.val) (.ofNat n.val) = (build p s n).raw := by
  have hp := p.codeLt
  have hs := s.fits
  have hn := n.fits
  apply UInt32.toNat_inj.mp
  rw [Word.buildNat, rawBuild, UInt8.toNat_ofNat', UInt16.toNat_ofNat', UInt8.toNat_ofNat']
  omega

theorem bitBuild (p : Priority) (s : SubjectId) (n : NodeId) (i : Nat) : (build p s n).bit i =
    if i < 8 then n.val.testBit i
    else if i < 26 then s.val.testBit (i - 8)
    else p.code.testBit (i - 26) := by
  have hs := s.fits
  have hn := n.fits
  have packed : (build p s n).raw.toNat = 2 ^ 26 * p.code + (2 ^ 8 * s.val + n.val) := by
    rw [rawBuild]
    omega
  rw [bit, packed, Nat.testBit_two_pow_mul_add _ (by omega), Nat.testBit_two_pow_mul_add _ (by omega)]
  by_cases low : i < 8
  · simp [low, Nat.lt_of_lt_of_le low]
  · simp [low]

theorem bitBeyond (id : ArbitrationId) {i : Nat} (beyond : 32 ≤ i) : id.bit i = false :=
  Nat.testBit_lt_two_pow (Nat.lt_of_lt_of_le id.raw.toNat_lt (Nat.pow_le_pow_right (by decide) beyond))

theorem keptBits {i : Nat} (within : i < 32) :
    i ∉ clearBits ↔ i < 7 ∨ (8 ≤ i ∧ i < 23) ∨ (26 ≤ i ∧ i < 29) := by
  simp only [clearBits, List.mem_cons, List.not_mem_nil, or_false]
  omega

theorem fieldBit {offset i : Nat} (above : offset ≤ i) (width n : Nat) :
    (n / 2 ^ offset % 2 ^ width).testBit (i - offset) =
      (decide (i < offset + width) && n.testBit i) := by
  have place : i - offset < width ↔ i < offset + width := by omega
  rw [Nat.testBit_mod_two_pow, Nat.testBit_div_two_pow, Nat.sub_add_cancel above,
    decide_eq_decide.mpr place]

theorem bitRebuilt (id : ArbitrationId) (i : Nat) :
    (build id.priority id.subject id.source).bit i = (id.bit i && decide (i ∉ clearBits)) := by
  by_cases within : i < 32
  · have source : id.source.val = id.raw.toNat % 2 ^ 7 := rfl
    have subject : id.subject.val = id.raw.toNat / 2 ^ 8 % 2 ^ 15 := rfl
    have priority : id.priority.code = id.raw.toNat / 2 ^ 26 % 2 ^ 3 := Priority.codeOfCode _
    rw [bitBuild, Bool.and_comm, bit]
    split
    case isTrue low =>
      have stays : i < 7 ↔ i ∉ clearBits := by
        rw [keptBits within]
        omega
      rw [source, Nat.testBit_mod_two_pow, decide_eq_decide.mpr stays]
    case isFalse low =>
      split
      case isTrue middle =>
        have stays : i < 8 + 15 ↔ i ∉ clearBits := by
          rw [keptBits within]
          omega
        rw [subject, fieldBit (Nat.le_of_not_lt low), decide_eq_decide.mpr stays]
      case isFalse high =>
        have stays : i < 26 + 3 ↔ i ∉ clearBits := by
          rw [keptBits within]
          omega
        rw [priority, fieldBit (Nat.le_of_not_lt high), decide_eq_decide.mpr stays]
  · have beyond := Nat.le_of_not_lt within
    rw [bitBeyond _ beyond, bitBeyond _ beyond, Bool.false_and]

theorem sameById {id other : ArbitrationId} : id = other ↔ ∀ i, id.bit i = other.bit i := by
  constructor
  · rintro rfl _
    rfl
  · intro bits
    obtain ⟨raw⟩ := id
    exact congrArg mk (UInt32.toNat_inj.mp (Nat.eq_of_testBit_eq bits))

theorem narrowExactly (id : ArbitrationId) :
    id.raw.toNat < 2 ^ 29 ↔ id.bit 29 = false ∧ id.bit 30 = false ∧ id.bit 31 = false := by
  constructor
  · intro below
    refine ⟨?_, ?_, ?_⟩ <;> exact Nat.testBit_lt_two_pow (Nat.lt_of_lt_of_le below (by decide))
  · rintro ⟨h29, h30, h31⟩
    apply Nat.lt_pow_two_of_testBit
    intro i higher
    by_cases within : i < 32
    · obtain rfl | rfl | rfl : i = 29 ∨ i = 30 ∨ i = 31 := by omega
      · exact h29
      · exact h30
      · exact h31
    · exact bitBeyond id (Nat.le_of_not_lt within)

theorem clearExactly (id : ArbitrationId) : (∀ i ∈ clearBits, id.bit i = false) ↔
    id.raw.toNat < 2 ^ 29 ∧ id.isMessage = true ∧ id.isAnonymous = false := by
  rw [narrowExactly, isMessage, isAnonymous]
  simp only [clearBits, List.forall_mem_cons, List.not_mem_nil, false_implies, implies_true, and_true,
    Bool.and_eq_true, Bool.not_eq_true']
  constructor
  · rintro ⟨h7, h23, h24, h25, h29, h30, h31⟩
    exact ⟨⟨h29, h30, h31⟩, ⟨⟨h25, h23⟩, h7⟩, h24⟩
  · rintro ⟨⟨h29, h30, h31⟩, ⟨⟨h25, h23⟩, h7⟩, h24⟩
    exact ⟨h7, h23, h24, h25, h29, h30, h31⟩

theorem rebuiltExactly (id : ArbitrationId) : build id.priority id.subject id.source = id ↔
    id.raw.toNat < 2 ^ 29 ∧ id.isMessage = true ∧ id.isAnonymous = false := by
  rw [← clearExactly, sameById]
  simp only [bitRebuilt]
  constructor
  · intro same i member
    have kept := same i
    rw [decide_eq_false (not_not_intro member), Bool.and_false] at kept
    exact kept.symm
  · intro clear i
    by_cases member : i ∈ clearBits
    · rw [clear i member, Bool.false_and]
    · rw [decide_eq_true member, Bool.and_true]

theorem belowBuild (p : Priority) (s : SubjectId) (n : NodeId) : (build p s n).raw.toNat < 2 ^ 29 := by
  have hp := p.codeLt
  have hs := s.fits
  have hn := n.fits
  rw [rawBuild]
  omega

theorem identifiersCanonical :
    (∀ p s n, let id := build p s n
      id.raw = Word.build (.ofNat p.code) (.ofNat s.val) (.ofNat n.val) ∧ id.raw.toNat < 2 ^ 29 ∧
      id.isMessage = true ∧ id.isAnonymous = false ∧
      id.priority = p ∧ id.subject = s ∧ id.source = n) ∧
    ∀ id : ArbitrationId, let rebuilt := build id.priority id.subject id.source
      id.priority.code = (Word.priority id.raw).toNat ∧
      id.subject.val = (Word.subject id.raw).toNat ∧
      id.source.val = (Word.source id.raw).toNat ∧
      id.isMessage = Word.isMessage id.raw ∧ id.isAnonymous = Word.isAnonymous id.raw ∧
      (∀ i, rebuilt.bit i = (id.bit i && decide (i ∉ clearBits))) ∧
      (rebuilt = id ↔ id.raw.toNat < 2 ^ 29 ∧ id.isMessage = true ∧ id.isAnonymous = false) := by
  constructor
  · intro p s n id
    exact ⟨(buildWord p s n).symm, belowBuild p s n, messageBuild p s n, namedBuild p s n,
      priorityBuild p s n, subjectBuild p s n, sourceBuild p s n⟩
  · intro id rebuilt
    exact ⟨(priorityWord id).symm, (subjectWord id).symm, (sourceWord id).symm, (messageWord id).symm,
      (anonymousWord id).symm, bitRebuilt id, rebuiltExactly id⟩

end Rangefinder.Bus.ArbitrationId
