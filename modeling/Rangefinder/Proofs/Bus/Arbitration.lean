import Rangefinder.Proofs.Bus.ArbitrationId
import Rangefinder.Proofs.Bus.Bits

/-! Who wins the bus. Of two identifiers that are sent at once the lower one stays, and lower means: the
stricter priority, among equals the lower subject, then the lower source. The type in which a driver
holds identifiers changes none of it. -/
namespace Rangefinder.Bus

structure DriverIds (Held : Type) where
  make? : UInt32 → Option Held
  word : Held → UInt32
  zero : Held

/-- It holds the words of 29 bits as they are, and no others. -/
structure DriverIds.Faithful {Held : Type} (driver : DriverIds Held) : Prop where
  holds : ∀ word, (driver.make? word).isSome = true ↔ word.toNat < 2 ^ 29
  keeps : ∀ word held, driver.make? word = some held → driver.word held = word

namespace ArbitrationId

def held {Held : Type} (driver : DriverIds Held) (id : ArbitrationId) : Held :=
  (driver.make? (id.raw &&& 0x1fffffff)).getD driver.zero

def wire (id : ArbitrationId) : List Bool := bitsOf 29 id.raw.toNat

end ArbitrationId

/-- Two senders at once, the highest bit first. A zero on the wire overrides a one, and a sender that reads
a bit it did not send withdraws: `lt` if the first is left alone, `gt` if the second is. -/
def contest : List Bool → List Bool → Ordering
  | a :: front, b :: back =>
    let level := a && b
    if a != level then .gt
    else if b != level then .lt
    else contest front back
  | _, _ => .eq

theorem compareDigits {base a a' b b' : Nat} (fits : b < base) (fits' : b' < base) :
    compare (a * base + b) (a' * base + b') = (compare a a').then (compare b b') := by
  rcases Nat.lt_trichotomy a a' with lower | rfl | higher
  · have next : (a + 1) * base ≤ a' * base := Nat.mul_le_mul_right base lower
    rw [Nat.add_mul] at next
    rw [Nat.compare_eq_lt.mpr lower, Nat.compare_eq_lt.mpr (by omega)]
    rfl
  · rw [Nat.compare_eq_eq.mpr rfl]
    simp [Nat.compare_eq_ite_lt]
  · have next : (a' + 1) * base ≤ a * base := Nat.mul_le_mul_right base higher
    rw [Nat.add_mul] at next
    rw [Nat.compare_eq_gt.mpr higher, Nat.compare_eq_gt.mpr (by omega)]
    rfl

theorem contestBits (width a b : Nat) :
    contest (bitsOf width a) (bitsOf width b) = compare (a % 2 ^ width) (b % 2 ^ width) := by
  induction width with
  | zero => simp [bitsOf, contest, Nat.mod_one]
  | succ width ih =>
    have split (n : Nat) : n % 2 ^ (width + 1) = (n.testBit width).toNat * 2 ^ width + n % 2 ^ width := by
      rw [Nat.mod_pow_succ, ← Nat.toNat_testBit, Nat.add_comm, Nat.mul_comm]
    have low (n : Nat) : n % 2 ^ width < 2 ^ width := Nat.mod_lt _ (Nat.two_pow_pos width)
    rw [bitsOf, bitsOf, split, split, compareDigits (low a) (low b), ← ih, contest]
    cases a.testBit width <;> cases b.testBit width <;> rfl

namespace ArbitrationId

def precedence (p p' : Priority) (s s' : SubjectId) (n n' : NodeId) : Ordering :=
  (compare p.code p'.code).then ((compare s.val s'.val).then (compare n.val n'.val))

theorem compareBuild (p p' : Priority) (s s' : SubjectId) (n n' : NodeId) :
    compare (build p s n).raw.toNat (build p' s' n').raw.toNat = precedence p p' s s' n n' := by
  have packed (p : Priority) (s : SubjectId) (n : NodeId) :
      (build p s n).raw.toNat = p.code * 67108864 + (s.val * 256 + n.val) := by
    rw [rawBuild, Nat.add_assoc]
  have node (n : NodeId) : n.val < 256 := Nat.lt_of_le_of_lt n.fits (by decide)
  have below (s : SubjectId) (n : NodeId) : s.val * 256 + n.val < 67108864 := by
    have hs := s.fits
    have hn := n.fits
    omega
  rw [packed, packed, compareDigits (below s n) (below s' n'), compareDigits (node n) (node n'),
    precedence]

theorem wireBuild (p p' : Priority) (s s' : SubjectId) (n n' : NodeId) :
    contest (build p s n).wire (build p' s' n').wire = precedence p p' s s' n n' := by
  rw [wire, wire, contestBits, Nat.mod_eq_of_lt (belowBuild p s n),
    Nat.mod_eq_of_lt (belowBuild p' s' n'), compareBuild]

theorem extendedNat (id : ArbitrationId) : id.extended.raw.toNat = id.raw.toNat % 2 ^ 29 := by
  rw [extended, UInt32.toNat_ofNat']
  omega

theorem extendedExactly (id : ArbitrationId) : id.extended = id ↔ id.raw.toNat < 2 ^ 29 := by
  have whole : id.extended = id ↔ id.raw.toNat % 2 ^ 29 = id.raw.toNat := by
    obtain ⟨raw⟩ := id
    rw [← extendedNat, UInt32.toNat_inj, ← mk.injEq]
  rw [whole]
  exact Nat.mod_eq_iff_lt (Nat.two_pow_pos 29).ne'

theorem extendedBuild (p : Priority) (s : SubjectId) (n : NodeId) :
    (build p s n).extended = build p s n := (extendedExactly _).mpr (belowBuild p s n)

theorem heldWord {Held : Type} {driver : DriverIds Held} (faithful : driver.Faithful)
    (id : ArbitrationId) : driver.word (id.held driver) = id.extended.raw := by
  have masked : id.raw &&& 0x1fffffff = id.extended.raw := by
    apply UInt32.toNat_inj.mp
    rw [extendedNat, UInt32.toNat_and]
    exact Nat.and_two_pow_sub_one_eq_mod _ 29
  have below : id.extended.raw.toNat < 2 ^ 29 := by
    rw [extendedNat]
    exact Nat.mod_lt _ (Nat.two_pow_pos 29)
  obtain ⟨value, made⟩ := Option.isSome_iff_exists.mp ((faithful.holds _).mpr below)
  rw [held, masked, made, Option.getD_some]
  exact faithful.keeps _ _ made

theorem arbitrationOrder {Held : Type} (driver : DriverIds Held) (faithful : driver.Faithful)
    (p p' : Priority) (s s' : SubjectId) (n n' : NodeId) :
    let a := build p s n
    let b := build p' s' n'
    let order := precedence p p' s s' n n'
    compare a.raw.toNat b.raw.toNat = order ∧
    a.extended = a ∧ driver.word (a.held driver) = a.raw ∧
    compare (driver.word (a.held driver)).toNat (driver.word (b.held driver)).toNat = order ∧
    contest a.wire b.wire = order ∧
    (p.code < p'.code → contest a.wire b.wire = .lt) ∧
    (a = b → p = p' ∧ s = s' ∧ n = n') := by
  intro a b order
  have numbers : compare a.raw.toNat b.raw.toNat = order := compareBuild p p' s s' n n'
  have wires : contest a.wire b.wire = order := wireBuild p p' s s' n n'
  have word (p : Priority) (s : SubjectId) (n : NodeId) :
      driver.word ((build p s n).held driver) = (build p s n).raw := by
    rw [heldWord faithful, extendedBuild]
  refine ⟨numbers, extendedBuild p s n, word p s n, ?_, wires, ?_, ?_⟩
  · rw [word, word]
    exact numbers
  · intro stricter
    rw [wires]
    exact Ordering.then_eq_lt.mpr (.inl (Nat.compare_eq_lt.mpr stricter))
  · intro same
    refine ⟨?_, ?_, ?_⟩
    · rw [← priorityBuild p s n, ← priorityBuild p' s' n']
      exact congrArg priority same
    · rw [← subjectBuild p s n, ← subjectBuild p' s' n']
      exact congrArg subject same
    · rw [← sourceBuild p s n, ← sourceBuild p' s' n']
      exact congrArg source same

def words29 : DriverIds (Field 536870911) where
  make? word := Field.ofNat? word.toNat
  word held := .ofNat held.val
  zero := ⟨0, Nat.zero_le _⟩

theorem words29Faithful : words29.Faithful := by
  constructor
  case holds =>
    intro word
    simp [words29, Field.ofNat?]
    omega
  case keeps =>
    intro word held made
    simp [words29, Field.ofNat?] at made
    obtain ⟨_, rfl⟩ := made
    simp [words29]

theorem stricterWins : words29.Faithful ∧ Priority.high.code < Priority.nominal.code ∧
    contest (build .high (.truncate 32085) (.truncate 42)).wire
      (build .nominal (.truncate 1610) (.truncate 42)).wire = .lt :=
  ⟨words29Faithful, by decide,
    (arbitrationOrder words29 words29Faithful .high .nominal _ _ _ _).2.2.2.2.2.1 (by decide)⟩

end ArbitrationId

end Rangefinder.Bus
