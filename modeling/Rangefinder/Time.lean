/-! Time as the node sees it. Instants and spans are whole microseconds and must fit a 64-bit word;
a sum that leaves the word is refused with the exact value. Edges are stamped by a free-running
32-bit counter, which wraps. -/
namespace Rangefinder

def wordLimit : Nat := 18446744073709551616

structure Overflow where
  value : Nat
  deriving DecidableEq, Repr

def inWord (n : Nat) : Except Overflow Nat := if n < wordLimit then .ok n else .error ⟨n⟩

theorem inWordOk {n m} : inWord n = .ok m ↔ n < wordLimit ∧ m = n := by
  unfold inWord
  split
  · simp_all [eq_comm]
  · exact ⟨nofun, fun h => absurd h.1 ‹_›⟩

theorem inWordError {n e} : inWord n = .error e ↔ wordLimit ≤ n ∧ e = ⟨n⟩ := by
  unfold inWord
  split
  · exact ⟨nofun, fun h => absurd ‹n < wordLimit› (Nat.not_lt.mpr h.1)⟩
  · simp_all [eq_comm]

structure Tick where
  count : UInt32
  deriving DecidableEq, Repr

namespace Tick

def zero : Tick := ⟨0⟩

def ofMicros (us : Nat) : Tick := ⟨UInt32.ofNat us⟩

def since (later earlier : Tick) : Nat := (later.count - earlier.count).toNat

theorem sinceLt (later earlier : Tick) : later.since earlier < 4294967296 :=
  (later.count - earlier.count).toNat_lt

end Tick

inductive Level
  | rising
  | falling
  deriving DecidableEq, Repr

structure Edge where
  line : Nat
  level : Level
  tick : Tick
  deriving DecidableEq, Repr

end Rangefinder
