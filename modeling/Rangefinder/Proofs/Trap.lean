import Rangefinder.Proofs.Schedule

/-! Arithmetic as a processor does it: an operation has the exact result, or it traps. A checked version
of a function spells out every operation with operands that are not constants, and agrees with the
function if both succeed on the same inputs with the same results. -/
namespace Rangefinder

inductive Trap
  | overflow (value : Nat)
  | underflow (left right : Nat)
  | zeroDivisor
  | outside (index length : Nat)
  deriving DecidableEq, Repr

namespace Trap

def fit (limit value : Nat) : Except Trap Nat :=
  if value < limit then .ok value else .error (.overflow value)

def add (limit left right : Nat) : Except Trap Nat := fit limit (left + right)

def mul (limit left right : Nat) : Except Trap Nat := fit limit (left * right)

def sub (left right : Nat) : Except Trap Nat :=
  if right ≤ left then .ok (left - right) else .error (.underflow left right)

def div (left right : Nat) : Except Trap Nat :=
  if right = 0 then .error .zeroDivisor else .ok (left / right)

def item {α} (items : List α) (index : Nat) : Except Trap α :=
  items[index]?.elim (.error (.outside index items.length)) .ok

def front {α} (items : List α) (count : Nat) : Except Trap (List α) :=
  if count ≤ items.length then .ok (items.take count) else .error (.outside count items.length)

section
variable {limit left right : Nat}

theorem addFits (fits : left + right < limit) : add limit left right = .ok (left + right) := if_pos fits

theorem subFits (order : right ≤ left) : sub left right = .ok (left - right) := if_pos order

theorem divFits (positive : 0 < right) : div left right = .ok (left / right) :=
  if_neg (Nat.ne_of_gt positive)

end

theorem itemFound {α} {items : List α} {index : Nat} {found : α} (at' : items[index]? = some found) :
    item items index = .ok found := by
  rw [item, at', Option.elim_some]

end Trap

def Agrees {α} (checked : Except Trap α) (plain : Except Overflow α) : Prop :=
  ∀ out, checked = .ok out ↔ plain = .ok out

section
variable {α β : Type}

theorem agreesOk (out : α) : Agrees (.ok out) (.ok out) := by
  intro other
  simp only [Except.ok.injEq]

theorem agreesBind {checked : Except Trap α} {plain : Except Overflow α} {f : α → Except Trap β}
    {g : α → Except Overflow β} (first : Agrees checked plain)
    (later : ∀ a, plain = .ok a → Agrees (f a) (g a)) : Agrees (checked >>= f) (plain >>= g) := by
  intro out
  rw [bindOk, bindOk]
  constructor
  · intro ⟨a, here, rest⟩
    have own := (first a).mp here
    exact ⟨a, own, (later a own out).mp rest⟩
  · intro ⟨a, here, rest⟩
    exact ⟨a, (first a).mpr here, (later a here out).mpr rest⟩

theorem agreesMap {checked : Except Trap α} {plain : Except Overflow α}
    (first : Agrees checked plain) (f : α → β) : Agrees (checked.map f) (plain.map f) := by
  have later : Agrees (checked >>= fun a => .ok (f a)) (plain >>= fun a => .ok (f a)) :=
    agreesBind first fun a _ => agreesOk (f a)
  cases checked <;> cases plain <;> exact later

theorem agreesFit (value : Nat) : Agrees (Trap.fit wordLimit value) (inWord value) := by
  intro out
  rw [inWordOk]
  by_cases fits : value < wordLimit
  · simp [Trap.fit, fits, eq_comm]
  · simp [Trap.fit, fits]

theorem agreesTrap {checked : Except Trap α} {plain : Except Overflow α}
    (agrees : Agrees checked plain) :
    (∃ trap, checked = .error trap) ↔ ∀ out, plain ≠ .ok out := by
  cases checked with
  | error trap =>
    have never : ∀ out, plain ≠ .ok out := fun out same => absurd ((agrees out).mpr same) nofun
    exact ⟨fun _ => never, fun _ => ⟨trap, rfl⟩⟩
  | ok out => exact ⟨nofun, fun never => absurd ((agrees out).mp rfl) (never out)⟩

end

namespace Schedule

def takeTriggerChecked (s : Schedule) (now : Nat) : Except Trap (Bool × Schedule) :=
  if now < s.nextTrigger then .ok (false, s)
  else do
    let late ← Trap.sub now s.nextTrigger
    let missed ← Trap.div late s.triggerPeriod
    let periods ← Trap.add wordLimit missed 1
    let ahead ← Trap.mul wordLimit periods s.triggerPeriod
    let nextTrigger ← Trap.add wordLimit s.nextTrigger ahead
    .ok (true, { s with nextTrigger })

def takeHeartbeatChecked (s : Schedule) (now : Nat) : Except Trap (Option UInt32 × Schedule) :=
  if now < s.nextHeartbeat then .ok (none, s)
  else do
    let nextHeartbeat ← Trap.add wordLimit s.nextHeartbeat s.heartbeatPeriod
    .ok (some (s.uptime now), { s with nextHeartbeat })

theorem takeTriggerAgrees (s : Schedule) (now : Nat) :
    Agrees (s.takeTriggerChecked now) (s.takeTrigger now) := by
  unfold takeTriggerChecked takeTrigger
  split
  · exact agreesOk _
  · rename_i due
    rw [Trap.subFits (Nat.not_lt.mp due)]
    simp only [bind, Except.bind, Trap.divFits s.triggerPeriodPos]
    refine agreesBind (agreesFit _) fun periods _ => ?_
    refine agreesBind (agreesFit _) fun ahead _ => ?_
    exact agreesBind (agreesFit _) fun nextTrigger _ => agreesOk _

theorem takeHeartbeatAgrees (s : Schedule) (now : Nat) :
    Agrees (s.takeHeartbeatChecked now) (s.takeHeartbeat now) := by
  unfold takeHeartbeatChecked takeHeartbeat
  split
  · exact agreesOk _
  · exact agreesBind (agreesFit _) fun nextHeartbeat _ => agreesOk _

theorem takeTriggerTraps (s : Schedule) (now : Nat) :
    (∃ trap, s.takeTriggerChecked now = .error trap) ↔
      s.nextTrigger ≤ now ∧ wordLimit ≤ gridAfter s.nextTrigger s.triggerPeriod now := by
  rw [agreesTrap (takeTriggerAgrees s now)]
  constructor
  · intro never
    have due : s.nextTrigger ≤ now :=
      Nat.not_lt.mp fun early => never _ (takeTriggerOk.mpr (.inl ⟨early, rfl⟩))
    exact ⟨due, Nat.not_lt.mp fun fits => never _ (takeTriggerOk.mpr (.inr ⟨due, fits, rfl⟩))⟩
  · intro ⟨due, far⟩ out taken
    rcases takeTriggerOk.mp taken with ⟨early, _⟩ | ⟨_, fits, _⟩
    · exact absurd early (Nat.not_lt.mpr due)
    · exact absurd fits (Nat.not_lt.mpr far)

end Schedule

end Rangefinder
