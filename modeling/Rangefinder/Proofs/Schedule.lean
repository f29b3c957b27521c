import Rangefinder.Schedule

/-! How the two deadlines move. Each stands on the grid of its period from boot: a trigger goes to the
first instant of the grid past the present, a heartbeat to the next instant of the grid, which is
never farther. A move is refused only when its target leaves the word. -/
namespace Rangefinder

theorem bindOk {ε α β} {x : Except ε α} {f : α → Except ε β} {b : β} :
    x >>= f = .ok b ↔ ∃ a, x = .ok a ∧ f a = .ok b := by
  cases x with
  | error e =>
    constructor
    · intro failed
      cases failed
    · rintro ⟨_, failed, _⟩
      cases failed
  | ok a =>
    constructor
    · intro same
      exact ⟨a, rfl, same⟩
    · rintro ⟨_, same, next⟩
      cases same
      exact next

def gridAfter (origin period now : Nat) : Nat := origin + ((now - origin) / period + 1) * period

theorem gridAfterMono {origin period now later : Nat} (order : now ≤ later) :
    gridAfter origin period now ≤ gridAfter origin period later := by
  have quotients := Nat.div_le_div_right (c := period) (Nat.sub_le_sub_right order origin)
  exact Nat.add_le_add_left (Nat.mul_le_mul_right period (Nat.succ_le_succ quotients)) origin

theorem gridAfterLater {origin period now : Nat} (positive : 0 < period) :
    now < gridAfter origin period now := by
  have past := Nat.lt_div_mul_add (a := now - origin) positive
  rw [gridAfter, Nat.succ_mul]
  omega

theorem gridAfterNear {origin period now : Nat} (due : origin ≤ now) :
    gridAfter origin period now ≤ now + period := by
  have within := Nat.div_mul_le_self (now - origin) period
  rw [gridAfter, Nat.succ_mul]
  omega

theorem gridAfterShift {origin period now k : Nat} (positive : 0 < period)
    (past : origin + k * period ≤ now) :
    gridAfter (origin + k * period) period now = gridAfter origin period now := by
  have shift : now - origin = now - (origin + k * period) + k * period := by omega
  rw [gridAfter, gridAfter, shift, Nat.add_mul_div_right _ _ positive]
  simp only [Nat.add_mul]
  omega

theorem gridAfterLe {origin period now k : Nat} (positive : 0 < period) (due : origin ≤ now) :
    gridAfter origin period now ≤ origin + k * period ↔ now < origin + k * period := by
  have count : (now - origin) / period < k ↔ now - origin < k * period :=
    Nat.div_lt_iff_lt_mul positive
  have point : ((now - origin) / period + 1) * period ≤ k * period ↔ (now - origin) / period + 1 ≤ k :=
    Nat.mul_le_mul_right_iff positive
  rw [gridAfter, Nat.add_le_add_iff_left, point, Nat.succ_le_iff, count]
  omega

theorem gridAfterMoved (origin period now span : Nat) :
    gridAfter (origin + span) period (now + span) = gridAfter origin period now + span := by
  rw [gridAfter, gridAfter, Nat.add_sub_add_right]
  omega

namespace Schedule

theorem takeTriggerOk {s : Schedule} {now : Nat} {out : Bool × Schedule} :
    s.takeTrigger now = .ok out ↔
      now < s.nextTrigger ∧ out = (false, s) ∨
      s.nextTrigger ≤ now ∧ gridAfter s.nextTrigger s.triggerPeriod now < wordLimit ∧
        out = (true, { s with nextTrigger := gridAfter s.nextTrigger s.triggerPeriod now }) := by
  unfold takeTrigger
  split
  · rename_i early
    constructor
    · intro same
      cases same
      exact .inl ⟨early, rfl⟩
    · rintro (⟨_, rfl⟩ | ⟨due, _⟩)
      · rfl
      · exact absurd early (Nat.not_lt.mpr due)
  · rename_i due
    simp only [bindOk, inWordOk]
    constructor
    · rintro ⟨_, ⟨_, rfl⟩, _, ⟨_, rfl⟩, _, ⟨fits, rfl⟩, same⟩
      cases same
      exact .inr ⟨Nat.not_lt.mp due, fits, rfl⟩
    · rintro (⟨early, _⟩ | ⟨_, fits, rfl⟩)
      · exact absurd early due
      · have span : ((now - s.nextTrigger) / s.triggerPeriod + 1) * s.triggerPeriod < wordLimit :=
          Nat.lt_of_le_of_lt (Nat.le_add_left _ _) fits
        have count : (now - s.nextTrigger) / s.triggerPeriod + 1 < wordLimit :=
          Nat.lt_of_le_of_lt (Nat.le_mul_of_pos_right _ s.triggerPeriodPos) span
        exact ⟨_, ⟨count, rfl⟩, _, ⟨span, rfl⟩, _, ⟨fits, rfl⟩, rfl⟩

theorem takeHeartbeatOk {s : Schedule} {now : Nat} {out : Option UInt32 × Schedule} :
    s.takeHeartbeat now = .ok out ↔
      now < s.nextHeartbeat ∧ out = (none, s) ∨
      s.nextHeartbeat ≤ now ∧ s.nextHeartbeat + s.heartbeatPeriod < wordLimit ∧
        out = (some (s.uptime now),
          { s with nextHeartbeat := s.nextHeartbeat + s.heartbeatPeriod }) := by
  unfold takeHeartbeat
  split
  · rename_i early
    constructor
    · intro same
      cases same
      exact .inl ⟨early, rfl⟩
    · rintro (⟨_, rfl⟩ | ⟨due, _⟩)
      · rfl
      · exact absurd early (Nat.not_lt.mpr due)
  · rename_i due
    simp only [bindOk, inWordOk]
    constructor
    · rintro ⟨_, ⟨fits, rfl⟩, same⟩
      cases same
      exact .inr ⟨Nat.not_lt.mp due, fits, rfl⟩
    · rintro (⟨early, _⟩ | ⟨_, fits, rfl⟩)
      · exact absurd early due
      · exact ⟨_, ⟨fits, rfl⟩, rfl⟩

theorem triggerTaken {s : Schedule} {now : Nat}
    (fits : s.nextTrigger ≤ now → gridAfter s.nextTrigger s.triggerPeriod now < wordLimit) :
    ∃ due s', s.takeTrigger now = .ok (due, s') := by
  rcases Nat.lt_or_ge now s.nextTrigger with early | due
  · exact ⟨_, _, takeTriggerOk.mpr (.inl ⟨early, rfl⟩)⟩
  · exact ⟨_, _, takeTriggerOk.mpr (.inr ⟨due, fits due, rfl⟩)⟩

theorem heartbeatTaken {s : Schedule} {now : Nat}
    (fits : s.nextHeartbeat ≤ now → s.nextHeartbeat + s.heartbeatPeriod < wordLimit) :
    ∃ uptime? s', s.takeHeartbeat now = .ok (uptime?, s') := by
  rcases Nat.lt_or_ge now s.nextHeartbeat with early | due
  · exact ⟨_, _, takeHeartbeatOk.mpr (.inl ⟨early, rfl⟩)⟩
  · exact ⟨_, _, takeHeartbeatOk.mpr (.inr ⟨due, fits due, rfl⟩)⟩

structure Asked (s : Schedule) (now : Nat) (due : Bool) (uptime? : Option UInt32)
    (s' : Schedule) : Prop where
  boot : s'.boot = s.boot
  triggerPeriod : s'.triggerPeriod = s.triggerPeriod
  heartbeatPeriod : s'.heartbeatPeriod = s.heartbeatPeriod
  due : due = decide (s.nextTrigger ≤ now)
  nextTrigger : now < s'.nextTrigger
  uptime : uptime? = if s.nextHeartbeat ≤ now then some (s.uptime now) else none
  nextHeartbeat : s'.nextHeartbeat =
    s.nextHeartbeat + if s.nextHeartbeat ≤ now then s.heartbeatPeriod else 0

theorem triggerAsked {s s' : Schedule} {now : Nat} {due : Bool}
    (taken : s.takeTrigger now = .ok (due, s')) :
    due = decide (s.nextTrigger ≤ now) ∧ now < s'.nextTrigger ∧
      s' = { s with nextTrigger := s'.nextTrigger } := by
  rcases takeTriggerOk.mp taken with ⟨early, same⟩ | ⟨passed, _, same⟩
  · cases same
    exact ⟨(decide_eq_false (Nat.not_le.mpr early)).symm, early, rfl⟩
  · cases same
    exact ⟨(decide_eq_true passed).symm, gridAfterLater s.triggerPeriodPos, rfl⟩

theorem triggerKeeps {s s' : Schedule} {now : Nat} {due : Bool}
    (taken : s.takeTrigger now = .ok (due, s')) : s'.nextHeartbeat = s.nextHeartbeat := by
  obtain ⟨_, _, rest⟩ := triggerAsked taken
  rw [rest]

theorem heartbeatKeeps {s s' : Schedule} {now : Nat} {uptime? : Option UInt32}
    (taken : s.takeHeartbeat now = .ok (uptime?, s')) : s'.nextTrigger = s.nextTrigger := by
  rcases takeHeartbeatOk.mp taken with ⟨_, same⟩ | ⟨_, _, same⟩
  · cases same
    rfl
  · cases same
    rfl

theorem asked {s s₁ s₂ : Schedule} {now : Nat} {due : Bool} {uptime? : Option UInt32}
    (taken : s.takeTrigger now = .ok (due, s₁)) (beaten : s₁.takeHeartbeat now = .ok (uptime?, s₂)) :
    s.Asked now due uptime? s₂ := by
  obtain ⟨decided, later, same⟩ := triggerAsked taken
  generalize s₁.nextTrigger = next at later same
  subst same
  rcases takeHeartbeatOk.mp beaten with ⟨early, same⟩ | ⟨passed, _, same⟩
  · cases same
    have future : ¬ s.nextHeartbeat ≤ now := Nat.not_le.mpr early
    exact ⟨rfl, rfl, rfl, decided, later, (if_neg future).symm, by simp [future]⟩
  · cases same
    have past : s.nextHeartbeat ≤ now := passed
    exact ⟨rfl, rfl, rfl, decided, later, (if_pos past).symm, by simp [past]⟩

theorem backlogLt {s : Schedule} {now k : Nat} :
    k < s.backlog now ↔ s.nextHeartbeat + k * s.heartbeatPeriod ≤ now := by
  unfold backlog
  split
  · rename_i early
    refine ⟨fun below => absurd below (Nat.not_lt_zero k), fun past => ?_⟩
    omega
  · rename_i due
    rw [Nat.lt_succ_iff, Nat.le_div_iff_mul_le s.heartbeatPeriodPos]
    omega

theorem backlogAsked {s s' : Schedule} {now : Nat} {due : Bool} {uptime? : Option UInt32}
    (asked : s.Asked now due uptime? s') : s'.backlog now = s.backlog now - 1 := by
  have moved := asked.nextHeartbeat
  by_cases passed : s.nextHeartbeat ≤ now
  · rw [if_pos passed] at moved
    unfold backlog
    rw [moved, asked.heartbeatPeriod, if_neg (Nat.not_lt.mpr passed), Nat.add_sub_cancel,
      Nat.sub_add_eq]
    split
    · exact (Nat.div_eq_of_lt (by omega)).symm
    · exact (Nat.div_eq_sub_div s.heartbeatPeriodPos (by omega)).symm
  · have early : now < s.nextHeartbeat := Nat.lt_of_not_le passed
    rw [if_neg passed, Nat.add_zero] at moved
    unfold backlog
    rw [moved, if_pos early, if_pos early]

structure OnGrid (origin s : Schedule) : Prop where
  boot : s.boot = origin.boot
  triggerPeriod : s.triggerPeriod = origin.triggerPeriod
  heartbeatPeriod : s.heartbeatPeriod = origin.heartbeatPeriod
  trigger : ∃ k, s.nextTrigger = origin.boot + k * origin.triggerPeriod
  heartbeat : ∃ k, s.nextHeartbeat = origin.boot + k * origin.heartbeatPeriod

theorem startOnGrid (boot triggerPeriod heartbeatPeriod : Nat) :
    OnGrid (start boot triggerPeriod heartbeatPeriod)
      (start boot triggerPeriod heartbeatPeriod) where
  boot := rfl
  triggerPeriod := rfl
  heartbeatPeriod := rfl
  trigger := ⟨0, by simp [start]⟩
  heartbeat := ⟨0, by simp [start]⟩

structure Lasts (origin : Schedule) (now : Nat) : Prop where
  trigger : gridAfter origin.boot origin.triggerPeriod now < wordLimit
  heartbeat : gridAfter origin.boot origin.heartbeatPeriod now < wordLimit

theorem lastsEarlier {origin : Schedule} {now later : Nat} (order : now ≤ later)
    (lasts : origin.Lasts later) : origin.Lasts now where
  trigger := Nat.lt_of_le_of_lt (gridAfterMono order) lasts.trigger
  heartbeat := Nat.lt_of_le_of_lt (gridAfterMono order) lasts.heartbeat

section
variable {origin s s' : Schedule} {now : Nat}

theorem triggerOnGrid (grid : OnGrid origin s) {due : Bool}
    (taken : s.takeTrigger now = .ok (due, s')) : OnGrid origin s' := by
  rcases takeTriggerOk.mp taken with ⟨_, same⟩ | ⟨_, _, same⟩
  · cases same
    exact grid
  · cases same
    obtain ⟨k, stands⟩ := grid.trigger
    refine { grid with trigger := ⟨k + ((now - s.nextTrigger) / s.triggerPeriod + 1), ?_⟩ }
    rw [← grid.triggerPeriod] at stands ⊢
    rw [Nat.add_mul, ← Nat.add_assoc, ← stands, gridAfter]

theorem heartbeatOnGrid (grid : OnGrid origin s) {uptime? : Option UInt32}
    (taken : s.takeHeartbeat now = .ok (uptime?, s')) : OnGrid origin s' := by
  rcases takeHeartbeatOk.mp taken with ⟨_, same⟩ | ⟨_, _, same⟩
  · cases same
    exact grid
  · cases same
    obtain ⟨k, stands⟩ := grid.heartbeat
    refine { grid with heartbeat := ⟨k + 1, ?_⟩ }
    rw [← grid.heartbeatPeriod] at stands ⊢
    rw [Nat.succ_mul, ← Nat.add_assoc, ← stands]

theorem bootReached (grid : OnGrid origin s) : origin.boot ≤ s.nextTrigger := by
  obtain ⟨k, stands⟩ := grid.trigger
  exact stands ▸ Nat.le_add_right _ _

theorem triggerTarget (grid : OnGrid origin s) (due : s.nextTrigger ≤ now) :
    gridAfter s.nextTrigger s.triggerPeriod now = gridAfter origin.boot origin.triggerPeriod now := by
  obtain ⟨k, stands⟩ := grid.trigger
  rw [grid.triggerPeriod, stands]
  exact gridAfterShift origin.triggerPeriodPos (stands ▸ due)

theorem triggerFits (grid : OnGrid origin s) (lasts : origin.Lasts now) :
    ∃ due s', s.takeTrigger now = .ok (due, s') := by
  refine triggerTaken ?_
  intro due
  exact (triggerTarget grid due).symm ▸ lasts.trigger

theorem heartbeatFits (grid : OnGrid origin s) (lasts : origin.Lasts now) :
    ∃ uptime? s', s.takeHeartbeat now = .ok (uptime?, s') := by
  refine heartbeatTaken ?_
  intro due
  obtain ⟨k, stands⟩ := grid.heartbeat
  have target : s.nextHeartbeat + s.heartbeatPeriod ≤
      gridAfter origin.boot origin.heartbeatPeriod now := by
    rw [← gridAfterShift origin.heartbeatPeriodPos (stands ▸ due), ← stands, gridAfter,
      grid.heartbeatPeriod, Nat.succ_mul]
    omega
  exact Nat.lt_of_le_of_lt target lasts.heartbeat

end

end Schedule

end Rangefinder
