import Rangefinder.Message.Basic

/-! The sign of life of a node. Four bytes hold the uptime in seconds. Three more hold, from the low
bit, two bits of health, three of mode and nineteen of a vendor's status code; a wider code loses its
high bits on the wire. Modes 4, 5 and 6 are reserved. -/
namespace Rangefinder.Message

inductive Health
  | nominal
  | advisory
  | caution
  | warning
  deriving DecidableEq, Repr

namespace Health

def code : Health → Nat
  | nominal => 0
  | advisory => 1
  | caution => 2
  | warning => 3

def ofCode (raw : Nat) : Health :=
  match raw % 4 with
  | 0 => nominal
  | 1 => advisory
  | 2 => caution
  | _ => warning

theorem codeLt (h : Health) : h.code < 4 := by cases h <;> decide

theorem codeOfCode (raw : Nat) : (ofCode raw).code = raw % 4 := by
  have bound : raw % 4 < 4 := Nat.mod_lt _ (by decide)
  unfold ofCode
  generalize raw % 4 = r at bound ⊢
  match r, bound with
  | 0, _ | 1, _ | 2, _ | 3, _ => rfl

end Health

inductive Mode
  | operational
  | initialization
  | maintenance
  | softwareUpdate
  | offline
  deriving DecidableEq, Repr

namespace Mode

def code : Mode → Nat
  | operational => 0
  | initialization => 1
  | maintenance => 2
  | softwareUpdate => 3
  | offline => 7

def ofCode? (raw : Nat) : Option Mode :=
  match raw % 8 with
  | 0 => some operational
  | 1 => some initialization
  | 2 => some maintenance
  | 3 => some softwareUpdate
  | 7 => some offline
  | _ => none

theorem codeLt (m : Mode) : m.code < 8 := by cases m <;> decide

theorem codeOfCode {raw m} (h : ofCode? raw = some m) : m.code = raw % 8 := by
  unfold ofCode? at h
  split at h <;> simp_all <;> subst h <;> rfl

end Mode

structure Heartbeat where
  uptime : UInt32
  health : Health
  mode : Mode
  vendorCode : UInt32
  deriving DecidableEq, Repr

namespace Heartbeat

def nominal (uptime : UInt32) : Heartbeat := ⟨uptime, .nominal, .operational, 0⟩

def status (h : Heartbeat) : Nat :=
  h.health.code + h.mode.code * 4 + h.vendorCode.toNat % 524288 * 32

instance : Layout Heartbeat where
  subject := ⟨32085, by decide⟩
  size := 7
  toBytes h := littleEndian 4 h.uptime.toNat ++ littleEndian 3 h.status
  ofBytes bytes :=
    let status := ofLittleEndian (bytes.drop 4)
    match Mode.ofCode? (status / 4) with
    | none => .error (.malformed "mode")
    | some mode =>
      .ok
        { uptime := UInt32.ofNat (ofLittleEndian (bytes.take 4))
          health := .ofCode status
          mode
          vendorCode := UInt32.ofNat (status / 32) }

end Heartbeat

end Rangefinder.Message
