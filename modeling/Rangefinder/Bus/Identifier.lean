/-! The numbers that name things on the bus, each below the capacity of its field. A raw number
is either checked (`ofNat?`) or reduced to the width of the field (`truncate`). -/
namespace Rangefinder.Bus

inductive Priority
  | exceptional
  | immediate
  | fast
  | high
  | nominal
  | low
  | slow
  | optional
  deriving DecidableEq, Repr

namespace Priority

instance : Inhabited Priority := ⟨nominal⟩

def code : Priority → Nat
  | exceptional => 0
  | immediate => 1
  | fast => 2
  | high => 3
  | nominal => 4
  | low => 5
  | slow => 6
  | optional => 7

def ofCode (raw : Nat) : Priority :=
  match raw % 8 with
  | 0 => exceptional
  | 1 => immediate
  | 2 => fast
  | 3 => high
  | 4 => nominal
  | 5 => low
  | 6 => slow
  | _ => optional

instance : Ord Priority := ⟨fun a b => compare a.code b.code⟩

theorem codeLt (p : Priority) : p.code < 8 := by cases p <;> decide

theorem ofCodeCode (p : Priority) : ofCode p.code = p := by cases p <;> rfl

theorem codeOfCode (raw : Nat) : (ofCode raw).code = raw % 8 := by
  have bound : raw % 8 < 8 := Nat.mod_lt _ (by decide)
  unfold ofCode
  generalize raw % 8 = r at bound ⊢
  match r, bound with
  | 0, _ | 1, _ | 2, _ | 3, _ | 4, _ | 5, _ | 6, _ | 7, _ => rfl

end Priority

@[ext] structure Field (greatest : Nat) where
  val : Nat
  fits : val ≤ greatest
  deriving DecidableEq, Repr

namespace Field

variable {greatest : Nat}

instance : Ord (Field greatest) := ⟨fun a b => compare a.val b.val⟩

def truncate (raw : Nat) : Field greatest :=
  ⟨raw % (greatest + 1), Nat.le_of_lt_succ (Nat.mod_lt _ (Nat.succ_pos _))⟩

def ofNat? (raw : Nat) : Option (Field greatest) :=
  if h : raw ≤ greatest then some ⟨raw, h⟩ else none

def last : Field greatest := ⟨greatest, Nat.le_refl _⟩

@[simp] theorem valTruncate (raw : Nat) :
    (truncate raw : Field greatest).val = raw % (greatest + 1) := rfl

theorem truncateVal (f : Field greatest) : truncate f.val = f :=
  Field.ext (Nat.mod_eq_of_lt (Nat.lt_succ_of_le f.fits))

end Field

inductive IdentifierError
  | subject (raw : Nat)
  | node (raw : Nat)
  deriving DecidableEq, Repr

abbrev SubjectId := Field 32767

abbrev NodeId := Field 127

abbrev TransferId := Field 31

def SubjectId.ofNat? (raw : Nat) : Except IdentifierError SubjectId :=
  (Field.ofNat? raw).elim (.error (.subject raw)) .ok

def NodeId.ofNat? (raw : Nat) : Except IdentifierError NodeId :=
  (Field.ofNat? raw).elim (.error (.node raw)) .ok

def IdentifierError.message : IdentifierError → String
  | subject raw => s!"Invalid subject id {raw}: must be <= {(Field.last : SubjectId).val}"
  | node raw => s!"Invalid node id {raw}: must be <= {(Field.last : NodeId).val}"

namespace TransferId

def first : TransferId := ⟨0, Nat.zero_le _⟩

def next (t : TransferId) : TransferId := .truncate (t.val + 1)

theorem nextTruncate (k : Nat) : next (.truncate k) = .truncate (k + 1) :=
  Field.ext (by simp [next])

end TransferId

end Rangefinder.Bus
