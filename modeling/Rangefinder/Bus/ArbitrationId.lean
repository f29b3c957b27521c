import Rangefinder.Bus.Identifier

/-! The identifier of a frame. From the top: three bits of priority (28 to 26), the service flag (25),
the anonymous flag (24), a reserved bit (23), fifteen bits of subject (22 to 8), a reserved bit (7)
and seven bits of source. A raw word may carry more than the 29 bits that the bus transmits. -/
namespace Rangefinder.Bus

structure ArbitrationId where
  raw : UInt32
  deriving DecidableEq, Repr

namespace ArbitrationId

def bit (id : ArbitrationId) (i : Nat) : Bool := id.raw.toNat.testBit i

def priority (id : ArbitrationId) : Priority := .ofCode (id.raw.toNat / 67108864)

def subject (id : ArbitrationId) : SubjectId := .truncate (id.raw.toNat / 256)

def source (id : ArbitrationId) : NodeId := .truncate id.raw.toNat

def isMessage (id : ArbitrationId) : Bool := !id.bit 25 && !id.bit 23 && !id.bit 7

def isAnonymous (id : ArbitrationId) : Bool := id.bit 24

def extended (id : ArbitrationId) : ArbitrationId := ⟨UInt32.ofNat (id.raw.toNat % 536870912)⟩

def build (priority : Priority) (subject : SubjectId) (source : NodeId) : ArbitrationId :=
  ⟨UInt32.ofNat (priority.code * 67108864 + subject.val * 256 + source.val)⟩

theorem rawBuild (p : Priority) (s : SubjectId) (n : NodeId) :
    (build p s n).raw.toNat = p.code * 67108864 + s.val * 256 + n.val := by
  have hp := p.codeLt
  have hs := s.fits
  have hn := n.fits
  simp only [build, UInt32.toNat_ofNat']
  omega

theorem priorityBuild (p : Priority) (s : SubjectId) (n : NodeId) :
    (build p s n).priority = p := by
  have hs := s.fits
  have hn := n.fits
  have : (build p s n).raw.toNat / 67108864 = p.code := by
    rw [rawBuild]
    omega
  rw [priority, this, Priority.ofCodeCode]

theorem subjectBuild (p : Priority) (s : SubjectId) (n : NodeId) :
    (build p s n).subject = s := by
  have hs := s.fits
  have hn := n.fits
  apply Field.ext
  simp only [subject, Field.valTruncate, rawBuild]
  omega

theorem sourceBuild (p : Priority) (s : SubjectId) (n : NodeId) :
    (build p s n).source = n := by
  have hn := n.fits
  apply Field.ext
  simp only [source, Field.valTruncate, rawBuild]
  omega

theorem clearBuild (p : Priority) (s : SubjectId) (n : NodeId) :
    ∀ i ∈ [7, 23, 24, 25], (build p s n).bit i = false := by
  have hs := s.fits
  have hn := n.fits
  simp only [List.forall_mem_cons, bit, rawBuild, Nat.testBit_eq_decide_div_mod_eq,
    decide_eq_false_iff_not]
  refine ⟨?_, ?_, ?_, ?_, nofun⟩ <;> omega

theorem messageBuild (p : Priority) (s : SubjectId) (n : NodeId) :
    (build p s n).isMessage = true := by
  simp [isMessage, clearBuild]

theorem namedBuild (p : Priority) (s : SubjectId) (n : NodeId) :
    (build p s n).isAnonymous = false := clearBuild p s n 24 (by simp)

end ArbitrationId

end Rangefinder.Bus
