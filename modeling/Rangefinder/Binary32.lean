/-! The 32-bit binary floating-point numbers, by their bit patterns: a sign bit, eight exponent bits
and 23 fraction bits. A result is the number nearest to the exact one, of two equally near the one
whose last bit is zero. -/
namespace Rangefinder

structure Binary32 where
  bits : UInt32
  deriving DecidableEq, Repr

namespace Binary32

def zero : Binary32 := ⟨0⟩

def roundQuotient (num den : Nat) : Nat :=
  let down := num / den
  let twice := 2 * (num % den)
  if twice < den ∨ twice = den ∧ down % 2 = 0 then down else down + 1

def leadingPlace (num den : Nat) : Int :=
  let guess : Int := num.log2 - den.log2
  if den <<< guess.toNat ≤ num <<< (-guess).toNat then guess else guess - 1

def leadingBit : Nat := 8388608

def infinityBits : Nat := 255 * leadingBit

def signBit : Nat := 2147483648

/-- The nonnegative number nearest to `num / den`. Its last place is 23 below its first, but never
below -149. Exponent and fraction form one counter, so that a carry out of the fraction needs no
care and a subnormal number has the exponent field zero. -/
def ofQuotient (num den : Nat) : Binary32 :=
  if num = 0 then zero
  else
    let place := max (leadingPlace num den - 23) (-149)
    let significand := roundQuotient (num <<< (-place).toNat) (den <<< place.toNat)
    ⟨UInt32.ofNat (min ((place + 149).toNat * leadingBit + significand) infinityBits)⟩

def magnitude (x : Binary32) : Nat := x.bits.toNat % signBit

def sign (x : Binary32) : Nat := x.bits.toNat / signBit

def exponentField (x : Binary32) : Nat := x.magnitude / leadingBit

def significand (x : Binary32) : Nat :=
  if x.exponentField = 0 then x.magnitude else x.magnitude % leadingBit + leadingBit

def place (x : Binary32) : Int := max x.exponentField 1 - 150

def mulFinite (x y : Binary32) : Binary32 :=
  let place := x.place + y.place
  let product := ofQuotient ((x.significand * y.significand) <<< place.toNat) (1 <<< (-place).toNat)
  ⟨UInt32.ofNat ((x.sign + y.sign) % 2 * signBit + product.magnitude)⟩

def isNaN (x : Binary32) : Bool := infinityBits < x.magnitude

def equals (x y : Binary32) : Bool :=
  !x.isNaN && !y.isNaN && (x.bits == y.bits || x.magnitude == 0 && y.magnitude == 0)

end Binary32

end Rangefinder
