/-! The check of a transfer that needs several frames: the remainder of the bytes, first bit highest,
after division by x^16 + x^12 + x^5 + 1 over GF(2), started from all ones. One bit is taken at a
time: the sum is shifted, and a one that leaves it is folded back through the polynomial. -/
namespace Rangefinder.Bus.Checksum

abbrev Sum := BitVec 16

def start : Sum := 0xffff#16

def polynomial : Sum := 0x1021#16

def shift (s : Sum) : Sum := if s.msb then s <<< 1 ^^^ polynomial else s <<< 1

def shifts : Nat → Sum → Sum
  | 0, s => s
  | n + 1, s => shifts n (shift s)

def feed (s : Sum) (byte : UInt8) : Sum := shifts 8 (s ^^^ BitVec.ofNat 16 (byte.toNat * 256))

def feedAll (s : Sum) (bytes : List UInt8) : Sum := bytes.foldl feed s

def ofBytes (bytes : List UInt8) : Sum := feedAll start bytes

def toBytes (s : Sum) : List UInt8 := [UInt8.ofNat (s.toNat / 256), UInt8.ofNat s.toNat]

def sumBytes : Nat := 2

@[simp] theorem feedAllNil (s : Sum) : feedAll s [] = s := rfl

@[simp] theorem feedAllCons (s : Sum) (b : UInt8) (bytes : List UInt8) :
    feedAll s (b :: bytes) = feedAll (feed s b) bytes := rfl

theorem feedAllAppend (s : Sum) (front back : List UInt8) :
    feedAll s (front ++ back) = feedAll (feedAll s front) back := List.foldl_append

@[simp] theorem toBytesLength (s : Sum) : (toBytes s).length = sumBytes := rfl

end Rangefinder.Bus.Checksum
