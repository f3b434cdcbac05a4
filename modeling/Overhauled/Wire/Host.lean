/-
  Overhauled.Wire.Host — how a host keeps a word in memory, and binary64 numbers as
  their bit patterns.

  `memory host n v` is what copying an `n`-byte integer `v` out of a variable gives;
  `ofMemory` is the copy into one. A double is its 64 bits; `twice` is `value *= 2.0`:
  the exponent is raised by one, a subnormal's bits are shifted (which also makes the
  step to the smallest normal), the largest exponent overflows to infinity, infinities
  stay, and a NaN is made quiet.
-/

import Overhauled.Wire.Bytes

namespace Overhauled.Wire

inductive Host where
  | little | big
  deriving DecidableEq, Repr

def memory : Host → Nat → Nat → Bytes
  | .big, n, v => be n v
  | .little, n, v => (be n v).reverse

def ofMemory : Host → Bytes → Nat
  | .big, w => ofBe w
  | .little, w => ofBe w.reverse

@[simp] theorem length_memory (host : Host) (n v : Nat) : (memory host n v).length = n := by
  cases host <;> simp [memory]

theorem ofMemory_lt (host : Host) (w : Bytes) : ofMemory host w < 256 ^ w.length := by
  cases host with
  | big => exact ofBe_lt w
  | little =>
    have h := ofBe_lt w.reverse
    rwa [List.length_reverse] at h

theorem ofMemory_memory (host : Host) {n v : Nat} (h : v < 256 ^ n) : ofMemory host (memory host n v) = v := by
  cases host with
  | big => exact ofBe_be_of_lt h
  | little => rw [memory, ofMemory, List.reverse_reverse, ofBe_be_of_lt h]

theorem memory_ofMemory (host : Host) (w : Bytes) : memory host w.length (ofMemory host w) = w := by
  cases host with
  | big => exact be_ofBe w
  | little =>
    have h := be_ofBe w.reverse
    rw [List.length_reverse] at h
    rw [memory, ofMemory, h, List.reverse_reverse]

def exponent (bits : UInt64) : Nat := bits.toNat / 2 ^ 52 % 2048

/-- `std::isfinite` -/
def isFinite (bits : UInt64) : Bool := exponent bits ≠ 2047

def twice (bits : UInt64) : UInt64 :=
  let sign := bits.toNat / 2 ^ 63 * 2 ^ 63
  let fraction := bits.toNat % 2 ^ 52
  if exponent bits = 2047 then
    if fraction = 0 then bits else bits ||| (0x0008000000000000 : UInt64)
  else if exponent bits = 0 then UInt64.ofNat (sign + fraction * 2)
  else if exponent bits = 2046 then UInt64.ofNat (sign + 2047 * 2 ^ 52)
  else UInt64.ofNat (bits.toNat + 2 ^ 52)

-- 1.5 and the largest subnormal, doubled; the largest finite number overflows.
example : twice 0x3ff8000000000000 = 0x4008000000000000 := by decide
example : twice 0x800fffffffffffff = 0x801ffffffffffffe := by decide
example : twice 0x7fefffffffffffff = 0x7ff0000000000000 := by decide

end Overhauled.Wire
