import Mhuxd.Lib.Blocks

/-!
# SHA-1

The hash as its standard defines it: the message is padded to whole blocks of 64 bytes, and the blocks are folded into
five words by the compression function. `Ch`, `Parity` and `Maj` are bitwise, sums are modulo 2^32.
-/

namespace Sha1

/-- `ROTL`. -/
def rotl (n : UInt32) (x : UInt32) : UInt32 := (x <<< n) ||| (x >>> (32 - n))

def ch (x y z : UInt32) : UInt32 := (x &&& y) ^^^ (~~~x &&& z)
def parity (x y z : UInt32) : UInt32 := x ^^^ y ^^^ z
def maj (x y z : UInt32) : UInt32 := (x &&& y) ^^^ (x &&& z) ^^^ (y &&& z)

/-- The function of round `t`. -/
def f (t : Nat) : UInt32 → UInt32 → UInt32 → UInt32 :=
  if t < 20 then ch else if t < 40 then parity else if t < 60 then maj else parity

/-- The constant of round `t`. -/
def k (t : Nat) : UInt32 :=
  if t < 20 then 0x5a827999 else if t < 40 then 0x6ed9eba1 else if t < 60 then 0x8f1bbcdc else 0xca62c1d6

/-- Four bytes, the most significant first. -/
def word (bs : List UInt8) (t : Nat) : UInt32 :=
  (bs.getD (4 * t) 0).toUInt32 <<< 24 ||| (bs.getD (4 * t + 1) 0).toUInt32 <<< 16 |||
    (bs.getD (4 * t + 2) 0).toUInt32 <<< 8 ||| (bs.getD (4 * t + 3) 0).toUInt32

/-- The message schedule of a block. -/
def w (block : List UInt8) (t : Nat) : UInt32 :=
  if t < 16 then word block t
  else rotl 1 (w block (t - 3) ^^^ w block (t - 8) ^^^ w block (t - 14) ^^^ w block (t - 16))
termination_by t
decreasing_by all_goals omega

/-- The five words that are carried along. -/
structure Words where
  a : UInt32
  b : UInt32
  c : UInt32
  d : UInt32
  e : UInt32
deriving DecidableEq

def H0 : Words := ⟨0x67452301, 0xefcdab89, 0x98badcfe, 0x10325476, 0xc3d2e1f0⟩

/-- One round. -/
def round (block : List UInt8) (v : Words) (t : Nat) : Words :=
  ⟨rotl 5 v.a + f t v.b v.c v.d + v.e + k t + w block t, v.a, rotl 30 v.b, v.c, v.d⟩

/-- The compression function. -/
def compress (h : Words) (block : List UInt8) : Words :=
  let v := (List.range 80).foldl (round block) h
  ⟨h.a + v.a, h.b + v.b, h.c + v.c, h.d + v.d, h.e + v.e⟩

/-- A number in eight bytes, the most significant first. -/
def be64 (x : Nat) : List UInt8 := (List.range 8).map fun i => UInt8.ofNat (x / 256 ^ (7 - i))

/-- The zeros that fill the last block. -/
def zeros (len : Nat) : Nat := (64 - (len + 9) % 64) % 64

/-- The padded message. -/
def pad (m : List UInt8) : List UInt8 := m ++ 0x80 :: (List.replicate (zeros m.length) 0 ++ be64 (8 * m.length))

/-- A word in four bytes, the most significant first. -/
def be32 (x : UInt32) : List UInt8 := [(x >>> 24).toUInt8, (x >>> 16).toUInt8, (x >>> 8).toUInt8, x.toUInt8]

def Words.bytes (h : Words) : List UInt8 := be32 h.a ++ be32 h.b ++ be32 h.c ++ be32 h.d ++ be32 h.e

/-- The hash of a message. -/
def hash (m : List UInt8) : List UInt8 := (Blocks.digest 64 compress H0 (pad m)).1.bytes

@[simp] theorem length_be64 (x : Nat) : (be64 x).length = 8 := by simp [be64]

@[simp] theorem length_hash (m : List UInt8) : (hash m).length = 20 := rfl

end Sha1
