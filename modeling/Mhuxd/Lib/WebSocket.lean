import Mathlib

/-!
# WebSocket frames

The frame format: two bytes with the flags, the opcode and the length, an extended length in network order,
the masking key of a client's frame, the payload. `read` takes one whole frame off a byte string.
-/

namespace WebSocket

/-- A frame as it is on the wire, its payload unmasked. -/
structure Frame where
  fin : Bool
  rsv : UInt8
  opcode : UInt8
  key : Option (List UInt8)
  payload : List UInt8
deriving DecidableEq

def bigEndian (bs : List UInt8) : Nat := bs.foldl (fun n b => n * 256 + b.toNat) 0

/-- A number of `k` bytes and what follows. -/
def readNat (k : Nat) (bs : List UInt8) : Option (Nat × List UInt8) :=
  if bs.length < k then none else some (bigEndian (bs.take k), bs.drop k)

/-- The payload's length, from the seven bits of the second byte and the bytes after it. -/
def readLen (n7 : Nat) (bs : List UInt8) : Option (Nat × List UInt8) :=
  if n7 = 126 then readNat 2 bs
  else if n7 = 127 then readNat 8 bs
  else some (n7, bs)

/-- A payload and its masked form are each other's. -/
def mask (key payload : List UInt8) : List UInt8 := payload.mapIdx fun i b => b ^^^ key.getD (i % 4) 0

/-- The payload of `n` bytes, behind the key of a masked frame. -/
def readPayload (masked : Bool) (n : Nat) (bs : List UInt8) : Option (Option (List UInt8) × List UInt8 × List UInt8) :=
  if masked then
    if bs.length < 4 + n then none
    else some (some (bs.take 4), mask (bs.take 4) ((bs.drop 4).take n), bs.drop (4 + n))
  else if bs.length < n then none
  else some (none, bs.take n, bs.drop n)

/-- The first frame of a byte string and what follows it, if it is there as a whole. -/
def read : List UInt8 → Option (Frame × List UInt8)
  | b0 :: b1 :: bs =>
    (readLen (b1 &&& 0x7f).toNat bs).bind fun (n, bs) =>
      (readPayload (b1 &&& 0x80 != 0) n bs).map fun (key, payload, rest) =>
        (⟨b0 &&& 0x80 != 0, b0 &&& 0x70, b0 &&& 0x0f, key, payload⟩, rest)
  | _ => none

variable {bs rest : List UInt8} {n n7 : Nat}

@[simp] theorem bigEndian_nil : bigEndian [] = 0 := rfl

theorem bigEndian_append (b : UInt8) : bigEndian (bs ++ [b]) = bigEndian bs * 256 + b.toNat := by
  simp [bigEndian, List.foldl_append]

/-- `k` bytes of a number, in network order. -/
def toBigEndian : Nat → Nat → List UInt8
  | 0, _ => []
  | k + 1, n => toBigEndian k (n / 256) ++ [UInt8.ofNat n]

@[simp] theorem toBigEndian_length (k n : Nat) : (toBigEndian k n).length = k := by
  induction k generalizing n with
  | zero => rfl
  | succ k ih => simp [toBigEndian, ih]

theorem bigEndian_toBigEndian {k : Nat} (h : n < 256 ^ k) : bigEndian (toBigEndian k n) = n := by
  induction k generalizing n with
  | zero => simp at h; simp [toBigEndian, h]
  | succ k ih =>
    have hdiv : n / 256 < 256 ^ k := by
      rw [pow_succ] at h
      omega
    rw [toBigEndian, bigEndian_append, ih hdiv, UInt8.toNat_ofNat']
    omega

theorem readNat_toBigEndian {k : Nat} (h : n < 256 ^ k) (bs : List UInt8) :
    readNat k (toBigEndian k n ++ bs) = some (n, bs) := by
  simp [readNat, bigEndian_toBigEndian h]

/-! ### What is read is read from bytes of its own -/

theorem readNat_own {k : Nat} (h : readNat k bs = some (n, rest)) :
    ∃ pre, bs = pre ++ rest ∧ pre.length = k ∧ ∀ bs, readNat k (pre ++ bs) = some (n, bs) := by
  unfold readNat at h
  split_ifs at h with hlen
  cases h
  have hk : (bs.take k).length = k := by rw [List.length_take]; omega
  refine ⟨bs.take k, (List.take_append_drop k bs).symm, hk, fun bs => ?_⟩
  rw [readNat, if_neg (by rw [List.length_append]; omega), List.take_left' hk, List.drop_left' hk]

theorem readLen_own  (h : readLen n7 bs = some (n, rest)) :
    ∃ pre, bs = pre ++ rest ∧ pre.length ≤ 8 ∧ ∀ bs, readLen n7 (pre ++ bs) = some (n, bs) := by
  unfold readLen at h ⊢
  split_ifs at h ⊢
  · obtain ⟨pre, hbs, hlen, hown⟩ := readNat_own h
    exact ⟨pre, hbs, by omega, hown⟩
  · obtain ⟨pre, hbs, hlen, hown⟩ := readNat_own h
    exact ⟨pre, hbs, by omega, hown⟩
  · cases h
    exact ⟨[], rfl, by simp, fun _ => rfl⟩

theorem readLen_none (h : readLen n7 bs = none) : bs.length < 8 := by
  unfold readLen readNat at h
  split_ifs at h <;> omega

end WebSocket
