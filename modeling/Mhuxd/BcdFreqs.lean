import Mhuxd.CatCiv
import Mhuxd.CatYbin
import Mhuxd.Lib.Bcd

/-!
# Frequencies in machine integers (`cat_civ.c`, `cat_ybin.c`)

The decoders' models count in `Nat`. Here the loops run on the integers of the source, which wrap, and are shown to count
the same: no model has so many digits that a place value or a sum would not fit.
-/

namespace Mhuxd

open Bcd (Valid)

/-! ### CI-V -/

namespace Civ

variable {p : List UInt8} {n : Nat}

/-- The loop of `dec_freq`, from a sum `f` and a place value `mul` on. -/
def decFreqLoop : List UInt8 → UInt64 → UInt64 → Option (UInt64 × UInt64)
  | [], f, mul => some (f, mul)
  | b :: bs, f, mul =>
    let lo := (b &&& (0x0f : UInt8)).toNat
    let hi := (b >>> (4 : UInt8)).toNat
    if 9 < lo ∨ 9 < hi then none else decFreqLoop bs (f + UInt64.ofNat (lo + hi * 10) * mul) (mul * 100)

/-- `dec_freq`, the frequency as `uint32_t`. -/
def decFreq32 (freqLen : Nat) (p : List UInt8) : Option UInt32 :=
  if p.length ≠ freqLen then none
  else
    match decFreqLoop p 0 1 with
    | none => none
    | some (f, _) => if f = 0 ∨ 0xffffffff < f then none else some f.toUInt32

theorem decFreqLoop_of_invalid (h : ¬ ∀ b ∈ p, Valid b) (f mul : UInt64) : decFreqLoop p f mul = none := by
  induction p generalizing f mul with
  | nil => exact absurd (fun b hb => absurd hb List.not_mem_nil) h
  | cons b p ih =>
    unfold decFreqLoop
    dsimp only
    split_ifs with hb
    · rfl
    · refine ih (fun hp => h ?_) _ _
      rw [List.forall_mem_cons]
      exact ⟨⟨Nat.le_of_not_lt fun hhi => hb (.inr hhi), Nat.le_of_not_lt fun hlo => hb (.inl hlo)⟩, hp⟩

theorem decFreqLoop_of_valid (h : ∀ b ∈ p, Valid b) (f mul : UInt64) :
    decFreqLoop p f mul = some (f + UInt64.ofNat (Bcd.ofBytes p) * mul, mul * UInt64.ofNat (100 ^ p.length)) := by
  induction p generalizing f mul with
  | nil => simp [decFreqLoop]
  | cons b p ih =>
    obtain ⟨⟨hhi, hlo⟩, hp⟩ := List.forall_mem_cons.1 h
    have hb : ¬ (9 < Bcd.lo b ∨ 9 < Bcd.hi b) := by omega
    refine (if_neg hb).trans ?_
    rw [ih hp, Bcd.ofBytes_cons, List.length_cons]
    have hbyte : UInt64.ofNat (Bcd.hi b * 10 + Bcd.lo b + 100 * Bcd.ofBytes p) =
        UInt64.ofNat (Bcd.lo b + Bcd.hi b * 10) + 100 * UInt64.ofNat (Bcd.ofBytes p) := by
      rw [Nat.add_comm (Bcd.hi b * 10), UInt64.ofNat_add, UInt64.ofNat_mul]
      rfl
    have hpow : UInt64.ofNat (100 ^ (p.length + 1)) = 100 * UInt64.ofNat (100 ^ p.length) := by
      rw [pow_succ', UInt64.ofNat_mul]
      rfl
    rw [hbyte, hpow]
    simp only [Bcd.lo, Bcd.hi, Option.some.injEq, Prod.mk.injEq]
    constructor <;> grind

/-- Up to nine bytes, neither the sum nor the place value wraps. -/
theorem decFreqLoop_exact (hlen : p.length ≤ 9) {s : UInt64 × UInt64} (h : decFreqLoop p 0 1 = some s) :
    (∀ b ∈ p, Valid b) ∧ s.1.toNat = Bcd.ofBytes p ∧ s.2.toNat = 100 ^ p.length := by
  have hvalid : ∀ b ∈ p, Valid b := by
    by_contra hno
    rw [decFreqLoop_of_invalid hno] at h
    exact nomatch h
  have hpow : 100 ^ p.length < 2 ^ 64 := lt_of_le_of_lt (Nat.pow_le_pow_right (by decide) hlen) (by decide)
  have hlt := Bcd.ofBytes_lt hvalid
  rw [decFreqLoop_of_valid hvalid] at h
  obtain rfl := Option.some.inj h
  refine ⟨hvalid, ?_, ?_⟩
  · rw [UInt64.mul_one, UInt64.zero_add, UInt64.toNat_ofNat', Nat.mod_eq_of_lt (by omega)]
  · rw [UInt64.one_mul, UInt64.toNat_ofNat', Nat.mod_eq_of_lt hpow]

theorem bcd_eq_some_iff {v : Nat} : bcd p = some v ↔ (∀ b ∈ p, Valid b) ∧ v = Bcd.ofBytes p := by
  induction p generalizing v with
  | nil => simp [bcd, eq_comm]
  | cons b p ih =>
    have hb : ¬ (9 < Bcd.lo b ∨ 9 < Bcd.hi b) ↔ Valid b := by
      unfold Bcd.Valid
      omega
    have hcons : bcd (b :: p) = if 9 < Bcd.lo b ∨ 9 < Bcd.hi b then none
        else (bcd p).map fun f => Bcd.lo b + Bcd.hi b * 10 + f * 100 := rfl
    rw [hcons, List.forall_mem_cons, Bcd.ofBytes_cons]
    split_ifs with h
    · exact ⟨nofun, fun hv => absurd h (hb.2 hv.1.1)⟩
    · simp only [Option.map_eq_some_iff, ih]
      constructor
      · rintro ⟨f, ⟨hp, rfl⟩, rfl⟩
        exact ⟨⟨hb.1 h, hp⟩, by ring⟩
      · rintro ⟨⟨-, hp⟩, rfl⟩
        exact ⟨_, ⟨hp, rfl⟩, by ring⟩

theorem decFreq_eq_some_iff {v : Nat} : decFreq n p = some v ↔ p.length = n ∧ (∀ b ∈ p, Valid b) ∧
    1 ≤ Bcd.ofBytes p ∧ Bcd.ofBytes p ≤ 2 ^ 32 - 1 ∧ v = Bcd.ofBytes p := by
  unfold decFreq
  split_ifs with hlen
  · exact ⟨nofun, fun h => absurd h.1 hlen⟩
  · rw [Option.filter_eq_some_iff, bcd_eq_some_iff, decide_eq_true_eq]
    constructor
    · rintro ⟨⟨hvalid, rfl⟩, hne, hlt⟩
      exact ⟨not_not.1 hlen, hvalid, by omega, by omega, rfl⟩
    · rintro ⟨-, hvalid, hpos, hle, rfl⟩
      exact ⟨⟨hvalid, rfl⟩, by omega, by omega⟩

theorem decFreq32_eq_some_iff (hn : n ≤ 9) {hz : UInt32} : decFreq32 n p = some hz ↔ p.length = n ∧
    (∀ b ∈ p, Valid b) ∧ 1 ≤ Bcd.ofBytes p ∧ Bcd.ofBytes p ≤ 2 ^ 32 - 1 ∧ hz.toNat = Bcd.ofBytes p := by
  unfold decFreq32
  by_cases hlen : p.length = n
  · rw [if_neg (not_not.2 hlen)]
    by_cases hvalid : ∀ b ∈ p, Valid b
    · have hloop := decFreqLoop_of_valid hvalid 0 1
      obtain ⟨-, hf, -⟩ := decFreqLoop_exact (hlen ▸ hn) hloop
      rw [hloop]
      dsimp only at hf ⊢
      generalize 0 + UInt64.ofNat (Bcd.ofBytes p) * 1 = f at hf ⊢
      have hzero : f = 0 ↔ Bcd.ofBytes p = 0 := by
        rw [← hf]
        exact UInt64.toNat_inj.symm
      have hbig : (0xffffffff : UInt64) < f ↔ 2 ^ 32 - 1 < Bcd.ofBytes p := by
        rw [← hf]
        exact UInt64.lt_iff_toNat_lt
      split_ifs with hbad
      · rw [hzero, hbig] at hbad
        exact ⟨nofun, fun h => by omega⟩
      · rw [hzero, hbig] at hbad
        have hz_eq : f.toUInt32.toNat = Bcd.ofBytes p := by
          rw [UInt64.toNat_toUInt32, hf]
          omega
        rw [Option.some.injEq, ← UInt32.toNat_inj, hz_eq]
        constructor
        · intro h
          exact ⟨hlen, hvalid, by omega, by omega, h.symm⟩
        · exact fun h => h.2.2.2.2.symm
    · rw [decFreqLoop_of_invalid hvalid]
      exact ⟨nofun, fun h => absurd h.2.1 hvalid⟩
  · rw [if_pos hlen]
    exact ⟨nofun, fun h => absurd h.1 hlen⟩

example : decFreq32 6 [0x95, 0x72, 0x96, 0x94, 0x42, 0x00] = some 4294967295 ∧
    decFreq32 6 [0x96, 0x72, 0x96, 0x94, 0x42, 0x00] = none := by decide

/-- The model's decoder reads what the source's does. -/
theorem decFreq_eq (hn : n ≤ 9) : decFreq n p = (decFreq32 n p).map UInt32.toNat := by
  ext v
  rw [decFreq_eq_some_iff, Option.map_eq_some_iff]
  simp only [decFreq32_eq_some_iff hn]
  constructor
  · rintro ⟨hlen, hvalid, hpos, hle, rfl⟩
    have hz : (UInt32.ofNat (Bcd.ofBytes p)).toNat = Bcd.ofBytes p := UInt32.toNat_ofNat_of_lt' (by
      unfold UInt32.size
      omega)
    exact ⟨_, ⟨hlen, hvalid, hpos, hle, hz⟩, hz⟩
  · rintro ⟨hz, ⟨hlen, hvalid, hpos, hle, hval⟩, rfl⟩
    exact ⟨hlen, hvalid, hpos, hle, hval⟩

end Civ

/-! ### The older Yaesu radios -/

namespace Ybin

variable {p a : List UInt8} {be : Bool} {v : Nat}

/-- The loop of `dec_bcd`. -/
def bcdLoop32 : List UInt8 → UInt32 → Option UInt32
  | [], r => some r
  | b :: bs, r =>
    let hi := (b >>> (4 : UInt8)).toNat
    let lo := (b &&& (0x0f : UInt8)).toNat
    if 9 < hi ∨ 9 < lo then none else bcdLoop32 bs (r * 100 + UInt32.ofNat (hi * 10) + UInt32.ofNat lo)

def decBcd32 (p : List UInt8) (be : Bool) : Option UInt32 := bcdLoop32 (if be then p else p.reverse) 0

/-- Tens of Hz. -/
def bcdTens32 (p : List UInt8) (be : Bool) : Option UInt32 := (decBcd32 p be).map (· * 10)

def decBe32 (p : List UInt8) : UInt32 := p.foldl (fun r b => r <<< 8 ||| b.toUInt32) 0

/-- The frequency of `rec_apply`. -/
def recHz32 (fam : Family) (a : List UInt8) (r : Rec) : Option UInt32 :=
  match fam with
  | .f757 => bcdTens32 ((a.drop r.fo).take 4) false
  | .f920 => some (decBe32 ((a.drop r.fo).take 4))
  | .fMp => some ((decBe32 ((a.drop r.fo).take 4)).toUInt64 * 10 / 16).toUInt32
  | _ => some (decBe32 ((a.drop r.fo).take 3) * 10)

theorem bcdLoop32_eq (p : List UInt8) (v : Nat) :
    bcdLoop32 p (UInt32.ofNat v) = (bcdLoop p v).map UInt32.ofNat := by
  induction p generalizing v with
  | nil => rfl
  | cons b p ih =>
    unfold bcdLoop32 bcdLoop
    dsimp only
    split_ifs with hb
    · rfl
    · rw [← ih, UInt32.ofNat_add, UInt32.ofNat_add, UInt32.ofNat_mul v]
      rfl

theorem bcdLoop_eq_some_iff {r : Nat} : bcdLoop p r = some v ↔ (∀ b ∈ p, Valid b) ∧
    v = 100 ^ p.length * r + Bcd.ofBytes p.reverse := by
  induction p generalizing r with
  | nil => simp [bcdLoop, eq_comm]
  | cons b p ih =>
    have hb : ¬ (9 < Bcd.hi b ∨ 9 < Bcd.lo b) ↔ Valid b := by
      unfold Bcd.Valid
      omega
    have hcons : bcdLoop (b :: p) r = if 9 < Bcd.hi b ∨ 9 < Bcd.lo b then none
        else bcdLoop p (r * 100 + Bcd.hi b * 10 + Bcd.lo b) := rfl
    rw [hcons, List.forall_mem_cons, List.reverse_cons, Bcd.ofBytes_concat, List.length_reverse, List.length_cons]
    split_ifs with h
    · exact ⟨nofun, fun hv => absurd h (hb.2 hv.1.1)⟩
    · rw [ih]
      have hplace : 100 ^ p.length * (r * 100 + Bcd.hi b * 10 + Bcd.lo b) + Bcd.ofBytes p.reverse =
          100 ^ (p.length + 1) * r + (Bcd.ofBytes p.reverse + 100 ^ p.length * (Bcd.hi b * 10 + Bcd.lo b)) := by ring
      rw [hplace]
      exact and_congr_left fun _ => ⟨fun hp => ⟨hb.1 h, hp⟩, And.right⟩

theorem decBcd_eq_some_iff : decBcd p be = some v ↔ (∀ b ∈ p, Valid b) ∧
    v = Bcd.ofBytes (if be then p.reverse else p) := by
  unfold decBcd
  cases be <;> simp [bcdLoop_eq_some_iff]

/-- Four bytes have eight digits. -/
theorem decBcd_lt (h : decBcd p be = some v) (hlen : p.length ≤ 4) : v < 10 ^ 8 := by
  obtain ⟨hvalid, rfl⟩ := decBcd_eq_some_iff.1 h
  have hlt : ∀ bs : List UInt8, (∀ b ∈ bs, Valid b) → bs.length ≤ 4 → Bcd.ofBytes bs < 10 ^ 8 := fun bs hbs hlen =>
    lt_of_lt_of_le (Bcd.ofBytes_lt hbs) (Nat.pow_le_pow_right (by decide : 0 < 100) hlen)
  split_ifs
  · exact hlt _ (fun b hb => hvalid b (List.mem_reverse.1 hb)) (by rwa [List.length_reverse])
  · exact hlt _ hvalid hlen

theorem decBcd32_eq (p : List UInt8) (be : Bool) : decBcd32 p be = (decBcd p be).map UInt32.ofNat := bcdLoop32_eq _ 0

theorem decBe_concat (p : List UInt8) (b : UInt8) : decBe (p ++ [b]) = decBe p * 256 + b.toNat := by
  simp [decBe, List.foldl_append]

theorem decBe_lt (p : List UInt8) : decBe p < 256 ^ p.length := by
  induction p using List.reverseRecOn with
  | nil => decide
  | append_singleton p b ih =>
    have := b.toNat_lt
    rw [decBe_concat, List.length_append, List.length_singleton, pow_succ]
    omega

theorem decBe_lt_of_le {n : Nat} (hlen : p.length ≤ n) : decBe p < 256 ^ n :=
  lt_of_lt_of_le (decBe_lt p) (Nat.pow_le_pow_right (by decide) hlen)

/-- A byte is shifted in. -/
theorem toNat_shiftIn {r : UInt32} (hr : r.toNat < 2 ^ 24) (b : UInt8) :
    (r <<< 8 ||| b.toUInt32).toNat = r.toNat * 256 + b.toNat := by
  have hb := b.toNat_lt
  have hshift : (r <<< 8).toNat = r.toNat <<< 8 := by
    rw [UInt32.toNat_shiftLeft]
    show r.toNat <<< 8 % 2 ^ 32 = r.toNat <<< 8
    rw [Nat.shiftLeft_eq]
    omega
  rw [UInt32.toNat_or, hshift, UInt8.toNat_toUInt32, ← Nat.shiftLeft_add_eq_or_of_lt hb, Nat.shiftLeft_eq]

theorem toNat_decBe32 (hlen : p.length ≤ 4) : (decBe32 p).toNat = decBe p := by
  induction p using List.reverseRecOn with
  | nil => rfl
  | append_singleton p b ih =>
    rw [List.length_append, List.length_singleton] at hlen
    have hlt : decBe p < 256 ^ 3 := decBe_lt_of_le (by omega)
    have ih := ih (by omega)
    have hconcat : decBe32 (p ++ [b]) = decBe32 p <<< 8 ||| b.toUInt32 := by simp [decBe32, List.foldl_append]
    rw [hconcat, toNat_shiftIn (by omega), ih, decBe_concat]

theorem decBe_eq (p : List UInt8) : decBe p = Nat.ofDigits 256 (p.reverse.map UInt8.toNat) := by
  induction p using List.reverseRecOn with
  | nil => rfl
  | append_singleton p b ih =>
    rw [decBe_concat, ih, List.reverse_concat, List.map_cons, Nat.ofDigits_cons]
    ring

/-- Ten times a number of eight digits. -/
theorem toNat_mul_ten (h : v < 10 ^ 8) : (UInt32.ofNat v * 10).toNat = 10 * v := by
  rw [UInt32.toNat_mul, UInt32.toNat_ofNat']
  show v % 2 ^ 32 * 10 % 2 ^ 32 = 10 * v
  omega

/-- Four bytes of BCD in tens of Hz. -/
theorem bcdTens_exact (h : decBcd p be = some v) (hlen : p.length ≤ 4) : (∀ b ∈ p, Valid b) ∧
    v * 10 = 10 * Bcd.ofBytes (if be then p.reverse else p) ∧
      ∃ hz, bcdTens32 p be = some hz ∧ hz.toNat = v * 10 := by
  obtain ⟨hvalid, hval⟩ := decBcd_eq_some_iff.1 h
  refine ⟨hvalid, by rw [hval, Nat.mul_comm], UInt32.ofNat v * 10, ?_, ?_⟩
  · rw [bcdTens32, decBcd32_eq, h]
    rfl
  · rw [toNat_mul_ten (decBcd_lt h hlen), Nat.mul_comm]

/-- What a record's digits say: tens of Hz in BCD, lowest byte first; else a number, highest byte first, of Hz, of
0.625 Hz or of tens of Hz. -/
def recFreq (fam : Family) (a : List UInt8) (r : Rec) : Nat :=
  match fam with
  | .f757 => 10 * Bcd.ofBytes ((a.drop r.fo).take 4)
  | .f920 => Nat.ofDigits 256 (((a.drop r.fo).take 4).reverse.map UInt8.toNat)
  | .fMp => 5 * Nat.ofDigits 256 (((a.drop r.fo).take 4).reverse.map UInt8.toNat) / 8
  | _ => 10 * Nat.ofDigits 256 (((a.drop r.fo).take 3).reverse.map UInt8.toNat)

/-- A record that is read has the frequency of its digits, in 32 bits. -/
theorem recHz32_exact {fam : Family} {r : Rec} {hz : Nat} (h : recHz fam a r = some hz) :
    hz = recFreq fam a r ∧ (fam = .f757 → ∀ b ∈ (a.drop r.fo).take 4, Valid b) ∧
      ∃ hz32, recHz32 fam a r = some hz32 ∧ hz32.toNat = hz := by
  have hlen4 : ((a.drop r.fo).take 4).length ≤ 4 := List.length_take_le _ _
  have hlen3 : ((a.drop r.fo).take 3).length ≤ 3 := List.length_take_le _ _
  have htens : ∀ p : List UInt8, p.length ≤ 3 → (decBe32 p * 10).toNat = 10 * decBe p := by
    intro p hp
    have hlt : decBe p < 256 ^ 3 := decBe_lt_of_le hp
    rw [UInt32.toNat_mul, toNat_decBe32 (by omega)]
    show decBe p * 10 % 2 ^ 32 = 10 * decBe p
    omega
  cases fam with
  | f757 =>
    obtain ⟨v, hv, rfl⟩ := Option.map_eq_some_iff.1 h
    obtain ⟨hvalid, hval, hz⟩ := bcdTens_exact hv hlen4
    exact ⟨hval, fun _ => hvalid, hz⟩
  | f920 =>
    obtain rfl := Option.some.inj h
    exact ⟨decBe_eq _, nofun, _, rfl, toNat_decBe32 hlen4⟩
  | fMp =>
    obtain rfl := Option.some.inj h
    refine ⟨?_, nofun, _, rfl, ?_⟩
    · rw [recFreq, ← decBe_eq]
      omega
    · have hlt : decBe ((a.drop r.fo).take 4) < 2 ^ 32 := decBe_lt_of_le hlen4
      rw [UInt64.toNat_toUInt32, UInt64.toNat_div, UInt64.toNat_mul, UInt32.toNat_toUInt64, toNat_decBe32 hlen4]
      show decBe ((a.drop r.fo).take 4) * 10 % 2 ^ 64 / 16 % 2 ^ 32 = _
      rw [Nat.mod_eq_of_lt (by omega : _ < 2 ^ 64), Nat.mod_eq_of_lt (by omega : _ < 2 ^ 32)]
  | _ =>
    obtain rfl := Option.some.inj h
    refine ⟨?_, nofun, _, rfl, ?_⟩
    · show decBe ((a.drop r.fo).take 3) * 10 = 10 * Nat.ofDigits 256 (((a.drop r.fo).take 3).reverse.map UInt8.toNat)
      rw [← decBe_eq, Nat.mul_comm]
    · rw [htens _ hlen3, Nat.mul_comm]

/-! ### What is stored -/

theorem setMode_freq (st : CatState) (slot slot' : Vfo) (mode : CatMode) (t : Nat) :
    ((st.setMode slot mode t).vfo slot').freq = (st.vfo slot').freq := by
  unfold CatState.setMode CatState.setData
  dsimp only
  split_ifs <;> cases slot <;> cases slot' <;> rfl

theorem setData_freq (st : CatState) (slot slot' : Vfo) (data : Bool) (t : Nat) :
    ((st.setData slot data t).vfo slot').freq = (st.vfo slot').freq := by
  cases slot <;> cases slot' <;> rfl

theorem freq_setFreq (y : Ybin) (ab : Option Bool) (hz t : Nat) :
    ((y.setFreq ab hz t).st.vfo (y.slotOf ab)).freq = ⟨hz, t, true⟩ := by
  show ((y.st.setFreq (y.slotOf ab) hz t).vfo (y.slotOf ab)).freq = _
  cases y.slotOf ab <;> rfl

/-- A mode that is stored after it leaves the frequency. -/
theorem freq_setFreq_setMode (y : Ybin) (ab : Option Bool) (hz : Nat) (mode : CatMode) (t : Nat) :
    (((y.setFreq ab hz t).setMode ab mode t).st.vfo (y.slotOf ab)).freq = ⟨hz, t, true⟩ := by
  rw [← freq_setFreq]
  unfold Ybin.setMode
  dsimp only
  split_ifs
  · rw [setData_freq, setMode_freq]
  · rw [setMode_freq]

/-- A call stores for a VFO the frequency that the 32-bit integers have, and that is the one of the digits. -/
def Stores (y y' : Ybin) (ab : Option Bool) (hz : Option UInt32) (freq t : Nat) : Prop :=
  ∃ hz', hz = some hz' ∧ hz'.toNat = freq ∧ (y'.st.vfo (y.slotOf ab)).freq = ⟨freq, t, true⟩

variable {y : Ybin} {ab : Option Bool} {c : List UInt8} {t : Nat}

/-- Four bytes of BCD that are stored as tens of Hz. -/
theorem stores_bcd {y' : Ybin} (h : decBcd p be = some v) (hlen : p.length ≤ 4)
    (hst : (y'.st.vfo (y.slotOf ab)).freq = ⟨v * 10, t, true⟩) : (∀ b ∈ p, Valid b) ∧
    Stores y y' ab (bcdTens32 p be) (10 * Bcd.ofBytes (if be then p.reverse else p)) t := by
  obtain ⟨hvalid, hval, hz, hdec, hnat⟩ := bcdTens_exact h hlen
  exact ⟨hvalid, hz, hdec, hnat.trans hval, hval ▸ hst⟩

/-- A status data record that is accepted. -/
theorem recApply_exact {r : Rec} (h : (y.recApply ab a r t).2 = .done) :
    (y.model.fam = .f757 → ∀ b ∈ (a.drop r.fo).take 4, Valid b) ∧
      Stores y (y.recApply ab a r t).1 ab (recHz32 y.model.fam a r) (recFreq y.model.fam a r) t := by
  unfold recApply at h ⊢
  cases hrec : recHz y.model.fam a r with
  | none =>
    rw [hrec] at h
    exact nomatch h
  | some v =>
    obtain ⟨rfl, hvalid, hz, hdec, hnat⟩ := recHz32_exact hrec
    rw [hrec] at h
    dsimp only at h ⊢
    split_ifs at h ⊢
    exact ⟨hvalid, hz, hdec, hnat, freq_setFreq_setMode y ab _ _ t⟩

/-- The answer of the FT-817 family and the FT-847 with frequency and mode. -/
theorem applyAnswer817_exact (hop : cmdOp c = 0x03) (h : (y.applyAnswer817 c a t).2 = .done) :
    (∀ b ∈ a.take 4, Valid b) ∧ Stores y (y.applyAnswer817 c a t).1 none (bcdTens32 (a.take 4) true)
      (10 * Bcd.ofBytes (a.take 4).reverse) t := by
  have hno : ¬ (cmdOp c = 0xbb ∧ a.length = 2) := fun hbb => absurd (hop.symm.trans hbb.1) (by decide)
  unfold applyAnswer817 at h ⊢
  dsimp only at h ⊢
  rw [if_neg hno] at h ⊢
  split_ifs at h ⊢
  cases hbcd : decBcd (a.take 4) true with
  | none =>
    rw [hbcd] at h
    exact nomatch h
  | some v =>
    rw [hbcd] at h
    dsimp only at h ⊢
    split_ifs at h ⊢
    exact stores_bcd hbcd (List.length_take_le _ _) (freq_setFreq_setMode y none _ _ t)

/-- The commands that set a frequency. -/
theorem applySetFreq_exact (h : (y.applySetFreq c t).2 = .done) : (∀ b ∈ c.take 4, Valid b) ∧
    ∃ ab, Stores y (y.applySetFreq c t).1 ab (bcdTens32 (c.take 4) false) (10 * Bcd.ofBytes (c.take 4)) t := by
  unfold applySetFreq at h ⊢
  dsimp only at h ⊢
  generalize (if cmdOp c = 0x8a then some true else _) = ab at h ⊢
  split_ifs at h ⊢
  cases hbcd : decBcd (c.take 4) false with
  | none =>
    rw [hbcd] at h
    exact nomatch h
  | some v =>
    rw [hbcd] at h
    dsimp only at h ⊢
    split_ifs at h ⊢
    obtain ⟨hvalid, hstores⟩ := stores_bcd hbcd (List.length_take_le _ _) (freq_setFreq y ab _ t)
    exact ⟨hvalid, ab, hstores⟩

theorem applyCommand817_exact (hop : cmdOp c = 0x01) (h : (y.applyCommand817 c t).2 = .done) :
    (∀ b ∈ c.take 4, Valid b) ∧ Stores y (y.applyCommand817 c t).1 none (bcdTens32 (c.take 4) true)
      (10 * Bcd.ofBytes (c.take 4).reverse) t := by
  unfold applyCommand817 at h ⊢
  dsimp only at h ⊢
  rw [if_pos hop] at h ⊢
  cases hbcd : decBcd (c.take 4) true with
  | none =>
    rw [hbcd] at h
    exact nomatch h
  | some v =>
    rw [hbcd] at h
    dsimp only at h ⊢
    split_ifs at h ⊢
    exact stores_bcd hbcd (List.length_take_le _ _) (freq_setFreq y none _ t)

end Ybin

/-- The CI-V decoder takes the strings of valid BCD bytes whose value is not zero and fits, and returns it; the sum and the
place value of its loop never wrap. When a record of an older Yaesu radio or a command that sets a frequency is accepted,
the radio's state gets the frequency of the digits, in 32 bits. -/
theorem bcd_freqs_exact :
    (∀ n ≤ 6, ∀ p : List UInt8, Civ.decFreq n p = (Civ.decFreq32 n p).map UInt32.toNat ∧
      ∀ hz, Civ.decFreq32 n p = some hz ↔ p.length = n ∧ (∀ b ∈ p, Valid b) ∧
        1 ≤ Bcd.ofBytes p ∧ Bcd.ofBytes p ≤ 2 ^ 32 - 1 ∧ hz.toNat = Bcd.ofBytes p) ∧
    (∀ p : List UInt8, p.length ≤ 6 → ∀ f mul, Civ.decFreqLoop p 0 1 = some (f, mul) →
      f.toNat = Bcd.ofBytes p ∧ mul.toNat = 100 ^ p.length) ∧
    ∀ (y : Ybin) (c a : List UInt8) (t : Nat),
      (∀ ab r, (y.recApply ab a r t).2 = .done →
        (y.model.fam = .f757 → ∀ b ∈ (a.drop r.fo).take 4, Valid b) ∧
        y.Stores (y.recApply ab a r t).1 ab (Ybin.recHz32 y.model.fam a r) (Ybin.recFreq y.model.fam a r) t) ∧
      (Ybin.cmdOp c = 0x03 → (y.applyAnswer817 c a t).2 = .done → (∀ b ∈ a.take 4, Valid b) ∧
        y.Stores (y.applyAnswer817 c a t).1 none (Ybin.bcdTens32 (a.take 4) true)
          (10 * Bcd.ofBytes (a.take 4).reverse) t) ∧
      (Ybin.cmdOp c = 0x01 → (y.applyCommand817 c t).2 = .done → (∀ b ∈ c.take 4, Valid b) ∧
        y.Stores (y.applyCommand817 c t).1 none (Ybin.bcdTens32 (c.take 4) true)
          (10 * Bcd.ofBytes (c.take 4).reverse) t) ∧
      ((y.applySetFreq c t).2 = .done → (∀ b ∈ c.take 4, Valid b) ∧
        ∃ ab, y.Stores (y.applySetFreq c t).1 ab (Ybin.bcdTens32 (c.take 4) false)
          (10 * Bcd.ofBytes (c.take 4)) t) := by
  refine ⟨fun n hn p => ⟨Civ.decFreq_eq (by omega), fun hz => Civ.decFreq32_eq_some_iff (by omega)⟩, ?_, ?_⟩
  · intro p hlen f mul h
    exact (Civ.decFreqLoop_exact (by omega) h).2
  · intro y c a t
    exact ⟨fun _ _ => Ybin.recApply_exact, Ybin.applyAnswer817_exact, Ybin.applyCommand817_exact,
      Ybin.applySetFreq_exact⟩

/-- 14.235 MHz of a CI-V radio, and 14.0235 MHz in the status data of the FT-757GXII. -/
theorem bcd_freqs_exact_20m : Civ.decFreq32 5 [0x00, 0x50, 0x23, 0x14, 0x00] = some 14235000 ∧
    (Ybin.create .ft757gx2 .init).Stores
      ((Ybin.create .ft757gx2 .init).recApply none [0, 0, 0, 0, 0, 0x50, 0x23, 0x40, 0x01, 2] ⟨5, 9, 0⟩ 0).1 none
      (some 14023500) 14023500 0 :=
  ⟨((bcd_freqs_exact.1 5 (by decide) [0x00, 0x50, 0x23, 0x14, 0x00]).2 14235000).2
      ⟨rfl, by decide +kernel, by decide, by decide, by decide⟩,
    ((bcd_freqs_exact.2.2 (.create .ft757gx2 .init) [] [0, 0, 0, 0, 0, 0x50, 0x23, 0x40, 0x01, 2] 0).1 none ⟨5, 9, 0⟩
      (by decide)).2⟩

end Mhuxd
