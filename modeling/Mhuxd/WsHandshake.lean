import Mhuxd.HttpRequests
import Mhuxd.Lib.Sha1
import Mhuxd.Lib.Base64

/-!
# The handshake of a WebSocket (`ws.c`)

A client proves that it reached a WebSocket server by the accept key: the hash of its own key and a fixed one, as
base64 text.
-/

namespace Mhuxd

open HttpConnection HttpServer

/-! ### The hash -/

/-- `rol32`. -/
def rol32 (v shift : UInt32) : UInt32 := (v <<< shift) ||| (v >>> (32 - shift))

/-- `struct sha1_ctx`; `block` holds `block_len` bytes. -/
structure Sha1Ctx where
  h : Sha1.Words
  length : UInt64
  block : List UInt8

namespace Sha1Ctx

/-- `sha1_init`. -/
def sha1Init : Sha1Ctx := ⟨⟨0x67452301, 0xefcdab89, 0x98badcfe, 0x10325476, 0xc3d2e1f0⟩, 0, []⟩

/-- The first words of the array `w` of `sha1_transform`. -/
def firstWords (block : List UInt8) : List UInt32 :=
  (List.range 16).map fun i =>
    (block.getD (i * 4) 0).toUInt32 <<< 24 ||| (block.getD (i * 4 + 1) 0).toUInt32 <<< 16 |||
      (block.getD (i * 4 + 2) 0).toUInt32 <<< 8 ||| (block.getD (i * 4 + 3) 0).toUInt32

/-- Its next word. -/
def addWord (w : List UInt32) (i : Nat) : List UInt32 :=
  w ++ [rol32 (w.getD (i - 3) 0 ^^^ w.getD (i - 8) 0 ^^^ w.getD (i - 14) 0 ^^^ w.getD (i - 16) 0) 1]

def schedule (block : List UInt8) : List UInt32 := (List.range' 16 64).foldl addWord (firstWords block)

/-- A turn of the last loop of `sha1_transform`. -/
def turn (w : List UInt32) (v : Sha1.Words) (i : Nat) : Sha1.Words :=
  let (f, k) :=
    if i < 20 then ((v.b &&& v.c) ||| (~~~v.b &&& v.d), (0x5a827999 : UInt32))
    else if i < 40 then (v.b ^^^ v.c ^^^ v.d, 0x6ed9eba1)
    else if i < 60 then ((v.b &&& v.c) ||| (v.b &&& v.d) ||| (v.c &&& v.d), 0x8f1bbcdc)
    else (v.b ^^^ v.c ^^^ v.d, 0xca62c1d6)
  let temp := rol32 v.a 5 + f + v.e + k + w.getD i 0
  ⟨temp, v.a, rol32 v.b 30, v.c, v.d⟩

/-- `sha1_transform`. -/
def sha1Transform (h : Sha1.Words) (block : List UInt8) : Sha1.Words :=
  let v := (List.range 80).foldl (turn (schedule block)) h
  ⟨h.a + v.a, h.b + v.b, h.c + v.c, h.d + v.d, h.e + v.e⟩

/-- `sha1_update`; its loop fills the block. -/
def sha1Update (ctx : Sha1Ctx) (data : List UInt8) : Sha1Ctx :=
  let (h, block) := Blocks.absorb 64 sha1Transform (ctx.h, ctx.block) data
  ⟨h, ctx.length + UInt64.ofNat data.length * 8, block⟩

/-- A word of `out`. -/
def outWord (x : UInt32) : List UInt8 :=
  [(x >>> 24 &&& 0xff).toUInt8, (x >>> 16 &&& 0xff).toUInt8, (x >>> 8 &&& 0xff).toUInt8, (x &&& 0xff).toUInt8]

/-- `sha1_final`. -/
def sha1Final (ctx : Sha1Ctx) : List UInt8 :=
  let block := ctx.block ++ [0x80]
  let (h, block) :=
    if 56 < block.length then (sha1Transform ctx.h (block ++ List.replicate (64 - block.length) 0), [])
    else (ctx.h, block)
  let block := block ++ List.replicate (56 - block.length) 0
  let block := block ++ ([7, 6, 5, 4, 3, 2, 1, 0] : List UInt64).map fun i => (ctx.length >>> (i * 8) &&& 0xff).toUInt8
  let h := sha1Transform h block
  outWord h.a ++ outWord h.b ++ outWord h.c ++ outWord h.d ++ outWord h.e

end Sha1Ctx

/-! ### The text of the hash -/

def base64Table : List UInt8 := chars "ABCDEFGHIJKLMNOPQRSTUVWXYZabcdefghijklmnopqrstuvwxyz0123456789+/"

/-- A symbol of `base64_encode`. -/
def base64Symbol (v shift : UInt32) : UInt8 := base64Table.getD (v >>> shift &&& 0x3f).toNat 0

/-- The loop of `base64_encode`, three bytes a turn. -/
def base64Loop : List UInt8 → List UInt8
  | [] => []
  | [a] =>
    let v := a.toUInt32 <<< 16
    [base64Symbol v 18, base64Symbol v 12, 0x3d, 0x3d]
  | [a, b] =>
    let v := a.toUInt32 <<< 16 ||| b.toUInt32 <<< 8
    [base64Symbol v 18, base64Symbol v 12, base64Symbol v 6, 0x3d]
  | a :: b :: c :: rest =>
    let v := a.toUInt32 <<< 16 ||| b.toUInt32 <<< 8 ||| c.toUInt32
    base64Symbol v 18 :: base64Symbol v 12 :: base64Symbol v 6 :: base64Symbol v 0 :: base64Loop rest

/-- `base64_encode`. -/
def base64Encode (src : List UInt8) (dstSize : Nat) : Option (List UInt8) :=
  if dstSize < (src.length + 2) / 3 * 4 + 1 then none else some (base64Loop src)

/-! ### The upgrade -/

def WS_GUID : List UInt8 := chars "258EAFA5-E914-47DA-95CA-C5AB0DC85B11"

/-- `strcasestr`, whether it finds the text. -/
def strcasestr (s text : List UInt8) : Bool :=
  s.tails.any fun t => (text.map FileSystem.lower).isPrefixOf (t.map FileSystem.lower)

/-- `strcasecmp` gives 0. -/
def strcaseeq (s text : List UInt8) : Bool := s.map FileSystem.lower = text.map FileSystem.lower

/-- The headers that are added to the response of an upgrade. -/
def upgradeHeaders (accept : List UInt8) : List (List UInt8 × List UInt8) :=
  [(chars "Upgrade", chars "websocket"), (chars "Connection", chars "Upgrade"), (chars "Sec-WebSocket-Accept", accept)]

/-- `hs_ws_upgrade`: the headers of the response, or nothing when the request is no upgrade. -/
def hsWsUpgrade (method : HttpMethod) (getReqHeader : List UInt8 → Option (List UInt8)) :
    Option (List (List UInt8 × List UInt8)) :=
  if method ≠ .get then none
  else do
    let upgrade ← getReqHeader (chars "Upgrade")
    let connection ← getReqHeader (chars "Connection")
    let key ← getReqHeader (chars "Sec-WebSocket-Key")
    let version ← getReqHeader (chars "Sec-WebSocket-Version")
    if !strcaseeq upgrade (chars "websocket") then none
    else if !strcasestr connection (chars "upgrade") then none
    else if version ≠ chars "13" then none
    else if 256 ≤ key.length + 36 then none
    else do
      let acceptB64 ← base64Encode (Sha1Ctx.sha1Init.sha1Update (key ++ WS_GUID)).sha1Final 64
      return upgradeHeaders acceptB64

/-! ### The hash is SHA-1 -/

theorem ch_eq (x y z : UInt32) : ((x &&& y) ||| (~~~x &&& z)) = Sha1.ch x y z := by
  apply UInt32.toBitVec_inj.mp
  apply BitVec.eq_of_getLsbD_eq
  intro i hi
  simp only [Sha1.ch, UInt32.toBitVec_or, UInt32.toBitVec_and, UInt32.toBitVec_not, UInt32.toBitVec_xor, BitVec.getLsbD_or,
    BitVec.getLsbD_and, BitVec.getLsbD_not, BitVec.getLsbD_xor, hi, decide_true, Bool.true_and]
  cases x.toBitVec.getLsbD i <;> simp

theorem maj_eq (x y z : UInt32) : ((x &&& y) ||| (x &&& z) ||| (y &&& z)) = Sha1.maj x y z := by
  apply UInt32.toBitVec_inj.mp
  apply BitVec.eq_of_getLsbD_eq
  intro i hi
  simp only [Sha1.maj, UInt32.toBitVec_or, UInt32.toBitVec_and, UInt32.toBitVec_xor, BitVec.getLsbD_or,
    BitVec.getLsbD_and, BitVec.getLsbD_xor]
  cases x.toBitVec.getLsbD i <;> cases y.toBitVec.getLsbD i <;> simp

namespace Sha1Ctx

theorem foldl_addWord (block : List UInt8) (n : Nat) :
    ((List.range' 16 n).foldl addWord (firstWords block)).length = 16 + n ∧
      ∀ i < 16 + n, ((List.range' 16 n).foldl addWord (firstWords block)).getD i 0 = Sha1.w block i := by
  induction n with
  | zero =>
    refine ⟨by simp [firstWords], fun i hi => ?_⟩
    rw [Sha1.w, if_pos hi]
    simp [firstWords, Sha1.word, List.getD_eq_getElem?_getD, hi, Nat.mul_comm]
  | succ n ih =>
    rw [List.range'_1_concat, List.foldl_append, List.foldl_cons, List.foldl_nil]
    obtain ⟨hlen, hw⟩ := ih
    refine ⟨by rw [addWord, List.length_append, hlen, List.length_singleton, Nat.add_assoc], fun i hi => ?_⟩
    rw [addWord]
    obtain hlt | rfl : i < 16 + n ∨ i = 16 + n := by omega
    · rw [List.getD_append _ _ _ _ (hlen ▸ hlt)]
      exact hw i hlt
    · rw [List.getD_append_right _ _ _ _ hlen.le, hlen, Nat.sub_self, List.getD_cons_zero, hw _ (by omega), hw _ (by omega),
        hw _ (by omega), hw _ (by omega)]
      conv_rhs => rw [Sha1.w, if_neg (by omega)]
      rfl

theorem schedule_getD (block : List UInt8) {i : Nat} (h : i < 80) : (schedule block).getD i 0 = Sha1.w block i :=
  (foldl_addWord block 64).2 i h

theorem turn_eq (block : List UInt8) (v : Sha1.Words) {i : Nat} (h : i < 80) :
    turn (schedule block) v i = Sha1.round block v i := by
  rw [turn, Sha1.round, schedule_getD block h, Sha1.f, Sha1.k]
  split_ifs
  · rw [ch_eq]
    rfl
  · rfl
  · rw [maj_eq]
    rfl
  · rfl

theorem sha1Transform_eq : sha1Transform = Sha1.compress := by
  funext h block
  have hturns : (List.range 80).foldl (turn (schedule block)) h = (List.range 80).foldl (Sha1.round block) h :=
    List.foldl_ext _ _ h fun v i hi => turn_eq block v (List.mem_range.mp hi)
  rw [sha1Transform, hturns]
  rfl

/-- What was read is in the words, in the block and in the count of its bits. -/
theorem foldl_sha1Update (ctx : Sha1Ctx) (pieces : List (List UInt8)) :
    pieces.foldl sha1Update ctx =
      let p := pieces.foldl (Blocks.absorb 64 sha1Transform) (ctx.h, ctx.block)
      ⟨p.1, ctx.length + UInt64.ofNat pieces.flatten.length * 8, p.2⟩ := by
  induction pieces generalizing ctx with
  | nil => simp
  | cons x pieces ih =>
    rw [List.foldl_cons, ih]
    simp only [sha1Update, List.foldl_cons, List.flatten_cons, List.length_append, UInt64.ofNat_add, UInt64.add_mul,
      UInt64.add_assoc]

theorem and_ff (x : UInt32) : (x &&& 0xff).toUInt8 = x.toUInt8 := by
  apply UInt8.toNat_inj.mp
  rw [UInt32.toNat_toUInt8, UInt32.toNat_and, UInt32.toNat_toUInt8]
  show (x.toNat &&& 2 ^ 8 - 1) % 2 ^ 8 = _
  rw [Nat.and_two_pow_sub_one_eq_mod, Nat.mod_mod]

theorem outWord_eq (x : UInt32) : outWord x = Sha1.be32 x := by
  simp only [outWord, Sha1.be32, and_ff]

/-- A byte of the count. -/
theorem countByte_eq (n : Nat) {i : UInt64} (hi : i.toNat < 8) :
    ((0 + UInt64.ofNat n * 8) >>> (i * 8) &&& 0xff).toUInt8 = UInt8.ofNat (8 * n / 256 ^ i.toNat) := by
  have hshift : (i * 8).toNat % 64 = 8 * i.toNat := by
    rw [UInt64.toNat_mul]
    show i.toNat * 8 % 2 ^ 64 % 64 = _
    omega
  have hcount : (0 + UInt64.ofNat n * 8).toNat = 8 * n % 2 ^ 64 := by
    rw [UInt64.zero_add, UInt64.toNat_mul, UInt64.toNat_ofNat']
    show n % 2 ^ 64 * 8 % 2 ^ 64 = _
    omega
  apply UInt8.toNat_inj.mp
  rw [UInt64.toNat_toUInt8, UInt64.toNat_and, UInt64.toNat_shiftRight, hshift, hcount, UInt8.toNat_ofNat']
  show ((8 * n % 2 ^ 64) >>> (8 * i.toNat) &&& 2 ^ 8 - 1) % 2 ^ 8 = _
  rw [Nat.and_two_pow_sub_one_eq_mod, Nat.mod_mod, Nat.shiftRight_eq_div_pow]
  have hpow : 2 ^ (8 * i.toNat) = 256 ^ i.toNat := by rw [Nat.pow_mul]
  rw [hpow]
  interval_cases i.toNat <;> omega

/-- The count of the bits, as `sha1_final` writes it. -/
theorem countBytes_eq (n : Nat) :
    (([7, 6, 5, 4, 3, 2, 1, 0] : List UInt64).map fun i => ((0 + UInt64.ofNat n * 8) >>> (i * 8) &&& 0xff).toUInt8) =
      Sha1.be64 (8 * n) := by
  have hsmall : ∀ i ∈ ([7, 6, 5, 4, 3, 2, 1, 0] : List UInt64), i.toNat < 8 := by simp
  have hbytes : ∀ i ∈ ([7, 6, 5, 4, 3, 2, 1, 0] : List UInt64),
      ((0 + UInt64.ofNat n * 8) >>> (i * 8) &&& 0xff).toUInt8 = UInt8.ofNat (8 * n / 256 ^ i.toNat) :=
    fun i hi => countByte_eq n (hsmall i hi)
  rw [List.map_congr_left hbytes]
  rfl

/-- From the start it is what the standard makes of the blocks. -/
theorem foldl_sha1Init (pieces : List (List UInt8)) : pieces.foldl sha1Update sha1Init =
    let p := Blocks.digest 64 Sha1.compress Sha1.H0 pieces.flatten
    ⟨p.1, 0 + UInt64.ofNat pieces.flatten.length * 8, p.2⟩ := by
  have hread : pieces.foldl (Blocks.absorb 64 sha1Transform) (sha1Init.h, sha1Init.block) =
      Blocks.digest 64 Sha1.compress Sha1.H0 pieces.flatten := by
    rw [sha1Transform_eq]
    exact Blocks.foldl_absorb (by decide) _ pieces
  rw [foldl_sha1Update, hread]
  rfl

/-- The end of the text. -/
theorem sha1Final_eq (m : List UInt8) :
    (let p := Blocks.digest 64 Sha1.compress Sha1.H0 m
    (⟨p.1, 0 + UInt64.ofNat m.length * 8, p.2⟩ : Sha1Ctx).sha1Final) = Sha1.hash m := by
  have hblock : (Blocks.digest 64 Sha1.compress Sha1.H0 m).2.length = m.length % 64 := by
    rw [Blocks.digest, List.length_drop]
    omega
  rw [Sha1.hash, Sha1.pad, Blocks.digest_append (by decide)]
  generalize Blocks.digest 64 Sha1.compress Sha1.H0 m = p at hblock ⊢
  rcases p with ⟨h, block⟩
  dsimp only at hblock ⊢
  have hlt : m.length % 64 < 64 := Nat.mod_lt _ (by decide)
  have hcount := countBytes_eq m.length
  rw [sha1Final]
  rw [hcount, sha1Transform_eq]
  by_cases hroom : 56 < (block ++ [0x80]).length
  · rw [if_pos hroom]
    simp only [List.length_append, List.length_singleton, hblock] at hroom
    -- the count does not fit in the block any more
    have hcut : block ++ 0x80 :: (List.replicate (Sha1.zeros m.length) 0 ++ Sha1.be64 (8 * m.length)) =
        (block ++ [0x80] ++ List.replicate (64 - (block ++ [0x80]).length) 0) ++
          (List.replicate 56 0 ++ Sha1.be64 (8 * m.length)) := by
      have hzeros : Sha1.zeros m.length = 64 - (block ++ [0x80]).length + 56 := by
        simp only [Sha1.zeros, List.length_append, List.length_singleton, hblock]
        omega
      rw [hzeros, List.replicate_add]
      simp
    rw [hcut, Blocks.digest_block (by decide) (by simp [hblock]; omega), Blocks.digest_one (by decide) (by simp)]
    simp only [outWord_eq]
    rfl
  · rw [if_neg hroom]
    simp only [List.length_append, List.length_singleton, hblock] at hroom
    have hzeros : Sha1.zeros m.length = 56 - (block ++ [0x80]).length := by
      simp only [Sha1.zeros, List.length_append, List.length_singleton, hblock]
      omega
    have hlast : block ++ 0x80 :: (List.replicate (Sha1.zeros m.length) 0 ++ Sha1.be64 (8 * m.length)) =
        block ++ [0x80] ++ List.replicate (56 - (block ++ [0x80]).length) 0 ++ Sha1.be64 (8 * m.length) := by
      rw [hzeros]
      simp
    rw [hlast, Blocks.digest_one (by decide) (by simp [hblock]; omega)]
    simp only [outWord_eq]
    rfl

/-- The hash of a text does not depend on the pieces it comes in; it is that of the standard. -/
theorem sha1_pieces (pieces : List (List UInt8)) :
    (pieces.foldl sha1Update sha1Init).sha1Final = Sha1.hash pieces.flatten := by
  rw [foldl_sha1Init]
  exact sha1Final_eq pieces.flatten

end Sha1Ctx

/-! ### The text is read back -/

theorem base64Table_getD {x : Nat} (h : x < 64) : base64Table.getD x 0 = Base64.symbol x := by
  revert h x
  decide

theorem base64Symbol_eq (v : UInt32) {shift : UInt32} (h : shift.toNat < 32) :
    base64Symbol v shift = Base64.symbol (v.toNat / 2 ^ shift.toNat % 64) := by
  have hsextet : (v >>> shift &&& 0x3f).toNat = v.toNat / 2 ^ shift.toNat % 64 := by
    rw [UInt32.toNat_and, UInt32.toNat_shiftRight]
    show v.toNat >>> (shift.toNat % 32) &&& 2 ^ 6 - 1 = _
    rw [Nat.and_two_pow_sub_one_eq_mod, Nat.mod_eq_of_lt h, Nat.shiftRight_eq_div_pow]
  rw [base64Symbol, hsextet, base64Table_getD (Nat.mod_lt _ (by decide))]

/-- Three bytes in a word. -/
theorem toNat_group (a b c : UInt8) :
    (a.toUInt32 <<< 16 ||| b.toUInt32 <<< 8 ||| c.toUInt32).toNat = a.toNat * 65536 + b.toNat * 256 + c.toNat := by
  have ha := a.toNat_lt
  have hb := b.toNat_lt
  have hc := c.toNat_lt
  simp only [UInt32.toNat_or, UInt32.toNat_shiftLeft, UInt8.toNat_toUInt32, Nat.shiftLeft_eq]
  show a.toNat * 2 ^ 16 % 2 ^ 32 ||| b.toNat * 2 ^ 8 % 2 ^ 32 ||| c.toNat = _
  rw [Nat.mod_eq_of_lt (by omega), Nat.mod_eq_of_lt (by omega), Nat.mul_comm a.toNat, Nat.mul_comm b.toNat,
    ← Nat.two_pow_add_eq_or_of_lt (i := 16) (by omega), show 2 ^ 16 * a.toNat + 2 ^ 8 * b.toNat =
      2 ^ 8 * (2 ^ 8 * a.toNat + b.toNat) by omega, ← Nat.two_pow_add_eq_or_of_lt (i := 8) (by omega)]

theorem toNat_group_two (a b : UInt8) : (a.toUInt32 <<< 16 ||| b.toUInt32 <<< 8).toNat = a.toNat * 65536 + b.toNat * 256 := by
  have h := toNat_group a b 0
  rwa [show (0 : UInt8).toUInt32 = 0 from rfl, UInt32.or_zero, UInt8.toNat_zero, Nat.add_zero] at h

theorem toNat_group_one (a : UInt8) : (a.toUInt32 <<< 16).toNat = a.toNat * 65536 := by
  have h := toNat_group_two a 0
  rwa [show (0 : UInt8).toUInt32 <<< 8 = 0 from rfl, UInt32.or_zero, UInt8.toNat_zero, Nat.zero_mul, Nat.add_zero] at h

theorem ofNat_eq {x : Nat} {b : UInt8} (h : x = b.toNat) : UInt8.ofNat x = b := by
  rw [h, UInt8.ofNat_toNat]

/-- What is encoded is decoded again. -/
theorem decode_base64Loop (src : List UInt8) : Base64.decode (base64Loop src) = some src := by
  fun_induction base64Loop src with
  | case1 => rfl
  | case2 a v =>
    have hv : v.toNat = a.toNat * 65536 := toNat_group_one a
    have ha := a.toNat_lt
    rw [base64Symbol_eq v (by decide), base64Symbol_eq v (by decide)]
    refine (Base64.decode_one (Nat.mod_lt _ (by decide)) (Nat.mod_lt _ (by decide)) ?_).trans ?_ <;>
      simp only [hv, UInt32.reduceToNat]
    · omega
    · rw [ofNat_eq (b := a) (by omega)]
  | case3 a b v =>
    have hv : v.toNat = a.toNat * 65536 + b.toNat * 256 := toNat_group_two a b
    have ha := a.toNat_lt
    have hb := b.toNat_lt
    rw [base64Symbol_eq v (by decide), base64Symbol_eq v (by decide), base64Symbol_eq v (by decide)]
    refine (Base64.decode_two (Nat.mod_lt _ (by decide)) (Nat.mod_lt _ (by decide)) (Nat.mod_lt _ (by decide)) ?_).trans ?_ <;>
      simp only [hv, UInt32.reduceToNat]
    · omega
    · rw [ofNat_eq (b := a) (by omega), ofNat_eq (b := b) (by omega)]
  | case4 a b c rest v ih =>
    have hv : v.toNat = a.toNat * 65536 + b.toNat * 256 + c.toNat := toNat_group a b c
    have ha := a.toNat_lt
    have hb := b.toNat_lt
    have hc := c.toNat_lt
    rw [base64Symbol_eq v (by decide), base64Symbol_eq v (by decide), base64Symbol_eq v (by decide),
      base64Symbol_eq v (by decide), Base64.decode_three (Nat.mod_lt _ (by decide)) (Nat.mod_lt _ (by decide))
      (Nat.mod_lt _ (by decide)) (Nat.mod_lt _ (by decide)), ih]
    simp only [Base64.bytes3, hv, UInt32.reduceToNat, Option.map_some]
    rw [ofNat_eq (b := a) (by omega), ofNat_eq (b := b) (by omega), ofNat_eq (b := c) (by omega)]
    rfl

/-! ### The handshake -/

theorem strcasestr_iff (s text : List UInt8) :
    strcasestr s text = true ↔ text.map FileSystem.lower <:+: s.map FileSystem.lower := by
  simp only [strcasestr, List.any_eq_true, List.mem_tails, List.isPrefixOf_iff_prefix]
  constructor
  · rintro ⟨t, ⟨u, rfl⟩, ⟨v, hv⟩⟩
    exact ⟨u.map FileSystem.lower, v, by rw [List.append_assoc, hv, List.map_append]⟩
  · rintro ⟨u, v, huv⟩
    refine ⟨s.drop u.length, List.drop_suffix _ _, v, ?_⟩
    rw [List.map_drop, ← huv, List.append_assoc, List.drop_left]

/-- The client asks for a WebSocket, with this key. -/
structure AsksUpgrade (method : HttpMethod) (header : List UInt8 → Option (List UInt8)) (key : List UInt8) : Prop where
  get : method = .get
  upgrade : (header (chars "Upgrade")).map (List.map FileSystem.lower) = some (chars "websocket")
  connection : ∃ c, header (chars "Connection") = some c ∧ chars "upgrade" <:+: c.map FileSystem.lower
  version : header (chars "Sec-WebSocket-Version") = some (chars "13")
  sent : header (chars "Sec-WebSocket-Key") = some key
  short : key.length < 220

theorem base64Encode_sha1 (src : List UInt8) : base64Encode (Sha1Ctx.sha1Init.sha1Update src).sha1Final 64 =
    some (base64Loop (Sha1.hash src)) := by
  have hread := Sha1Ctx.foldl_sha1Init [src]
  rw [List.foldl_cons, List.foldl_nil, List.flatten_cons, List.flatten_nil, List.append_nil] at hread
  have hhash : (Sha1Ctx.sha1Init.sha1Update src).sha1Final = Sha1.hash src := by
    rw [hread]
    exact Sha1Ctx.sha1Final_eq src
  rw [hhash, base64Encode, Sha1.length_hash, if_neg (by decide)]

theorem hsWsUpgrade_of_asks {method : HttpMethod} {header : List UInt8 → Option (List UInt8)} {key : List UInt8}
    (h : AsksUpgrade method header key) :
    hsWsUpgrade method header = some (upgradeHeaders (base64Loop (Sha1.hash (key ++ WS_GUID)))) := by
  obtain ⟨rfl, hupgrade, ⟨c, hconnection, hinfix⟩, hversion, hkey, hshort⟩ := h
  obtain ⟨u, hu, hlower⟩ := Option.map_eq_some_iff.mp hupgrade
  have hsame : strcaseeq u (chars "websocket") = true := by
    rw [strcaseeq, hlower]
    decide
  have hfound : strcasestr c (chars "upgrade") = true := by
    rw [strcasestr_iff]
    exact hinfix
  simp [hsWsUpgrade, hu, hconnection, hkey, hversion, hsame, hfound, base64Encode_sha1]
  omega

theorem asks_of_hsWsUpgrade {method : HttpMethod} {header : List UInt8 → Option (List UInt8)}
    {rsp : List (List UInt8 × List UInt8)} (h : hsWsUpgrade method header = some rsp) : ∃ key, AsksUpgrade method header key := by
  unfold hsWsUpgrade at h
  split_ifs at h with hget
  simp only [Option.bind_eq_bind, Option.bind_eq_some_iff] at h
  obtain ⟨u, hu, c, hc, key, hkey, v, hv, h⟩ := h
  split_ifs at h with hupgrade hconnection hversion hlen
  simp only [Bool.not_eq_true', Bool.not_eq_false, strcaseeq, decide_eq_true_eq] at hupgrade hconnection
  refine ⟨key, not_not.mp hget, ?_, ⟨c, hc, (strcasestr_iff c (chars "upgrade")).mp hconnection⟩, ?_, hkey, by omega⟩
  · rw [hu, Option.map_some, hupgrade]
    decide
  · rw [hv, not_not.mp hversion]

/-- A client that asks for a WebSocket, in whatever pieces its request comes, gets the headers of an upgrade, and the
accept key of its answer is the base64 text of the hash of its own key and the fixed one; no other request is taken. -/
theorem upgrade_as_sent (srv : HttpServer) (fs : FileSystem) (parseUrl : UrlParser) (con : RequestBuffer) {m : HttpMessage}
    {evs : List ParserEv} (hm : m.Pieces evs) (hfits : m.Fits) {h : HttpHandler} {url body : List UInt8}
    {getReqHeader : List UInt8 → Option (List UInt8)}
    (hout : .handled h url body getReqHeader ∈ Mealy.out (RequestBuffer.step srv fs parseUrl) con evs) :
    (∀ key, AsksUpgrade m.method m.header key → ∃ accept,
      hsWsUpgrade m.method getReqHeader = some (upgradeHeaders accept) ∧
        Base64.decode accept = some (Sha1.hash (key ++ WS_GUID))) ∧
    ((hsWsUpgrade m.method getReqHeader).isSome → ∃ key, AsksUpgrade m.method m.header key) := by
  have hget : getReqHeader = m.header := by
    rw [RequestBuffer.sync_of_pieces hm con, List.mem_singleton, HttpMessage.outcome, if_pos hfits, Outcome.of] at hout
    split at hout
    · exact (Outcome.handled.inj hout).2.2.2
    · cases hout
  rw [hget]
  refine ⟨fun key hasks => ⟨_, hsWsUpgrade_of_asks hasks, decode_base64Loop _⟩, fun hsome => ?_⟩
  obtain ⟨rsp, hrsp⟩ := Option.isSome_iff_exists.mp hsome
  exact asks_of_hsWsUpgrade hrsp

/-- A server with one handler, and a request for it. -/
def eventServer : HttpServer := ⟨[hsRegisterHandler (chars "/events")], []⟩

def eventRequest : HttpMessage :=
  ⟨.get, chars "/events",
    [(chars "Upgrade", chars "websocket"), (chars "Connection", chars "keep-alive, Upgrade"),
      (chars "Sec-WebSocket-Key", chars "dGhlIHNhbXBsZSBub25jZQ=="), (chars "Sec-WebSocket-Version", chars "13")], [], []⟩

/-- It comes header by header. -/
def eventPieces : List ParserEv :=
  .messageBegin :: .url (chars "/events") ::
    (eventRequest.headers.map fun h => [ParserEv.field h.1, ParserEv.value h.2]).flatten ++ [.messageComplete .get]

theorem headerPieces_whole (hs : List (List UInt8 × List UInt8)) :
    List.Forall₂ HeaderPieces hs (hs.map fun h => [ParserEv.field h.1, ParserEv.value h.2]) := by
  induction hs with
  | nil => exact .nil
  | cons h hs ih => exact .cons ⟨[h.1], [h.2], by simp, by simp, by simp, by simp, rfl⟩ ih

theorem eventRequest_pieces : eventRequest.Pieces eventPieces := by
  refine ⟨[chars "/events"], [], _, [], ?_, rfl, headerPieces_whole _, .nil, rfl⟩
  decide

theorem eventRequest_outcome : eventRequest.outcome eventServer passwdSystem splitUrl =
    .handled (hsRegisterHandler (chars "/events")) eventRequest.url eventRequest.body eventRequest.header := by
  rw [HttpMessage.outcome, if_pos (by decide), Outcome.of]
  rfl

theorem upgrade_as_sent_event : ∃ accept,
    hsWsUpgrade .get eventRequest.header = some (upgradeHeaders accept) ∧
      Base64.decode accept = some (Sha1.hash (chars "dGhlIHNhbXBsZSBub25jZQ==" ++ WS_GUID)) := by
  have hout : Outcome.handled (hsRegisterHandler (chars "/events")) eventRequest.url eventRequest.body eventRequest.header ∈
      Mealy.out (RequestBuffer.step eventServer passwdSystem splitUrl) {} eventPieces := by
    rw [RequestBuffer.sync_of_pieces eventRequest_pieces, eventRequest_outcome]
    exact List.mem_singleton_self _
  exact (upgrade_as_sent eventServer passwdSystem splitUrl {} eventRequest_pieces (by decide) hout).1 _
    ⟨rfl, by decide, ⟨chars "keep-alive, Upgrade", by decide, by decide⟩, by decide,
      by decide, by decide⟩

end Mhuxd
