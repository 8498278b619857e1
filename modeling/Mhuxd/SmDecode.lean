import Mhuxd.SmDownload
import Mathlib.Tactic.IntervalCases

/-!
# What the decoder makes of a record's bytes

A field is written by one part of a decoding function, the parts behind it leave it alone (`Keeps`), and
whatever is decoded was paid for with bytes of the record (`Spends`).
-/

namespace Mhuxd

/-! ### Words -/

/-- A word from its bytes. -/
def le32 (a b c d : UInt8) : UInt32 := a.toUInt32 ||| shl b 8 ||| shl c 16 ||| shl d 24

theorem u32Bytes_le32 (a b c d : UInt8) : u32Bytes (le32 a b c d) = [a, b, c, d] := by
  simp only [u32Bytes, le32, shl, List.cons.injEq, and_true]
  refine ⟨?_, ?_, ?_, ?_⟩
  all_goals
    apply UInt8.toBitVec_inj.1
    ext i hi
    interval_cases i <;> simp

theorem le32_u32Bytes (x : UInt32) : le32 x.toUInt8 (x >>> 8).toUInt8 (x >>> 16).toUInt8 (x >>> 24).toUInt8 =
    x := by
  apply UInt32.toBitVec_inj.1
  ext i hi
  interval_cases i <;> simp [le32, shl, -UInt32.toUInt32_toUInt8]

/-- Three bytes are enough for a word below `2 ^ 24` only. -/
theorem le32_u24Bytes {x : UInt32} : le32 x.toUInt8 (x >>> 8).toUInt8 (x >>> 16).toUInt8 0 = x ↔
    x.toNat < 2 ^ 24 := by
  have hlt := x.toNat_lt
  have hbyte : (x >>> 24).toUInt8 = 0 ↔ x.toNat < 2 ^ 24 := by
    rw [← UInt8.toNat_inj]
    simp [Nat.shiftRight_eq_div_pow]
    omega
  rw [← hbyte]
  constructor
  · intro h
    have hbytes := u32Bytes_le32 x.toUInt8 (x >>> 8).toUInt8 (x >>> 16).toUInt8 0
    rw [h] at hbytes
    simpa [u32Bytes] using hbytes
  · intro h
    rw [← h]
    exact le32_u32Bytes x

/-! ### What is left alone -/

namespace Decode

variable {α : Type} {f : Object → α} {k : Decode} {os : List Object} {w n : Nat}

theorem bgetc_nil {k : UInt8 → Decode} {o : Object} (h : o.raw = []) (cnt : Int) :
    bgetc k (o, cnt) = ((o, cnt), false) := by
  simp only [bgetc, h]

theorem bgetc_cons {k : UInt8 → Decode} {o : Object} {c : UInt8} {raw : List UInt8} (h : o.raw = c :: raw)
    (cnt : Int) :
    bgetc k (o, cnt) = k c ({ o with raw := raw }, cnt) := by
  simp only [bgetc, h]

/-- A part of the decoder that leaves `f` of the object alone. -/
def Keeps (f : Object → α) (k : Decode) : Prop := ∀ s, f (k s).1.1 = f s.1

theorem keeps_decoded : Keeps f decoded := fun _ => rfl

theorem keeps_bgetc {k : UInt8 → Decode} (hraw : ∀ o raw, f { o with raw := raw } = f o) (h : ∀ c, Keeps f (k c)) :
    Keeps f (bgetc k) := by
  rintro ⟨o, cnt⟩
  cases ho : o.raw with
  | nil => rw [bgetc_nil ho]
  | cons c raw =>
    rw [bgetc_cons ho]
    exact (h c _).trans (hraw o raw)

theorem keeps_getByte {set : UInt8 → Body → Body} (hraw : ∀ o raw, f { o with raw := raw } = f o)
    (hset : ∀ c o, f { o with body := set c o.body } = f o) (h : Keeps f k) : Keeps f (getByte set k) :=
  keeps_bgetc hraw fun c s => (h _).trans (hset c s.1)

theorem keeps_getStr {write : Object → Nat → UInt8 → Object} {room : Nat} (hraw : ∀ o raw,
    f { o with raw := raw } = f o)
    (hwrite : ∀ o i c, f (write o i c) = f o) (h : Keeps f k) : Keeps f (getStr write room k) := by
  refine keeps_bgetc hraw fun c => ?_
  generalize min c.toNat room = n
  generalize 0 = i
  induction n generalizing i with
  | zero => exact h
  | succ n ih =>
    rw [getChars]
    exact keeps_bgetc hraw fun c s => (ih (i + 1) _).trans (hwrite s.1 i c)

theorem keeps_getGrpRefs (hraw : ∀ o raw, f { o with raw := raw } = f o)
    (hrefs : ∀ o rs, f { o with refs := rs } = f o)
    (h : Keeps f k) (n : Nat) : Keeps f (getGrpRefs os n k) := by
  induction n with
  | zero => exact h
  | succ n ih =>
    intro s
    rw [getGrpRefs]
    refine keeps_bgetc hraw (fun _ => keeps_bgetc hraw fun _ => keeps_bgetc hraw fun _ => keeps_bgetc hraw fun _ =>
      keeps_bgetc hraw fun _ s => ?_) _
    exact (ih _).trans (hrefs s.1 _)

theorem keeps_getBandRefs (hraw : ∀ o raw, f { o with raw := raw } = f o)
    (hrefs : ∀ o rs, f { o with refs := rs } = f o)
    (h : Keeps f k) (n : Nat) : Keeps f (getBandRefs os n k) := by
  induction n with
  | zero => exact h
  | succ n ih =>
    rw [getBandRefs]
    refine keeps_bgetc hraw fun _ => keeps_bgetc hraw fun _ s => ?_
    refine keeps_bgetc hraw (fun _ s => ?_) _
    exact (ih _).trans (hrefs s.1 _)

/-! ### What a reference costs -/

/-- A part of the decoder for which each new reference takes `w` bytes, `n` of them being spent before. -/
def Spends (w n : Nat) (k : Decode) : Prop :=
  ∀ s, w * (k s).1.1.refs.length ≤ w * s.1.refs.length + s.1.raw.length + n

theorem spends_decoded : Spends w n decoded := by
  intro s
  show w * s.1.refs.length ≤ _
  omega

theorem spends_bgetc {k : UInt8 → Decode} (h : ∀ c, Spends w (n + 1) (k c)) : Spends w n (bgetc k) := by
  rintro ⟨o, cnt⟩
  cases hraw : o.raw with
  | nil =>
    rw [bgetc_nil hraw]
    dsimp only
    omega
  | cons c raw =>
    have hk := h c ({ o with raw := raw }, cnt)
    rw [bgetc_cons hraw]
    dsimp only at hk ⊢
    rw [List.length_cons]
    omega

theorem Spends.more (h : Spends w n k) : Spends w (n + 1) k := fun s => Nat.le_succ_of_le (h s)

theorem spends_getByte {set : UInt8 → Body → Body} (h : Spends w n k) : Spends w n (getByte set k) :=
  spends_bgetc fun _ _ => h.more _

theorem spends_getStr {write : Object → Nat → UInt8 → Object} {room : Nat}
    (hwrite : ∀ o i c, (write o i c).refs = o.refs ∧ (write o i c).raw = o.raw) (h : Spends w n k) :
    Spends w n (getStr write room k) := by
  refine spends_bgetc fun c => ?_
  generalize min c.toNat room = m
  generalize 0 = i
  induction m generalizing i with
  | zero => exact h.more
  | succ m ih =>
    rw [getChars]
    refine spends_bgetc fun c s => ?_
    obtain ⟨hrefs, hraw⟩ := hwrite s.1 i c
    have hi := ih (i + 1) (write s.1 i c, s.2)
    rw [hrefs, hraw] at hi
    exact Nat.le_succ_of_le hi

theorem spends_getGrpRefs (h : Spends 5 0 k) (m : Nat) : Spends 5 0 (getGrpRefs os m k) := by
  induction m with
  | zero => exact h
  | succ m ih =>
    intro s
    rw [getGrpRefs]
    refine spends_bgetc (fun _ => spends_bgetc fun _ => spends_bgetc fun _ => spends_bgetc fun _ =>
      spends_bgetc fun _ s => ?_) _
    refine (ih _).trans ?_
    rw [List.length_append, List.length_singleton]
    dsimp only
    omega

theorem spends_getBandRefs (h : Spends 3 0 k) (m : Nat) : Spends 3 0 (getBandRefs os m k) := by
  induction m with
  | zero => exact h
  | succ m ih =>
    rw [getBandRefs]
    refine spends_bgetc fun _ => spends_bgetc fun _ s => ?_
    refine spends_bgetc (n := 2) (fun _ s => ?_) _
    refine (ih _).trans ?_
    rw [List.length_append, List.length_singleton]
    dsimp only
    omega

/-! ### Strings -/

theorem length_writeAt {s : List UInt8} {i : Nat} (h : s.length ≤ i) (c : UInt8) :
    (writeAt s i c).length = i + 1 := by
  simp only [writeAt, List.length_append, List.length_take, List.length_replicate, List.length_cons,
    List.length_drop]
  omega

/-- A string is shorter than the bytes from its length on. -/
theorem length_getStr {f : Object → List UInt8} {write : Object → Nat → UInt8 → Object} {room : Nat}
    (hfree : ∀ o raw, f { o with raw := raw } = f o)
    (hwrite : ∀ o i c, f (write o i c) = writeAt (f o) i c ∧ (write o i c).raw = o.raw) (h : Keeps f k)
    {o : Object}
    (ho : f o = []) (cnt : Int) : (f (getStr write room k (o, cnt)).1.1).length ≤ o.raw.length - 1 := by
  have hchars : ∀ n i (o : Object) cnt, (f o).length ≤ i → (f (getChars write n i k (o, cnt)).1.1).length ≤ i + o.raw.length := by
    intro n
    induction n with
    | zero =>
      intro i o cnt hi
      rw [getChars, h]
      exact Nat.le_trans hi (Nat.le_add_right _ _)
    | succ n ih =>
      intro i o cnt hi
      rw [getChars]
      cases hraw : o.raw with
      | nil =>
        rw [bgetc_nil hraw]
        exact hi
      | cons c raw =>
        rw [bgetc_cons hraw]
        obtain ⟨hf, hr⟩ := hwrite { o with raw := raw } i c
        have hlen := ih (i + 1) (write { o with raw := raw } i c) cnt (by
          rw [hf, hfree, length_writeAt hi])
        rw [hr] at hlen
        dsimp only at hlen ⊢
        rw [List.length_cons]
        omega
  unfold getStr
  cases hraw : o.raw with
  | nil =>
    rw [bgetc_nil hraw, ho]
    exact Nat.zero_le _
  | cons c raw =>
    rw [bgetc_cons hraw]
    have hlen := hchars (min c.toNat room) 0 { o with raw := raw } cnt (by rw [hfree, ho]; exact Nat.le_refl 0)
    dsimp only at hlen ⊢
    rw [List.length_cons]
    omega

/-- A name with its length, and what comes behind it. -/
theorem getStr_name {s raw : List UInt8} (hs : s.length ≤ MAX_NAME_LEN) {o : Object} (hname : o.name = [])
    (hraw : o.raw = UInt8.ofNat s.length :: s ++ raw) (cnt : Int) :
    getStr Object.writeName MAX_NAME_LEN k (o, cnt) = k ({ o with name := s, raw := raw }, cnt) := by
  have hchars : ∀ (s : List UInt8) i (o : Object), o.name.length = i → o.raw = s ++ raw →
      getChars Object.writeName s.length i k (o, cnt) = k ({ o with name := o.name ++ s, raw := raw }, cnt) := by
    intro s
    induction s with
    | nil =>
      intro i o hi ho
      rw [List.nil_append] at ho
      rw [List.length_nil, getChars, List.append_nil, ← ho]
    | cons c s ih =>
      intro i o hi ho
      have hwrite : writeAt o.name i c = o.name ++ [c] := by
        subst hi
        simp [writeAt]
      rw [List.cons_append] at ho
      rw [List.length_cons, getChars, bgetc_cons ho]
      refine (ih (i + 1) _ ?_ rfl).trans ?_
      · show (writeAt o.name i c).length = i + 1
        rw [length_writeAt (Nat.le_of_eq hi)]
      · show k ({ o with name := writeAt o.name i c ++ s, raw := raw }, cnt) = _
        rw [hwrite, List.append_assoc]
        rfl
  have hlen : min (UInt8.ofNat s.length).toNat MAX_NAME_LEN = s.length := by
    have hmax : MAX_NAME_LEN = 10 := rfl
    rw [UInt8.toNat_ofNat_of_lt' (show s.length < 256 by omega)]
    omega
  rw [getStr, bgetc_cons hraw, hlen]
  refine (hchars s 0 _ (by rw [hname]; rfl) rfl).trans ?_
  rw [hname, List.nil_append]

end Decode

/-! ### Records -/

/-- An object that is decoded from a record's bytes. -/
def Reads (t : ObjType) (raw : List UInt8) (o : Object) : Prop :=
  ∃ os id cnt, o = (decodeObj os (⟨id, [], [], [], .zero t, raw⟩, cnt)).1.1

/-- The frequencies of a band. -/
def Body.freqs : Body → UInt32 × UInt32
  | band b => (b.lowFreq, b.highFreq)
  | _ => (0, 0)

section
variable {t : ObjType} {raw : List UInt8} {o : Object} {os : List Object}

@[simp] theorem Body.type_ant' (f : AntennaRecord → AntennaRecord) (b : Body) :
    (b.ant' f).type = b.type := by cases b <;> rfl

@[simp] theorem Body.type_grp' (f : GroupsRecord → GroupsRecord) (b : Body) :
    (b.grp' f).type = b.type := by cases b <;> rfl

@[simp] theorem Body.type_band' (f : BandRecord → BandRecord) (b : Body) :
    (b.band' f).type = b.type := by cases b <;> rfl

/-- What names an object. -/
def Object.key (o : Object) : Int × ObjType := (o.id, o.type)

open Decode in
/-- Neither the id nor the type of an object is decoded. -/
theorem keeps_decodeObj (os : List Object) : Keeps Object.key (decodeObj os) := by
  have hraw : ∀ (o : Object) raw, Object.key { o with raw := raw } = o.key := fun _ _ => rfl
  have hrefs : ∀ (o : Object) rs, Object.key { o with refs := rs } = o.key := fun _ _ => rfl
  have hlabel : ∀ (o : Object) i c, (o.writeLabel i c).key = o.key := fun _ _ _ => rfl
  have hname : ∀ (o : Object) i c, (o.writeName i c).key = o.key := fun _ _ _ => rfl
  have hant : ∀ (f : UInt8 → AntennaRecord → AntennaRecord) c (o : Object),
      Object.key { o with body := o.body.ant' (f c) } = o.key := by
    intro f c o
    simp [Object.key, Object.type]
  have hgrp : ∀ (f : UInt8 → GroupsRecord → GroupsRecord) c (o : Object),
      Object.key { o with body := o.body.grp' (f c) } = o.key := by
    intro f c o
    simp [Object.key, Object.type]
  have hband : ∀ (f : UInt8 → BandRecord → BandRecord) c (o : Object),
      Object.key { o with body := o.body.band' (f c) } = o.key := by
    intro f c o
    simp [Object.key, Object.type]
  rintro ⟨o, cnt⟩
  unfold decodeObj
  dsimp only
  cases o.type with
  | ant =>
    show Object.key (decodeArec (o, cnt)).1.1 = _
    unfold decodeArec
    refine keeps_getStr hraw hlabel (keeps_getStr hraw hname <| keeps_getByte hraw (hant _) <|
      keeps_getByte hraw (hant _) <| keeps_getByte hraw (hant _) <| keeps_getByte hraw (hant _) <|
      keeps_getByte hraw (hant _) <|
      keeps_bgetc hraw fun c s => ?_) _
    obtain ⟨o, cnt⟩ := s
    dsimp only
    split_ifs
    · refine (keeps_getByte hraw (hant _) (keeps_getByte hraw (hant _) keeps_decoded) _).trans ?_
      exact hant (fun c a => { a with rotator := c &&& 1 == 1 }) c o
    · exact hant (fun c a => { a with rotator := c &&& 1 == 1 }) c o
  | grp =>
    show Object.key (decodeGrec os (o, cnt)).1.1 = _
    unfold decodeGrec
    refine keeps_getStr hraw hlabel (keeps_getStr hraw hname <| keeps_bgetc hraw fun c s => ?_) _
    obtain ⟨o, cnt⟩ := s
    refine (keeps_getGrpRefs hraw hrefs ?_ _ _).trans (hgrp (fun c g => { g with numAntennas := c }) c o)
    exact keeps_getByte hraw (hgrp _) <| keeps_getByte hraw (hgrp _) <| keeps_getByte hraw (hgrp _) keeps_decoded
  | band =>
    show Object.key (decodeBrec os (o, cnt)).1.1 = _
    unfold decodeBrec
    refine keeps_getByte hraw (hband _) (keeps_getByte hraw (hband _) <| keeps_getByte hraw (hband _) <|
      keeps_getByte hraw (hband _) <| keeps_getByte hraw (hband _) <| keeps_getByte hraw (hband _) <|
      keeps_getByte hraw (hband _) <| keeps_getByte hraw (hband _) <| keeps_getStr hraw hname <|
      keeps_getByte hraw (hband _) <| keeps_getByte hraw (hband _) <| keeps_getByte hraw (hband _) <|
      keeps_getByte hraw (hband _) <| keeps_bgetc hraw fun c s => ?_) _
    obtain ⟨o, cnt⟩ := s
    refine (keeps_getBandRefs hraw hrefs ?_ _ _).trans (hband (fun c b => { b with numAntennas := c }) c o)
    exact keeps_getByte hraw (hband _) <| keeps_getByte hraw (hband _) <|
      keeps_getByte hraw (hband _) keeps_decoded

theorem Reads.type (h : Reads t raw o) : o.type = t := by
  obtain ⟨os, id, cnt, rfl⟩ := h
  have hkey := keeps_decodeObj os (⟨id, [], [], [], .zero t, raw⟩, cnt)
  exact (congrArg Prod.snd hkey).trans (Body.type_zero t)

open Decode in
/-- A label is shorter than the record. -/
theorem Reads.length_label (h : Reads t raw o) (ht : t ≠ .band) : o.label.length ≤ raw.length - 1 := by
  have hfree : ∀ (o : Object) raw, Object.label { o with raw := raw } = o.label := fun _ _ => rfl
  have hset : ∀ (f : UInt8 → Body → Body) c (o : Object), Object.label { o with body := f c o.body } =
    o.label := fun _ _ _ => rfl
  have hrefs : ∀ (o : Object) rs, Object.label { o with refs := rs } = o.label := fun _ _ => rfl
  have hname : ∀ (o : Object) i c, (o.writeName i c).label = o.label := fun _ _ _ => rfl
  have hlabel : ∀ (o : Object) i c, (o.writeLabel i c).label = writeAt o.label i c ∧
    (o.writeLabel i c).raw = o.raw :=
    fun _ _ _ => ⟨rfl, rfl⟩
  obtain ⟨os, id, cnt, rfl⟩ := h
  cases t with
  | ant =>
    refine length_getStr (o := ⟨id, [], [], [], .zero .ant, raw⟩) hfree hlabel ?_ rfl cnt
    refine keeps_getStr hfree hname <| keeps_getByte hfree (hset _) <|
      keeps_getByte hfree (hset _) <| keeps_getByte hfree (hset _) <| keeps_getByte hfree (hset _) <|
      keeps_getByte hfree (hset _) <|
      keeps_bgetc hfree fun c s => ?_
    obtain ⟨o, cnt⟩ := s
    dsimp only
    split_ifs
    · exact keeps_getByte hfree (hset _) (keeps_getByte hfree (hset _) keeps_decoded) _
    · rfl
  | grp =>
    refine length_getStr (o := ⟨id, [], [], [], .zero .grp, raw⟩) hfree hlabel ?_ rfl cnt
    refine keeps_getStr hfree hname <| keeps_bgetc hfree fun c s => ?_
    obtain ⟨o, cnt⟩ := s
    refine keeps_getGrpRefs hfree hrefs ?_ _ _
    exact keeps_getByte hfree (hset _) <| keeps_getByte hfree (hset _) <|
      keeps_getByte hfree (hset _) keeps_decoded
  | band => exact absurd rfl ht

open Decode in
/-- A group's references take five bytes each. -/
theorem Reads.grp_refs (h : Reads .grp raw o) : 5 * o.refs.length ≤ raw.length := by
  obtain ⟨os, id, cnt, rfl⟩ := h
  have hspends : Spends 5 0 (decodeGrec os) := by
    unfold decodeGrec
    refine spends_getStr (fun _ _ _ => ⟨rfl, rfl⟩) <| spends_getStr (fun _ _ _ => ⟨rfl, rfl⟩) <|
      spends_bgetc fun c s => ?_
    refine Spends.more (spends_getGrpRefs ?_ c.toNat) _
    exact spends_getByte <| spends_getByte <| spends_getByte spends_decoded
  have hlen := hspends (⟨id, [], [], [], .zero .grp, raw⟩, cnt)
  dsimp only at hlen
  rw [List.length_nil, Nat.mul_zero, Nat.zero_add, Nat.add_zero] at hlen
  exact hlen

/-- `decode_brec` from the name on. -/
def decodeBrecName (os : List Object) : Decode :=
  getStr Object.writeName MAX_NAME_LEN <|
  getByte (fun c => Body.band' fun b => { b with outputs := c }) <|
  getByte (fun c => Body.band' fun b => { b with bpfSeq := c.toUInt32 }) <|
  getByte (fun c => Body.band' fun b => { b with bpfSeq := b.bpfSeq ||| shl c 8 }) <|
  getByte (fun c => Body.band' fun b => { b with bpfSeq := b.bpfSeq ||| shl c 16 }) <|
  bgetc fun n (o, cnt) =>
    (getBandRefs os n.toNat <|
      getByte (fun c => Body.band' fun b => { b with currentRx := c }) <|
      getByte (fun c => Body.band' fun b => { b with currentTx := c }) <|
      getByte (fun c => Body.band' fun b => { b with split := c &&& 1 == 1 }) decoded)
      ({ o with body := o.body.band' fun b => { b with numAntennas := n } }, cnt)

open Decode in
/-- A band's references take three bytes each. -/
theorem Reads.band_refs (h : Reads .band raw o) : 3 * o.refs.length ≤ raw.length := by
  obtain ⟨os, id, cnt, rfl⟩ := h
  have hspends : Spends 3 0 (decodeBrec os) := by
    unfold decodeBrec
    refine spends_getByte <| spends_getByte <| spends_getByte <| spends_getByte <| spends_getByte <|
      spends_getByte <|
      spends_getByte <| spends_getByte <| spends_getStr (fun _ _ _ => ⟨rfl, rfl⟩) <| spends_getByte <|
      spends_getByte <|
      spends_getByte <| spends_getByte <| spends_bgetc fun c s => ?_
    refine Spends.more (spends_getBandRefs ?_ c.toNat) _
    exact spends_getByte <| spends_getByte <| spends_getByte spends_decoded
  have hlen := hspends (⟨id, [], [], [], .zero .band, raw⟩, cnt)
  dsimp only at hlen
  rw [List.length_nil, Nat.mul_zero, Nat.zero_add, Nat.add_zero] at hlen
  exact hlen

/-- The frequencies come first. -/
theorem decodeBrec_freqs (os : List Object) (id cnt : Int) (a b c d e f g h : UInt8) (raw : List UInt8) :
    decodeBrec os (⟨id, [], [], [], .zero .band, a :: b :: c :: d :: e :: f :: g :: h :: raw⟩, cnt) =
      decodeBrecName os (⟨id, [], [], [], .band ⟨le32 a b c d, le32 e f g h, 0, 0, 0, 0, 0, false⟩, raw⟩,
        cnt) := rfl

open Decode in
theorem keeps_freqs (os : List Object) : Keeps (fun o => o.body.freqs) (decodeBrecName os) := by
  have hfree : ∀ (o : Object) (raw : List UInt8), o.body.freqs = o.body.freqs := fun _ _ => rfl
  have hband : ∀ (f : UInt8 → BandRecord → BandRecord), (∀ c b,
    ((f c b).lowFreq, (f c b).highFreq) = (b.lowFreq, b.highFreq)) →
      ∀ c (o : Object), (o.body.band' (f c)).freqs = o.body.freqs := by
    intro f hf c o
    cases hb : o.body with
    | band b => exact hf c b
    | _ => rfl
  unfold decodeBrecName
  refine keeps_getStr hfree (fun _ _ _ => rfl) <| keeps_getByte hfree (hband _ fun _ _ => rfl) <|
    keeps_getByte hfree (hband _ fun _ _ => rfl) <| keeps_getByte hfree (hband _ fun _ _ => rfl) <|
    keeps_getByte hfree (hband _ fun _ _ => rfl) <| keeps_bgetc hfree fun c s => ?_
  obtain ⟨o, cnt⟩ := s
  have hnum : (o.body.band' fun b => { b with numAntennas := c }).freqs = o.body.freqs :=
    hband (fun c b => { b with numAntennas := c }) (fun _ _ => rfl) c o
  refine (keeps_getBandRefs (f := fun o => o.body.freqs) hfree (fun _ _ => rfl) ?_ _ _).trans hnum
  exact keeps_getByte hfree (hband _ fun _ _ => rfl) <| keeps_getByte hfree (hband _ fun _ _ => rfl) <|
    keeps_getByte hfree (hband _ fun _ _ => rfl) keeps_decoded

open Decode in
theorem length_decodeBrecName (os : List Object) {o : Object} (ho : o.name = []) (cnt : Int) :
    (decodeBrecName os (o, cnt)).1.1.name.length ≤ o.raw.length - 1 := by
  have hfree : ∀ (o : Object) raw, Object.name { o with raw := raw } = o.name := fun _ _ => rfl
  have hset : ∀ (f : UInt8 → Body → Body) c (o : Object), Object.name { o with body := f c o.body } = o.name :=
    fun _ _ _ => rfl
  have hrefs : ∀ (o : Object) rs, Object.name { o with refs := rs } = o.name := fun _ _ => rfl
  have hname : ∀ (o : Object) i c, (o.writeName i c).name = writeAt o.name i c ∧ (o.writeName i c).raw = o.raw :=
    fun _ _ _ => ⟨rfl, rfl⟩
  refine length_getStr hfree hname ?_ ho cnt
  refine keeps_getByte hfree (hset _) <| keeps_getByte hfree (hset _) <| keeps_getByte hfree (hset _) <|
    keeps_getByte hfree (hset _) <| keeps_bgetc hfree fun c s => ?_
  obtain ⟨o, cnt⟩ := s
  refine keeps_getBandRefs hfree hrefs ?_ _ _
  exact keeps_getByte hfree (hset _) <| keeps_getByte hfree (hset _) <| keeps_getByte hfree (hset _) keeps_decoded

end

end Mhuxd
