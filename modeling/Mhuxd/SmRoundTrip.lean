import Mhuxd.SmDecode
import Mhuxd.SmEdits

/-!
# The Station Master's configuration, written and read again

The encoder counts the length byte into the length of a record, the download reads as many bytes behind it. So it takes
the next record's length for the last byte of each record, and what follows for a length: only an empty list and a
single band come back.
-/

namespace Mhuxd

/-! ### The same configuration -/

/-- Where the object that a reference names stands in the list. -/
def Ref.place (os : List Object) (r : Ref) : Nat := os.findIdx fun o => o.id == r.destId

/-- What is set of a reference: its flags in a band, its azimuths in a group. -/
def Ref.settings (t : ObjType) (r : Ref) : UInt8 × UInt16 × UInt16 :=
  match t with
  | .band => (r.flags, 0, 0)
  | _ => (0, r.minAzimuth, r.maxAzimuth)

/-- What is set of a record: not what the device reports, and no offset without a rotator. -/
def Body.settings : Body → Body
  | .ant a => .ant { a with rotatorOffset := if a.rotator then a.rotatorOffset else 0 }
  | .grp g => .grp { g with currentAzimuth := 0 }
  | .band b => .band { b with numAntennas := 0, currentRx := 0, currentTx := 0, split := false }

/-- Two references that are the same in their lists. -/
structure SameRef (os os' : List Object) (t : ObjType) (r r' : Ref) : Prop where
  place : r'.place os' = r.place os
  settings : r'.settings t = r.settings t

/-- Two objects that are the same in their lists. -/
structure SameObject (os os' : List Object) (o o' : Object) : Prop where
  label : cstr o'.label = cstr o.label
  name : cstr o'.name = cstr o.name
  settings : o'.body.settings = o.body.settings
  refs : List.Forall₂ (SameRef os os' o.type) o.refs o'.refs

/-- The same objects in the same order; a download gives ids anew. -/
def SameObjects (os os' : List Object) : Prop := List.Forall₂ (SameObject os os') os os'

/-- The memory begins with the encoded band plan. -/
def HoldsPlan (memory : UInt16 → UInt8) (bp : Bandplan) : Prop := ∃ bytes ∈ encodeBp bp, bytes <+: image memory

/-- A download of the memory comes to its end, and the objects are the same. -/
def RoundTrips (L : Layout) (memory : UInt16 → UInt8) (sm : Sm) (os : List Object) : Prop :=
  ∃ n ≤ 2048, ∃ sm', download L memory sm n = some sm' ∧ sm'.state = .done ∧
    ∃ bp' ∈ sm'.bp, SameObjects os bp'.objList

/-- Objects that come back: none, with a zero in the byte that is taken for another length, or one band. -/
def Survives (memory : UInt16 → UInt8) : List Object → Prop
  | [] => memory 142 = 0
  | [o] => ∃ b, o.body = .band b ∧ o.refs = [] ∧ cstr o.label = [] ∧ b.bpfSeq.toNat < 2 ^ 24 ∧
      ¬ (b.lowFreq = 0 ∧ b.highFreq = 0xffffffff)
  | _ => False

/-! ### The download of a memory -/

section
variable {L : Layout} {memory : UInt16 → UInt8} {sm sm' : Sm} {received : List UInt8}

/-- After a complete download more bytes make no difference. -/
theorem decodedObjects_append {as : List UInt8} (h : (records .ant (as.drop 115)).2 = true) (bs : List UInt8) :
    decodedObjects (as ++ bs) = decodedObjects as := by
  obtain ⟨g, hg, hobjs, hdone, -⟩ := Getting.bytes_start (L := .apart) as
  have hg' : Getting.bytes .apart 0 (as ++ bs) .start = some g := by
    rw [Getting.bytes_append, hg, Option.bind_some, Getting.bytes_done (hdone.2 h)]
  have hrec : recordObjects (as ++ bs) = recordObjects as := (Getting.of_start hg').1.symm.trans hobjs
  unfold decodedObjects
  rw [hrec]

/-- A download that has come to its end has decoded the objects in the memory. -/
def Fetched (memory : UInt16 → UInt8) (sm : Sm) : Prop :=
  sm.request = none ∧ sm.state = .done ∧ (∃ bp ∈ sm.bp, bp.objList = decodedObjects (image memory)) ∧
    (records .ant ((image memory).drop 115)).2 = true

theorem Sm.Reading.fetches {n : Nat} (hn : n < 2048) (h : Sm.Reading L sm ((image memory).take (32 * n))) :
    ∃ sm', sm.answered L memory = some sm' ∧ (Sm.Reading L sm' ((image memory).take (32 * (n + 1))) ∨
      Fetched memory sm') := by
  have hblock : ((image memory).take (32 * n)).length = 32 * n := by
    rw [List.length_take, image, List.length_map, List.length_range]
    omega
  have hreq : sm.request = some (UInt16.ofNat (32 * n)) := by
    obtain ⟨g, f, -, -, rfl⟩ := h
    exact congrArg (fun n => some (UInt16.ofNat n)) hblock
  have hdata := h.data
    (0x43 :: (List.range 32).map (fun i => memory (UInt16.ofNat (32 * n) + UInt16.ofNat i)) ++ [0xc3]) (by simp)
  have hbytes : ((0x43 :: (List.range 32).map (fun i => memory (UInt16.ofNat (32 * n) + UInt16.ofNat i)) ++
    [0xc3]).drop
      1).take 32 = (List.range 32).map fun i => memory (UInt16.ofNat (32 * n) + UInt16.ofNat i) := by
    rw [List.cons_append, List.drop_one, List.tail_cons]
    exact List.take_left' (by simp)
  rw [hbytes, ← image_block hn] at hdata
  obtain ⟨g, hg, hnext⟩ := hdata
  unfold Sm.answered
  rw [hreq]
  rcases hnext with ⟨-, sm', hsm', hread⟩ | ⟨hdone, f, offset, hsm'⟩
  · exact ⟨sm', hsm', .inl hread⟩
  · obtain ⟨hobjs, hend, -⟩ := Getting.of_start hg
    have hall := hend.1 hdone
    refine ⟨_, hsm', .inr ⟨rfl, rfl, ⟨_, rfl, ?_⟩, ?_⟩⟩
    · rw [← List.take_append_drop (32 * (n + 1)) (image memory), decodedObjects_append hall]
      unfold decodedObjects recordObjects
      rw [← hobjs]
      rfl
    · rw [← List.take_append_drop (32 * (n + 1)) (image memory)]
      exact records_append hall _

theorem download_fetches (L : Layout) (memory : UInt16 → UInt8) (h : sm.busy = false) {n : Nat} (hn : n ≤ 2048) :
    ∃ sm', download L memory sm n = some sm' ∧ (Sm.Reading L sm' ((image memory).take (32 * n)) ∨
      Fetched memory sm') := by
  induction n with
  | zero => exact ⟨_, rfl, .inl (Sm.Reading.getAntsw h).2⟩
  | succ n ih =>
    obtain ⟨sm', hsm, hread | hfetched⟩ := ih (by omega)
    · obtain ⟨sm'', hsm'', hnext⟩ := hread.fetches (by omega)
      exact ⟨sm'', by rw [download, hsm, Option.bind_some, hsm''], hnext⟩
    · refine ⟨sm', ?_, .inr hfetched⟩
      rw [download, hsm, Option.bind_some, Sm.answered, hfetched.1]

/-- Written and read again: the records come to their end, and the objects decoded from them are the same. -/
theorem roundTrips_iff (h : sm.busy = false) (os : List Object) : RoundTrips L memory sm os ↔
    (records .ant ((image memory).drop 115)).2 = true ∧ SameObjects os (decodedObjects (image memory)) := by
  constructor
  · rintro ⟨n, hn, sm', hsm', hdone, bp', hbp', hsame⟩
    obtain ⟨sm'', hsm'', hread | hfetched⟩ := download_fetches L memory h hn
    · obtain rfl : sm'' = sm' := Option.some.inj (hsm''.symm.trans hsm')
      have hbusy := hread.busy
      unfold Sm.busy at hbusy
      rw [hdone] at hbusy
      cases hbusy
    · obtain rfl : sm'' = sm' := Option.some.inj (hsm''.symm.trans hsm')
      obtain ⟨-, -, ⟨bp, hbp, hobjs⟩, hend⟩ := hfetched
      obtain rfl : bp = bp' := Option.some.inj (Option.mem_def.1 hbp ▸ Option.mem_def.1 hbp')
      exact ⟨hend, hobjs ▸ hsame⟩
  · rintro ⟨hend, hsame⟩
    obtain ⟨sm', hsm', hread | ⟨-, hdone, ⟨bp, hbp, hobjs⟩, -⟩⟩ := download_fetches L memory h (Nat.le_refl 2048)
    · have himage : (image memory).take (32 * 2048) = image memory := by
        refine List.take_of_length_le (Nat.le_of_eq ?_)
        rw [image, List.length_map, List.length_range]
      obtain ⟨g, f, hg, hne, -⟩ := hread
      rw [himage] at hg
      exact absurd ((Getting.of_start hg).2.1.2 hend) hne
    · exact ⟨2048, Nat.le_refl _, sm', hsm', hdone, bp, hbp, by rw [hobjs]; exact hsame⟩

end

/-! ### The records of a type -/

/-- The records of type `t` in the memory from a length byte of type `t₀` on. -/
def raws (t₀ t : ObjType) (bs : List UInt8) : List (List UInt8) :=
  ((records t₀ bs).1.filter fun x => x.1 == t).map Prod.snd

theorem raws_cons {t₀ : ObjType} (t : ObjType) {c : UInt8} (hc : 0 < c.toNat) (cs : List UInt8) :
    raws t₀ t (c :: cs) =
    (if t₀ = t then [cs.take c.toNat] else []) ++ raws t₀ t (cs.drop c.toNat) := by
  unfold raws
  rw [records, if_pos hc, List.filter_cons]
  by_cases ht : t₀ = t
  · rw [if_pos ht, if_pos (beq_iff_eq.2 ht)]
    rfl
  · rw [if_neg ht, if_neg (mt beq_iff_eq.1 ht)]
    rfl

/-- The next record of the type. -/
theorem raws_self {t : ObjType} {c : UInt8} (hc : 0 < c.toNat) (cs : List UInt8) :
    raws t t (c :: cs) = cs.take c.toNat :: raws t t (cs.drop c.toNat) := by
  rw [raws_cons t hc, if_pos rfl]
  rfl

theorem raws_zero {t₀ t' : ObjType} (t : ObjType) (h : t₀.next = some t') (cs : List UInt8) :
    raws t₀ t (0 :: cs) = raws t' t cs := by
  unfold raws
  rw [records, if_neg (by decide), h]

theorem raws_end (t : ObjType) (cs : List UInt8) : raws .band t (0 :: cs) = [] := by
  unfold raws
  rw [records, if_neg (by decide)]
  rfl

/-- The types come one after the other. -/
theorem raws_band {t : ObjType} (h : t ≠ .band) (bs : List UInt8) : raws .band t bs = [] := by
  induction hn : bs.length using Nat.strong_induction_on generalizing bs with
  | _ n ih =>
    cases bs with
    | nil =>
      unfold raws
      rw [records]
      rfl
    | cons c cs =>
      by_cases hc : 0 < c.toNat
      · have hlt : (cs.drop c.toNat).length < n := by
          rw [← hn, List.length_drop, List.length_cons]
          omega
        rw [raws_cons t hc, if_neg (Ne.symm h), ih _ hlt _ rfl]
        rfl
      · have hz : c = 0 := UInt8.toNat_inj.1 (Nat.eq_zero_of_not_pos hc)
        rw [hz, raws_end]

theorem raws_grp_ant (bs : List UInt8) : raws .grp .ant bs = [] := by
  induction hn : bs.length using Nat.strong_induction_on generalizing bs with
  | _ n ih =>
    cases bs with
    | nil =>
      unfold raws
      rw [records]
      rfl
    | cons c cs =>
      by_cases hc : 0 < c.toNat
      · have hlt : (cs.drop c.toNat).length < n := by
          rw [← hn, List.length_drop, List.length_cons]
          omega
        rw [raws_cons .ant hc, if_neg (by decide), ih _ hlt _ rfl]
        rfl
      · have hz : c = 0 := UInt8.toNat_inj.1 (Nat.eq_zero_of_not_pos hc)
        rw [hz, raws_zero .ant rfl]
        exact raws_band (by decide) cs

/-! ### Objects that are read again -/

/-- The object is what is decoded from the record's bytes, as far as it matters here. -/
def Reread (o : Object) (raw : List UInt8) : Prop :=
  ∃ o', Reads o.type raw o' ∧ cstr o'.label = cstr o.label ∧ cstr o'.name = cstr o.name ∧
    o'.body.settings = o.body.settings ∧ o'.refs.length = o.refs.length

theorem Body.type_settings (b : Body) : b.settings.type = b.type := by cases b <;> rfl

/-- Each record makes an object. -/
theorem reads_decoded (all : List Object) (rs : List (ObjType × List UInt8)) (cnt cnt' : Int) :
    List.Forall₂ (fun x o => Reads x.1 x.2 o) rs (decodeObjs all (objectsOf cnt rs).1 cnt').1 := by
  induction rs generalizing cnt cnt' with
  | nil => exact .nil
  | cons x rs ih => exact .cons ⟨all, _, cnt', rfl⟩ (ih _ _)

theorem isStopper_type {o : Object} (h : isStopper o = true) : o.type = .band := by
  unfold isStopper at h
  unfold Object.type
  cases hb : o.body with
  | band b => rfl
  | ant a =>
    rw [hb] at h
    cases h
  | grp g =>
    rw [hb] at h
    cases h

/-- Only a band is taken off at the end. -/
theorem dropStopper_eq (os : List Object) :
    dropStopper os = os ∨ ∃ o, os = dropStopper os ++ [o] ∧ o.type = .band := by
  unfold dropStopper
  cases hl : os.getLast? with
  | none => exact .inl rfl
  | some o =>
    dsimp only
    split_ifs with hs
    · exact .inr ⟨o, (List.dropLast_append_getLast? o hl).symm, isStopper_type hs⟩
    · exact .inl rfl

/-- The records of objects that are the same after a download. -/
theorem reread_of_same {os os' all all' : List Object} {rs : List (ObjType × List UInt8)}
    (h : List.Forall₂ (SameObject all all') os os') (hreads : List.Forall₂ (fun x o => Reads x.1 x.2 o) rs os') :
    List.Forall₂ (fun o x => o.type = x.1 ∧ Reread o x.2) os rs := by
  induction h generalizing rs with
  | nil =>
    cases hreads
    exact .nil
  | @cons o o' os os' hsame _ ih =>
    cases hreads with
    | @cons x _ rs _ hread hrest =>
      have htype : o.type = o'.type := by
        unfold Object.type
        rw [← Body.type_settings, ← hsame.settings, Body.type_settings]
      have hx : o.type = x.1 := htype.trans hread.type
      exact .cons ⟨hx, o', hx ▸ hread, hsame.label, hsame.name, hsame.settings, hsame.refs.length_eq.symm⟩
        (ih hrest)

/-- One object at most is taken off. -/
theorem length_decodedObjects (bytes : List UInt8) :
    (records .ant (bytes.drop 115)).1.length ≤ (decodedObjects bytes).length + 1 := by
  have hreads := reads_decoded (recordObjects bytes).1 (records .ant (bytes.drop 115)).1 0 (recordObjects bytes).2
  rw [hreads.length_eq]
  unfold decodedObjects Bandplan.decode
  dsimp only
  rcases dropStopper_eq (decodeObjs (recordObjects bytes).1 (recordObjects bytes).1 (recordObjects bytes).2).1 with heq | ⟨o, heq, -⟩
  · rw [heq]
    exact Nat.le_succ _
  · exact Nat.le_of_eq ((congrArg List.length heq).trans (List.length_append ..))

/-- Objects that are the same after a download are those of the records of their types, the stopper record aside. -/
theorem rereads {os : List Object} {bytes : List UInt8} (h : SameObjects os (decodedObjects bytes)) (t : ObjType) :
    ∃ l, l <+: raws .ant t (bytes.drop 115) ∧ (t ≠ .band → l = raws .ant t (bytes.drop 115)) ∧
      List.Forall₂ Reread (os.filter fun o => o.type == t) l := by
  obtain ⟨rs, hrs⟩ : ∃ rs, rs = (records .ant (bytes.drop 115)).1 := ⟨_, rfl⟩
  obtain ⟨ds, hds⟩ : ∃ ds, ds = (decodeObjs (objectsOf 0 rs).1 (objectsOf 0 rs).1 (objectsOf 0 rs).2).1 := ⟨_, rfl⟩
  have hreads : List.Forall₂ (fun x o => Reads x.1 x.2 o) rs ds := hds ▸ reads_decoded _ rs 0 _
  have hdecoded : decodedObjects bytes = dropStopper ds := by
    rw [hds, hrs]
    rfl
  rw [hdecoded] at h
  -- the records but that of the stopper
  obtain ⟨rs', hpre, hends, hreads'⟩ : ∃ rs', rs' <+: rs ∧ (t ≠ .band →
    rs'.filter (·.1 == t) = rs.filter (·.1 == t)) ∧
      List.Forall₂ (fun x o => Reads x.1 x.2 o) rs' (dropStopper ds) := by
    rcases dropStopper_eq ds with heq | ⟨o, heq, ho⟩
    · exact ⟨rs, List.prefix_rfl, fun _ => rfl, heq.symm ▸ hreads⟩
    · rw [heq] at hreads
      have hlast := List.forall₂_drop_append _ _ _ hreads
      refine ⟨rs.take (dropStopper ds).length, List.take_prefix _ _, fun ht => ?_,
        List.forall₂_take_append _ _ _ hreads⟩
      generalize hx : rs.drop (dropStopper ds).length = xs at hlast
      cases hlast with
      | cons hread hnil =>
        cases hnil
        next x =>
          have hband : x.1 = .band := hread.type.symm.trans ho
          have hsplit : rs.filter (·.1 == t) = (rs.take (dropStopper ds).length).filter (·.1 == t) := by
            conv_lhs => rw [← List.take_append_drop (dropStopper ds).length rs, List.filter_append, hx]
            simp [hband, Ne.symm ht]
          exact hsplit.symm
  have hboth := reread_of_same h hreads'
  have hfiltered := List.rel_filter (p := fun o => o.type == t) (q := fun x => x.1 == t) (fun o x hx => by
    show (o.type == t) = true ↔ (x.1 == t) = true
    rw [hx.1]) hboth
  refine ⟨(rs'.filter (·.1 == t)).map Prod.snd, (hrs ▸ hpre.filter _).map _, fun ht => ?_, ?_⟩
  · unfold raws
    rw [hends ht, hrs]
  · exact List.forall₂_map_right_iff.2 (hfiltered.imp fun _ _ hx => hx.2)

/-! ### What is written -/

theorem record_eq (p : List UInt8) : record p = UInt8.ofNat (min (p.length + 1) 4096) :: p.take 4095 := by
  have hdata : (Buffer.empty.append (0 :: p)).data = 0 :: p.take 4095 := rfl
  have hsize : (Buffer.empty.append (0 :: p)).size = min (p.length + 1) 4096 := by
    rw [Buffer.size, hdata, List.length_cons, List.length_take]
    omega
  unfold record
  dsimp only
  rw [hsize, hdata, List.tail_cons]

/-- A record whose length fits a byte. -/
theorem record_of_lt {p : List UInt8} (h : p.length < 255) : record p = UInt8.ofNat (p.length + 1) :: p := by
  rw [record_eq, Nat.min_eq_left (by omega), List.take_of_length_le (by omega)]

theorem toNat_ofNat_lt {n : Nat} (h : n < 256) : (UInt8.ofNat n).toNat = n := UInt8.toNat_ofNat_of_lt' h

theorem forall₂_of_mapM {α β : Type} {f : α → Option β} {l : List α} {l' : List β} (h : l.mapM f = some l') :
    List.Forall₂ (fun a b => f a = some b) l l' := by
  induction l generalizing l' with
  | nil =>
    rw [List.mapM_nil] at h
    obtain rfl := Option.some.inj h
    exact .nil
  | cons a l ih =>
    rw [List.mapM_cons] at h
    obtain ⟨b, hb, h⟩ := Option.bind_eq_some_iff.1 h
    obtain ⟨bs, hbs, h⟩ := Option.bind_eq_some_iff.1 h
    obtain rfl := Option.some.inj h
    exact .cons hb (ih hbs)

section
variable {ix : List (Object × Nat)} {o : Object} {p : List UInt8} {t : ObjType} {os : List Object}

/-- Names and labels are within their limits. -/
def InLimits (o : Object) : Prop := (cstr o.name).length ≤ MAX_NAME_LEN ∧ (cstr o.label).length ≤ MAX_LABEL_LEN

theorem encodeType_some {bytes : List UInt8} (h : encodeType ix t os = some bytes) :
    ∃ ps, List.Forall₂ (fun o p => encodeObj ix o = some p) (os.filter fun o => o.type == t) ps ∧
    bytes = ps.flatMap record := by
  obtain ⟨ps, hps, rfl⟩ := Option.map_eq_some_iff.1 h
  exact ⟨ps, forall₂_of_mapM hps, rfl⟩

/-- Records of antennas and groups begin with the label. -/
theorem encodeObj_label (ht : o.type ≠ .band) (h : encodeObj ix o = some p) :
    ∃ q, p = UInt8.ofNat (cstr o.label).length :: (cstr o.label ++ q) := by
  unfold encodeObj at h
  unfold Object.type at ht
  cases hb : o.body with
  | band b => exact absurd (hb ▸ rfl) ht
  | ant a =>
    rw [hb] at h
    obtain rfl := Option.some.inj h
    unfold encodeAnt encodeStr
    simp only [List.cons_append, List.append_assoc]
    exact ⟨_, rfl⟩
  | grp g =>
    rw [hb] at h
    obtain ⟨refs, -, rfl⟩ := Option.map_eq_some_iff.1 h
    unfold encodeStr
    simp only [List.cons_append, List.append_assoc]
    exact ⟨_, rfl⟩

theorem length_encodeAnt (hlim : InLimits o) (ht : o.type = .ant) (h : encodeObj ix o = some p) :
    p.length ≤ 25 := by
  have hname : (cstr o.name).length ≤ 10 := hlim.1
  have hlabel : (cstr o.label).length ≤ 5 := hlim.2
  unfold encodeObj at h
  unfold Object.type at ht
  cases hb : o.body with
  | band b =>
    rw [hb] at ht
    cases ht
  | grp g =>
    rw [hb] at ht
    cases ht
  | ant a =>
    rw [hb] at h
    obtain rfl := Option.some.inj h
    unfold encodeAnt encodeStr u24Bytes
    split_ifs
    all_goals
      simp only [List.length_append, List.length_cons, List.length_nil]
      omega

theorem length_encodeGrp (hlim : InLimits o) (ht : o.type = .grp) (h : encodeObj ix o = some p) :
    p.length ≤ 21 + 5 * o.refs.length := by
  have hname : (cstr o.name).length ≤ 10 := hlim.1
  have hlabel : (cstr o.label).length ≤ 5 := hlim.2
  unfold encodeObj at h
  unfold Object.type at ht
  cases hb : o.body with
  | band b =>
    rw [hb] at ht
    cases ht
  | ant a =>
    rw [hb] at ht
    cases ht
  | grp g =>
    rw [hb] at h
    obtain ⟨refs, hrefs, rfl⟩ := Option.map_eq_some_iff.1 h
    have hlen : refs.flatten.length = 5 * o.refs.length := by
      have hall := forall₂_of_mapM hrefs
      clear hrefs h
      generalize o.refs = rs at hall ⊢
      induction hall with
      | nil => rfl
      | @cons r x rs xs hx _ ih =>
        obtain ⟨y, -, rfl⟩ := Option.map_eq_some_iff.1 hx
        unfold u16Bytes
        simp only [List.flatten_cons, List.length_append, List.length_cons, List.length_nil, ih]
        omega
    unfold encodeStr
    simp only [List.length_append, List.length_cons, List.length_nil, hlen]
    omega

theorem encodeBand_eq (ht : o.type = .band) (h : encodeObj ix o = some p) :
    ∃ b, o.body = .band b ∧ p = encodeBand ix o b := by
  unfold encodeObj at h
  unfold Object.type at ht
  cases hb : o.body with
  | band b =>
    rw [hb] at h
    exact ⟨b, rfl, (Option.some.inj h).symm⟩
  | ant a =>
    rw [hb] at ht
    cases ht
  | grp g =>
    rw [hb] at ht
    cases ht

theorem length_encodeBand (hlim : InLimits o) (ht : o.type = .band) (h : encodeObj ix o = some p) :
    p.length ≤ 27 + 3 * o.refs.length := by
  have hname : (cstr o.name).length ≤ 10 := hlim.1
  obtain ⟨b, -, rfl⟩ := encodeBand_eq ht h
  have hrefs : (o.refs.flatMap (encodeBandRef ix)).length ≤ 3 * o.refs.length := by
    induction o.refs with
    | nil => exact Nat.zero_le _
    | cons r rs ih =>
      have hr : (encodeBandRef ix r).length ≤ 3 := by
        unfold encodeBandRef
        split
        · exact Nat.zero_le _
        · split <;> simp
      rw [List.flatMap_cons, List.length_append, List.length_cons]
      omega
  unfold encodeBand encodeStr u32Bytes u24Bytes
  simp only [List.length_append, List.length_cons, List.length_nil]
  omega

end

/-! ### Records that are not read again -/

section
variable {ix : List (Object × Nat)} {o : Object} {p raw : List UInt8} {t : ObjType} {os : List Object} {l : List (List UInt8)}

theorem length_cstr_le (s : List UInt8) : (cstr s).length ≤ s.length := (List.takeWhile_sublist _).length_le

theorem Reread.label (h : Reread o raw) (ht : o.type ≠ .band) : (cstr o.label).length ≤ raw.length - 1 := by
  obtain ⟨o', hread, hlabel, -⟩ := h
  rw [← hlabel]
  exact Nat.le_trans (length_cstr_le _) (hread.length_label ht)

theorem Reread.grp_refs (h : Reread o raw) (ht : o.type = .grp) : 5 * o.refs.length ≤ raw.length := by
  obtain ⟨o', hread, -, -, -, hrefs⟩ := h
  rw [← hrefs]
  exact (ht ▸ hread).grp_refs

theorem Reread.band_refs (h : Reread o raw) (ht : o.type = .band) : 3 * o.refs.length ≤ raw.length := by
  obtain ⟨o', hread, -, -, -, hrefs⟩ := h
  rw [← hrefs]
  exact (ht ▸ hread).band_refs

/-- A length of zero ends the records of a type. -/
theorem raws_zero_self (t : ObjType) (cs : List UInt8) : raws t t (0 :: cs) = [] := by
  cases t with
  | ant => exact (raws_zero .ant rfl cs).trans (raws_grp_ant cs)
  | grp => exact (raws_zero .grp rfl cs).trans (raws_band (by decide) cs)
  | band => exact raws_end .band cs

/-- A record takes the byte behind it. -/
theorem raws_record (t₀ t : ObjType) (hp : p.length < 255) (x : UInt8) (cs : List UInt8) :
    raws t₀ t (record p ++ x :: cs) = (if t₀ = t then [p ++ [x]] else []) ++ raws t₀ t cs := by
  have hc : (UInt8.ofNat (p.length + 1)).toNat = (p ++ [x]).length := by
    rw [toNat_ofNat_lt (by omega), List.length_append, List.length_singleton]
  have hbytes : p ++ x :: cs = (p ++ [x]) ++ cs := by rw [List.append_assoc, List.singleton_append]
  rw [record_of_lt hp, List.cons_append, raws_cons t (by rw [hc]; simp), hc, hbytes, List.take_left,
    List.drop_left]

/-- A first record of the type, or there is none. -/
theorem raws_first (t : ObjType) (c : UInt8) (cs : List UInt8) :
    (c = 0 ∧ raws t t (c :: cs) = []) ∨ raws t t (c :: cs) = cs.take c.toNat :: raws t t (cs.drop c.toNat) := by
  by_cases hc : 0 < c.toNat
  · exact .inr (raws_self hc cs)
  · have hz : c = 0 := UInt8.toNat_inj.1 (Nat.eq_zero_of_not_pos hc)
    exact .inl ⟨hz, by rw [hz, raws_zero_self]⟩

/-- A label whose length is taken for that of the record is too long for it. -/
theorem not_reread_label (ht : o.type = t) (hne : t ≠ .band) (hlim : InLimits o) (cs : List UInt8) :
    ¬ List.Forall₂ Reread (o :: os) (raws t t (UInt8.ofNat (cstr o.label).length :: cs)) := by
  subst ht
  intro hall
  have hlen : (cstr o.label).length ≤ 5 := hlim.2
  have hc : (UInt8.ofNat (cstr o.label).length).toNat = (cstr o.label).length := toNat_ofNat_lt (by omega)
  rcases raws_first o.type (UInt8.ofNat (cstr o.label).length) cs with ⟨-, hnil⟩ | hcons
  · rw [hnil] at hall
    cases hall
  · rw [hcons] at hall
    cases hall with
    | cons hread _ =>
      have hle := hread.label hne
      rw [List.length_take, hc] at hle
      have hzero : (cstr o.label).length = 0 := by omega
      have hz : UInt8.ofNat (cstr o.label).length = 0 := congrArg UInt8.ofNat hzero
      rw [hz, raws_zero_self] at hcons
      cases hcons

/-- A record that has a reference for each `w` bytes isn't longer than its length says. -/
theorem length_of_reread {w : Nat} (hlen : p.length ≤ 27 + w * o.refs.length)
    (hrefs : ∀ raw, Reread o raw → w * o.refs.length ≤ raw.length)
    {cs : List UInt8} (hl : l <+: raws t t (record p ++ cs))
    (hall : List.Forall₂ Reread (o :: os) l) : p.length < 255 := by
  by_contra hlong
  rw [record_eq, List.cons_append] at hl
  cases hall with
  | cons hread _ =>
    rcases raws_first t (UInt8.ofNat (min (p.length + 1) 4096)) (p.take 4095 ++ cs) with ⟨-, hnil⟩ | hcons
    · rw [hnil] at hl
      exact absurd (List.prefix_nil.1 hl) (List.cons_ne_nil _ _)
    · rw [hcons] at hl
      obtain ⟨rfl, -⟩ := List.cons_prefix_cons.1 hl
      have hle := hrefs _ hread
      rw [List.length_take, UInt8.toNat_ofNat'] at hle
      omega

theorem le32_inj {a b c d a' b' c' d' : UInt8} (h : le32 a b c d = le32 a' b' c' d') :
    a = a' ∧ b = b' ∧ c = c' ∧ d = d' := by
  have hbytes := congrArg u32Bytes h
  rw [u32Bytes_le32, u32Bytes_le32] at hbytes
  simpa using hbytes

theorem freqs_settings (b : Body) : b.settings.freqs = b.freqs := by cases b <;> rfl

/-- A word has four bytes. -/
theorem exists_le32 (x : UInt32) : ∃ a b c d, u32Bytes x = [a, b, c, d] ∧ x = le32 a b c d :=
  ⟨_, _, _, _, rfl, (le32_u32Bytes x).symm⟩

/-- The frequencies of a band, also of a record that ends before them. -/
theorem freqs_decodeBrec (os : List Object) (id cnt : Int) (raw : List UInt8) :
    (decodeBrec os (⟨id, [], [], [], .zero .band, raw⟩, cnt)).1.1.body.freqs =
      (le32 (raw.getD 0 0) (raw.getD 1 0) (raw.getD 2 0) (raw.getD 3 0),
        le32 (raw.getD 4 0) (raw.getD 5 0) (raw.getD 6 0) (raw.getD 7 0)) := by
  match raw with
  | [] => rfl
  | [a] => simp [decodeBrec, getByte, bgetc, Body.freqs, Body.band', Body.zero, le32, shl]
  | [a, b] => simp [decodeBrec, getByte, bgetc, Body.freqs, Body.band', Body.zero, le32, shl]
  | [a, b, c] => simp [decodeBrec, getByte, bgetc, Body.freqs, Body.band', Body.zero, le32, shl]
  | [a, b, c, d] => simp [decodeBrec, getByte, bgetc, Body.freqs, Body.band', Body.zero, le32, shl]
  | [a, b, c, d, e] => simp [decodeBrec, getByte, bgetc, Body.freqs, Body.band', Body.zero, le32, shl]
  | [a, b, c, d, e, f] => simp [decodeBrec, getByte, bgetc, Body.freqs, Body.band', Body.zero, le32, shl]
  | [a, b, c, d, e, f, g] => simp [decodeBrec, getByte, bgetc, Body.freqs, Body.band', Body.zero, le32, shl]
  | a :: b :: c :: d :: e :: f :: g :: h :: raw =>
    rw [decodeBrec_freqs]
    exact keeps_freqs os _

/-- Frequencies that are the same when read from their second byte on are made of one byte, and as many are read. -/
theorem freqs_shifted {a b1 b2 b3 h0 h1 h2 h3 n : UInt8} {q : List UInt8} (hpos : 0 < a.toNat)
    (hraw : raw = (b1 :: b2 :: b3 :: h0 :: h1 :: h2 :: h3 :: n :: q).take a.toNat)
    (hlow : le32 (raw.getD 0 0) (raw.getD 1 0) (raw.getD 2 0) (raw.getD 3 0) = le32 a b1 b2 b3)
    (hhigh : le32 (raw.getD 4 0) (raw.getD 5 0) (raw.getD 6 0) (raw.getD 7 0) = le32 h0 h1 h2 h3) :
    8 ≤ a.toNat ∧ n = a := by
  obtain ⟨e0, e1, e2, e3⟩ := le32_inj hlow
  obtain ⟨e4, e5, e6, e7⟩ := le32_inj hhigh
  have hne : a ≠ 0 := by
    rintro rfl
    exact absurd hpos (by decide)
  have hm : a.toNat = 1 ∨ a.toNat = 2 ∨ a.toNat = 3 ∨ a.toNat = 4 ∨ a.toNat = 5 ∨ a.toNat = 6 ∨ a.toNat = 7 ∨
      ∃ k, a.toNat = k + 8 := by
    by_cases h8 : 8 ≤ a.toNat
    · exact .inr (.inr (.inr (.inr (.inr (.inr (.inr ⟨a.toNat - 8, by omega⟩))))))
    · omega
  -- of fewer bytes the first one that is missing is zero, and so are all
  rcases hm with hm | hm | hm | hm | hm | hm | hm | ⟨k, hm⟩
  all_goals
    rw [hm] at hraw
    subst hraw
    simp at e0 e1 e2 e3 e4 e5 e6 e7
    grind

/-- A band that is read from its second byte on, with the first one for its length. -/
theorem not_reread_band (ht : o.type = .band) (hlim : InLimits o) (h : encodeObj ix o = some p) {cs : List UInt8}
    (hl : l <+: raws .band .band (p.take 4095 ++ cs)) : ¬ List.Forall₂ Reread (o :: os) l := by
  intro hall
  have hlen : (cstr o.name).length ≤ 10 := hlim.1
  obtain ⟨b, hb, rfl⟩ := encodeBand_eq ht h
  obtain ⟨a, b1, b2, b3, hlow, hlow'⟩ := exists_le32 b.lowFreq
  obtain ⟨h0, h1, h2, h3, hhigh, hhigh'⟩ := exists_le32 b.highFreq
  obtain ⟨n, hn⟩ : ∃ n, n = UInt8.ofNat (cstr o.name).length := ⟨_, rfl⟩
  obtain ⟨q, hq⟩ : ∃ q, (encodeBand ix o b).take 4095 ++ cs = a :: b1 :: b2 :: b3 :: h0 :: h1 :: h2 :: h3 ::
    n :: q := by
    unfold encodeBand encodeStr
    rw [hlow, hhigh, ← hn]
    simp only [List.cons_append, List.take_succ_cons]
    exact ⟨_, rfl⟩
  rw [hq] at hl
  rcases raws_first .band a (b1 :: b2 :: b3 :: h0 :: h1 :: h2 :: h3 :: n :: q) with ⟨-, hnil⟩ | hcons
  · rw [hnil] at hl
    rw [List.prefix_nil.1 hl] at hall
    cases hall
  · have hpos : 0 < a.toNat := by
      by_contra hno
      have hz : a = 0 := UInt8.toNat_inj.1 (Nat.eq_zero_of_not_pos hno)
      rw [hz, raws_zero_self] at hcons
      cases hcons
    rw [hcons] at hl
    cases hall with
    | cons hread _ =>
      obtain ⟨rfl, -⟩ := List.cons_prefix_cons.1 hl
      obtain ⟨o', hread, -, hname, hset, -⟩ := hread
      rw [ht] at hread
      obtain ⟨all, id, cnt, rfl⟩ := hread
      obtain ⟨raw, hraw⟩ : ∃ raw, raw = (b1 :: b2 :: b3 :: h0 :: h1 :: h2 :: h3 :: n :: q).take a.toNat := ⟨_, rfl⟩
      rw [← hraw] at hname hset
      have hfreqs : (decodeBrec all (⟨id, [], [], [], .zero .band, raw⟩, cnt)).1.1.body.freqs =
        (le32 a b1 b2 b3, le32 h0 h1 h2 h3) := by
        have heq := congrArg Body.freqs hset
        rw [freqs_settings, freqs_settings, hb] at heq
        exact heq.trans (by rw [← hlow', ← hhigh']; rfl)
      rw [freqs_decodeBrec] at hfreqs
      obtain ⟨hlow, hhigh⟩ := Prod.mk.inj hfreqs
      obtain ⟨h8, hna⟩ := freqs_shifted hpos hraw hlow hhigh
      -- the name is as long as the record
      obtain ⟨k, hk⟩ : ∃ k, a.toNat = k + 8 := ⟨a.toNat - 8, by omega⟩
      have hshort : (cstr o.name).length ≤ k - 1 := by
        have hbytes : raw = b1 :: b2 :: b3 :: h0 :: h1 :: h2 :: h3 :: n :: q.take k := by
          rw [hraw, hk]
          rfl
        have hread := decodeBrec_freqs all id cnt b1 b2 b3 h0 h1 h2 h3 n (q.take k)
        rw [← hbytes] at hread
        have hle := length_decodeBrecName all
          (o := ⟨id, [], [], [], .band ⟨le32 b1 b2 b3 h0, le32 h1 h2 h3 n, 0, 0, 0, 0, 0, false⟩, q.take k⟩) rfl cnt
        rw [← hread] at hle
        rw [← hname]
        refine Nat.le_trans (length_cstr_le _) (Nat.le_trans hle ?_)
        show (q.take k).length - 1 ≤ k - 1
        rw [List.length_take]
        omega
      have hname' : (cstr o.name).length = a.toNat := by
        rw [← hna, hn, toNat_ofNat_lt (by omega)]
      omega

/-- Payloads of the objects. -/
abbrev Written (ix : List (Object × Nat)) (os : List Object) (ps : List (List UInt8)) : Prop :=
  List.Forall₂ (fun o p => encodeObj ix o = some p) os ps

variable {as gs bs : List Object} {A G B : List (List UInt8)} {rest : List UInt8}

/-- The bands are not read again when their first byte is taken for the length of a group. -/
theorem not_reread_bands (hB : Written ix bs B) (ht : ∀ o ∈ bs, o.type = .band) (hlim : ∀ o ∈ bs, InLimits o)
    (hgrp : raws .grp .grp (B.flatMap record ++ (record stopper ++ rest)) = [])
    (hl : l <+: raws .grp .band (B.flatMap record ++ (record stopper ++ rest))) : ¬ List.Forall₂ Reread bs l := by
  intro hall
  cases hB with
  | nil => cases hgrp.symm.trans (raws_self (t := .grp) (c := 24) (by decide) (stopper ++ rest))
  | @cons o p bs B h hB =>
    rw [List.flatMap_cons, List.append_assoc, record_eq, List.cons_append] at hgrp hl
    rcases raws_first .grp (UInt8.ofNat (min (p.length + 1) 4096))
      (p.take 4095 ++ (B.flatMap record ++ (record stopper ++ rest)))
      with ⟨hz, -⟩ | hcons
    · rw [hz, raws_zero .band rfl] at hl
      exact not_reread_band (ht o List.mem_cons_self) (hlim o List.mem_cons_self) h hl hall
    · cases hgrp.symm.trans hcons

/-- Nothing is read again if there is an antenna. -/
theorem ants_nil (hA : Written ix as A) (hG : Written ix gs G) (hB : Written ix bs B)
    (ha : ∀ o ∈ as, o.type = .ant ∧ InLimits o) (hg : ∀ o ∈ gs, o.type = .grp ∧ InLimits o)
    (hb : ∀ o ∈ bs, o.type = .band ∧ InLimits o) {bytes : List UInt8}
    (hbytes : bytes = A.flatMap record ++ 0 :: (G.flatMap record ++ 0 ::
      (B.flatMap record ++ (record stopper ++ rest))))
    (hants : List.Forall₂ Reread as (raws .ant .ant bytes)) (hgrps : List.Forall₂ Reread gs (raws .ant .grp bytes))
    (hbands : ∃ l, l <+: raws .ant .band bytes ∧ List.Forall₂ Reread bs l) : as = [] := by
  cases hA with
  | nil => rfl
  | @cons o p as A h hA =>
    exfalso
    have hp : p.length < 255 := by
      have := length_encodeAnt (ha o List.mem_cons_self).2 (ha o List.mem_cons_self).1 h
      omega
    cases hA with
    | @cons o₂ p₂ as A h₂ hA =>
      have ho₂ := ha o₂ (List.mem_cons_of_mem _ List.mem_cons_self)
      have hne : o₂.type ≠ .band := by
        rw [ho₂.1]
        decide
      obtain ⟨q, rfl⟩ := encodeObj_label hne h₂
      rw [hbytes, List.flatMap_cons, List.flatMap_cons, record_eq (_ :: _)] at hants
      simp only [List.append_assoc, List.cons_append] at hants
      rw [raws_record .ant .ant hp, if_pos rfl] at hants
      cases hants with
      | cons _ hrest =>
        rw [List.take_succ_cons] at hrest
        exact not_reread_label ho₂.1 (by decide) ho₂.2 _ hrest
    | nil =>
      rw [List.flatMap_cons, List.flatMap_nil, List.append_nil] at hbytes
      obtain ⟨tail, htail⟩ : ∃ tail, tail = G.flatMap record ++ 0 ::
        (B.flatMap record ++ (record stopper ++ rest)) := ⟨_, rfl⟩
      rw [hbytes, ← htail, raws_record .ant _ hp] at hants hgrps hbands
      rw [if_neg (by decide), List.nil_append] at hgrps hbands
      -- no other antenna is read
      have hnone : raws .ant .ant tail = [] := by
        cases hants with
        | cons _ hrest => exact List.forall₂_nil_left_iff.1 hrest
      cases hG with
      | @cons g pg gs G hg₁ hG =>
        have hne : g.type ≠ .band := by
          rw [(hg g List.mem_cons_self).1]
          decide
        obtain ⟨q, rfl⟩ := encodeObj_label hne hg₁
        rw [htail, List.flatMap_cons, record_eq, List.append_assoc, List.cons_append] at hnone hgrps
        rcases raws_first .ant (UInt8.ofNat (min ((UInt8.ofNat (cstr g.label).length :: (cstr g.label ++ q)).length + 1) 4096))
          ((UInt8.ofNat (cstr g.label).length :: (cstr g.label ++ q)).take 4095 ++
            (G.flatMap record ++ 0 :: (B.flatMap record ++ (record stopper ++ rest)))) with ⟨hz, -⟩ | hcons
        · rw [hz, raws_zero .grp rfl, List.take_succ_cons, List.cons_append] at hgrps
          exact not_reread_label (hg g List.mem_cons_self).1 (by decide) (hg g List.mem_cons_self).2 _ hgrps
        · cases hnone.symm.trans hcons
      | nil =>
        rw [htail, List.flatMap_nil, List.nil_append, raws_zero _ rfl] at hgrps hbands
        obtain ⟨l, hl, hall⟩ := hbands
        exact not_reread_bands hB (fun o ho => (hb o ho).1) (fun o ho => (hb o ho).2)
          (List.forall₂_nil_left_iff.1 hgrps) hl hall

/-- Nothing is read again if there are groups and no antennas. -/
theorem grps_nil (hG : Written ix gs G) (hB : Written ix bs B) (hg : ∀ o ∈ gs, o.type = .grp ∧ InLimits o)
    (hb : ∀ o ∈ bs, o.type = .band ∧ InLimits o) {bytes : List UInt8}
    (hbytes : bytes = G.flatMap record ++ 0 :: (B.flatMap record ++ (record stopper ++ rest)))
    (hgrps : List.Forall₂ Reread gs (raws .grp .grp bytes))
    (hbands : ∃ l, l <+: raws .grp .band bytes ∧ List.Forall₂ Reread bs l) : gs = [] := by
  cases hG with
  | nil => rfl
  | @cons g p gs G h hG =>
    exfalso
    have hlim := hg g List.mem_cons_self
    rw [hbytes, List.flatMap_cons, List.append_assoc] at hgrps hbands
    have hp : p.length < 255 := by
      have hlen := length_encodeGrp hlim.2 hlim.1 h
      exact length_of_reread (w := 5) (by omega) (fun raw hread => hread.grp_refs hlim.1) List.prefix_rfl hgrps
    cases hG with
    | @cons g₂ p₂ gs G h₂ hG =>
      have hlim₂ := hg g₂ (List.mem_cons_of_mem _ List.mem_cons_self)
      have hne : g₂.type ≠ .band := by
        rw [hlim₂.1]
        decide
      obtain ⟨q, rfl⟩ := encodeObj_label hne h₂
      rw [List.flatMap_cons, record_eq (_ :: _)] at hgrps
      simp only [List.append_assoc, List.cons_append] at hgrps
      rw [raws_record .grp .grp hp, if_pos rfl, List.take_succ_cons] at hgrps
      cases hgrps with
      | cons _ hrest =>
        exact not_reread_label hlim₂.1 (by decide) hlim₂.2 _ hrest
    | nil =>
      rw [List.flatMap_nil, List.nil_append, raws_record .grp _ hp] at hgrps hbands
      rw [if_neg (by decide), List.nil_append] at hbands
      obtain ⟨l, hl, hall⟩ := hbands
      cases hgrps with
      | cons _ hrest =>
        exact not_reread_bands hB (fun o ho => (hb o ho).1) (fun o ho => (hb o ho).2)
          (List.forall₂_nil_left_iff.1 hrest) hl hall

/-- No band is read again behind another one. -/
theorem bands_single (hB : Written ix bs B) (hb : ∀ o ∈ bs, o.type = .band ∧ InLimits o)
    (hl : l <+: raws .band .band (B.flatMap record ++ (record stopper ++ rest)))
    (hall : List.Forall₂ Reread bs l) :
    bs.length ≤ 1 := by
  cases hB with
  | nil => exact Nat.zero_le _
  | @cons o p bs B h hB =>
    cases hB with
    | nil => exact Nat.le_refl _
    | @cons o₂ p₂ bs B h₂ hB =>
      exfalso
      have hlim := hb o List.mem_cons_self
      have hlim₂ := hb o₂ (List.mem_cons_of_mem _ List.mem_cons_self)
      rw [List.flatMap_cons, List.append_assoc] at hl
      have hp : p.length < 255 :=
        length_of_reread (w := 3) (length_encodeBand hlim.2 hlim.1 h)
        (fun raw hread => hread.band_refs hlim.1) hl hall
      rw [List.flatMap_cons, record_eq p₂, List.append_assoc, List.cons_append, raws_record .band .band hp,
        if_pos rfl] at hl
      cases hall with
      | cons _ hrest =>
        obtain ⟨-, hl⟩ := List.cons_prefix_cons.1 hl
        exact not_reread_band hlim₂.1 hlim₂.2 h₂ hl hrest

end

/-! ### A single band -/

section
variable {o : Object} {b : BandRecord} {p : List UInt8}

/-- `decode_brec` behind the number of antennas. -/
def decodeBrecRefs (os : List Object) (n : UInt8) : Decode :=
  getBandRefs os n.toNat <|
    getByte (fun c => Body.band' fun b => { b with currentRx := c }) <|
    getByte (fun c => Body.band' fun b => { b with currentTx := c }) <|
    getByte (fun c => Body.band' fun b => { b with split := c &&& 1 == 1 }) decoded

theorem decodeBrec_refs (os : List Object) {s : List UInt8} (hs : s.length ≤ MAX_NAME_LEN) (low high : UInt32)
    (outputs c0 c1 c2 n : UInt8) (tail : List UInt8) (id cnt : Int) :
    decodeBrec os (⟨id, [], [], [], .zero .band,
        u32Bytes low ++ u32Bytes high ++ UInt8.ofNat s.length :: s ++ outputs :: c0 :: c1 :: c2 :: n :: tail⟩,
        cnt) =
      decodeBrecRefs os n (⟨id, s, [], [], .band ⟨low, high, outputs, le32 c0 c1 c2 0, n, 0, 0, false⟩, tail⟩,
        cnt) := by
  obtain ⟨l0, l1, l2, l3, hlow, hlow'⟩ := exists_le32 low
  obtain ⟨h0, h1, h2, h3, hhigh, hhigh'⟩ := exists_le32 high
  have hbytes : u32Bytes low ++ u32Bytes high ++ UInt8.ofNat s.length :: s ++ outputs :: c0 :: c1 :: c2 :: n :: tail =
      l0 :: l1 :: l2 :: l3 :: h0 :: h1 :: h2 :: h3 :: (UInt8.ofNat s.length :: s ++ outputs :: c0 :: c1 :: c2 ::
        n :: tail) := by
    rw [hlow, hhigh]
    rfl
  have h24 : le32 c0 c1 c2 0 = c0.toUInt32 ||| shl c1 8 ||| shl c2 16 := by simp [le32, shl]
  rw [hbytes, decodeBrec_freqs, ← hlow', ← hhigh', h24]
  unfold decodeBrecName
  rw [Decode.getStr_name hs rfl rfl]
  rfl

/-- What the references of a band are read from when none is written. -/
theorem refs_decodeBrecRefs {os : List Object} (hos : objIdByIdx os .ant 0 = -1) (n : UInt8)
    {x : UInt8} (o : Object)
    (ho : o.raw = [0, 0, 0, x]) (hrefs : o.refs = []) (cnt : Int) :
    (decodeBrecRefs os n (o, cnt)).1.1.refs.length ≤ 1 ∧
      ∀ r ∈ (decodeBrecRefs os n (o, cnt)).1.1.refs, r.destId = -1 := by
  obtain ⟨id, name, label, refs, body, raw⟩ := o
  dsimp only at ho hrefs
  subst ho hrefs
  unfold decodeBrecRefs
  match n.toNat with
  | 0 => exact ⟨Nat.zero_le _, fun r hr => by cases hr⟩
  | 1 => simp [getBandRefs, bgetc, getByte, hos]
  | j + 2 => simp [getBandRefs, bgetc, hos]

open Decode in
/-- What isn't read behind the number of antennas. -/
theorem keeps_decodeBrecRefs {α : Type} {f : Object → α} (os : List Object) (n : UInt8)
    (hraw : ∀ o raw, f { o with raw := raw } = f o) (hrefs : ∀ o rs, f { o with refs := rs } = f o)
    (hband : ∀ g : BandRecord → BandRecord, (∀ b, Body.settings (.band (g b)) = Body.settings (.band b) ∧
      (g b).numAntennas = b.numAntennas) → ∀ o, f { o with body := o.body.band' g } = f o) :
      Keeps f (decodeBrecRefs os n) :=
  keeps_getBandRefs hraw hrefs
    (keeps_getByte hraw (fun c o => hband (fun b => { b with currentRx := c }) (fun _ => ⟨rfl, rfl⟩) o) <|
      keeps_getByte hraw (fun c o => hband (fun b => { b with currentTx := c }) (fun _ => ⟨rfl, rfl⟩) o) <|
      keeps_getByte hraw (fun c o => hband (fun b => { b with split := c &&& 1 == 1 })
        (fun _ => ⟨rfl, rfl⟩) o) keeps_decoded)
    n.toNat

/-- A record takes the byte behind it. -/
theorem records_record (t : ObjType) (hp : p.length < 255) (x : UInt8) (cs : List UInt8) :
    records t (record p ++ x :: cs) = ((t, p ++ [x]) :: (records t cs).1, (records t cs).2) := by
  have hc : (UInt8.ofNat (p.length + 1)).toNat = (p ++ [x]).length := by
    rw [toNat_ofNat_lt (by omega), List.length_append, List.length_singleton]
  have hbytes : p ++ x :: cs = (p ++ [x]) ++ cs := by rw [List.append_assoc, List.singleton_append]
  rw [record_of_lt hp, List.cons_append, records, if_pos (by rw [hc]; simp), hc, hbytes, List.take_left,
    List.drop_left]

/-- What a band is compared by. -/
def Object.asBand (o : Object) : Int × List UInt8 × List UInt8 × Body × Bool :=
  (o.id, o.label, o.name, o.body.settings, isStopper o)

theorem asBand_band' {g : BandRecord → BandRecord}
    (hg : ∀ b, Body.settings (.band (g b)) = Body.settings (.band b) ∧ (g b).numAntennas = b.numAntennas)
    (o : Object) :
    Object.asBand { o with body := o.body.band' g } = o.asBand := by
  unfold Object.asBand isStopper
  cases hb : o.body with
  | ant a => rfl
  | grp g => rfl
  | band b =>
    obtain ⟨hset, hnum⟩ := hg b
    have hfreqs := congrArg Body.freqs hset
    rw [freqs_settings, freqs_settings] at hfreqs
    obtain ⟨hlow, hhigh⟩ := Prod.mk.inj hfreqs
    simp only [Body.band', hset, hnum, hlow, hhigh]

/-- A band that is written without references, and read with the byte behind it. -/
theorem decodeBrec_band {all : List Object} (hall : objIdByIdx all .ant 0 = -1) (hlim : InLimits o)
    {ix : List (Object × Nat)}
    (hix : o.refs.flatMap (encodeBandRef ix) = []) (id cnt : Int) {x : UInt8} {d : Object}
    (hd : d = (decodeBrec all (⟨id, [], [], [], .zero .band, encodeBand ix o b ++ [x]⟩, cnt)).1.1) :
    d.asBand = (id, [], cstr o.name,
        .band ⟨b.lowFreq, b.highFreq, b.outputs, le32 b.bpfSeq.toUInt8 (b.bpfSeq >>> 8).toUInt8 (b.bpfSeq >>> 16).toUInt8 0, 0, 0, 0, false⟩,
        UInt8.ofNat o.refs.length == 0 && b.lowFreq == 0 && b.highFreq == 0xffffffff) ∧
      d.refs.length ≤ 1 ∧ (∀ r ∈ d.refs, r.destId = -1) ∧ (o.refs = [] → d.refs = []) := by
  obtain ⟨n, hn⟩ : ∃ n, n = UInt8.ofNat o.refs.length := ⟨_, rfl⟩
  have hbytes : encodeBand ix o b ++ ([x] : List UInt8) = u32Bytes b.lowFreq ++ u32Bytes b.highFreq ++
      UInt8.ofNat (cstr o.name).length :: cstr o.name ++ b.outputs :: b.bpfSeq.toUInt8 ::
      (b.bpfSeq >>> 8).toUInt8 :: (b.bpfSeq >>> 16).toUInt8 :: n :: [0, 0, 0, x] := by
    unfold encodeBand encodeStr u24Bytes
    rw [hix, hn]
    simp only [List.append_assoc, List.cons_append, List.nil_append]
  rw [hbytes, decodeBrec_refs all hlim.1] at hd
  have hkeeps := keeps_decodeBrecRefs (f := Object.asBand) all n (fun _ _ => rfl) (fun _ _ => rfl)
    (fun g hg o => asBand_band' hg o)
  obtain ⟨hlen, hdest⟩ := refs_decodeBrecRefs hall n ⟨id, cstr o.name, [], [],
    .band ⟨b.lowFreq, b.highFreq, b.outputs,
    le32 b.bpfSeq.toUInt8 (b.bpfSeq >>> 8).toUInt8 (b.bpfSeq >>> 16).toUInt8 0, n, 0, 0, false⟩,
    [0, 0, 0, x]⟩ rfl rfl cnt
  rw [hd]
  refine ⟨(hkeeps _).trans (by rw [← hn]; rfl), hlen, hdest, fun hnil => ?_⟩
  have hzero : n = 0 := by rw [hn, hnil]; rfl
  rw [hzero]
  rfl

end

/-! ### Written and read again -/

section
variable {L : Layout} {memory : UInt16 → UInt8} {bp : Bandplan} {sm : Sm} {o : Object} {rest : List UInt8}

theorem encodeBandRef_single (hband : o.type = .band) {r : Ref} (hr : (objById [o] r.destId).isSome) :
    encodeBandRef (updateIndexValues [o]) r = [] := by
  have hid : (o.id == r.destId) = true := by
    unfold objById at hr
    simpa using hr
  have hfound : ixById (updateIndexValues [o]) r.destId = some (o, 0) := by
    simp [ixById, updateIndexValues, indexFrom, hid]
  unfold encodeBandRef
  rw [hfound]
  dsimp only
  rw [hband]

theorem cstr_cstr (s : List UInt8) : cstr (cstr s) = cstr s := by
  unfold cstr
  rw [List.takeWhile_takeWhile]
  simp

/-- What is decoded from a band's record alone. -/
theorem decodedObjects_single {bytes raw : List UInt8} (h : (records .ant (bytes.drop 115)).1 = [(.band, raw)]) :
    ∃ d all, objIdByIdx all .ant 0 = -1 ∧ d = (decodeBrec all (⟨1, [], [], [], .zero .band, raw⟩, 1)).1.1 ∧
      decodedObjects bytes = dropStopper [d] := by
  refine ⟨_, [⟨1, [], [], [], .zero .band, raw⟩], rfl, rfl, ?_⟩
  unfold decodedObjects recordObjects
  rw [h]
  rfl

/-- A single band is one record, with the byte behind it. -/
theorem records_band {b : BandRecord} {ix : List (Object × Nat)} (hlim : InLimits o)
    (hix : o.refs.flatMap (encodeBandRef ix) = []) :
    records .ant (0 :: 0 :: (record (encodeBand ix o b) ++ (record stopper ++ rest))) =
    ([(.band, encodeBand ix o b ++ [24])], true) := by
  have hlen : (encodeBand ix o b).length < 255 := by
    have hname : (cstr o.name).length ≤ 10 := hlim.1
    unfold encodeBand encodeStr u32Bytes u24Bytes
    rw [hix]
    simp only [List.length_append, List.length_cons, List.length_nil]
    omega
  have hstop : record stopper ++ rest = 24 :: 0 :: (stopper.drop 1 ++ rest) := rfl
  rw [records, if_neg (by decide)]
  show records .grp _ = _
  rw [records, if_neg (by decide)]
  show records .band _ = _
  rw [hstop, records_record .band hlen, records, if_neg (by decide)]
  rfl

/-- When a single band comes back. -/
theorem same_band {b : BandRecord} (hb : o.body = .band b) (hlim : InLimits o)
    (hrefs : ∀ r ∈ o.refs, (objById [o] r.destId).isSome) {bytes : List UInt8}
    (hbytes : bytes.drop 115 = 0 :: 0 :: (record (encodeBand (updateIndexValues [o]) o b) ++
      (record stopper ++ rest))) :
    SameObjects [o] (decodedObjects bytes) ↔ Survives memory [o] := by
  have hband : o.type = .band := by rw [Object.type, hb]; rfl
  have hix : o.refs.flatMap (encodeBandRef (updateIndexValues [o])) = [] :=
    List.flatMap_eq_nil_iff.2 fun r hr => encodeBandRef_single hband (hrefs r hr)
  obtain ⟨d, all, hnone, hd, hdecoded⟩ := decodedObjects_single (congrArg Prod.fst (hbytes ▸ records_band hlim hix))
  obtain ⟨hkey, hlen, hdest, hnil⟩ := decodeBrec_band hnone hlim hix 1 1 hd
  obtain ⟨hid, hlabel, hname, hset, hstop⟩ : d.id = 1 ∧ d.label = [] ∧ d.name = cstr o.name ∧
    d.body.settings = _ ∧ isStopper d = _ := by
    simpa only [Object.asBand, Prod.mk.injEq] using hkey
  have hdrop : dropStopper [d] = if isStopper d then [] else [d] := rfl
  have hsettings : d.body.settings = o.body.settings ↔ b.bpfSeq.toNat < 2 ^ 24 := by
    rw [hset, hb, ← le32_u24Bytes]
    simp [Body.settings]
  -- the reference that may be read names nothing
  have hplace : ∀ r ∈ o.refs, ∀ r' ∈ d.refs, r'.place [d] ≠ r.place [o] := by
    intro r hr r' hr'
    have hfound := hrefs r hr
    unfold objById at hfound
    simp only [List.find?_singleton] at hfound
    unfold Ref.place
    rw [hdest r' hr', List.findIdx_singleton, List.findIdx_singleton, hid]
    split_ifs at hfound ⊢ <;> simp_all
  rw [hdecoded, hdrop]
  constructor
  · intro h
    cases hs : isStopper d with
    | true =>
      rw [hs] at h
      cases h
    | false =>
      rw [hs] at h
      cases h with
      | cons hsame _ =>
        have hno : o.refs = [] := by
          have hall := hsame.refs
          cases ho : o.refs with
          | nil => rfl
          | cons r rs =>
            rw [ho] at hall
            cases hdr : d.refs with
            | nil =>
              rw [hdr] at hall
              cases hall
            | cons r' rs' =>
              rw [hdr] at hall
              cases hall with
              | cons hr _ =>
                exact absurd hr.place (hplace r (ho ▸ List.mem_cons_self) r' (hdr ▸ List.mem_cons_self))
        refine ⟨b, hb, hno, ?_, hsettings.1 hsame.settings, ?_⟩
        · rw [← hsame.label, hlabel]
          rfl
        · rintro ⟨hlow, hhigh⟩
          rw [hno, hlow, hhigh, hs] at hstop
          cases hstop
  · rintro ⟨b', hb', hno, holabel, hseq, hfreqs⟩
    obtain rfl : b = b' := Body.band.inj (hb.symm.trans hb')
    have hs : isStopper d = false := by
      rw [hstop, Bool.eq_false_iff]
      intro htrue
      simp only [Bool.and_eq_true, beq_iff_eq] at htrue
      exact hfreqs ⟨htrue.1.2, htrue.2⟩
    rw [hs]
    refine .cons ⟨?_, ?_, hsettings.2 hseq, ?_⟩ .nil
    · rw [hlabel, holabel]
      rfl
    · rw [hname, cstr_cstr]
    · rw [hno, hnil hno]
      exact .nil

/-- What the stopper is written like. -/
def stopObject : Object := ⟨0, [0x24, 0x53, 0x54, 0x4f, 0x50, 0x24], [], [], .zero .band, []⟩

theorem stopObject_inLimits : InLimits stopObject := ⟨by decide, by decide⟩

theorem stopper_eq : stopper = encodeBand [] stopObject ⟨0, 0xffffffff, 0, 0, 0, 0, 0, false⟩ := by decide

/-- Without objects the stopper takes a byte from behind the encoded bytes, and the next one is a length. -/
theorem same_nil {bytes : List UInt8} {x y : UInt8} (hbytes : bytes.drop 115 = 0 :: 0 ::
    (record stopper ++ x :: y :: rest)) :
    (records .ant (bytes.drop 115)).2 = true ∧ SameObjects [] (decodedObjects bytes) ↔ y = 0 := by
  have hrecords : records .ant (bytes.drop 115) =
      ((.band, stopper ++ [x]) :: (records .band (y :: rest)).1, (records .band (y :: rest)).2) := by
    rw [hbytes, records, if_neg (by decide)]
    show records .grp _ = _
    rw [records, if_neg (by decide)]
    exact records_record .band (by decide) x (y :: rest)
  rw [hrecords]
  constructor
  · rintro ⟨-, hsame⟩
    have hnil : decodedObjects bytes = [] := List.forall₂_nil_left_iff.1 hsame
    by_contra hy
    have hpos : 0 < y.toNat := Nat.pos_of_ne_zero fun hz => hy (UInt8.toNat_inj.1 hz)
    -- there are two records
    have hlen := length_decodedObjects bytes
    rw [hnil, hrecords, records, if_pos hpos] at hlen
    simp at hlen
  · rintro rfl
    have hend : records .band (0 :: rest) = ([], true) := by
      rw [records, if_neg (by decide)]
      rfl
    rw [hend] at hrecords
    obtain ⟨d, all, hnone, hd, hdecoded⟩ := decodedObjects_single (congrArg Prod.fst hrecords)
    have hstop : isStopper d = true := by
      rw [stopper_eq] at hd
      have hkey := congrArg (fun k => k.2.2.2.2) (decodeBrec_band hnone stopObject_inLimits rfl 1 1 hd).1
      exact hkey.trans (by decide)
    have hnil : decodedObjects bytes = [] := by
      rw [hdecoded]
      unfold dropStopper
      rw [List.getLast?_singleton]
      dsimp only
      rw [hstop]
      rfl
    rw [hend, hnil]
    exact ⟨rfl, .nil⟩

/-- The records behind the fixed data. -/
theorem HoldsPlan.records (h : HoldsPlan memory bp) (hfixed : bp.fixedData.length = 115) :
    ∃ A G B rest, Written (updateIndexValues bp.objList) (bp.objList.filter fun o => o.type == .ant) A ∧
      Written (updateIndexValues bp.objList) (bp.objList.filter fun o => o.type == .grp) G ∧
      Written (updateIndexValues bp.objList) (bp.objList.filter fun o => o.type == .band) B ∧
      (image memory).drop 115 =
        A.flatMap record ++ 0 :: (G.flatMap record ++ 0 :: (B.flatMap record ++ (record stopper ++ rest))) := by
  obtain ⟨bytes, hbytes, rest, hrest⟩ := h
  unfold encodeBp at hbytes
  obtain ⟨ants, hants, hbytes⟩ := Option.bind_eq_some_iff.1 hbytes
  obtain ⟨grps, hgrps, hbytes⟩ := Option.bind_eq_some_iff.1 hbytes
  obtain ⟨bands, hbands, rfl⟩ := Option.map_eq_some_iff.1 hbytes
  obtain ⟨A, hA, rfl⟩ := encodeType_some hants
  obtain ⟨G, hG, rfl⟩ := encodeType_some hgrps
  obtain ⟨B, hB, rfl⟩ := encodeType_some hbands
  refine ⟨A, G, B, rest, hA, hG, hB, ?_⟩
  rw [← hrest]
  simp only [List.append_assoc, List.cons_append]
  exact List.drop_left' hfixed

/-- Of what comes back there is nothing or one band. -/
theorem few_of_same (h : HoldsPlan memory bp) (hfixed : bp.fixedData.length = 115)
    (hlim : ∀ o ∈ bp.objList, InLimits o)
    (hsame : SameObjects bp.objList (decodedObjects (image memory))) :
    bp.objList = [] ∨ ∃ o, bp.objList = [o] ∧ o.type = .band := by
  obtain ⟨A, G, B, rest, hA, hG, hB, hbytes⟩ := h.records hfixed
  have hmem : ∀ t, ∀ o ∈ bp.objList.filter fun o => o.type == t, o.type = t ∧ InLimits o := by
    intro t o ho
    obtain ⟨ho, ht⟩ := List.mem_filter.1 ho
    exact ⟨beq_iff_eq.1 ht, hlim o ho⟩
  obtain ⟨la, -, hla, hants⟩ := rereads hsame .ant
  obtain ⟨lg, -, hlg, hgrps⟩ := rereads hsame .grp
  obtain ⟨lb, hlb, -, hbands⟩ := rereads hsame .band
  rw [hla (by decide)] at hants
  rw [hlg (by decide)] at hgrps
  have hnoants : bp.objList.filter (fun o => o.type == .ant) = [] :=
    ants_nil hA hG hB (hmem .ant) (hmem .grp) (hmem .band) hbytes hants hgrps ⟨lb, hlb, hbands⟩
  rw [hnoants] at hA
  cases hA
  rw [List.flatMap_nil, List.nil_append] at hbytes
  rw [hbytes, raws_zero _ rfl] at hgrps hlb
  have hnogrps : bp.objList.filter (fun o => o.type == .grp) = [] :=
    grps_nil hG hB (hmem .grp) (hmem .band) rfl hgrps ⟨lb, hlb, hbands⟩
  rw [hnogrps] at hG
  cases hG
  rw [List.flatMap_nil, List.nil_append, raws_zero _ rfl] at hlb
  have hfew := bands_single hB (hmem .band) hlb hbands
  have hall : bp.objList.filter (fun o => o.type == .band) = bp.objList := by
    refine List.filter_eq_self.2 fun o ho => ?_
    rw [List.filter_eq_nil_iff] at hnoants hnogrps
    have hant := hnoants o ho
    have hgrp := hnogrps o ho
    cases ht : o.type with
    | ant => exact absurd (beq_iff_eq.2 ht) hant
    | grp => exact absurd (beq_iff_eq.2 ht) hgrp
    | band => rfl
  rw [hall] at hfew
  cases hos : bp.objList with
  | nil => exact .inl rfl
  | cons o os =>
    rw [hos, List.length_cons] at hfew
    obtain rfl : os = [] := List.eq_nil_of_length_eq_zero (by omega)
    refine .inr ⟨o, rfl, (hmem .band o ?_).1⟩
    rw [hall, hos]
    exact List.mem_cons_self

/-- The configuration that is written comes back if and only if there are no objects, and a zero where a length is read, or
one band that fits the bytes of its record. -/
theorem config_round_trip_iff (L : Layout) (memory : UInt16 → UInt8) (sm : Sm) (bp : Bandplan)
    (hfixed : bp.fixedData.length = 115)
    (hlim : ∀ o ∈ bp.objList, InLimits o) (hrefs : ∀ o ∈ bp.objList, ∀ r ∈ o.refs,
      (objById bp.objList r.destId).isSome)
    (h : HoldsPlan memory bp) (hidle : sm.busy = false) :
    RoundTrips L memory sm bp.objList ↔ Survives memory bp.objList := by
  rw [roundTrips_iff hidle]
  obtain ⟨A, G, B, rest, hA, hG, hB, hbytes⟩ := h.records hfixed
  by_cases hfew : bp.objList = [] ∨ ∃ o, bp.objList = [o] ∧ o.type = .band
  · rcases hfew with hnil | ⟨o, ho, hband⟩
    · rw [hnil] at hA hG hB ⊢
      cases hA
      cases hG
      cases hB
      have hget : ((image memory).drop 115)[27]? = some (memory 142) := by
        rw [List.getElem?_drop, image, List.getElem?_map, List.getElem?_range (by omega)]
        rfl
      rw [hbytes] at hget
      rcases rest with _ | ⟨x, _ | ⟨y, rest⟩⟩
      · cases hget
      · cases hget
      · rw [same_nil hbytes, Option.some.inj hget]
        rfl
    · rw [ho] at hlim hrefs hA hG hB ⊢
      obtain ⟨b, hb⟩ : ∃ b, o.body = .band b := by
        unfold Object.type at hband
        cases hb : o.body with
        | band b => exact ⟨b, rfl⟩
        | ant a =>
          rw [hb] at hband
          cases hband
        | grp g =>
          rw [hb] at hband
          cases hband
      have hfilter : ∀ t, [o].filter (fun o => o.type == t) = if t = .band then [o] else [] := by
        intro t
        cases t <;> simp [hband]
      rw [hfilter] at hA hG hB
      cases hA
      cases hG
      cases hB with
      | cons hp hnil =>
        cases hnil
        obtain ⟨b', hb', rfl⟩ := encodeBand_eq hband hp
        obtain rfl : b = b' := Body.band.inj (hb.symm.trans hb')
        have hlimo := hlim o List.mem_cons_self
        have hrefso := hrefs o List.mem_cons_self
        have hix : o.refs.flatMap (encodeBandRef (updateIndexValues [o])) = [] :=
          List.flatMap_eq_nil_iff.2 fun r hr => encodeBandRef_single hband (hrefso r hr)
        have hbytes' : (image memory).drop 115 =
            0 :: 0 :: (record (encodeBand (updateIndexValues [o]) o b) ++ (record stopper ++ rest)) := by
          rw [hbytes]
          simp
        rw [hbytes', records_band hlimo hix]
        exact ⟨fun hs => (same_band hb hlimo hrefso hbytes').1 hs.2, fun hs =>
          ⟨rfl, (same_band hb hlimo hrefso hbytes').2 hs⟩⟩
  · refine ⟨fun hs => absurd (few_of_same h hfixed hlim hs.2) hfew, fun hs => absurd ?_ hfew⟩
    rcases hos : bp.objList with _ | ⟨o, os⟩
    · exact .inl rfl
    · rw [hos] at hs
      rcases os with _ | ⟨o', os⟩
      · obtain ⟨b, hb, -⟩ := hs
        exact .inr ⟨o, rfl, by rw [Object.type, hb]; rfl⟩
      · exact hs.elim

/-- A memory that begins with the encoded band plan, with zeros behind it. -/
def Bandplan.written (bp : Bandplan) (i : UInt16) : UInt8 := ((encodeBp bp).getD []).getD i.toNat 0

theorem holdsPlan_written {bytes : List UInt8} (h : encodeBp bp = some bytes) (hlen : bytes.length ≤ 65536) :
    HoldsPlan bp.written bp := by
  refine ⟨bytes, h, List.prefix_iff_eq_take.2 (List.ext_getElem ?_ fun i hi _ => ?_)⟩
  · rw [List.length_take, image, List.length_map, List.length_range]
    omega
  · have hidx : i % 65536 = i := Nat.mod_eq_of_lt (by omega)
    simp [image, Bandplan.written, h, hidx, hi]

instance (o : Object) : Decidable (InLimits o) := inferInstanceAs (Decidable (_ ∧ _))

/-- A request for a band. -/
def bandRequest (low high : Int) : Json := .obj [("type", .int 2), ("low_freq", .int low), ("high_freq", .int high)]

/-- One band, as it's requested. -/
def oneBand : Bandplan := (Bandplan.create.call .apart (.add (bandRequest 1800 2000))).1

/-- And another one. -/
def twoBands : Bandplan := (oneBand.call .apart (.add (bandRequest 3500 4000))).1

theorem config_round_trip_oneBand : RoundTrips .apart oneBand.written .create oneBand.objList :=
  (config_round_trip_iff .apart oneBand.written .create oneBand (by decide) (by decide)
    (by decide)
    (holdsPlan_written (Option.eq_some_of_isSome (by decide +kernel)) (by decide +kernel)) rfl).2
    ⟨⟨1800, 2000, 0, 0, 0, 0, 0, false⟩, by decide, by decide, by decide,
      by decide, by decide⟩

/-- Two bands don't come back. -/
theorem config_lost_twoBands : (∀ o ∈ twoBands.objList, InLimits o) ∧
    (∀ o ∈ twoBands.objList, ∀ r ∈ o.refs, (objById twoBands.objList r.destId).isSome) ∧
    HoldsPlan twoBands.written twoBands ∧
    ¬ RoundTrips .apart twoBands.written .create twoBands.objList := by
  have hlim : ∀ o ∈ twoBands.objList, InLimits o := by decide
  have hholds : HoldsPlan twoBands.written twoBands :=
    holdsPlan_written (Option.eq_some_of_isSome (by decide +kernel)) (by decide +kernel)
  refine ⟨hlim, by decide, hholds, fun h => ?_⟩
  have hlen : twoBands.objList.length = 2 := by decide
  rcases few_of_same hholds (by decide) hlim ((roundTrips_iff rfl _).1 h).2 with hnil | ⟨o, ho, -⟩
  · rw [hnil] at hlen
    cases hlen
  · rw [ho] at hlen
    cases hlen

end

end Mhuxd
