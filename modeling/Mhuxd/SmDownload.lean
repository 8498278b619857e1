import Mhuxd.SmCodec
import Mhuxd.Lib.Run

/-!
# The download of the Station Master's band plan (`sm_get_antsw`)

The EEPROM is read in blocks of 32 bytes. A state machine over the bytes makes an object of each record
and stores the record's bytes in the last object of the list; when it's done the objects are decoded.
-/

namespace Mhuxd

/-- `STATE_GET_ANTSW_...`: the length bytes and the records are those of a type. -/
inductive GetState
  | empty | fixed | length (t : ObjType) | record (t : ObjType) | done
deriving DecidableEq

/-- The kind of records behind those of a type. -/
def ObjType.next : ObjType → Option ObjType
  | ant => some grp
  | grp => some band
  | band => none

/-- What a byte of the download works on. -/
structure Getting where
  bp : Bandplan
  state : GetState
  toRead : UInt8
deriving DecidableEq

/-- `struct sm`, with the offset of the block that is asked for and not answered yet. -/
structure Sm where
  bp : Option Bandplan
  state : GetState
  offset : UInt16
  toRead : UInt8
  request : Option UInt16
deriving DecidableEq

/-- A byte for the record of type `t` that is the last object. -/
def appendLast (L : Layout) (t : ObjType) (c : UInt8) (os : List Object) : Option (List Object) :=
  os.getLast?.map fun o => os.dropLast ++
    [if o.type ≠ t then { o with body := L.poke t c o.body }
      else if o.raw.length < BUFFER_CAPACITY then { o with raw := o.raw ++ [c] } else o]

namespace Getting

/-- A byte, at `pos` of the memory; `none` is a missing object that is dereferenced. -/
def byte (L : Layout) (pos : Nat) (g : Getting) (c : UInt8) : Option Getting :=
  match g.state with
  | .empty | .done => some g
  | .fixed =>
    some ⟨{ g.bp with fixedData := g.bp.fixedData.set pos c },
      if g.toRead - 1 = 0 then .length .ant else .fixed, g.toRead - 1⟩
  | .length t =>
    if 0 < c.toNat then
      let (o, cnt) := objCreate t 0 g.bp.idCnt
      some ⟨{ g.bp with objList := g.bp.objList ++ [o], idCnt := cnt }, .record t, c⟩
    else some { g with state := t.next.elim .done .length }
  | .record t =>
    (appendLast L t c g.bp.objList).map fun os =>
      ⟨{ g.bp with objList := os }, if g.toRead - 1 = 0 then .length t else .record t, g.toRead - 1⟩

/-- The bytes from `pos` on. -/
def bytes (L : Layout) : Nat → List UInt8 → Getting → Option Getting
  | _, [], g => some g
  | pos, c :: cs, g => (g.byte L pos c).bind (bytes L (pos + 1) cs)

end Getting

/-- What the keyer answers, or that it doesn't. -/
inductive SmReply
  | failed | data (buf : List UInt8)

namespace Sm

/-- `sm_create`. -/
def create : Sm := ⟨none, .empty, 0, 0, none⟩

/-- A download is going on. -/
def busy (sm : Sm) : Bool := sm.state != .empty && sm.state != .done

/-- `get_antsw_completion_cb`. -/
def completion (L : Layout) (sm : Sm) (reply : SmReply) : Option Sm :=
  match reply with
  | .failed => some { sm with state := .empty }
  | .data buf =>
    if buf.length ≠ 34 then some { sm with state := .empty }
    else
      match sm.bp with
      | none => some sm
      | some bp =>
        (Getting.bytes L sm.offset.toNat ((buf.drop 1).take 32) ⟨bp, sm.state, sm.toRead⟩).map fun g =>
          if g.state ≠ .done then
            { bp := some g.bp, state := g.state, offset := sm.offset + 32, toRead := g.toRead,
              request := some (sm.offset + 32) }
          else { sm with bp := some g.bp.decode, state := .done, toRead := g.toRead }

/-- `sm_get_antsw` up to its loop; false is an error. -/
def getAntsw (sm : Sm) : Sm × Bool :=
  if sm.busy then (sm, false) else (⟨some .create, .fixed, 0, 115, some 0⟩, true)

/-- The reply to the block that was asked for; there are no others. -/
def reply (L : Layout) (sm : Sm) (r : SmReply) : Option Sm :=
  match sm.request with
  | none => some sm
  | some _ => { sm with request := none }.completion L r

end Sm

/-! ### Records -/

/-- The records in the memory from a length byte of type `t` on, the last one as far as it goes, and
whether they come to their end. -/
def records (t : ObjType) : List UInt8 → List (ObjType × List UInt8) × Bool
  | [] => ([], false)
  | c :: cs =>
    if 0 < c.toNat then
      let (rs, fin) := records t (cs.drop c.toNat)
      ((t, cs.take c.toNat) :: rs, fin)
    else
      match t.next with
      | none => ([], true)
      | some t => records t cs
termination_by cs => cs.length

/-- The objects of records, made with a counter at `cnt`, and the counter after them. -/
def objectsOf (cnt : Int) : List (ObjType × List UInt8) → List Object × Int
  | [] => ([], cnt)
  | (t, raw) :: rs =>
    let (o, cnt) := objCreate t 0 cnt
    let (os, cnt) := objectsOf cnt rs
    ({ o with raw := raw } :: os, cnt)

namespace Getting

variable {L : Layout} {g g' : Getting} {pos : Nat} {t : ObjType} {bs : List UInt8} {os : List Object} {o : Object} {c : UInt8}

theorem bytes_append (as bs : List UInt8) (pos : Nat) (g : Getting) :
    g.bytes L pos (as ++ bs) = (g.bytes L pos as).bind (bytes L (pos + as.length) bs) := by
  induction as generalizing pos g with
  | nil => rfl
  | cons a as ih =>
    rw [List.cons_append, bytes, bytes]
    cases g.byte L pos a with
    | none => rfl
    | some g' =>
      rw [Option.bind_some, Option.bind_some, ih, List.length_cons, Nat.add_right_comm, Nat.add_assoc]

/-- Behind the fixed data the position doesn't count. -/
theorem bytes_pos (h : g.state ≠ .fixed) (bs : List UInt8) (pos pos' : Nat) :
    g.bytes L pos bs = g.bytes L pos' bs := by
  induction bs generalizing pos pos' g with
  | nil => rfl
  | cons b bs ih =>
    have hbyte : g.byte L pos b = g.byte L pos' b := by
      unfold byte
      cases hs : g.state with
      | fixed => exact absurd hs h
      | _ => rfl
    have hstay : ∀ g', g.byte L pos' b = some g' → g'.state ≠ .fixed := by
      intro g' hg'
      unfold byte at hg'
      cases hs : g.state with
      | fixed => exact absurd hs h
      | empty =>
        rw [hs] at hg'
        obtain rfl := Option.some.inj hg'
        rw [hs]
        exact nofun
      | done =>
        rw [hs] at hg'
        obtain rfl := Option.some.inj hg'
        rw [hs]
        exact nofun
      | length t =>
        rw [hs] at hg'
        dsimp only at hg'
        split_ifs at hg'
        · obtain rfl := Option.some.inj hg'
          exact nofun
        · obtain rfl := Option.some.inj hg'
          cases t <;> exact nofun
      | record t =>
        rw [hs] at hg'
        obtain ⟨os, -, rfl⟩ := Option.map_eq_some_iff.1 hg'
        dsimp only
        split_ifs <;> exact nofun
    rw [bytes, bytes, hbyte]
    cases hg : g.byte L pos' b with
    | none => rfl
    | some g' => exact ih (hstay g' hg) _ _

theorem bytes_done (h : g.state = .done) (bs : List UInt8) (pos : Nat) : g.bytes L pos bs = some g := by
  induction bs generalizing pos with
  | nil => rfl
  | cons b bs ih =>
    have hbyte : g.byte L pos b = some g := by
      unfold byte
      rw [h]
    rw [bytes, hbyte]
    exact ih _

theorem toNat_sub_one {n : UInt8} (hn : 0 < n.toNat) : (n - 1).toNat = n.toNat - 1 :=
  UInt8.toNat_sub_of_le n 1 (UInt8.le_iff_toNat_le.2 hn)

theorem sub_one_eq_zero {n : UInt8} (hn : 0 < n.toNat) : n - 1 = 0 ↔ n.toNat = 1 := by
  rw [← UInt8.toNat_inj, toNat_sub_one hn]
  show n.toNat - 1 = 0 ↔ _
  omega

theorem sub_ofNat_succ (n : UInt8) (k : Nat) : n - UInt8.ofNat (k + 1) = n - 1 - UInt8.ofNat k := by
  rw [UInt8.ofNat_add, UInt8.add_comm]
  grind

theorem byte_record {n : UInt8} (ht : o.type = t) (hraw : o.raw.length < BUFFER_CAPACITY) (bp : Bandplan)
    (os : List Object) :
    byte L pos ⟨{ bp with objList := os ++ [o] }, .record t, n⟩ c =
      some ⟨{ bp with objList := os ++ [{ o with raw := o.raw ++ [c] }] },
        if n - 1 = 0 then .length t else .record t, n - 1⟩ := by
  have hlast : appendLast L t c (os ++ [o]) = some (os ++ [{ o with raw := o.raw ++ [c] }]) := by
    unfold appendLast
    rw [List.getLast?_concat, Option.map_some, List.dropLast_concat, if_neg (fun h => h ht), if_pos hraw]
  unfold byte
  dsimp only
  rw [hlast]
  rfl

/-- Other fixed data. -/
def withFixed (f : List UInt8) (g : Getting) : Getting := { g with bp := { g.bp with fixedData := f } }

/-- The fixed data doesn't count. -/
theorem bytes_withFixed {f : List UInt8} (h : g.bytes L pos bs = some g') :
    ∃ f', (g.withFixed f).bytes L pos bs = some (g'.withFixed f') := by
  induction bs generalizing pos g f with
  | nil => exact ⟨f, congrArg (fun g => some (withFixed f g)) (Option.some.inj h)⟩
  | cons b bs ih =>
    rw [bytes] at h ⊢
    obtain ⟨g₁, hg₁, h⟩ := Option.bind_eq_some_iff.1 h
    have hbyte : ∃ f', (g.withFixed f).byte L pos b = some (g₁.withFixed f') := by
      unfold byte at hg₁ ⊢
      cases hs : g.state with
      | empty | done =>
        rw [hs] at hg₁
        obtain rfl := Option.some.inj hg₁
        rw [show (g.withFixed f).state = _ from hs]
        exact ⟨f, rfl⟩
      | fixed =>
        rw [hs] at hg₁
        obtain rfl := Option.some.inj hg₁
        rw [show (g.withFixed f).state = _ from hs]
        exact ⟨f.set pos b, rfl⟩
      | length t =>
        rw [hs] at hg₁
        rw [show (g.withFixed f).state = _ from hs]
        dsimp only at hg₁ ⊢
        split_ifs at hg₁ ⊢
        · obtain rfl := Option.some.inj hg₁
          exact ⟨f, rfl⟩
        · obtain rfl := Option.some.inj hg₁
          exact ⟨f, rfl⟩
      | record t =>
        rw [hs] at hg₁
        rw [show (g.withFixed f).state = _ from hs]
        obtain ⟨os, hos, rfl⟩ := Option.map_eq_some_iff.1 hg₁
        exact ⟨f, Option.map_eq_some_iff.2 ⟨os, hos, rfl⟩⟩
    obtain ⟨f₁, hf₁⟩ := hbyte
    rw [hf₁]
    exact ih h

/-- The bytes of a record, in its object. -/
theorem bytes_record {n : UInt8} (hn : 0 < n.toNat) (hlen : bs.length ≤ n.toNat) (ht : o.type = t)
    (hraw : o.raw.length + bs.length ≤ BUFFER_CAPACITY) (bp : Bandplan) (os : List Object) (pos : Nat) :
    bytes L pos bs ⟨{ bp with objList := os ++ [o] }, .record t, n⟩ =
      some ⟨{ bp with objList := os ++ [{ o with raw := o.raw ++ bs }] },
        if bs.length = n.toNat then .length t else .record t, n - UInt8.ofNat bs.length⟩ := by
  induction bs generalizing o n pos with
  | nil =>
    have hne : ¬0 = n.toNat := by omega
    rw [bytes, List.length_nil, if_neg hne, List.append_nil]
    exact congrArg (fun k => some _) (UInt8.sub_zero n).symm
  | cons b bs ih =>
    rw [List.length_cons] at hlen hraw
    have hsub := toNat_sub_one hn
    have hzero := sub_one_eq_zero hn
    have hnext := sub_ofNat_succ n bs.length
    rw [bytes, byte_record ht (by omega), Option.bind_some, List.length_cons]
    by_cases h1 : n.toNat = 1
    · have hbs : bs = [] := List.length_eq_zero_iff.1 (by omega)
      subst hbs
      rw [bytes, if_pos (hzero.2 h1), hnext, if_pos (show ([] : List UInt8).length + 1 = n.toNat from h1.symm)]
      exact congrArg (fun k => some (Getting.mk _ _ k)) (UInt8.sub_zero _).symm
    · have hlens : bs.length = (n - 1).toNat ↔ bs.length + 1 = n.toNat := by omega
      have hroom : (o.raw ++ [b]).length + bs.length ≤ BUFFER_CAPACITY := by
        rw [List.length_append, List.length_singleton]
        omega
      rw [if_neg (mt hzero.1 h1), hnext]
      refine (ih (o := { o with raw := o.raw ++ [b] }) (by omega) (by omega) ht hroom (pos + 1)).trans ?_
      simp only [hlens, List.append_assoc, List.singleton_append]

/-- The records, in an object each. -/
theorem bytes_records (bp : Bandplan) (n : UInt8) (t : ObjType) (bs : List UInt8) (pos : Nat) :
    ∃ g, bytes L pos bs ⟨bp, .length t, n⟩ = some g ∧
      g.bp.objList = bp.objList ++ (objectsOf bp.idCnt (records t bs).1).1 ∧
      g.bp.idCnt = (objectsOf bp.idCnt (records t bs).1).2 ∧
      (g.state = .done ↔ (records t bs).2 = true) ∧ g.state ≠ .empty ∧ g.state ≠ .fixed := by
  induction t, bs using records.induct generalizing bp n pos with
  | case1 t =>
    refine ⟨_, rfl, ?_, ?_, ?_, nofun, nofun⟩
    · rw [records]
      exact (List.append_nil _).symm
    · rw [records]
      rfl
    · rw [records]
      exact ⟨nofun, nofun⟩
  | case2 t c cs hc rs fin hrs ih =>
    have hbyte : byte L pos ⟨bp, .length t, n⟩ c =
        some ⟨{ bp with objList := bp.objList ++ [(objCreate t 0 bp.idCnt).1], idCnt := (objCreate t 0 bp.idCnt).2 }, .record t, c⟩ :=
      if_pos hc
    have htake : (cs.take c.toNat).length ≤ c.toNat := by
      rw [List.length_take]
      exact Nat.min_le_left _ _
    have hcap : c.toNat ≤ BUFFER_CAPACITY := Nat.le_of_lt (Nat.lt_of_lt_of_le c.toNat_lt (by decide))
    have hrec := bytes_record (L := L) (o := (objCreate t 0 bp.idCnt).1) hc htake (Body.type_zero t)
      (by rw [show (objCreate t 0 bp.idCnt).1.raw = [] from rfl, List.length_nil]; omega)
      { bp with idCnt := (objCreate t 0 bp.idCnt).2 } bp.objList (pos + 1)
    rw [show (objCreate t 0 bp.idCnt).1.raw = [] from rfl, List.nil_append] at hrec
    have hcs : bytes L pos (c :: cs) ⟨bp, .length t, n⟩ =
        (bytes L (pos + 1) (cs.take c.toNat) ⟨{ bp with
          objList := bp.objList ++ [(objCreate t 0 bp.idCnt).1]
          idCnt := (objCreate t 0 bp.idCnt).2 }, .record t, c⟩).bind
          (bytes L (pos + 1 + (cs.take c.toNat).length) (cs.drop c.toNat)) := by
      rw [bytes, hbyte, Option.bind_some, ← bytes_append, List.take_append_drop]
    rw [hcs, hrec, Option.bind_some, records, if_pos hc]
    by_cases hlen : (cs.take c.toNat).length = c.toNat
    · obtain ⟨g, hg, hobjs, hcnt, hdone, hne⟩ := ih { bp with
        objList := bp.objList ++ [{ (objCreate t 0 bp.idCnt).1 with raw := cs.take c.toNat }]
        idCnt := (objCreate t 0 bp.idCnt).2 } (c - UInt8.ofNat (cs.take c.toNat).length)
        (pos + 1 + (cs.take c.toNat).length)
      rw [if_pos hlen]
      refine ⟨g, hg, ?_, hcnt, hdone, hne⟩
      rw [hobjs, List.append_assoc]
      rfl
    · have hdrop : cs.drop c.toNat = [] := by
        rw [List.length_take] at hlen
        exact List.drop_eq_nil_of_le (by omega)
      rw [if_neg hlen, hdrop, records]
      exact ⟨_, rfl, rfl, rfl, ⟨nofun, nofun⟩, nofun, nofun⟩
  | case3 t c cs hc hnext =>
    have hbyte : byte L pos ⟨bp, .length t, n⟩ c = some ⟨bp, .done, n⟩ := by
      refine (if_neg hc).trans ?_
      rw [hnext]
      rfl
    rw [bytes, hbyte, Option.bind_some, bytes_done rfl, records, if_neg hc, hnext]
    exact ⟨_, rfl, (List.append_nil _).symm, rfl, ⟨fun _ => rfl, fun _ => rfl⟩, nofun, nofun⟩
  | case4 t c cs hc t' hnext ih =>
    have hbyte : byte L pos ⟨bp, .length t, n⟩ c = some ⟨bp, .length t', n⟩ := by
      refine (if_neg hc).trans ?_
      rw [hnext]
      rfl
    rw [bytes, hbyte, Option.bind_some, records, if_neg hc, hnext]
    exact ih bp n (pos + 1)

/-- The fixed data. -/
theorem bytes_fixed (bs : List UInt8) {bp : Bandplan} {n : UInt8} (hn : 0 < n.toNat) (hlen : bs.length ≤ n.toNat) :
    ∃ fixed, bytes L pos bs ⟨bp, .fixed, n⟩ =
      some ⟨{ bp with fixedData := fixed }, if bs.length = n.toNat then .length .ant else .fixed,
        n - UInt8.ofNat bs.length⟩ := by
  induction bs generalizing bp n pos with
  | nil =>
    have hne : ¬0 = n.toNat := by omega
    rw [bytes, List.length_nil, if_neg hne]
    exact ⟨_, congrArg (fun k => some (Getting.mk _ _ k)) (UInt8.sub_zero n).symm⟩
  | cons b bs ih =>
    rw [List.length_cons] at hlen
    have hsub := toNat_sub_one hn
    have hzero := sub_one_eq_zero hn
    have hnext := sub_ofNat_succ n bs.length
    have hbyte : byte L pos ⟨bp, .fixed, n⟩ b =
      some ⟨{ bp with fixedData := bp.fixedData.set pos b }, if n - 1 = 0 then .length .ant else .fixed,
        n - 1⟩ := rfl
    rw [bytes, hbyte, Option.bind_some, List.length_cons, hnext]
    by_cases h1 : n.toNat = 1
    · have hbs : bs = [] := List.length_eq_zero_iff.1 (by omega)
      subst hbs
      rw [bytes, if_pos (hzero.2 h1), if_pos (show ([] : List UInt8).length + 1 = n.toNat from h1.symm)]
      exact ⟨_, congrArg (fun k => some (Getting.mk _ _ k)) (UInt8.sub_zero _).symm⟩
    · have hlens : bs.length = (n - 1).toNat ↔ bs.length + 1 = n.toNat := by omega
      obtain ⟨fixed, hfixed⟩ := ih (n := n - 1)
        (by omega) (by omega)
      rw [if_neg (mt hzero.1 h1), hfixed]
      simp only [hlens]
      exact ⟨fixed, rfl⟩

/-- The start of a download. -/
def start : Getting := ⟨.create, .fixed, 115⟩

/-- What there is after the bytes of a download: the records' objects; it's done after the last record. -/
theorem bytes_start (bs : List UInt8) :
    ∃ g, bytes L 0 bs start = some g ∧
      (g.bp.objList, g.bp.idCnt) = objectsOf 0 (records .ant (bs.drop 115)).1 ∧
      (g.state = .done ↔ (records .ant (bs.drop 115)).2 = true) ∧ g.state ≠ .empty ∧
      (g.state = .fixed → bs.length < 115) := by
  have h115 : (115 : UInt8).toNat = 115 := rfl
  by_cases hlen : bs.length < 115
  · have hne : ¬bs.length = (115 : UInt8).toNat := by omega
    obtain ⟨fixed, hfixed⟩ := bytes_fixed (L := L) (n := 115) bs (by decide) (by omega)
    rw [if_neg hne] at hfixed
    rw [List.drop_eq_nil_of_le (by omega), records]
    exact ⟨_, hfixed, rfl, ⟨nofun, nofun⟩, nofun, fun _ => hlen⟩
  · have htake : (bs.take 115).length = (115 : UInt8).toNat := by
      rw [List.length_take]
      omega
    obtain ⟨fixed, hfixed⟩ := bytes_fixed (L := L) (n := 115) (bs.take 115) (by decide)
      (Nat.le_of_eq htake)
    rw [if_pos htake] at hfixed
    obtain ⟨g, hg, hobjs, hcnt, hdone, hne, hnf⟩ := bytes_records (L := L)
      { Bandplan.create with fixedData := fixed }
      (115 - UInt8.ofNat (bs.take 115).length) .ant (bs.drop 115) (0 + (bs.take 115).length)
    refine ⟨g, ?_, Prod.ext hobjs hcnt, hdone, hne, fun hf => ?_⟩
    · rw [← List.take_append_drop 115 bs, bytes_append, start, hfixed, Option.bind_some]
      exact hg
    · exact absurd hf hnf

theorem of_start (h : bytes L 0 bs start = some g) :
    (g.bp.objList, g.bp.idCnt) = objectsOf 0 (records .ant (bs.drop 115)).1 ∧
      (g.state = .done ↔ (records .ant (bs.drop 115)).2 = true) ∧ g.state ≠ .empty ∧
      (g.state = .fixed → bs.length < 115) := by
  obtain ⟨g', hg', hspec⟩ := bytes_start (L := L) bs
  obtain rfl : g = g' := Option.some.inj (h.symm.trans hg')
  exact hspec

end Getting

/-! ### Blocks -/

namespace Sm

variable {L : Layout} {sm sm' : Sm} {received : List UInt8} {g : Getting}

/-- A download that waits for a block, `received` being there; the fixed data may have been edited. -/
def Reading (L : Layout) (sm : Sm) (received : List UInt8) : Prop :=
  ∃ g f, Getting.bytes L 0 received .start = some g ∧ g.state ≠ .done ∧
    sm = ⟨some { g.bp with fixedData := f }, g.state, UInt16.ofNat received.length, g.toRead,
      some (UInt16.ofNat received.length)⟩

theorem Reading.getAntsw (h : sm.busy = false) : sm.getAntsw.2 = true ∧ Reading L sm.getAntsw.1 [] := by
  unfold Sm.getAntsw
  rw [h]
  exact ⟨rfl, .start, _, rfl, nofun, rfl⟩

theorem Reading.busy (h : Reading L sm received) : sm.busy = true := by
  obtain ⟨g, f, hg, hdone, rfl⟩ := h
  obtain ⟨-, -, hempty, -⟩ := Getting.of_start hg
  simp [Sm.busy, hdone, hempty]

/-- The bytes of an answer. -/
theorem Reading.data (h : Reading L sm received) (buf : List UInt8) (hbuf : buf.length = 34) :
    ∃ g, Getting.bytes L 0 (received ++ (buf.drop 1).take 32) .start = some g ∧
      ((g.state ≠ .done ∧ ∃ sm', sm.reply L (.data buf) = some sm' ∧
        Reading L sm' (received ++ (buf.drop 1).take 32)) ∨
        (g.state = .done ∧ ∃ f offset,
          sm.reply L (.data buf) = some ⟨some { g.bp with fixedData := f }.decode, .done, offset, g.toRead,
            none⟩)) := by
  obtain ⟨g, f, hg, hdone, rfl⟩ := h
  obtain ⟨-, -, -, hfixed⟩ := Getting.of_start hg
  obtain ⟨g', hg', -⟩ := Getting.bytes_start (L := L) (received ++ (buf.drop 1).take 32)
  have hlen : ((buf.drop 1).take 32).length = 32 := by
    rw [List.length_take, List.length_drop, hbuf]
    rfl
  have hpos : Getting.bytes L (UInt16.ofNat received.length).toNat ((buf.drop 1).take 32) g = some g' := by
    rw [Getting.bytes_append, hg, Option.bind_some, Nat.zero_add] at hg'
    by_cases hf : g.state = .fixed
    · have := hfixed hf
      rw [UInt16.toNat_ofNat_of_lt' (by simp only [UInt16.size]; omega)]
      exact hg'
    · rw [Getting.bytes_pos hf _ _ received.length]
      exact hg'
  obtain ⟨f', hf'⟩ := Getting.bytes_withFixed (f := f) hpos
  refine ⟨g', hg', ?_⟩
  have hreply : ∀ offset request : UInt16, offset = UInt16.ofNat received.length →
      reply L ⟨some { g.bp with fixedData := f }, g.state, offset, g.toRead, some request⟩ (.data buf) =
        some (if g'.state ≠ .done then
            { bp := some { g'.bp with fixedData := f' }, state := g'.state, offset := offset + 32,
              toRead := g'.toRead, request := some (offset + 32) }
          else ⟨some { g'.bp with fixedData := f' }.decode, .done, offset, g'.toRead, none⟩) := by
    rintro offset request rfl
    unfold reply completion
    dsimp only
    rw [if_neg (not_not_intro hbuf)]
    change Option.map _ (Getting.bytes L _ _ (g.withFixed f)) = _
    rw [hf']
    rfl
  rw [hreply _ _ rfl]
  by_cases hd : g'.state = .done
  · exact .inr ⟨hd, f', _, by rw [if_neg (not_not_intro hd)]⟩
  · refine .inl ⟨hd, _, rfl, g', f', hg', hd, ?_⟩
    rw [if_pos hd, List.length_append, hlen, UInt16.ofNat_add]
    rfl

end Sm

/-! ### The end of a download -/

/-- The device's answer to a request for a block. -/
def answer (memory : UInt16 → UInt8) (offset : UInt16) : SmReply :=
  .data (0x43 :: (List.range 32).map (fun i => memory (offset + UInt16.ofNat i)) ++ [0xc3])

/-- The block that is asked for is answered. -/
def Sm.answered (L : Layout) (memory : UInt16 → UInt8) (sm : Sm) : Option Sm :=
  match sm.request with
  | none => some sm
  | some offset => sm.reply L (answer memory offset)

/-- A download with `n` answers. -/
def download (L : Layout) (memory : UInt16 → UInt8) (sm : Sm) : Nat → Option Sm
  | 0 => some sm.getAntsw.1
  | n + 1 => (download L memory sm n).bind (Sm.answered L memory)

/-- The memory, as far as it is addressed. -/
def image (memory : UInt16 → UInt8) : List UInt8 := (List.range 65536).map fun i => memory (UInt16.ofNat i)

/-- The download is finished after no more requests than there are blocks. -/
def Terminates (L : Layout) (memory : UInt16 → UInt8) (sm : Sm) : Prop :=
  ∃ n ≤ 2048, ∃ sm', download L memory sm n = some sm' ∧ sm'.request = none ∧ sm'.busy = false

section
variable {L : Layout} {memory : UInt16 → UInt8} {sm : Sm} {received : List UInt8}

theorem Sm.Reading.answered (h : Sm.Reading L sm received) :
    ∃ g, Getting.bytes L 0
        (received ++ (List.range 32).map fun i => memory (UInt16.ofNat received.length + UInt16.ofNat i)) .start = some g ∧
      ((g.state ≠ .done ∧ ∃ sm', sm.answered L memory = some sm' ∧
          Sm.Reading L sm' (received ++ (List.range 32).map fun i =>
            memory (UInt16.ofNat received.length + UInt16.ofNat i))) ∨
        (g.state = .done ∧ ∃ sm', sm.answered L memory = some sm' ∧ sm'.request = none ∧ sm'.busy = false)) := by
  have hreq : sm.request = some (UInt16.ofNat received.length) := by
    obtain ⟨g, f, -, -, rfl⟩ := h
    rfl
  have hdata := h.data
    (0x43 :: (List.range 32).map (fun i => memory (UInt16.ofNat received.length + UInt16.ofNat i)) ++ [0xc3])
    (by simp)
  have hblock : ((0x43 :: (List.range 32).map (fun i => memory (UInt16.ofNat received.length + UInt16.ofNat i)) ++ [0xc3]).drop
      1).take 32 = (List.range 32).map fun i => memory (UInt16.ofNat received.length + UInt16.ofNat i) := by
    rw [List.cons_append, List.drop_one, List.tail_cons]
    exact List.take_left' (by simp)
  rw [hblock] at hdata
  obtain ⟨g, hg, hnext⟩ := hdata
  unfold Sm.answered
  rw [hreq]
  refine ⟨g, hg, hnext.imp id ?_⟩
  rintro ⟨hdone, f, offset, hsm⟩
  exact ⟨hdone, _, hsm, rfl, rfl⟩

/-- A download that has come to its end isn't changed by more bytes. -/
theorem records_append {as : List UInt8} (h : (records .ant (as.drop 115)).2 = true) (bs : List UInt8) :
    (records .ant ((as ++ bs).drop 115)).2 = true := by
  obtain ⟨g, hg, -, hdone, -⟩ := Getting.bytes_start (L := .apart) as
  have hg' : Getting.bytes .apart 0 (as ++ bs) .start = some g := by
    rw [Getting.bytes_append, hg, Option.bind_some, Getting.bytes_done (hdone.2 h)]
  exact (Getting.of_start hg').2.1.1 (hdone.2 h)

/-- The bytes of the block after `n` blocks. -/
theorem image_block {n : Nat} (hn : n < 2048) :
    (image memory).take (32 * (n + 1)) =
      (image memory).take (32 * n) ++ (List.range 32).map fun i =>
      memory (UInt16.ofNat (32 * n) + UInt16.ofNat i) := by
  unfold image
  rw [← List.map_take, ← List.map_take, List.take_range, List.take_range, Nat.min_eq_left (by omega),
    Nat.min_eq_left (by omega),
    Nat.mul_add, List.range_add, List.map_append, List.map_map]
  congr 1
  refine List.map_congr_left fun i _ => ?_
  rw [Function.comp_apply, UInt16.ofNat_add]

/-- After `n` answers the download waits for the next block, or its records have come to their end. -/
theorem download_reads (h : sm.busy = false) {n : Nat} (hn : n ≤ 2048) :
    ∃ sm', download L memory sm n = some sm' ∧
      (Sm.Reading L sm' ((image memory).take (32 * n)) ∨
        (sm'.request = none ∧ sm'.busy = false ∧ (records .ant (((image memory).take (32 * n)).drop 115)).2 = true)) := by
  induction n with
  | zero => exact ⟨_, rfl, .inl (Sm.Reading.getAntsw h).2⟩
  | succ n ih =>
    obtain ⟨sm', hsm, hread | ⟨hreq, hbusy, hdone⟩⟩ := ih (by omega)
    · have hblock : ((image memory).take (32 * n)).length = 32 * n := by
        rw [List.length_take, image, List.length_map, List.length_range]
        omega
      obtain ⟨g, hg, hnext⟩ := hread.answered
      rw [hblock] at hg hnext
      rw [download, hsm, Option.bind_some, image_block (by omega)]
      rcases hnext with ⟨-, sm'', hsm'', hread''⟩ | ⟨hdone, sm'', hsm'', hreq, hbusy⟩
      · exact ⟨sm'', hsm'', .inl hread''⟩
      · exact ⟨sm'', hsm'', .inr ⟨hreq, hbusy, (Getting.of_start hg).2.1.1 hdone⟩⟩
    · refine ⟨sm', ?_, .inr ⟨hreq, hbusy, ?_⟩⟩
      · rw [download, hsm, Option.bind_some, Sm.answered, hreq]
      · rw [image_block (by omega)]
        exact records_append hdone _

/-- A download finishes in time if and only if the records in the memory come to their end. -/
theorem download_terminates (L : Layout) (memory : UInt16 → UInt8) (sm : Sm) (h : sm.busy = false) :
    Terminates L memory sm ↔ (records .ant ((image memory).drop 115)).2 = true := by
  have himage : (image memory).take (32 * 2048) = image memory := by
    refine List.take_of_length_le (Nat.le_of_eq ?_)
    rw [image, List.length_map, List.length_range]
  constructor
  · rintro ⟨n, hn, sm', hsm', -, hbusy⟩
    obtain ⟨sm'', hsm'', hread | ⟨-, -, hdone⟩⟩ := download_reads (L := L) h hn
    · obtain rfl : sm'' = sm' := Option.some.inj (hsm''.symm.trans hsm')
      rw [hread.busy] at hbusy
      exact nomatch hbusy
    · rw [← List.take_append_drop (32 * n) (image memory)]
      exact records_append hdone _
  · intro hdone
    obtain ⟨sm', hsm', hread | ⟨hreq, hbusy, -⟩⟩ := download_reads (L := L) h (Nat.le_refl 2048)
    · obtain ⟨g, f, hg, hne, -⟩ := hread
      rw [himage] at hg
      exact absurd ((Getting.of_start hg).2.1.2 hdone) hne
    · exact ⟨2048, Nat.le_refl _, sm', hsm', hreq, hbusy⟩

/-- A memory with an antenna's record of three bytes and a group's of two, and zeros elsewhere. -/
def shortMemory (a : UInt16) : UInt8 := [3, 0x10, 0x20, 0x30, 0, 2, 7, 8].getD (a.toNat - 115) 0

theorem download_terminates_short : Terminates .apart shortMemory .create := by
  refine (download_terminates .apart shortMemory .create rfl).2 ?_
  have hfirst : (image shortMemory).take 125 = (List.range 125).map fun i => shortMemory (UInt16.ofNat i) := by
    rw [image, ← List.map_take, List.take_range]
    rfl
  have hrecords : ((List.range 125).map fun i => shortMemory (UInt16.ofNat i)).drop 115 =
      [3, 0x10, 0x20, 0x30, 0, 2, 7, 8, 0, 0] := by
    decide +kernel
  rw [← List.take_append_drop 125 (image shortMemory)]
  refine records_append ?_ _
  rw [hfirst, hrecords]
  simp [records, ObjType.next]

/-- Without a zero there is no end. -/
theorem records_pos (t : ObjType) {bs : List UInt8} (h : ∀ c ∈ bs, 0 < c.toNat) : (records t bs).2 = false := by
  induction t, bs using records.induct with
  | case1 t => rw [records]
  | case2 t c cs hc rs fin hrs ih =>
    rw [records, if_pos hc]
    exact ih fun d hd => h d (List.mem_cons_of_mem _ (List.mem_of_mem_drop hd))
  | case3 t c cs hc => exact absurd (h c List.mem_cons_self) hc
  | case4 t c cs hc => exact absurd (h c List.mem_cons_self) hc

/-- The download of an erased memory never ends. -/
theorem download_never_ends :
    ¬Terminates .apart (fun _ => 0xff) .create ∧
      ∀ n, ∃ sm, download .apart (fun _ => 0xff) .create n = some sm ∧ sm.busy = true := by
  have hread : ∀ n, ∃ sm received, download .apart (fun _ => 0xff) .create n = some sm ∧
    Sm.Reading .apart sm received ∧
      ∀ c ∈ received, 0 < c.toNat := by
    intro n
    induction n with
    | zero => exact ⟨_, [], rfl, (Sm.Reading.getAntsw rfl).2, nofun⟩
    | succ n ih =>
      obtain ⟨sm, received, hsm, hread, hpos⟩ := ih
      have hpos' : ∀ c ∈ received ++ (List.range 32).map fun _ => (0xff : UInt8), 0 < c.toNat := by
        intro c hc
        rcases List.mem_append.1 hc with hc | hc
        · exact hpos c hc
        · obtain ⟨i, -, rfl⟩ := List.mem_map.1 hc
          decide
      rw [download, hsm, Option.bind_some]
      obtain ⟨g, hg, ⟨-, sm', hsm', hread'⟩ | ⟨hdone, -⟩⟩ := hread.answered
      · exact ⟨sm', _, hsm', hread', hpos'⟩
      · have hend := (Getting.of_start hg).2.1.1 hdone
        rw [records_pos _ fun c hc => hpos' c (List.mem_of_mem_drop hc)] at hend
        exact nomatch hend
  constructor
  · rintro ⟨n, -, sm', hsm', -, hbusy⟩
    obtain ⟨sm, received, hsm, hread, -⟩ := hread n
    obtain rfl : sm = sm' := Option.some.inj (hsm.symm.trans hsm')
    rw [hread.busy] at hbusy
    exact nomatch hbusy
  · intro n
    obtain ⟨sm, received, hsm, hread, -⟩ := hread n
    exact ⟨sm, hsm, hread.busy⟩

end

end Mhuxd
