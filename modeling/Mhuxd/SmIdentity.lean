import Mhuxd.StationMaster
import Mhuxd.Lib.Run

/-!
# The ids of the Station Master's objects

A request that adds an object may bring its id along, and a request that modifies one names it by id,
while the type of the request chooses the fields. As long as the ids brought along are new, the counter
is not at its end and modifications name objects of their type, the ids are unique and a modification
changes the object it means (`identity_kept`).
-/

namespace Mhuxd

/-- The greatest `int`: the counter ends there. -/
def ID_MAX : Int := 2 ^ 31 - 1

/-! ### The counter -/

/-- The counter after a request for an id, 0 or less for the next one. -/
def cntAfter (cnt id : Int) : Int := if 0 < id then max cnt id else cnt + 1

/-- The counter never has to go beyond the greatest `int`. -/
def Room : Int → List Int → Prop
  | _, [] => True
  | cnt, id :: ids => (0 < id ∨ cnt < ID_MAX) ∧ Room (cntAfter cnt id) ids

instance Room.decidable : ∀ (cnt : Int) (ids : List Int), Decidable (Room cnt ids)
  | _, [] => isTrue trivial
  | cnt, id :: ids =>
    have : Decidable (Room (cntAfter cnt id) ids) := Room.decidable _ ids
    inferInstanceAs (Decidable ((0 < id ∨ cnt < ID_MAX) ∧ Room (cntAfter cnt id) ids))

/-- A counter that counts. -/
structure Counts (cnt : Int) : Prop where
  nonneg : 0 ≤ cnt
  le : cnt ≤ ID_MAX

variable {cnt id : Int} {t : ObjType} {L : Layout} {bp : Bandplan} {j : Json} {o x : Object} {os : List Object} {r : Ref}
  {rs : List Ref}

theorem toInt_of_le {z : Int} (h : 0 ≤ z) (h' : z ≤ ID_MAX) : Json.toInt z = z := by
  unfold ID_MAX at h'
  exact Int.bmod_eq_of_le (by omega) (by omega)

theorem toInt_le (z : Int) : Json.toInt z ≤ ID_MAX := by
  have h := Int.bmod_lt (x := z) (m := 2 ^ 32) (by decide)
  unfold ID_MAX Json.toInt
  omega

theorem intOr_le (j : Json) (key : String) {d : Int} (h : d ≤ ID_MAX) : j.intOr key d ≤ ID_MAX := by
  unfold Json.intOr Json.int?
  split
  · exact toInt_le _
  · next b _ =>
    show (if b then (1 : Int) else 0) ≤ ID_MAX
    cases b <;> decide
  · exact h

theorem Counts.take (h : Counts cnt) (hid : id ≤ ID_MAX) (hroom : 0 < id ∨ cnt < ID_MAX) :
    takeId id cnt = (if 0 < id then id else cnt + 1, cntAfter cnt id) ∧ Counts (cntAfter cnt id) := by
  have h0 := h.nonneg
  have h1 := h.le
  unfold takeId cntAfter nextId
  split_ifs with hpos hlt
  · have hmax : max cnt id = id := by omega
    rw [hmax]
    exact ⟨rfl, by omega, by omega⟩
  · have hmax : max cnt id = cnt := by omega
    rw [hmax]
    exact ⟨rfl, by omega, by omega⟩
  · have hlt' : cnt < ID_MAX := hroom.resolve_left hpos
    rw [toInt_of_le (by omega) (by omega)]
    exact ⟨rfl, by omega, by omega⟩

theorem le_cntAfter : cnt ≤ cntAfter cnt id := by
  unfold cntAfter
  split_ifs <;> omega

/-- The id taken is positive and not beyond the counter. -/
theorem Counts.taken (h : Counts cnt) (hid : id ≤ ID_MAX) (hroom : 0 < id ∨ cnt < ID_MAX) :
    0 < (takeId id cnt).1 ∧ (takeId id cnt).1 ≤ cntAfter cnt id := by
  have h0 := h.nonneg
  rw [(h.take hid hroom).1]
  unfold cntAfter
  dsimp only
  split_ifs <;> omega

/-! ### Objects and references -/

theorem setObj_ids : (setObj o os).map Object.id = os.map Object.id := by
  induction os with
  | nil => rfl
  | cons x os ih =>
    rw [setObj]
    split_ifs with h
    · rw [List.map_cons, List.map_cons, h]
    · rw [List.map_cons, List.map_cons, ih]

theorem mem_setObj (h : x ∈ setObj o os) : x = o ∨ x ∈ os := by
  induction os with
  | nil => exact .inr h
  | cons y os ih =>
    rw [setObj] at h
    split_ifs at h
    · rcases List.mem_cons.1 h with rfl | h
      · exact .inl rfl
      · exact .inr (List.mem_cons_of_mem _ h)
    · rcases List.mem_cons.1 h with rfl | h
      · exact .inr List.mem_cons_self
      · exact (ih h).imp id (List.mem_cons_of_mem _)

/-- With unique ids the other objects are those of other ids. -/
theorem setObj_eq_map (hu : (os.map Object.id).Nodup) : setObj o os = os.map fun x => if x.id =
    o.id then o else x := by
  induction os with
  | nil => rfl
  | cons y os ih =>
    obtain ⟨hy, hu⟩ := List.nodup_cons.1 hu
    rw [setObj, List.map_cons]
    split_ifs with h
    · congr 1
      refine (List.map_id' os).symm.trans (List.map_congr_left fun x hx => ?_)
      rw [if_neg]
      rintro hxo
      exact hy (List.mem_map.2 ⟨x, hx, hxo.trans h.symm⟩)
    · rw [ih hu]

theorem mem_setRef {y : Ref} (h : r ∈ setRef y rs) : r = y ∨ r ∈ rs := by
  induction rs with
  | nil => exact .inr h
  | cons z rs ih =>
    rw [setRef] at h
    split_ifs at h
    · rcases List.mem_cons.1 h with rfl | h
      · exact .inl rfl
      · exact .inr (List.mem_cons_of_mem _ h)
    · rcases List.mem_cons.1 h with rfl | h
      · exact .inr List.mem_cons_self
      · exact (ih h).imp id (List.mem_cons_of_mem _)

@[simp] theorem Body.type_mod (L : Layout) (t : ObjType) (j : Json) (b : Body) : (b.mod L t j).type = b.type := by
  cases b with
  | ant a =>
    unfold Body.mod
    dsimp only
    split_ifs
    · rfl
    · exact L.write_type _ _ _
  | grp g =>
    unfold Body.mod
    dsimp only
    split_ifs
    · rfl
    · exact L.write_type _ _ _
  | band b =>
    unfold Body.mod
    dsimp only
    split_ifs
    · rfl
    · exact L.write_type _ _ _

@[simp] theorem Object.mod_id (L : Layout) (t : ObjType) (j : Json) (o : Object) (cnt : Int) :
    (o.mod L t j cnt).1.id = o.id := rfl

@[simp] theorem Object.mod_type (L : Layout) (t : ObjType) (j : Json) (o : Object) (cnt : Int) :
    (o.mod L t j cnt).1.type = o.type := Body.type_mod ..

theorem objById_mem (h : objById os id = some o) : o ∈ os ∧ o.id = id :=
  ⟨List.mem_of_find?_eq_some h, by simpa using List.find?_some h⟩

/-- With unique ids an object is found by its own. -/
theorem objById_of_mem (hu : (os.map Object.id).Nodup) (h : o ∈ os) : objById os o.id = some o := by
  induction os with
  | nil => exact absurd h List.not_mem_nil
  | cons y os ih =>
    obtain ⟨hy, hu⟩ := List.nodup_cons.1 hu
    rcases List.mem_cons.1 h with rfl | h
    · exact List.find?_cons_of_pos (beq_self_eq_true _)
    · rw [objById, List.find?_cons_of_neg]
      · exact ih hu h
      · intro heq
        exact hy (List.mem_map.2 ⟨o, h, (beq_iff_eq.1 heq).symm⟩)

/-! ### References -/

/-- The ids of references are positive and not beyond the counter. -/
def RefsIn (cnt : Int) (rs : List Ref) : Prop := ∀ r ∈ rs, 0 < r.id ∧ r.id ≤ cnt

theorem RefsIn.mono {cnt' : Int} (h : RefsIn cnt rs) (hle : cnt ≤ cnt') : RefsIn cnt' rs :=
  fun r hr => ⟨(h r hr).1, Int.le_trans (h r hr).2 hle⟩

/-- The ids a request asks for references with. -/
def refIds (t : ObjType) (j : Json) : List Int :=
  match t with
  | .ant => []
  | .grp | .band => (j.items "refs").map fun j => j.intOr "id" 0

/-- The counter after a list of requests for ids. -/
def cntsAfter (cnt : Int) (ids : List Int) : Int := ids.foldl cntAfter cnt

theorem refStep_counts {type : Json → UInt8} {mod : Ref → Json → Ref} (hmod : ∀ r j, (mod r j).id = r.id)
    (hc : Counts cnt) (hr : RefsIn cnt rs) (hroom : 0 < j.intOr "id" 0 ∨ cnt < ID_MAX) :
    (refStep type mod (rs, cnt) j).2 = cntAfter cnt (j.intOr "id" 0) ∧ Counts (cntAfter cnt (j.intOr "id" 0)) ∧
      RefsIn (cntAfter cnt (j.intOr "id" 0)) (refStep type mod (rs, cnt) j).1 := by
  have hid := intOr_le j "id" (d := 0) (by decide)
  obtain ⟨htake, hc'⟩ := hc.take hid hroom
  unfold refStep
  dsimp only
  cases hf : refById rs (j.intOr "id" 0) with
  | some x =>
    obtain ⟨hpos, hle⟩ := hr x (List.mem_of_find?_eq_some hf)
    have hxid : x.id = j.intOr "id" 0 := by simpa using List.find?_some hf
    have hcnt : cntAfter cnt (j.intOr "id" 0) = cnt := by
      unfold cntAfter
      rw [if_pos (by omega)]
      omega
    rw [hcnt]
    refine ⟨rfl, hc, fun y hy => ?_⟩
    rcases mem_setRef hy with rfl | hy
    · rw [hmod]
      exact ⟨hpos, hle⟩
    · exact hr y hy
  | none =>
    have htaken := hc.taken hid hroom
    unfold refCreate
    rw [htake] at htaken ⊢
    refine ⟨rfl, hc', fun y hy => ?_⟩
    rcases List.mem_append.1 hy with hy | hy
    · exact hr.mono le_cntAfter y hy
    · rw [List.mem_singleton.1 hy, hmod]
      exact htaken

/-- The references of a request. -/
theorem modRefs_counts (hc : Counts cnt) (hr : RefsIn cnt rs) (hroom : Room cnt (refIds t j)) :
    (modRefs t j (rs, cnt)).2 = cntsAfter cnt (refIds t j) ∧ Counts (cntsAfter cnt (refIds t j)) ∧
      RefsIn (cntsAfter cnt (refIds t j)) (modRefs t j (rs, cnt)).1 := by
  have hfold : ∀ (type : Json → UInt8) (mod : Ref → Json → Ref) (l : List Json) (rs : List Ref) (cnt : Int),
      (∀ r j, (mod r j).id = r.id) → Counts cnt → RefsIn cnt rs → Room cnt (l.map fun j => j.intOr "id" 0) →
      (l.foldl (refStep type mod) (rs, cnt)).2 = cntsAfter cnt (l.map fun j => j.intOr "id" 0) ∧
        Counts (cntsAfter cnt (l.map fun j => j.intOr "id" 0)) ∧
        RefsIn (cntsAfter cnt (l.map fun j => j.intOr "id" 0)) (l.foldl (refStep type mod) (rs, cnt)).1 := by
    intro type mod l
    induction l with
    | nil => exact fun rs cnt _ hc hr _ => ⟨rfl, hc, hr⟩
    | cons j l ih =>
      intro rs cnt hmod hc hr hroom
      obtain ⟨hcnt, hc', hr'⟩ := refStep_counts hmod hc hr hroom.1
      have hnext := ih (refStep type mod (rs, cnt) j).1 _ hmod hc' hr' hroom.2
      rw [← hcnt] at hnext
      rw [List.map_cons, cntsAfter, List.foldl_cons, List.foldl_cons, ← hcnt]
      exact hnext
  cases t with
  | ant => exact ⟨rfl, hc, hr⟩
  | grp => exact hfold _ _ _ _ _ (fun _ _ => rfl) hc hr hroom
  | band => exact hfold _ _ _ _ _ (fun _ _ => rfl) hc hr hroom

/-! ### Requests -/

/-- The ids of the objects are unique, and of the counter or before it. -/
structure Identified (bp : Bandplan) : Prop where
  nodup : (bp.objList.map Object.id).Nodup
  counts : Counts bp.idCnt
  obj : ∀ o ∈ bp.objList, 0 < o.id ∧ o.id ≤ bp.idCnt
  refs : ∀ o ∈ bp.objList, RefsIn bp.idCnt o.refs

theorem Identified.create : Identified .create := by
  refine ⟨List.nodup_nil, ⟨by decide, by decide⟩, ?_, ?_⟩
  · exact fun o ho => absurd ho List.not_mem_nil
  · exact fun o ho => absurd ho List.not_mem_nil

/-- What a request to modify does: nothing, or it modifies the object it finds. -/
theorem modObjJson_cases (L : Layout) (bp : Bandplan) (j : Json) :
    ((ObjType.of (j.intOr "type" (-1)) = none ∨ objById bp.objList (j.intOr "id" (-1)) = none) ∧
      bp.modObjJson L j = (bp, false)) ∨
    ∃ t o, ObjType.of (j.intOr "type" (-1)) = some t ∧ objById bp.objList (j.intOr "id" (-1)) = some o ∧
      bp.modObjJson L j = ({ bp with
        objList := setObj (o.mod L t j bp.idCnt).1 bp.objList
        idCnt := (o.mod L t j bp.idCnt).2 }, true) := by
  unfold Bandplan.modObjJson
  cases ObjType.of (j.intOr "type" (-1)) with
  | none => exact .inl ⟨.inl rfl, rfl⟩
  | some t =>
    dsimp only
    cases objById bp.objList (j.intOr "id" (-1)) with
    | none => exact .inl ⟨.inr rfl, rfl⟩
    | some o => exact .inr ⟨t, o, rfl, rfl, rfl⟩

theorem Identified.modObjJson (h : Identified bp)
    (hroom : ∀ t, ObjType.of (j.intOr "type" (-1)) = some t → Room bp.idCnt (refIds t j)) :
    Identified (bp.modObjJson L j).1 ∧
      (bp.modObjJson L j).1.objList.map Object.id = bp.objList.map Object.id ∧
      ∀ t, ObjType.of (j.intOr "type" (-1)) = some t → (objById bp.objList (j.intOr "id" (-1))).isSome →
        (bp.modObjJson L j).1.idCnt = cntsAfter bp.idCnt (refIds t j) := by
  rcases modObjJson_cases L bp j with ⟨hnone, heq⟩ | ⟨t, o, ht, ho, heq⟩
  · rw [heq]
    refine ⟨h, rfl, fun t ht hs => ?_⟩
    rcases hnone with hnone | hnone
    · exact absurd (hnone.symm.trans ht) nofun
    · rw [hnone] at hs
      exact absurd hs nofun
  · obtain ⟨homem, hoid⟩ := objById_mem ho
    obtain ⟨hcnt, hc, hrefs⟩ := modRefs_counts (t := t) (j := j) h.counts (h.refs o homem) (hroom t ht)
    have hcnt' : (o.mod L t j bp.idCnt).2 = cntsAfter bp.idCnt (refIds t j) := hcnt
    have hle : bp.idCnt ≤ cntsAfter bp.idCnt (refIds t j) := by
      have hmono : ∀ (ids : List Int) (c : Int), c ≤ cntsAfter c ids := by
        intro ids
        induction ids with
        | nil => exact fun c => Int.le_refl c
        | cons id ids ih => exact fun c => Int.le_trans le_cntAfter (ih _)
      exact hmono _ _
    rw [heq]
    refine ⟨⟨?_, ?_, fun x hx => ?_, fun x hx => ?_⟩, ?_, ?_⟩
    · rw [setObj_ids]
      exact h.nodup
    · dsimp only
      rw [hcnt']
      exact hc
    · rw [hcnt']
      rcases mem_setObj hx with rfl | hx
      · exact ⟨(h.obj o homem).1, Int.le_trans (h.obj o homem).2 hle⟩
      · exact ⟨(h.obj x hx).1, Int.le_trans (h.obj x hx).2 hle⟩
    · rw [hcnt']
      rcases mem_setObj hx with rfl | hx
      · exact hrefs
      · exact (h.refs x hx).mono hle
    · exact setObj_ids
    · intro t' ht' _
      rw [ht] at ht'
      rw [← Option.some.inj ht']
      exact hcnt'

/-- What a request to add asks of the ids there are: its own is new. -/
def AddOk (cnt : Int) (used : List Int) (j : Json) : Prop :=
  ∀ t ∈ ObjType.of (j.intOr "type" (-1)),
    (0 < j.intOr "id" 0 → j.intOr "id" 0 ∉ used) ∧ Room cnt (j.intOr "id" 0 :: refIds t j)

instance (cnt : Int) (used : List Int) (j : Json) : Decidable (AddOk cnt used j) :=
  inferInstanceAs (Decidable (∀ t ∈ ObjType.of (j.intOr "type" (-1)), _))

/-- The counter and the ids after a request to add. -/
def added (cnt : Int) (used : List Int) (j : Json) : Int × List Int :=
  match ObjType.of (j.intOr "type" (-1)) with
  | none => (cnt, used)
  | some t => (cntsAfter cnt (j.intOr "id" 0 :: refIds t j), used ++ [if 0 < j.intOr "id" 0 then j.intOr "id" 0 else cnt + 1])

theorem get_set (j : Json) (key : String) (v : Json) (h : (j.get key).isSome ∨ j.isObj = true) :
    (j.set key v).get key = some v := by
  cases j with
  | obj kv => simp [Json.set, Json.get]
  | int _ => simp [Json.get, Json.isObj] at h
  | bool _ => simp [Json.get, Json.isObj] at h
  | str _ => simp [Json.get, Json.isObj] at h
  | arr _ => simp [Json.get, Json.isObj] at h
  | other => simp [Json.get, Json.isObj] at h

theorem get_set_of_ne (j : Json) {key k : String} (hk : k ≠ key) (v : Json) : (j.set key v).get k = j.get k := by
  cases j with
  | obj kv =>
    have hk' : (k == key) = false := beq_eq_false_iff_ne.2 hk
    simp [Json.set, Json.get, List.lookup, hk']
  | _ => rfl

theorem isObj_of_type (h : ObjType.of (j.intOr "type" (-1)) = some t) : j.isObj = true := by
  cases j with
  | obj kv => rfl
  | _ => exact nomatch (show (none : Option ObjType) = some t from h)

/-- The request that goes on to modify the new object. -/
theorem intOr_set (h : j.isObj = true) {z : Int} (hz : Json.toInt z = z) : (j.set "id" (.int z)).intOr "id" (-1) = z := by
  unfold Json.intOr Json.int?
  rw [get_set _ _ _ (.inr h)]
  exact hz

theorem intOr_set_type {z : Int} : (j.set "id" (.int z)).intOr "type" (-1) = j.intOr "type" (-1) := by
  unfold Json.intOr Json.int?
  rw [get_set_of_ne _ (by decide)]

theorem refIds_set {z : Int} : refIds t (j.set "id" (.int z)) = refIds t j := by
  unfold refIds Json.items
  rw [get_set_of_ne _ (by decide)]

/-- A new object, before the request goes on to modify it. -/
def Bandplan.created (bp : Bandplan) (t : ObjType) (id : Int) : Bandplan :=
  { bp with objList := bp.objList ++ [(objCreate t id bp.idCnt).1], idCnt := (objCreate t id bp.idCnt).2 }

theorem addObjJson_eq (L : Layout) (bp : Bandplan) (ht : ObjType.of (j.intOr "type" (-1)) = some t) :
    bp.addObjJson L j = (bp.created t (j.intOr "id" 0)).modObjJson L
      (j.set "id" (.int (objCreate t (j.intOr "id" 0) bp.idCnt).1.id)) := by
  unfold Bandplan.addObjJson
  rw [ht]
  rfl

theorem Identified.created (h : Identified bp) (hid : id ≤ ID_MAX) (hnew : 0 < id → id ∉ bp.objList.map Object.id)
    (hroom : 0 < id ∨ bp.idCnt < ID_MAX) :
    Identified (bp.created t id) ∧ (objCreate t id bp.idCnt).1.id = (if 0 < id then id else bp.idCnt + 1) ∧
      (bp.created t id).idCnt = cntAfter bp.idCnt id ∧ Json.toInt (objCreate t id bp.idCnt).1.id =
      (objCreate t id bp.idCnt).1.id := by
  obtain ⟨htake, hc⟩ := h.counts.take hid hroom
  obtain ⟨hpos, hle⟩ := h.counts.taken hid hroom
  unfold Bandplan.created objCreate
  rw [htake] at hpos hle ⊢
  dsimp only at hpos hle ⊢
  have hfresh : (if 0 < id then id else bp.idCnt + 1) ∉ bp.objList.map Object.id := by
    intro hmem
    by_cases hp : 0 < id
    · rw [if_pos hp] at hmem
      exact hnew hp hmem
    · rw [if_neg hp] at hmem
      obtain ⟨o, ho, hoz⟩ := List.mem_map.1 hmem
      have := (h.obj o ho).2
      omega
  refine ⟨⟨?_, hc, fun o ho => ?_, fun o ho => ?_⟩, rfl, rfl, ?_⟩
  · rw [List.map_append]
    refine List.nodup_append.2 ⟨h.nodup, List.nodup_singleton _, ?_⟩
    rintro a ha b hb rfl
    rw [List.mem_singleton.1 hb] at ha
    exact hfresh ha
  · rcases List.mem_append.1 ho with ho | ho
    · exact ⟨(h.obj o ho).1, Int.le_trans (h.obj o ho).2 le_cntAfter⟩
    · rw [List.mem_singleton.1 ho]
      exact ⟨hpos, hle⟩
  · rcases List.mem_append.1 ho with ho | ho
    · exact (h.refs o ho).mono le_cntAfter
    · rw [List.mem_singleton.1 ho]
      exact fun r hr => absurd hr List.not_mem_nil
  · exact toInt_of_le (by omega) (Int.le_trans hle hc.le)

theorem Identified.addObjJson (h : Identified bp) (hok : AddOk bp.idCnt (bp.objList.map Object.id) j) :
    Identified (bp.addObjJson L j).1 ∧
      ((bp.addObjJson L j).1.idCnt, (bp.addObjJson L j).1.objList.map Object.id) =
        added bp.idCnt (bp.objList.map Object.id) j := by
  unfold added
  cases ht : ObjType.of (j.intOr "type" (-1)) with
  | none =>
    have hadd : bp.addObjJson L j = (bp, false) := by
      unfold Bandplan.addObjJson
      rw [ht]
    rw [hadd]
    exact ⟨h, rfl⟩
  | some t =>
    obtain ⟨hnew, hroom⟩ := hok t ht
    obtain ⟨hbp, hz, hcnt, hint⟩ := h.created (t := t) (intOr_le j "id" (by decide)) hnew hroom.1
    have hids : (bp.created t (j.intOr "id" 0)).objList.map Object.id =
        bp.objList.map Object.id ++ [(objCreate t (j.intOr "id" 0) bp.idCnt).1.id] := List.map_append
    rw [addObjJson_eq L bp ht]
    obtain ⟨h1, h2, h3⟩ := hbp.modObjJson (L := L) (j := j.set "id" (.int (objCreate t (j.intOr "id" 0) bp.idCnt).1.id))
      fun t' ht' => by
        rw [intOr_set_type, ht] at ht'
        rw [refIds_set, ← Option.some.inj ht', hcnt]
        exact hroom.2
    have hfound : (objById (bp.created t (j.intOr "id" 0)).objList
        ((j.set "id" (.int (objCreate t (j.intOr "id" 0) bp.idCnt).1.id)).intOr "id" (-1))).isSome := by
      rw [intOr_set (isObj_of_type ht) hint]
      have hmem : (objCreate t (j.intOr "id" 0) bp.idCnt).1 ∈ (bp.created t (j.intOr "id" 0)).objList :=
        List.mem_append_right _ (List.mem_singleton_self _)
      rw [objById_of_mem hbp.nodup hmem]
      rfl
    refine ⟨h1, ?_⟩
    rw [h2, hids, h3 t (by rw [intOr_set_type]; exact ht) hfound, refIds_set, hcnt, hz]
    rfl

/-- What the items of an array ask, one after the other. -/
def LoadOk : Int → List Int → List Json → Prop
  | _, _, [] => True
  | cnt, used, j :: items =>
    AddOk cnt used j ∧ LoadOk (added cnt used j).1 (added cnt used j).2 items

instance LoadOk.decidable : ∀ (cnt : Int) (used : List Int) (items : List Json), Decidable (LoadOk cnt used items)
  | _, _, [] => isTrue trivial
  | cnt, used, j :: items =>
    have : Decidable (LoadOk (added cnt used j).1 (added cnt used j).2 items) := LoadOk.decidable _ _ items
    inferInstanceAs (Decidable (AddOk cnt used j ∧ LoadOk (added cnt used j).1 (added cnt used j).2 items))

/-- What isn't an object is passed over. -/
theorem added_of_not_isObj (cnt : Int) (used : List Int) (h : j.isObj = false) :
    added cnt used j = (cnt, used) := by
  unfold added
  cases ht : ObjType.of (j.intOr "type" (-1)) with
  | none => rfl
  | some t => rw [isObj_of_type ht] at h; exact nomatch h

theorem Identified.loadItems (h : Identified bp) {items : List Json}
    (hok : LoadOk bp.idCnt (bp.objList.map Object.id) items) : Identified (bp.loadItems L items).1 := by
  induction items generalizing bp with
  | nil => exact h
  | cons j items ih =>
    rw [Bandplan.loadItems]
    obtain ⟨hadd, hrest⟩ := hok
    split_ifs with hj
    · obtain ⟨h', heq⟩ := h.addObjJson (L := L) hadd
      rw [← heq] at hrest
      exact ih h' hrest
    · rw [added_of_not_isObj _ _ (by simpa using hj)] at hrest
      exact ih h hrest

theorem Identified.remObj (h : Identified bp) (id : Int) : Identified (bp.remObj id).1 := by
  unfold Bandplan.remObj
  split_ifs
  · have hsub : (bp.objList.eraseP fun o => o.id == id).Sublist bp.objList := List.eraseP_sublist
    exact ⟨h.nodup.sublist (hsub.map _), h.counts, fun o ho => h.obj o (hsub.subset ho), fun o ho =>
      h.refs o (hsub.subset ho)⟩
  · exact h

theorem Identified.remObjRef (h : Identified bp) (objId refId : Int) :
    Identified (bp.remObjRef objId refId).1 := by
  unfold Bandplan.remObjRef
  cases ho : objById bp.objList objId with
  | none => exact h
  | some o =>
    dsimp only
    split_ifs
    · obtain ⟨homem, -⟩ := objById_mem ho
      refine ⟨?_, h.counts, fun x hx => ?_, fun x hx => ?_⟩
      · rw [setObj_ids]
        exact h.nodup
      · rcases mem_setObj hx with rfl | hx
        · exact h.obj o homem
        · exact h.obj x hx
      · rcases mem_setObj hx with rfl | hx
        · exact fun r hr => h.refs o homem r (List.eraseP_subset hr)
        · exact h.refs x hx
    · exact h

/-! ### Runs -/

/-- A call that edits the objects, or one that sets the fixed data. -/
inductive SmOp
  | call (c : SmCall) | setOpt (write : List UInt8 → List UInt8)

/-- The outer `none` is the end of a run that dereferenced a missing object. -/
def smStep (L : Layout) (s : Option (Option Bandplan)) (op : SmOp) : Option (Option Bandplan) :=
  s.bind fun bp =>
    match op with
    | .call c => (smCall L bp c).map Prod.fst
    | .setOpt write => some (some (smSetOpt bp write))

/-- A call asks for new ids and modifies objects of its type. -/
def IdsOk (bp : Bandplan) : SmCall → Prop
  | .add j => AddOk bp.idCnt (bp.objList.map Object.id) j
  | .mod j => ∀ t ∈ ObjType.of (j.intOr "type" (-1)), ∀ o ∈ objById bp.objList (j.intOr "id" (-1)),
      o.type = t ∧ Room bp.idCnt (refIds t j)
  | .rem _ | .remRef .. => True
  | .load items => LoadOk bp.idCnt [] items

instance (bp : Bandplan) : ∀ c, Decidable (IdsOk bp c)
  | .add _ => inferInstanceAs (Decidable (AddOk ..))
  | .mod j => inferInstanceAs (Decidable (∀ t ∈ ObjType.of (j.intOr "type" (-1)),
      ∀ o ∈ objById bp.objList (j.intOr "id" (-1)), o.type = t ∧ Room bp.idCnt (refIds t j)))
  | .rem _ | .remRef .. => inferInstanceAs (Decidable True)
  | .load _ => inferInstanceAs (Decidable (LoadOk ..))

def StepIdsOk (s : Option (Option Bandplan)) : SmOp → Prop
  | .call c => ∀ p ∈ s, ∀ bp ∈ p, IdsOk bp c
  | .setOpt _ => True

instance (s : Option (Option Bandplan)) : ∀ op, Decidable (StepIdsOk s op)
  | .call c => inferInstanceAs (Decidable (∀ p ∈ s, ∀ bp ∈ p, IdsOk bp c))
  | .setOpt _ => inferInstanceAs (Decidable True)

/-- No two objects share an id. -/
def UniqueIds (s : Option (Option Bandplan)) : Prop := ∀ p ∈ s, ∀ bp ∈ p, (bp.objList.map Object.id).Nodup

/-- A modification changes the object with this type and this id alone, and without it nothing. -/
def ModifiesOwn (L : Layout) (bp : Bandplan) (j : Json) : Prop :=
  let (bp', ok) := bp.modObjJson L j
  (ok = false ∧ bp' = bp) ∨ ok = true ∧
    ∃ t, ObjType.of (j.intOr "type" (-1)) = some t ∧ (∃ o ∈ bp.objList, o.id = j.intOr "id" (-1) ∧ o.type = t) ∧
      List.Forall₂ (fun o o' => o' = o ∨ (o.id = j.intOr "id" (-1) ∧ o.type = t ∧ o'.id = o.id ∧ o'.type = t))
        bp.objList bp'.objList

/-- What the ids are for: they're unique, and modifications change what they name. -/
def Identifies (L : Layout) (s : Option (Option Bandplan)) (op : SmOp) : Prop :=
  UniqueIds (smStep L s op) ∧ ∀ j, op = .call (.mod j) → ∀ p ∈ s, ∀ bp ∈ p, ModifiesOwn L bp j

/-- The state of a run with its ids. -/
def StateIdentified (s : Option (Option Bandplan)) : Prop := ∀ p ∈ s, ∀ bp ∈ p, Identified bp

theorem Identified.setOpt (h : Identified bp) (write : List UInt8 → List UInt8) :
    Identified (smSetOpt (some bp) write) :=
  ⟨h.nodup, h.counts, h.obj, h.refs⟩

theorem Identified.call (h : Identified bp) {c : SmCall} (hok : IdsOk bp c) : Identified (bp.call L c).1 := by
  cases c with
  | add j => exact (h.addObjJson hok).1
  | mod j =>
    unfold Bandplan.call
    dsimp only
    rcases modObjJson_cases L bp j with ⟨-, heq⟩ | ⟨t, o, ht, ho, -⟩
    · rw [heq]
      exact h
    · refine (h.modObjJson fun t' ht' => ?_).1
      exact (hok t' ht' o ho).2
  | rem id => exact h.remObj id
  | remRef objId refId => exact h.remObjRef objId refId
  | load items =>
    have hclear : Identified bp.clearObjList :=
      ⟨List.nodup_nil, h.counts, fun o ho => absurd ho List.not_mem_nil, fun o ho => absurd ho List.not_mem_nil⟩
    exact hclear.loadItems hok

theorem StateIdentified.step {s : Option (Option Bandplan)} {op : SmOp} (h : StateIdentified s)
    (hok : StepIdsOk s op) :
    StateIdentified (smStep L s op) := by
  intro p hp bp hbp
  obtain ⟨p', hp', hstep⟩ := Option.bind_eq_some_iff.1 hp
  cases op with
  | setOpt write =>
    obtain rfl := Option.some.inj hstep
    obtain rfl := Option.some.inj hbp
    cases p' with
    | none => exact Identified.create.setOpt write
    | some bp' => exact (h _ hp' bp' rfl).setOpt write
  | call c =>
    dsimp only at hstep
    cases p' with
    | none =>
      cases c <;> simp only [smCall, Option.map_none, Option.map_some, reduceCtorEq, Option.some.injEq] at hstep
      all_goals
        rw [← hstep] at hbp
        exact nomatch hbp
    | some bp' =>
      have hcall := (h _ hp' bp' rfl).call (L := L) (hok _ hp' bp' rfl)
      have heq : p = some (bp'.call L c).1 := by
        cases c <;> exact (Option.some.inj hstep).symm
      rw [heq] at hbp
      rw [← Option.some.inj hbp]
      exact hcall

/-- A modification of an object of its type. -/
theorem Identified.modifiesOwn (h : Identified bp) (hok : IdsOk bp (.mod j)) : ModifiesOwn L bp j := by
  unfold ModifiesOwn
  rcases modObjJson_cases L bp j with ⟨-, heq⟩ | ⟨t, o, ht, ho, heq⟩
  · rw [heq]
    exact .inl ⟨rfl, rfl⟩
  · obtain ⟨homem, hoid⟩ := objById_mem ho
    have htype : o.type = t := (hok t ht o ho).1
    rw [heq]
    refine .inr ⟨rfl, t, ht, ⟨o, homem, hoid, htype⟩, ?_⟩
    dsimp only
    rw [setObj_eq_map h.nodup, List.forall₂_map_right_iff, List.forall₂_same]
    intro x hx
    split_ifs with hxo
    · right
      have hxo' : x = o := by
        have h1 := objById_of_mem h.nodup hx
        rw [show x.id = j.intOr "id" (-1) from hxo.trans hoid, ho] at h1
        exact (Option.some.inj h1).symm
      subst hxo'
      exact ⟨hoid, htype, rfl, (Object.mod_type ..).trans htype⟩
    · exact .inl rfl

/-- In every run whose requests ask for new ids and modify objects of their type, the ids are unique and a
modification changes the object it names alone. -/
theorem identity_kept (L : Layout) (ops : List SmOp) (hok : Run.StepsOk (smStep L) StepIdsOk (some none) ops) :
    Run.StepsOk (smStep L) (Identifies L) (some none) ops := by
  refine Run.StepsOk.of_inv (I := StateIdentified) (fun s op h hok => ?_) ?_ hok
  · have hstep := h.step (L := L) hok
    refine ⟨hstep, fun p hp bp hbp => (hstep p hp bp hbp).nodup, ?_⟩
    rintro j rfl p hp bp hbp
    exact (h p hp bp hbp).modifiesOwn (hok p hp bp hbp)
  · intro p hp bp hbp
    rw [← Option.some.inj hp] at hbp
    exact nomatch hbp

/-- The objects an interface may ask for. -/
def request (type id : Int) (name : List UInt8) : Json := .obj [("type", .int type), ("id", .int id), ("display", .str name)]

/-- Two antennas are added with one id, and a band is modified that is an antenna. -/
theorem identity_lost :
    ¬Run.StepsOk (smStep .apart) (Identifies .apart) (some none)
        [.setOpt fun d => d, .call (.add (request 0 1 [0x41])), .call (.add (request 0 1 [0x42]))] ∧
      ¬Run.StepsOk (smStep .apart) (Identifies .apart) (some none)
        [.setOpt fun d => d, .call (.add (request 0 1 [0x41])), .call (.mod (request 2 1 [0x42]))] := by
  constructor
  · intro h
    exact absurd (h.2.2.1.1 _ rfl _ rfl) (by decide)
  · intro h
    have hm := h.2.2.1.2 _ rfl _ rfl _ rfl
    rcases hm with ⟨hok, -⟩ | ⟨-, t, ht, ⟨o, ho, hid, hot⟩, -⟩
    · exact absurd hok (by decide)
    · obtain rfl : ObjType.band = t := Option.some.inj ht
      rw [List.mem_singleton.1 ho] at hot
      exact absurd hot (by decide)

/-- The request with an action. -/
def Json.withAction (act : String) : Json → Json
  | obj fields => obj (("action", str (act.toList.map fun c => UInt8.ofNat c.toNat)) :: fields)
  | j => j

/-- What a run makes of the values of `sm.obj`, after the fixed data was set. -/
def objRun (vs : List Json) : List SmOp := .setOpt (fun d => d) :: (vs.filterMap SmCall.of).map .call

theorem identity_kept_modified :
    Run.StepsOk (smStep .apart) (Identifies .apart) (some none)
      (objRun [(request 0 1 [0x41]).withAction "add", (request 2 0 [0x42]).withAction "add",
        (request 2 2 [0x43]).withAction "mod", (request 1 7 [0x43]).withAction "mod", (request 0 1 []).withAction "rem"]) :=
  identity_kept .apart _ (by decide +kernel)

end Mhuxd
