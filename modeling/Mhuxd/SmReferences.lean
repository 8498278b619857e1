import Mhuxd.SmIdentity
import Mhuxd.SmCodec

/-!
# The references of the Station Master's objects

Groups refer to antennas, bands to antennas and groups. Neither the requests that bring references nor the
removal of an object looks whether a reference names an object, and the encoder relies on it. As long as
the requests name objects there are, and removed objects aren't referred to, the references are kept
(`references_kept`).
-/

namespace Mhuxd

/-- The ids there are, with their types. -/
def typesOf (os : List Object) : List (Int × ObjType) := os.map fun o => (o.id, o.type)

/-- The type a reference expects, by the type of the object that holds it. -/
def expectedType (holder : ObjType) (type : UInt8) : Option ObjType :=
  match holder with
  | .ant => none
  | .grp => some .ant
  | .band => if type = REF_TYPE_ANT then some .ant else if type = REF_TYPE_GRP then some .grp else none

/-- A reference names an object of the type it expects. -/
def Fits (K : List (Int × ObjType)) (holder : ObjType) (type : UInt8) (destId : Int) : Prop :=
  (expectedType holder type).isSome ∧ K.lookup destId = expectedType holder type

instance (K : List (Int × ObjType)) (holder : ObjType) (type : UInt8) (destId : Int) :
    Decidable (Fits K holder type destId) :=
  inferInstanceAs (Decidable (_ ∧ _))

/-- The references of an object name objects, and their count fits its byte. -/
structure Referring (K : List (Int × ObjType)) (o : Object) : Prop where
  fits : ∀ r ∈ o.refs, Fits K o.type r.type r.destId
  count : o.refs.length < 256

/-! ### Requests -/

/-- The references a request brings for an object of a type. -/
def refsOf (t : ObjType) (j : Json) : List Json :=
  match t with
  | .ant => []
  | .grp | .band => j.items "refs"

/-- The type of a new reference. -/
def refType (t : ObjType) (j : Json) : UInt8 :=
  match t with
  | .ant | .grp => REF_TYPE_ANT
  | .band => UInt8.ofInt (j.intOr "type" 0)

/-- What a request says of a reference. -/
def refMod (t : ObjType) : Ref → Json → Ref :=
  match t with
  | .ant | .grp => Ref.modGroup
  | .band => Ref.modBand

/-- The references of a request name objects: a new one has to, one that's held already may keep its own.
There are no more than the count's byte can tell. -/
def RefsOk (K : List (Int × ObjType)) (t : ObjType) : List (Int × UInt8) → Int → List Json → Prop
  | held, _, [] => held.length < 256
  | held, cnt, j :: items =>
    match held.lookup (j.intOr "id" 0) with
    | some type => (∀ id ∈ j.int? "dest_id", Fits K t type id) ∧ RefsOk K t held cnt items
    | none =>
      Fits K t (refType t j) (j.intOr "dest_id" 0) ∧
        RefsOk K t (held ++ [((takeId (j.intOr "id" 0) cnt).1, refType t j)]) (takeId (j.intOr "id" 0) cnt).2 items

instance RefsOk.decidable (K : List (Int × ObjType)) (t : ObjType) :
    ∀ (held : List (Int × UInt8)) (cnt : Int) (items : List Json), Decidable (RefsOk K t held cnt items)
  | held, _, [] => inferInstanceAs (Decidable (held.length < 256))
  | held, cnt, j :: items =>
    have := RefsOk.decidable K t held cnt items
    have := RefsOk.decidable K t (held ++ [((takeId (j.intOr "id" 0) cnt).1, refType t j)]) (takeId (j.intOr "id" 0) cnt).2 items
    show Decidable (match held.lookup (j.intOr "id" 0) with
      | some type => (∀ id ∈ j.int? "dest_id", Fits K t type id) ∧ RefsOk K t held cnt items
      | none =>
        Fits K t (refType t j) (j.intOr "dest_id" 0) ∧
          RefsOk K t (held ++ [((takeId (j.intOr "id" 0) cnt).1, refType t j)]) (takeId (j.intOr "id" 0) cnt).2 items) from
    match held.lookup (j.intOr "id" 0) with
    | some _ => inferInstanceAs (Decidable (_ ∧ _))
    | none => inferInstanceAs (Decidable (_ ∧ _))

variable {K : List (Int × ObjType)} {t : ObjType} {L : Layout} {bp : Bandplan} {j : Json} {o x : Object} {os : List Object}
  {r : Ref} {rs : List Ref} {cnt id : Int}

theorem modRefs_eq (t : ObjType) (j : Json) (s : List Ref × Int) :
    modRefs t j s = (refsOf t j).foldl (refStep (refType t) (refMod t)) s := by
  cases t <;> rfl

/-- The ids of references with their types. -/
def heldBy (rs : List Ref) : List (Int × UInt8) := rs.map fun r => (r.id, r.type)

/-- A look up by a key of the elements. -/
theorem lookup_map {α β : Type} (key : α → Int) (f : α → β) (l : List α) (id : Int) :
    (l.map fun x => (key x, f x)).lookup id = (l.find? fun x => key x == id).map f := by
  induction l with
  | nil => rfl
  | cons x l ih =>
    rw [List.map_cons, List.lookup_cons, List.find?_cons]
    by_cases h : key x = id
    · rw [beq_iff_eq.2 h, beq_iff_eq.2 h.symm]
      rfl
    · rw [beq_eq_false_iff_ne.2 h, beq_eq_false_iff_ne.2 (Ne.symm h)]
      exact ih

theorem lookup_heldBy : (heldBy rs).lookup id = (refById rs id).map Ref.type := lookup_map ..

theorem heldBy_setRef {y : Ref} (hr : refById rs y.id = some r) (ht : y.type = r.type) :
    heldBy (setRef y rs) = heldBy rs := by
  induction rs with
  | nil => rfl
  | cons z rs ih =>
    unfold refById at hr ih
    rw [List.find?_cons] at hr
    rw [setRef]
    split_ifs with h
    · rw [beq_iff_eq.2 h] at hr
      obtain rfl := Option.some.inj hr
      unfold heldBy
      rw [List.map_cons, List.map_cons, ht, h]
    · rw [beq_eq_false_iff_ne.2 h] at hr
      unfold heldBy at *
      rw [List.map_cons, List.map_cons, ih hr]

@[simp] theorem refMod_id (t : ObjType) (r : Ref) (j : Json) : (refMod t r j).id = r.id := by cases t <;> rfl

@[simp] theorem refMod_type (t : ObjType) (r : Ref) (j : Json) : (refMod t r j).type = r.type := by cases t <;> rfl

@[simp] theorem refMod_destId (t : ObjType) (r : Ref) (j : Json) : (refMod t r j).destId = j.intOr "dest_id" r.destId := by
  cases t <;> rfl

/-- The references after a request. -/
theorem RefsOk.fits {items : List Json} (hok : RefsOk K t (heldBy rs) cnt items)
    (h : ∀ r ∈ rs, Fits K t r.type r.destId) :
    (∀ r ∈ (items.foldl (refStep (refType t) (refMod t)) (rs, cnt)).1, Fits K t r.type r.destId) ∧
      (items.foldl (refStep (refType t) (refMod t)) (rs, cnt)).1.length < 256 := by
  induction items generalizing rs cnt with
  | nil => exact ⟨h, List.length_map (fun r : Ref => (r.id, r.type)) ▸ hok⟩
  | cons j items ih =>
    rw [List.foldl_cons]
    unfold RefsOk at hok
    unfold refStep
    rw [lookup_heldBy] at hok
    dsimp only
    cases hr : refById rs (j.intOr "id" 0) with
    | some r =>
      rw [hr] at hok
      obtain ⟨hdest, hok⟩ := hok
      have hrid : r.id = j.intOr "id" 0 := by simpa using List.find?_some hr
      have hheld : heldBy (setRef (refMod t r j) rs) = heldBy rs := by
        refine heldBy_setRef (r := r) ?_ (refMod_type ..)
        rw [refMod_id, hrid]
        exact hr
      refine ih (by rw [hheld]; exact hok) fun y hy => ?_
      rcases mem_setRef hy with rfl | hy
      · rw [refMod_type, refMod_destId]
        unfold Json.intOr
        cases hd : j.int? "dest_id" with
        | none => exact h r (List.mem_of_find?_eq_some hr)
        | some id => exact hdest id hd
      · exact h y hy
    | none =>
      rw [hr] at hok
      obtain ⟨hdest, hok⟩ := hok
      refine ih ?_ fun y hy => ?_
      · unfold heldBy at *
        rw [List.map_append, List.map_singleton, refMod_id, refMod_type]
        exact hok
      · rcases List.mem_append.1 hy with hy | hy
        · exact h y hy
        · rw [List.mem_singleton.1 hy, refMod_type, refMod_destId]
          exact hdest

/-! ### Calls -/

theorem lookup_typesOf : (typesOf os).lookup id = (objById os id).map Object.type := lookup_map ..

theorem typesOf_setObj (hx : objById os o.id = some x) (ht : o.type = x.type) :
    typesOf (setObj o os) = typesOf os := by
  induction os with
  | nil => rfl
  | cons y os ih =>
    unfold objById at hx ih
    rw [List.find?_cons] at hx
    rw [setObj]
    split_ifs with h
    · rw [beq_iff_eq.2 h] at hx
      obtain rfl := Option.some.inj hx
      unfold typesOf
      rw [List.map_cons, List.map_cons, ht, h]
    · rw [beq_eq_false_iff_ne.2 h] at hx
      unfold typesOf at *
      rw [List.map_cons, List.map_cons, ih hx]

/-- A request that modifies an object of its type. -/
theorem Referring.modObjJson (h : ∀ o ∈ bp.objList, Referring K o) (ht : ObjType.of (j.intOr "type" (-1)) = some t)
    (ho : objById bp.objList (j.intOr "id" (-1)) = some o) (hot : o.type = t)
    (hok : RefsOk K t (heldBy o.refs) bp.idCnt (refsOf t j)) :
    (∀ o ∈ (bp.modObjJson L j).1.objList, Referring K o) ∧
      typesOf (bp.modObjJson L j).1.objList = typesOf bp.objList := by
  obtain ⟨homem, hoid⟩ := objById_mem ho
  rcases modObjJson_cases L bp j with ⟨hnone | hnone, -⟩ | ⟨t', o', ht', ho', heq⟩
  · exact absurd (hnone.symm.trans ht) nofun
  · exact absurd (hnone.symm.trans ho) nofun
  · obtain rfl : t = t' := Option.some.inj (ht.symm.trans ht')
    obtain rfl : o = o' := Option.some.inj (ho.symm.trans ho')
    have hrefs : (o.mod L t j bp.idCnt).1.refs = (modRefs t j (o.refs, bp.idCnt)).1 := rfl
    have hfits := (h o homem).fits
    rw [hot] at hfits
    obtain ⟨hfits', hcount⟩ := hok.fits hfits
    rw [heq]
    refine ⟨fun x hx => ?_, typesOf_setObj (x := o) ?_ (Object.mod_type ..)⟩
    · rcases mem_setObj hx with rfl | hx
      · refine ⟨fun r hr => ?_, ?_⟩
        · rw [hrefs, modRefs_eq] at hr
          rw [Object.mod_type, hot]
          exact hfits' r hr
        · rw [hrefs, modRefs_eq]
          exact hcount
      · exact h x hx
    · rw [Object.mod_id, hoid]
      exact ho

/-- A request that adds an object. -/
def AddRefsOk (K : List (Int × ObjType)) (cnt : Int) (j : Json) : Prop :=
  ∀ t ∈ ObjType.of (j.intOr "type" (-1)), RefsOk K t [] (takeId (j.intOr "id" 0) cnt).2 (refsOf t j)

instance (K : List (Int × ObjType)) (cnt : Int) (j : Json) : Decidable (AddRefsOk K cnt j) :=
  inferInstanceAs (Decidable (∀ t ∈ ObjType.of (j.intOr "type" (-1)), _))

theorem refsOf_set {z : Int} : refsOf t (j.set "id" (.int z)) = refsOf t j := by
  unfold refsOf Json.items
  rw [get_set_of_ne _ (by decide)]

theorem Referring.addObjJson (hid : Identified bp) (hids : AddOk bp.idCnt (bp.objList.map Object.id) j)
    (h : ∀ o ∈ bp.objList, Referring K o) (hok : AddRefsOk K bp.idCnt j) :
    (∀ o ∈ (bp.addObjJson L j).1.objList, Referring K o) ∧
      (bp.addObjJson L j).1.objList.map Object.type = bp.objList.map Object.type ++ (ObjType.of (j.intOr "type" (-1))).toList ∧
      ∃ os, typesOf (bp.addObjJson L j).1.objList = typesOf bp.objList ++ os := by
  cases ht : ObjType.of (j.intOr "type" (-1)) with
  | none =>
    have hadd : bp.addObjJson L j = (bp, false) := by
      unfold Bandplan.addObjJson
      rw [ht]
    rw [hadd]
    exact ⟨h, (List.append_nil _).symm, [], (List.append_nil _).symm⟩
  | some t =>
    obtain ⟨hnew, hroom⟩ := hids t ht
    obtain ⟨hbp, -, hcnt, hint⟩ := hid.created (t := t) (intOr_le j "id" (by decide)) hnew hroom.1
    rw [addObjJson_eq L bp ht]
    have hmem : (objCreate t (j.intOr "id" 0) bp.idCnt).1 ∈ (bp.created t (j.intOr "id" 0)).objList :=
      List.mem_append_right _ (List.mem_singleton_self _)
    have hnew : Referring K (objCreate t (j.intOr "id" 0) bp.idCnt).1 :=
      ⟨fun r hr => absurd hr List.not_mem_nil, Nat.zero_lt_succ 255⟩
    obtain ⟨hlinked, htypes⟩ := Referring.modObjJson (L := L)
      (j := j.set "id" (.int (objCreate t (j.intOr "id" 0) bp.idCnt).1.id)) (t := t) (o := (objCreate t (j.intOr "id" 0) bp.idCnt).1)
      (fun o ho => (List.mem_append.1 ho).elim (h o) fun ho => List.mem_singleton.1 ho ▸ hnew)
      (by rw [intOr_set_type]; exact ht)
      (by rw [intOr_set (isObj_of_type ht) hint]; exact objById_of_mem hbp.nodup hmem)
      (Body.type_zero t) (by rw [refsOf_set]; exact hok t ht)
    have hmap : ∀ os : List Object, os.map Object.type = (typesOf os).map Prod.snd := by
      intro os
      unfold typesOf
      rw [List.map_map]
      rfl
    have happend : typesOf (bp.created t (j.intOr "id" 0)).objList =
        typesOf bp.objList ++ [((objCreate t (j.intOr "id" 0) bp.idCnt).1.id, t)] := by
      unfold typesOf Bandplan.created
      rw [List.map_append, List.map_singleton]
      rw [show (objCreate t (j.intOr "id" 0) bp.idCnt).1.type = t from Body.type_zero t]
    refine ⟨hlinked, ?_, _, htypes.trans happend⟩
    rw [hmap, htypes, happend, List.map_append, ← hmap]
    rfl

/-- The objects a bulk load makes, with their types. -/
def loadedTypes (cnt : Int) (items : List Json) : List (Int × ObjType) :=
  (items.foldl (fun s j => added s.1 s.2 j) (cnt, [])).2.zip (items.filterMap fun j => ObjType.of (j.intOr "type" (-1)))

/-- The references of the items of an array. -/
def LoadRefsOk (K : List (Int × ObjType)) : Int → List Int → List Json → Prop
  | _, _, [] => True
  | cnt, used, j :: items => AddRefsOk K cnt j ∧ LoadRefsOk K (added cnt used j).1 (added cnt used j).2 items

instance LoadRefsOk.decidable (K : List (Int × ObjType)) :
    ∀ (cnt : Int) (used : List Int) (items : List Json), Decidable (LoadRefsOk K cnt used items)
  | _, _, [] => isTrue trivial
  | cnt, used, j :: items =>
    have : Decidable (LoadRefsOk K (added cnt used j).1 (added cnt used j).2 items) :=
      LoadRefsOk.decidable K _ _ items
    inferInstanceAs (Decidable (AddRefsOk K cnt j ∧ LoadRefsOk K (added cnt used j).1 (added cnt used j).2 items))

theorem typesOf_eq_zip (os : List Object) : typesOf os = (os.map Object.id).zip (os.map Object.type) := by
  induction os with
  | nil => rfl
  | cons o os ih => exact congrArg ((o.id, o.type) :: ·) ih

theorem Referring.loadItems {items : List Json} (hid : Identified bp)
    (hids : LoadOk bp.idCnt (bp.objList.map Object.id) items)
    (h : ∀ o ∈ bp.objList, Referring K o) (hok : LoadRefsOk K bp.idCnt (bp.objList.map Object.id) items) :
    (∀ o ∈ (bp.loadItems L items).1.objList, Referring K o) ∧
      (bp.loadItems L items).1.objList.map Object.id =
        (items.foldl (fun s j => added s.1 s.2 j) (bp.idCnt, bp.objList.map Object.id)).2 ∧
      (bp.loadItems L items).1.objList.map Object.type =
        bp.objList.map Object.type ++ items.filterMap fun j => ObjType.of (j.intOr "type" (-1)) := by
  induction items generalizing bp with
  | nil => exact ⟨h, rfl, (List.append_nil _).symm⟩
  | cons j items ih =>
    obtain ⟨hadd, hrest⟩ := hids
    obtain ⟨hrefs, hrefs'⟩ := hok
    rw [Bandplan.loadItems, List.foldl_cons]
    by_cases hj : j.isObj = true
    · obtain ⟨hid', heq⟩ := hid.addObjJson (L := L) hadd
      obtain ⟨hlinked, htypes, -⟩ := Referring.addObjJson (L := L) hid hadd h hrefs
      rw [← heq] at hrest hrefs'
      obtain ⟨h1, h2, h3⟩ := ih hid' hrest hlinked hrefs'
      rw [if_pos hj, ← heq]
      refine ⟨h1, h2, h3.trans ?_⟩
      rw [htypes, List.append_assoc]
      congr 1
      rw [List.filterMap_cons]
      cases ObjType.of (j.intOr "type" (-1)) <;> rfl
    · have hnone : ObjType.of (j.intOr "type" (-1)) = none := by
        cases ht : ObjType.of (j.intOr "type" (-1)) with
        | none => rfl
        | some t => exact absurd (isObj_of_type ht) hj
      rw [added_of_not_isObj _ _ (Bool.eq_false_iff.2 hj)] at hrest hrefs' ⊢
      rw [if_neg hj, List.filterMap_cons, hnone]
      exact ih hid hrest h hrefs'

theorem Fits.append {type : UInt8} {holder : ObjType} (h : Fits K holder type id) (os : List (Int × ObjType)) :
    Fits (K ++ os) holder type id := by
  obtain ⟨hsome, hlookup⟩ := h
  obtain ⟨t, ht⟩ := Option.isSome_iff_exists.1 hsome
  refine ⟨hsome, ?_⟩
  rw [ht] at hlookup ⊢
  rw [List.lookup_append, hlookup]
  rfl

theorem Referring.append (h : Referring K o) (os : List (Int × ObjType)) : Referring (K ++ os) o :=
  ⟨fun r hr => (h.fits r hr).append os, h.count⟩

theorem objById_eraseP {id' : Int} (h : id' ≠ id) : objById (os.eraseP fun o => o.id == id) id' =
    objById os id' := by
  induction os with
  | nil => rfl
  | cons o os ih =>
    unfold objById at *
    rw [List.eraseP_cons]
    by_cases ho : o.id = id
    · rw [beq_iff_eq.2 ho, cond_true, List.find?_cons_of_neg]
      intro heq
      exact h ((beq_iff_eq.1 heq).symm.trans ho)
    · rw [beq_eq_false_iff_ne.2 ho, cond_false, List.find?_cons, List.find?_cons, ih]

/-! ### The encoder -/

theorem indexFrom_fst (n : ObjType → Nat) (os : List Object) : (indexFrom n os).map Prod.fst = os := by
  induction os generalizing n with
  | nil => rfl
  | cons o os ih => exact congrArg (o :: ·) (ih _)

theorem ixById_fst (os : List Object) (id : Int) : (ixById (updateIndexValues os) id).map Prod.fst =
    objById os id := by
  have hfst := indexFrom_fst (fun _ => 0) os
  unfold objById ixById updateIndexValues
  rw [← hfst, List.find?_map, hfst]
  rfl

theorem mapM_of_isSome {α β : Type} {f : α → Option β} {l : List α} (h : ∀ x ∈ l, (f x).isSome) :
    ∃ ys, l.mapM f = some ys ∧ ys.length = l.length := by
  induction l with
  | nil => exact ⟨[], rfl, rfl⟩
  | cons x l ih =>
    obtain ⟨y, hy⟩ := Option.isSome_iff_exists.1 (h x List.mem_cons_self)
    obtain ⟨ys, hys, hlen⟩ := ih fun x hx => h x (List.mem_cons_of_mem _ hx)
    refine ⟨y :: ys, ?_, congrArg (· + 1) hlen⟩
    rw [List.mapM_cons, hy, hys]
    rfl

/-- The count in an object's record is the number of references that follow it. -/
def CountMatches (ix : List (Object × Nat)) (o : Object) : Prop :=
  match o.type with
  | .ant => True
  | .grp => ∃ refs, o.refs.mapM (encodeGrpRef ix) = some refs ∧ refs.length = (UInt8.ofNat o.refs.length).toNat
  | .band => (o.refs.flatMap (encodeBandRef ix)).length = 3 * (UInt8.ofNat o.refs.length).toNat

/-- The references name objects of the types they expect, so that the band plan can be encoded and the counts
are those of the encoded references. -/
structure Integrity (bp : Bandplan) : Prop where
  refs : ∀ o ∈ bp.objList, ∀ r ∈ o.refs, ∃ d, objById bp.objList r.destId = some d ∧
  expectedType o.type r.type = some d.type
  encodes : (encodeBp bp).isSome
  counts : ∀ o ∈ bp.objList, CountMatches (updateIndexValues bp.objList) o

/-- The object a reference names. -/
theorem Referring.dest (h : Referring (typesOf os) o) (hr : r ∈ o.refs) :
    ∃ d, objById os r.destId = some d ∧ expectedType o.type r.type = some d.type := by
  obtain ⟨hsome, hlookup⟩ := h.fits r hr
  obtain ⟨t, ht⟩ := Option.isSome_iff_exists.1 hsome
  rw [ht, lookup_typesOf] at hlookup
  obtain ⟨d, hd, rfl⟩ := Option.map_eq_some_iff.1 hlookup
  exact ⟨d, hd, ht⟩

theorem Referring.encodeGrpRef_isSome (h : Referring (typesOf os) o) (hr : r ∈ o.refs) :
    (encodeGrpRef (updateIndexValues os) r).isSome := by
  obtain ⟨d, hd, -⟩ := h.dest hr
  have hix := ixById_fst os r.destId
  rw [hd] at hix
  obtain ⟨x, hx, -⟩ := Option.map_eq_some_iff.1 hix
  unfold encodeGrpRef
  rw [hx]
  rfl

theorem Referring.length_encodeBandRef (h : Referring (typesOf os) o) (ho : o.type = .band) (hr : r ∈ o.refs) :
    (encodeBandRef (updateIndexValues os) r).length = 3 := by
  obtain ⟨d, hd, hexp⟩ := h.dest hr
  have hix := ixById_fst os r.destId
  rw [hd] at hix
  obtain ⟨⟨d', i⟩, hx, rfl⟩ := Option.map_eq_some_iff.1 hix
  have hne : d'.type ≠ .band := by
    intro hband
    rw [ho, hband] at hexp
    unfold expectedType at hexp
    dsimp only at hexp
    split_ifs at hexp
    · exact nomatch hexp
    · exact nomatch hexp
  unfold encodeBandRef
  rw [hx]
  dsimp only
  cases hd' : d'.type with
  | ant => rfl
  | grp => rfl
  | band => exact absurd hd' hne

theorem Referring.countMatches (h : Referring (typesOf os) o) : CountMatches (updateIndexValues os) o := by
  have hcount : (UInt8.ofNat o.refs.length).toNat = o.refs.length := UInt8.toNat_ofNat_of_lt' h.count
  unfold CountMatches
  rw [hcount]
  cases ho : o.type with
  | ant => exact trivial
  | grp => exact mapM_of_isSome fun r hr => h.encodeGrpRef_isSome hr
  | band =>
    dsimp only
    rw [List.length_flatMap, List.map_congr_left fun r hr => h.length_encodeBandRef ho hr, List.map_const',
      List.sum_replicate_nat]
    exact Nat.mul_comm ..

theorem encodeObj_isSome (h : Referring (typesOf os) o) : (encodeObj (updateIndexValues os) o).isSome := by
  unfold encodeObj
  cases ho : o.body with
  | ant a => rfl
  | band b => rfl
  | grp g =>
    obtain ⟨refs, hrefs, -⟩ := mapM_of_isSome (f := encodeGrpRef (updateIndexValues os)) fun r hr =>
      h.encodeGrpRef_isSome hr
    unfold encodeGrp
    dsimp only
    rw [hrefs]
    rfl

theorem encodeType_isSome (h : ∀ o ∈ os, Referring (typesOf os) o) (t : ObjType) :
    ∃ bs, encodeType (updateIndexValues os) t os = some bs := by
  obtain ⟨l, hl, -⟩ := mapM_of_isSome (f := encodeObj (updateIndexValues os)) (l := os.filter fun o => o.type == t)
    fun o ho => encodeObj_isSome (h o (List.mem_of_mem_filter ho))
  refine ⟨l.flatMap record, ?_⟩
  unfold encodeType
  rw [hl]
  rfl

theorem Integrity.of_referring (h : ∀ o ∈ bp.objList, Referring (typesOf bp.objList) o) : Integrity bp := by
  refine ⟨fun o ho r hr => (h o ho).dest hr, ?_, fun o ho => (h o ho).countMatches⟩
  obtain ⟨ants, hants⟩ := encodeType_isSome h .ant
  obtain ⟨grps, hgrps⟩ := encodeType_isSome h .grp
  obtain ⟨bands, hbands⟩ := encodeType_isSome h .band
  unfold encodeBp
  dsimp only
  rw [hants, Option.bind_some, hgrps, Option.bind_some, hbands]
  rfl

/-! ### Runs -/

/-- A call whose references name objects, and that removes none that is referred to. -/
def CallRefsOk (bp : Bandplan) : SmCall → Prop
  | .add j => AddRefsOk (typesOf bp.objList) bp.idCnt j
  | .mod j => ∀ t ∈ ObjType.of (j.intOr "type" (-1)), ∀ o ∈ objById bp.objList (j.intOr "id" (-1)),
      RefsOk (typesOf bp.objList) t (heldBy o.refs) bp.idCnt (refsOf t j)
  | .rem id => ∀ o ∈ bp.objList.eraseP fun o => o.id == id, ∀ r ∈ o.refs, r.destId ≠ id
  | .remRef .. => True
  | .load items => LoadRefsOk (loadedTypes bp.idCnt items) bp.idCnt [] items

instance (bp : Bandplan) : ∀ c, Decidable (CallRefsOk bp c)
  | .add _ => inferInstanceAs (Decidable (AddRefsOk ..))
  | .mod j => inferInstanceAs (Decidable (∀ t ∈ ObjType.of (j.intOr "type" (-1)), ∀ o ∈ objById bp.objList (j.intOr "id" (-1)),
      RefsOk (typesOf bp.objList) t (heldBy o.refs) bp.idCnt (refsOf t j)))
  | .rem id => inferInstanceAs (Decidable (∀ o ∈ bp.objList.eraseP fun o =>
    o.id == id, ∀ r ∈ o.refs, r.destId ≠ id))
  | .remRef .. => inferInstanceAs (Decidable True)
  | .load _ => inferInstanceAs (Decidable (LoadRefsOk ..))

/-- A step whose ids and references are as they should be; a bulk load finds a band plan. -/
def StepRefsOk (s : Option (Option Bandplan)) (op : SmOp) : Prop :=
  StepIdsOk s op ∧
    match op with
    | .call c => ∀ p ∈ s, (p = none → c.isLoad = false) ∧ ∀ bp ∈ p, CallRefsOk bp c
    | .setOpt _ => True

instance (s : Option (Option Bandplan)) : ∀ op, Decidable (StepRefsOk s op)
  | .call c => inferInstanceAs (Decidable (StepIdsOk s (.call c) ∧
      ∀ p ∈ s, (p = none → c.isLoad = false) ∧ ∀ bp ∈ p, CallRefsOk bp c))
  | .setOpt write => inferInstanceAs (Decidable (StepIdsOk s (.setOpt write) ∧ True))

/-- After a step nothing missing was dereferenced and the references are kept. -/
def KeepsReferences (L : Layout) (s : Option (Option Bandplan)) (op : SmOp) : Prop :=
  smStep L s op ≠ none ∧ ∀ p ∈ smStep L s op, ∀ bp ∈ p, Integrity bp

/-- A run that goes on, with ids and references as they should be. -/
def Sound (s : Option (Option Bandplan)) : Prop :=
  ∃ p, s = some p ∧ ∀ bp ∈ p, Identified bp ∧ ∀ o ∈ bp.objList, Referring (typesOf bp.objList) o

theorem Referring.remObj (h : ∀ o ∈ bp.objList, Referring (typesOf bp.objList) o) (hok : CallRefsOk bp (.rem id)) :
    ∀ o ∈ (bp.remObj id).1.objList, Referring (typesOf (bp.remObj id).1.objList) o := by
  unfold Bandplan.remObj
  split_ifs
  · intro o ho
    have hlinked := h o (List.eraseP_subset ho)
    refine ⟨fun r hr => ?_, hlinked.count⟩
    have hfits := hlinked.fits r hr
    unfold Fits at hfits ⊢
    rw [lookup_typesOf] at hfits ⊢
    rw [objById_eraseP (hok o ho r hr)]
    exact hfits
  · exact h

theorem Referring.remObjRef (h : ∀ o ∈ bp.objList, Referring K o) (objId refId : Int) :
    (∀ o ∈ (bp.remObjRef objId refId).1.objList, Referring K o) ∧
      typesOf (bp.remObjRef objId refId).1.objList = typesOf bp.objList := by
  unfold Bandplan.remObjRef
  cases ho : objById bp.objList objId with
  | none => exact ⟨h, rfl⟩
  | some o =>
    obtain ⟨homem, hoid⟩ := objById_mem ho
    dsimp only
    split_ifs
    · refine ⟨fun x hx => ?_, typesOf_setObj (x := o) ?_ rfl⟩
      · rcases mem_setObj hx with rfl | hx
        · refine ⟨fun r hr => (h o homem).fits r (List.eraseP_subset hr), ?_⟩
          exact Nat.lt_of_le_of_lt List.eraseP_sublist.length_le (h o homem).count
        · exact h x hx
      · rw [hoid]
        exact ho
    · exact ⟨h, rfl⟩

theorem Referring.call {c : SmCall} (hid : Identified bp) (hids : IdsOk bp c)
    (h : ∀ o ∈ bp.objList, Referring (typesOf bp.objList) o) (hok : CallRefsOk bp c) :
    ∀ o ∈ (bp.call L c).1.objList, Referring (typesOf (bp.call L c).1.objList) o := by
  cases c with
  | add j =>
    obtain ⟨hlinked, -, os, hos⟩ := Referring.addObjJson (L := L) hid hids h hok
    intro o ho
    unfold Bandplan.call
    dsimp only
    rw [hos]
    exact (hlinked o ho).append os
  | mod j =>
    unfold Bandplan.call
    dsimp only
    rcases modObjJson_cases L bp j with ⟨-, heq⟩ | ⟨t, o, ht, ho, -⟩
    · rw [heq]
      exact h
    · obtain ⟨hlinked, htypes⟩ := Referring.modObjJson (L := L) h ht ho (hids t ht o ho).1 (hok t ht o ho)
      rw [htypes]
      exact hlinked
  | rem id => exact Referring.remObj h hok
  | remRef objId refId =>
    obtain ⟨hlinked, htypes⟩ := Referring.remObjRef h objId refId
    unfold Bandplan.call
    dsimp only
    rw [htypes]
    exact hlinked
  | load items =>
    have hclear : Identified bp.clearObjList :=
      ⟨List.nodup_nil, hid.counts, fun o ho => absurd ho List.not_mem_nil, fun o ho => absurd ho List.not_mem_nil⟩
    obtain ⟨hlinked, hmap, htypes⟩ := Referring.loadItems (L := L) hclear hids
      (fun o ho => absurd ho List.not_mem_nil) hok
    have hK : typesOf (bp.call L (.load items)).1.objList = loadedTypes bp.idCnt items := by
      rw [typesOf_eq_zip]
      exact congrArg₂ List.zip hmap htypes
    rw [hK]
    exact hlinked

theorem Sound.step {s : Option (Option Bandplan)} {op : SmOp} (h : Sound s) (hok : StepRefsOk s op) :
    Sound (smStep L s op) := by
  obtain ⟨p, rfl, hp⟩ := h
  obtain ⟨hids, hrefs⟩ := hok
  have hident := StateIdentified.step (L := L) (s := some p)
    (fun p' hp' bp hbp => by rw [← Option.some.inj hp'] at hbp; exact (hp bp hbp).1) hids
  cases op with
  | setOpt write =>
    refine ⟨_, rfl, fun bp hbp => ⟨hident _ rfl bp hbp, ?_⟩⟩
    rw [← Option.some.inj hbp]
    cases p with
    | none => exact fun o ho => absurd ho List.not_mem_nil
    | some bp' => exact (hp bp' rfl).2
  | call c =>
    obtain ⟨hload, hcall⟩ := hrefs p rfl
    cases p with
    | none =>
      have hc := hload rfl
      refine ⟨none, ?_, nofun⟩
      cases c with
      | load => exact nomatch hc
      | _ => rfl
    | some bp =>
      have hstep : smStep L (some (some bp)) (.call c) = some (some (bp.call L c).1) := by
        cases c <;> rfl
      rw [hstep] at hident ⊢
      refine ⟨_, rfl, fun bp' hbp' => ⟨hident _ rfl bp' hbp', ?_⟩⟩
      rw [← Option.some.inj hbp']
      exact Referring.call (hp bp rfl).1 (hids _ rfl bp rfl) (hp bp rfl).2 (hcall bp rfl)

theorem Sound.integrity {s : Option (Option Bandplan)} (h : Sound s) :
    s ≠ none ∧ ∀ p ∈ s, ∀ bp ∈ p, Integrity bp := by
  obtain ⟨p, rfl, hp⟩ := h
  refine ⟨nofun, fun p' hp' bp hbp => ?_⟩
  rw [← Option.some.inj hp'] at hbp
  exact .of_referring (hp bp hbp).2

/-- In every run whose requests name objects and whose removed objects aren't referred to, every reference
names an object of the type it expects after every step, and nothing missing is dereferenced. -/
theorem references_kept (L : Layout) (ops : List SmOp) (hok : Run.StepsOk (smStep L) StepRefsOk (some none) ops) :
    Run.StepsOk (smStep L) (KeepsReferences L) (some none) ops :=
  Run.StepsOk.of_inv (I := Sound) (fun _ _ h hok => ⟨h.step hok, (h.step hok).integrity⟩) ⟨none, rfl, nofun⟩ hok

/-- A request for a group with a reference. -/
def groupRequest (id destId : Int) : Json :=
  .obj [("type", .int 1), ("id", .int id), ("refs", .arr [.obj [("dest_id", .int destId)]])]

/-- An antenna that a group refers to is removed, and there's a bulk load before there's a band plan. -/
theorem references_lost :
    ¬Run.StepsOk (smStep .apart) (KeepsReferences .apart) (some none)
        [.setOpt fun d => d, .call (.add (request 0 1 [0x41])), .call (.add (groupRequest 2 1)), .call (.rem 1)] ∧
      ¬Run.StepsOk (smStep .apart) (KeepsReferences .apart) (some none) [.call (.load [])] := by
  constructor
  · intro h
    exact absurd (h.2.2.2.1.2 _ rfl _ rfl).encodes (by decide +kernel)
  · intro h
    exact h.1.1 rfl

theorem references_kept_group :
    Run.StepsOk (smStep .apart) (KeepsReferences .apart) (some none)
      (objRun [.arr [groupRequest 2 1, request 0 1 [0x41]], (groupRequest 0 1).withAction "add",
        (groupRequest 2 1).withAction "mod", (groupRequest 2 1).withAction "rem"]) :=
  references_kept .apart _ (by decide +kernel)

end Mhuxd
