import Mhuxd.SmDownload

/-!
# Edits in the middle of a download

While `sm_get_antsw` waits for a block the interface is served, and its calls work on the list whose last
object takes the next bytes. A download is left alone as long as these calls are refused and a command
fails only while there's no record yet (`download_kept`).
-/

namespace Mhuxd

/-! ### Runs -/

/-- A Station Master, none if a missing object was dereferenced, with the bytes its download has got. -/
structure Download where
  sm : Option Sm
  received : List UInt8
deriving DecidableEq

inductive SmEvent
  | get | reply (r : SmReply) | call (c : SmCall) | setOpt (write : List UInt8 → List UInt8)

/-- The bytes of a reply, if it's one to a block. -/
def SmReply.block : SmReply → List UInt8
  | failed => []
  | data buf => if buf.length = 34 then (buf.drop 1).take 32 else []

def Download.step (L : Layout) (d : Download) (e : SmEvent) : Download :=
  match d.sm with
  | none => d
  | some sm =>
    match e with
    | .get => ⟨some sm.getAntsw.1, if sm.busy then d.received else []⟩
    | .reply r => ⟨sm.reply L r, d.received ++ r.block⟩
    | .call c => ⟨(smCall L sm.bp c).map fun r => { sm with bp := r.1 }, d.received⟩
    | .setOpt write => ⟨some { sm with bp := some (smSetOpt sm.bp write) }, d.received⟩

/-- No download yet. -/
def Download.create : Download := ⟨some .create, []⟩

/-! ### What keeps a download apart -/

/-- A call that changes nothing: its type or its object is unknown. -/
def Refused (bp : Bandplan) : SmCall → Prop
  | .add j => ObjType.of (j.intOr "type" (-1)) = none
  | .mod j => ObjType.of (j.intOr "type" (-1)) = none ∨ objById bp.objList (j.intOr "id" (-1)) = none
  | .rem id => objById bp.objList id = none
  | .remRef objId refId => ∀ o ∈ objById bp.objList objId, refById o.refs refId = none
  | .load items => bp.objList = [] ∧ ∀ j ∈ items, ObjType.of (j.intOr "type" (-1)) = none

instance (bp : Bandplan) : ∀ c, Decidable (Refused bp c)
  | .add j => inferInstanceAs (Decidable (ObjType.of (j.intOr "type" (-1)) = none))
  | .mod j => inferInstanceAs (Decidable (ObjType.of (j.intOr "type" (-1)) = none ∨ objById bp.objList (j.intOr "id" (-1)) = none))
  | .rem id => inferInstanceAs (Decidable (objById bp.objList id = none))
  | .remRef objId refId => inferInstanceAs (Decidable (∀ o ∈ objById bp.objList objId, refById o.refs refId = none))
  | .load items => inferInstanceAs (Decidable (bp.objList = [] ∧ ∀ j ∈ items, ObjType.of (j.intOr "type" (-1)) = none))

/-- A command fails only before the first record, calls in a download are refused, and a bulk load finds a
band plan. -/
def EventOk (d : Download) : SmEvent → Prop
  | .get | .setOpt _ => True
  | .reply r => ∀ sm ∈ d.sm, ∀ bp ∈ sm.bp, sm.busy = true → r.block = [] → bp.objList = []
  | .call c => ∀ sm ∈ d.sm, (sm.bp = none → c.isLoad = false) ∧ (sm.busy = true → ∀ bp ∈ sm.bp, Refused bp c)

instance (d : Download) : ∀ e, Decidable (EventOk d e)
  | .get | .setOpt _ => inferInstanceAs (Decidable True)
  | .reply r => inferInstanceAs (Decidable (∀ sm ∈ d.sm, ∀ bp ∈ sm.bp, sm.busy = true → r.block = [] →
    bp.objList = []))
  | .call c => inferInstanceAs (Decidable (∀ sm ∈ d.sm,
      (sm.bp = none → c.isLoad = false) ∧ (sm.busy = true → ∀ bp ∈ sm.bp, Refused bp c)))

/-- The objects of the records in the bytes of a download, not decoded yet, with the counter. -/
def recordObjects (bytes : List UInt8) : List Object × Int := objectsOf 0 (records .ant (bytes.drop 115)).1

/-- The objects decoded from them. -/
def decodedObjects (bytes : List UInt8) : List Object :=
  (Bandplan.decode ⟨[], (recordObjects bytes).1, (recordObjects bytes).2⟩).objList

/-- A step that lets a download alone: nothing missing is dereferenced; in a download there are the records'
objects with their bytes; at its end they're decoded, and after a failure there are none of them. -/
structure KeepsApart (L : Layout) (d : Download) (e : SmEvent) : Prop where
  alive : (d.step L e).sm ≠ none
  own : ∀ sm ∈ (d.step L e).sm, sm.busy = true →
    ∃ bp, sm.bp = some bp ∧ bp.objList = (recordObjects (d.step L e).received).1
  succeeded : ∀ sm ∈ d.sm, sm.busy = true → ∀ sm' ∈ (d.step L e).sm, sm'.state = .done →
    ∃ bp, sm'.bp = some bp ∧ bp.objList = decodedObjects (d.step L e).received
  failed : ∀ sm ∈ d.sm, sm.busy = true → ∀ sm' ∈ (d.step L e).sm, sm'.state = .empty →
    ∀ bp ∈ sm'.bp, ∀ o ∈ bp.objList, o ∉ (recordObjects (d.step L e).received).1

variable {L : Layout} {d : Download} {sm sm' : Sm} {received : List UInt8} {bp : Bandplan} {c : SmCall}

theorem Refused.call_eq (h : Refused bp c) : (bp.call L c).1 = bp := by
  cases c with
  | add j =>
    have h' : ObjType.of (j.intOr "type" (-1)) = none := h
    unfold Bandplan.call Bandplan.addObjJson
    dsimp only
    rw [h']
  | mod j =>
    unfold Bandplan.call Bandplan.modObjJson
    dsimp only
    rcases h with h | h
    · rw [h]
    · rw [h]
      cases ObjType.of (j.intOr "type" (-1)) <;> rfl
  | rem id =>
    have h' : objById bp.objList id = none := h
    unfold Bandplan.call Bandplan.remObj
    dsimp only
    rw [h']
    rfl
  | remRef objId refId =>
    unfold Bandplan.call Bandplan.remObjRef
    dsimp only
    cases ho : objById bp.objList objId with
    | none => rfl
    | some o =>
      dsimp only
      rw [h o ho]
      rfl
  | load items =>
    obtain ⟨hnil, hitems⟩ := h
    have hclear : bp.clearObjList = bp := by
      unfold Bandplan.clearObjList
      rw [← hnil]
    unfold Bandplan.call
    dsimp only
    rw [hclear]
    clear hclear
    induction items with
    | nil => rfl
    | cons j items ih =>
      have hadd : bp.addObjJson L j = (bp, false) := by
        unfold Bandplan.addObjJson
        rw [hitems j List.mem_cons_self]
      have hrest := ih fun j hj => hitems j (List.mem_cons_of_mem _ hj)
      rw [Bandplan.loadItems, hadd]
      split_ifs
      · exact hrest
      · exact hrest

/-! ### Steps -/

/-- A download waits for its next block, or none is going on. -/
def Apart (L : Layout) (d : Download) : Prop :=
  ∃ sm, d.sm = some sm ∧ ((sm.busy = false ∧ sm.request = none) ∨ sm.Reading L d.received)

theorem Sm.Reading.objects (h : sm.Reading L received) :
    ∃ bp, sm.bp = some bp ∧ bp.objList = (recordObjects received).1 := by
  obtain ⟨g, f, hg, -, rfl⟩ := h
  exact ⟨_, rfl, (congrArg Prod.fst (Getting.of_start hg).1 :)⟩

theorem Sm.Reading.setFixed (h : sm.Reading L received) (write : List UInt8 → List UInt8) :
    Sm.Reading L { sm with bp := some (smSetOpt sm.bp write) } received := by
  obtain ⟨g, f, hg, hdone, rfl⟩ := h
  exact ⟨g, write f, hg, hdone, rfl⟩

/-- The decoded objects don't depend on the fixed data. -/
theorem decode_objList (bp : Bandplan) (f : List UInt8) :
    { bp with fixedData := f }.decode.objList = (Bandplan.decode ⟨[], bp.objList, bp.idCnt⟩).objList := rfl

/-- A step without a download, after it. -/
theorem KeepsApart.of_idle {e : SmEvent} (hsm : (d.step L e).sm = some sm') (hidle : sm'.busy = false)
    (hd : ∀ sm ∈ d.sm, sm.busy = false) : KeepsApart L d e := by
  refine ⟨?_, fun sm hsm'' hbusy => ?_, fun sm hsm'' hbusy => ?_, fun sm hsm'' hbusy => ?_⟩
  · rw [hsm]
    exact nofun
  · rw [hsm] at hsm''
    rw [← Option.some.inj hsm'', hidle] at hbusy
    exact nomatch hbusy
  · rw [hd sm hsm''] at hbusy
    exact nomatch hbusy
  · rw [hd sm hsm''] at hbusy
    exact nomatch hbusy

/-- A step into a download, or one of it. -/
theorem KeepsApart.of_reading {e : SmEvent} (hsm : (d.step L e).sm = some sm')
    (hread : sm'.Reading L (d.step L e).received) : KeepsApart L d e := by
  have hbusy : sm'.state ≠ .done ∧ sm'.state ≠ .empty := by
    have hb := hread.busy
    simp only [Sm.busy, bne_iff_ne, Bool.and_eq_true] at hb
    exact ⟨hb.2, hb.1⟩
  refine ⟨?_, fun sm hsm'' _ => ?_, fun _ _ _ sm hsm'' hstate => ?_, fun _ _ _ sm hsm'' hstate => ?_⟩
  · rw [hsm]
    exact Option.some_ne_none _
  · rw [hsm] at hsm''
    rw [← Option.some.inj hsm'']
    exact hread.objects
  · rw [hsm] at hsm''
    rw [← Option.some.inj hsm''] at hstate
    exact absurd hstate hbusy.1
  · rw [hsm] at hsm''
    rw [← Option.some.inj hsm''] at hstate
    exact absurd hstate hbusy.2

/-- A failure before the first record. -/
theorem KeepsApart.of_failure {e : SmEvent}
    (hstep : d.step L e = ⟨some { sm with state := .empty, request := none }, received⟩)
    (hnil : ∀ bp ∈ sm.bp, bp.objList = []) : Apart L (d.step L e) ∧ KeepsApart L d e := by
  refine ⟨⟨_, congrArg Download.sm hstep, .inl ⟨rfl, rfl⟩⟩, ?_⟩
  refine ⟨?_, fun sm' hsm' hbusy => ?_, fun _ _ _ sm' hsm' hstate => ?_, fun _ _ _ sm' hsm' _ bp hbp o ho => ?_⟩
  · rw [hstep]
    exact nofun
  · rw [hstep] at hsm'
    rw [← Option.some.inj hsm'] at hbusy
    exact nomatch hbusy
  · rw [hstep] at hsm'
    rw [← Option.some.inj hsm'] at hstate
    exact nomatch hstate
  · rw [hstep] at hsm'
    rw [← Option.some.inj hsm'] at hbp
    rw [hnil bp hbp] at ho
    exact absurd ho List.not_mem_nil

/-- The last block. -/
theorem KeepsApart.of_done {e : SmEvent} {g : Getting} {f : List UInt8} {offset : UInt16}
    (hg : Getting.bytes L 0 received .start = some g)
    (hstep : d.step L e = ⟨some ⟨some { g.bp with fixedData := f }.decode, .done, offset, g.toRead, none⟩, received⟩) :
    Apart L (d.step L e) ∧ KeepsApart L d e := by
  refine ⟨⟨_, congrArg Download.sm hstep, .inl ⟨rfl, rfl⟩⟩, ?_⟩
  refine ⟨?_, fun sm' hsm' hbusy => ?_, fun _ _ _ sm' hsm' _ => ?_, fun _ _ _ sm' hsm' hstate => ?_⟩
  · rw [hstep]
    exact nofun
  · rw [hstep] at hsm'
    rw [← Option.some.inj hsm'] at hbusy
    exact nomatch hbusy
  · rw [hstep] at hsm' ⊢
    rw [← Option.some.inj hsm']
    refine ⟨_, rfl, ?_⟩
    unfold decodedObjects recordObjects
    rw [← (Getting.of_start hg).1]
    exact decode_objList g.bp f
  · rw [hstep] at hsm'
    rw [← Option.some.inj hsm'] at hstate
    exact nomatch hstate

theorem Apart.get (h : Apart L d) : Apart L (d.step L .get) ∧ KeepsApart L d .get := by
  obtain ⟨sm, hsm, ⟨hbusy, -⟩ | hread⟩ := h
  · have hstep : d.step L .get = ⟨some sm.getAntsw.1, []⟩ := by
      unfold Download.step
      rw [hsm]
      dsimp only
      rw [if_neg (by rw [hbusy]; exact Bool.false_ne_true)]
    have hread : sm.getAntsw.1.Reading L (d.step L .get).received := by
      rw [hstep]
      exact (Sm.Reading.getAntsw hbusy).2
    exact ⟨⟨_, congrArg Download.sm hstep, .inr hread⟩, .of_reading (congrArg Download.sm hstep) hread⟩
  · have hstep : d.step L .get = ⟨some sm, d.received⟩ := by
      unfold Download.step Sm.getAntsw
      rw [hsm]
      dsimp only
      rw [if_pos hread.busy, if_pos hread.busy]
    have hread' : sm.Reading L (d.step L .get).received := by
      rw [hstep]
      exact hread
    exact ⟨⟨_, congrArg Download.sm hstep, .inr hread'⟩, .of_reading (congrArg Download.sm hstep) hread'⟩

theorem Apart.reply (h : Apart L d) {r : SmReply} (hok : EventOk d (.reply r)) :
    Apart L (d.step L (.reply r)) ∧ KeepsApart L d (.reply r) := by
  obtain ⟨sm, hsm, ⟨hbusy, hreq⟩ | hread⟩ := h
  · have hstep : (d.step L (.reply r)).sm = some sm := by
      unfold Download.step Sm.reply
      rw [hsm]
      dsimp only
      rw [hreq]
    refine ⟨⟨sm, hstep, .inl ⟨hbusy, hreq⟩⟩, .of_idle hstep hbusy fun sm' hsm' => ?_⟩
    rw [hsm] at hsm'
    rw [← Option.some.inj hsm']
    exact hbusy
  · have hstep : d.step L (.reply r) = ⟨sm.reply L r, d.received ++ r.block⟩ := by
      unfold Download.step
      rw [hsm]
    obtain ⟨offset, hreq⟩ : ∃ offset, sm.request = some offset := by
      obtain ⟨g, f, -, -, rfl⟩ := hread
      exact ⟨_, rfl⟩
    have hfail : r.block = [] → sm.reply L r = some { sm with state := .empty, request := none } →
        Apart L (d.step L (.reply r)) ∧ KeepsApart L d (.reply r) := by
      intro hblock hreply
      have hfailed : d.step L (.reply r) = ⟨some { sm with state := .empty, request := none }, d.received⟩ := by
        rw [hstep, hreply, hblock, List.append_nil]
      exact KeepsApart.of_failure hfailed fun bp hbp => hok sm hsm bp hbp hread.busy hblock
    cases r with
    | failed =>
      refine hfail rfl ?_
      unfold Sm.reply Sm.completion
      rw [hreq]
    | data buf =>
      by_cases hbuf : buf.length = 34
      · have hblock : (SmReply.data buf).block = (buf.drop 1).take 32 := if_pos hbuf
        rw [hblock] at hstep
        obtain ⟨g, hg, ⟨-, sm', hreply, hread'⟩ | ⟨-, f, offset, hreply⟩⟩ := hread.data buf hbuf
        · have hread'' : sm'.Reading L (d.step L (.reply (.data buf))).received := by
            rw [hstep]
            exact hread'
          have hsm' : (d.step L (.reply (.data buf))).sm = some sm' := by
            rw [hstep, hreply]
          exact ⟨⟨sm', hsm', .inr hread''⟩, .of_reading hsm' hread''⟩
        · rw [hreply] at hstep
          exact KeepsApart.of_done hg hstep
      · refine hfail (if_neg hbuf) ?_
        unfold Sm.reply Sm.completion
        rw [hreq]
        exact if_pos hbuf

theorem Apart.call (h : Apart L d) (hok : EventOk d (.call c)) :
    Apart L (d.step L (.call c)) ∧ KeepsApart L d (.call c) := by
  obtain ⟨sm, hsm, hcase⟩ := h
  obtain ⟨hload, hrefused⟩ := hok sm hsm
  have hstep : d.step L (.call c) = ⟨(smCall L sm.bp c).map fun r => { sm with bp := r.1 }, d.received⟩ := by
    unfold Download.step
    rw [hsm]
  rcases hcase with ⟨hbusy, hreq⟩ | hread
  · obtain ⟨r, hr⟩ : ∃ r, smCall L sm.bp c = some r := by
      cases hbp : sm.bp with
      | some bp => cases c <;> exact ⟨_, rfl⟩
      | none =>
        have := hload hbp
        cases c with
        | load => exact nomatch this
        | _ => exact ⟨_, rfl⟩
    rw [hr] at hstep
    refine ⟨⟨_, congrArg Download.sm hstep, .inl ⟨hbusy, hreq⟩⟩,
      .of_idle (congrArg Download.sm hstep) hbusy fun sm' hsm' => ?_⟩
    rw [hsm] at hsm'
    rw [← Option.some.inj hsm']
    exact hbusy
  · obtain ⟨bp, hbp, -⟩ := hread.objects
    have hcall : smCall L sm.bp c = some (sm.bp, (bp.call L c).2) := by
      have heq := (hrefused hread.busy bp hbp).call_eq (L := L)
      rw [hbp]
      cases c <;> exact congrArg (fun b => some (some b, _)) heq
    rw [hcall] at hstep
    have hread' : sm.Reading L (d.step L (.call c)).received := by
      rw [hstep]
      exact hread
    exact ⟨⟨sm, congrArg Download.sm hstep, .inr hread'⟩, .of_reading (congrArg Download.sm hstep) hread'⟩

theorem Apart.setOpt (h : Apart L d) (write : List UInt8 → List UInt8) :
    Apart L (d.step L (.setOpt write)) ∧ KeepsApart L d (.setOpt write) := by
  obtain ⟨sm, hsm, hcase⟩ := h
  have hstep : d.step L (.setOpt write) = ⟨some { sm with bp := some (smSetOpt sm.bp write) }, d.received⟩ := by
    unfold Download.step
    rw [hsm]
  rcases hcase with ⟨hbusy, hreq⟩ | hread
  · refine ⟨⟨_, congrArg Download.sm hstep, .inl ⟨hbusy, hreq⟩⟩,
      .of_idle (congrArg Download.sm hstep) hbusy fun sm' hsm' => ?_⟩
    rw [hsm] at hsm'
    rw [← Option.some.inj hsm']
    exact hbusy
  · have hread' : Sm.Reading L { sm with bp := some (smSetOpt sm.bp write) } (d.step L (.setOpt write)).received := by
      rw [hstep]
      exact hread.setFixed write
    exact ⟨⟨_, congrArg Download.sm hstep, .inr hread'⟩, .of_reading (congrArg Download.sm hstep) hread'⟩

theorem Apart.step {e : SmEvent} (h : Apart L d) (hok : EventOk d e) :
    Apart L (d.step L e) ∧ KeepsApart L d e := by
  cases e with
  | get => exact h.get
  | reply r => exact h.reply hok
  | call c => exact h.call hok
  | setOpt write => exact h.setOpt write

/-- In every run whose calls in a download are refused and whose commands fail before the first record only,
every step lets the download alone. -/
theorem download_kept (L : Layout) (evs : List SmEvent) (hok : Run.StepsOk (Download.step L) EventOk .create evs) :
    Run.StepsOk (Download.step L) (KeepsApart L) .create evs :=
  Run.StepsOk.of_inv (I := Apart L) (fun _ _ h hok => h.step hok) ⟨.create, rfl, .inl ⟨rfl, rfl⟩⟩ hok

/-- The device's answers with these bytes, 32 each. -/
def blocks (bs : List (List UInt8)) : List SmEvent := bs.map fun b => .reply (.data (0x43 :: b ++ [0xc3]))

/-- A download up to the middle of an antenna of 60 bytes. -/
def midRecord : List SmEvent :=
  .get :: blocks [List.replicate 32 0, List.replicate 32 0, List.replicate 32 0,
    List.replicate 19 0 ++ 60 :: List.replicate 12 0x41]

/-- In the middle of a record its object is removed, an antenna is added, or the next command fails. -/
theorem download_disturbed :
    ¬Run.StepsOk (Download.step .apart) (KeepsApart .apart) .create
        (midRecord ++ .call (.rem 1) :: blocks [List.replicate 32 0]) ∧
      ((Run.run (Download.step .apart) .create
          (midRecord ++ .call (.add (.obj [("type", .int 0)])) :: blocks [List.replicate 32 0x42])).sm.bind fun sm =>
        sm.bp.map fun bp => bp.objList.map Object.raw) = some [List.replicate 12 0x41, List.replicate 32 0x42] ∧
      ((Run.run (Download.step .apart) .create (midRecord ++ [.reply .failed])).sm.bind fun sm =>
        sm.bp.map fun bp => (sm.state, bp.objList.map Object.raw)) = some (.empty, [List.replicate 12 0x41]) := by
  refine ⟨fun h => ?_, by decide +kernel, by decide +kernel⟩
  exact absurd h.2.2.2.2.2.2.1.alive (by decide +kernel)

theorem download_kept_refused :
    Run.StepsOk (Download.step .apart) (KeepsApart .apart) .create
      ([.call (.rem 1), .get, .reply .failed, .call (.load [])] ++ midRecord ++
        .call (.mod (.obj [("type", .int 0), ("id", .int 7)])) :: blocks [List.replicate 32 0]) :=
  download_kept .apart _ (by decide +kernel)

end Mhuxd
