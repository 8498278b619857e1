import Mhuxd.CatPublish
import Mhuxd.AsciiReplay
import Mhuxd.YbinReplay

/-!
# Published infos are fresh

A decoder that changes what is to be told has applied a frame (`TracksState`), answers that are stored in part aside. So
with no publishing due the info published last is that of the present state.
-/

namespace Mhuxd

variable {st st' st'' : CatState} {t : Nat}

/-! ### States that are told alike -/

/-- Two states are told alike. -/
structure SameInfo (st st' : CatState) : Prop where
  told : ∀ radio, st'.toRadioInfo radio = st.toRadioInfo radio
  waits : st'.waits = st.waits

theorem SameInfo.refl : SameInfo st st := ⟨fun _ => rfl, rfl⟩

theorem SameInfo.of_eq (h : st' = st) : SameInfo st st' := h ▸ .refl

theorem SameInfo.trans (h : SameInfo st st') (h' : SameInfo st' st'') : SameInfo st st'' :=
  ⟨fun radio => (h'.told radio).trans (h.told radio), h'.waits.trans h.waits⟩

/-- The VFO is taken to be A while nothing is known. -/
theorem sameInfo_select (t : Nat) : SameInfo .init (CatState.init.selectVfo false t) := ⟨fun _ => rfl, rfl⟩

/-- The frames given to the callback grow, and one of them was applied if the states aren't told alike. -/
structure TracksState (st : CatState) (out : List Emit) (st' : CatState) (out' : List Emit) : Prop where
  out : out <+: out'
  same : (∀ e ∈ out', e.frame.applied = false) → SameInfo st st'

variable {out out' out'' : List Emit}

theorem TracksState.refl : TracksState st out st out := ⟨List.prefix_rfl, fun _ => .refl⟩

theorem TracksState.trans (h : TracksState st out st' out') (h' : TracksState st' out' st'' out'') : TracksState st out st'' out'' :=
  ⟨h.out.trans h'.out, fun hnone => (h.same fun e he => hnone e (h'.out.subset he)).trans (h'.same hnone)⟩

/-- A frame that doesn't concern the state. -/
theorem TracksState.emit (e : Emit) : TracksState st out st (out ++ [e]) := ⟨List.prefix_append _ _, fun _ => .refl⟩

/-- A frame that is applied, or leaves the state as it was. -/
theorem TracksState.applied {r : Applied} {e : Emit} (h : r = .done ∨ st' = st)
    (he : e.frame.applied = (r == Applied.done)) :
    TracksState st out st' (out ++ [e]) := by
  refine ⟨List.prefix_append _ _, fun hnone => ?_⟩
  rcases h with rfl | rfl
  · exact absurd (hnone e (by simp)) (by simp [he])
  · exact .refl

/-! ### CI-V -/

namespace Civ

variable {civ : Civ} {f : List UInt8} {dir : CatDir} {client : Nat} {src : Src}

/-- A frame is applied, or the state stays. -/
def AllOrNone (st : CatState) (x : CatState × Applied) : Prop := x.2 = .done ∨ x.1 = st

theorem allOrNone_same {r : Applied} : AllOrNone st (st, r) := .inr rfl

theorem allOrNone_done : AllOrNone st (st', .done) := .inl rfl

theorem allOrNone_ite {x y : CatState × Applied} {q : Prop} [Decidable q] (hx : AllOrNone st x)
    (hy : AllOrNone st y) :
    AllOrNone st (if q then x else y) := by
  split_ifs
  · exact hx
  · exact hy

theorem allOrNone_applyFreq (n : Nat) (slot : Vfo) (p : List UInt8) : AllOrNone st (applyFreq st n slot p t) := by
  unfold applyFreq
  cases decFreq n p with
  | none => exact allOrNone_same
  | some hz => exact allOrNone_done

theorem allOrNone_applyMode (slot : Vfo) (p : List UInt8) : AllOrNone st (applyMode st slot p t) := by
  unfold applyMode
  refine allOrNone_ite allOrNone_same ?_
  cases decMode (p.getD 0 0) with
  | none => exact allOrNone_same
  | some mode => exact allOrNone_done

theorem allOrNone_apply25 (n : Nat) (p : List UInt8) : AllOrNone st (apply25 st n p t) := by
  cases p with
  | nil => exact allOrNone_same
  | cons v p => exact allOrNone_ite allOrNone_same (allOrNone_applyFreq n _ p)

theorem allOrNone_apply26 (p : List UInt8) : AllOrNone st (apply26 st p t) := by
  unfold apply26
  refine allOrNone_ite allOrNone_same ?_
  split
  · exact allOrNone_done
  · exact allOrNone_same

theorem allOrNone_apply1a (p : List UInt8) : AllOrNone st (apply1a st p t) := by
  unfold apply1a apply1a06
  refine allOrNone_ite (allOrNone_ite allOrNone_same ?_) allOrNone_same
  cases decData (p.getD 1 0) with
  | none => exact allOrNone_same
  | some data => exact allOrNone_done

theorem allOrNone_apply0f (p : List UInt8) : AllOrNone st (apply0f st p t) := by
  unfold apply0f
  split
  · exact allOrNone_ite allOrNone_done (allOrNone_ite allOrNone_same allOrNone_same)
  · exact allOrNone_same

theorem allOrNone_apply07 (p : List UInt8) : AllOrNone st (apply07 st p t) := by
  unfold apply07
  split
  · split
    · exact allOrNone_done
    · exact allOrNone_done
    · exact allOrNone_done
    · exact allOrNone_done
    · exact allOrNone_same
  · exact allOrNone_same

theorem allOrNone_applyReply (n : Nat) (f : List UInt8) : AllOrNone st (applyReply st n f t) := by
  unfold applyReply
  dsimp only
  split
  · exact allOrNone_applyFreq n .sel _
  · exact allOrNone_applyMode .sel _
  · exact allOrNone_apply0f _
  · exact allOrNone_apply25 n _
  · exact allOrNone_apply26 _
  · exact allOrNone_apply1a _
  · exact allOrNone_same

theorem allOrNone_applyUnsolicited (n : Nat) (f : List UInt8) : AllOrNone st (applyUnsolicited st n f t) := by
  unfold applyUnsolicited
  dsimp only
  split
  · exact allOrNone_applyFreq n .sel _
  · exact allOrNone_applyMode .sel _
  · exact allOrNone_same

theorem allOrNone_applySet (n : Nat) (f : List UInt8) : AllOrNone st (applySet st n f t) := by
  unfold applySet
  dsimp only
  split
  · exact allOrNone_applyFreq n .sel _
  · exact allOrNone_applyMode .sel _
  · exact allOrNone_apply07 _
  · exact allOrNone_apply0f _
  · exact allOrNone_apply25 n _
  · exact allOrNone_apply26 _
  · exact allOrNone_apply1a _
  · exact allOrNone_same

/-- `TracksState`, of two decoders. -/
def Tells (civ civ' : Civ) : Prop := TracksState civ.st civ.out civ'.st civ'.out

theorem tells_emit (civ : Civ) (kind : FrameKind) (dir : CatDir) (f : List UInt8) (own : Bool) (client t : Nat) :
    Tells civ (civ.emit kind dir f false own client t) := .emit _

theorem tells_broadcast : Tells civ (civ.processBroadcast f t) :=
  .applied (allOrNone_applyUnsolicited civ.freqLen f) rfl

theorem tells_ack : Tells civ (civ.processAck f t) := by
  unfold processAck
  dsimp only
  split
  · exact tells_emit ..
  · split
    · exact .refl
    · exact .applied (allOrNone_ite (allOrNone_applySet civ.freqLen _) allOrNone_same) rfl

theorem tells_reply : Tells civ (civ.processReply f t) := by
  unfold processReply
  split
  · exact tells_emit ..
  · split
    · exact .refl
    · exact .applied (allOrNone_applyReply civ.freqLen f) rfl

theorem tells_echo : Tells civ (civ.processEcho f t) := by
  unfold processEcho
  split
  · exact .emit _
  · split
    · exact .refl
    · exact .emit _

theorem tells_radioFrame : Tells civ (civ.processRadioFrame f t) := by
  unfold processRadioFrame
  dsimp only
  split_ifs
  · exact tells_broadcast
  · exact tells_ack
  · exact tells_reply
  · exact tells_echo
  · exact tells_emit ..

theorem learnAddr_kept (civ : Civ) : (civ.learnAddr dir f t).st = civ.st ∧
    (civ.learnAddr dir f t).out = civ.out := by
  unfold learnAddr
  split_ifs <;> exact ⟨rfl, rfl⟩

theorem tells_frame : Tells civ (civ.processFrame dir client f t) := by
  obtain ⟨b, hb, hst, hout⟩ : ∃ b, b = (if (civ.pendExpire t).radioAddr = 0 then (civ.pendExpire t).learnAddr dir f t
      else civ.pendExpire t) ∧ b.st = civ.st ∧ b.out = civ.out := by
    refine ⟨_, rfl, ?_⟩
    split_ifs
    · exact learnAddr_kept (civ.pendExpire t)
    · exact ⟨rfl, rfl⟩
  have htells : Tells b (civ.processFrame dir client f t) := by
    unfold processFrame
    dsimp only
    rw [← hb]
    split_ifs
    · exact tells_emit ..
    · exact tells_radioFrame
    · exact .emit _
    · exact tells_emit ..
  unfold Tells at *
  rwa [hst, hout] at htells

theorem tells_drop : Tells civ (civ.rxDrop dir client src t) := by
  unfold rxDrop
  dsimp only
  split_ifs
  · exact tells_emit ..
  · exact .refl

theorem tells_jam : Tells civ (civ.rxJam dir client src t) := by
  obtain ⟨b, hb, hst, hout⟩ : ∃ b, b = (if dir = .radio then civ.markLost t else civ) ∧ b.st = civ.st ∧
    b.out = civ.out := by
    refine ⟨_, rfl, ?_⟩
    split_ifs <;> exact ⟨rfl, rfl⟩
  have htells : Tells b (civ.rxJam dir client src t) := by
    unfold rxJam
    dsimp only
    rw [← hb]
    exact tells_drop.trans (.emit _)
  unfold Tells at *
  rwa [hst, hout] at htells

theorem tells_rxFrame (b : UInt8) : Tells civ (civ.rxFrame dir client src b t) := by
  unfold rxFrame
  dsimp only
  split_ifs
  · exact tells_drop
  · exact .refl
  · exact tells_frame
  · exact tells_drop
  · exact .refl
  · exact tells_drop

theorem tells_byte (b : UInt8) : Tells civ (civ.rxByte dir client src b t) := by
  have hset : Tells civ (civ.setRx src { civ.rx src with tMs := t }) := .refl
  unfold rxByte
  refine TracksState.trans hset ?_
  generalize civ.setRx src { civ.rx src with tMs := t } = z
  dsimp only
  by_cases hcol : b = CIV_COL
  · rw [if_pos hcol]
    exact tells_jam
  · rw [if_neg hcol]
    cases (z.rx src).state with
    | idle =>
      dsimp only
      split_ifs <;> exact .refl
    | pre =>
      dsimp only
      split_ifs <;> exact .refl
    | frame => exact tells_rxFrame b
    | skip =>
      dsimp only
      split_ifs <;> exact .refl

/-- Whatever is fed to a CI-V decoder, a frame that changes what is told is applied. -/
theorem tells_feed (buf : List UInt8) : Tells civ (civ.feed dir client buf t) := by
  unfold feed
  split
  · exact .refl
  · induction buf generalizing civ with
    | nil => exact .refl
    | cons b buf ih => exact (tells_byte b).trans ih

/-- Commands store nothing: CI-V waits for the answer. -/
theorem feed_st (hd : dir ≠ .radio) (client : Nat) (buf : List UInt8) (t : Nat) :
    (civ.feed dir client buf t).st = civ.st := by
  have hframe (c : Civ) (cl : Nat) (f : List UInt8) : (c.processFrame dir cl f t).st = c.st := by
    unfold processFrame
    dsimp only
    split_ifs
    all_goals first | rfl | exact (learnAddr_kept (c.pendExpire t)).1
  have hdrop (c : Civ) (cl : Nat) (src : Src) : (c.rxDrop dir cl src t).st = c.st := by
    unfold rxDrop
    dsimp only
    split_ifs <;> rfl
  have hjam (c : Civ) (cl : Nat) (src : Src) : (c.rxJam dir cl src t).st = c.st := by
    unfold rxJam
    rw [if_neg hd]
    exact hdrop c cl src
  have hin (c : Civ) (cl : Nat) (src : Src) (b : UInt8) : (c.rxFrame dir cl src b t).st = c.st := by
    unfold rxFrame
    dsimp only
    split_ifs
    all_goals first | rfl | exact hframe c cl _ | exact hdrop c cl src
  have hbyte (c : Civ) (cl : Nat) (src : Src) (b : UInt8) : (c.rxByte dir cl src b t).st = c.st := by
    unfold rxByte
    dsimp only
    by_cases hcol : b = CIV_COL
    · rw [if_pos hcol]
      exact hjam _ cl src
    · rw [if_neg hcol]
      split
      · split_ifs <;> rfl
      · split_ifs <;> rfl
      · exact hin _ cl src b
      · split_ifs <;> rfl
  unfold feed
  cases Src.of dir client with
  | none => rfl
  | some src =>
    dsimp only
    generalize (if dir = .host then client else 0) = cl
    induction buf generalizing civ with
    | nil => rfl
    | cons b buf ih => exact ih.trans (hbyte civ cl src b)

end Civ

/-- Nothing is known, or which VFO is selected is. -/
def Settled (st : CatState) : Prop := st = .init ∨ st.vfoAb.valid = true

/-! ### The ASCII protocols -/

namespace Ascii

variable {a : Ascii} {s f : List UInt8} {dir : CatDir} {client : Nat} {src : Src}

/-- A selection that's known stays known. -/
def Sel (a : Ascii) (x : Ascii × Applied) : Prop := a.st.vfoAb.valid = true → x.1.st.vfoAb.valid = true

theorem sel_same {r : Applied} : Sel a (a, r) := id

theorem sel_ite {x y : Ascii × Applied} {q : Prop} [Decidable q] (hx : Sel a x) (hy : Sel a y) :
    Sel a (if q then x else y) := by
  split_ifs
  · exact hx
  · exact hy

theorem setFreq_vfoAb (ab : Bool) (hz : Nat) : (a.setFreq ab hz t).st.vfoAb = a.st.vfoAb := Ybin.setFreq_vfoAb ..

theorem setMode_vfoAb (slot : Vfo) (m : ModeData) : (a.setMode slot m t).st.vfoAb = a.st.vfoAb := by
  unfold setMode
  dsimp only
  split_ifs
  · rw [Ybin.setData_vfoAb, Ybin.setMode_vfoAb]
  · rw [Ybin.setMode_vfoAb]

theorem k3Apply_vfoAb (ab : Bool) : (a.k3Apply ab t).st.vfoAb = a.st.vfoAb := by
  unfold k3Apply
  dsimp only
  split_ifs
  · rfl
  · exact setMode_vfoAb _ _
  · split
    · rfl
    · exact setMode_vfoAb _ _

theorem setModeIf_vfoAb (ab : Bool) (m : Option ModeData) : (a.setModeIf ab m t).1.st.vfoAb = a.st.vfoAb := by
  cases m with
  | none => rfl
  | some m => exact setMode_vfoAb _ m

theorem applyModeCode_vfoAb (ab : Bool) (c : UInt8) (dataCodes : Bool) :
    (a.applyModeCode ab c dataCodes t).1.st.vfoAb = a.st.vfoAb := by
  unfold applyModeCode
  cases a.dialect with
  | elecraft =>
    dsimp only
    split_ifs
    · rfl
    · exact k3Apply_vfoAb ab
  | flex => exact setModeIf_vfoAb ab _
  | yaesu => exact setModeIf_vfoAb ab _
  | kenwood => exact setModeIf_vfoAb ab _

theorem updateSplit_vfoAb : (a.updateSplit t).st.vfoAb = a.st.vfoAb := by
  unfold updateSplit
  cases a.txAb <;> rfl

theorem sel_applyModeCode (ab : Bool) (c : UInt8) (dataCodes : Bool) :
    Sel a (a.applyModeCode ab c dataCodes t) := by
  unfold Sel
  rw [applyModeCode_vfoAb]
  exact id

theorem sel_modeAfterFreq (ab ab' : Bool) (hz : Nat) (c : UInt8) (dataCodes : Bool) :
    Sel a ((a.setFreq ab hz t).applyModeCode ab' c dataCodes t) := by
  unfold Sel
  rw [applyModeCode_vfoAb, setFreq_vfoAb]
  exact id

theorem sel_cmdFreq (ab : Bool) (p : List UInt8) : Sel a (a.cmdFreq ab p t) := by
  unfold cmdFreq
  refine sel_ite sel_same ?_
  cases decFreq p with
  | none => exact sel_same
  | some hz =>
    unfold Sel
    rw [setFreq_vfoAb]
    exact id

theorem sel_ifVfo (hz : Nat) (tx split : Bool) : Sel a (a.ifVfo s hz tx split t) := by
  unfold ifVfo
  refine sel_ite sel_same ?_
  dsimp only
  split_ifs
  · exact sel_modeAfterFreq _ _ _ _ _
  · exact fun _ => sel_modeAfterFreq _ _ _ _ _ rfl

theorem sel_cmdIfKenwood : Sel a (a.cmdIfKenwood s t) := by
  unfold cmdIfKenwood
  refine sel_ite sel_same (sel_ite sel_same ?_)
  split
  · next hz tx split _ _ _ =>
    exact sel_ite sel_same (sel_ite (sel_ifVfo hz tx split) fun h => sel_ifVfo hz tx split h)
  · exact sel_same

theorem sel_cmdIfYaesu (ab : Bool) : Sel a (a.cmdIfYaesu ab s t) := by
  unfold cmdIfYaesu
  dsimp only
  generalize (if s.length = 26 ∨ s.length = 29 then 8 else 9) = w
  refine sel_ite sel_same (sel_ite sel_same ?_)
  split
  · exact sel_same
  · exact sel_modeAfterFreq _ _ _ _ _

theorem sel_cmdMain (dataCodes : Bool) : Sel a (a.cmdMain s dataCodes t) := by
  unfold cmdMain
  refine sel_ite sel_same (sel_ite sel_same ?_)
  cases decBool (charAt s 2) with
  | none => exact sel_same
  | some ab => exact sel_applyModeCode _ _ _

theorem sel_cmdMd : Sel a (a.cmdMd s t) := by
  unfold cmdMd
  refine sel_ite (sel_cmdMain false) (sel_ite ?_ ?_)
  · exact sel_ite sel_same (sel_ite (sel_applyModeCode _ _ _) sel_same)
  · exact sel_ite sel_same (sel_ite (sel_applyModeCode _ _ _) sel_same)

theorem sel_cmdData : Sel a (a.cmdData s t) := by
  unfold cmdData k3Data
  refine sel_ite (sel_ite sel_same (sel_ite sel_same fun h => ?_))
    (sel_ite sel_same (sel_ite sel_same (sel_ite sel_same ?_)))
  · exact (congrArg CatItem.valid (k3Apply_vfoAb _)).trans h
  · split
    · exact sel_same
    · exact fun h => (congrArg CatItem.valid (Ybin.setData_vfoAb ..)).trans h

theorem sel_cmdVfo : Sel a (a.cmdVfo s t) := by
  unfold cmdVfo
  refine sel_ite sel_same (sel_ite sel_same (sel_ite sel_same fun h => ?_))
  dsimp only
  split_ifs
  · rw [updateSplit_vfoAb]
    exact h
  · unfold selectRx
    rw [updateSplit_vfoAb]
    rfl

theorem sel_cmdSplit (c : Char) : Sel a (a.cmdSplit c t) := sel_ite sel_same id

theorem sel_cmdSf : Sel a (a.cmdSf s t) := by
  unfold cmdSf
  refine sel_ite sel_same (sel_ite sel_same ?_)
  split
  · exact sel_modeAfterFreq _ _ _ _ _
  · exact sel_same

theorem sel_cmdZz : Sel a (a.cmdZz s t) := by
  unfold cmdZz
  refine sel_ite sel_same (sel_ite (sel_cmdFreq _ _) (sel_ite ?_ (sel_ite (sel_ite (sel_cmdSplit _) sel_same) sel_same)))
  intro h
  rw [setModeIf_vfoAb]
  exact h

theorem sel_applyFrame (a : Ascii) (s : List UInt8) (isSet : Bool) (t : Nat) : Sel a (a.applyFrame s isSet t) := by
  unfold applyFrame
  refine sel_ite sel_same (sel_ite (sel_cmdFreq _ _) (sel_ite sel_cmdMd (sel_ite sel_cmdData ?_)))
  refine sel_ite (sel_ite sel_same sel_cmdZz) (sel_ite sel_same ?_)
  refine sel_ite (sel_ite (sel_cmdIfYaesu _) sel_cmdIfKenwood) (sel_ite (sel_cmdIfYaesu _) (sel_ite sel_cmdVfo ?_))
  refine sel_ite (sel_ite sel_same (sel_ite (sel_cmdSplit _) sel_same)) ?_
  exact sel_ite (sel_cmdMain true) (sel_ite sel_cmdSf sel_same)

/-- A command of a client is applied as a whole. -/
theorem whole_command (a : Ascii) (s : List UInt8) (t : Nat) : Whole a (a.applyFrame s true t) := by
  unfold applyFrame
  refine whole_ite whole_bad (whole_ite (whole_cmdFreq _ _) (whole_ite whole_cmdMd (whole_ite whole_cmdData ?_)))
  exact whole_ite (whole_ite whole_bad whole_cmdZz) whole_bad

/-- `TracksState`, and the selection is known then. -/
structure Tells (a a' : Ascii) : Prop where
  tracks : TracksState a.st a.out a'.st a'.out
  known : a'.st.vfoAb.valid = true

theorem begun_known (t : Nat) : (a.begun t).st.vfoAb.valid = true := by
  unfold begun
  split_ifs with hv
  · exact hv
  · rfl

theorem begun_same (h : Settled a.st) : SameInfo a.st (a.begun t).st := by
  unfold begun
  split_ifs with hv
  · exact .refl
  · show SameInfo a.st (a.st.selectVfo false t)
    rw [h.resolve_right hv]
    exact sameInfo_select t

theorem begun_tracks (h : Settled a.st) : TracksState a.st a.out (a.begun t).st (a.begun t).out := by
  rw [begun_out]
  exact ⟨List.prefix_rfl, fun _ => begun_same h⟩

theorem tells_command (h : a.st.vfoAb.valid = true) (dir : CatDir) (client : Nat) (f : List UInt8) (t : Nat) :
    Tells a (a.processCommand dir client f t) := by
  obtain ⟨b, hb, hst, hout⟩ : ∃ b, b = a.entered dir client f t ∧ b.st = a.st ∧ b.out = a.out := by
    refine ⟨_, rfl, ?_, entered_out⟩
    unfold entered
    split_ifs <;> rfl
  have hw : (b.applyFrame f.dropLast true t).2 = .done ∨ (b.applyFrame f.dropLast true t).1.st = b.st :=
    (whole_command b f.dropLast t).imp_right fun h => by rw [h]
  have ho := (noted_applyFrame (a := b) (t := t) f.dropLast true).out
  rw [processCommand_eq, ← hb]
  refine ⟨?_, sel_applyFrame b f.dropLast true t (by rwa [hst])⟩
  rw [← hst, ← hout]
  unfold emit
  dsimp only
  rw [ho]
  exact .applied hw rfl

theorem tells_answer (h : a.st.vfoAb.valid = true) (hearly : a.early f.dropLast = none) :
    Tells a (a.processAnswer f t) := by
  by_cases herr : isError f.dropLast
  · obtain ⟨hst, hout⟩ := pendTake_st (a := a) (t := t) none
    rw [processError_eq a herr]
    refine ⟨?_, (congrArg (fun st => st.vfoAb.valid) hst).trans h⟩
    unfold emit
    dsimp only
    rw [hst, hout]
    exact .emit _
  · rw [processAnswer_eq a herr]
    obtain ⟨pend, hb⟩ := taken_pend (a := a) (t := t) f
    generalize (a.taken f t).2 = owner
    rw [hb]
    have ho := (noted_applyFrame (a := { a with pend := pend }) (t := t) f.dropLast false).out
    have hcut := cut_applyFrame { a with pend := pend } f.dropLast t
    have hnone : ({ a with pend := pend } : Ascii).early f.dropLast = none := hearly
    rw [hnone] at hcut
    refine ⟨?_, sel_applyFrame { a with pend := pend } f.dropLast false t h⟩
    unfold emit
    dsimp only
    rw [ho]
    exact .applied (hcut.imp_right fun h => by rw [h]) rfl

theorem tells_frame (h : Settled a.st) (client t : Nat) (hearly : dir = .radio → a.early f.dropLast = none) :
    Tells a (a.processFrame dir client f t) := by
  have htracks := begun_tracks (t := t) h
  have hknown := begun_known (a := a) t
  have hsame : (a.begun t).early f.dropLast = a.early f.dropLast := by
    unfold begun
    split_ifs <;> rfl
  rw [processFrame_eq]
  split_ifs with hd
  · have hanswer := tells_answer (t := t) hknown (hsame.trans (hearly hd))
    exact ⟨htracks.trans hanswer.tracks, hanswer.known⟩
  · have hcommand := tells_command hknown dir client f t
    exact ⟨htracks.trans hcommand.tracks, hcommand.known⟩

/-- A command of two characters sets nothing. -/
theorem applyFrame_query (a : Ascii) (h : s.length = 2) (t : Nat) : a.applyFrame s true t = (a, .none) := by
  have hdrop : s.drop 2 = [] := List.drop_eq_nil_of_le h.le
  have hmd : a.cmdMd s t = (a, .none) := by
    unfold cmdMd cmdMain
    simp [h]
  have hdata : a.cmdData s t = (a, .none) := by
    unfold cmdData k3Data
    simp [h]
  unfold applyFrame cmdFreq
  simp [h, hdrop, hmd, hdata]

/-- The decoder between two calls of the layer: mhuxd's own framer is empty. -/
structure Ready (a : Ascii) : Prop where
  settled : Settled a.st
  own : (a.rx .own).buf = []

theorem tells_byte (h : a.Ready) (hsrc : src ≠ .own) {b : UInt8} (client t : Nat)
    (hearly : dir = .radio → chr b = ';' → a.early (a.rx src).buf = none) :
    TracksState a.st a.out (a.rxByte dir client src b t).st (a.rxByte dir client src b t).out ∧
      (a.rxByte dir client src b t).Ready := by
  have hrx (z : Ascii) (rx : AsciiRx) (hz : z.rx = a.rx) : ((z.setRx src rx).rx .own).buf = [] := by
    rw [setRx_rx_of_ne z hsrc.symm, hz]
    exact h.own
  unfold rxByte
  dsimp only
  split_ifs with hend
  · have hdrop : ((a.rx src).buf ++ [b]).dropLast = (a.rx src).buf := List.dropLast_concat
    have hnone : dir = .radio → a.early ((a.rx src).buf ++ [b]).dropLast = none := by
      rw [hdrop]
      exact fun hd => hearly hd hend
    obtain ⟨htracks, hknown⟩ := tells_frame h.settled client t hnone
    exact ⟨htracks, .inr hknown, hrx _ _ (processFrame_own_rx a)⟩
  · exact ⟨.refl, h.settled, hrx a _ rfl⟩
  · exact ⟨.emit _, h.settled, hrx (a.emit _ _ _ _ _ _ _) _ rfl⟩
  · exact ⟨.refl, h.settled, hrx a _ rfl⟩

theorem tells_host (h : a.Ready) (client : Nat) (buf : List UInt8) (t : Nat) :
    TracksState a.st a.out (a.feed .host client buf t).st (a.feed .host client buf t).out ∧
    (a.feed .host client buf t).Ready := by
  by_cases hc : 1 ≤ client ∧ client ≤ CAT_MAX_CLIENTS
  · have hsrc : Src.of .host client = some (.client client) := if_pos hc
    unfold feed
    rw [hsrc]
    dsimp only
    induction buf generalizing a with
    | nil => exact ⟨.refl, h⟩
    | cons b buf ih =>
      have hcommand : CatDir.host = .radio → chr b = ';' → a.early (a.rx (.client client)).buf = none :=
        fun hd => by cases hd
      obtain ⟨htracks, hready⟩ := tells_byte h (fun hs => by cases hs) client t hcommand
      obtain ⟨hrest, hlast⟩ := ih hready
      exact ⟨htracks.trans hrest, hlast⟩
  · have hsrc : Src.of .host client = none := if_neg hc
    unfold feed
    rw [hsrc]
    exact ⟨.refl, h⟩

theorem tells_radio (h : a.Ready) {b : UInt8} (hearly : ¬ (chr b = ';' ∧ a.early (a.rx .radio).buf ≠ none))
    (t : Nat) :
    TracksState a.st a.out (a.feed .radio 0 [b] t).st (a.feed .radio 0 [b] t).out ∧ (a.feed .radio 0 [b] t).Ready :=
  tells_byte h (by decide) 0 t fun _ hend => not_not.1 fun hne => hearly ⟨hend, hne⟩

/-- A query of two characters, when mhuxd's own framer is empty. -/
theorem own_feed (h : a.Ready) {s : List UInt8} (hheld : Held s) (hlen : s.length = 2) (t : Nat) :
    SameInfo a.st (a.feed .own 0 (s ++ [0x3b]) t).st ∧ (a.feed .own 0 (s ++ [0x3b]) t).Ready := by
  obtain ⟨rx, hfeed, hbuf, -⟩ := feed_held a (show Src.of .own 0 = some .own from rfl) h.own hheld t
  have hlast : a.feed .own 0 (s ++ [0x3b]) t =
      (({ a with rx := rx } : Ascii).processFrame .own 0 (s ++ [0x3b]) t).setRx .own ⟨[], t⟩ := by
    have hsplit : a.feed .own 0 (s ++ [0x3b]) t = (a.feed .own 0 s t).feed .own 0 [0x3b] t := List.foldl_append ..
    rw [hsplit, hfeed]
    show ({ a with rx := rx } : Ascii).rxByte .own 0 .own 0x3b t = _
    unfold rxByte
    dsimp only
    rw [if_pos (by decide), hbuf]
  have hframe (b : Ascii) : b.processFrame .own 0 (s ++ [0x3b]) t =
      ((b.begun t).entered .own 0 (s ++ [0x3b]) t).emit .cmd .own (s ++ [0x3b]) false true 0 t := by
    rw [processFrame_eq, if_neg (by decide), processCommand_eq, List.dropLast_concat, applyFrame_query _ hlen]
    rfl
  have hst (b : Ascii) : (b.processFrame .own 0 (s ++ [0x3b]) t).st = (b.begun t).st := by
    rw [hframe]
    unfold emit entered
    dsimp only
    split_ifs <;> rfl
  have hsame : (({ a with rx := rx } : Ascii).begun t).st = (a.begun t).st := by
    unfold begun
    dsimp only
    split_ifs <;> rfl
  have hafter : (a.feed .own 0 (s ++ [0x3b]) t).st = (a.begun t).st := by
    rw [hlast]
    exact (hst _).trans hsame
  refine ⟨?_, ⟨.inr ?_, ?_⟩⟩
  · rw [hafter]
    exact begun_same h.settled
  · rw [hafter]
    exact begun_known t
  · rw [hlast, setRx_rx_self]

/-- The own queries are of two characters. -/
theorem asciiQuery_two {layer : Catn} {slot : Query} {q : String} (h : layer.asciiQuery slot = some q) :
    ∃ s, Catn.ascii q = s ++ [0x3b] ∧ Held s ∧ s.length = 2 := by
  have hplain (c d : UInt8) (hc : ¬ gap c ∧ ¬ ends [] c) (hd : ¬ ends [c] d) : Held [c, d] :=
    .snoc (.snoc .nil (fun h => hc.1 h.2) hc.2) (fun h => by cases h.1) hd
  have hquery : q ∈ ["FA;", "MD;", "IF;", "DT;", "DA;"] := by
    unfold Catn.asciiQuery at h
    split at h
    all_goals try split_ifs at h
    all_goals simp only [Option.some.injEq, reduceCtorEq] at h
    all_goals
      subst h
      decide
  simp only [List.mem_cons, List.not_mem_nil, or_false] at hquery
  rcases hquery with rfl | rfl | rfl | rfl | rfl
  · exact ⟨[0x46, 0x41], rfl, hplain _ _ (by decide) (by decide), rfl⟩
  · exact ⟨[0x4d, 0x44], rfl, hplain _ _ (by decide) (by decide), rfl⟩
  · exact ⟨[0x49, 0x46], rfl, hplain _ _ (by decide) (by decide), rfl⟩
  · exact ⟨[0x44, 0x54], rfl, hplain _ _ (by decide) (by decide), rfl⟩
  · exact ⟨[0x44, 0x41], rfl, hplain _ _ (by decide) (by decide), rfl⟩

end Ascii

/-! ### The older Yaesu radios -/

namespace Ybin

variable {y y' b : Ybin} {p : YbinPending} {dir : CatDir} {client : Nat} {src : Src}

/-- The state, the framers and the model are as they were, and the frames given to the callback grow. -/
structure Still (y y' : Ybin) : Prop where
  st : y'.st = y.st
  rx : y'.rx = y.rx
  model : y'.model = y.model
  out : y.out <+: y'.out

theorem Still.refl : Still y y := ⟨rfl, rfl, rfl, List.prefix_rfl⟩

theorem Still.trans (h : Still y b) (h' : Still b y') : Still y y' :=
  ⟨h'.st.trans h.st, h'.rx.trans h.rx, h'.model.trans h.model, h.out.trans h'.out⟩

theorem Still.tracks (h : Still y y') : TracksState y.st y.out y'.st y'.out := ⟨h.out, fun _ => .of_eq h.st⟩

theorem still_remove (i : Nat) : Still y (y.pendRemove i) := ⟨rfl, rfl, rfl, List.prefix_rfl⟩

/-- An answer that isn't read leaves all but the list of commands alone. -/
theorem still_answerDone {complete : Bool} (h : ¬ (complete = true ∧ p.len ≤ YBIN_MAX_FRAME)) (t : Nat) :
    Still y (y.answerDone p complete t) := by
  obtain ⟨st, kind, applied, -, heq⟩ := answerDone_eq y p complete t
  refine ⟨answerDone_unread h, ?_, ?_, ?_⟩
  · rw [heq]
    split_ifs <;> rfl
  · rw [heq]
    split_ifs <;> rfl
  · rw [heq]
    by_cases hans : y.ans = []
    · rw [if_pos hans]
      exact List.prefix_rfl
    · rw [if_neg hans]
      exact List.prefix_append _ _

theorem still_pendEnd (t : Nat) : Still y (y.pendEnd p t) := by
  unfold pendEnd
  split_ifs
  · exact still_answerDone (fun h => by cases h.1) t
  · exact still_remove 0

theorem still_expireLoop (n : Nat) : Still y (expireLoop t n y) := by
  induction n generalizing y with
  | zero => exact .refl
  | succ n ih =>
    unfold expireLoop
    split
    · exact .refl
    · split_ifs
      · exact .refl
      · exact (still_pendEnd t).trans ih

theorem still_pendExpire (t : Nat) : Still y (y.pendExpire t) := still_expireLoop _

theorem still_giveupLoop (n : Nat) : Still y (giveupLoop t n y) := by
  induction n generalizing y with
  | zero => exact .refl
  | succ n ih =>
    unfold giveupLoop
    split
    · exact .refl
    · split_ifs
      · exact (still_remove 0).trans ih
      · exact .refl

theorem still_pendAdd (c : List UInt8) (len : Nat × Bool) (own : Bool) :
    Still y (y.pendAdd c len own client t) := by
  have hroom : Still y (y.pendRoom t) := by
    unfold pendRoom
    split
    · exact .refl
    · split_ifs
      · exact still_pendEnd t
      · exact .refl
  exact hroom.trans ⟨rfl, rfl, rfl, List.prefix_rfl⟩

/-- The selection is taken to be VFO A before the first byte. -/
def begun (y : Ybin) (t : Nat) : Ybin := if y.st.vfoAb.valid then y else y.selectVfo false t

theorem begun_known (t : Nat) : (y.begun t).st.vfoAb.valid = true := by
  unfold begun
  split_ifs with hv
  · exact hv
  · rfl

theorem begun_same (h : Settled y.st) : SameInfo y.st (y.begun t).st := by
  unfold begun
  split_ifs with hv
  · exact .refl
  · show SameInfo y.st (y.st.selectVfo false t)
    rw [h.resolve_right hv]
    exact sameInfo_select t

theorem begun_rest (t : Nat) : ∃ st, y.begun t = { y with st := st } := by
  unfold begun
  split_ifs
  · exact ⟨y.st, rfl⟩
  · exact ⟨_, rfl⟩

/-- A command before it is read. -/
theorem still_taken (c : List UInt8) (own : Bool) : Still (y.begun t) (y.taken c own client t) := by
  have hready : Still (y.begun t) (y.ready c t) := by
    have hpaced (z : Ybin) : Still z (z.paced c) := by
      unfold paced
      split_ifs <;> exact ⟨rfl, rfl, rfl, List.prefix_rfl⟩
    exact ((still_pendExpire t).trans (still_giveupLoop _)).trans (hpaced _)
  unfold taken
  split_ifs
  · exact hready.trans (still_pendAdd c _ own)
  · exact hready.trans ⟨rfl, rfl, rfl, List.prefix_rfl⟩

/-- A command is applied as a whole. -/
theorem allOrNone_applyCommand (c : List UInt8) : AllOrNone y (y.applyCommand c t) := by
  have h817 : AllOrNone y (y.applyCommand817 c t) := by
    unfold applyCommand817
    dsimp only
    refine allOrNone_ite ?_ (allOrNone_ite ?_ (allOrNone_ite allOrNone_same (allOrNone_ite allOrNone_done
      (allOrNone_ite allOrNone_done allOrNone_same))))
    · split
      · exact allOrNone_same
      · exact allOrNone_ite allOrNone_same allOrNone_done
    · exact allOrNone_ite allOrNone_same allOrNone_done
  have hfreq : AllOrNone y (y.applySetFreq c t) := by
    unfold applySetFreq
    dsimp only
    refine allOrNone_ite allOrNone_same ?_
    split
    · exact allOrNone_same
    · exact allOrNone_ite allOrNone_same allOrNone_done
  unfold applyCommand
  split
  · exact h817
  · exact h817
  · split
    · exact hfreq
    · exact hfreq
    · exact allOrNone_ite allOrNone_same allOrNone_done
    · exact allOrNone_ite allOrNone_same allOrNone_done
    · exact allOrNone_same

/-- The decoder between two calls of the layer: mhuxd's own framer is empty. -/
structure Ready (y : Ybin) : Prop where
  settled : Settled y.st
  own : (y.rx .own).buf = []

theorem tells_command (h : Settled y.st) (dir : CatDir) (client : Nat) (c : List UInt8) (t : Nat) :
    TracksState y.st y.out (y.command dir client c t).st (y.command dir client c t).out ∧
      (y.command dir client c t).st.vfoAb.valid = true := by
  obtain ⟨b, hb⟩ : ∃ b, b = y.taken c (dir == .own) client t := ⟨_, rfl⟩
  have hstill : Still (y.begun t) b := hb ▸ still_taken c _
  obtain ⟨st, hst, hv⟩ := noted_applyCommand (y := b) (t := t) c
  have hcommand : y.command dir client c t = (b.applyCommand c t).1.emit
      (if (b.applyCommand c t).2 = .bad then .bad else .cmd) dir c ((b.applyCommand c t).2 == Applied.done)
      (dir == .own)
      client t := by
    rw [hb]
    rfl
  have hout : (b.applyCommand c t).1.out = b.out := by rw [hst]
  have hbegun : TracksState y.st y.out (y.begun t).st (y.begun t).out := by
    obtain ⟨st', heq⟩ := begun_rest (y := y) t
    have ho : (y.begun t).out = y.out := by rw [heq]
    rw [ho]
    exact ⟨List.prefix_rfl, fun _ => begun_same h⟩
  rw [hcommand]
  constructor
  · refine (hbegun.trans hstill.tracks).trans ?_
    unfold emit
    dsimp only
    rw [hout]
    exact .applied ((allOrNone_applyCommand c).imp_right fun h => by rw [h]) rfl
  · show (b.applyCommand c t).1.st.vfoAb.valid = true
    rw [hst]
    refine hv ?_
    rw [hstill.st]
    exact begun_known t

theorem ready_rx (h : y.Ready) (hsrc : src ≠ .own) (rx : YbinRx) {z : Ybin} (hz : z.rx = y.rx) :
    ((z.setRx src rx).rx .own).buf = [] := by
  unfold setRx
  dsimp only
  rw [Function.update_of_ne hsrc.symm, hz]
  exact h.own

theorem tells_hostByte (h : y.Ready) (hsrc : src ≠ .own) (dir : CatDir) (client : Nat) (b : UInt8) (t : Nat) :
    TracksState y.st y.out (y.hostByte dir client src b t).st (y.hostByte dir client src b t).out ∧
      (y.hostByte dir client src b t).Ready := by
  have hexpire : TracksState y.st y.out (y.rxExpire dir client src t).st (y.rxExpire dir client src t).out ∧
      (y.rxExpire dir client src t).Ready := by
    unfold rxExpire
    dsimp only
    split_ifs
    · exact ⟨.refl, h⟩
    · exact ⟨.emit _, h.settled, ready_rx h hsrc _ rfl⟩
  obtain ⟨htracks, hready⟩ := hexpire
  unfold hostByte
  generalize y.rxExpire dir client src t = z at htracks hready
  dsimp only
  split_ifs
  · have hsettled : Settled (z.setRx src ⟨[], t⟩).st := hready.settled
    obtain ⟨hcommand, hknown⟩ := tells_command hsettled dir client ((z.rx src).buf ++ [b]) t
    refine ⟨htracks.trans hcommand, .inr hknown, ?_⟩
    rw [command_rx]
    exact ready_rx hready hsrc _ rfl
  · exact ⟨htracks, hready.settled, ready_rx hready hsrc _ rfl⟩

theorem tells_host (h : y.Ready) (client : Nat) (buf : List UInt8) (t : Nat) :
    TracksState y.st y.out (y.feed .host client buf t).st (y.feed .host client buf t).out ∧
    (y.feed .host client buf t).Ready := by
  by_cases hc : 1 ≤ client ∧ client ≤ CAT_MAX_CLIENTS
  · have hsrc : Src.of .host client = some (.client client) := if_pos hc
    unfold feed
    rw [hsrc]
    dsimp only
    induction buf generalizing y with
    | nil => exact ⟨.refl, h⟩
    | cons b buf ih =>
      have hsrc : Src.client client ≠ .own := fun hs => by cases hs
      obtain ⟨htracks, hready⟩ := tells_hostByte h hsrc .host client b t
      obtain ⟨hrest, hlast⟩ := ih hready
      exact ⟨htracks.trans hrest, hlast⟩
  · have hsrc : Src.of .host client = none := if_neg hc
    unfold feed
    rw [hsrc]
    exact ⟨.refl, h⟩

/-- An answer of which nothing is stored unless it's applied. -/
theorem tells_answerDone (h : y.st.vfoAb.valid = true) (hans : y.ans ≠ [])
    (hcut : p.len ≤ YBIN_MAX_FRAME → cutShort y.model p.cmd y.ans = []) (t : Nat) :
    TracksState y.st y.out (y.answerDone p true t).st (y.answerDone p true t).out ∧
      (y.answerDone p true t).st.vfoAb.valid = true ∧ (y.answerDone p true t).rx = y.rx := by
  by_cases hlen : p.len ≤ YBIN_MAX_FRAME
  · obtain ⟨st, hst, hv⟩ := noted_applyAnswer (y := y.reading t) (t := t) p.cmd y.ans
    have hwhole : ((y.reading t).applyAnswer p.cmd y.ans t).2 = .done ∨
        ((y.reading t).applyAnswer p.cmd y.ans t).1 = y.reading t := by
      by_cases hdone : ((y.reading t).applyAnswer p.cmd y.ans t).2 = .done
      · exact .inl hdone
      · rw [applyAnswer_unapplied hdone]
        have hcut : cutShort (y.reading t).model p.cmd y.ans = [] := hcut hlen
        rw [hcut]
        exact .inr rfl
    rw [answerDone_read hlen]
    generalize (y.reading t).applyAnswer p.cmd y.ans t = w at hst hwhole
    obtain ⟨z, r⟩ := w
    subst hst
    dsimp only
    rw [if_neg hans]
    have hstored : r = .done ∨ st = y.st := hwhole.imp_right fun heq => congrArg Ybin.st heq
    exact ⟨.applied hstored rfl, hv h, rfl⟩
  · have hstill : Still y (y.answerDone p true t) := still_answerDone (fun hdec => hlen hdec.2) t
    exact ⟨hstill.tracks, (congrArg (fun st => st.vfoAb.valid) hstill.st).trans h, hstill.rx⟩

theorem tells_answerByte (h : Settled y.st) (ps : List YbinPending) {u : UInt8}
    (hcut : p.got + 1 = p.len → p.len ≤ YBIN_MAX_FRAME → cutShort y.model p.cmd (y.ans ++ [u]) = []) (t : Nat) :
    TracksState y.st y.out (y.answerByte p ps u t).st (y.answerByte p ps u t).out ∧
      (y.answerByte p ps u t).st.vfoAb.valid = true ∧ (y.answerByte p ps u t).rx = y.rx := by
  obtain ⟨st, heq⟩ := begun_rest (y := y) t
  have hknown := begun_known (y := y) t
  have hsame := begun_same (t := t) h
  rw [heq] at hknown hsame
  have hbegun : TracksState y.st y.out st y.out := ⟨List.prefix_rfl, fun _ => hsame⟩
  -- the decoder with the byte
  obtain ⟨z, hz, hst, hout, hrx⟩ : ∃ z : Ybin, z = { y with
      st := st, pend := { p with got := p.got + 1, tLast := t } :: ps, ans := y.ans ++ [u] } ∧ z.st = st ∧
      z.out = y.out ∧
      z.rx = y.rx := ⟨_, rfl, rfl, rfl, rfl⟩
  have hbyte : y.answerByte p ps u t =
      if p.got + 1 = p.len then z.answerDone { p with got := p.got + 1, tLast := t } true t
      else if z.ans.length = YBIN_MAX_FRAME then { z.emit .reply .radio z.ans false p.own p.client t with ans := [] }
      else z := by
    unfold answerByte
    have hif : (if y.st.vfoAb.valid = true then y else y.selectVfo false t) = { y with st := st } := heq
    rw [hif, hz]
  rw [hbyte]
  split_ifs with hlast
  · have hdone := tells_answerDone (y := z) (p := { p with got := p.got + 1, tLast := t })
      (by rw [hst]; exact hknown)
      (by rw [hz]; exact List.append_ne_nil_of_right_ne_nil _ (List.cons_ne_nil u []))
      (fun hle => by rw [hz]; exact hcut hlast hle) t
    rw [hst, hout, hrx] at hdone
    exact ⟨hbegun.trans hdone.1, hdone.2⟩
  · subst hz
    exact ⟨hbegun.trans (.emit _), hknown, rfl⟩
  · rw [hst, hout, hrx]
    exact ⟨hbegun, hknown, rfl⟩

theorem tells_radio (h : y.Ready) {u : UInt8} (t : Nat)
    (hcut : ∀ p ∈ (y.pendExpire t).pend.head?, p.got + 1 = p.len → p.len ≤ YBIN_MAX_FRAME →
      cutShort (y.pendExpire t).model p.cmd ((y.pendExpire t).ans ++ [u]) = []) :
    TracksState y.st y.out (y.feed .radio 0 [u] t).st (y.feed .radio 0 [u] t).out ∧ (y.feed .radio 0 [u] t).Ready := by
  have hstill := still_pendExpire (y := y) t
  have hbyte : y.feed .radio 0 [u] t = y.radioByte u t := rfl
  rw [hbyte]
  unfold radioByte
  generalize y.pendExpire t = z at hstill hcut ⊢
  have hsettled : Settled z.st := by
    rw [hstill.st]
    exact h.settled
  have hown : (z.rx .own).buf = [] := by
    rw [hstill.rx]
    exact h.own
  dsimp only
  cases hpend : z.pend with
  | nil => exact ⟨hstill.tracks.trans (.emit _), hsettled, hown⟩
  | cons p ps =>
    obtain ⟨htracks, hknown, hrx⟩ := tells_answerByte hsettled ps (hcut p (by rw [hpend]; rfl)) t
    refine ⟨hstill.tracks.trans htracks, .inr hknown, ?_⟩
    show ((z.answerByte p ps u t).rx .own).buf = []
    rw [hrx]
    exact hown

/-- A command of mhuxd that sets nothing, when its framer is empty. -/
theorem own_feed (h : y.Ready) {c : List UInt8} (hlen : c.length = YBIN_CMD_LEN)
    (hnone : ∀ z : Ybin, z.model = y.model → z.applyCommand c t = (z, .none)) :
    SameInfo y.st (y.feed .own 0 c t).st ∧ (y.feed .own 0 c t).Ready := by
  have hkept : y.rxExpire .own 0 .own t = y := if_pos (.inl h.own)
  have hfeed : y.feed .own 0 c t = (y.setRx .own ⟨[], t⟩).command .own 0 c t := by
    have hempty : ((y.rxExpire .own 0 .own t).rx .own).buf = [] := by
      rw [hkept]
      exact h.own
    rw [feed_host rfl (by decide)]
    refine (hostBytes_command hlen hempty).trans ?_
    rw [hkept]
  obtain ⟨z, hz⟩ : ∃ z, z = y.setRx .own ⟨[], t⟩ := ⟨_, rfl⟩
  have hrx : (z.rx .own).buf = [] := by
    rw [hz, setRx_rx]
  have hst : z.st = y.st := by
    rw [hz]
    rfl
  have hmodel : z.model = y.model := by
    rw [hz]
    rfl
  rw [hfeed, ← hz]
  have htaken : (z.command .own 0 c t).st = (z.begun t).st := by
    have hstill : Still (z.begun t) (z.taken c true 0 t) := still_taken c true
    have hbegun : (z.begun t).model = z.model := by
      obtain ⟨st, heq⟩ := begun_rest (y := z) t
      rw [heq]
    show ((z.taken c true 0 t).applyCommand c t).1.st = _
    rw [hnone _ ((hstill.model.trans hbegun).trans hmodel)]
    exact hstill.st
  refine ⟨?_, .inr ?_, ?_⟩
  · rw [htaken, ← hst]
    refine begun_same ?_
    rw [hst]
    exact h.settled
  · rw [htaken]
    exact begun_known t
  · rw [command_rx]
    exact hrx

end Ybin

end Mhuxd
