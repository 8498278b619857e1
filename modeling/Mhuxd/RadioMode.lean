import Mhuxd.FreqInfo
import Mhuxd.KcfgLaws
import Mhuxd.Lib.Potential

/-!
# Radio information: listeners, the keyer's mode and its forced mode (`mhcontrol.c`)

`mhc_update_radio_info` stores what a radio reports, tells the listeners, has the keyer take the radio's mode and
keeps the keyer from its forced mode while there are reports. What it does about frequencies is modelled beside
(`FreqCtl`). The keyer's type is the one its options were made for.
-/

namespace Mhuxd

namespace KeyerType

/-- `MHF_HAS_KEYER_MODE`. -/
def hasKeyerMode (t : KeyerType) : Bool :=
  t == dk2 || t == mk || t == mk2 || t == mk3 || t == mk2r || t == mk2rp || t == u2r

/-- `MHF_HAS_NO_VOICE_USE_FSK`. -/
def hasNoVoiceUseFsk (t : KeyerType) : Bool := t == dk2

/-- The radio can be connected. -/
def hasRadio (t : KeyerType) : RadioNo → Bool
  | .r1 => true
  | .r2 => t.hasR2

end KeyerType

/-- The text in `mode_str`. -/
structure ModeStr where
  chars : List UInt8
  short : chars.length < 8
deriving DecidableEq

/-- `struct mhc_radio_info`, without the frequencies of a sub receiver that nothing reads. -/
structure RadioReport extends RadioInfo where
  mode : Int
  modeStr : ModeStr
deriving DecidableEq

namespace RadioMode

/-- `KEYER_MODE_ANSWER_TIME`, in ms. -/
def KEYER_MODE_ANSWER_TIME : Nat := 1000

/-- `snprintf` to `radio_info_source`. -/
def sourceText (source : List UInt8) : List UInt8 := source.take 15

/-- What is submitted to the keyer, and what the listeners are told. -/
inductive Out
  | setKeyerMode (radio : Option RadioNo) (mode : Int)
  | setSettings (settings : List UInt8)
  | radioInfo (r : RadioNo) (valid : Bool) (source : List UInt8) (info : RadioReport)
  | keyerMode (cur r1 r2 : UInt8)
deriving DecidableEq

/-- `struct mh_control`, the part about radio information. `lastMode` is the last mode of a report that a keyer can
take, -1 before one: no function reads it. -/
structure Ctl where
  keyer : KeyerType
  settings : List UInt8
  radioInfo : RadioNo → RadioReport
  radioInfoValid : RadioNo → Bool
  radioInfoSource : RadioNo → List UInt8
  radioInfoTimer : RadioNo → Bool
  radioInfoModeReq : RadioNo → Int
  radioInfoModeReqTime : RadioNo → Nat
  keyerModeChanged : RadioNo → Bool
  trackedKeyerMode : UInt8
  trackedKeyerModeR1R2 : RadioNo → UInt8
  lastMode : RadioNo → Int
  out : List Out

inductive Ev
  | update (now : Nat) (source : Option (List UInt8)) (info : RadioReport)
  | timeout (r : RadioNo)
  | keyerMode (now : Nat) (f : UInt8)
  | modeDone (result : CmdResult)
  | online
  | kopts (calls : List (String × Int))

/-- The name of a source fits. -/
def Ev.Named : Ev → Prop
  | .update _ source _ => (source.getD []).length < 16
  | _ => True

namespace Ctl

/-- `mhc_create`. -/
def mhcCreate (t : KeyerType) : Ctl where
  keyer := t
  settings := Kcfg.kcfgCreate t
  radioInfo := fun _ => ⟨⟨0, 0, 0, 0, 0, 0⟩, -1, ⟨[], by decide⟩⟩
  radioInfoValid := fun _ => false
  radioInfoSource := fun _ => []
  radioInfoTimer := fun _ => false
  radioInfoModeReq := fun _ => -1
  radioInfoModeReqTime := fun _ => 0
  keyerModeChanged := fun _ => false
  trackedKeyerMode := 255
  trackedKeyerModeR1R2 := fun _ => 255
  lastMode := fun _ => -1
  out := []

def emit (c : Ctl) (o : Out) : Ctl := { c with out := c.out ++ [o] }

/-- `kcfg_get_settings`. -/
def kcfgGetSettings (t : KeyerType) (s : List UInt8) : List UInt8 := if t.isMkFamily then Kcfg.mk1SetFrbase t s else s

/-- `mhc_load_kopts`. -/
def mhcLoadKopts (c : Ctl) : Ctl :=
  let s := kcfgGetSettings c.keyer c.settings
  { c with settings := s }.emit (.setSettings s)

def forceKey : RadioNo → String
  | .r1 => "r1ForceKeyerMode"
  | .r2 => "r2ForceKeyerMode"

/-- `kcfg_get_val` of the forced mode. -/
def forced (c : Ctl) (r : RadioNo) : Int := Kcfg.kcfgGetVal (Kcfg.items c.keyer) c.settings (forceKey r) 1

/-- `set_force_keyer_mode`, with whether there was a change. -/
def setForceKeyerMode (c : Ctl) (r : RadioNo) (enable : Int) : Ctl × Bool :=
  if c.keyer.hasKeyerMode = false then (c, false)
  else if c.forced r = enable then (c, false)
  else ({ c with settings := (Kcfg.kcfgSetVal (Kcfg.items c.keyer) c.settings (forceKey r) enable).1 }.mhcLoadKopts, true)

/-- `publish_radio_info`. -/
def publishRadioInfo (c : Ctl) (r : RadioNo) : Ctl :=
  c.emit (.radioInfo r (c.radioInfoValid r) (c.radioInfoSource r) (c.radioInfo r))

/-- `keyer_mode_of_radio`. -/
def keyerModeOfRadio (c : Ctl) (r : RadioNo) : UInt8 :=
  if c.keyer.hasR2 then c.trackedKeyerModeR1R2 r else c.trackedKeyerMode

/-- A keyer without VOICE takes FSK instead. -/
def mapMode (t : KeyerType) (info : RadioReport) : RadioReport :=
  if t.hasNoVoiceUseFsk ∧ info.mode = Kcfg.MOD_VOICE then { info with mode := Kcfg.MOD_FSK } else info

/-- There is something new for listeners; `strncmp` of `source` takes 16 bytes. -/
def isNews (c : Ctl) (r : RadioNo) (source : List UInt8) (info : RadioReport) : Bool :=
  !c.radioInfoValid r || (c.radioInfo r).mode != info.mode || (c.radioInfo r).toRadioInfo.freqChanged info.toRadioInfo ||
    (c.radioInfo r).modeStr != info.modeStr || c.radioInfoSource r != source.take 16

/-- SET KEYER MODE for a report, with `lifted` whether the forced mode was just lifted. -/
def wantsMode (c : Ctl) (r : RadioNo) (mode : Int) (lifted : Bool) : Bool :=
  decide (0 ≤ mode ∧ mode ≤ 3) && c.keyer.hasKeyerMode &&
    (lifted || mode != c.radioInfoModeReq r || (c.keyerModeChanged r && mode != (c.keyerModeOfRadio r).toNat))

/-- The request, `mhc_set_mode_on_radio` or `mhc_set_mode`. -/
def requestMode (c : Ctl) (now : Nat) (r : RadioNo) (mode : Int) : Ctl :=
  { c with
    radioInfoModeReq := Function.update c.radioInfoModeReq r mode
    radioInfoModeReqTime := Function.update c.radioInfoModeReqTime r now
    keyerModeChanged := Function.update c.keyerModeChanged r false }.emit
      (.setKeyerMode (if c.keyer.hasR2 then some r else none) mode)

/-- The report is stored: the information is valid, and the timer starts anew. -/
def storeInfo (c : Ctl) (source : List UInt8) (r : RadioNo) (info : RadioReport) : Ctl :=
  { c with
    radioInfoTimer := Function.update c.radioInfoTimer r true
    radioInfoValid := Function.update c.radioInfoValid r true
    radioInfo := Function.update c.radioInfo r info
    radioInfoSource := Function.update c.radioInfoSource r (sourceText source)
    lastMode := if 0 ≤ info.mode ∧ info.mode ≤ 3 then Function.update c.lastMode r info.mode else c.lastMode }

/-- `mhc_update_radio_info` for a radio that there is, after the mapping of the mode. -/
def updateRadio (c : Ctl) (now : Nat) (source : List UInt8) (r : RadioNo) (info : RadioReport) : Ctl :=
  let (c, lifted) := c.setForceKeyerMode r 0
  let notify := c.isNews r source info
  let c := if c.wantsMode r info.mode lifted then c.requestMode now r info.mode else c
  let c := c.storeInfo source r info
  if notify then c.publishRadioInfo r else c

/-- `mhc_update_radio_info`. -/
def mhcUpdateRadioInfo (c : Ctl) (now : Nat) (source : Option (List UInt8)) (info : RadioReport) : Ctl :=
  let info := mapMode c.keyer info
  match RadioNo.ofByte info.radio with
  | none => c
  | some r => c.updateRadio now (source.getD []) r info

/-- The information is not valid any more. -/
def dropInfo (c : Ctl) (r : RadioNo) : Ctl :=
  { c with
    radioInfoValid := Function.update c.radioInfoValid r false
    radioInfoTimer := Function.update c.radioInfoTimer r false }

/-- `radio_info_timeout_cb`, called while the timer runs. -/
def radioInfoTimeoutCb (c : Ctl) (r : RadioNo) : Ctl :=
  if c.radioInfoTimer r = false then c else (((c.dropInfo r).setForceKeyerMode r 1).1).publishRadioInfo r

/-- `kcfg_update_keyer_mode`. -/
def kcfgUpdateKeyerMode (t : KeyerType) (s : List UInt8) (cur r1 r2 : UInt8) : List UInt8 :=
  if t.hasR2 then
    (Kcfg.kcfgSetVal (Kcfg.items t) (Kcfg.kcfgSetVal (Kcfg.items t) s "r1KeyerMode" r1.toNat).1 "r2KeyerMode" r2.toNat).1
  else (Kcfg.kcfgSetVal (Kcfg.items t) s "r1KeyerMode" cur.toNat).1

/-- `MHCMD_KEYER_MODE` in `control_channel_cb`: a report long after a request is a change of the keyer's own. -/
def keyerModeReport (c : Ctl) (now : Nat) (f : UInt8) : Ctl :=
  let cur := f &&& 3
  let r1 := (f >>> 2) &&& 3
  let r2 := (f >>> 4) &&& 3
  let old := c.trackedKeyerMode
  let c := { c with
    trackedKeyerMode := cur
    trackedKeyerModeR1R2 := fun r => if r = RadioNo.r1 then r1 else r2
    keyerModeChanged := fun r =>
      if c.radioInfoModeReqTime r + KEYER_MODE_ANSWER_TIME < now then true else c.keyerModeChanged r
    settings := kcfgUpdateKeyerMode c.keyer c.settings cur r1 r2 }
  let c := c.emit (.keyerMode cur r1 r2)
  if c.keyer = .mk ∧ old ≠ cur then c.mhcLoadKopts else c

/-- `radio_info_mode_cb`. -/
def radioInfoModeCb (c : Ctl) (result : CmdResult) : Ctl :=
  if result = .timeout ∨ result = .offline ∨ result = .error then { c with radioInfoModeReq := fun _ => -1 } else c

/-- The configuration manager sets options and has the keyer take them. -/
def setKopts (c : Ctl) (calls : List (String × Int)) : Ctl :=
  { c with settings := calls.foldl (fun s (k : String × Int) => (Kcfg.mhcSetKopt c.keyer s k.1 k.2).1) c.settings }.mhcLoadKopts

def step (c : Ctl) : Ev → Ctl
  | .update now source info => c.mhcUpdateRadioInfo now source info
  | .timeout r => c.radioInfoTimeoutCb r
  | .keyerMode now f => c.keyerModeReport now f
  | .modeDone result => c.radioInfoModeCb result
  | .online => { c with radioInfoModeReq := fun _ => -1 }
  | .kopts calls => c.setKopts calls

/-! ### Listeners -/

/-- What a listener knows of a radio. -/
structure Known where
  valid : Bool
  source : List UInt8
  info : RadioReport
deriving DecidableEq

def hear (k : RadioNo → Known) : Out → RadioNo → Known
  | .radioInfo r valid source info => Function.update k r ⟨valid, source, info⟩
  | _ => k

/-- What there is to know, as `mhc_get_radio_info` says it. -/
def view (c : Ctl) (r : RadioNo) : Known := ⟨c.radioInfoValid r, c.radioInfoSource r, c.radioInfo r⟩

/-- An event about a radio tells something new. -/
def TellsNew (k : RadioNo → Known) (o : Out) : Prop := ∀ r v s i, o = .radioInfo r v s i → k r ≠ ⟨v, s, i⟩

/-- Listeners know what there is to know, and what is stored is of the radio, valid while it is timed. -/
structure Told (k : RadioNo → Known) (c : Ctl) : Prop where
  known : Run.run hear k c.out = c.view
  timer : ∀ r, c.radioInfoTimer r = true → c.radioInfoValid r = true
  radio : ∀ r, c.radioInfoValid r = true → RadioNo.ofByte (c.radioInfo r).radio = some r
  source : ∀ r, (c.radioInfoSource r).length ≤ 15

/-! ### What an update does -/

/-- The settings with the forced mode set. -/
def forceSettings (c : Ctl) (r : RadioNo) (enable : Int) : List UInt8 :=
  kcfgGetSettings c.keyer (Kcfg.kcfgSetVal (Kcfg.items c.keyer) c.settings (forceKey r) enable).1

/-- `set_force_keyer_mode` does nothing, or changes the settings and submits them. -/
theorem setForceKeyerMode_cases (c : Ctl) (r : RadioNo) (enable : Int) :
    (c.keyer.hasKeyerMode = false ∨ c.forced r = enable) ∧ c.setForceKeyerMode r enable = (c, false) ∨
      c.keyer.hasKeyerMode = true ∧ c.forced r ≠ enable ∧ c.setForceKeyerMode r enable =
        ({ c with
          settings := c.forceSettings r enable
          out := c.out ++ [.setSettings (c.forceSettings r enable)] }, true) := by
  rw [Ctl.setForceKeyerMode]
  split_ifs with hkeyer hforced
  · exact Or.inl ⟨Or.inl hkeyer, rfl⟩
  · exact Or.inl ⟨Or.inr hforced, rfl⟩
  · exact Or.inr ⟨Bool.eq_true_of_not_eq_false hkeyer, hforced, rfl⟩

/-- A report lifts the forced mode. -/
def lifts (c : Ctl) (r : RadioNo) : Bool := decide (c.keyer.hasKeyerMode = true ∧ c.forced r ≠ 0)

/-- What an update submits and tells. -/
def outs (c : Ctl) (source : List UInt8) (r : RadioNo) (info : RadioReport) : List Out :=
  (if c.lifts r then [.setSettings (c.forceSettings r 0)] else []) ++
  (if c.wantsMode r info.mode (c.lifts r) then
    [.setKeyerMode (if c.keyer.hasR2 then some r else none) info.mode] else []) ++
  if c.isNews r source info then [.radioInfo r true (sourceText source) info] else []

@[simp] theorem isNews_settings (c : Ctl) (s : List UInt8) (o : List Out) (r : RadioNo) (source : List UInt8)
    (info : RadioReport) : { c with settings := s, out := o }.isNews r source info = c.isNews r source info := rfl

@[simp] theorem wantsMode_settings (c : Ctl) (s : List UInt8) (o : List Out) (r : RadioNo) (mode : Int) (b : Bool) :
    { c with settings := s, out := o }.wantsMode r mode b = c.wantsMode r mode b := rfl

/-- `mhc_update_radio_info` at once. -/
theorem updateRadio_eq (c : Ctl) (now : Nat) (source : List UInt8) (r : RadioNo) (info : RadioReport) :
    c.updateRadio now source r info =
      let c' := { c with settings := if c.lifts r then c.forceSettings r 0 else c.settings }
      let c' := if c.wantsMode r info.mode (c.lifts r) then c'.requestMode now r info.mode else c'
      { c'.storeInfo source r info with out := c.out ++ c.outs source r info } := by
  rw [updateRadio, outs]
  rcases setForceKeyerMode_cases c r 0 with ⟨hno, heq⟩ | ⟨hkeyer, hforced, heq⟩
  · have hlift : c.lifts r = false := by
      refine decide_eq_false ?_
      rintro ⟨hk, hf⟩
      rcases hno with h | h
      · rw [h] at hk
        cases hk
      · exact hf h
    rw [heq, hlift]
    cases hnews : c.isNews r source info <;> cases hwants : c.wantsMode r info.mode false <;>
      simp [requestMode, storeInfo, publishRadioInfo, emit, hnews, hwants]
  · have hlift : c.lifts r = true := decide_eq_true ⟨hkeyer, hforced⟩
    rw [heq, hlift]
    simp only [isNews_settings, wantsMode_settings]
    rcases Bool.eq_false_or_eq_true (c.isNews r source info) with hnews | hnews <;>
      rcases Bool.eq_false_or_eq_true (c.wantsMode r info.mode true) with hwants | hwants <;>
      simp [requestMode, storeInfo, publishRadioInfo, emit, hnews, hwants]

/-- The keyer is put into the forced mode when a report is missing. -/
def forces (c : Ctl) (r : RadioNo) : Bool := decide (c.keyer.hasKeyerMode = true ∧ c.forced r ≠ 1)

/-- What a missing report submits and tells. -/
def dropOuts (c : Ctl) (r : RadioNo) : List Out :=
  (if c.forces r then [.setSettings (c.forceSettings r 1)] else []) ++
    [.radioInfo r false (c.radioInfoSource r) (c.radioInfo r)]

/-- `radio_info_timeout_cb` at once. -/
theorem radioInfoTimeoutCb_eq (c : Ctl) (r : RadioNo) : c.radioInfoTimeoutCb r =
    if c.radioInfoTimer r = false then c
    else { c.dropInfo r with
      settings := if c.forces r then c.forceSettings r 1 else c.settings
      out := c.out ++ c.dropOuts r } := by
  rw [radioInfoTimeoutCb, dropOuts]
  rcases setForceKeyerMode_cases (c.dropInfo r) r 1 with ⟨hno, heq⟩ | ⟨hkeyer, hforced, heq⟩
  · have hforces : c.forces r = false := by
      refine decide_eq_false ?_
      rintro ⟨hk, hf⟩
      rcases hno with h | h
      · rw [show c.keyer.hasKeyerMode = false from h] at hk
        cases hk
      · exact hf h
    rw [heq, hforces]
    simp [publishRadioInfo, emit, dropInfo]
  · have hforces : c.forces r = true := decide_eq_true ⟨hkeyer, hforced⟩
    rw [heq, hforces]
    simp [publishRadioInfo, emit, dropInfo, forceSettings]

/-! ### Listeners are up to date -/

section told
variable {k : RadioNo → Known} {c : Ctl} {r : RadioNo} {o : Out} {info : RadioReport} {source : List UInt8}

theorem freqChanged_eq_false {a b : RadioInfo} (h : a.freqChanged b = false) (hr : a.radio = b.radio) : a = b := by
  obtain ⟨ar, a1, a2, a3, a4, a5⟩ := a
  obtain ⟨br, b1, b2, b3, b4, b5⟩ := b
  simp only [RadioInfo.freqChanged, Bool.or_eq_false_iff, bne_eq_false_iff_eq] at h
  obtain ⟨⟨⟨⟨h1, h2⟩, h3⟩, h4⟩, h5⟩ := h
  simp only at hr h1 h2 h3 h4 h5
  simp [hr, h1, h2, h3, h4, h5]

theorem ofByte_inj {a b : UInt8} (ha : RadioNo.ofByte a = some r) (hb : RadioNo.ofByte b = some r) : a = b := by
  unfold RadioNo.ofByte at ha hb
  split at ha <;> split at hb <;> first | rfl | (cases ha <;> cases hb)

/-- What is no news is stored already. -/
theorem Told.stored (h : Told k c) (hr : RadioNo.ofByte info.radio = some r) (hnews : c.isNews r source info = false) :
    c.view r = ⟨true, sourceText source, info⟩ := by
  simp only [isNews, Bool.or_eq_false_iff, Bool.not_eq_false', bne_eq_false_iff_eq] at hnews
  obtain ⟨⟨⟨⟨hvalid, hmode⟩, hfreq⟩, hstr⟩, hsource⟩ := hnews
  have hradio := freqChanged_eq_false hfreq (ofByte_inj (h.radio r hvalid) hr)
  have hinfo : c.radioInfo r = info := by
    cases hi : c.radioInfo r
    cases info
    rw [hi] at hradio hmode hstr
    simp only at hradio hmode hstr
    rw [hradio, hmode, hstr]
  have hlen := h.source r
  have htake : sourceText source = c.radioInfoSource r := by
    rw [hsource, List.length_take] at hlen
    rw [hsource, sourceText, List.take_of_length_le (by omega), List.take_of_length_le (by omega)]
  rw [view, hvalid, htake, hinfo]

theorem run_hear_append (as bs : List Out) : Run.run hear k (as ++ bs) = Run.run hear (Run.run hear k as) bs :=
  Run.run_append ..

/-- Listeners hear of radios. -/
theorem run_hear_outs : Run.run hear k (c.outs source r info) =
    if c.isNews r source info then Function.update k r ⟨true, sourceText source, info⟩ else k := by
  rw [outs]
  split_ifs <;> rfl

theorem Told.updateRadio (h : Told k c) (now : Nat) (hr : RadioNo.ofByte info.radio = some r) :
    Told k (c.updateRadio now source r info) := by
  have hview : (c.updateRadio now source r info).view = Function.update c.view r ⟨true, sourceText source, info⟩ := by
    rw [updateRadio_eq]
    funext x
    by_cases hx : x = r
    · subst hx
      simp [view, storeInfo]
    · dsimp only
      split_ifs <;> simp [view, storeInfo, requestMode, emit, hx]
  have hout : (c.updateRadio now source r info).out = c.out ++ c.outs source r info := by
    rw [updateRadio_eq]
  refine ⟨?_, ?_, ?_, ?_⟩
  · rw [hout, hview, run_hear_append, run_hear_outs, h.known]
    split_ifs with hnews
    · rfl
    · rw [← h.stored hr (Bool.eq_false_of_not_eq_true hnews), Function.update_eq_self]
  · intro x hx
    by_cases hxr : x = r
    · have hvalid := congrArg Known.valid (congrFun hview x)
      rw [hxr] at hvalid ⊢
      simpa [view] using hvalid
    · have htimer : (c.updateRadio now source r info).radioInfoTimer x = c.radioInfoTimer x := by
        rw [updateRadio_eq]
        dsimp only
        split_ifs <;> simp [storeInfo, requestMode, emit, hxr]
      have hvalid := congrArg Known.valid (congrFun hview x)
      rw [Function.update_of_ne hxr] at hvalid
      exact hvalid.trans (h.timer x (htimer ▸ hx))
  · intro x hx
    have hinfo := congrArg Known.info (congrFun hview x)
    by_cases hxr : x = r
    · subst hxr
      rw [Function.update_self] at hinfo
      rw [show (c.updateRadio now source x info).radioInfo x = info from hinfo]
      exact hr
    · have hvalid := congrArg Known.valid (congrFun hview x)
      rw [Function.update_of_ne hxr] at hvalid hinfo
      rw [show (c.updateRadio now source r info).radioInfo x = c.radioInfo x from hinfo]
      exact h.radio x (hvalid.symm.trans hx)
  · intro x
    have hsource := congrArg Known.source (congrFun hview x)
    by_cases hxr : x = r
    · subst hxr
      rw [Function.update_self] at hsource
      rw [show (c.updateRadio now source x info).radioInfoSource x = sourceText source from hsource]
      exact List.length_take_le ..
    · rw [Function.update_of_ne hxr] at hsource
      rw [show (c.updateRadio now source r info).radioInfoSource x = c.radioInfoSource x from hsource]
      exact h.source x

/-- What is not about radio information is not heard. -/
theorem Told.quiet {c' : Ctl} (os : List Out) (h : Told k c) (hout : c'.out = c.out ++ os)
    (hos : ∀ k : RadioNo → Known, Run.run hear k os = k) (hinfo : c'.radioInfo = c.radioInfo)
    (hvalid : c'.radioInfoValid = c.radioInfoValid) (hsource : c'.radioInfoSource = c.radioInfoSource)
    (htimer : c'.radioInfoTimer = c.radioInfoTimer) : Told k c' := by
  obtain ⟨hknown, ht, hr, hs⟩ := h
  refine ⟨?_, by rwa [htimer, hvalid], by rwa [hvalid, hinfo], by rwa [hsource]⟩
  rw [hout, run_hear_append, hos, hknown]
  funext r
  simp only [view, hinfo, hvalid, hsource]

theorem Told.radioInfoTimeoutCb (h : Told k c) (r : RadioNo) : Told k (c.radioInfoTimeoutCb r) := by
  rw [radioInfoTimeoutCb_eq]
  by_cases htimer : c.radioInfoTimer r = false
  · rw [if_pos htimer]
    exact h
  · rw [if_neg htimer]
    refine ⟨?_, ?_, ?_, h.source⟩
    · have hquiet : Run.run hear c.view (c.dropOuts r) =
          Function.update c.view r ⟨false, c.radioInfoSource r, c.radioInfo r⟩ := by
        rw [dropOuts]
        split_ifs <;> rfl
      simp only [run_hear_append, h.known, hquiet]
      funext x
      by_cases hx : x = r
      · subst hx
        simp [view, dropInfo]
      · simp [view, dropInfo, hx]
    · intro x
      by_cases hx : x = r
      · subst hx
        simp [dropInfo]
      · simpa [dropInfo, hx] using h.timer x
    · intro x
      by_cases hx : x = r
      · subst hx
        simp [dropInfo]
      · simpa [dropInfo, hx] using h.radio x

/-- What a report of the keyer submits and tells. -/
theorem keyerModeReport_out (c : Ctl) (now : Nat) (f : UInt8) : ∃ os, (c.keyerModeReport now f).out = c.out ++ os ∧
    ∀ k : RadioNo → Known, Run.run hear k os = k := by
  rw [keyerModeReport]
  split_ifs
  · exact ⟨[_, _], by simp only [emit, mhcLoadKopts, List.append_assoc]; rfl, fun _ => rfl⟩
  · exact ⟨[_], rfl, fun _ => rfl⟩

theorem Told.step (h : Told k c) (e : Ev) : Told k (c.step e) := by
  cases e with
  | update now source info =>
    rw [Ctl.step, mhcUpdateRadioInfo]
    split
    · exact h
    · rename_i r hr
      exact h.updateRadio now hr
  | timeout r => exact h.radioInfoTimeoutCb r
  | keyerMode now f =>
    obtain ⟨os, hout, hos⟩ := keyerModeReport_out c now f
    refine h.quiet os hout hos ?_ ?_ ?_ ?_ <;>
    · rw [Ctl.step, keyerModeReport]
      split_ifs <;> rfl
  | modeDone result =>
    refine h.quiet [] ?_ (fun _ => rfl) ?_ ?_ ?_ ?_ <;>
    · rw [Ctl.step, radioInfoModeCb]
      split_ifs <;> simp
  | online => exact h.quiet [] (List.append_nil _).symm (fun _ => rfl) rfl rfl rfl rfl
  | kopts calls => exact h.quiet [_] rfl (fun _ => rfl) rfl rfl rfl rfl

/-- What is stored already is no news. -/
theorem isNews_eq_false (hshort : source.length < 16) (h : c.view r = ⟨true, sourceText source, info⟩) :
    c.isNews r source info = false := by
  simp only [view, Known.mk.injEq] at h
  obtain ⟨hvalid, hsource, hinfo⟩ := h
  have htake : sourceText source = source.take 16 := by
    rw [sourceText, List.take_of_length_le (by omega), List.take_of_length_le (by omega)]
  simp [isNews, hvalid, hinfo, hsource, htake, RadioInfo.freqChanged]

/-- Nothing else is about a radio. -/
theorem tellsNew_of_ne (ho : ∀ r v s i, o ≠ .radioInfo r v s i) : TellsNew k o :=
  fun r v s i he => absurd he (ho r v s i)

theorem fresh_outs (hshort : source.length < 16) : Run.StepsOk hear TellsNew c.view (c.outs source r info) := by
  have hnews : c.isNews r source info = true → TellsNew c.view (.radioInfo r true (sourceText source) info) := by
    intro hnews x v s i he hx
    cases he
    rw [isNews_eq_false hshort hx] at hnews
    cases hnews
  rw [outs]
  by_cases h : c.isNews r source info = true
  · rw [if_pos h]
    split_ifs <;> simp [Run.StepsOk, tellsNew_of_ne, hear] <;> exact hnews h
  · rw [if_neg h]
    split_ifs <;> simp [Run.StepsOk, tellsNew_of_ne]

theorem Told.fresh_dropOuts (h : Told k c) (htimer : c.radioInfoTimer r = true) :
    Run.StepsOk hear TellsNew c.view (c.dropOuts r) := by
  have hnews : TellsNew c.view (.radioInfo r false (c.radioInfoSource r) (c.radioInfo r)) := by
    intro x v s i he hx
    cases he
    have hvalid := congrArg Known.valid hx
    rw [show (c.view r).valid = c.radioInfoValid r from rfl, h.timer r htimer] at hvalid
    cases hvalid
  rw [dropOuts]
  split_ifs <;> simp [Run.StepsOk, tellsNew_of_ne, hear] <;> exact hnews

/-- What a step adds to the events is news to those who heard the ones before. -/
theorem Told.fresh_step (h : Told k c) {e : Ev} (he : e.Named) :
    ∃ os, (c.step e).out = c.out ++ os ∧ Run.StepsOk hear TellsNew c.view os := by
  cases e with
  | update now source info =>
    rw [Ctl.step, mhcUpdateRadioInfo]
    split
    · exact ⟨[], (List.append_nil _).symm, trivial⟩
    · exact ⟨_, by rw [updateRadio_eq], fresh_outs he⟩
  | timeout r =>
    rw [Ctl.step, radioInfoTimeoutCb_eq]
    by_cases htimer : c.radioInfoTimer r = false
    · rw [if_pos htimer]
      exact ⟨[], (List.append_nil _).symm, trivial⟩
    · rw [if_neg htimer]
      exact ⟨_, rfl, h.fresh_dropOuts (Bool.eq_true_of_not_eq_false htimer)⟩
  | keyerMode now f =>
    rw [Ctl.step, keyerModeReport]
    split_ifs
    · refine ⟨[_, _], by simp only [emit, mhcLoadKopts, List.append_assoc]; rfl, ?_, ?_, trivial⟩ <;>
        exact tellsNew_of_ne (by simp)
    · exact ⟨[_], rfl, tellsNew_of_ne (by simp), trivial⟩
  | modeDone result =>
    refine ⟨[], ?_, trivial⟩
    rw [Ctl.step, radioInfoModeCb]
    split_ifs <;> simp
  | online => exact ⟨[], (List.append_nil _).symm, trivial⟩
  | kopts calls => exact ⟨[_], rfl, tellsNew_of_ne (by simp), trivial⟩

theorem told_create (t : KeyerType) : Told (mhcCreate t).view (mhcCreate t) := by
  refine ⟨rfl, ?_, ?_, ?_⟩
  · intro r hr
    cases hr
  · intro r hr
    cases hr
  · intro r
    exact Nat.zero_le _

end told

/-- In every run, who hears the events knows of both radios what `mhc_get_radio_info` says of them; and where the
names of the sources fit, every event told him something new. -/
theorem radio_info_told (t : KeyerType) (evs : List Ev) :
    Run.run hear (mhcCreate t).view (Run.run step (mhcCreate t) evs).out = (Run.run step (mhcCreate t) evs).view ∧
      ((∀ e ∈ evs, e.Named) →
        Run.StepsOk hear TellsNew (mhcCreate t).view (Run.run step (mhcCreate t) evs).out) := by
  have htold : ∀ c e, Told (mhcCreate t).view c → Told (mhcCreate t).view (step c e) := fun c e h => h.step e
  refine ⟨(Run.run_inv htold (told_create t) evs).known, fun hnamed => ?_⟩
  have hok : Run.StepsOk step (fun _ e => e.Named) (mhcCreate t) evs := Run.stepsOk_const_iff.2 hnamed
  refine (Run.run_inv_of_ok (I := fun c => Told (mhcCreate t).view c ∧
    Run.StepsOk hear TellsNew (mhcCreate t).view c.out) ?_ ⟨told_create t, trivial⟩ hok).2
  rintro c e ⟨h, hfresh⟩ he
  obtain ⟨os, hout, hos⟩ := h.fresh_step he
  refine ⟨h.step e, ?_⟩
  rw [hout]
  exact hfresh.append (by rw [h.known]; exact hos)

/-! ### Requests for the keyer's mode -/

/-- SET KEYER MODE for a radio. -/
def isRequest (t : KeyerType) (r : RadioNo) : Out → Bool
  | .setKeyerMode x _ => x == if t.hasR2 then some r else none
  | _ => false

/-- The requests for a radio so far. -/
def requests (c : Ctl) (r : RadioNo) : Nat := c.out.countP (isRequest c.keyer r)

/-- Reports are of radios that the keyer has. -/
def ForKeyer (t : KeyerType) : Ev → Prop
  | .update _ _ info => ∀ r ∈ RadioNo.ofByte info.radio, t.hasRadio r = true
  | _ => True

/-- The reasons a step gives for a request: the radio's mode is another one, its reports are back after the keyer
was in the forced mode, a request was lost or the keyer starts, the keyer changed its mode by itself. -/
def reasons (r : RadioNo) (c : Ctl) : Ev → Nat
  | .update _ _ info =>
    if RadioNo.ofByte info.radio = some r ∧ 0 ≤ (mapMode c.keyer info).mode ∧ (mapMode c.keyer info).mode ≤ 3 then
      (if (mapMode c.keyer info).mode ≠ c.lastMode r then 1 else 0) + (if c.lifts r then 1 else 0)
    else 0
  | .modeDone result => if result = .timeout ∨ result = .offline ∨ result = .error then 1 else 0
  | .online => 1
  | .keyerMode now _ => if c.radioInfoModeReqTime r + KEYER_MODE_ANSWER_TIME < now then 1 else 0
  | _ => 0

/-- Reasons that were not answered with a request yet. -/
def pending (c : Ctl) (r : RadioNo) : Nat :=
  (if c.radioInfoModeReq r ≠ c.lastMode r then 1 else 0) + if c.keyerModeChanged r then 1 else 0

section requests
variable {c : Ctl} {r r' : RadioNo} {info : RadioReport} {source : List UInt8} {t : KeyerType}

theorem mapMode_radio (t : KeyerType) (info : RadioReport) : (mapMode t info).radio = info.radio := by
  unfold mapMode
  split_ifs <;> rfl

theorem updateRadio_keyer (c : Ctl) (now : Nat) (source : List UInt8) (r : RadioNo) (info : RadioReport) :
    (c.updateRadio now source r info).keyer = c.keyer := by
  rw [updateRadio_eq]
  dsimp only
  split_ifs <;> rfl

theorem step_keyer (c : Ctl) (e : Ev) : (c.step e).keyer = c.keyer := by
  cases e with
  | update now source info =>
    rw [step, mhcUpdateRadioInfo]
    split
    · rfl
    · exact updateRadio_keyer ..
  | timeout r =>
    rw [step, radioInfoTimeoutCb_eq]
    split_ifs <;> rfl
  | keyerMode now f =>
    rw [step, keyerModeReport]
    split_ifs <;> rfl
  | modeDone result =>
    rw [step, radioInfoModeCb]
    split_ifs <;> rfl
  | online => rfl
  | kopts calls => rfl

/-- The radios of a keyer are told apart by the commands. -/
theorem target_eq_iff (h : t.hasRadio r = true) (h' : t.hasRadio r' = true) :
    ((if t.hasR2 then some r' else none) = if t.hasR2 then some r else none) ↔ r' = r := by
  cases r <;> cases r' <;> simp [KeyerType.hasRadio] at h h' ⊢ <;> simp [*]

/-- A report of a radio requests its mode at most. -/
theorem countP_outs (source : List UInt8) (info : RadioReport) (h : c.keyer.hasRadio r = true) (h' : c.keyer.hasRadio r' = true) :
    (c.outs source r' info).countP (isRequest c.keyer r) =
      if r' = r ∧ c.wantsMode r' info.mode (c.lifts r') = true then 1 else 0 := by
  have hreq : isRequest c.keyer r (.setKeyerMode (if c.keyer.hasR2 then some r' else none) info.mode) = decide (r' = r) := by
    rw [isRequest, Bool.eq_iff_iff, beq_iff_eq, decide_eq_true_iff]
    exact target_eq_iff h h'
  have hsettings : (if c.lifts r' then [Out.setSettings (c.forceSettings r' 0)] else []).countP (isRequest c.keyer r) = 0 := by
    split_ifs <;> rfl
  have hinfo : (if c.isNews r' source info then [Out.radioInfo r' true (sourceText source) info] else []).countP
      (isRequest c.keyer r) = 0 := by
    split_ifs <;> rfl
  rw [outs, List.countP_append, List.countP_append, hsettings, hinfo]
  by_cases hw : c.wantsMode r' info.mode (c.lifts r') = true
  · simp [hw, List.countP_cons, hreq]
  · simp [hw]

theorem requests_append {c' : Ctl} {os : List Out} {n : Nat} (hk : c'.keyer = c.keyer) (hout : c'.out = c.out ++ os)
    (hos : os.countP (isRequest c.keyer r) = n) : c'.requests r = c.requests r + n := by
  rw [requests, hk, hout, List.countP_append, hos]
  rfl

/-- A report answers the reasons there were, or is one itself. -/
theorem requests_updateRadio (now : Nat) (source : List UInt8) (info : RadioReport) (h : c.keyer.hasRadio r = true)
    (h' : c.keyer.hasRadio r' = true) :
    (c.updateRadio now source r' info).requests r + (c.updateRadio now source r' info).pending r ≤
      c.requests r + c.pending r + if r' = r ∧ 0 ≤ info.mode ∧ info.mode ≤ 3 then
        (if info.mode ≠ c.lastMode r then 1 else 0) + (if c.lifts r then 1 else 0) else 0 := by
  have hreq : (c.updateRadio now source r' info).requests r = c.requests r +
      if r' = r ∧ c.wantsMode r' info.mode (c.lifts r') = true then 1 else 0 := by
    refine requests_append (updateRadio_keyer ..) ?_ (countP_outs source info h h')
    rw [updateRadio_eq]
  rw [hreq]
  by_cases hr : r' = r
  · subst hr
    have hwants : c.wantsMode r' info.mode (c.lifts r') = true ↔ (0 ≤ info.mode ∧ info.mode ≤ 3) ∧
        c.keyer.hasKeyerMode = true ∧ (c.lifts r' = true ∨ info.mode ≠ c.radioInfoModeReq r' ∨
          c.keyerModeChanged r' = true ∧ info.mode ≠ (c.keyerModeOfRadio r').toNat) := by
      simp [wantsMode, and_assoc, or_assoc]
    by_cases hw : c.wantsMode r' info.mode (c.lifts r') = true
    · have hp : (c.updateRadio now source r' info).pending r' = 0 := by
        rw [updateRadio_eq]
        simp [hw, pending, requestMode, storeInfo, emit, (hwants.1 hw).1]
      obtain ⟨hmode, -, hwhy⟩ := hwants.1 hw
      rw [hp, if_pos ⟨rfl, hw⟩, if_pos ⟨rfl, hmode⟩, pending]
      split_ifs <;> first | omega | simp_all
    · have hp : (c.updateRadio now source r' info).pending r' =
          (if c.radioInfoModeReq r' ≠ (if 0 ≤ info.mode ∧ info.mode ≤ 3 then info.mode else c.lastMode r') then 1 else 0) +
            if c.keyerModeChanged r' then 1 else 0 := by
        rw [updateRadio_eq]
        dsimp only
        rw [if_neg hw]
        simp only [pending, storeInfo]
        split_ifs <;> simp_all
      have hnone : ¬ (r' = r' ∧ c.wantsMode r' info.mode (c.lifts r') = true) := fun hand => hw hand.2
      rw [hp, if_neg hnone, pending]
      by_cases hmode : 0 ≤ info.mode ∧ info.mode ≤ 3
      · have hle : (if c.radioInfoModeReq r' ≠ info.mode then 1 else 0) ≤
            (if c.radioInfoModeReq r' ≠ c.lastMode r' then 1 else 0) + if info.mode ≠ c.lastMode r' then 1 else 0 := by
          grind
        simp only [hmode, and_self, if_true]
        omega
      · simp only [hmode, and_false, if_false]
        omega
  · have hp : (c.updateRadio now source r' info).pending r = c.pending r := by
      rw [updateRadio_eq]
      have hmode : (if 0 ≤ info.mode ∧ info.mode ≤ 3 then Function.update c.lastMode r' info.mode else c.lastMode) r =
          c.lastMode r := by
        split_ifs <;> simp [Ne.symm hr]
      dsimp only
      split_ifs <;> simp [pending, storeInfo, requestMode, emit, Ne.symm hr, hmode]
    rw [hp]
    simp [hr]

theorem requests_step {e : Ev} (h : c.keyer.hasRadio r = true) (he : ForKeyer c.keyer e) :
    (c.step e).requests r + (c.step e).pending r ≤ c.requests r + c.pending r + reasons r c e := by
  cases e with
  | update now source info =>
    rw [step, mhcUpdateRadioInfo, reasons]
    split
    · omega
    · rename_i r' hr'
      rw [mapMode_radio] at hr'
      have hle := requests_updateRadio now (source.getD []) (mapMode c.keyer info) h (he r' hr')
      rw [hr']
      simpa only [Option.some.injEq] using hle
  | timeout r' =>
    have hzero : (if c.radioInfoTimer r' then c.dropOuts r' else []).countP (isRequest c.keyer r) = 0 := by
      rw [dropOuts]
      split_ifs <;> rfl
    have hreq : (c.radioInfoTimeoutCb r').requests r = c.requests r + 0 := by
      refine requests_append (step_keyer c (.timeout r')) ?_ hzero
      rw [radioInfoTimeoutCb_eq]
      cases c.radioInfoTimer r' <;> simp
    have hp : (c.radioInfoTimeoutCb r').pending r = c.pending r := by
      rw [radioInfoTimeoutCb_eq]
      split <;> rfl
    rw [step, hreq, hp]
    omega
  | keyerMode now f =>
    have hreq : (c.keyerModeReport now f).requests r = c.requests r := by
      rw [keyerModeReport]
      split_ifs <;> simp [requests, emit, mhcLoadKopts, isRequest]
    have hp : (c.keyerModeReport now f).pending r = (if c.radioInfoModeReq r ≠ c.lastMode r then 1 else 0) +
        if (if c.radioInfoModeReqTime r + KEYER_MODE_ANSWER_TIME < now then true else c.keyerModeChanged r) then 1 else 0 := by
      rw [keyerModeReport]
      split <;> rfl
    rw [step, hreq, hp, pending, reasons]
    split_ifs <;> omega
  | modeDone result =>
    rw [step, radioInfoModeCb, reasons]
    split_ifs
    · have hreq : ({ c with radioInfoModeReq := fun _ => -1 } : Ctl).requests r = c.requests r := rfl
      rw [hreq, pending, pending]
      split_ifs <;> omega
    · omega
  | online =>
    have hreq : ({ c with radioInfoModeReq := fun _ => -1 } : Ctl).requests r = c.requests r := rfl
    rw [step, hreq, pending, pending, reasons]
    split_ifs <;> omega
  | kopts calls =>
    have hreq : (c.setKopts calls).requests r = c.requests r := by
      simp [requests, setKopts, emit, mhcLoadKopts, isRequest]
    rw [step, hreq]
    exact Nat.le_add_right ..

end requests

/-- In every run the keyer is asked for a mode of a radio no more often than there was a reason to. -/
theorem mode_requests_le (t : KeyerType) {r : RadioNo} (hr : t.hasRadio r = true) {evs : List Ev}
    (hevs : ∀ e ∈ evs, ForKeyer t e) :
    (Run.run step (mhcCreate t) evs).requests r ≤ Run.total step (reasons r) (mhcCreate t) evs := by
  have hok : Run.StepsOk step (fun _ e => ForKeyer t e) (mhcCreate t) evs := Run.stepsOk_const_iff.2 hevs
  have hle := Run.le_add_total (I := fun c : Ctl => c.keyer = t) (f := fun c => c.requests r + c.pending r)
    (g := reasons r) (fun c e hc he => ⟨(step_keyer c e).trans hc, ?_⟩) rfl hok
  · have hstart : (mhcCreate t).requests r + (mhcCreate t).pending r = 0 := rfl
    rw [hstart] at hle
    exact (Nat.le_add_right ..).trans (hle.trans (Nat.zero_add _).le)
  · subst hc
    have hstep := requests_step hr he
    omega

theorem mode_requests_le_mk2 :
    (Run.run step (mhcCreate .mk2) [.online, .update 5000 none ⟨⟨1, 0, 0, 0, 0, 0⟩, 2, ⟨[], by decide⟩⟩,
      .update 6000 none ⟨⟨1, 0, 0, 0, 0, 0⟩, 2, ⟨[], by decide⟩⟩, .modeDone .timeout,
      .update 7000 none ⟨⟨1, 0, 0, 0, 0, 0⟩, 2, ⟨[], by decide⟩⟩]).requests .r1 ≤
    Run.total step (reasons .r1) (mhcCreate .mk2) [.online, .update 5000 none ⟨⟨1, 0, 0, 0, 0, 0⟩, 2, ⟨[], by decide⟩⟩,
      .update 6000 none ⟨⟨1, 0, 0, 0, 0, 0⟩, 2, ⟨[], by decide⟩⟩, .modeDone .timeout,
      .update 7000 none ⟨⟨1, 0, 0, 0, 0, 0⟩, 2, ⟨[], by decide⟩⟩] :=
  mode_requests_le .mk2 rfl (by
    intro e he
    simp only [List.mem_cons, List.not_mem_nil, or_false] at he
    rcases he with rfl | rfl | rfl | rfl | rfl
    · trivial
    · rintro r ⟨⟩
      rfl
    · rintro r ⟨⟩
      rfl
    · trivial
    · rintro r ⟨⟩
      rfl)

/-! ### The keyer is asked for the radio's mode -/

/-- The mode that is requested for a radio. -/
def requestOf (t : KeyerType) (r : RadioNo) : Out → Option Int
  | .setKeyerMode x mode => if x = if t.hasR2 then some r else none then some mode else none
  | _ => none

/-- The mode of the last request for a radio. -/
def lastRequest (c : Ctl) (r : RadioNo) : Option Int := (c.out.filterMap (requestOf c.keyer r)).getLast?

/-- A request that was not lost was the last one. -/
def Requested (c : Ctl) (r : RadioNo) : Prop := c.radioInfoModeReq r = -1 ∨ c.lastRequest r = some (c.radioInfoModeReq r)

section follows
variable {c c' : Ctl} {r r' : RadioNo} {t : KeyerType}

theorem lastRequest_append (os : List Out) (hk : c'.keyer = c.keyer) (hout : c'.out = c.out ++ os) :
    c'.lastRequest r = (os.filterMap (requestOf c.keyer r)).getLast?.or (c.lastRequest r) := by
  rw [lastRequest, hk, hout, List.filterMap_append, List.getLast?_append]
  rfl

/-- No request for the radio is made. -/
theorem Requested.quiet (os : List Out) (h : c.Requested r) (hk : c'.keyer = c.keyer) (hout : c'.out = c.out ++ os)
    (hos : os.filterMap (requestOf c.keyer r) = [])
    (hreq : c'.radioInfoModeReq r = -1 ∨ c'.radioInfoModeReq r = c.radioInfoModeReq r) : c'.Requested r := by
  rcases hreq with hlost | hsame
  · exact Or.inl hlost
  · rw [Requested, hsame, lastRequest_append os hk hout, hos]
    exact h

theorem filterMap_outs (source : List UInt8) (info : RadioReport) (h : c.keyer.hasRadio r = true)
    (h' : c.keyer.hasRadio r' = true) : (c.outs source r' info).filterMap (requestOf c.keyer r) =
      if r' = r ∧ c.wantsMode r' info.mode (c.lifts r') = true then [info.mode] else [] := by
  have hreq : requestOf c.keyer r (.setKeyerMode (if c.keyer.hasR2 then some r' else none) info.mode) =
      if r' = r then some info.mode else none := by
    rw [requestOf]
    simp only [target_eq_iff h h']
  have hsettings : (if c.lifts r' then [Out.setSettings (c.forceSettings r' 0)] else []).filterMap
      (requestOf c.keyer r) = [] := by
    split_ifs <;> rfl
  have hinfo : (if c.isNews r' source info then [Out.radioInfo r' true (sourceText source) info] else []).filterMap
      (requestOf c.keyer r) = [] := by
    split_ifs <;> rfl
  rw [outs, List.filterMap_append, List.filterMap_append, hsettings, hinfo, List.nil_append, List.append_nil]
  by_cases hw : c.wantsMode r' info.mode (c.lifts r') = true
  · rw [if_pos hw, List.filterMap_cons, hreq]
    by_cases hr : r' = r
    · simp [hr, hr ▸ hw]
    · simp [hr]
  · simp [hw]

/-- After a report with a mode, that mode was requested last. -/
theorem Requested.updateRadio (now : Nat) (source : List UInt8) (info : RadioReport) (hc : c.Requested r)
    (h : c.keyer.hasRadio r = true) (h' : c.keyer.hasRadio r' = true) :
    (c.updateRadio now source r' info).Requested r ∧
      (r' = r → c.keyer.hasKeyerMode = true → 0 ≤ info.mode ∧ info.mode ≤ 3 →
        (c.updateRadio now source r' info).radioInfoModeReq r = info.mode) := by
  have hout : (c.updateRadio now source r' info).out = c.out ++ c.outs source r' info := by
    rw [updateRadio_eq]
  have hos := filterMap_outs source info h h'
  by_cases hw : r' = r ∧ c.wantsMode r' info.mode (c.lifts r') = true
  · have hreq : (c.updateRadio now source r' info).radioInfoModeReq r = info.mode := by
      obtain ⟨rfl, hw'⟩ := hw
      rw [updateRadio_eq]
      simp [hw', storeInfo, requestMode, emit]
    refine ⟨Or.inr ?_, fun _ _ _ => hreq⟩
    rw [lastRequest_append _ (updateRadio_keyer ..) hout, hos, if_pos hw, hreq]
    rfl
  · have hreq : (c.updateRadio now source r' info).radioInfoModeReq r = c.radioInfoModeReq r := by
      rw [updateRadio_eq]
      dsimp only
      by_cases hw' : c.wantsMode r' info.mode (c.lifts r') = true
      · have hr : r ≠ r' := fun hr => hw ⟨hr.symm, hw'⟩
        simp [hw', storeInfo, requestMode, emit, hr]
      · simp [hw', storeInfo]
    rw [if_neg hw] at hos
    refine ⟨hc.quiet _ (updateRadio_keyer ..) hout hos (Or.inr hreq), fun hr hkeyer hmode => ?_⟩
    rw [hreq]
    by_contra hne
    exact hw ⟨hr, by subst hr; simp [wantsMode, hkeyer, hmode, Ne.symm hne]⟩

theorem Requested.step {e : Ev} (hc : c.Requested r) (h : c.keyer.hasRadio r = true) (he : ForKeyer c.keyer e) :
    (c.step e).Requested r := by
  cases e with
  | update now source info =>
    rw [Ctl.step, mhcUpdateRadioInfo]
    split
    · exact hc
    · rename_i r' hr'
      rw [mapMode_radio] at hr'
      exact (hc.updateRadio now _ _ h (he r' hr')).1
  | timeout r' =>
    refine hc.quiet (if c.radioInfoTimer r' then c.dropOuts r' else []) (step_keyer c (.timeout r')) ?_ ?_ (Or.inr ?_)
    · rw [Ctl.step, radioInfoTimeoutCb_eq]
      cases c.radioInfoTimer r' <;> simp
    · rw [dropOuts]
      split_ifs <;> rfl
    · rw [Ctl.step, radioInfoTimeoutCb_eq]
      split <;> rfl
  | keyerMode now f =>
    rw [Ctl.step, keyerModeReport]
    split
    · exact hc.quiet [_, _] rfl (List.append_assoc ..) rfl (Or.inr rfl)
    · exact hc.quiet [_] rfl rfl rfl (Or.inr rfl)
  | modeDone result =>
    rw [Ctl.step, radioInfoModeCb]
    split_ifs
    · exact Or.inl rfl
    · exact hc
  | online => exact Or.inl rfl
  | kopts calls => exact hc.quiet [_] rfl rfl rfl (Or.inr rfl)

end follows

/-- In every run, after a report with one of the modes of a keyer that has modes, the last mode that was requested
for the radio is the one of the report, or what the keyer takes instead. -/
theorem mode_requested (t : KeyerType) (ht : t.hasKeyerMode = true) {r : RadioNo} (hr : t.hasRadio r = true)
    {evs : List Ev} (hevs : ∀ e ∈ evs, ForKeyer t e) (now : Nat) (source : Option (List UInt8)) {info : RadioReport}
    (hinfo : RadioNo.ofByte info.radio = some r) (hmode : 0 ≤ info.mode ∧ info.mode ≤ 3) :
    (Run.run step (mhcCreate t) (evs ++ [.update now source info])).lastRequest r = some (mapMode t info).mode := by
  have hok : Run.StepsOk step (fun _ e => ForKeyer t e) (mhcCreate t) evs := Run.stepsOk_const_iff.2 hevs
  obtain ⟨hkeyer, hc⟩ := Run.run_inv_of_ok (I := fun c : Ctl => c.keyer = t ∧ c.Requested r)
    (fun c e hc he => ⟨(step_keyer c e).trans hc.1, hc.2.step (hc.1 ▸ hr) (hc.1 ▸ he)⟩) ⟨rfl, Or.inl rfl⟩ hok
  rw [Run.run_append, Run.run_cons, Run.run_nil, step, mhcUpdateRadioInfo]
  generalize Run.run step (mhcCreate t) evs = c at hkeyer hc
  subst hkeyer
  have hmapped : 0 ≤ (mapMode c.keyer info).mode ∧ (mapMode c.keyer info).mode ≤ 3 := by
    unfold mapMode
    split_ifs
    · exact (by decide : 0 ≤ Kcfg.MOD_FSK ∧ Kcfg.MOD_FSK ≤ 3)
    · exact hmode
  have hradio : RadioNo.ofByte (mapMode c.keyer info).radio = some r := (mapMode_radio ..).symm ▸ hinfo
  rw [hradio]
  obtain ⟨hreq, hlast⟩ := hc.updateRadio now (source.getD []) (mapMode c.keyer info) hr hr
  rcases hreq with hlost | hreq
  · rw [hlast rfl ht hmapped] at hlost
    omega
  · exact hreq.trans (congrArg some (hlast rfl ht hmapped))

/-- A DK2 takes FSK for VOICE. -/
theorem mode_requested_dk2 : (Run.run step (mhcCreate .dk2) ([.online, .modeDone .timeout] ++
    [.update 5000 none ⟨⟨1, 0, 0, 0, 0, 0⟩, 1, ⟨[], by decide⟩⟩])).lastRequest .r1 = some 2 :=
  mode_requested .dk2 rfl rfl (by simp [ForKeyer]) 5000 none rfl (by decide)

end Ctl

end RadioMode

end Mhuxd
