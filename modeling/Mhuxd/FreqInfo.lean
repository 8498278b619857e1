import Mhuxd.Control
import Mhuxd.Lib.Run

/-!
# Frequency information for the keyer (`mhcontrol.c`)

`mhc_update_radio_info` takes the frequencies of a radio and tells the keyer, one control command for each
distinct frequency. A flag of the radio says that this worked: with it set, the same frequencies are not
told again.

The queue below decides when a command is completed and how, so a completion is an event here, of any of
the commands and with any result. `batch` and `unacked` are read by no function: which update the keyer
was last told or has to be told, and the commands of it that were not acknowledged.
-/

namespace Mhuxd

def MHCMD_CAT_R1_FREQUENCY_INFO : UInt8 := 0x1f
def MHCMD_CAT_R2_FREQUENCY_INFO : UInt8 := 0x37

inductive RadioNo
  | r1 | r2
deriving DecidableEq

/-- `struct mhc_radio_info`, the frequencies that are told. -/
structure RadioInfo where
  radio : UInt8
  rxFreq : UInt32
  txFreq : UInt32
  operFreq : UInt32
  vfoAFreq : UInt32
  vfoBFreq : UInt32
deriving DecidableEq

/-- An element of `entries`. -/
structure FreqEntry where
  freq : UInt32
  mask : UInt16
deriving DecidableEq

/-- `struct freq_info_req`, with what it is about. -/
structure FreqReq where
  radio : RadioNo
  batch : Nat
  cmd : Command
deriving DecidableEq

/-- `struct mh_control`, the part about frequency information. `reqs` are the requests whose callback is to come. -/
structure FreqCtl where
  hasCatCmd : Bool
  state : CtlState
  radioInfo : RadioNo → RadioInfo
  radioInfoFreqSentSuccess : RadioNo → Bool
  reqs : List FreqReq
  batch : RadioNo → Nat
  unacked : RadioNo → List Command

inductive FreqEv
  | update (info : RadioInfo)
  | complete (i : Nat) (result : CmdResult)
  | disconnect (queued : FreqReq → Bool)
  | setState (s : CtlState)
  | deviceOff

/-- The index `radio - 1`. -/
def RadioNo.ofByte : UInt8 → Option RadioNo
  | 1 => some .r1
  | 2 => some .r2
  | _ => none

def RadioNo.freqCmd : RadioNo → UInt8
  | .r1 => MHCMD_CAT_R1_FREQUENCY_INFO
  | .r2 => MHCMD_CAT_R2_FREQUENCY_INFO

theorem RadioNo.freqCmd_msb (r : RadioNo) : r.freqCmd &&& 0x80 = 0 := by cases r <;> rfl

namespace FreqEntry

/-- `1 << i`. -/
def bit (i : UInt16) : UInt16 := 1 <<< i

/-- The inner loop of the merge: `e` takes the bits of the later entries of its frequency. -/
def absorb (e : FreqEntry) : List FreqEntry → FreqEntry × List FreqEntry
  | [] => (e, [])
  | x :: xs =>
    if x.mask ≠ 0 ∧ x.freq = e.freq then
      let (e, xs) := absorb { e with mask := e.mask ||| x.mask } xs
      (e, { x with mask := 0 } :: xs)
    else
      let (e, xs) := absorb e xs
      (e, x :: xs)

/-- The merge of `n` entries. -/
def merge : Nat → List FreqEntry → List FreqEntry
  | 0, es => es
  | _ + 1, [] => []
  | n + 1, e :: es =>
    if e.mask = 0 then e :: merge n es
    else
      let (e, es) := e.absorb es
      e :: merge n es

/-- The command for an entry. The band is left at 0; bit 5 says that the information is valid. -/
def command (e : FreqEntry) (r : RadioNo) : Command where
  code := r.freqCmd
  params := [e.freq.toUInt8, (e.freq >>> 8).toUInt8, (e.freq >>> 16).toUInt8, (e.freq >>> 24).toUInt8, 0,
    (e.mask ||| bit 5).toUInt8, ((e.mask ||| bit 5) >>> 8).toUInt8]
  code_msb := r.freqCmd_msb

end FreqEntry

namespace RadioInfo

def entries (info : RadioInfo) : List FreqEntry :=
  [⟨info.rxFreq, FreqEntry.bit 0⟩, ⟨info.txFreq, FreqEntry.bit 1⟩, ⟨info.operFreq, FreqEntry.bit 2⟩,
    ⟨info.vfoAFreq, FreqEntry.bit 3⟩, ⟨info.vfoBFreq, FreqEntry.bit 4⟩]

/-- The commands `send_cat_freq_info` submits, in order. -/
def freqCommands (info : RadioInfo) (r : RadioNo) : List Command :=
  ((FreqEntry.merge info.entries.length info.entries).filter fun e => e.mask ≠ 0 ∧ e.freq ≠ 0).map (·.command r)

/-- `freq_changed`. -/
def freqChanged (old new : RadioInfo) : Bool :=
  old.rxFreq != new.rxFreq || old.txFreq != new.txFreq || old.operFreq != new.operFreq ||
    old.vfoAFreq != new.vfoAFreq || old.vfoBFreq != new.vfoBFreq

end RadioInfo

namespace FreqCtl

/-- `mhc_create`. -/
def mhcCreate (hasCatCmd : Bool) : FreqCtl where
  hasCatCmd := hasCatCmd
  state := .disc
  radioInfo := fun _ => ⟨0, 0, 0, 0, 0, 0⟩
  radioInfoFreqSentSuccess := fun _ => false
  reqs := []
  batch := fun _ => 0
  unacked := fun _ => []

def setSent (ctl : FreqCtl) (r : RadioNo) (b : Bool) : FreqCtl :=
  { ctl with radioInfoFreqSentSuccess := Function.update ctl.radioInfoFreqSentSuccess r b }

/-- There is new information, none of it acknowledged. -/
def noteLatest (ctl : FreqCtl) (r : RadioNo) (info : RadioInfo) : FreqCtl :=
  { ctl with
    batch := Function.update ctl.batch r (ctl.batch r + 1)
    unacked := Function.update ctl.unacked r (info.freqCommands r) }

/-- The keyer has acknowledged a command. -/
def noteAck (ctl : FreqCtl) (req : FreqReq) : FreqCtl :=
  if req.batch = ctl.batch req.radio then
    { ctl with unacked := Function.update ctl.unacked req.radio ((ctl.unacked req.radio).erase req.cmd) }
  else ctl

/-- `send_cat_freq_info_cb`. -/
def sendCatFreqInfoCb (ctl : FreqCtl) (req : FreqReq) (result : CmdResult) : FreqCtl :=
  if result ≠ .ok then ctl.setSent req.radio false else (ctl.noteAck req).setSent req.radio true

/-- `send_cat_freq_info`. -/
def sendCatFreqInfo (ctl : FreqCtl) (info : RadioInfo) (r : RadioNo) : FreqCtl :=
  if ctl.hasCatCmd = false then ctl
  else { ctl with reqs := ctl.reqs ++ (info.freqCommands r).map (⟨r, ctl.batch r, ·⟩) }

/-- `mhc_update_radio_info` has something to tell. -/
def hasNews (ctl : FreqCtl) (r : RadioNo) (info : RadioInfo) : Bool :=
  ctl.hasCatCmd && (!ctl.radioInfoFreqSentSuccess r || (ctl.radioInfo r).freqChanged info)

/-- What `mhc_update_radio_info` does with news. -/
def tellFreqs (ctl : FreqCtl) (r : RadioNo) (info : RadioInfo) : FreqCtl :=
  let ctl := ctl.noteLatest r info
  if ctl.state = .ok then ctl.sendCatFreqInfo info r
  else ctl.setSent r false -- the keyer may not be online, flag that it is out of sync

/-- `mhc_update_radio_info`. -/
def mhcUpdateRadioInfo (ctl : FreqCtl) (info : RadioInfo) : FreqCtl :=
  match RadioNo.ofByte info.radio with
  | none => ctl
  | some r =>
    let ctl := if ctl.hasNews r info then ctl.tellFreqs r info else ctl
    { ctl with radioInfo := Function.update ctl.radioInfo r info }

/-- A command is off the queue: its callback is called. -/
def complete (ctl : FreqCtl) (i : Nat) (result : CmdResult) : FreqCtl :=
  match ctl.reqs[i]? with
  | none => ctl
  | some req => ({ ctl with reqs := ctl.reqs.eraseIdx i } : FreqCtl).sendCatFreqInfoCb req result

/-- `flush_cmds` and the new state: the callbacks of the commands that are on the queue. Others wait for
their deferred call. -/
def disconnect (ctl : FreqCtl) (queued : FreqReq → Bool) : FreqCtl :=
  (ctl.reqs.filter queued).foldl (fun ctl req => ctl.sendCatFreqInfoCb req .offline)
    { ctl with state := .disc, reqs := ctl.reqs.filter fun req => !queued req }

/-- `initializer_step` in the state `CTL_STATE_DEVICE_OFF`. -/
def initializerStep (ctl : FreqCtl) : FreqCtl :=
  { (ctl.setSent .r1 false).setSent .r2 false with state := .init }

def step (ctl : FreqCtl) : FreqEv → FreqCtl
  | .update info => ctl.mhcUpdateRadioInfo info
  | .complete i result => ctl.complete i result
  | .disconnect queued => ctl.disconnect queued
  | .setState s => { ctl with state := s }
  | .deviceOff => ctl.initializerStep

variable {ctl ctl' : FreqCtl} {r r' : RadioNo} {info : RadioInfo} {req : FreqReq} {result : CmdResult}

/-! ### What the flag says -/

/-- The flag says that a radio's latest information was acknowledged, all of it. -/
def Confirmed (ctl : FreqCtl) : Prop := ∀ r, ctl.radioInfoFreqSentSuccess r = true → ctl.unacked r = []

/-- What has to hold for a step to keep the flag right: nothing is told with the flag set, and the command
that is acknowledged is the only one of the latest information, or nothing of that is missing. -/
def Confirms (ctl : FreqCtl) : FreqEv → Prop
  | .update info => ∀ r ∈ RadioNo.ofByte info.radio, ctl.hasNews r info = true → ctl.state = .ok →
      ctl.radioInfoFreqSentSuccess r = true → info.freqCommands r = []
  | .complete i .ok => ∀ req ∈ ctl.reqs[i]?, ctl.unacked req.radio = [] ∨
      req.batch = ctl.batch req.radio ∧ (ctl.radioInfo req.radio).freqCommands req.radio = [req.cmd]
  | _ => True

/-- All of the latest information is missing, or nothing of it. -/
def Whole (ctl : FreqCtl) : Prop :=
  ∀ r, ctl.unacked r = [] ∨ ctl.hasCatCmd = true ∧ ctl.unacked r = (ctl.radioInfo r).freqCommands r

@[simp] theorem setSent_sent (b : Bool) :
    (ctl.setSent r b).radioInfoFreqSentSuccess r' = if r' = r then b else ctl.radioInfoFreqSentSuccess r' := by
  simp [setSent, Function.update_apply]

@[simp] theorem setSent_unacked (b : Bool) : (ctl.setSent r b).unacked = ctl.unacked := rfl

@[simp] theorem setSent_radioInfo (b : Bool) : (ctl.setSent r b).radioInfo = ctl.radioInfo := rfl

@[simp] theorem setSent_hasCatCmd (b : Bool) : (ctl.setSent r b).hasCatCmd = ctl.hasCatCmd := rfl

@[simp] theorem noteAck_sent : (ctl.noteAck req).radioInfoFreqSentSuccess = ctl.radioInfoFreqSentSuccess := by
  unfold noteAck
  split_ifs <;> rfl

theorem noteAck_unacked_of_ne (h : r ≠ req.radio) : (ctl.noteAck req).unacked r = ctl.unacked r := by
  unfold noteAck
  split_ifs
  · exact Function.update_of_ne h ..
  · rfl

/-- Only what is missing counts. -/
theorem Whole.congr (h : ctl.Whole) (hcat : ctl'.hasCatCmd = ctl.hasCatCmd) (hinfo : ctl'.radioInfo = ctl.radioInfo)
    (hun : ctl'.unacked = ctl.unacked) : ctl'.Whole := by
  intro r
  rw [hcat, hinfo, hun]
  exact h r

theorem Confirmed.setSent_false (h : ctl.Confirmed) : (ctl.setSent r false).Confirmed := by
  intro r' hsent
  rw [setSent_sent] at hsent
  split_ifs at hsent
  exact h r' hsent

/-! ### Callbacks -/

theorem Confirmed.failed (h : ctl.Confirmed) (hres : result ≠ .ok) : (ctl.sendCatFreqInfoCb req result).Confirmed := by
  rw [sendCatFreqInfoCb, if_pos hres]
  exact h.setSent_false

theorem Whole.failed (h : ctl.Whole) (hres : result ≠ .ok) : (ctl.sendCatFreqInfoCb req result).Whole := by
  rw [sendCatFreqInfoCb, if_pos hres]
  exact h.congr rfl rfl rfl

/-- The acknowledged command was all that was missing. -/
theorem Whole.acked_iff (h : ctl.Whole) : (ctl.noteAck req).unacked req.radio = [] ↔
    ctl.unacked req.radio = [] ∨
      req.batch = ctl.batch req.radio ∧ (ctl.radioInfo req.radio).freqCommands req.radio = [req.cmd] := by
  unfold noteAck
  split_ifs with hb
  · simp only [Function.update_self, List.erase_eq_nil_iff, hb, true_and]
    constructor
    · rintro (hnil | hone)
      · exact .inl hnil
      · rcases h req.radio with hnil | ⟨-, hall⟩
        · exact .inl hnil
        · exact .inr (hall.symm.trans hone)
    · rintro (hnil | hone)
      · exact .inl hnil
      · rcases h req.radio with hnil | ⟨-, hall⟩
        · exact .inl hnil
        · exact .inr (hall.trans hone)
  · simp [hb]

theorem Confirmed.ok_iff (h : ctl.Confirmed) :
    (ctl.sendCatFreqInfoCb req .ok).Confirmed ↔ (ctl.noteAck req).unacked req.radio = [] := by
  rw [sendCatFreqInfoCb, if_neg (by simp)]
  constructor
  · intro hafter
    exact hafter req.radio (by simp)
  · intro hacked r hsent
    rw [setSent_unacked]
    by_cases hr : r = req.radio
    · rw [hr]
      exact hacked
    · rw [noteAck_unacked_of_ne hr]
      rw [setSent_sent, if_neg hr, noteAck_sent] at hsent
      exact h r hsent

/-- A callback that leaves nothing missing. -/
theorem Whole.ok (h : ctl.Whole) (hacked : (ctl.noteAck req).unacked req.radio = []) :
    (ctl.sendCatFreqInfoCb req .ok).Whole := by
  rw [sendCatFreqInfoCb, if_neg (by simp)]
  intro r
  by_cases hr : r = req.radio
  · rw [hr]
    exact .inl hacked
  · have hsame : (ctl.noteAck req).hasCatCmd = ctl.hasCatCmd ∧ (ctl.noteAck req).radioInfo = ctl.radioInfo := by
      unfold noteAck
      split_ifs <;> exact ⟨rfl, rfl⟩
    rw [setSent_unacked, noteAck_unacked_of_ne hr, setSent_hasCatCmd, setSent_radioInfo, hsame.1, hsame.2]
    exact h r

theorem flushed (h : ctl.Confirmed ∧ ctl.Whole) (reqs : List FreqReq) :
    (reqs.foldl (fun ctl req => ctl.sendCatFreqInfoCb req .offline) ctl).Confirmed ∧
      (reqs.foldl (fun ctl req => ctl.sendCatFreqInfoCb req .offline) ctl).Whole := by
  induction reqs generalizing ctl with
  | nil => exact h
  | cons req reqs ih => exact ih ⟨h.1.failed nofun, h.2.failed nofun⟩

/-! ### Updates -/

theorem hasNews_eq_false : ctl.hasNews r info = false ↔ ctl.hasCatCmd = false ∨
    ctl.radioInfoFreqSentSuccess r = true ∧ (ctl.radioInfo r).freqChanged info = false := by
  rw [hasNews, Bool.and_eq_false_iff, Bool.or_eq_false_iff, Bool.not_eq_false']

theorem tellFreqs_eq : ctl.tellFreqs r info = if ctl.state = .ok then (ctl.noteLatest r info).sendCatFreqInfo info r
    else (ctl.noteLatest r info).setSent r false := rfl

/-- News is told at once, or the flag is cleared. -/
theorem Confirmed.tellFreqs_iff (h : ctl.Confirmed) : (ctl.tellFreqs r info).Confirmed ↔
    (ctl.state = .ok → ctl.radioInfoFreqSentSuccess r = true → info.freqCommands r = []) := by
  have hother : ∀ r', r' ≠ r → (ctl.noteLatest r info).unacked r' = ctl.unacked r' :=
    fun r' hr => Function.update_of_ne hr ..
  have hself : (ctl.noteLatest r info).unacked r = info.freqCommands r := Function.update_self ..
  rw [tellFreqs_eq]
  split_ifs with hstate
  · have hsub : ∀ r', ((ctl.noteLatest r info).sendCatFreqInfo info r).radioInfoFreqSentSuccess r' =
        ctl.radioInfoFreqSentSuccess r' ∧ ((ctl.noteLatest r info).sendCatFreqInfo info r).unacked r' =
        (ctl.noteLatest r info).unacked r' := by
      intro r'
      unfold sendCatFreqInfo
      split_ifs <;> exact ⟨rfl, rfl⟩
    constructor
    · intro hafter _ hsent
      have hnil := hafter r (by rw [(hsub r).1]; exact hsent)
      rwa [(hsub r).2, hself] at hnil
    · intro hnil r' hsent
      rw [(hsub r').1] at hsent
      rw [(hsub r').2]
      by_cases hr : r' = r
      · subst hr
        rw [hself]
        exact hnil hstate hsent
      · rw [hother r' hr]
        exact h r' hsent
  · refine ⟨fun _ hok => absurd hok hstate, fun _ r' hsent => ?_⟩
    rw [setSent_sent] at hsent
    split_ifs at hsent with hr
    rw [setSent_unacked, hother r' hr]
    exact h r' hsent

theorem tellFreqs_unacked (ctl : FreqCtl) (r : RadioNo) (info : RadioInfo) :
    (ctl.tellFreqs r info).unacked = Function.update ctl.unacked r (info.freqCommands r) ∧
      (ctl.tellFreqs r info).radioInfo = ctl.radioInfo ∧ (ctl.tellFreqs r info).hasCatCmd = ctl.hasCatCmd := by
  rw [tellFreqs_eq]
  unfold sendCatFreqInfo
  split_ifs <;> exact ⟨rfl, rfl, rfl⟩

/-- After an update all of the information is missing, or what was missing of the same before. -/
theorem Whole.update (h : ctl.Whole) (hc : ctl.Confirmed) (hr : RadioNo.ofByte info.radio = some r) :
    (ctl.mhcUpdateRadioInfo info).Whole := by
  rw [mhcUpdateRadioInfo, hr]
  dsimp only
  rcases hnews : ctl.hasNews r info with _ | _
  · rw [if_neg Bool.false_ne_true]
    intro r'
    by_cases hr' : r' = r
    · subst hr'
      dsimp only
      rw [Function.update_self]
      rcases hasNews_eq_false.1 hnews with hcat | ⟨hsent, hsame⟩
      · rcases h r' with hnil | ⟨hcat', -⟩
        · exact .inl hnil
        · exact absurd (hcat.symm.trans hcat') Bool.false_ne_true
      · exact .inl (hc r' hsent)
    · dsimp only
      rw [Function.update_of_ne hr']
      exact h r'
  · obtain ⟨hun, hinfo, hcat⟩ := tellFreqs_unacked ctl r info
    rw [if_pos rfl]
    intro r'
    dsimp only
    rw [hun, hinfo, hcat]
    by_cases hr' : r' = r
    · subst hr'
      rw [Function.update_self, Function.update_self]
      exact .inr ⟨(Bool.and_eq_true_iff.1 hnews).1, rfl⟩
    · rw [Function.update_of_ne hr', Function.update_of_ne hr']
      exact h r'

theorem Confirmed.update_iff (h : ctl.Confirmed) :
    (ctl.mhcUpdateRadioInfo info).Confirmed ↔ ctl.Confirms (.update info) := by
  rw [mhcUpdateRadioInfo]
  rcases hr : RadioNo.ofByte info.radio with _ | r
  · refine ⟨fun _ r hr' => ?_, fun _ => h⟩
    rw [hr] at hr'
    exact absurd hr' nofun
  · have hconfirms : ctl.Confirms (.update info) ↔ (ctl.hasNews r info = true → ctl.state = .ok →
        ctl.radioInfoFreqSentSuccess r = true → info.freqCommands r = []) := by
      simp [Confirms, hr]
    rw [hconfirms]
    dsimp only
    split_ifs with hnews
    · exact h.tellFreqs_iff.trans ⟨fun htold _ => htold, fun htold => htold hnews⟩
    · exact ⟨fun _ htold => absurd htold hnews, fun _ => h⟩

/-! ### Runs -/

/-- One step: the flag stays right exactly if the step confirms what it says. -/
theorem step_iff (hw : ctl.Confirmed → ctl.Whole) (h : ctl.Confirmed) (e : FreqEv) :
    ((ctl.step e).Confirmed → (ctl.step e).Whole) ∧ ((ctl.step e).Confirmed ↔ ctl.Confirms e) := by
  have hwhole := hw h
  cases e with
  | update info =>
    refine ⟨fun _ => ?_, h.update_iff⟩
    rcases hr : RadioNo.ofByte info.radio with _ | r
    · rw [step, mhcUpdateRadioInfo, hr]
      exact hwhole
    · exact hwhole.update h hr
  | complete i result =>
    rw [step, FreqCtl.complete]
    have hthere : ({ ctl with reqs := ctl.reqs.eraseIdx i } : FreqCtl).Confirmed := h
    have hwhole' : ({ ctl with reqs := ctl.reqs.eraseIdx i } : FreqCtl).Whole := hwhole
    rcases hreq : ctl.reqs[i]? with _ | req
    · refine ⟨fun _ => hwhole, fun _ => ?_, fun _ => h⟩
      cases result <;> simp [Confirms, hreq]
    · by_cases hres : result = .ok
      · subst hres
        refine ⟨fun hafter => hwhole'.ok (hthere.ok_iff.1 hafter), ?_⟩
        refine hthere.ok_iff.trans (hwhole'.acked_iff.trans ?_)
        simp [Confirms, hreq]
      · refine ⟨fun _ => hwhole'.failed hres, fun _ => ?_, fun _ => hthere.failed hres⟩
        cases result with
        | ok => exact absurd rfl hres
        | _ => trivial
  | disconnect queued =>
    have hbase : ({ ctl with state := .disc, reqs := ctl.reqs.filter fun req => !queued req } : FreqCtl).Confirmed ∧
        ({ ctl with state := .disc, reqs := ctl.reqs.filter fun req => !queued req } : FreqCtl).Whole := ⟨h, hwhole⟩
    have hflushed : (ctl.disconnect queued).Confirmed ∧ (ctl.disconnect queued).Whole := flushed hbase _
    exact ⟨fun _ => hflushed.2, fun _ => trivial, fun _ => hflushed.1⟩
  | setState s => exact ⟨fun _ => hwhole, fun _ => trivial, fun _ => h⟩
  | deviceOff =>
    exact ⟨fun _ => hwhole.congr rfl rfl rfl, fun _ => trivial, fun _ => h.setSent_false.setSent_false⟩

/-- The flags are right all through a run exactly if every step of it confirms what it says. -/
theorem freq_info_confirmed (hasCatCmd : Bool) (evs : List FreqEv) :
    (∀ as, as <+: evs → (Run.run step (mhcCreate hasCatCmd) as).Confirmed) ↔
      Run.StepsOk step Confirms (mhcCreate hasCatCmd) evs := by
  have hwhole : (mhcCreate hasCatCmd).Whole := fun _ => .inl rfl
  have hconfirmed : (mhcCreate hasCatCmd).Confirmed := fun _ _ => rfl
  exact Run.forall_prefix_iff (I := fun ctl => ctl.Confirmed → ctl.Whole) (P := Confirmed)
    (fun _ e hw h => step_iff hw h e) (fun _ => hwhole) hconfirmed evs

/-- Of two commands the first times out and the second is acknowledged. -/
theorem freq_info_lost : ¬ ∀ (hasCatCmd : Bool) (evs : List FreqEv),
    (Run.run step (mhcCreate hasCatCmd) evs).Confirmed := by
  intro h
  have hlost := h true [.setState .ok, .update ⟨1, 14000000, 14010000, 14000000, 0, 0⟩, .complete 0 .timeout,
    .complete 0 .ok] .r1
  exact absurd (hlost (by decide)) (by decide)

end FreqCtl

end Mhuxd
