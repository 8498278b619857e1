import Mhuxd.Citem

/-!
# The WinKey of a keyer (`wkman.c`)

Its settings are 15 bytes that are written to it whenever the keyer comes online or they change. `wkm_host_open` and
`wkm_host_close` are never called, so the manager does not wait for an answer.
-/

namespace Mhuxd

open Citem

def WK_CFG_SIZE : Nat := 15

/-- `citems` of `wkman.c`, with their defaults. -/
def wkmDefaults : List (CfgItem × Nat) :=
  [(⟨"disablePaddleWatchdog", 0, 7, 1, none, none⟩, 1), (⟨"paddleEchoBack", 0, 6, 1, none, none⟩, 0),
    (⟨"keyMode", 0, 5, 2, none, none⟩, 0), (⟨"paddleSwap", 0, 3, 1, none, none⟩, 0),
    (⟨"serialEchoBack", 0, 2, 1, none, none⟩, 1), (⟨"autoSpace", 0, 1, 1, none, none⟩, 0),
    (⟨"ctSpacing", 0, 0, 1, none, none⟩, 0), (⟨"speedWpm", 1, 7, 8, none, none⟩, 0),
    (⟨"sideToneFreq", 2, 7, 8, none, none⟩, 5), (⟨"weight", 3, 7, 8, none, none⟩, 50),
    (⟨"leadInTime", 4, 7, 8, none, none⟩, 10), (⟨"tailTime", 5, 7, 8, none, none⟩, 10),
    (⟨"minWpm", 6, 7, 8, none, none⟩, 10), (⟨"wpmRange", 7, 7, 8, none, none⟩, 50),
    (⟨"1stExtension", 8, 7, 8, none, none⟩, 0), (⟨"keyComp", 9, 7, 8, none, none⟩, 0),
    (⟨"farnsWpm", 10, 7, 8, none, none⟩, 0), (⟨"paddleSetpoint", 11, 7, 8, none, none⟩, 50),
    (⟨"ditDahRatio", 12, 7, 8, none, none⟩, 50), (⟨"pinConfig", 13, 3, 4, none, none⟩, 5),
    (⟨"hangTime", 13, 5, 2, none, none⟩, 0), (⟨"ultimaticMode", 13, 7, 2, none, none⟩, 0),
    (⟨"potRange", 14, 7, 8, none, none⟩, 255)]

def wkmCitems : List CfgItem := wkmDefaults.map Prod.fst

inductive WkmState
  | offline | hostClosed | hostOpen | hostOpenSent
deriving DecidableEq

inductive WkmResult
  | ok | deviceOffline | ioError | busy
deriving DecidableEq

/-- `struct wkman`. -/
structure Wkman where
  cfg : List UInt8
  state : WkmState
deriving DecidableEq

namespace Wkman

/-- `wkm_set_value`; a value that is not accepted leaves the settings as they are. -/
def wkmSetValue (cfg : List UInt8) (key : String) (val : UInt8) : List UInt8 :=
  setStep wkmCitems cfg ⟨key, val.toNat⟩

/-- The settings of `wkm_create`. -/
def defaultCfg : List UInt8 :=
  wkmDefaults.foldl (fun cfg i => wkmSetValue cfg i.1.key (UInt8.ofNat i.2)) (List.replicate WK_CFG_SIZE 0)

/-- `wkm_foreach`: the settings by their keys. -/
def wkmForeach (cfg : List UInt8) : List (String × Int) :=
  wkmCitems.filterMap fun i =>
    let val := citemGetValue wkmCitems cfg i.key
    if val < 0 then none else some (i.key, val)

/-- The settings of `apply_winkey_from_json`; `none` is a value that is no number. -/
def applySettings (cfg : List UInt8) (winkey : List (String × Option Int)) : List UInt8 :=
  winkey.foldl (fun cfg p => p.2.elim cfg fun ival => wkmSetValue cfg p.1 (UInt8.ofInt ival)) cfg

end Wkman

/-- A keyer with a WinKey: `online` is `mhc_is_online`, `room` the space in the buffer of the channel while the router has
its device open, `sent` what was put there. -/
structure Winkey where
  online : Bool := false
  wkman : Option Wkman := none
  room : Option Nat := none
  sent : List (List UInt8) := []

namespace Winkey

open Wkman

/-- `mhr_send_in`. -/
def sendIn (s : Winkey) (cmd : List UInt8) : Winkey × Bool :=
  match s.room with
  | none => (s, false)
  | some room =>
    if room < cmd.length then (s, false) else ({ s with room := some (room - cmd.length), sent := s.sent ++ [cmd] }, true)

/-- `wkm_reset`. -/
def wkmReset (s : Winkey) (w : Wkman) : Winkey × WkmResult :=
  if !s.online then ({ s with wkman := some w }, .deviceOffline)
  else
    match s.sendIn [0x00, 0x01] with
    | (s, false) => ({ s with wkman := some w }, .ioError)
    | (s, true) => ({ s with wkman := some { w with state := .hostClosed } }, .ok)

/-- `wkm_write_cfg`. -/
def wkmWriteCfg (s : Winkey) (w : Wkman) : Winkey × WkmResult :=
  if !s.online then (s, .deviceOffline)
  else if w.state ≠ .hostOpen ∧ w.state ≠ .hostClosed then (s, .busy)
  else
    match s.sendIn (0x0f :: w.cfg) with
    | (s, false) => (s, .ioError)
    | (s, true) => (s, .ok)

/-- `keyer_state_changed_cb`, for an event about this keyer. -/
def keyerStateChangedCb (s : Winkey) (online : Bool) : Winkey :=
  match s.wkman with
  | none => s
  | some w =>
    if online then
      match s.wkmReset { w with state := .hostClosed } with
      | (s, .ok) => (s.wkmWriteCfg { w with state := .hostClosed }).1
      | (s, _) => s
    else { s with wkman := some { w with state := .offline } }

/-- `wkm_create`. -/
def wkmCreate (s : Winkey) : Wkman := ⟨defaultCfg, if s.online then .hostClosed else .offline⟩

/-- `apply_winkey_from_json`. -/
def applyWinkeyFromJson (s : Winkey) (winkey : Option (List (String × Option Int))) : Winkey :=
  let (w, created) := match s.wkman with
    | some w => (w, false)
    | none => (s.wkmCreate, true)
  let w := { w with cfg := applySettings w.cfg (winkey.getD []) }
  let s := { s with wkman := some w }
  if (created || winkey.isSome) && s.online then (s.wkmWriteCfg w).1 else s

/-- `read_cb`. -/
def readCb (s : Winkey) : Winkey :=
  match s.wkman with
  | some ⟨cfg, .hostOpenSent⟩ => (({ s with wkman := some ⟨cfg, .hostOpen⟩ } : Winkey).wkmWriteCfg ⟨cfg, .hostOpen⟩).1
  | _ => s

/-- `timeout_cb`. -/
def timeoutCb (s : Winkey) : Winkey :=
  match s.wkman with
  | some ⟨cfg, .hostOpenSent⟩ => { s with wkman := some ⟨cfg, .hostClosed⟩ }
  | _ => s

end Winkey

/-- What happens to the WinKey; the router has room for so many bytes, if its device is open. -/
inductive WinkeyEv
  | keyerState (online : Bool) (room : Option Nat)
  | settings (winkey : Option (List (String × Option Int))) (room : Option Nat)
  | reply (room : Option Nat)
  | timeout

namespace Winkey

def step (s : Winkey) : WinkeyEv → Winkey
  | .keyerState online room => { s with online := online, room := room }.keyerStateChangedCb online
  | .settings winkey room => { s with room := room }.applyWinkeyFromJson winkey
  | .reply room => { s with room := room }.readCb
  | .timeout => s.timeoutCb

end Winkey

/-! ### The settings -/

namespace Wkman

variable {cfg : List UInt8} {key : String} {val : UInt8}

/-- All options are bits of one byte of the 15. -/
theorem wkmCitems_plain : ∀ i ∈ wkmCitems, ¬ i.IsWord ∧ i.Inside WK_CFG_SIZE ∧ i.convIn = none ∧ i.convOut = none := by
  decide

theorem itemTable_wkm : ItemTable wkmCitems where
  ok := by decide
  apart := by decide
  conv := fun i hi => .inl (wkmCitems_plain i hi).2.2

theorem regular (hlen : cfg.length = WK_CFG_SIZE) (key : String) (v : Nat) : Citem.Regular wkmCitems cfg.length key v := by
  intro i hi
  obtain ⟨hword, hin, hconv, -⟩ := wkmCitems_plain i (find_mem hi)
  rw [if_neg hword, hlen, hconv]
  refine ⟨⟨hin, ?_⟩, nofun⟩
  simp [CfgItem.input, hconv]

/-- The calls of `wkm_set_value` for the settings of a request. -/
def calls (winkey : List (String × Option Int)) : List Call :=
  winkey.filterMap fun p => p.2.map fun ival => ⟨p.1, (UInt8.ofInt ival).toNat⟩

theorem applySettings_eq (cfg : List UInt8) (winkey : List (String × Option Int)) :
    applySettings cfg winkey = Run.run (setStep wkmCitems) cfg (calls winkey) := by
  induction winkey generalizing cfg with
  | nil => rfl
  | cons p winkey ih =>
    rcases p with ⟨key, _ | ival⟩
    · exact ih cfg
    · exact ih (wkmSetValue cfg key (UInt8.ofInt ival))

theorem length_run (hlen : cfg.length = WK_CFG_SIZE) (cs : List Call) (hcs : ∀ c ∈ cs, ∃ v : Nat, c.value = v) :
    (Run.run (setStep wkmCitems) cfg cs).length = WK_CFG_SIZE := by
  induction cs generalizing cfg with
  | nil => exact hlen
  | cons c cs ih =>
    obtain ⟨v, hv⟩ := hcs c List.mem_cons_self
    have hset := (setGet_iff itemTable_wkm).mpr (hv ▸ regular hlen c.key v)
    exact ih ((length_setStep c hset).trans hlen) fun c hc => hcs c (List.mem_cons_of_mem _ hc)

theorem calls_nat (winkey : List (String × Option Int)) : ∀ c ∈ calls winkey, ∃ v : Nat, c.value = v := by
  intro c hc
  obtain ⟨p, -, hp⟩ := List.mem_filterMap.mp hc
  obtain ⟨ival, -, rfl⟩ := Option.map_eq_some_iff.mp hp
  exact ⟨_, rfl⟩

theorem length_applySettings (hlen : cfg.length = WK_CFG_SIZE) (winkey : List (String × Option Int)) :
    (applySettings cfg winkey).length = WK_CFG_SIZE := by
  rw [applySettings_eq]
  exact length_run hlen _ (calls_nat winkey)

/-- The values after a request: those of the last settings that were accepted. -/
theorem getValue_applySettings (hlen : cfg.length = WK_CFG_SIZE) (winkey : List (String × Option Int)) :
    citemGetValue wkmCitems (applySettings cfg winkey) =
      Run.run (valuesStep wkmCitems WK_CFG_SIZE) (citemGetValue wkmCitems cfg) (calls winkey) := by
  have hall : SetGetAll wkmCitems cfg (calls winkey) := by
    refine (setGetAll_iff itemTable_wkm cfg _).mpr fun c hc => ?_
    obtain ⟨v, hv⟩ := calls_nat winkey c hc
    exact hv ▸ regular hlen c.key v
  rw [applySettings_eq, hall.2, hlen]

/-- The value of a key before anything is set. -/
def defaultValue (key : String) : Int := (wkmDefaults.find? fun i => key == i.1.key).elim (-1) fun i => i.2

theorem length_defaultCfg : defaultCfg.length = WK_CFG_SIZE := by decide +kernel

theorem getValue_default_mem : ∀ i ∈ wkmDefaults, citemGetValue wkmCitems defaultCfg i.1.key = i.2 := by decide +kernel

theorem getValue_defaultCfg : citemGetValue wkmCitems defaultCfg = defaultValue := by
  funext key
  unfold defaultValue
  rcases h : wkmDefaults.find? fun i => key == i.1.key with _ | i
  · have hfind : citemFind wkmCitems key = none := by
      rw [citemFind, wkmCitems, List.find?_map]
      simpa [Function.comp_def] using h
    unfold citemGetValue
    rw [hfind, h]
    rfl
  · have hkey : key = i.1.key := eq_of_beq (List.find?_some (p := fun i : CfgItem × Nat => key == i.1.key) h)
    rw [h]
    show citemGetValue wkmCitems defaultCfg key = i.2
    rw [hkey]
    exact getValue_default_mem i (List.mem_of_find?_eq_some h)

/-! ### Saved settings -/

/-- The bits of the options are all there are. -/
theorem covered : ∀ n < WK_CFG_SIZE, ∀ k < 8, ∃ i ∈ wkmCitems, i.field.Has n k := by decide

theorem eq_of_reads {s s' : List UInt8} (hlen : s.length = WK_CFG_SIZE) (hlen' : s'.length = WK_CFG_SIZE)
    (h : ∀ i ∈ wkmCitems, i.read s' = i.read s) : s' = s := by
  refine List.ext_getElem (hlen'.trans hlen.symm) fun n hn' hn => ?_
  refine UInt8.eq_of_toBitVec_eq (BitVec.eq_of_getLsbD_eq fun k hk => ?_)
  obtain ⟨i, hi, hbyte, hfrom, hto⟩ := covered n (hlen ▸ hn) k hk
  have hread := h i hi
  obtain ⟨hword, -⟩ := wkmCitems_plain i hi
  unfold CfgItem.read at hread
  rw [if_neg hword, if_neg hword] at hread
  have hbit := congrArg (Nat.testBit · (k - i.field.shift)) hread
  simp only [BitField.testBit_get] at hbit
  have hoffset : k - i.field.shift < i.field.width := by omega
  have hplace : i.field.shift + (k - i.field.shift) = k := by omega
  rw [hplace, ← hbyte] at hbit
  simpa [hoffset, BitField.bit, List.getD_eq_getElem?_getD, hn, hn'] using hbit

theorem citemFind_of_nodup {is : List CfgItem} (h : (is.map CfgItem.key).Nodup) {i : CfgItem} (hi : i ∈ is) :
    citemFind is i.key = some i := by
  induction is with
  | nil => exact absurd hi List.not_mem_nil
  | cons j is ih =>
    obtain ⟨hj, hrest⟩ := List.nodup_cons.mp h
    rcases List.mem_cons.mp hi with rfl | hi
    · rw [citemFind, List.find?_cons, beq_self_eq_true]
    · have hne : (i.key == j.key) = false :=
        beq_eq_false_iff_ne.mpr fun hkey => hj (hkey ▸ List.mem_map_of_mem hi)
      rw [citemFind, List.find?_cons, hne]
      exact ih hrest hi

theorem citemFind_mem (i : CfgItem) (hi : i ∈ wkmCitems) : citemFind wkmCitems i.key = some i :=
  citemFind_of_nodup (by decide) hi

theorem read_le (s : List UInt8) {i : CfgItem} (hi : i ∈ wkmCitems) : i.read s ≤ i.limit := by
  obtain ⟨hword, -⟩ := wkmCitems_plain i hi
  unfold CfgItem.read
  rw [if_neg hword]
  exact BitField.read_lt ..

theorem limit_le : ∀ i ∈ wkmCitems, i.limit ≤ 255 := by decide

theorem getValue_mem (hlen : cfg.length = WK_CFG_SIZE) {i : CfgItem} (hi : i ∈ wkmCitems) :
    citemGetValue wkmCitems cfg i.key = i.read cfg := by
  obtain ⟨-, hin, -, hout⟩ := wkmCitems_plain i hi
  rw [getValue_some (citemFind_mem i hi), hlen, if_pos hin, CfgItem.output, hout]
  rfl

theorem wkmForeach_eq (hlen : cfg.length = WK_CFG_SIZE) :
    wkmForeach cfg = wkmCitems.map fun i => (i.key, (i.read cfg : Int)) := by
  rw [wkmForeach, ← List.filterMap_eq_map]
  refine List.filterMap_congr fun i hi => ?_
  rw [getValue_mem hlen hi]
  simp

/-- The options that were set are those of the other settings, and stay so. -/
theorem reads_run {s : List UInt8} (d is : List CfgItem) (his : ∀ i ∈ is, i ∈ wkmCitems) (hlen : cfg.length = WK_CFG_SIZE)
    (hd : ∀ i ∈ d, i ∈ wkmCitems ∧ i.read cfg = i.read s) :
    ∀ i ∈ d ++ is, i.read (Run.run (setStep wkmCitems) cfg (is.map fun i => ⟨i.key, (i.read s : Int)⟩)) = i.read s := by
  induction is generalizing cfg d with
  | nil =>
    intro i hi
    exact (hd i (by simpa using hi)).2
  | cons j is ih =>
    have hj := his j List.mem_cons_self
    have hset := (setGet_iff itemTable_wkm).mpr (regular hlen j.key (j.read s))
    have haccepted : Accepts wkmCitems cfg.length j.key (j.read s : Int) := by
      obtain ⟨-, hin, hconv, -⟩ := wkmCitems_plain j hj
      rw [accepts_iff _ _ (citemFind_mem j hj), hlen]
      refine ⟨hin, ?_, ?_⟩
      · simp [CfgItem.input, hconv]
      · simpa [CfgItem.input, hconv] using read_le s hj
    obtain ⟨s', hs', hval, -, hothers⟩ := hset.1 haccepted j (citemFind_mem j hj)
    have hstep : setStep wkmCitems cfg ⟨j.key, (j.read s : Int)⟩ = s' := by
      unfold setStep
      rw [hs']
      rfl
    have hlen' : s'.length = WK_CFG_SIZE := hstep ▸ (length_setStep _ hset).trans hlen
    have hread : j.read s' = j.read s := by
      rw [getValue_mem hlen' hj] at hval
      exact_mod_cast hval
    rw [List.map_cons, Run.run_cons, hstep]
    intro i hi
    refine ih (d ++ [j]) (fun i hi => his i (List.mem_cons_of_mem _ hi)) hlen' (fun i hi => ?_) i (by simpa using hi)
    rcases List.mem_append.mp hi with hi | hi
    · obtain ⟨hmem, hold⟩ := hd i hi
      refine ⟨hmem, ?_⟩
      by_cases hij : i = j
      · rw [hij, hread]
      · rw [hothers i hmem hij, hold]
    · rw [List.mem_singleton.mp hi]
      exact ⟨hj, hread⟩

/-- Settings that are saved and set again, whatever was set before, are the same 15 bytes. -/
theorem applySettings_foreach {s : List UInt8} (hlen : cfg.length = WK_CFG_SIZE) (hs : s.length = WK_CFG_SIZE) :
    applySettings cfg ((wkmForeach s).map fun p => (p.1, some p.2)) = s := by
  have hcalls : calls ((wkmForeach s).map fun p => (p.1, some p.2)) =
      wkmCitems.map fun i => ⟨i.key, (i.read s : Int)⟩ := by
    rw [wkmForeach_eq hs, calls, List.map_map, List.filterMap_map, ← List.filterMap_eq_map]
    refine List.filterMap_congr fun i hi => ?_
    have hle := (read_le s hi).trans (limit_le i hi)
    have hbyte : (UInt8.ofInt (i.read s : Int)).toNat = i.read s := by
      simp only [UInt8.ofInt, UInt8.toNat_ofNat']
      omega
    simp [hbyte]
  refine eq_of_reads hs (length_applySettings hlen _) fun i hi => ?_
  rw [applySettings_eq, hcalls]
  exact reads_run [] wkmCitems (fun _ hi => hi) hlen nofun i hi

end Wkman

/-! ### What the WinKey is told -/

namespace Winkey

open Wkman

/-- The router has room for what is sent at once. -/
def Room (s : Winkey) : WinkeyEv → Prop
  | .keyerState online room => online = true → s.wkman.isSome → 18 ≤ room.getD 0
  | .settings _ room => s.online = true → 16 ≤ room.getD 0
  | _ => True

/-- The values of the keys after the settings of an event. -/
def settingsStep (values : String → Int) : WinkeyEv → String → Int
  | .settings winkey _ => Run.run (valuesStep wkmCitems WK_CFG_SIZE) values (calls (winkey.getD []))
  | _ => values

/-- The manager has these settings, and the WinKey of a keyer that is online was told of them last. -/
structure Told (s : Winkey) (values : String → Int) : Prop where
  fresh : s.wkman = none → values = defaultValue
  length : ∀ w ∈ s.wkman, w.cfg.length = WK_CFG_SIZE
  state : ∀ w ∈ s.wkman, w.state = if s.online then .hostClosed else .offline
  value : ∀ w ∈ s.wkman, citemGetValue wkmCitems w.cfg = values
  sent : s.online = true → ∀ w ∈ s.wkman, ∃ earlier, s.sent = earlier ++ [0x0f :: w.cfg]

theorem wkman_sendIn (s : Winkey) (cmd : List UInt8) : (s.sendIn cmd).1.wkman = s.wkman := by
  unfold sendIn
  split
  · rfl
  · split_ifs <;> rfl

theorem wkman_wkmWriteCfg (s : Winkey) (w : Wkman) : (s.wkmWriteCfg w).1.wkman = s.wkman := by
  have h := s.wkman_sendIn (0x0f :: w.cfg)
  unfold wkmWriteCfg
  split_ifs
  · rfl
  · rfl
  · split <;> rename_i hsend <;> rw [hsend] at h <;> exact h

theorem cfg_wkmReset (s : Winkey) (w : Wkman) : (s.wkmReset w).1.wkman.map Wkman.cfg = some w.cfg := by
  unfold wkmReset
  split_ifs
  · rfl
  · split <;> rfl

/-- Only settings change what is written. -/
theorem cfg_keyerState (s : Winkey) (online : Bool) :
    (s.keyerStateChangedCb online).wkman.map Wkman.cfg = s.wkman.map Wkman.cfg := by
  rcases s with ⟨on, _ | w, room, sent⟩
  · rfl
  · have h := (⟨on, some w, room, sent⟩ : Winkey).cfg_wkmReset { w with state := .hostClosed }
    simp only [keyerStateChangedCb]
    split_ifs
    · split
      · rename_i hreset
        rw [hreset] at h
        rw [wkman_wkmWriteCfg]
        exact h
      · rename_i hreset
        rw [hreset] at h
        exact h
    · rfl

theorem cfg_readCb (s : Winkey) : s.readCb.wkman.map Wkman.cfg = s.wkman.map Wkman.cfg := by
  unfold readCb
  split
  · rename_i cfg hman
    rw [wkman_wkmWriteCfg, hman]
    rfl
  · rfl

theorem cfg_timeoutCb (s : Winkey) : s.timeoutCb.wkman.map Wkman.cfg = s.wkman.map Wkman.cfg := by
  unfold timeoutCb
  split
  · rename_i cfg hman
    rw [hman]
    rfl
  · rfl

theorem wkman_applyWinkey (s : Winkey) (winkey : Option (List (String × Option Int))) :
    (s.applyWinkeyFromJson winkey).wkman.map Wkman.cfg =
      some (applySettings (s.wkman.elim defaultCfg Wkman.cfg) (winkey.getD [])) := by
  rcases s with ⟨on, _ | w, room, sent⟩ <;> simp only [applyWinkeyFromJson, wkmCreate, Option.elim_none, Option.elim_some]
  · by_cases h : ((true || winkey.isSome) && on) = true
    · rw [if_pos h, wkman_wkmWriteCfg, Option.map_some]
    · rw [if_neg h, Option.map_some]
  · by_cases h : ((false || winkey.isSome) && on) = true
    · rw [if_pos h, wkman_wkmWriteCfg, Option.map_some]
    · rw [if_neg h, Option.map_some]

/-- There are always 15 bytes to write. -/
def Whole (s : Winkey) : Prop := ∀ cfg ∈ s.wkman.map Wkman.cfg, cfg.length = WK_CFG_SIZE

theorem Whole.settingsLength {s : Winkey} (h : s.Whole) : (s.wkman.elim defaultCfg Wkman.cfg).length = WK_CFG_SIZE := by
  rcases hman : s.wkman with _ | w
  · rw [Option.elim_none]
    exact length_defaultCfg
  · exact h w.cfg (by rw [hman]; rfl)

theorem Whole.step {s : Winkey} (h : s.Whole) (e : WinkeyEv) : (s.step e).Whole := by
  intro cfg hcfg
  cases e with
  | keyerState online room =>
    rw [Winkey.step, cfg_keyerState] at hcfg
    exact h cfg hcfg
  | settings winkey room =>
    rw [Winkey.step, wkman_applyWinkey, Option.mem_some_iff] at hcfg
    rw [← hcfg]
    exact length_applySettings h.settingsLength _
  | reply room =>
    rw [Winkey.step, cfg_readCb] at hcfg
    exact h cfg hcfg
  | timeout =>
    rw [Winkey.step, cfg_timeoutCb] at hcfg
    exact h cfg hcfg

theorem Whole.run {s : Winkey} (h : s.Whole) (evs : List WinkeyEv) : (Run.run Winkey.step s evs).Whole := by
  induction evs generalizing s with
  | nil => exact h
  | cons e evs ih => exact ih (h.step e)

/-- The settings of a keyer in the file, `none` before it has a manager. -/
def saved (s : Winkey) : Option (List (String × Option Int)) :=
  s.wkman.map fun w => (wkmForeach w.cfg).map fun p => (p.1, some p.2)

/-- A keyer that is given the saved settings of another, whatever either of them went through, writes the same 15 bytes. -/
theorem settings_survive_restart (evs evs' : List WinkeyEv) (room : Option Nat) :
    ∀ w ∈ (Run.run Winkey.step {} evs).wkman,
      ((Run.run Winkey.step {} evs').step (.settings (Run.run Winkey.step {} evs).saved room)).wkman.map Wkman.cfg =
        some w.cfg := by
  intro w hw
  have hstart : ({} : Winkey).Whole := nofun
  have hlen := hstart.run evs w.cfg (by rw [Option.mem_def.mp hw]; rfl)
  have hsaved : (Run.run Winkey.step {} evs).saved = some ((wkmForeach w.cfg).map fun p => (p.1, some p.2)) := by
    rw [saved, Option.mem_def.mp hw]
    rfl
  rw [hsaved, step, wkman_applyWinkey, Option.getD_some]
  exact congrArg some (applySettings_foreach (hstart.run evs').settingsLength hlen)

/-- A keyer with this speed. -/
def speedRun (wpm : Int) : List WinkeyEv := [.settings (some [("speedWpm", some wpm)]) none]

theorem settings_survive_restart_speed :
    ((Run.run Winkey.step {} (speedRun 31)).step
      (.settings (Run.run Winkey.step {} (speedRun 28)).saved none)).wkman.map Wkman.cfg = some (defaultCfg.set 1 28) := by
  have hw : (Run.run Winkey.step {} (speedRun 28)).wkman = some ⟨defaultCfg.set 1 28, .offline⟩ := by decide +kernel
  have hcfg := settings_survive_restart (speedRun 28) (speedRun 31) none _ hw
  dsimp only at hcfg
  exact hcfg

theorem sendIn_of_room {s : Winkey} {cmd : List UInt8} (h : cmd.length ≤ s.room.getD 0) (hpos : 0 < cmd.length) :
    s.sendIn cmd = ({ s with room := some (s.room.getD 0 - cmd.length), sent := s.sent ++ [cmd] }, true) := by
  unfold sendIn
  cases hr : s.room with
  | none =>
    rw [hr] at h
    exact absurd hpos (by simpa using h)
  | some room =>
    rw [hr] at h
    exact if_neg (by simpa using h)

theorem wkmReset_of_room {s : Winkey} (w : Wkman) (hon : s.online = true) (hroom : 2 ≤ s.room.getD 0) :
    s.wkmReset w =
      ({ s with
        wkman := some { w with state := .hostClosed }
        room := some (s.room.getD 0 - 2)
        sent := s.sent ++ [[0x00, 0x01]] }, .ok) := by
  have hlen : ([0x00, 0x01] : List UInt8).length ≤ s.room.getD 0 := hroom
  have hsend := sendIn_of_room hlen (by decide)
  simp [wkmReset, hon, hsend]

theorem wkmWriteCfg_of_room {s : Winkey} {w : Wkman} (hon : s.online = true) (hstate : w.state = .hostClosed)
    (hlen : w.cfg.length = WK_CFG_SIZE) (hroom : 16 ≤ s.room.getD 0) :
    s.wkmWriteCfg w = ({ s with room := some (s.room.getD 0 - 16), sent := s.sent ++ [0x0f :: w.cfg] }, .ok) := by
  have hcmd : (0x0f :: w.cfg).length = 16 := by rw [List.length_cons, hlen]; rfl
  have hsend := sendIn_of_room (s := s) (hcmd ▸ hroom) (by simp)
  rw [hcmd] at hsend
  simp [wkmWriteCfg, hon, hstate, hsend]

namespace Told

variable {on : Bool} {man : Option Wkman} {room : Option Nat} {sent : List (List UInt8)} {values : String → Int} {w : Wkman}

/-- Nothing is there that could be told. -/
theorem of_none (h : Told ⟨on, none, room, sent⟩ values) (on' : Bool) (room' : Option Nat) :
    Told ⟨on', none, room', sent⟩ values :=
  ⟨h.fresh, nofun, nofun, nofun, fun _ => nofun⟩

theorem of_offline (hlen : w.cfg.length = WK_CFG_SIZE) (hval : citemGetValue wkmCitems w.cfg = values) :
    Told ⟨false, some ⟨w.cfg, .offline⟩, room, sent⟩ values :=
  ⟨nofun, by simpa using hlen, by simp, by simpa using hval, nofun⟩

theorem of_written (hlen : w.cfg.length = WK_CFG_SIZE) (hval : citemGetValue wkmCitems w.cfg = values) :
    Told ⟨true, some ⟨w.cfg, .hostClosed⟩, room, sent ++ [0x0f :: w.cfg]⟩ values :=
  ⟨nofun, by simpa using hlen, by simp, by simpa using hval, fun _ w' hw' => ⟨sent, by
    rw [← Option.some.inj hw']⟩⟩

theorem keyerState (h : Told ⟨on, man, room, sent⟩ values) (on' : Bool) (room' : Option Nat)
    (hroom : on' = true → man.isSome → 18 ≤ room'.getD 0) :
    Told ((⟨on', man, room', sent⟩ : Winkey).keyerStateChangedCb on') values := by
  rcases man with _ | w
  · exact h.of_none on' room'
  · have hlen := h.length w rfl
    have hval := h.value w rfl
    cases on' with
    | false => exact of_offline hlen hval
    | true =>
      have hr : 18 ≤ room'.getD 0 := hroom rfl rfl
      have hreset := wkmReset_of_room (s := ⟨true, some w, room', sent⟩) ⟨w.cfg, .hostClosed⟩ rfl
        (by show 2 ≤ room'.getD 0; omega)
      have hwrite := wkmWriteCfg_of_room
        (s := ⟨true, some ⟨w.cfg, .hostClosed⟩, some (room'.getD 0 - 2), sent ++ [[0x00, 0x01]]⟩)
        (w := ⟨w.cfg, .hostClosed⟩) rfl rfl hlen (by show 16 ≤ room'.getD 0 - 2; omega)
      simp only [keyerStateChangedCb, if_true, hreset, hwrite]
      exact of_written hlen hval

theorem settings (h : Told ⟨on, man, room, sent⟩ values) (winkey : Option (List (String × Option Int)))
    (room' : Option Nat) (hroom : on = true → 16 ≤ room'.getD 0) :
    Told ((⟨on, man, room', sent⟩ : Winkey).applyWinkeyFromJson winkey)
      (Run.run (valuesStep wkmCitems WK_CFG_SIZE) values (calls (winkey.getD []))) := by
  rcases man with _ | w
  · have hval := getValue_applySettings length_defaultCfg (winkey.getD [])
    rw [getValue_defaultCfg, ← h.fresh rfl] at hval
    have hlen := length_applySettings length_defaultCfg (winkey.getD [])
    cases on with
    | false =>
      simp only [applyWinkeyFromJson, wkmCreate, Bool.and_false, Bool.false_eq_true, if_false]
      exact of_offline (w := ⟨_, .offline⟩) hlen hval
    | true =>
      have hwrite := wkmWriteCfg_of_room
        (s := ⟨true, some ⟨applySettings defaultCfg (winkey.getD []), .hostClosed⟩, room', sent⟩)
        (w := ⟨applySettings defaultCfg (winkey.getD []), .hostClosed⟩) rfl rfl hlen (hroom rfl)
      simp only [applyWinkeyFromJson, wkmCreate, if_true, Bool.true_or, Bool.and_self, hwrite]
      exact of_written (w := ⟨_, .hostClosed⟩) hlen hval
  · have hval := getValue_applySettings (h.length w rfl) (winkey.getD [])
    rw [h.value w rfl] at hval
    have hlen := length_applySettings (h.length w rfl) (winkey.getD [])
    have hstate := h.state w rfl
    cases on with
    | false =>
      simp only [applyWinkeyFromJson, Bool.and_false, Bool.false_eq_true, if_false]
      rw [hstate]
      exact of_offline (w := ⟨applySettings w.cfg (winkey.getD []), .offline⟩) hlen hval
    | true =>
      rcases winkey with _ | winkey
      · exact ⟨h.fresh, h.length, h.state, h.value, h.sent⟩
      · have hwrite := wkmWriteCfg_of_room (s := ⟨true, some ⟨applySettings w.cfg winkey, w.state⟩, room', sent⟩)
          (w := ⟨applySettings w.cfg winkey, w.state⟩) rfl hstate hlen (hroom rfl)
        simp only [applyWinkeyFromJson, Option.isSome_some, Bool.or_true, Bool.and_self, if_true, Option.getD_some, hwrite]
        rw [hstate]
        exact of_written (w := ⟨_, .hostClosed⟩) hlen hval

/-- The manager never waits for an answer. -/
theorem state_ne (h : Told ⟨on, some w, room, sent⟩ values) : w.state ≠ .hostOpenSent := by
  rw [h.state w rfl]
  split_ifs <;> decide

theorem reply (h : Told ⟨on, man, room, sent⟩ values) (room' : Option Nat) :
    Told ((⟨on, man, room', sent⟩ : Winkey).readCb) values := by
  unfold readCb
  split
  · rename_i cfg hman
    obtain rfl : man = _ := hman
    exact absurd rfl h.state_ne
  · exact ⟨h.fresh, h.length, h.state, h.value, h.sent⟩

theorem timeout (h : Told ⟨on, man, room, sent⟩ values) : Told ((⟨on, man, room, sent⟩ : Winkey).timeoutCb) values := by
  unfold timeoutCb
  split
  · rename_i cfg hman
    obtain rfl : man = _ := hman
    exact absurd rfl h.state_ne
  · exact h

end Told

theorem Told.step {s : Winkey} {values : String → Int} (h : Told s values) {e : WinkeyEv} (hroom : Room s e) :
    Told (s.step e) (settingsStep values e) := by
  cases e with
  | keyerState online room => exact h.keyerState online room hroom
  | settings winkey room => exact h.settings winkey room hroom
  | reply room => exact h.reply room
  | timeout => exact h.timeout

theorem Told.run {s : Winkey} {values : String → Int} (h : Told s values) {evs : List WinkeyEv}
    (hroom : Run.StepsOk Winkey.step Room s evs) : Told (Run.run Winkey.step s evs) (Run.run settingsStep values evs) := by
  induction evs generalizing s values with
  | nil => exact h
  | cons e evs ih => exact ih (h.step hroom.1) hroom.2

/-- In every run in which the router has room for the commands, the WinKey of a keyer that is online was last told of 15
bytes whose options have the values that were set last, of those that were accepted, and the defaults elsewhere. -/
theorem winkey_told {evs : List WinkeyEv} (hroom : Run.StepsOk Winkey.step Room {} evs) {w : Wkman}
    (hw : (Run.run Winkey.step {} evs).wkman = some w) (hon : (Run.run Winkey.step {} evs).online = true) :
    ∃ earlier, (Run.run Winkey.step {} evs).sent = earlier ++ [0x0f :: w.cfg] ∧ w.cfg.length = WK_CFG_SIZE ∧
      citemGetValue wkmCitems w.cfg = Run.run settingsStep defaultValue evs := by
  have hstart : Told {} defaultValue := ⟨fun _ => rfl, nofun, nofun, nofun, nofun⟩
  have htold := hstart.run hroom
  obtain ⟨earlier, hsent⟩ := htold.sent hon w hw
  exact ⟨earlier, hsent, htold.length w hw, htold.value w hw⟩

/-- A speed is set, a mode that doesn't fit its bits and a weight that is no number; then the keyer comes online. -/
def toldRun : List WinkeyEv :=
  [.settings (some [("speedWpm", some 28), ("keyMode", some 4), ("weight", none)]) none, .keyerState true (some 18)]

theorem winkey_told_online :
    (Run.run settingsStep defaultValue toldRun "speedWpm" = 28 ∧ Run.run settingsStep defaultValue toldRun "keyMode" = 0 ∧
        Run.run settingsStep defaultValue toldRun "weight" = 50) ∧
      ∃ earlier, (Run.run Winkey.step {} toldRun).sent = earlier ++ [0x0f :: defaultCfg.set 1 28] ∧
        (defaultCfg.set 1 28).length = WK_CFG_SIZE ∧
        citemGetValue wkmCitems (defaultCfg.set 1 28) = Run.run settingsStep defaultValue toldRun := by
  have hroom : Run.StepsOk Winkey.step Room {} toldRun := ⟨nofun, fun _ _ => Nat.le_refl 18, trivial⟩
  have hw : (Run.run Winkey.step {} toldRun).wkman = some ⟨defaultCfg.set 1 28, .hostClosed⟩ := by decide +kernel
  have hon : (Run.run Winkey.step {} toldRun).online = true := by decide +kernel
  obtain ⟨earlier, hsent, hlen, hval⟩ := winkey_told hroom hw hon
  dsimp only at hsent hlen hval
  refine ⟨?_, earlier, hsent, hlen, hval⟩
  rw [← hval]
  decide +kernel

end Winkey

end Mhuxd
