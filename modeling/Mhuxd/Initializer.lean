import Mhuxd.Control
import Mhuxd.Lib.Run

/-!
# The initialization of a keyer (`mhcontrol.c`, `mhsm.c`)

`initializer_step` takes the keyer from its connect to `CTL_STATE_OK`, one command after the other; their
completions run the next step. Here the commands are known by what they are for and by their callback, and
the router by whether a command fits its buffer. `acked` and `settingsAcked` note what the keyer has
acknowledged, or the code has skipped, since the latest connect or restart notice; `reports` gets, each time
the state is set to `CTL_STATE_OK`, whether that was everything. No function reads these three.

The event loop that `sm_get_antsw` runs inside the last step is laid flat: the events in it are events of the
run, and `antswReturn` is what follows the loop.
-/

namespace Mhuxd

def MH_NUM_CHANNELS : Nat := 8

/-- `struct mhc_speed_cfg`. -/
structure SpeedCfg where
  baud : Rat
  stopbits : Rat
  databits : Int
  rtscts : Int
  rigtype : Int
  icomaddress : Int
  icomsimulateautoinfo : Int
  digitalovervoicerule : Int
  usedecoderifconnected : Int
  dontinterfereusbcontrol : Int
deriving DecidableEq

/-- The checks of `submit_speed_cmd` and `submit_speed_cmd_params`: radio and FSK channels are 4 to 7, the data
bits are taken as a byte. -/
def SpeedCfg.sendable (cfg : SpeedCfg) (channel : Nat) : Bool :=
  cfg.baud != 0 && (decide (4 ≤ channel) && decide (channel < MH_NUM_CHANNELS)) && cfg.databits % 256 != 0

/-- What a command is for. -/
inductive InitCmd
  | areYouThere
  | getVersion
  | setChannel (channel : Nat) (cfg : SpeedCfg)
  | setSettings
  | onConnect
  | getAntswBlock
  | other
deriving DecidableEq

/-- `cmd_completion_cb`. -/
inductive InitCb
  | initializer
  | heartbeat
  | antsw
  | other
deriving DecidableEq

/-- `struct command`; `id` tells the commands apart. -/
structure PendCmd where
  what : InitCmd
  cb : InitCb
  id : Nat
  sent : Bool
deriving DecidableEq

/-- `deferred_task_t`. -/
structure LateCmd where
  what : InitCmd
  cb : InitCb
  result : CmdResult
deriving DecidableEq

/-- Commands that other modules submit. -/
inductive OtherCmd
  | loadKopts
  | command
deriving DecidableEq

def OtherCmd.what : OtherCmd → InitCmd
  | .loadKopts => .setSettings
  | .command => .other

/-- What a block of the antenna switching settings does to the state of their download. -/
inductive AntswBlock
  | more
  | last
  | invalid
deriving DecidableEq

/-- What an event meets outside the control layer: the commands that fit the router's buffer, whether
`kcfg_create` succeeds, the block in the keyer's answer. -/
structure InitEnv where
  fits : Nat → Bool
  kcfgCreate : Bool
  block : AntswBlock

/-- `struct mh_control`, the part about the initialization. -/
structure Initializer where
  connected : Bool
  state : CtlState
  cmdList : List PendCmd
  deferred : List LateCmd
  submits : Nat
  speedIdx : Nat
  speedArgs : Nat → Option SpeedCfg
  speedParams : Nat → Option SpeedCfg
  kcfg : Bool
  hasDisplay : Bool
  sm : Bool
  /-- `sm_antsw_has_bandplan`. -/
  bandplan : Bool
  /-- `get_antsw_state` is neither EMPTY nor DONE. -/
  antswPending : Bool
  /-- `initializer_step` is in the loop of `sm_get_antsw`. -/
  inAntsw : Bool
  acked : List (Nat × SpeedCfg)
  settingsAcked : Bool
  reports : List Bool

namespace Initializer

/-- `mhc_create`. -/
def mhcCreate (kcfg hasDisplay sm : Bool) : Initializer where
  connected := false
  state := .disc
  cmdList := []
  deferred := []
  submits := 0
  speedIdx := 0
  speedArgs := fun _ => none
  speedParams := fun _ => none
  kcfg := kcfg
  hasDisplay := hasDisplay
  sm := sm
  bandplan := false
  antswPending := false
  inAntsw := false
  acked := []
  settingsAcked := false
  reports := []

/-- The channels below `n` have their settings acknowledged. -/
def AckedBelow (s : Initializer) (n : Nat) : Prop :=
  ∀ channel < n, ∀ cfg ∈ s.speedParams channel, (channel, cfg) ∈ s.acked

instance (s : Initializer) (n : Nat) : Decidable (s.AckedBelow n) :=
  inferInstanceAs (Decidable (∀ channel < n, ∀ cfg ∈ s.speedParams channel, (channel, cfg) ∈ s.acked))

/-- The keyer is connected and has acknowledged the settings of every valid channel and the settings block. -/
def Complete (s : Initializer) : Prop :=
  s.connected = true ∧ s.AckedBelow MH_NUM_CHANNELS ∧ s.settingsAcked = true

instance (s : Initializer) : Decidable s.Complete :=
  inferInstanceAs (Decidable (s.connected = true ∧ s.AckedBelow MH_NUM_CHANNELS ∧ s.settingsAcked = true))

/-- The keyer acknowledges the command. -/
def ack (s : Initializer) : InitCmd → Initializer
  | .setChannel channel cfg => { s with acked := s.acked ++ [(channel, cfg)] }
  | .setSettings => { s with settingsAcked := true }
  | _ => s

/-- A connect or a restart notice. -/
def forget (s : Initializer) : Initializer := { s with acked := [], settingsAcked := false }

/-- `set_state`. -/
def setState (s : Initializer) (state : CtlState) : Initializer :=
  { s with state := state, reports := if state = .ok then s.reports ++ [decide s.Complete] else s.reports }

/-- `defer_callback`. -/
def deferCallback (s : Initializer) (what : InitCmd) (cb : InitCb) (result : CmdResult) : Initializer :=
  { s with deferred := s.deferred ++ [⟨what, cb, result⟩] }

/-- The loop of `push_cmds`, with the list of commands. -/
def pushLoop (w : InitEnv) : List PendCmd → Initializer → Initializer
  | [], s => { s with cmdList := [] }
  | c :: cs, s =>
    if c.sent then { s with cmdList := c :: cs }
    else if s.connected && w.fits c.id then { s with cmdList := { c with sent := true } :: cs }
    else pushLoop w cs (s.deferCallback c.what c.cb .error)

/-- `push_cmds`. -/
def pushCmds (w : InitEnv) (s : Initializer) : Initializer := pushLoop w s.cmdList s

/-- `submit_cmd`. -/
def submitCmd (w : InitEnv) (s : Initializer) (what : InitCmd) (cb : InitCb) : Initializer :=
  if what ≠ .areYouThere ∧ Control.isConnected s.state = false then s.deferCallback what cb .offline
  else if MAX_CMD_QUEUE_SIZE < s.cmdList.length then s.deferCallback what cb .error
  else pushCmds w { s with cmdList := s.cmdList ++ [⟨what, cb, s.submits, false⟩], submits := s.submits + 1 }

/-- `submit_speed_cmd` and `submit_speed_cmd_params`. -/
def submitSpeedCmd (w : InitEnv) (s : Initializer) (channel : Nat) (cfg : SpeedCfg) (cb : InitCb) : Initializer :=
  if cfg.sendable channel then s.submitCmd w (.setChannel channel cfg) cb
  else s.deferCallback (.setChannel channel cfg) cb .error

def callOther (w : InitEnv) (s : Initializer) (c : OtherCmd) : Initializer := s.submitCmd w c.what .other

/-- The commands that callbacks of other modules submit. -/
def callOthers (w : InitEnv) (s : Initializer) (cs : List OtherCmd) : Initializer := cs.foldl (callOther w) s

/-- `sm_get_antsw` up to its loop. -/
def smGetAntsw (w : InitEnv) (s : Initializer) : Initializer :=
  if s.antswPending then s
  else { s with bandplan := true, antswPending := true }.submitCmd w .getAntswBlock .antsw

/-- The settings that the loop over the channels sends: the old configuration's come first. -/
def sendCfg (s : Initializer) (channel : Nat) : Option SpeedCfg := (s.speedArgs channel).or (s.speedParams channel)

/-- The loop over the channels, for the `n` channels left. -/
def speedLoop (w : InitEnv) : Nat → Initializer → Initializer
  | 0, s => s
  | n + 1, s =>
    match s.sendCfg s.speedIdx with
    | some cfg =>
      let s := (s.setState .setChannels).submitSpeedCmd w s.speedIdx cfg .initializer
      { s with speedIdx := s.speedIdx + 1 }
    | none => speedLoop w n { s with speedIdx := s.speedIdx + 1 }

/-- `initializer_step` in the state `CTL_STATE_SET_CHANNELS`. -/
def channelStep (w : InitEnv) (s : Initializer) : Initializer :=
  let s := speedLoop w (MH_NUM_CHANNELS - s.speedIdx) s
  if s.speedIdx < MH_NUM_CHANNELS then s
  else
    let s := { s with speedIdx := 0, kcfg := s.kcfg || w.kcfgCreate }
    if s.kcfg then (s.submitCmd w .setSettings .initializer).setState .loadCfg else s.setState .disabled

/-- `initializer_step` in the state `CTL_STATE_INIT`. -/
def versionStep (w : InitEnv) (s : Initializer) : Initializer :=
  let s := if s.hasDisplay then (s.submitCmd w .other .other).submitCmd w .other .other else s
  (s.setState .getVersion).submitCmd w .getVersion .initializer

/-- `initializer_step` in the state `CTL_STATE_ON_CONNECT`, up to the loop of `sm_get_antsw` if that is run. -/
def lastStep (w : InitEnv) (s : Initializer) : Initializer :=
  if s.sm ∧ ¬s.bandplan ∧ ¬s.antswPending then { s.smGetAntsw w with inAntsw := true }
  else s.setState .ok

/-- `initializer_step`. -/
def initializerStep (w : InitEnv) (s : Initializer) : Initializer :=
  match s.state with
  | .off => ({ s with speedIdx := 0 }.setState .init).submitCmd w .areYouThere .initializer
  | .init => s.versionStep w
  | .getVersion | .setChannels => s.channelStep w
  | .loadCfg => (s.submitCmd w .onConnect .initializer).setState .onConnect
  | .onConnect => s.lastStep w
  | .ok | .disc | .disabled => s

/-- `initializer_cb`, for the command `what`. -/
def initializerCb (w : InitEnv) (s : Initializer) (what : InitCmd) (result : CmdResult) : Initializer :=
  if s.state = .disc then s
  else if result ≠ .ok then
    if result = .error ∧ s.state = .setChannels then (s.ack what).initializerStep w
    else s.setState .off
  else s.initializerStep w

/-- `heartbeat_completed_cb`. -/
def heartbeatCompletedCb (w : InitEnv) (s : Initializer) : CmdResult → Initializer
  | .ok => if s.state = .off then s.initializerStep w else s
  | .timeout => if s.state = .ok then s.setState .off else s
  | _ => s

/-- `get_antsw_completion_cb`. -/
def getAntswCompletionCb (w : InitEnv) (s : Initializer) (result : CmdResult) : Initializer :=
  if result ≠ .ok then { s with antswPending := false }
  else match w.block with
    | .more => s.submitCmd w .getAntswBlock .antsw
    | .last | .invalid => { s with antswPending := false }

/-- A completion callback is called. -/
def complete (w : InitEnv) (s : Initializer) (what : InitCmd) (cb : InitCb) (result : CmdResult) : Initializer :=
  match cb with
  | .initializer => s.initializerCb w what result
  | .heartbeat => s.heartbeatCompletedCb w result
  | .antsw => s.getAntswCompletionCb w result
  | .other => s

/-- `flush_cmds` with `CMD_RESULT_OFFLINE`. -/
def flushCmds (w : InitEnv) (s : Initializer) : Initializer :=
  s.cmdList.foldl (fun s c => s.complete w c.what c.cb .offline) { s with cmdList := [] }

end Initializer

/-- The keyer's messages: the answer with the code of the first command, NOT SUPPORTED, JUST RESTARTED and all
others. -/
inductive KeyerMsg
  | answer
  | notSupported
  | justRestarted
  | report
deriving DecidableEq

/-- What happens to a control layer. -/
inductive InitEv
  | connect
  | disconnect
  /-- `cs` are the commands that other modules' callbacks submit on it. -/
  | message (m : KeyerMsg) (cs : List OtherCmd)
  | heartbeat
  | cmdTimeout
  /-- A deferred completion; the idle watchers run in any order. -/
  | deferred (i : Nat)
  | setSpeed (channel : Nat) (cfg : SpeedCfg)
  | setSpeedParams (channel : Nat) (cfg : SpeedCfg)
  | call (c : OtherCmd)
  /-- `sm_get_antsw`, called by another module. -/
  | getAntsw
  | antswReturn
deriving DecidableEq

namespace Initializer

/-- The branches of `control_channel_cb`. -/
def controlMessage (w : InitEnv) (s : Initializer) (m : KeyerMsg) (cs : List OtherCmd) : Initializer :=
  match s.cmdList, m with
  | c :: rest, .answer =>
    if c.sent then (({ s with cmdList := rest }.ack c.what).complete w c.what c.cb .ok).callOthers w cs
    else s.callOthers w cs
  | c :: rest, .notSupported =>
    if c.sent then ({ s with cmdList := rest }.complete w c.what c.cb .notSupported).callOthers w cs
    else s.callOthers w cs
  | _, .justRestarted =>
    if s.state = .ok then ((s.forget.setState .setChannels).callOthers w cs).initializerStep w
    else s.forget.callOthers w cs
  | _, _ => s.callOthers w cs

/-- `control_channel_cb`. -/
def controlChannelCb (w : InitEnv) (s : Initializer) (m : KeyerMsg) (cs : List OtherCmd) : Initializer :=
  let s := s.controlMessage w m cs
  let s := if s.state = .off then s.initializerStep w else s
  s.pushCmds w

/-- `router_status_cb` for a connect. -/
def statusConnected (w : InitEnv) (s : Initializer) : Initializer :=
  let s := { s.forget with connected := true }
  if s.state = .disc ∨ s.state = .off then (s.setState .off).initializerStep w else s

/-- `router_status_cb` for a disconnect, which the router reports once. -/
def statusDisconnected (w : InitEnv) (s : Initializer) : Initializer :=
  if s.connected then ({ s with connected := false }.setState .disc).flushCmds w else s

/-- `cmd_timeout_cb`. -/
def cmdTimeoutCb (w : InitEnv) (s : Initializer) : Initializer :=
  match s.cmdList with
  | [] => s
  | c :: rest =>
    if c.sent then ({ s with cmdList := rest }.complete w c.what c.cb .timeout).pushCmds w else s

/-- `handle_deferred` for the `i`th task. -/
def handleDeferred (w : InitEnv) (s : Initializer) (i : Nat) : Initializer :=
  match s.deferred[i]? with
  | none => s
  | some t => { s with deferred := s.deferred.eraseIdx i }.complete w t.what t.cb t.result

/-- `mhc_set_speed`; a baud rate of -1 is none. -/
def mhcSetSpeed (w : InitEnv) (s : Initializer) (channel : Nat) (cfg : SpeedCfg) : Initializer :=
  if channel < MH_NUM_CHANNELS ∧ cfg.baud ≠ -1 then
    let s := { s with speedArgs := Function.update s.speedArgs channel (some cfg),
                      speedParams := Function.update s.speedParams channel (some cfg) }
    if s.state = .ok then s.submitSpeedCmd w channel cfg .other else s
  else s

/-- `mhc_set_speed_params`. -/
def mhcSetSpeedParams (w : InitEnv) (s : Initializer) (channel : Nat) (cfg : SpeedCfg) : Initializer :=
  if channel < MH_NUM_CHANNELS then
    let s := { s with speedParams := Function.update s.speedParams channel (some cfg) }
    if s.state = .ok then s.submitSpeedCmd w channel cfg .other else s
  else s

/-- `sm_get_antsw` returns to `initializer_step`, and that to `control_channel_cb`. -/
def antswReturn (w : InitEnv) (s : Initializer) : Initializer :=
  if s.inAntsw ∧ ¬s.antswPending then ({ s with inAntsw := false }.setState .ok).pushCmds w else s

def step (s : Initializer) : InitEnv × InitEv → Initializer
  | (w, .connect) => s.statusConnected w
  | (w, .disconnect) => s.statusDisconnected w
  | (w, .message m cs) => s.controlChannelCb w m cs
  -- the heartbeat's timer is stopped while the keyer is disconnected
  | (w, .heartbeat) => if s.state = .disc then s else s.submitCmd w .areYouThere .heartbeat
  | (w, .cmdTimeout) => s.cmdTimeoutCb w
  | (w, .deferred i) => s.handleDeferred w i
  | (w, .setSpeed channel cfg) => s.mhcSetSpeed w channel cfg
  | (w, .setSpeedParams channel cfg) => s.mhcSetSpeedParams w channel cfg
  | (w, .call c) => s.callOther w c
  | (w, .getAntsw) => if s.sm then s.smGetAntsw w else s
  | (w, .antswReturn) => s.antswReturn w

/-- A run of a control layer from its creation. -/
abbrev runs (kcfg hasDisplay sm : Bool) (evs : List (InitEnv × InitEv)) : Initializer :=
  Run.run step (mhcCreate kcfg hasDisplay sm) evs

end Initializer

end Mhuxd
