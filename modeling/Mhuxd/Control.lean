import Mhuxd.Link
import Mhuxd.Command

/-!
# The control layer's command queue (`mhcontrol.c`)

Commands are queued, handed to the router one at a time and taken off the queue by the keyer's reply,
by their timeout or by a disconnect. Completion callbacks, the callbacks of other modules and what
`control_channel_cb` does with the keyer's reports are unconstrained here: an event brings along the
calls they make (`CtlCall`), in the place where the source makes them. `log` records the submissions
and completions, in order: it is read by no function here.
-/

namespace Mhuxd

def MAX_CMD_LEN : Nat := 128
def MAX_CMD_QUEUE_SIZE : Nat := 16
def MHCMD_ARE_YOU_THERE : UInt8 := 0x7e
def MHCMD_NOT_SUPPORTED : UInt8 := 0x7f

/-- `CTL_STATE_...`. -/
inductive CtlState
  | disabled | off | disc | init | getVersion | setChannels | loadCfg | onConnect | ok
deriving DecidableEq

/-- `CMD_RESULT_...`. -/
inductive CmdResult
  | ok | error | timeout | notSupported | offline
deriving DecidableEq

/-- `struct command`; `id` numbers the submissions and stands for the callback and its data. -/
structure QCmd where
  id : Nat
  cmd : Command
  sent : Bool
deriving DecidableEq

inductive CtlObs
  | connect
  | submit (id : Nat) (cmd : Command)
  | complete (id : Nat) (result : CmdResult)
deriving DecidableEq

/-- `struct mh_control`, the part about the queue. `deferred` are the pending `deferred_task_t`. -/
structure Control where
  router : Router
  state : CtlState
  cmdList : List QCmd
  cmdTimer : Bool
  heartbeatTimer : Bool
  deferred : List (Nat × CmdResult)
  submits : Nat
  log : List CtlObs

/-- A call made inside a callback. -/
inductive CtlCall
  | submit (cmd : Command)
  | setState (s : CtlState)
  | router (e : RouterEv)

/-- Events that are calls of the router's functions, but for those of the control layer. -/
def RouterEv.isCall : RouterEv → Bool
  | .sendIn _ ch => ch != .control
  | .setKeyerFd _ | .lbTimer _ | .producer .. | .consumer .. | .keyerIn _ | .keyerOut _ => false
  | _ => true

def areYouThere : Command := ⟨MHCMD_ARE_YOU_THERE, [], rfl⟩

namespace Control

/-- `mhc_create`, with the router it is given. -/
def mhcCreate (hasFlagsChannel : Bool) : Control where
  router := .mhrCreate hasFlagsChannel
  state := .disc
  cmdList := []
  cmdTimer := false
  heartbeatTimer := false
  deferred := []
  submits := 0
  log := []

/-- `is_connected`. -/
def isConnected (s : CtlState) : Bool := s != .disc && s != .off

/-- `set_state`. -/
def setState (ctl : Control) (s : CtlState) : Control := { ctl with state := s, heartbeatTimer := s != .disc }

/-- A completion callback is called. -/
def complete (ctl : Control) (id : Nat) (res : CmdResult) : Control := { ctl with log := ctl.log ++ [.complete id res] }

/-- `defer_callback`. -/
def deferCallback (ctl : Control) (id : Nat) (res : CmdResult) : Control :=
  { ctl with deferred := ctl.deferred ++ [(id, res)] }

/-- The loop of `push_cmds`, with the list of commands. -/
def pushLoop : List QCmd → Control → Control
  | [], ctl => { ctl with cmdList := [] }
  | c :: cs, ctl =>
    if c.sent then { ctl with cmdList := c :: cs }
    else
      let (r, n) := ctl.router.mhrSendIn c.cmd.bytes .control
      if n = some c.cmd.bytes.length then
        { ctl with router := r, cmdTimer := true, cmdList := { c with sent := true } :: cs }
      else
        -- dropped, or the next push would send it again
        pushLoop cs ({ ctl with router := r }.deferCallback c.id .error)

/-- `push_cmds`. -/
def pushCmds (ctl : Control) : Control := pushLoop ctl.cmdList ctl

/-- The submission gets its number. -/
def noteSubmit (ctl : Control) (cmd : Command) : Control :=
  { ctl with submits := ctl.submits + 1, log := ctl.log ++ [.submit ctl.submits cmd] }

/-- `submit_cmd`. -/
def submitCmd (ctl : Control) (cmd : Command) : Control :=
  let id := ctl.submits
  let ctl := ctl.noteSubmit cmd
  if cmd.code ≠ MHCMD_ARE_YOU_THERE ∧ isConnected ctl.state = false then ctl.deferCallback id .offline
  else if MAX_CMD_LEN < cmd.bytes.length then ctl.deferCallback id .error
  else if MAX_CMD_QUEUE_SIZE < ctl.cmdList.length then ctl.deferCallback id .error
  else pushCmds { ctl with cmdList := ctl.cmdList ++ [⟨id, cmd, false⟩] }

def call (ctl : Control) : CtlCall → Control
  | .submit cmd => ctl.submitCmd cmd
  | .setState s => ctl.setState s
  | .router e => if e.isCall then { ctl with router := ctl.router.step e } else ctl

/-- The calls of a callback. -/
def calls (ctl : Control) (cs : List CtlCall) : Control := cs.foldl call ctl

/-- `initializer_step` in the state `CTL_STATE_DEVICE_OFF`: the first step of the initialization. -/
def kickOff : List CtlCall := [.setState .init, .submit areYouThere]

/-- The loop of `flush_cmds`; `done` are the calls of the callbacks completed. -/
def flushLoop : Nat → List (List CtlCall) → Control → Control
  | 0, _, ctl => ctl
  | n + 1, done, ctl =>
    match ctl.cmdList with
    | [] => ctl
    | c :: cs => flushLoop n done.tail (({ ctl with cmdList := cs }.complete c.id .offline).calls (done.headD []))

/-- `flush_cmds` with `CMD_RESULT_OFFLINE`: each round takes one command off, each call adds at most
one. -/
def flushCmds (ctl : Control) (done : List (List CtlCall)) : Control :=
  flushLoop (ctl.cmdList.length + (done.map List.length).sum) done { ctl with cmdTimer := false }

/-- `router_status_cb`: `seen` are the calls of the state callbacks, `done` those of the completion
callbacks. -/
def routerStatusCb (ctl : Control) (connected : Bool) (seen : List CtlCall) (done : List (List CtlCall)) : Control :=
  if connected then
    if ctl.state = .disc ∨ ctl.state = .off then ((ctl.setState .off).calls seen).calls kickOff else ctl
  else ((ctl.setState .disc).calls seen).flushCmds done

/-- The router becomes `r`; its status callback is called if the keyer's descriptor is another one. -/
def routed (ctl : Control) (r : Router) (seen : List CtlCall) (done : List (List CtlCall)) : Control :=
  if r.fd = ctl.router.fd then { ctl with router := r }
  else
    let log := if r.fd.isSome then ctl.log ++ [.connect] else ctl.log
    { ctl with router := r, log := log }.routerStatusCb r.fd.isSome seen done

/-- The keyer's message completes the command: its code, or NOT SUPPORTED. -/
def replyTo (c : QCmd) (data : List UInt8) : Option CmdResult :=
  if c.sent = false then none
  else if data.head? = some c.cmd.code then some .ok
  else if data.head? = some MHCMD_NOT_SUPPORTED then some .notSupported
  else none

/-- The branches of `control_channel_cb`; `cs` are the calls of the callback completed, or of those
that get the keyer's report. -/
def controlMessage (ctl : Control) (data : List UInt8) (cs : List CtlCall) : Control :=
  match ctl.cmdList with
  | [] => ctl.calls cs
  | c :: rest =>
    match replyTo c data with
    | some res => ({ ctl with cmdTimer := false, cmdList := rest }.complete c.id res).calls cs
    | none => ctl.calls cs

/-- `control_channel_cb`. -/
def controlChannelCb (ctl : Control) (data : List UInt8) (cs : List CtlCall) : Control :=
  let ctl := ctl.controlMessage data cs
  let ctl := if ctl.state = .off then ctl.calls kickOff else ctl
  ctl.pushCmds

/-- `cmd_timeout_cb`. -/
def cmdTimeoutCb (ctl : Control) (cs : List CtlCall) : Control :=
  match ctl.cmdList with
  | [] => ctl
  | c :: rest =>
    if c.sent then (({ ctl with cmdList := rest }.complete c.id .timeout).calls cs).pushCmds else ctl

/-- `handle_deferred` for the `i`th task. -/
def handleDeferred (ctl : Control) (i : Nat) (cs : List CtlCall) : Control :=
  match ctl.deferred[i]? with
  | none => ctl
  | some (id, res) => ({ ctl with deferred := ctl.deferred.eraseIdx i }.complete id res).calls cs

/-- One round of the loop of `keyer_in_cb`, with the consumer callbacks. -/
def keyerByte (ctl : Control) (cs : List CtlCall) : Control :=
  let (r, rep) := ctl.router.keyerByte
  match rep with
  | none => { ctl with router := r }
  | some (.control, data) => { ctl with router := r }.controlChannelCb data cs
  | some _ => { ctl with router := r }.calls cs

end Control

/-- What happens to a control layer and its router. The loop of `keyer_in_cb` is cut into its rounds. -/
inductive CtlEv
  /-- A callback of the event loop in the router that leaves the keyer's descriptor alone. -/
  | router (e : RouterEv)
  | setKeyerFd (fd : Option Nat) (seen : List CtlCall) (done : List (List CtlCall))
  | keyerRead (res : ReadRes) (seen : List CtlCall) (done : List (List CtlCall))
  | keyerByte (cs : List CtlCall)
  | keyerOut (res : WriteRes) (seen : List CtlCall) (done : List (List CtlCall))
  /-- Other modules' calls. -/
  | calls (cs : List CtlCall)
  | heartbeat
  | cmdTimeout (cs : List CtlCall)
  /-- A deferred completion; the idle watchers run in any order. -/
  | deferred (i : Nat) (cs : List CtlCall)

/-- The callbacks in the router for endpoints and leaky buckets. -/
def RouterEv.isEndpoint : RouterEv → Bool
  | .lbTimer _ | .producer .. | .consumer .. => true
  | _ => false

namespace Control

/-- A callback runs only while its watcher is started. -/
def step (ctl : Control) : CtlEv → Control
  | .router e => if e.isEndpoint then { ctl with router := ctl.router.step e } else ctl
  | .setKeyerFd fd seen done => ctl.routed (ctl.router.mhrSetKeyerFd fd) seen done
  | .keyerRead res seen done =>
    if ctl.router.wIn = true ∧ ctl.router.fd ≠ none then ctl.routed (ctl.router.keyerRead res) seen done else ctl
  | .keyerByte cs => ctl.keyerByte cs
  | .keyerOut res seen done =>
    if ctl.router.wOut then ctl.routed (ctl.router.keyerOutCb res) seen done else ctl
  | .calls cs => ctl.calls cs
  | .heartbeat => if ctl.heartbeatTimer then ctl.submitCmd areYouThere else ctl
  | .cmdTimeout cs => if ctl.cmdTimer then { ctl with cmdTimer := false }.cmdTimeoutCb cs else ctl
  | .deferred i cs => ctl.handleDeferred i cs

/-- A run of a control layer and its router from their creation. -/
abbrev runs (hasFlagsChannel : Bool) (evs : List CtlEv) : Control :=
  Run.run step (mhcCreate hasFlagsChannel) evs

/-- The commands submitted since the latest connect, in order. -/
def submitted (ctl : Control) : List Command :=
  ctl.log.foldl (fun cmds o => match o with
    | .connect => []
    | .submit _ cmd => cmds ++ [cmd]
    | .complete .. => cmds) []

/-- The control slots written to the keyer since the latest connect. -/
def ctlWritten (ctl : Control) : List (Bool × UInt8) := ctlSlots ctl.router.wire.slots

end Control

end Mhuxd
