import Mhuxd.ConTcp

/-!
# Virtual serial ports (`con_vsp.c`)

What an application writes to the port goes to the router's data socket, what it does to RTS and DTR to a
PTT socket, which may be the same. The way back to the application is left out but for its failures. `log`
records what the connector writes to the router and how its sessions start and end.
-/

namespace Mhuxd

def MAX_VSP_SESSIONS : Nat := 128

/-- The output lines in `mbits`. -/
structure ModemBits where
  rts : Bool
  dtr : Bool
deriving DecidableEq

/-- `TIOCMSET`, `TIOCMBIS` and `TIOCMBIC`. -/
inductive BitsOp
  | put | raise | lower
deriving DecidableEq

def BitsOp.apply (mbits bits : ModemBits) : BitsOp → ModemBits
  | .put => bits
  | .raise => ⟨bits.rts || mbits.rts, bits.dtr || mbits.dtr⟩
  | .lower => ⟨!bits.rts && mbits.rts, !bits.dtr && mbits.dtr⟩

/-- `fd_ptt`: -1, `fd_data` or another one. -/
inductive PttFd
  | none | data | own
deriving DecidableEq

/-- `struct vsp_session`; `pendingIn` is what is left of a write request that is held. -/
structure VspSession where
  id : Nat
  bufIn : Buffer
  pendingIn : Option (List UInt8)
  pttStatus : UInt8
deriving DecidableEq

inductive VspObs
  | opened (id : Nat)
  /-- Bytes written to the data socket, the byte written to the PTT socket. -/
  | data (p : List UInt8)
  | ptt (b : UInt8)
  | ended (id : Nat)
deriving DecidableEq

/-- `struct vsp`. -/
structure Vsp where
  state : IoState
  wDataIn : Bool
  wDataOut : Bool
  wChanIn : Bool
  fdPtt : PttFd
  rtsIsPtt : Bool
  dtrIsPtt : Bool
  openCnt : Nat
  sessionList : List VspSession
  mbits : ModemBits
  log : List VspObs
deriving DecidableEq

namespace Vsp

/-- `vsp_create` with the sockets that `conmgr_create_con_cfg` makes for the channel. -/
def vspCreate (ch : Channel) (pttRts pttDtr : Bool) : Option Vsp :=
  let vsp : Vsp := ⟨.ioOpen, true, false, true, .none, pttRts, pttDtr, 0, [], ⟨false, false⟩, []⟩
  if pttRts = false ∧ pttDtr = false then some vsp
  else
    match ch.pttChannel with
    | none => none
    | some ptt => some { vsp with fdPtt := if ptt = ch then .data else .own }

def obs (vsp : Vsp) (o : List VspObs) : Vsp := { vsp with log := vsp.log ++ o }

/-- `is_terminal`. -/
def isTerminal (vsp : Vsp) : Bool := vsp.state == .failed || vsp.state == .closed

/-- `watch_start`. -/
def watchStart (vsp : Vsp) (w : Bool) : Bool := if vsp.isTerminal then w else true

/-- `find_vs`. -/
def findVs (vsp : Vsp) (id : Nat) : Option VspSession := vsp.sessionList.find? (·.id == id)

/-- The session is changed to `vs`. -/
def put (vsp : Vsp) (vs : VspSession) : Vsp :=
  { vsp with sessionList := vsp.sessionList.map fun s => if s.id = vs.id then vs else s }

/-- `get_free_session_id`: the sessions have those marked in `session_ids`. -/
def getFreeSessionId (vsp : Vsp) : Option Nat :=
  (List.range MAX_VSP_SESSIONS).find? fun i => !(vsp.sessionList.any (·.id == i))

/-- A byte for `fd_ptt`; `taken` says whether its socket takes it, if there is one. -/
def writePtt (vsp : Vsp) (b : UInt8) (taken : Bool) : Vsp × Bool :=
  if taken = true ∧ vsp.fdPtt ≠ .none then (vsp.obs [.ptt b], true) else (vsp, false)

/-- The end of a session in `end_sessions` and `dv_release`. -/
def endSession (vsp : Vsp) (vs : VspSession) (taken : Bool) : Vsp :=
  let vsp := if vs.pttStatus = PTT_ON_BYTE then (vsp.writePtt PTT_OFF_BYTE taken).1 else vsp
  { vsp with openCnt := vsp.openCnt - 1, sessionList := vsp.sessionList.filter (·.id != vs.id) }.obs [.ended vs.id]

/-- The loop of `end_sessions`. -/
def endLoop (taken : Nat → Bool) : List VspSession → Vsp → Vsp
  | [], vsp => vsp
  | vs :: rest, vsp => endLoop taken rest (vsp.endSession vs (taken vs.id))

/-- `end_sessions`. -/
def endSessions (vsp : Vsp) (taken : Nat → Bool) : Vsp :=
  { endLoop taken vsp.sessionList vsp with mbits := ⟨false, false⟩ }

/-- `fail`. -/
def fail (vsp : Vsp) (taken : Nat → Bool) : Vsp :=
  if vsp.isTerminal then vsp
  else
    { vsp with state := vsp.state.transition .failed, wChanIn := false, wDataIn := false, wDataOut := false }.endSessions
      taken

/-- `vsp_destroy`. -/
def vspDestroy (vsp : Vsp) (taken : Nat → Bool) : Vsp :=
  let vsp := { vsp with state := vsp.state.transition .closed }.endSessions taken
  { vsp with wChanIn := false, wDataIn := false, wDataOut := false }

/-- `set_bits`. -/
def setBits (vsp : Vsp) (vs : VspSession) (bits : ModemBits) (taken : Bool) : Vsp :=
  if vsp.isTerminal then vsp
  else
    let vsp := { vsp with mbits := bits }
    if vsp.rtsIsPtt = false ∧ vsp.dtrIsPtt = false then vsp
    else
      let data := (bits.rts && vsp.rtsIsPtt) || (bits.dtr && vsp.dtrIsPtt)
      let state := if data then PTT_ON_BYTE else PTT_OFF_BYTE
      let (vsp, ok) := vsp.writePtt state taken
      if ok then vsp.put { vs with pttStatus := state } else vsp

/-- The PTT status behind the bytes `p` written to `fd_data`. -/
def track (status : UInt8) (p : List UInt8) : UInt8 :=
  p.foldl (fun st c => if c = PTT_ON_BYTE ∨ c = PTT_OFF_BYTE then c else st) status

/-- As much of a held write as there is room for; the length is a `uint16_t`. -/
def refill (vs : VspSession) : VspSession :=
  match vs.pendingIn with
  | none => vs
  | some rest =>
    let p := rest.take (min (rest.length % 65536) vs.bufIn.avail)
    let rest := rest.drop p.length
    { vs with bufIn := vs.bufIn.append p, pendingIn := if rest = [] then none else some rest }

/-- The loop of `data_out_cb` over the sessions, with what is written and whether there is more to write;
`none` if writing failed. -/
def dataOutLoop (pttFd : PttFd) (res : Nat → WriteRes) :
    List VspSession → List VspSession × List VspObs × Option Bool
  | [] => ([], [], some false)
  | vs :: rest =>
    if vs.bufIn.unread = [] then
      let (rest, log, need) := dataOutLoop pttFd res rest
      (vs :: rest, log, need)
    else
      match res vs.id with
      | .again =>
        let (rest, log, need) := dataOutLoop pttFd res rest
        (vs :: rest, log, need.map fun _ => true)
      | .error => (vs :: rest, [], none)
      | .wrote 0 =>
        let (rest, log, need) := dataOutLoop pttFd res rest
        (vs :: rest, log, need)
      | .wrote n@(_ + 1) =>
        let p := vs.bufIn.unread.take n
        let ptt := if pttFd = .data then track vs.pttStatus p else vs.pttStatus
        let vs := refill { vs with pttStatus := ptt, bufIn := vs.bufIn.consume p.length }
        let (rest, log, need) := dataOutLoop pttFd res rest
        (vs :: rest, .data p :: log, need.map fun more => more || vs.bufIn.unread != [])

/-- `data_out_cb`. -/
def dataOutCb (vsp : Vsp) (res : Nat → WriteRes) (taken : Nat → Bool) : Vsp :=
  if vsp.isTerminal then vsp
  else
    let (sessions, log, need) := dataOutLoop vsp.fdPtt res vsp.sessionList
    let vsp := { vsp with sessionList := sessions }.obs log
    match need with
    | none => vsp.fail taken
    | some more => { vsp with wDataOut := vsp.wDataOut && more }

/-- Whether the reads of `data_in_cb`, up to the one that blocks, end in an error or the end of the file. -/
def readFails : List ReadRes → Bool
  | [] | .again :: _ => false
  | .error :: _ | .data [] :: _ => true
  | .data (_ :: _) :: res => readFails res

/-- `data_in_cb`. -/
def dataInCb (vsp : Vsp) (res : List ReadRes) (taken : Nat → Bool) : Vsp :=
  if vsp.isTerminal then vsp else if readFails res then vsp.fail taken else vsp

/-- `dv_open`: one application at a time. -/
def dvOpen (vsp : Vsp) : Vsp :=
  match vsp.getFreeSessionId with
  | none => vsp
  | some id =>
    if vsp.openCnt ≠ 0 then vsp
    else
      let vs : VspSession := ⟨id, .empty, none, 0⟩
      { vsp with openCnt := vsp.openCnt + 1, sessionList := vsp.sessionList ++ [vs] }.obs [.opened id]

/-- `dv_release`. -/
def dvRelease (vsp : Vsp) (vs : VspSession) (taken : Bool) : Vsp :=
  let vsp := vsp.endSession vs taken
  if vsp.openCnt = 0 then { vsp with mbits := ⟨false, false⟩ } else vsp

/-- `dv_write`. -/
def dvWrite (vsp : Vsp) (vs : VspSession) (buf : List UInt8) (nonblock : Bool) : Vsp :=
  if vs.pendingIn.isSome then vsp
  else if nonblock = true ∧ vs.bufIn.avail = 0 ∧ buf ≠ [] then vsp
  else if nonblock = false ∧ vs.bufIn.avail < buf.length then
    { vsp.put { vs with bufIn := vs.bufIn.append buf, pendingIn := some (buf.drop vs.bufIn.avail) } with
      wDataOut := vsp.watchStart vsp.wDataOut }
  else { vsp.put { vs with bufIn := vs.bufIn.append buf } with wDataOut := vsp.watchStart vsp.wDataOut }

end Vsp

/-- What happens to a port. The requests of applications come in by `chan_in_cb`. -/
inductive VspEv
  | dvOpen
  | dvWrite (id : Nat) (buf : List UInt8) (nonblock : Bool)
  | setBits (id : Nat) (op : BitsOp) (bits : ModemBits) (taken : Bool)
  /-- `TCFLSH` of what the application wrote. -/
  | flushIn (id : Nat)
  /-- `interrupt_func`: a held write is given up. -/
  | interrupt (id : Nat)
  | dvRelease (id : Nat) (taken : Bool)
  /-- The channel of the virtual device fails or ends. -/
  | chanFails (taken : Nat → Bool)
  | dataIn (res : List ReadRes) (taken : Nat → Bool)
  | dataOut (res : Nat → WriteRes) (taken : Nat → Bool)
  | destroy (taken : Nat → Bool)

namespace Vsp

/-- A request of the session with the number. -/
def request (vsp : Vsp) (id : Nat) (f : VspSession → Vsp) : Vsp :=
  match vsp.findVs id with
  | none => vsp
  | some vs => if vsp.wChanIn = true ∧ vsp.isTerminal = false then f vs else vsp

def step (vsp : Vsp) : VspEv → Vsp
  | .dvOpen => if vsp.wChanIn = true ∧ vsp.isTerminal = false then vsp.dvOpen else vsp
  | .dvWrite id buf nonblock => vsp.request id fun vs => vsp.dvWrite vs buf nonblock
  | .setBits id op bits taken => vsp.request id fun vs => vsp.setBits vs (op.apply vsp.mbits bits) taken
  | .flushIn id => vsp.request id fun vs => vsp.put { vs with bufIn := .empty }
  | .interrupt id => vsp.request id fun vs => vsp.put { vs with pendingIn := none }
  | .dvRelease id taken => vsp.request id fun vs => vsp.dvRelease vs taken
  | .chanFails taken => if vsp.wChanIn then vsp.fail taken else vsp
  | .dataIn res taken => if vsp.wDataIn then vsp.dataInCb res taken else vsp
  | .dataOut res taken => if vsp.wDataOut then vsp.dataOutCb res taken else vsp
  | .destroy taken => if vsp.state = .closed then vsp else vsp.vspDestroy taken

end Vsp

end Mhuxd
