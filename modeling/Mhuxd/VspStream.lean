import Mhuxd.VspWrites

/-!
# The byte streams of a virtual serial port

Both ways between an application and the router. The way to the router is that of `ConVsp`; here are the way
back with the reads that are held for VMIN and VTIME, and the answers to the requests. `log` is about the
session that is open: what the router delivered to it, what went to the router's data socket and how the
requests were answered.
-/

namespace Mhuxd

inductive Errno
  | einval | eagain | eintr | eio
deriving DecidableEq

/-- A read request that is held: `pending_out_buf` with the bytes it has, `pending_out_size`,
`pending_out_want`. -/
structure HeldRead where
  got : List UInt8
  size : Nat
  want : Nat
deriving DecidableEq

inductive PortObs
  /-- Bytes of the router, and how many of them were counted as overruns. -/
  | delivered (p : List UInt8) (lost : Nat)
  /-- Bytes for the router's data socket. -/
  | toRouter (p : List UInt8)
  /-- A read is answered with bytes; an error answers one that has taken `held`. -/
  | readReply (p : List UInt8)
  | readErr (e : Errno) (held : List UInt8)
  /-- A write is told that `p` was accepted; an error answers one of which `held` was taken. -/
  | writeReply (p : List UInt8)
  | writeErr (e : Errno) (held : List UInt8)
deriving DecidableEq

/-- `struct vsp` with the fields of its session for both ways; `heldBuf` is `pending_in_buf`, `timer` says
whether `w_read_timer` runs. -/
structure VspPort where
  vsp : Vsp
  vmin : Nat
  vtime : Nat
  isReadable : Bool
  bufOut : Buffer
  pendingOut : Option HeldRead
  overrun : Nat
  timer : Bool
  heldBuf : List UInt8
  log : List PortObs

/-- What happens to a port. Of the ioctls those are left out that flush or only tell something. -/
inductive PortEv
  | dvOpen (readable : Bool)
  | dvRead (id size : Nat) (nonblock : Bool)
  | dvWrite (id : Nat) (buf : List UInt8) (nonblock : Bool)
  | interrupt (id : Nat)
  /-- `read_timer_cb`. -/
  | readTimer
  /-- `TCSETS` and its kin that don't flush. -/
  | tcSets (id vmin vtime : Nat)
  | setBits (id : Nat) (op : BitsOp) (bits : ModemBits) (taken : Bool)
  | dataIn (res : List ReadRes) (taken : Nat → Bool)
  | dataOut (res : Nat → WriteRes) (taken : Nat → Bool)
  | dvRelease (id : Nat) (taken : Bool)
  | chanFails (taken : Nat → Bool)
  | destroy (taken : Nat → Bool)

namespace VspPort

/-- `vsp_create`: a read waits for a byte. -/
def create (ch : Channel) (pttRts pttDtr : Bool) : Option VspPort :=
  (Vsp.vspCreate ch pttRts pttDtr).map fun vsp => ⟨vsp, 1, 0, false, .empty, none, 0, false, [], []⟩

def obs (p : VspPort) (o : List PortObs) : VspPort := { p with log := p.log ++ o }

/-- What goes to the data socket. -/
def sent (fdPtt : PttFd) : VspObs → List PortObs
  | .data q => [.toRouter q]
  | .ptt b => if fdPtt = .data then [.toRouter [b]] else []
  | _ => []

/-- The way to the router. -/
def vspStep (p : VspPort) (e : VspEv) : VspPort :=
  { p with
    vsp := p.vsp.step e
    log := p.log ++ ((p.vsp.step e).log.drop p.vsp.log.length).flatMap (sent p.vsp.fdPtt) }

/-- A request of the session with the number. -/
def request (p : VspPort) (id : Nat) (f : VspSession → VspPort) : VspPort :=
  match p.vsp.findVs id with
  | none => p
  | some vs => if p.vsp.wChanIn = true ∧ p.vsp.isTerminal = false then f vs else p

/-! ### Reads -/

/-- `read_timer_arm`. -/
def readTimerArm (p : VspPort) : VspPort := { p with timer := p.timer || p.vtime != 0 }

/-- `reply_pending_read`. -/
def replyPendingRead (p : VspPort) (h : HeldRead) : VspPort :=
  { p with timer := false, pendingOut := none }.obs [.readReply h.got]

/-- `read_timer_cb`. -/
def readTimerCb (p : VspPort) : VspPort :=
  match p.pendingOut with
  | none => { p with timer := false }
  | some h => p.replyPendingRead h

/-- How much has to be there for a read: `want` in `dv_read`. -/
def wantOf (p : VspPort) (size : Nat) (nonblock : Bool) : Nat :=
  min size (if nonblock then 1 else if p.vmin = 0 then (if p.vtime = 0 then 0 else 1) else p.vmin)

/-- `dv_read`. -/
def dvRead (p : VspPort) (size : Nat) (nonblock : Bool) : VspPort :=
  if p.pendingOut.isSome then p.obs [.readErr .einval []]
  else
    let unread := p.bufOut.unread
    let want := p.wantOf size nonblock
    if want ≤ unread.length then
      { p with bufOut := p.bufOut.consume (unread.take size).length }.obs [.readReply (unread.take size)]
    else if nonblock then p.obs [.readErr .eagain []]
    else
      let p' := { p with pendingOut := some ⟨unread, size, want⟩, bufOut := .empty }
      if p.vmin = 0 ∨ unread ≠ [] then p'.readTimerArm else p'

/-- What is there goes to the read that is held, in `data_in_cb`. -/
def serveRead (p : VspPort) : VspPort :=
  match p.pendingOut with
  | none => p
  | some h =>
    let q := p.bufOut.unread.take (h.size - h.got.length)
    let h := { h with got := h.got ++ q }
    let p := { p with pendingOut := some h, bufOut := p.bufOut.consume q.length }
    if h.want ≤ h.got.length ∨ h.got.length = h.size then p.replyPendingRead h
    else if q ≠ [] then p.readTimerArm
    else p

/-- A round of `data_in_cb`: bytes of the router, for a session that reads. -/
def dataInChunk (p : VspPort) (chunk : List UInt8) : VspPort :=
  if p.isReadable = false then p
  else
    let lost := chunk.length - p.bufOut.avail
    ({ p with bufOut := p.bufOut.append chunk, overrun := p.overrun + lost }.obs [.delivered chunk lost]).serveRead

/-- The loop of `data_in_cb`, up to the read that gives nothing. -/
def dataInLoop : List ReadRes → VspPort → VspPort
  | [], p | .again :: _, p | .error :: _, p | .data [] :: _, p => p
  | .data chunk@(_ :: _) :: res, p => dataInLoop res (if p.vsp.sessionList = [] then p else p.dataInChunk chunk)

/-! ### Writes -/

/-- What a write that is held has given to the buffer. -/
def accepted (p : VspPort) (vs : VspSession) : List UInt8 :=
  match vs.pendingIn with
  | none => []
  | some rest => p.heldBuf.take (p.heldBuf.length - rest.length)

/-- `dv_write`. -/
def dvWrite (p : VspPort) (vs : VspSession) (buf : List UInt8) (nonblock : Bool) : VspPort :=
  let p' := p.vspStep (.dvWrite vs.id buf nonblock)
  if vs.pendingIn.isSome then p'.obs [.writeErr .einval []]
  else if nonblock = true ∧ vs.bufIn.avail = 0 ∧ buf ≠ [] then p'.obs [.writeErr .eagain []]
  else if nonblock = false ∧ vs.bufIn.avail < buf.length then { p' with heldBuf := buf }
  else p'.obs [.writeReply (buf.take vs.bufIn.avail)]

/-- A held write of which everything is in the buffer now is answered in `data_out_cb`. -/
def replyWrite (p : VspPort) (before : List VspSession) : VspPort :=
  match before, p.vsp.sessionList with
  | vs :: _, vs' :: _ => if vs.pendingIn.isSome ∧ vs'.pendingIn = none then p.obs [.writeReply p.heldBuf] else p
  | _, _ => p

/-! ### Interrupts and ends -/

/-- The bytes a read that is held has. -/
def collected (p : VspPort) : List UInt8 := p.pendingOut.elim [] HeldRead.got

/-- The requests that are held are answered with an error. -/
def answerHeld (p : VspPort) (vs : VspSession) (e : Errno) : VspPort :=
  let writes : List PortObs := if vs.pendingIn.isSome then [.writeErr e (p.accepted vs)] else []
  let reads : List PortObs := if p.pendingOut.isSome then [.readErr e p.collected] else []
  { p with pendingOut := none, timer := false }.obs (writes ++ reads)

/-- `interrupt_func`; the timer goes on without a read. -/
def interruptFunc (p : VspPort) (vs : VspSession) : VspPort :=
  { p.answerHeld vs .eintr with timer := p.timer && p.pendingOut.isNone }.vspStep (.interrupt vs.id)

/-- A step that may end the session: `end_sessions` answers its requests. -/
def ending (p : VspPort) (e : VspEv) (errno : Errno) : VspPort :=
  match p.vsp.sessionList with
  | [] => p.vspStep e
  | vs :: _ => if (p.vsp.step e).sessionList = [] then (p.answerHeld vs errno).vspStep e else p.vspStep e

/-- `dv_open`: a new session has nothing of the one before. -/
def dvOpen (p : VspPort) (readable : Bool) : VspPort :=
  let p' := p.vspStep .dvOpen
  if p.vsp.sessionList = [] ∧ p'.vsp.sessionList ≠ [] then
    { p' with
      isReadable := readable
      bufOut := .empty
      pendingOut := none
      overrun := 0
      timer := false
      heldBuf := []
      log := [] }
  else p'

def step (p : VspPort) : PortEv → VspPort
  | .dvOpen readable => p.dvOpen readable
  | .dvRead id size nonblock => p.request id fun _ => p.dvRead size nonblock
  | .dvWrite id buf nonblock => p.request id fun vs => p.dvWrite vs buf nonblock
  | .interrupt id => p.request id p.interruptFunc
  | .readTimer => if p.timer then p.readTimerCb else p
  | .tcSets id vmin vtime => p.request id fun _ => { p with vmin := vmin, vtime := vtime }
  | .setBits id op bits taken => p.vspStep (.setBits id op bits taken)
  | .dataIn res taken =>
    if p.vsp.wDataIn = true ∧ p.vsp.isTerminal = false then (dataInLoop res p).ending (.dataIn res taken) .eio else p
  | .dataOut res taken => (p.ending (.dataOut res taken) .eio).replyWrite p.vsp.sessionList
  | .dvRelease id taken => p.request id fun vs => p.ending (.dvRelease vs.id taken) .eintr
  | .chanFails taken => p.ending (.chanFails taken) .eio
  | .destroy taken => p.ending (.destroy taken) .eintr

end VspPort

end Mhuxd
