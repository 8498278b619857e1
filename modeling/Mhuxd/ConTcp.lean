import Mhuxd.Router

/-!
# TCP connectors (`con_tcp.c`)

A connector listens on a port and carries bytes between its client and the router's data socket. Each
direction has a buffer in the session, filled by one callback and drained by another. The client's end
of a session is part of it: what the client sent and the connector has not read, and whether it closed.
`log` records what the client, the connector and the router do, in order: it is read by no function here.
-/

namespace Mhuxd

/-- `enum mhuxd_io_state`. -/
inductive IoState
  | ioOpen | draining | failed | closed
deriving DecidableEq

/-- `io_state_can_transition`. -/
def IoState.canTransition : IoState → IoState → Bool
  | .ioOpen, _ => true
  | .draining, next => next != .ioOpen
  | .failed, next => next == .failed || next == .closed
  | .closed, next => next == .closed

/-- `io_state_transition`: the state behind. -/
def IoState.transition (s next : IoState) : IoState := if s.canTransition next then next else s

/-- The client's end of a connection. -/
structure ClientSock where
  pending : List UInt8
  closed : Bool
deriving DecidableEq

/-- `struct ctcp_session`; `id` numbers the sessions and stands for the session's address. -/
structure CtcpSession where
  id : Nat
  sock : ClientSock
  wIn : Bool
  wOut : Bool
  bufOut : Buffer
  bufIn : Buffer
  pttStatus : Bool
deriving DecidableEq

inductive TcpObs
  /-- The client sends, closes. -/
  | sent (id : Nat) (p : List UInt8)
  | closed (id : Nat)
  /-- An error on the client's socket. -/
  | error (id : Nat)
  | toRouter (id : Nat) (p : List UInt8)
  /-- The PTT off for a client that keyed; the router's socket takes it or not. -/
  | release (taken : Bool)
  /-- Bytes from the router for a session: all fit its buffer, or an overflow is reported. -/
  | passed (id : Nat) (p : List UInt8) (fits : Bool)
  | toClient (id : Nat) (p : List UInt8)
  /-- The session ends, with the connector in a state. -/
  | ended (id : Nat) (state : IoState)
deriving DecidableEq

/-- `struct ctcp`, with the watchers of both listeners as one. -/
structure Ctcp where
  state : IoState
  wLsnr : Bool
  wDataIn : Bool
  wDataOut : Bool
  openCnt : Nat
  sessionList : List CtcpSession
  isPttChannel : Bool
  accepts : Nat
  log : List TcpObs
deriving DecidableEq

/-- What a read from a client's socket gives. -/
inductive SockRead
  | data (p : List UInt8)
  | again
  | eof
deriving DecidableEq

/-- `read()` of at most `len` bytes; of those sent, up to `n + 1` are there. -/
def ClientSock.read (s : ClientSock) (len n : Nat) : SockRead × ClientSock :=
  if len = 0 then (.eof, s)
  else
    match s.pending.take (min (n + 1) len) with
    | [] => (if s.closed then .eof else .again, s)
    | p@(_ :: _) => (.data p, { s with pending := s.pending.drop p.length })

/-- Whether the client keys behind the bytes `p` of a PTT channel. -/
def pttTrack (status : Bool) (p : List UInt8) : Bool :=
  p.foldl (fun st c => if c = PTT_ON_BYTE ∨ c = PTT_OFF_BYTE then c == PTT_ON_BYTE else st) status

namespace Ctcp

/-- `ctcp_create`. -/
def ctcpCreate (isPttChannel : Bool) : Ctcp where
  state := .ioOpen
  wLsnr := true
  wDataIn := true
  wDataOut := false
  openCnt := 0
  sessionList := []
  isPttChannel := isPttChannel
  accepts := 0
  log := []

def obs (ctcp : Ctcp) (o : List TcpObs) : Ctcp := { ctcp with log := ctcp.log ++ o }

/-- `ctcp_is_terminal`. -/
def isTerminal (ctcp : Ctcp) : Bool := ctcp.state == .failed || ctcp.state == .closed

/-- `ctcp_watch_start` for a watcher with a descriptor: whether it is started then. -/
def watchStart (ctcp : Ctcp) (w : Bool) : Bool := if ctcp.state ≠ .ioOpen then w else true

def find (ctcp : Ctcp) (id : Nat) : Option CtcpSession := ctcp.sessionList.find? (·.id == id)

/-- The session is changed to `cs`. -/
def put (ctcp : Ctcp) (cs : CtcpSession) : Ctcp :=
  { ctcp with sessionList := ctcp.sessionList.map fun s => if s.id = cs.id then cs else s }

/-- `ctcp_fail`. -/
def ctcpFail (ctcp : Ctcp) : Ctcp :=
  { ctcp with state := ctcp.state.transition .failed, wDataIn := false, wDataOut := false, wLsnr := false }

/-- `rem_session`; `rel` says whether the router's socket takes the PTT off. -/
def remSession (ctcp : Ctcp) (cs : CtcpSession) (rel : Bool) : Ctcp :=
  let ctcp := if ctcp.isPttChannel ∧ cs.pttStatus = true then ctcp.obs [.release rel] else ctcp
  { ctcp with openCnt := ctcp.openCnt - 1, sessionList := ctcp.sessionList.filter (·.id != cs.id) }.obs [.ended cs.id ctcp.state]

/-- The loop of `data_in_cb` over the sessions. -/
def dataInLoop (ctcp : Ctcp) (p : List UInt8) : List CtcpSession → List CtcpSession × List TcpObs
  | [] => ([], [])
  | cs :: rest =>
    let (rest, log) := dataInLoop ctcp p rest
    ({ cs with bufOut := cs.bufOut.append p, wOut := ctcp.watchStart cs.wOut } :: rest,
      .passed cs.id p (p.length ≤ cs.bufOut.avail) :: log)

/-- `data_in_cb`. -/
def dataInCb (ctcp : Ctcp) (res : ReadRes) : Ctcp :=
  if ctcp.isTerminal then ctcp
  else
    match res with
    | .again => ctcp
    | .error => ctcp.ctcpFail
    | .data data =>
      match data.take 1024 with
      | [] => ctcp.ctcpFail
      | p@(_ :: _) =>
        let (sessions, log) := ctcp.dataInLoop p ctcp.sessionList
        { ctcp with sessionList := sessions }.obs log

/-- The loop of `data_out_cb` over the sessions, with what is logged and whether there is more to write;
`none` if writing failed. -/
def dataOutLoop (isPtt : Bool) (res : Nat → WriteRes) :
    List CtcpSession → List CtcpSession × List TcpObs × Option Bool
  | [] => ([], [], some false)
  | cs :: rest =>
    if cs.bufIn.unread = [] then
      let (rest, log, need) := dataOutLoop isPtt res rest
      (cs :: rest, log, need)
    else
      match res cs.id with
      | .again =>
        let (rest, log, need) := dataOutLoop isPtt res rest
        (cs :: rest, log, need.map fun _ => true)
      | .error => (cs :: rest, [], none)
      | .wrote n =>
        let p := cs.bufIn.unread.take (n + 1)
        let ptt := if isPtt then pttTrack cs.pttStatus p else cs.pttStatus
        let cs := { cs with pttStatus := ptt, bufIn := cs.bufIn.consume p.length }
        let (rest, log, need) := dataOutLoop isPtt res rest
        (cs :: rest, .toRouter cs.id p :: log, need.map fun more => more || cs.bufIn.unread != [])

/-- `data_out_cb`; `res` are the results of the writes for the sessions. -/
def dataOutCb (ctcp : Ctcp) (res : Nat → WriteRes) : Ctcp :=
  if ctcp.isTerminal then ctcp
  else
    let (sessions, log, need) := dataOutLoop ctcp.isPttChannel res ctcp.sessionList
    let ctcp := { ctcp with sessionList := sessions }.obs log
    match need with
    | none => ctcp.ctcpFail
    | some more => { ctcp with wDataOut := ctcp.wDataOut && more }

/-- `client_in_cb`: a read of up to `n + 1` bytes, or an error. -/
def clientInCb (ctcp : Ctcp) (cs : CtcpSession) (n : Option Nat) (rel : Bool) : Ctcp :=
  if ctcp.isTerminal then ctcp
  else
    match n with
    | none => (ctcp.obs [.error cs.id]).remSession cs rel
    | some n =>
      match cs.sock.read cs.bufIn.avail n with
      | (.again, _) => ctcp
      | (.eof, _) => ctcp.remSession cs rel
      | (.data p, sock) =>
        { ctcp.put { cs with sock := sock, bufIn := cs.bufIn.append p } with
          wDataOut := ctcp.watchStart ctcp.wDataOut }

/-- `client_out_cb`: a write of `n` means `n + 1` bytes, or as many as there are. -/
def clientOutCb (ctcp : Ctcp) (cs : CtcpSession) (res : WriteRes) (rel : Bool) : Ctcp :=
  if ctcp.isTerminal then ctcp
  else
    match res with
    | .again => ctcp
    | .error => (ctcp.obs [.error cs.id]).remSession cs rel
    | .wrote n =>
      match cs.bufOut.unread.take (n + 1) with
      | [] => ctcp.remSession cs rel
      | p@(_ :: _) =>
        let buf := cs.bufOut.consume p.length
        (ctcp.put { cs with bufOut := buf, wOut := cs.wOut && buf.size != 0 }).obs [.toClient cs.id p]

/-- `lsnr_cb`: one client at a time. -/
def lsnrCb (ctcp : Ctcp) : Ctcp :=
  if ctcp.isTerminal then ctcp
  else if ctcp.openCnt ≠ 0 then ctcp
  else
    { ctcp with
      openCnt := ctcp.openCnt + 1
      sessionList := ctcp.sessionList ++
        [⟨ctcp.accepts, ⟨[], false⟩, ctcp.watchStart false, false, .empty, .empty, false⟩]
      accepts := ctcp.accepts + 1 }

/-- The loop of `ctcp_destroy`; `rels` say whether the releases are taken. -/
def remSessions (rel : Nat → Bool) : List CtcpSession → Ctcp → Ctcp
  | [], ctcp => ctcp
  | cs :: rest, ctcp => remSessions rel rest (ctcp.remSession cs (rel cs.id))

/-- `ctcp_destroy`. -/
def ctcpDestroy (ctcp : Ctcp) (rel : Nat → Bool) : Ctcp :=
  let ctcp := { ctcp with state := ctcp.state.transition .closed, wDataIn := false, wDataOut := false, wLsnr := false }
  remSessions rel ctcp.sessionList ctcp

end Ctcp

/-- What happens to a connector and its clients. -/
inductive TcpEv
  | connect
  | clientSend (id : Nat) (p : List UInt8)
  | clientClose (id : Nat)
  | clientIn (id : Nat) (n : Option Nat) (rel : Bool)
  | clientOut (id : Nat) (res : WriteRes) (rel : Bool)
  | dataIn (res : ReadRes)
  | dataOut (res : Nat → WriteRes)
  | destroy (rel : Nat → Bool)

namespace Ctcp

/-- A callback runs only while its watcher is started; a client that closed sends nothing. -/
def step (ctcp : Ctcp) : TcpEv → Ctcp
  | .connect => if ctcp.wLsnr then ctcp.lsnrCb else ctcp
  | .clientSend id p =>
    match ctcp.find id with
    | none => ctcp
    | some cs =>
      if cs.sock.closed then ctcp
      else (ctcp.put { cs with sock := { cs.sock with pending := cs.sock.pending ++ p } }).obs [.sent id p]
  | .clientClose id =>
    match ctcp.find id with
    | none => ctcp
    | some cs => (ctcp.put { cs with sock := { cs.sock with closed := true } }).obs [.closed id]
  | .clientIn id n rel =>
    match ctcp.find id with
    | none => ctcp
    | some cs => if cs.wIn then ctcp.clientInCb cs n rel else ctcp
  | .clientOut id res rel =>
    match ctcp.find id with
    | none => ctcp
    | some cs => if cs.wOut then ctcp.clientOutCb cs res rel else ctcp
  | .dataIn res => if ctcp.wDataIn then ctcp.dataInCb res else ctcp
  | .dataOut res => if ctcp.wDataOut then ctcp.dataOutCb res else ctcp
  | .destroy rel => if ctcp.state = .closed then ctcp else ctcp.ctcpDestroy rel

variable {a : Ctcp} {cs cs' : CtcpSession}

theorem find_eq {id : Nat} (h : a.find id = some cs) (hone : a.sessionList = [] ∨ ∃ cs, a.sessionList = [cs]) :
    a.sessionList = [cs] ∧ cs.id = id := by
  have hid : cs.id = id := by simpa using List.find?_some h
  refine ⟨?_, hid⟩
  have hm := List.mem_of_find?_eq_some h
  rcases hone with hn | ⟨cs', hs⟩
  · simp [hn] at hm
  · rw [hs, List.mem_singleton] at hm
    rw [hs, hm]

theorem put_one (hs : a.sessionList = [cs]) (hid : cs'.id = cs.id) : (a.put cs').sessionList = [cs'] := by
  simp [put, hs, hid]

theorem remSession_eq (a : Ctcp) (cs : CtcpSession) (rel : Bool) : a.remSession cs rel =
    { a with
      openCnt := a.openCnt - 1
      sessionList := a.sessionList.filter (·.id != cs.id)
      log := a.log ++ ((if a.isPttChannel ∧ cs.pttStatus = true then [.release rel] else []) ++ [.ended cs.id a.state]) } := by
  unfold remSession
  split_ifs <;> simp [obs]

/-- A run of a connector from its creation. -/
abbrev runs (isPttChannel : Bool) (evs : List TcpEv) : Ctcp := Run.run step (ctcpCreate isPttChannel) evs

end Ctcp

end Mhuxd
