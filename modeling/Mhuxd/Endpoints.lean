import Mhuxd.Channel
import Mhuxd.Lib.Run

/-!
# The router's ends of the connectors' sockets (`conmgr.c`, `mhrouter.c`)

A connector has a socket pair for its data and may have another for PTT. One end of each goes to the router,
where it is a producer and a consumer of a channel; the instance has the other. The process's descriptors
are numbers that the system gives out again once they are closed: `fdt` says what each stands for, with a
number of its own for each end that was made for the router.
-/

namespace Mhuxd

/-- What a descriptor stands for; an instance's is known by its connector's tag. -/
inductive Holder
  | routerEnd (n : Nat)
  | con (tag : Nat)
  | other
deriving DecidableEq

/-- A producer or a consumer: `fd` and `owner_tag`, which is an address. -/
structure Endpoint where
  fd : Nat
  ownerTag : Nat
deriving DecidableEq

inductive EndObs
  | handed (h : Option Holder)
  | close (h : Option Holder)
deriving DecidableEq

/-- `struct connector`; `fds` are the ends of its instance that are open, a descriptor of -1 is `none`. -/
structure EndCon where
  id : Int
  vsp : Bool
  dev : Nat
  channel : Channel
  pttChannel : Option Channel
  sFdData : Nat
  sFdPtt : Option Nat
  routerOwnsPtt : Bool
  tag : Nat
  fds : List Nat
deriving DecidableEq

/-- Settings for a connector, with what the system does when it is created. -/
structure ConReq where
  dev : Option Nat
  /-- The settings before the channel's and the device's name pass their checks. -/
  valid : Bool
  channel : Channel
  vsp : Bool
  /-- `ptt_rts` or `ptt_dtr`. -/
  ptt : Bool
  sodat : Option (Nat × Nat)
  nonblockData : Bool
  soptt : Option (Nat × Nat)
  nonblockPtt : Bool
  starts : Bool
deriving DecidableEq

namespace ConReq

/-- The numbers the system gives out. -/
def fds (q : ConReq) : List Nat := (q.sodat.toList ++ q.soptt.toList).flatMap fun p => [p.1, p.2]

end ConReq

/-- The connectors, the lists of the routers by device and channel, and the process's descriptors. -/
structure Ends where
  hasFlagsChannel : Nat → Bool
  producers : Nat × Channel → List Endpoint
  consumers : Nat × Channel → List Endpoint
  connectorList : List EndCon
  idCnt : Int
  fdt : Nat → Option Holder
  pairs : Nat
  brk : Nat
  log : List EndObs

namespace Ends

def init (hasFlagsChannel : Nat → Bool) : Ends where
  hasFlagsChannel
  producers _ := []
  consumers _ := []
  connectorList := []
  idCnt := 0
  fdt _ := none
  pairs := 0
  brk := 0
  log := []

/-! ### The router -/

/-- `fd_close` of a number. -/
def fdClose (s : Ends) (fd : Nat) : Ends :=
  { s with fdt := Function.update s.fdt fd none, log := s.log ++ [.close (s.fdt fd)] }

/-- `has_producer_fd` and `has_consumer_fd`. -/
def hasFd (l : List Endpoint) (fd : Nat) : Bool := l.any (·.fd == fd)

/-- `mhr_add_consumer`. -/
def mhrAddConsumer (s : Ends) (k : Nat × Channel) (fd tag : Nat) : Ends :=
  if k.2 = .flags ∧ s.hasFlagsChannel k.1 = false then s
  else { s with consumers := Function.update s.consumers k (s.consumers k ++ [⟨fd, tag⟩]) }

/-- `mhr_add_producer`. -/
def mhrAddProducer (s : Ends) (k : Nat × Channel) (fd tag : Nat) : Ends :=
  if k.2 = .flags ∧ s.hasFlagsChannel k.1 = false then s
  else { s with producers := Function.update s.producers k (s.producers k ++ [⟨fd, tag⟩]) }

/-- `mhr_add_endpoint_fd`: the descriptor is the router's from now on. -/
def mhrAddEndpointFd (s : Ends) (k : Nat × Channel) (fd tag : Nat) : Ends :=
  let s : Ends := { s with log := s.log ++ [.handed (s.fdt fd)] }
  (s.mhrAddConsumer k fd tag).mhrAddProducer k fd tag

/-- `mhr_rem_consumer`. -/
def mhrRemConsumer (s : Ends) (k : Nat × Channel) (fd : Nat) : Ends :=
  if hasFd (s.consumers k) fd then
    let s := { s with consumers := Function.update s.consumers k ((s.consumers k).eraseP (·.fd == fd)) }
    if hasFd (s.producers k) fd then s else s.fdClose fd
  else s

/-- `mhr_rem_producer`. -/
def mhrRemProducer (s : Ends) (k : Nat × Channel) (fd : Nat) : Ends :=
  if hasFd (s.producers k) fd then
    let s := { s with producers := Function.update s.producers k ((s.producers k).eraseP (·.fd == fd)) }
    if hasFd (s.consumers k) fd then s else s.fdClose fd
  else s

/-- `mhr_rem_endpoint_fd`. -/
def mhrRemEndpointFd (s : Ends) (k : Nat × Channel) (fd : Nat) : Ends :=
  (s.mhrRemProducer k fd).mhrRemConsumer k fd

/-- `mhr_get_producer_tag`. -/
def mhrGetProducerTag (s : Ends) (k : Nat × Channel) (fd : Nat) : Option Nat :=
  ((s.producers k).find? (·.fd == fd)).map (·.ownerTag)

/-- `producer_cb` at the end of the file or with an error, for producer `i`. -/
def producerEnds (s : Ends) (k : Nat × Channel) (i : Nat) : Ends :=
  match (s.producers k)[i]? with
  | none => s
  | some prd => (s.mhrRemConsumer k prd.fd).mhrRemProducer k prd.fd

/-- `consumer_cb` with an error, for consumer `i`. -/
def consumerFails (s : Ends) (k : Nat × Channel) (i : Nat) : Ends :=
  match (s.consumers k)[i]? with
  | none => s
  | some cns => (s.mhrRemProducer k cns.fd).mhrRemConsumer k cns.fd

/-! ### The connector manager -/

/-- `socketpair` gives `a` for the router and `b` for the instance. -/
def socketpair (s : Ends) (a b tag : Nat) : Ends :=
  { s with
    fdt := Function.update (Function.update s.fdt a (some (.routerEnd s.pairs))) b (some (.con tag))
    pairs := s.pairs + 1 }

/-- The instance closes its ends. -/
def closeFds (s : Ends) (fds : List Nat) : Ends := fds.foldl fdClose s

/-- The fail path of `conmgr_create_con_cfg`, once the router has the data end. -/
def fail (s : Ends) (c : EndCon) : Ends :=
  let s := s.mhrRemEndpointFd (c.dev, c.channel) c.sFdData
  let s := match c.pttChannel, c.sFdPtt, c.routerOwnsPtt with
    | some p, some fd, true => s.mhrRemEndpointFd (c.dev, p) fd
    | _, _, _ => s
  s.closeFds c.fds

/-- Its last part: the instance starts or does not. -/
def start (s : Ends) (c : EndCon) (id : Int) (starts : Bool) : Ends :=
  if starts = false then s.fail c
  else if 0 < id then { s with connectorList := s.connectorList ++ [{ c with id }] }
  else
    { s with idCnt := s.idCnt + 1, connectorList := s.connectorList ++ [{ c with id := s.idCnt + 1 }] }

/-- The part about PTT. -/
def addPtt (s : Ends) (q : ConReq) (c : EndCon) (id : Int) : Ends :=
  match c.channel.pttChannel with
  | none => s.fail c
  | some p =>
    let c := { c with pttChannel := some p }
    if p = c.channel then s.start { c with sFdPtt := some c.sFdData } id q.starts
    else
      match q.soptt with
      | none => s.fail c
      | some (x, y) =>
        let s := s.socketpair x y c.tag
        let c := { c with fds := c.fds ++ [y] }
        if q.nonblockPtt = false then s.fail c
        else
          (s.mhrAddEndpointFd (c.dev, p) x c.tag).start { c with sFdPtt := some x, routerOwnsPtt := true }
            id q.starts

/-- The part from the socket pair for the data. -/
def addData (s : Ends) (q : ConReq) (dev : Nat) (id : Int) (a b : Nat) : Ends :=
  let tag := s.brk
  let s := { s with brk := s.brk + 1 }.socketpair a b tag
  if q.nonblockData = false then s.fdClose b
  else
    let s := s.mhrAddEndpointFd (dev, q.channel) a tag
    let c : EndCon := ⟨0, q.vsp, dev, q.channel, none, a, none, false, tag, [b]⟩
    if q.vsp && q.ptt then s.addPtt q c id else s.start c id q.starts

/-- `conmgr_create_con_cfg`. -/
def conmgrCreateConCfg (s : Ends) (q : ConReq) (id : Int) : Ends :=
  if 0 < id ∧ s.connectorList.any (·.id == id) then s
  else
    let s := { s with idCnt := max s.idCnt id }
    match q.dev, q.valid, q.sodat with
    | some dev, true, some (a, b) => s.addData q dev id a b
    | _, _, _ => s

/-- `rem_router_endpoint`. -/
def remRouterEndpoint (s : Ends) (c : EndCon) (fd : Option Nat) (k : Nat × Channel) : Ends :=
  match fd with
  | none => s
  | some fd => if s.mhrGetProducerTag k fd ≠ some c.tag then s else s.mhrRemEndpointFd k fd

/-- What `conmgr_destroy_con` does about PTT. -/
def remPtt (s : Ends) (c : EndCon) : Ends :=
  match c.pttChannel with
  | none => s
  | some p => if p = c.channel then s else s.remRouterEndpoint c c.sFdPtt (c.dev, p)

/-- `conmgr_destroy_con`. -/
def conmgrDestroyCon (s : Ends) (id : Int) : Ends :=
  match s.connectorList.find? (·.id == id) with
  | none => s
  | some c =>
    { (((s.closeFds c.fds).remPtt c).remRouterEndpoint c (some c.sFdData) (c.dev, c.channel)) with
      connectorList := s.connectorList.eraseP (·.id == id) }

/-- `fail` of a VSP: it closes its ends, the connector is kept. -/
def instanceFails (s : Ends) (id : Int) : Ends :=
  match s.connectorList.find? (·.id == id) with
  | none => s
  | some c =>
    if c.vsp = false then s
    else
      { s.closeFds c.fds with
        connectorList := s.connectorList.map fun c' => if c'.tag = c.tag then { c' with fds := [] } else c' }

end Ends

inductive EndEv
  | create (q : ConReq) (id : Int)
  | destroy (id : Int)
  | producerEnds (k : Nat × Channel) (i : Nat)
  | consumerFails (k : Nat × Channel) (i : Nat)
  | instanceFails (id : Int)
  | otherOpens (fd : Nat)
  | otherCloses (fd : Nat)

namespace Ends

/-- The numbers are free and the system gives each out once. -/
def Free (s : Ends) (fds : List Nat) : Prop := fds.Nodup ∧ ∀ fd ∈ fds, s.fdt fd = none

instance (s : Ends) (fds : List Nat) : Decidable (s.Free fds) := by unfold Free; infer_instance

/-- What the world does. The system gives out free numbers only, and other modules close what they opened. -/
def step (s : Ends) : EndEv → Ends
  | .create q id => if s.Free q.fds then s.conmgrCreateConCfg q id else s
  | .destroy id => s.conmgrDestroyCon id
  | .producerEnds k i => s.producerEnds k i
  | .consumerFails k i => s.consumerFails k i
  | .instanceFails id => s.instanceFails id
  | .otherOpens fd => if s.fdt fd = none then { s with fdt := Function.update s.fdt fd (some .other) } else s
  | .otherCloses fd => if s.fdt fd = some .other then s.fdClose fd else s

/-! ### What is promised -/

def Handed (s : Ends) (n : Nat) : Prop := .handed (some (.routerEnd n)) ∈ s.log

/-- How often the end was closed. -/
def closes (s : Ends) (n : Nat) : Nat := s.log.count (.close (some (.routerEnd n)))

/-- It is a producer and a consumer of a channel. -/
def Lives (s : Ends) (n : Nat) : Prop :=
  ∃ k, ∃ e ∈ s.producers k, e ∈ s.consumers k ∧ s.fdt e.fd = some (.routerEnd n)

/-- It is neither a producer nor a consumer. -/
def Gone (s : Ends) (n : Nat) : Prop :=
  ∀ k e, e ∈ s.producers k ∨ e ∈ s.consumers k → s.fdt e.fd ≠ some (.routerEnd n)

/-- An end the router has is not closed, an end it no longer has was closed once. Those there are belong to
connectors there are, and the removal of one takes its own only. -/
structure Sound (s : Ends) : Prop where
  together : ∀ k, s.producers k = s.consumers k
  once : ∀ n, s.Handed n → (s.closes n = 0 ∧ s.Lives n) ∨ (s.closes n = 1 ∧ s.Gone n)
  owned : ∀ k, ∀ e ∈ s.producers k, ∃ c ∈ s.connectorList, c.tag = e.ownerTag
  spares : ∀ id c, s.connectorList.find? (·.id == id) = some c → ∀ k,
    (s.conmgrDestroyCon id).producers k = (s.producers k).filter (·.ownerTag ≠ c.tag) ∧
      (s.conmgrDestroyCon id).consumers k = (s.consumers k).filter (·.ownerTag ≠ c.tag)

/-- The creation of a connector comes to its data end: it is then not one of the flags channel of a keyer
without it. -/
def Accepted (s : Ends) : EndEv → Prop
  | .create q id => ∀ dev a b, s.Free q.fds → ¬ (0 < id ∧ s.connectorList.any (·.id == id)) →
      q.dev = some dev → q.valid = true → q.sodat = some (a, b) → q.nonblockData = true →
        ¬ (q.channel = .flags ∧ s.hasFlagsChannel dev = false)
  | _ => True

end Ends

end Mhuxd
