import Mhuxd.Router
import Mhuxd.CatCiv
import Mhuxd.CatAscii
import Mhuxd.CatYbin

/-!
# The native CAT layer of a radio (`cat_native.c`)

Feeds a decoder with what the applications and the radio say, asks the radio itself when no
application does, and routes the radio's data while answers have an owner. Times are in microseconds;
the decoders' are in milliseconds. A timer is its deadline, or `none` while it is stopped. `log`
records what becomes of the radio's data and of the own queries, in order: it is read by no function
here.
-/

namespace Mhuxd

/-! ### The decoder -/

/-- The decoder of a radio: one of these. -/
inductive Dec
  | civ (civ : Civ)
  | ascii (a : Ascii)
  | ybin (y : Ybin)

namespace Dec

def isCiv : Dec → Bool
  | .civ _ => true
  | _ => false

def st : Dec → CatState
  | .civ c => c.st
  | .ascii a => a.st
  | .ybin y => y.st

def pending : Dec → Nat → Bool × Bool
  | .civ c, t => c.pending t
  | .ascii a, t => a.pending t
  | .ybin y, t => y.pending t

def clientBusy : Dec → Nat → Nat → Bool
  | .civ c, client, t => c.clientBusy client t
  | .ascii a, client, t => a.clientBusy client t
  | .ybin y, client, t => y.clientBusy client t

def clientDiscard : Dec → Nat → Dec
  | .civ c, client => .civ (c.clientDiscard client)
  | .ascii a, client => .ascii (a.clientDiscard client)
  | .ybin y, client => .ybin (y.clientDiscard client)

def feed : Dec → CatDir → Nat → List UInt8 → Nat → Dec
  | .civ c, dir, client, data, t => .civ (c.feed dir client data t)
  | .ascii a, dir, client, data, t => .ascii (a.feed dir client data t)
  | .ybin y, dir, client, data, t => .ybin (y.feed dir client data t)

def answering : Dec → Nat → Option (Nat × Bool)
  | .ybin y, t => y.answering t
  | _, _ => none

def expire : Dec → Nat → Dec
  | .ybin y, t => .ybin (y.expire t)
  | d, _ => d

def lost : Dec → Nat
  | .civ c => c.lost
  | _ => 0

def resend : Dec → Nat → Nat → Dec × Option CivPending
  | .civ c, max, t =>
    let (c, p) := c.resend max t
    (.civ c, p)
  | d, _, _ => (d, none)

/-- The calls of the frame callback so far are taken out. -/
def drain : Dec → Dec × List Emit
  | .civ c => (.civ { c with out := [] }, c.out)
  | .ascii a => (.ascii { a with out := [] }, a.out)
  | .ybin y => (.ybin { y with out := [] }, y.out)

end Dec

/-! ### Rig types -/

/-- `CAT_NATIVE_PROTO_...`. -/
inductive CatProto
  | auto | civ | kenwood | elecraft | yaesu | flex | ybin | none
deriving DecidableEq

def RIG_TYPE_IC735 : Nat := 0x08
def RIG_TYPE_OMNI_VI : Nat := 0x38
def RIG_TYPE_TS950 : Nat := 0x19

/-- The rig types with a CI-V address (`rig_types` in `radiotypes.c`). -/
def icomAddresses : List (Nat × UInt8) :=
  [(0x12, 0x62), (0x5D, 0x10), (0x77, 0x14), (0x28, 0x68), (0x02, 0x48), (0x03, 0x4E), (0x04, 0x58), (0x24, 0x3E),
    (0x48, 0x5E), (0x05, 0x28), (0x06, 0x30), (0x07, 0x38), (0x25, 0x3A), (0x08, 0x04), (0x09, 0x40), (0x26, 0x3C),
    (0x27, 0x44), (0x0A, 0x56), (0x0B, 0x66), (0x0C, 0x50), (0x0D, 0x5C), (0x0E, 0x64), (0x4A, 0x6E), (0x71, 0x2C),
    (0x0F, 0x1E), (0x10, 0x2C), (0x11, 0x46), (0x70, 0x26), (0x13, 0x26), (0x5A, 0x70), (0x80, 0x88), (0x89, 0x88),
    (0x74, 0x76), (0x88, 0x94), (0x49, 0x66), (0x7B, 0x80), (0x76, 0x7A), (0x8A, 0x7A), (0x91, 0x98), (0x73, 0x74),
    (0x8B, 0x74), (0x4B, 0x6A), (0x85, 0x6A), (0x86, 0x8E), (0x87, 0x8E), (0x90, 0x4C), (0x5C, 0x60), (0x7C, 0x7C),
    (0x93, 0xA2), (0x38, 0x04)]

/-- `rtyp_get_icom_address`. -/
def rtypGetIcomAddress (key : Nat) : UInt8 := (icomAddresses.lookup key).getD 0

/-- `rig_protocols`: the protocol, and whether the radio has no data mode. -/
def rigProtocols : List (Nat × CatProto × Bool) :=
  [(0x4C, .kenwood, true), (0x15, .kenwood, true), (0x16, .kenwood, true), (0x47, .kenwood, true),
    (0x1A, .kenwood, true), (0x7D, .kenwood, false), (0x4D, .kenwood, true), (0x17, .kenwood, true),
    (0x4E, .kenwood, true), (0x4F, .kenwood, true), (0x50, .kenwood, true), (0x18, .kenwood, true),
    (0x1B, .kenwood, true), (0x51, .kenwood, true), (0x19, .kenwood, false), (0x7E, .kenwood, false),
    (0x92, .kenwood, false), (0x1C, .kenwood, true), (0x44, .elecraft, false), (0x62, .elecraft, false),
    (0x75, .elecraft, false), (0x7A, .elecraft, false), (0x64, .yaesu, false), (0x67, .yaesu, false),
    (0x84, .yaesu, false), (0x60, .yaesu, false), (0x72, .yaesu, false), (0x94, .yaesu, false), (0x81, .yaesu, false),
    (0x7F, .yaesu, false), (0x79, .yaesu, false), (0x58, .yaesu, false), (0x68, .yaesu, false), (0x69, .yaesu, false),
    (0x6A, .yaesu, false), (0x6B, .yaesu, false), (0x6C, .yaesu, false), (0x8F, .flex, false), (0x8C, .flex, false),
    (0x8E, .flex, false), (0x8D, .flex, false), (0x83, .flex, false)]

/-- `ybin_rigs`. -/
def ybinRigs : List (Nat × YbinModel) :=
  [(0x45, .ft757gx2), (0x29, .ft817), (0x3D, .ft857), (0x2B, .ft897), (0x2A, .ft847), (0x43, .ft840), (0x55, .ft890),
    (0x3A, .ft900), (0x3B, .ft920), (0x3C, .ft990), (0x1F, .ft1000), (0x20, .ft1000), (0x21, .ft1000mp),
    (0x22, .ft1000mp), (0x23, .ft1000mp)]

/-- `protocol_of_rig`: the protocol, `no_data` and the model. -/
def protocolOfRig (rigtype : Nat) : CatProto × Bool × Option YbinModel :=
  if rtypGetIcomAddress rigtype ≠ 0 ∨ rigtype = RIG_TYPE_OMNI_VI then (.civ, false, none)
  else
    match ybinRigs.lookup rigtype with
    | some model => (.ybin, false, some model)
    | none =>
      match rigProtocols.lookup rigtype with
      | some (protocol, noData) => (protocol, noData, none)
      | none => (.none, false, none)

/-! ### Constants, in microseconds -/

def CATN_CFG_CHECK_IVAL : Nat := 1000000
def CATN_TICK : Nat := 100000
def CATN_OWN_IDLE : Nat := 150000
def CATN_OWN_STALE : Nat := 1500000
def CATN_OWN_TIMEOUT : Nat := 300000
def CATN_OWN_BYTE_TIME : Nat := 2500
def CATN_OWN_RETRY : Nat := 10000000
def CATN_OWN_MAX_TIMEOUTS : Nat := 3
def CATN_OWN_MAX_REJECTS : Nat := 3
def CATN_CIV_OWN_ADDR : UInt8 := 0xe5
def CATN_ROUTE_MAX : Nat := 256
def CATN_ROUTE_FLUSH : Nat := 100000
def CATN_TURN_TIMEOUT : Nat := 500000
def CATN_TURN_TICK : Nat := 20000
def CATN_RESEND_QUIET : Nat := 60000
def CATN_RESEND_MAX : Nat := 3

/-! ### The state -/

/-- `Q_...`. -/
inductive Query
  | freq | mode | data
deriving DecidableEq

/-- Where radio data goes: `ROUTE_NONE`, `ROUTE_DROP` or a destination of `mhr_pass_out`. -/
inductive RouteDest
  | none
  | drop
  | dest (d : Dest)
deriving DecidableEq

/-- The configuration of a CAT layer. -/
structure CatnCfg where
  protocol : CatProto
  civAddress : Nat
  ownQueries : Bool
  civResend : Bool

/-- What happens to the radio's data and to the own queries. `came`: a byte came in. `held`: it is put
into the route buffer. `frame`: a frame of the radio, with the connector of its client and the connector
whose turn it is. `passed`: data is passed on to a destination, or dropped, with the connector whose turn
it is and those that take the data. `query`, `catOn`: an own command is sent, with what was pending in the
decoder and the turn then. `again`: the query in flight is repeated, with the number of lost commands and
what is pending. `ended`: the query in flight is over. -/
inductive CatnObs
  | came (b : UInt8)
  | held
  | frame (e : Emit) (owner turn : Option Nat)
  | passed (p : List UInt8) (dest : RouteDest) (turn : Option Nat) (fds : List Nat)
  | query (p : List UInt8) (pending : Bool × Bool) (turn : Option Nat) (fresh : Bool)
  | catOn (p : List UInt8) (pending : Bool × Bool) (turn : Option Nat) (fresh : Bool)
  | again (p : List UInt8) (lost : Nat) (pending : Bool × Bool)
  | timeout
  | reset
  | ended
deriving DecidableEq

/-- `struct cat_native`. `speed` (rig type and address), `online` and `waiting` stand for what
`mhc_get_speed_params`, `mhc_get_state` and `ioctl(FIONREAD)` say; `alive` is false before it is created
and after it is destroyed. A descriptor, rig type or address of -1 is `none`. -/
structure Catn where
  router : Router
  radio2 : Bool
  now : Nat
  speed : Option (Nat × Nat)
  online : Bool
  waiting : List Nat
  alive : Bool
  cfg : CatnCfg
  rigtype : Option Nat
  civAddr : Option Nat
  dec : Option Dec
  decoderProtocol : CatProto
  noData : Bool
  cfgChecked : Nat
  tick : Nat
  ownTimer : Option Nat
  ownActive : Bool
  ownSlot : Query
  ownTimeout : Nat
  ownSent : Query → Nat
  ownLast : Nat
  ownRejects : Query → Nat
  ownUnsupported : Query → Bool
  civModeCmd : UInt8
  ownCatOn : Nat
  ownTimeouts : Nat
  clientAnswered : Bool
  lastHost : Nat
  lastRadio : Nat
  routing : Bool
  routeBuf : List UInt8
  routeDest : RouteDest
  routeTimer : Option Nat
  clientsFd : List (Option Nat)
  multi : Bool
  resendTimer : Option Nat
  radioFrameDone : Bool
  filter : Bool
  turnFd : Option Nat
  turnClient : Nat
  turnFresh : Bool
  turnT : Nat
  turnTimer : Option Nat
  log : List CatnObs

namespace Catn

def channel (cn : Catn) : Channel := if cn.radio2 then .r2 else .r1

/-- The event loop's time for the decoders. -/
def tMs (cn : Catn) : Nat := cn.now / 1000

def obs (cn : Catn) (o : CatnObs) : Catn := { cn with log := cn.log ++ [o] }

def isCiv (cn : Catn) : Bool := cn.dec.any Dec.isCiv

/-- `catn_pending`. -/
def pending (cn : Catn) : Bool × Bool :=
  match cn.dec with
  | none => (false, false)
  | some d => d.pending cn.tMs

/-- `catn_client_busy`. -/
def clientBusy (cn : Catn) (client : Nat) : Bool := decide (1 ≤ client) && cn.dec.any fun d => d.clientBusy client cn.tMs

/-- `catn_answering`. -/
def answering (cn : Catn) (client : Nat) : Bool :=
  match cn.dec.bind fun d => d.answering cn.tMs with
  | none => false
  | some (c, own) => if client ≠ 0 then !own && c == client else own

/-- `cat_civ_lost`, of a CI-V decoder. -/
def lost (cn : Catn) : Nat := (cn.dec.map Dec.lost).getD 0

/-! ### Radio data routing -/

/-- The connector whose turn it is, all when none has it. -/
def defaultOf : Option Nat → Dest
  | some fd => .fd fd
  | none => .all

/-- `catn_route_default`. -/
def routeDefault (cn : Catn) : Dest := defaultOf cn.turnFd

/-- The connectors a destination has now. -/
def takers (cn : Catn) (dest : RouteDest) : List Nat :=
  match dest with
  | .dest d => ((cn.router.consumers cn.channel).filter d.takes).map (·.fd)
  | _ => []

/-- `catn_route_flush`. -/
def routeFlush (cn : Catn) (dest : RouteDest) : Catn :=
  let cn := { cn with routeTimer := none }
  if cn.routeBuf = [] then cn
  else
    let cn := cn.obs (.passed cn.routeBuf dest cn.turnFd (cn.takers dest))
    match dest with
    | .dest d => { cn with router := cn.router.mhrPassOut cn.routeBuf cn.channel d, routeBuf := [] }
    | _ => { cn with routeBuf := [] }

/-- `catn_route_start`. -/
def routeStart (cn : Catn) : Catn :=
  if cn.routing then cn
  else { cn with routing := true, routeBuf := [], router := cn.router.mhrInterceptConsumers cn.channel true }

/-- `catn_route_stop`. -/
def routeStop (cn : Catn) : Catn :=
  if cn.routing then
    let cn := cn.routeFlush (.dest .all)
    { cn with routing := false, router := cn.router.mhrInterceptConsumers cn.channel false }
  else cn

/-- `catn_removed_busy`. -/
def removedBusy (cn : Catn) : Bool :=
  cn.clientsFd.zipIdx.any fun x =>
    match x.1 with
    | none => false
    | some fd => !cn.router.hasProducerFd fd cn.channel && cn.clientBusy (x.2 + 1)

/-- `catn_route_always`. -/
def routeAlways (cn : Catn) : Bool := cn.multi || cn.filter || (cn.cfg.civResend && cn.isCiv)

/-- `catn_route_check`. -/
def routeCheck (cn : Catn) : Catn :=
  if cn.routing ∧ cn.routeAlways = false ∧ cn.ownActive = false ∧ cn.pending.2 = false ∧ cn.removedBusy = false then
    cn.routeStop
  else cn

/-! ### Several applications -/

/-- The slot `catn_client_of` takes: the connector's own, a free one, or that of a removed connector. -/
def clientSlot (cn : Catn) (fd : Nat) : Option Nat :=
  (cn.clientsFd.findIdx? (· == some fd)).or ((cn.clientsFd.findIdx? (·.isNone)).or
    (cn.clientsFd.findIdx? fun x => x.any fun fd => !cn.router.hasProducerFd fd cn.channel))

/-- `catn_client_of`: the client number, 0 if all are taken. -/
def clientOf (cn : Catn) (fd : Nat) : Catn × Nat :=
  match cn.clientSlot fd with
  | none => (cn, 0)
  | some i => ({ cn with clientsFd := cn.clientsFd.set i (some fd) }, i + 1)

/-- The client that gets the turn. -/
def turnClientOf (cn : Catn) : Option Nat → Catn × Nat
  | none => (cn, 0)
  | some fd => cn.clientOf fd

/-- `catn_turn_give`. -/
def turnGive (cn : Catn) (fd : Option Nat) (fresh : Bool) : Catn :=
  let (cn, client) := { cn with turnFd := fd }.turnClientOf fd
  { cn with turnClient := client, turnFresh := fresh, turnT := cn.now
            router := cn.router.mhrSetProducerTurn cn.channel fd
            turnTimer := if fd.isSome then some (cn.now + CATN_TURN_TICK) else none }

/-! ### The frame callback -/

/-- `catn_own_end`. -/
def ownEnd (cn : Catn) : Catn :=
  if cn.ownActive then
    { cn with ownActive := false, ownTimer := none, router := cn.router.mhrHoldProducers cn.channel false
              turnT := if cn.turnFd.isSome && cn.turnFresh then cn.now else cn.turnT }.obs .ended
  else cn

/-- The query of the slot was rejected. -/
def ownRejected (cn : Catn) (slot : Query) : Catn :=
  let n := cn.ownRejects slot + 1
  let cn := { cn with ownRejects := Function.update cn.ownRejects slot (if n < CATN_OWN_MAX_REJECTS then n else 0) }
  if n < CATN_OWN_MAX_REJECTS then cn
  else if cn.isCiv ∧ slot = .mode ∧ cn.civModeCmd = 0x26 then { cn with civModeCmd := 0x04 }
  else { cn with ownUnsupported := Function.update cn.ownUnsupported slot true }

/-- `catn_own_answered`. -/
def ownAnswered (cn : Catn) (f : CatFrame) : Catn :=
  let slot := cn.ownSlot
  let cn := { cn.ownEnd with ownTimeouts := 0 }
  if f.kind = .nak ∨ f.kind = .error then cn.ownRejected slot
  else { cn with ownRejects := Function.update cn.ownRejects slot 0 }

/-- The connector of a client. -/
def fdOf (cn : Catn) (client : Nat) : Option Nat := if client = 0 then none else (cn.clientsFd[client - 1]?).join

def isJam (f : CatFrame) : Bool := f.kind == .jam || f.kind == .dropped

/-- Not for the applications. -/
def routeDrop (cn : Catn) : Catn := if cn.routeDest = .none then { cn with routeDest := .drop } else cn

/-- A frame of an own query. -/
def frameOwn (cn : Catn) (f : CatFrame) : Catn :=
  (if cn.ownActive ∧ f.kind ≠ .echo then cn.ownAnswered f else cn).routeDrop

/-- Where a frame of the radio that is not mhuxd's goes. -/
def frameDest (cn : Catn) (e : Emit) : RouteDest :=
  let f := e.frame
  if isJam f ∧ cn.cfg.civResend ∧ cn.isCiv ∧ e.lost ≠ 0 then .drop
  else
    match cn.fdOf f.client with
    | some fd => .dest (.fd fd)
    | none => .dest (if f.kind = .unsolicited then .unsolicited else cn.routeDefault)

/-- Another frame of the radio. -/
def frameOther (cn : Catn) (e : Emit) : Catn :=
  let f := e.frame
  let cn := { cn with routeDest := cn.frameDest e }
  if 0 < f.client ∧ (f.kind = .reply ∨ f.kind = .nak ∨ f.kind = .error) then { cn with clientAnswered := true } else cn

/-- A frame of the radio is noted. -/
def frameNote (cn : Catn) (e : Emit) : Catn :=
  { cn.obs (.frame e (cn.fdOf e.frame.client) cn.turnFd) with
    radioFrameDone := cn.radioFrameDone || !isJam e.frame }

/-- `catn_frame_cb`. -/
def frameCb (cn : Catn) (e : Emit) : Catn :=
  if e.frame.dir ≠ .radio then cn
  else if e.frame.own then (cn.frameNote e).frameOwn e.frame
  else (cn.frameNote e).frameOther e

/-- The decoder becomes `d`; its frames go to the callback. -/
def decoded (cn : Catn) (d : Dec) : Catn := d.drain.2.foldl frameCb { cn with dec := some d.drain.1 }

/-- `catn_decoder_feed`. -/
def decoderFeed (cn : Catn) (dir : CatDir) (client : Nat) (data : List UInt8) : Catn :=
  match cn.dec with
  | none => cn
  | some d => cn.decoded (d.feed dir client data cn.tMs)

/-- `catn_client_discard`. -/
def clientDiscard (cn : Catn) (client : Nat) : Catn :=
  match cn.dec with
  | none => cn
  | some d => cn.decoded (d.clientDiscard client)

/-! ### Turns -/

/-- The radio is answering the application: its time starts again. -/
def turnAgain (cn : Catn) (answering : Bool) : Catn := if answering then { cn with turnT := cn.now } else cn

/-- The commands of the application are given up. -/
def turnDiscard (cn : Catn) (busy : Bool) : Catn := if busy then cn.clientDiscard cn.turnClient else cn

/-- The next application with data waiting gets the line; none: free for all. -/
def turnNext (cn : Catn) : Catn :=
  let next := if cn.multi then cn.router.mhrNextWaitingProducer cn.channel cn.turnFd cn.waiting else none
  cn.turnGive next next.isSome

/-- `catn_turn_check` while an application has the turn; `fresh`: it was granted and its data isn't read. -/
def turnHeld (cn : Catn) (fresh : Bool) : Catn :=
  let busy := fresh || cn.clientBusy cn.turnClient
  let cn := cn.turnAgain (busy && cn.answering cn.turnClient)
  if busy ∧ cn.now < cn.turnT + CATN_TURN_TIMEOUT then cn else (cn.turnDiscard (busy && !fresh)).turnNext

/-- `catn_turn_check`. -/
def turnCheck (cn : Catn) : Catn :=
  match cn.turnFd with
  | none => cn
  | some fd => cn.turnHeld (cn.turnFresh && cn.router.hasProducerFd fd cn.channel)

/-- `catn_filter_update`. -/
def filterUpdate (cn : Catn) : Catn :=
  { cn with filter := decide (0 < cn.router.mhrCountConsumersFlagged cn.channel MHR_CNS_NO_UNSOLICITED) &&
      cn.dec.isSome }

/-- Taking turns begins or ends; without a decoder a turn in progress ends. -/
def multiSet (cn : Catn) (multi : Bool) : Catn :=
  if multi = cn.multi then cn
  else
    let cn := { cn with multi := multi }
    if multi = false ∧ cn.dec.isNone then cn.turnGive none false else cn

/-- The end of `catn_multi_update`. -/
def routeUpdate (cn : Catn) : Catn := if cn.routeAlways then cn.routeStart else cn.routeCheck

/-- `catn_multi_update`. -/
def multiUpdate (cn : Catn) : Catn :=
  let multi := decide (1 < cn.router.mhrCountProducers cn.channel) && cn.dec.isSome
  (cn.filterUpdate.multiSet multi).routeUpdate

/-! ### Set-up -/

/-- Routing ends unless it is on all the time. -/
def routeRelease (cn : Catn) : Catn := if cn.routeAlways then cn else cn.routeStop

/-- `catn_own_reset`. -/
def ownReset (cn : Catn) : Catn :=
  let cn := (cn.obs .reset).ownEnd.routeRelease
  { cn with ownSent := fun _ => 0, ownRejects := fun _ => 0, ownUnsupported := fun _ => false, civModeCmd := 0x26
            ownCatOn := 0, ownTimeouts := 0, ownLast := 0 }

/-- `catn_reset`. -/
def reset (cn : Catn) : Catn := { cn with resendTimer := none }.ownReset.turnGive none false

/-- `catn_destroy_decoder`. -/
def destroyDecoder (cn : Catn) : Catn := { cn with dec := none }

/-- The decoder of a protocol. -/
def createDecoder (protocol : CatProto) (rigtype addr : Nat) (noData : Bool) (model : Option YbinModel) : Option Dec :=
  match protocol with
  | .civ => some (.civ (.create (UInt8.ofNat addr) (if rigtype = RIG_TYPE_IC735 then 4 else 0) .init))
  | .ybin => model.map fun m => .ybin (.create m .init)
  | .none => none
  | .elecraft => some (.ascii (.create .elecraft noData .init))
  | .yaesu => some (.ascii (.create .yaesu noData .init))
  | .flex => some (.ascii (.create .flex noData .init))
  | _ => some (.ascii (.create .kenwood noData .init))

/-- The decoder is set up for a rig type. -/
def setDecoder (cn : Catn) (rig addr : Nat) : Catn :=
  let (protocol, noData, model) := protocolOfRig rig
  let protocol := if cn.cfg.protocol = .auto then protocol else cn.cfg.protocol
  match createDecoder protocol rig addr noData model with
  | none => cn
  | some d => { cn with dec := some d, decoderProtocol := protocol, noData := noData }

/-- `catn_setup_decoder`. -/
def setupDecoder (cn : Catn) (rigtype : Option Nat) (addr : Nat) : Catn :=
  let cn := { cn with rigtype := rigtype, civAddr := some addr }.destroyDecoder.reset
  match rigtype with
  | none => cn
  | some rig => cn.setDecoder rig addr

/-- The rig type and the address as configured now. -/
def speedParams (cn : Catn) : Option Nat × Nat :=
  (cn.speed.map (·.1),
    if cn.cfg.civAddress ≠ 0 then cn.cfg.civAddress else ((cn.speed.map (·.2)).getD 0))

/-- `catn_setup`. -/
def setup (cn : Catn) (force : Bool) : Catn :=
  if force = false ∧ cn.now < cn.cfgChecked + CATN_CFG_CHECK_IVAL then cn
  else
    let cn := { cn with cfgChecked := cn.now }
    let (rigtype, addr) := cn.speedParams
    if rigtype = cn.rigtype ∧ some addr = cn.civAddr then cn else (cn.setupDecoder rigtype addr).multiUpdate

/-- `catn_feed`. -/
def feed (cn : Catn) (dir : CatDir) (client : Nat) (data : List UInt8) : Catn :=
  (cn.setup false).decoderFeed dir client data

/-! ### Own queries -/

/-- `catn_can_query`. -/
def canQuery (cn : Catn) : Bool :=
  cn.cfg.ownQueries && cn.online &&
    match cn.dec with
    | none => false
    | some (.civ c) => c.radioAddr != 0
    | some _ => true

def ascii (s : String) : List UInt8 := s.toList.map fun c => UInt8.ofNat c.toNat

/-- The own queries of the ASCII protocols. -/
def asciiQuery (cn : Catn) (slot : Query) : Option String :=
  match cn.decoderProtocol, slot with
  | .flex, .freq => some "FA;"
  | .flex, .mode => some "MD;"
  | .flex, .data => none
  | .yaesu, .freq => some "IF;"
  | .yaesu, _ => none
  | .elecraft, .freq => some "IF;"
  | .elecraft, .mode => none
  | .elecraft, .data => some "DT;"
  | _, .freq => some "IF;"
  | _, .mode => none
  | _, .data => if cn.noData then none else some (if cn.rigtype = some RIG_TYPE_TS950 then "DT;" else "DA;")

def civQuery (cn : Catn) (addr : UInt8) (slot : Query) : List UInt8 :=
  let cmd : List UInt8 :=
    match slot with
    | .freq => [0x03]
    | .mode => if cn.civModeCmd = 0x26 then [cn.civModeCmd, 0x00] else [cn.civModeCmd]
    | .data => [0x1a, 0x06]
  [0xfe, 0xfe, addr, CATN_CIV_OWN_ADDR] ++ cmd ++ [0xfd]

/-- `catn_build_query`: the command, empty if there is none, and the length of the answer if known. -/
def buildQuery (cn : Catn) (slot : Query) : List UInt8 × Nat :=
  match cn.dec with
  | some (.ybin y) =>
    if slot ≠ .freq then ([], 0)
    else
      let (c, answer) := y.query
      (if answer ≠ 0 then c else [], answer)
  | some (.civ c) => (cn.civQuery c.radioAddr slot, 0)
  | _ => (((cn.asciiQuery slot).map ascii).getD [], 0)

def itemStale {α : Type} (it : CatItem α) (t : Nat) : Bool :=
  !it.valid || decide (it.tMs + CATN_OWN_STALE / 1000 < t)

/-- `catn_query_needed`. -/
def queryNeeded (cn : Catn) (slot : Query) : Bool :=
  match cn.dec with
  | none => false
  | some d =>
    let v := d.st.vfo .sel
    let freq := itemStale v.freq cn.tMs
    let mode := itemStale v.mode cn.tMs
    let data := v.mode.valid && v.mode.val.withData true != v.mode.val && itemStale v.data cn.tMs
    if d.isCiv then
      match slot with
      | .freq => freq
      | .mode => mode || (data && cn.civModeCmd == 0x26)
      | .data => data && !mode && cn.civModeCmd == 0x04
    else
      match slot with
      | .freq => freq || (mode && cn.decoderProtocol != .flex)
      | .mode => mode
      | .data =>
        if cn.decoderProtocol = .elecraft then
          match d.st.mode .sel with
          | .pktusb | .pktlsb | .rtty | .rttyr => true
          | _ => false
        else data

/-- A command is handed to the router; `none` if it doesn't take it. -/
def send (cn : Catn) (p : List UInt8) : Option Catn :=
  let (r, n) := cn.router.mhrSendIn p cn.channel
  if n = some p.length then some { cn with router := r } else none

/-- The query is in flight. -/
def ownStart (cn : Catn) (slot : Query) (answer : Nat) : Catn :=
  let timeout := CATN_OWN_TIMEOUT + answer * CATN_OWN_BYTE_TIME
  let cn := { cn with ownActive := true, ownSlot := slot, ownTimeout := timeout }.routeStart
  { cn with ownTimer := some (cn.now + timeout) }

def holdProducers (cn : Catn) (hold : Bool) : Catn :=
  { cn with router := cn.router.mhrHoldProducers cn.channel hold }

/-- The query is sent; the applications' data waits until the answer is in or the query timed out. -/
def ownQuery (cn : Catn) (slot : Query) (p : List UInt8) (answer : Nat) : Catn :=
  let cn := cn.holdProducers true
  match cn.send p with
  | none => cn.holdProducers false
  | some cn =>
    ((cn.obs (.query p cn.pending cn.turnFd cn.turnFresh)).ownStart slot answer).decoderFeed .own 0 p

def ownMark (cn : Catn) (slot : Query) : Catn :=
  { cn with ownSent := Function.update cn.ownSent slot cn.now, ownLast := cn.now }

/-- `catn_own_send`. -/
def ownSend (cn : Catn) (slot : Query) : Catn :=
  let (p, answer) := cn.buildQuery slot
  let cn := cn.ownMark slot
  if p = [] then { cn with ownUnsupported := Function.update cn.ownUnsupported slot true }
  else cn.ownQuery slot p answer

/-- The command `catn_own_cat_on` sends now, if one is due. -/
def catOnDue (cn : Catn) : Option (List UInt8) :=
  match cn.dec with
  | some (.ybin y) =>
    if cn.ownCatOn ≠ 0 ∧ (cn.ownTimeouts = 0 ∨ cn.ownLast < cn.ownCatOn) then none else y.catOn
  | _ => none

/-- `catn_own_cat_on`, with the command that is due. -/
def ownCatOnSend (cn : Catn) (p : List UInt8) : Catn :=
  let cn := { cn with ownCatOn := cn.now }
  match cn.send p with
  | none => cn
  | some cn => (cn.obs (.catOn p cn.pending cn.turnFd cn.turnFresh)).decoderFeed .own 0 p

/-- The query that is due, if one is. -/
def queryDue (cn : Catn) : Option Query :=
  [Query.freq, .mode, .data].find? fun slot =>
    !cn.ownUnsupported slot && decide (cn.ownSent slot + CATN_OWN_STALE ≤ cn.now) && cn.queryNeeded slot

/-- The line is free for an own query. -/
def ownFree (cn : Catn) : Bool :=
  !cn.ownActive && cn.canQuery && cn.pending == (false, false) && (cn.turnFd.isNone || cn.turnFresh)

/-- `catn_own_try`. -/
def ownTry (cn : Catn) : Catn :=
  if cn.ownFree = false then cn
  else if CATN_OWN_MAX_TIMEOUTS ≤ cn.ownTimeouts ∧ cn.now < cn.ownLast + CATN_OWN_RETRY then cn
  else
    match cn.queryDue with
    | none => cn
    | some slot =>
      match cn.catOnDue with
      | some p => cn.ownCatOnSend p
      | none => cn.ownSend slot

/-- The command was sent again: its time starts again. -/
def resent (cn : Catn) (lost : Nat) (p : CivPending) : Catn :=
  if p.own then { cn.obs (.again p.buf lost cn.pending) with ownTimer := some (cn.now + cn.ownTimeout) }
  else if p.client ≠ 0 ∧ p.client = cn.turnClient then { cn with turnT := cn.now } else cn

/-- Another lost command goes out later. -/
def resendLater (cn : Catn) (lost : Nat) : Catn :=
  if 1 < lost then { cn with resendTimer := some (cn.now + CATN_RESEND_QUIET) } else cn

/-- A lost command is sent again; an own query only while it is in flight. -/
def resendCmd (cn : Catn) (lost : Nat) (p : CivPending) : Catn :=
  if p.own ∧ cn.ownActive = false then cn
  else
    match cn.send p.buf with
    | none => cn
    | some cn => (cn.resent lost p).resendLater lost

/-- `catn_civ_resend`. -/
def civResend (cn : Catn) : Catn :=
  let cn := { cn with resendTimer := none }
  match cn.dec with
  | none => cn
  | some d =>
    if d.lost = 0 then cn
    else
      let (d', p) := d.resend CATN_RESEND_MAX cn.tMs
      let cn := { cn with dec := some d' }
      match p with
      | none => cn
      | some p => cn.resendCmd d.lost p

/-! ### Callbacks -/

/-- `catn_route_timer_cb`. -/
def routeTimerCb (cn : Catn) : Catn := cn.routeFlush (.dest cn.routeDefault)

/-- `catn_own_timeout_cb`. -/
def ownTimeoutCb (cn : Catn) : Catn :=
  if cn.answering 0 then { cn with ownTimer := some (cn.now + CATN_TURN_TICK) }
  else
    let cn := (cn.obs .timeout).ownEnd
    { cn with ownTimeouts := cn.ownTimeouts + 1 }

/-- The partly received commands and answers that stopped are noticed. -/
def decoderExpire (cn : Catn) : Catn :=
  match cn.dec with
  | none => cn
  | some d => cn.decoded (d.expire cn.tMs)

/-- Nobody talks: an own query may go in. -/
def ownIdle (cn : Catn) : Catn :=
  if cn.now < cn.lastHost + CATN_OWN_IDLE ∨ cn.now < cn.lastRadio + CATN_OWN_IDLE then cn else cn.ownTry

/-- `catn_tick_cb`. -/
def tickCb (cn : Catn) : Catn :=
  let cn := cn.decoderExpire.multiUpdate.routeCheck
  if cn.ownActive then cn else (cn.setup false).ownIdle

/-- The line is free until the application's next command: an own query may go in. -/
def ownAfter (cn : Catn) : Catn := if cn.clientAnswered then cn.ownTry else cn

/-- After a byte of the radio. -/
def radioNext (cn : Catn) : Catn := cn.turnCheck.ownAfter

/-- A full route buffer is passed on. -/
def routeRoom (cn : Catn) : Catn :=
  if cn.routeBuf.length = CATN_ROUTE_MAX then cn.routeFlush (.dest cn.routeDefault) else cn

/-- A byte is put into the route buffer. -/
def routeHold (cn : Catn) (b : UInt8) : Catn :=
  { cn.obs .held with routeBuf := cn.routeBuf ++ [b], routeDest := .none, radioFrameDone := false }

/-- The frames completed by the byte say where the data goes. -/
def routeDone (cn : Catn) : Catn :=
  if cn.routeDest ≠ .none then cn.routeFlush cn.routeDest
  else { cn with routeTimer := some (cn.now + CATN_ROUTE_FLUSH) }

/-- A command lost in a collision goes out again after a frame, or when the radio is quiet. -/
def resendCheck (cn : Catn) : Catn :=
  if cn.cfg.civResend ∧ cn.lost ≠ 0 then
    if cn.radioFrameDone then cn.civResend else { cn with resendTimer := some (cn.now + CATN_RESEND_QUIET) }
  else cn

def radioMark (cn : Catn) : Catn := { cn with lastRadio := cn.now, clientAnswered := false }

/-- A byte of the radio while its data is routed. -/
def radioRouted (cn : Catn) (b : UInt8) : Catn :=
  (((cn.routeRoom.routeHold b).feed .radio 0 [b]).routeDone.resendCheck).radioNext.routeCheck

/-- `catn_radio_cb`: the router gives one byte a call. -/
def radioCb (cn : Catn) (b : UInt8) : Catn :=
  if cn.routing then cn.radioMark.radioRouted b else (cn.radioMark.feed .radio 0 [b]).radioNext

/-- The application that sends first gets the line. -/
def hostTurn (cn : Catn) (fd : Nat) : Catn :=
  if cn.multi ∧ cn.turnFd = none then cn.turnGive (some fd) false else cn

/-- The data of the application whose turn it is is read. -/
def hostRead (cn : Catn) (fd : Nat) : Catn :=
  if cn.turnFd = some fd then { cn with turnFresh := false, turnT := cn.now } else cn

/-- `catn_host_cb`. -/
def hostCb (cn : Catn) (data : List UInt8) (fd : Nat) : Catn :=
  let cn := ({ cn with lastHost := cn.now }.multiUpdate.hostTurn fd).hostRead fd
  (cn.clientOf fd).1.feed .host (cn.clientOf fd).2 data

/-- `catn_keyer_state_cb`. -/
def keyerStateCb (cn : Catn) : Catn :=
  let cn := { cn.destroyDecoder with rigtype := none, civAddr := none }.reset.multiUpdate
  if cn.online then cn.setup true else cn

/-- All fields but those of the world around it as `cat_native_create` sets them. -/
def fresh (cn : Catn) (cfg : CatnCfg) : Catn :=
  { cn with alive := true, cfg := cfg, rigtype := none, civAddr := none, dec := none, decoderProtocol := .auto
            noData := false, cfgChecked := 0, tick := cn.now + CATN_TICK, ownTimer := none, ownActive := false
            ownSlot := .freq, ownTimeout := 0, ownSent := fun _ => 0, ownLast := 0, ownRejects := fun _ => 0
            ownUnsupported := fun _ => false, civModeCmd := 0x26, ownCatOn := 0, ownTimeouts := 0
            clientAnswered := false, lastHost := 0, lastRadio := 0, routing := false, routeBuf := []
            routeDest := .none, routeTimer := none, clientsFd := List.replicate CAT_MAX_CLIENTS none
            multi := false, resendTimer := none, radioFrameDone := false, filter := false, turnFd := none
            turnClient := 0, turnFresh := false, turnT := 0, turnTimer := none }

/-- `cat_native_create`. -/
def create (cn : Catn) (cfg : CatnCfg) : Catn := (cn.fresh cfg).setup true

/-- `cat_native_destroy`. -/
def destroy (cn : Catn) : Catn :=
  let cn := (cn.ownReset.turnGive none false).routeStop
  { cn.destroyDecoder with resendTimer := none, alive := false }

/-- Unless the data is intercepted the router has passed the byte on. -/
def passDirect (cn : Catn) (b : UInt8) : Catn :=
  if cn.router.intercept cn.channel then cn
  else cn.obs (.passed [b] (.dest .all) cn.turnFd (cn.takers (.dest .all)))

/-- A byte of the radio: the router passes it on unless told not to, then calls the CAT layer. -/
def came (cn : Catn) (b : UInt8) : Catn :=
  let cn := (cn.obs (.came b)).passDirect b
  if cn.alive then cn.radioCb b else cn

/-- One round of the loop of `keyer_in_cb`, with the consumer callback. -/
def keyerByte (cn : Catn) : Catn :=
  let (r, rep) := cn.router.keyerByte
  let cn := { cn with router := r }
  match rep with
  | some (ch, [b]) => if ch = cn.channel then cn.came b else cn
  | _ => cn

/-- `producer_cb` for producer `i` of the radio's channel, with the tap. -/
def producer (cn : Catn) (i : Nat) (res : ReadRes) : Catn :=
  let (r, tap) := cn.router.producerCb cn.channel i res
  let cn := { cn with router := r }
  match tap with
  | none => cn
  | some (fd, data) => if cn.alive then cn.hostCb data fd else cn

/-- The timer is due. -/
def due (cn : Catn) (timer : Option Nat) : Bool := cn.alive && timer.any (· ≤ cn.now)

/-- The next deadline of a repeating timer that was due at `d`. -/
def again (cn : Catn) (d : Option Nat) (ival : Nat) : Option Nat := d.map fun d => max (d + ival) cn.now

end Catn

/-- Events of the router that the CAT layer of channel `ch` has no part in: only it sends on the channel,
passes its data on, holds its producers and gives the turn. -/
def RouterEv.spares (ch : Channel) : RouterEv → Bool
  | .sendIn _ c | .sendOut _ c | .passOut _ c _ | .holdProducers c _ | .setProducerTurn c _ | .intercept c _
  | .producer c _ _ => c != ch
  | .keyerIn _ => false
  | _ => true

/-- What happens to the CAT layer of a radio and its router. The loop of `keyer_in_cb` is cut into its
rounds. -/
inductive CatnEv
  | wait (dt : Nat)
  | router (e : RouterEv)
  | keyerRead (res : ReadRes)
  | keyerByte
  | producer (i : Nat) (res : ReadRes)
  | tick
  | ownTimeout
  | turnTimer
  | routeTimer
  | resendTimer
  | keyerState (online : Bool)
  | speed (p : Option (Nat × Nat))
  | waiting (fds : List Nat)
  | create (cfg : CatnCfg)
  | destroy

namespace Catn

/-- A callback runs only while its watcher is started, a timer only when it is due. -/
def step (cn : Catn) : CatnEv → Catn
  | .wait dt => { cn with now := cn.now + dt }
  | .router e => if e.spares cn.channel then { cn with router := cn.router.step e } else cn
  | .keyerRead res =>
    if cn.router.wIn = true ∧ cn.router.fd ≠ none then { cn with router := cn.router.keyerRead res } else cn
  | .keyerByte => cn.keyerByte
  | .producer i res => if cn.router.producerActive cn.channel i then cn.producer i res else cn
  | .tick => if cn.due (some cn.tick) then { cn with tick := max (cn.tick + CATN_TICK) cn.now }.tickCb else cn
  | .ownTimeout => if cn.due cn.ownTimer then { cn with ownTimer := none }.ownTimeoutCb else cn
  | .turnTimer =>
    if cn.due cn.turnTimer then { cn with turnTimer := cn.again cn.turnTimer CATN_TURN_TICK }.turnCheck else cn
  | .routeTimer => if cn.due cn.routeTimer then cn.routeTimerCb else cn
  | .resendTimer => if cn.due cn.resendTimer then cn.civResend else cn
  | .keyerState online =>
    let cn := { cn with online := online }
    if cn.alive then cn.keyerStateCb else cn
  | .speed p => { cn with speed := p }
  | .waiting fds => { cn with waiting := fds }
  | .create cfg => if cn.alive then cn else cn.create cfg
  | .destroy => if cn.alive then cn.destroy else cn

def cfgNone : CatnCfg := ⟨.auto, 0, false, false⟩

/-- A router and no CAT layer yet. -/
def init (hasFlagsChannel radio2 : Bool) : Catn where
  router := .mhrCreate hasFlagsChannel
  radio2 := radio2
  now := 0
  speed := none
  online := false
  waiting := []
  alive := false
  cfg := cfgNone
  rigtype := none
  civAddr := none
  dec := none
  decoderProtocol := .auto
  noData := false
  cfgChecked := 0
  tick := 0
  ownTimer := none
  ownActive := false
  ownSlot := .freq
  ownTimeout := 0
  ownSent := fun _ => 0
  ownLast := 0
  ownRejects := fun _ => 0
  ownUnsupported := fun _ => false
  civModeCmd := 0x26
  ownCatOn := 0
  ownTimeouts := 0
  clientAnswered := false
  lastHost := 0
  lastRadio := 0
  routing := false
  routeBuf := []
  routeDest := .none
  routeTimer := none
  clientsFd := []
  multi := false
  resendTimer := none
  radioFrameDone := false
  filter := false
  turnFd := none
  turnClient := 0
  turnFresh := false
  turnT := 0
  turnTimer := none
  log := []

/-- A run of a router and the CAT layer of a radio. -/
abbrev runs (hasFlagsChannel radio2 : Bool) (evs : List CatnEv) : Catn :=
  Run.run step (init hasFlagsChannel radio2) evs

end Catn

end Mhuxd
