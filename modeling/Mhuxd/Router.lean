import Mhuxd.Mux
import Mhuxd.Demux
import Mhuxd.Lib.Run

/-!
# The router (`mhrouter.c`)

Producers feed the channel buffers towards the keyer, consumers take what the keyer sends. Endpoints
are named by their descriptor; a watcher (`w.active`) says whether the event loop calls back for it.
`log` records what the router does to the world, in order: it is read by no function here.

Calls of the callbacks other modules register are left to those modules: `producerCb` and `keyerByte`
return what a tap and a consumer callback are given.
-/

namespace Mhuxd

def LB_BYTES_PER_IVAL : Int := 20
def LB_CARRY_OVER : Int := 2
def MHC2DFL_PTT_R1 : UInt8 := 0x04
def MHC2DFL_PTT_R2 : UInt8 := 0x08
def PTT_FLAGS : UInt8 := MHC2DFL_PTT_R1 ||| MHC2DFL_PTT_R2
def PTT_ON_BYTE : UInt8 := 0x01
def PTT_OFF_BYTE : UInt8 := 0x00
def MHR_CNS_NO_UNSOLICITED : UInt8 := 1

structure Producer where
  fd : Nat
  active : Bool
  channel : Channel
  pttMask : UInt8
deriving DecidableEq

structure Consumer where
  fd : Nat
  active : Bool
  buf : Buffer
  channel : Channel
  flags : UInt8
deriving DecidableEq

/-- The tokens are whole: 20 a tick, at most 2 carried over, and reads take whole bytes. -/
structure LeakyBucket where
  bps : Rat
  availThisIval : Int
  timer : Bool
deriving DecidableEq

/-- What the router does: to the keyer's line, to the endpoints, and the PTT holds it notes. -/
inductive Obs
  | connect (fd : Nat)
  | disconnect
  | hold (mask : UInt8)
  | queue (ch : Channel) (p : List UInt8)
  | write (p : List UInt8)
  | deliver (fd : Nat) (ch : Channel) (p : List UInt8)
  | overflow (fd : Nat) (ch : Channel)
  | close (fd : Nat)
deriving DecidableEq

/-- `struct mh_router`. The arrays over `ALL_NUM_CHANNELS` are functions of the channel; a keyer
descriptor or turn of -1 is `none`. -/
structure Router where
  consumers : Channel → List Consumer
  producers : Channel → List Producer
  chanOut : Channel → Buffer
  lb : Channel → LeakyBucket
  fd : Option Nat
  bufIn : Buffer
  bufOut : Buffer
  wIn : Bool
  wOut : Bool
  dmx : Dmx
  hold : Channel → Bool
  turn : Channel → Option Nat
  intercept : Channel → Bool
  wflag : UInt8
  hasFlagsChannel : Bool
  wkTxFocus : UInt8
  log : List Obs

/-- What a `read()` or `write()` does: some bytes, none for now, or an error. A read of no bytes is
the end of the file. -/
inductive ReadRes
  | data (p : List UInt8)
  | again
  | error
deriving DecidableEq

inductive WriteRes
  | wrote (n : Nat)
  | again
  | error
deriving DecidableEq

/-- The destination of `mhr_pass_out`: `MHR_ALL`, `MHR_UNSOLICITED` or a descriptor. -/
inductive Dest
  | all
  | unsolicited
  | fd (fd : Nat)
deriving DecidableEq

def Dest.takes (dest : Dest) (cns : Consumer) : Bool :=
  match dest with
  | .all => true
  | .unsolicited => cns.flags &&& MHR_CNS_NO_UNSOLICITED == 0
  | .fd n => cns.fd == n

namespace Router

/-- `mhr_create`. -/
def mhrCreate (hasFlagsChannel : Bool) : Router where
  consumers := fun _ => []
  producers := fun _ => []
  chanOut := fun _ => .empty
  lb := fun _ => ⟨0, 0, false⟩
  fd := none
  bufIn := .empty
  bufOut := .empty
  wIn := false
  wOut := false
  dmx := dmxCreate
  hold := fun _ => false
  turn := fun _ => none
  intercept := fun _ => false
  wflag := 0
  hasFlagsChannel := hasFlagsChannel
  wkTxFocus := 0
  log := []

def obs (r : Router) (o : Obs) : Router := { r with log := r.log ++ [o] }

def hasConsumerFd (r : Router) (fd : Nat) (ch : Channel) : Bool := (r.consumers ch).any (·.fd == fd)

def hasProducerFd (r : Router) (fd : Nat) (ch : Channel) : Bool := (r.producers ch).any (·.fd == fd)

/-- The channel isn't held and the producer has the turn. -/
def producerMayRead (r : Router) (prd : Producer) : Bool :=
  !r.hold prd.channel && (r.turn prd.channel == none || r.turn prd.channel == some prd.fd)

/-! ### Watchers and the leaky bucket -/

def startReaders (r : Router) (ch : Channel) : List Producer :=
  (r.producers ch).map fun prd => if r.producerMayRead prd then { prd with active := true } else prd

/-- `lb_cb`. -/
def lbCb (r : Router) (ch : Channel) : Router :=
  let lb := r.lb ch
  if lb.availThisIval = LB_BYTES_PER_IVAL + LB_CARRY_OVER then
    -- no data during the previous interval
    { r with lb := upd r.lb ch { lb with timer := false } }
  else
    let carry := if LB_CARRY_OVER < lb.availThisIval then LB_CARRY_OVER else lb.availThisIval
    { r with lb := upd r.lb ch { lb with availThisIval := LB_BYTES_PER_IVAL + carry }
             producers := upd r.producers ch (r.startReaders ch) }

/-- `mhr_set_bps_limit`. -/
def mhrSetBpsLimit (r : Router) (ch : Channel) (bps : Rat) : Router :=
  if bps = (r.lb ch).bps then r
  else if bps = 0 then { r with lb := upd r.lb ch { r.lb ch with bps := 0, timer := false } }
  else { r with lb := upd r.lb ch ⟨bps, LB_BYTES_PER_IVAL + LB_CARRY_OVER, true⟩ }

/-- `switch_producer_events`. -/
def switchProducerEvents (r : Router) (active : Bool) : Router :=
  { r with producers := fun ch =>
      if active then r.startReaders ch else (r.producers ch).map fun prd => { prd with active := false } }

/-- `update_producers`. -/
def updateProducers (r : Router) (ch : Channel) : Router :=
  { r with producers := upd r.producers ch ((r.producers ch).map fun prd =>
      { prd with active := r.fd.isSome && r.producerMayRead prd }) }

/-- `mhr_hold_producers`. -/
def mhrHoldProducers (r : Router) (ch : Channel) (hold : Bool) : Router :=
  if r.hold ch = hold then r else { r with hold := upd r.hold ch hold }.updateProducers ch

/-- `mhr_set_producer_turn`. -/
def mhrSetProducerTurn (r : Router) (ch : Channel) (fd : Option Nat) : Router :=
  if r.turn ch = fd then r else { r with turn := upd r.turn ch fd }.updateProducers ch

/-! ### Towards the keyer -/

/-- `mhr_send_in`: `none` for -1. -/
def mhrSendIn (r : Router) (data : List UInt8) (ch : Channel) : Router × Option Nat :=
  if ch = .flags ∧ r.hasFlagsChannel = false then (r, none)
  else if BUFFER_CAPACITY < data.length then (r, none)
  else if r.fd = none then (r, none)
  else if (r.chanOut ch).avail < data.length then (r, none)
  else
    ({ r with chanOut := upd r.chanOut ch ((r.chanOut ch).append data), wOut := true }.obs (.queue ch data),
      some data.length)

/-- The PTT bits all producers hold together. -/
def held (r : Router) : UInt8 :=
  ((Channel.all.filter Channel.isPtt).flatMap r.producers).foldl (fun held prd => held ||| prd.pttMask) 0

/-- `push_ptt`. -/
def pushPtt (r : Router) : Router :=
  let r := { r with wflag := (r.wflag &&& ~~~PTT_FLAGS) ||| r.held }
  if r.fd = none then r else (r.mhrSendIn [r.wflag] .flags).1

/-- The radio a PTT channel keys. -/
def pttMaskOf (r : Router) : Channel → Option UInt8
  | .ptt1 => some MHC2DFL_PTT_R1
  | .ptt2 => some MHC2DFL_PTT_R2
  | .pttFocus => some (if r.wkTxFocus = 1 then MHC2DFL_PTT_R2 else MHC2DFL_PTT_R1)
  | _ => none

/-- The mask of producer `i` of a channel is assigned. -/
def setPttMask (r : Router) (ch : Channel) (i : Nat) (mask : UInt8) : Router :=
  { r with producers := upd r.producers ch ((r.producers ch).modify i fun prd => { prd with pttMask := mask }) }.obs
    (.hold mask)

/-- The loop of `process_ptt_producer` over the bytes in the buffer; the flag is `push`. -/
def pttBytes (ch : Channel) (i : Nat) : List UInt8 → Router → Bool → Router × Bool
  | [], r, push => (r, push)
  | c :: cs, r, push =>
    if c ≠ PTT_ON_BYTE ∧ c ≠ PTT_OFF_BYTE then pttBytes ch i cs r push
    else
      match r.pttMaskOf ch with
      | none => pttBytes ch i cs r push
      | some mask => pttBytes ch i cs (r.setPttMask ch i (if c = PTT_ON_BYTE then mask else 0)) true

/-- `process_ptt_producer`: producer `i` of a PTT channel, whose bytes are in the channel's buffer. -/
def processPttProducer (r : Router) (ch : Channel) (i : Nat) : Router :=
  let (r, push) := pttBytes ch i (r.chanOut ch).unread r false
  let r := { r with chanOut := upd r.chanOut ch .empty }
  if push then r.pushPtt else r

/-! ### Endpoints -/

/-- `mhr_rem_consumer`: the first of its descriptor; closes it unless a producer has it too. -/
def mhrRemConsumer (r : Router) (fd : Nat) (ch : Channel) : Router :=
  if r.hasConsumerFd fd ch then
    let r := { r with consumers := upd r.consumers ch ((r.consumers ch).eraseP (·.fd == fd)) }
    if r.hasProducerFd fd ch then r else r.obs (.close fd)
  else r

/-- `mhr_rem_producer`: releases the PTT it holds. -/
def mhrRemProducer (r : Router) (fd : Nat) (ch : Channel) : Router :=
  match (r.producers ch).find? (·.fd == fd) with
  | none => r
  | some prd =>
    let r := { r with producers := upd r.producers ch ((r.producers ch).eraseP (·.fd == fd)) }
    let r := if prd.pttMask ≠ 0 then r.pushPtt else r
    if r.hasConsumerFd fd ch then r else r.obs (.close fd)

/-- `mhr_add_consumer`. -/
def mhrAddConsumer (r : Router) (fd : Nat) (ch : Channel) : Router :=
  if ch = .flags ∧ r.hasFlagsChannel = false then r
  else { r with consumers := upd r.consumers ch (r.consumers ch ++ [⟨fd, false, .empty, ch, 0⟩]) }

/-- `mhr_add_producer`. -/
def mhrAddProducer (r : Router) (fd : Nat) (ch : Channel) : Router :=
  if ch = .flags ∧ r.hasFlagsChannel = false then r
  else
    let prd : Producer := ⟨fd, false, ch, 0⟩
    { r with producers := upd r.producers ch (r.producers ch ++
        [{ prd with active := r.fd.isSome && r.producerMayRead prd }]) }

/-- `mhr_set_consumer_flags`. -/
def mhrSetConsumerFlags (r : Router) (fd : Nat) (ch : Channel) (flags : UInt8) : Router :=
  { r with consumers := upd r.consumers ch ((r.consumers ch).map fun cns =>
      if cns.fd = fd then { cns with flags := flags } else cns) }

/-- `mhr_count_consumers_flagged`. -/
def mhrCountConsumersFlagged (r : Router) (ch : Channel) (flags : UInt8) : Nat :=
  (r.consumers ch).countP fun cns => cns.flags &&& flags != 0

/-- `mhr_count_producers`. -/
def mhrCountProducers (r : Router) (ch : Channel) : Nat := (r.producers ch).length

/-- `mhr_next_waiting_producer`; `waiting` are the descriptors with data to read. The first waiting
one behind `fd`, else the first one before it. -/
def mhrNextWaitingProducer (r : Router) (ch : Channel) (fd : Option Nat) (waiting : List Nat) : Option Nat :=
  go (r.producers ch) false none
where
  go : List Producer → Bool → Option Nat → Option Nat
    | [], _, first => first
    | prd :: rest, after, first =>
      if some prd.fd = fd then go rest true first
      else if prd.fd ∈ waiting then
        if after then some prd.fd else go rest after (first.or (some prd.fd))
      else go rest after first

/-- `mhr_intercept_consumers`. -/
def mhrInterceptConsumers (r : Router) (ch : Channel) (intercept : Bool) : Router :=
  if ch.isMh = false ∨ ch = .control then r else { r with intercept := upd r.intercept ch intercept }

/-- `mhr_set_wk_tx_focus`. -/
def mhrSetWkTxFocus (r : Router) (focus : UInt8) : Router := { r with wkTxFocus := focus }

/-! ### From the keyer -/

/-- Appends to the buffers of the consumers that `sel` selects what fits as a whole. -/
def sendConsumers (sel : Consumer → Bool) (data : List UInt8) (ch : Channel) :
    List Consumer → List Consumer × List Obs
  | [] => ([], [])
  | cns :: rest =>
    let (rest, log) := sendConsumers sel data ch rest
    if sel cns then
      if data.length ≤ cns.buf.avail then
        ({ cns with buf := cns.buf.append data, active := true } :: rest, .deliver cns.fd ch data :: log)
      else (cns :: rest, .overflow cns.fd ch :: log)
    else (cns :: rest, log)

/-- `mhr_send_out`, without the consumer callbacks. -/
def mhrSendOut (r : Router) (data : List UInt8) (ch : Channel) : Router :=
  let (cns, log) := sendConsumers (fun _ => true) data ch (r.consumers ch)
  { r with consumers := upd r.consumers ch cns, log := r.log ++ log }

/-- `mhr_pass_out`. -/
def mhrPassOut (r : Router) (data : List UInt8) (ch : Channel) (dest : Dest) : Router :=
  if data = [] then r
  else
    let (cns, log) := sendConsumers dest.takes data ch (r.consumers ch)
    { r with consumers := upd r.consumers ch cns, log := r.log ++ log }

/-- What `keyer_in_cb` gives the consumers: a byte, or as much of a command as there is room for. -/
def keyerDeliver (data : List UInt8) (ch : Channel) : List Consumer → List Consumer × List Obs
  | [] => ([], [])
  | cns :: rest =>
    let (rest, log) := keyerDeliver data ch rest
    let p := data.take cns.buf.avail
    let lost := if p.length < data.length then [.overflow cns.fd ch] else []
    ({ cns with buf := cns.buf.append data, active := true } :: rest, .deliver cns.fd ch p :: lost ++ log)

/-- One round of the loop of `keyer_in_cb`: the next byte is demultiplexed; what it completes goes to
the consumers unless intercepted, and is returned for the consumer callbacks. -/
def keyerByte (r : Router) : Router × Option (Channel × List UInt8) :=
  match r.bufIn.getC with
  | (none, _) => (r, none)
  | (some c, b) =>
    let r := { r with bufIn := b }
    let (dmx, rep) := dmxRead r.dmx c
    let r := { r with dmx := dmx }
    match rep with
    | none => (r, none)
    | some (ch, data) =>
      if r.intercept ch then (r, some (ch, data))
      else
        let (cns, log) := keyerDeliver data ch (r.consumers ch)
        ({ r with consumers := upd r.consumers ch cns, log := r.log ++ log }, some (ch, data))

/-! ### The keyer's descriptor -/

/-- `drop_ptt`. -/
def dropPtt (r : Router) : Router :=
  { r with producers := fun ch => (r.producers ch).map fun prd => { prd with pttMask := 0 }
           wflag := r.wflag &&& ~~~PTT_FLAGS }

/-- `mhr_set_keyer_fd`, without the status callbacks. -/
def mhrSetKeyerFd (r : Router) (fd : Option Nat) : Router :=
  if fd = r.fd then r
  else
    let r := match r.fd with
      | none => r
      | some old => ({ r with wIn := false, wOut := false }.dropPtt).obs (.close old)
    let r := match fd with
      | none => { r with fd := none }.obs .disconnect
      | some new => { r with fd := some new, wIn := true, wOut := false }.obs (.connect new)
    r.switchProducerEvents fd.isSome

/-! ### Callbacks -/

/-- `ev_io_stop` of the watcher of producer `i`. -/
def stopProducer (r : Router) (ch : Channel) (i : Nat) : Router :=
  { r with producers := upd r.producers ch ((r.producers ch).modify i fun prd => { prd with active := false }) }

/-- How much `producer_cb` reads: the room in the buffer, less if the leaky bucket says so. -/
def readAvail (r : Router) (ch : Channel) : Nat :=
  let avail := (r.chanOut ch).avail
  if (r.lb ch).bps ≠ 0 ∧ (r.lb ch).availThisIval < avail then (r.lb ch).availThisIval.toNat else avail

/-- The branch of `producer_cb` for a read of `p`, not empty. -/
def producerData (r : Router) (ch : Channel) (i : Nat) (p : List UInt8) : Router :=
  let r := { r with chanOut := upd r.chanOut ch ((r.chanOut ch).append p) }.obs (.queue ch p)
  let lb := r.lb ch
  let lb := if lb.bps ≠ 0 then { lb with timer := true, availThisIval := lb.availThisIval - p.length } else lb
  let r := { r with lb := upd r.lb ch lb }
  let r := if ch.isPtt then r.processPttProducer ch i else r
  { r with wOut := true }

/-- `producer_cb` for producer `i` of a channel; returns the descriptor and the data for the taps. -/
def producerCb (r : Router) (ch : Channel) (i : Nat) (res : ReadRes) : Router × Option (Nat × List UInt8) :=
  match (r.producers ch)[i]? with
  | none => (r, none)
  | some prd =>
    if r.producerMayRead prd = false then (r.stopProducer ch i, none)
    else if r.fd = none then (r, none)   -- nothing to route to, discarded
    else if r.readAvail ch = 0 then (r.stopProducer ch i, none)
    else
      match res with
      | .again => (r, none)
      | .error => ((r.mhrRemConsumer prd.fd ch).mhrRemProducer prd.fd ch, none)
      | .data data =>
        match data.take (r.readAvail ch) with
        | [] => ((r.mhrRemConsumer prd.fd ch).mhrRemProducer prd.fd ch, none)
        | p@(_ :: _) => (r.producerData ch i p, some (prd.fd, p))

/-- `consumer_cb` for consumer `i` of a channel. -/
def consumerCb (r : Router) (ch : Channel) (i : Nat) (res : WriteRes) : Router :=
  match (r.consumers ch)[i]? with
  | none => r
  | some cns =>
    match res with
    | .error => (r.mhrRemProducer cns.fd ch).mhrRemConsumer cns.fd ch
    | .again =>
      if cns.buf.size = 0 then
        { r with consumers := upd r.consumers ch ((r.consumers ch).modify i fun cns =>
          { cns with active := false }) }
      else r
    | .wrote n =>
      let buf := cns.buf.consume (min n cns.buf.unread.length)
      { r with consumers := upd r.consumers ch ((r.consumers ch).modify i fun cns =>
        { cns with buf := buf, active := cns.active && buf.size != 0 }) }

/-- The read of `keyer_in_cb`. -/
def keyerRead (r : Router) (res : ReadRes) : Router :=
  match res with
  | .again => r
  | .error => r.mhrSetKeyerFd none
  | .data data =>
    match data.take r.bufIn.avail with
    | [] => r.mhrSetKeyerFd none
    | p@(_ :: _) => { r with bufIn := r.bufIn.append p }

/-- The loop of `keyer_in_cb` with no consumer callbacks registered. -/
def keyerBytes : Nat → Router → Router
  | 0, r => r
  | n + 1, r => keyerBytes n r.keyerByte.1

/-- `keyer_in_cb`. -/
def keyerInCb (r : Router) (res : ReadRes) : Router :=
  if r.fd = none then r
  else
    let r := r.keyerRead res
    keyerBytes r.bufIn.unread.length r

/-- The end of `keyer_out_cb`: nothing left to write stops the watcher. -/
def keyerOutStop (r : Router) : Router :=
  if r.bufOut.size = 0 ∧ ((Channel.all.filter Channel.isMh).all fun ch => (r.chanOut ch).size == 0) then
    { r with wOut := false }
  else r

/-- `keyer_out_cb`. -/
def keyerOutCb (r : Router) (res : WriteRes) : Router :=
  if r.fd = none then r
  else
    let m := mxMux r.bufOut r.chanOut
    let r := { r with bufOut := m.1, chanOut := m.2.1 }
    match res with
    | .error => r.mhrSetKeyerFd none
    | .again => r.keyerOutStop
    | .wrote n =>
      match r.bufOut.unread.take n with
      | [] => r.keyerOutStop
      | p@(_ :: _) =>
        let r := { r with bufOut := r.bufOut.consume p.length }.obs (.write p)
        (r.switchProducerEvents true).keyerOutStop

end Router

/-- What happens to a router: calls from other modules and callbacks of the event loop, these with
what the system call in them does. -/
inductive RouterEv
  | setKeyerFd (fd : Option Nat)
  | addConsumer (fd : Nat) (ch : Channel)
  | addProducer (fd : Nat) (ch : Channel)
  | remConsumer (fd : Nat) (ch : Channel)
  | remProducer (fd : Nat) (ch : Channel)
  | sendIn (data : List UInt8) (ch : Channel)
  | sendOut (data : List UInt8) (ch : Channel)
  | passOut (data : List UInt8) (ch : Channel) (dest : Dest)
  /-- A processor takes `n` bytes from the buffer of its channel. -/
  | process (ch : Channel) (n : Nat)
  | holdProducers (ch : Channel) (hold : Bool)
  | setProducerTurn (ch : Channel) (fd : Option Nat)
  | setConsumerFlags (fd : Nat) (ch : Channel) (flags : UInt8)
  | intercept (ch : Channel) (intercept : Bool)
  | setBpsLimit (ch : Channel) (bps : Rat)
  | setWkTxFocus (focus : UInt8)
  | lbTimer (ch : Channel)
  | producer (ch : Channel) (i : Nat) (res : ReadRes)
  | consumer (ch : Channel) (i : Nat) (res : WriteRes)
  | keyerIn (res : ReadRes)
  | keyerOut (res : WriteRes)

namespace Router

/-- The watcher of producer `i` is started. -/
def producerActive (r : Router) (ch : Channel) (i : Nat) : Bool := ((r.producers ch)[i]?.map (·.active)).getD false

def consumerActive (r : Router) (ch : Channel) (i : Nat) : Bool := ((r.consumers ch)[i]?.map (·.active)).getD false

/-- A callback runs only while its watcher is started. No module but the router sends on the flags
channel, and processors are registered for the MCP and rotator channels. -/
def step (r : Router) : RouterEv → Router
  | .setKeyerFd fd => r.mhrSetKeyerFd fd
  | .addConsumer fd ch => r.mhrAddConsumer fd ch
  | .addProducer fd ch => r.mhrAddProducer fd ch
  | .remConsumer fd ch => r.mhrRemConsumer fd ch
  | .remProducer fd ch => r.mhrRemProducer fd ch
  | .sendIn data ch => if ch = .flags then r else (r.mhrSendIn data ch).1
  | .sendOut data ch => r.mhrSendOut data ch
  | .passOut data ch dest => r.mhrPassOut data ch dest
  | .process ch n =>
    if ch = .mcp ∨ ch = .rotator then { r with chanOut := upd r.chanOut ch ((r.chanOut ch).consume n) } else r
  | .holdProducers ch hold => r.mhrHoldProducers ch hold
  | .setProducerTurn ch fd => r.mhrSetProducerTurn ch fd
  | .setConsumerFlags fd ch flags => r.mhrSetConsumerFlags fd ch flags
  | .intercept ch b => r.mhrInterceptConsumers ch b
  | .setBpsLimit ch bps => r.mhrSetBpsLimit ch bps
  | .setWkTxFocus focus => r.mhrSetWkTxFocus focus
  | .lbTimer ch => if (r.lb ch).timer then r.lbCb ch else r
  | .producer ch i res => if r.producerActive ch i then (r.producerCb ch i res).1 else r
  | .consumer ch i res => if r.consumerActive ch i then r.consumerCb ch i res else r
  | .keyerIn res => if r.wIn then r.keyerInCb res else r
  | .keyerOut res => if r.wOut then r.keyerOutCb res else r

/-- A run of a router from its creation. -/
abbrev runs (hasFlagsChannel : Bool) (evs : List RouterEv) : Router :=
  Run.run step (mhrCreate hasFlagsChannel) evs

end Router

end Mhuxd
