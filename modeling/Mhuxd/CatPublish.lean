import Mhuxd.CatNative
import Mhuxd.FreqInfo
import Mhuxd.AsciiAtomic
import Mhuxd.YbinAtomic
import Mhuxd.Lib.Run

/-!
# Telling the keyer of the radio (`cat_native.c`, `cat_state.c`)

What the decoder knows is published a moment after a frame was applied, and told again until something new is
published. The rest of the CAT layer calls the decoder in any order: each call is an event here.
-/

namespace Mhuxd

/-! ### The info -/

def MOD_CW : Int := 0
def MOD_VOICE : Int := 1
def MOD_FSK : Int := 2
def MOD_DIGITAL : Int := 3

namespace CatMode

/-- `cat_mode_token`. -/
def token : CatMode → String
  | none => ""
  | lsb => "LSB"
  | usb => "USB"
  | cw => "CW"
  | cwr => "CWR"
  | rtty => "RTTY"
  | rttyr => "RTTYR"
  | am => "AM"
  | ams => "AMS"
  | fm => "FM"
  | wfm => "WFM"
  | pktlsb => "PKTLSB"
  | pktusb => "PKTUSB"
  | pktam => "PKTAM"
  | pktfm => "PKTFM"
  | fax => "FAX"
  | psk => "PSK"
  | pskr => "PSKR"
  | other => "OTHER"

/-- `cat_mode_to_keyer`: -1 if the mode of the keyer should not change. -/
def toKeyer : CatMode → Int
  | none | psk | pskr | other => -1
  | cw | cwr => MOD_CW
  | lsb | usb | am | ams | fm | wfm => MOD_VOICE
  | rtty | rttyr => MOD_FSK
  | pktlsb | pktusb | pktam | pktfm | fax => MOD_DIGITAL

end CatMode

/-- `struct mhc_radio_info`. -/
structure CatInfo extends RadioInfo where
  mode : Int
  modeStr : String
deriving DecidableEq

namespace CatState

/-- 0 for an unknown frequency. -/
def hz (it : CatItem Nat) : Nat := if it.valid then it.val else 0

/-- `cat_state_tx_freq`. -/
def txFreq (st : CatState) : Nat := if st.split.valid && st.split.val then hz st.unsel.freq else hz st.sel.freq

/-- The info of `cat_state_to_radio_info`. -/
def radioInfo (st : CatState) (radio : UInt8) : CatInfo where
  radio := radio
  mode := (st.mode .sel).toKeyer
  modeStr := (st.mode .sel).token
  rxFreq := UInt32.ofNat (hz st.sel.freq)
  operFreq := UInt32.ofNat (hz st.sel.freq)
  txFreq := UInt32.ofNat st.txFreq
  vfoAFreq := UInt32.ofNat (hz (if st.vfoAb.valid && st.vfoAb.val then st.unsel.freq else st.sel.freq))
  vfoBFreq := UInt32.ofNat (hz (if st.vfoAb.valid && st.vfoAb.val then st.sel.freq else st.unsel.freq))

/-- Its result: a mode for the keyer or the selected frequency is known. -/
def Tells (st : CatState) : Prop := 0 ≤ (st.mode .sel).toKeyer ∨ hz st.sel.freq ≠ 0

instance (st : CatState) : Decidable st.Tells := inferInstanceAs (Decidable (_ ∨ _))

/-- `cat_state_to_radio_info`. -/
def toRadioInfo (st : CatState) (radio : UInt8) : Option CatInfo :=
  if st.Tells then some (st.radioInfo radio) else none

/-- The mode has a variant for data, and it's not known whether that's on. -/
def waits (st : CatState) : Bool :=
  st.sel.mode.valid && !st.sel.data.valid && st.sel.mode.val.withData true != st.sel.mode.val

end CatState

/-! ### The publisher -/

def CATN_PUBLISH_DELAY : Nat := 200000
def CATN_DATA_WAIT : Nat := 1000000
def CATN_KEEPALIVE : Nat := 5000000
def CATN_RADIO_SILENT : Nat := 2 * CATN_KEEPALIVE

/-- `struct cat_native`, what publishing needs of it. Times are in microseconds; a timer has the time it is due; `told`
are the calls of `mhc_update_radio_info`. -/
structure CatPub where
  radio : UInt8
  ownQueries : Bool
  online : Bool
  now : Nat
  dec : Option Dec
  lastRadio : Nat
  radioSilent : Bool
  publishTimer : Option Nat
  keepaliveTimer : Option Nat
  dataUnknownSince : Nat
  lastInfo : Option CatInfo
  told : List CatInfo

/-- What happens to the publisher. -/
inductive PubEv
  | wait (dt : Nat)
  | keyerState (online : Bool)
  | setup (protocol : CatProto) (rigtype : Option Nat) (addr : Nat)
  | radio (b : UInt8)
  | host (client : Nat) (data : List UInt8)
  | own (layer : Catn) (slot : Query)
  | catOn
  | discard (client : Nat)
  | expire
  | resend
  | publish
  | keepalive

namespace CatPub

def tMs (cn : CatPub) : Nat := cn.now / 1000

/-- The radio's state: that of the decoder. -/
def st (cn : CatPub) : CatState := (cn.dec.map Dec.st).getD .init

/-- `catn_reset`. -/
def reset (cn : CatPub) : CatPub :=
  { cn with publishTimer := none, keepaliveTimer := none, dataUnknownSince := 0, lastInfo := none }

/-- `catn_setup_decoder`, `protocol` as configured. -/
def setupDecoder (cn : CatPub) (protocol : CatProto) (rigtype : Option Nat) (addr : Nat) : CatPub :=
  let cn := { cn with dec := none }.reset
  match rigtype with
  | none => cn
  | some rig =>
    let (p, noData, model) := protocolOfRig rig
    { cn with dec := Catn.createDecoder (if protocol = .auto then p else protocol) rig addr noData model }

/-- The start of the wait for the data flag. -/
def since (cn : CatPub) : Nat := if cn.dataUnknownSince = 0 then cn.now else cn.dataUnknownSince

def waiting (cn : CatPub) : Bool := cn.st.waits && decide (cn.now < cn.since + CATN_DATA_WAIT)

/-- What publishing tells of the radio's state now: no mode while its data flag is waited for. -/
def info (cn : CatPub) : Option CatInfo :=
  (cn.st.toRadioInfo cn.radio).map fun i => if cn.waiting then { i with mode := -1 } else i

/-- `catn_publish`. -/
def publish (cn : CatPub) : CatPub :=
  match cn.info with
  | none => cn
  | some i =>
    { cn with
      dataUnknownSince := if cn.st.waits then cn.since else 0
      publishTimer := if cn.waiting then some (cn.since + CATN_DATA_WAIT) else cn.publishTimer
      lastInfo := some i
      told := cn.told ++ [i]
      keepaliveTimer := some (cn.now + CATN_KEEPALIVE) }

/-- `catn_can_query`. -/
def canQuery (cn : CatPub) : Bool :=
  cn.ownQueries && cn.online &&
    match cn.dec with
    | none => false
    | some (.civ c) => c.radioAddr != 0
    | some _ => true

/-- `catn_keepalive_cb`. -/
def keepaliveCb (cn : CatPub) : CatPub :=
  match cn.lastInfo with
  | none => cn
  | some i =>
    if cn.canQuery ∧ cn.lastRadio + CATN_RADIO_SILENT < cn.now then { cn with radioSilent := true }
    else { cn with told := cn.told ++ [i] }

/-- The publish timer is started, or runs out sooner. -/
def publishSoon (cn : CatPub) : CatPub :=
  match cn.publishTimer with
  | none => { cn with publishTimer := some (cn.now + CATN_PUBLISH_DELAY) }
  | some d => if cn.now + CATN_PUBLISH_DELAY < d then { cn with publishTimer := some (cn.now + CATN_PUBLISH_DELAY) } else cn

/-- A call of the decoder that doesn't look at the frames applied. -/
def call (cn : CatPub) (f : Dec → Dec) : CatPub := { cn with dec := cn.dec.map fun d => (f d).drain.1 }

/-- `catn_feed`; `catn_setup` is an event of its own. -/
def feed (cn : CatPub) (dir : CatDir) (client : Nat) (data : List UInt8) : CatPub :=
  match cn.dec with
  | none => cn
  | some d =>
    let (d, es) := (d.feed dir client data cn.tMs).drain
    if es.any (·.frame.applied) then { cn with dec := some d }.publishSoon else { cn with dec := some d }

/-- A timer is due. -/
def due (cn : CatPub) (timer : Option Nat) : Bool := timer.any (· ≤ cn.now)

/-- A callback of a timer runs only when it is due. An own query is one of `catn_build_query`, for any state of the rest
of the layer. -/
def step (cn : CatPub) : PubEv → CatPub
  | .wait dt => { cn with now := cn.now + dt }
  | .keyerState online => { cn with online := online, dec := none }.reset
  | .setup protocol rigtype addr => cn.setupDecoder protocol rigtype addr
  | .radio b => { cn with lastRadio := cn.now, radioSilent := false }.feed .radio 0 [b]
  | .host client data => cn.feed .host client data
  | .own layer slot => cn.call fun d => d.feed .own 0 ({ layer with dec := some d }.buildQuery slot).1 cn.tMs
  | .catOn =>
    match cn.dec with
    | some (.ybin y) => cn.call fun d => d.feed .own 0 (y.catOn.getD []) cn.tMs
    | _ => cn
  | .discard client => cn.call fun d => d.clientDiscard client
  | .expire => cn.call fun d => d.expire cn.tMs
  | .resend => cn.call fun d => (d.resend CATN_RESEND_MAX cn.tMs).1
  | .publish => if cn.due cn.publishTimer then { cn with publishTimer := none }.publish else cn
  | .keepalive =>
    if cn.due cn.keepaliveTimer then
      { cn with keepaliveTimer := cn.keepaliveTimer.map fun d => max (d + CATN_KEEPALIVE) cn.now }.keepaliveCb
    else cn

/-- `cat_native_create`; the decoder is set up next. -/
def create (radio : UInt8) (ownQueries online : Bool) (now : Nat) : CatPub where
  radio := radio
  ownQueries := ownQueries
  online := online
  now := now
  dec := none
  lastRadio := 0
  radioSilent := false
  publishTimer := none
  keepaliveTimer := none
  dataUnknownSince := 0
  lastInfo := none
  told := []

/-! ### What is told is what is known -/

/-- With no publishing due, what was published last is what publishing would tell now; if nothing was published since
the last reset there is nothing to tell. -/
def Fresh (cn : CatPub) : Prop := cn.publishTimer = none → cn.info = cn.lastInfo

instance (cn : CatPub) : Decidable cn.Fresh := inferInstanceAs (Decidable (_ → _))

end CatPub

/-! ### When it is -/

/-- A byte of the radio completes an answer that doesn't fit after a part of it was stored: `early` of an IF, OI or SF
without a mode, or the pieces before one that doesn't fit. -/
def Dec.Tears (d : Dec) (b : UInt8) (t : Nat) : Prop :=
  match d with
  | .civ _ => False
  | .ascii a => Ascii.chr b = ';' ∧ a.early (a.rx .radio).buf ≠ none
  | .ybin y =>
    let y := y.pendExpire t
    ∃ p ∈ y.pend.head?, p.got + 1 = p.len ∧ p.len ≤ YBIN_MAX_FRAME ∧
    Ybin.cutShort y.model p.cmd (y.ans ++ [b]) ≠ []

instance (d : Dec) (b : UInt8) (t : Nat) : Decidable (d.Tears b t) := by
  cases d <;> (unfold Dec.Tears; infer_instance)

/-- No answer is stored in part, and the radio's state can be told when publishing is due, unless nothing was told. -/
def CatPub.Sound (cn : CatPub) : PubEv → Prop
  | .radio b => ∀ d ∈ cn.dec, ¬ d.Tears b cn.tMs
  | .publish => cn.due cn.publishTimer = true → cn.lastInfo = none ∨ cn.st.Tells
  | _ => True

instance (cn : CatPub) (e : PubEv) : Decidable (cn.Sound e) := by
  cases e <;> (unfold CatPub.Sound; infer_instance)

end Mhuxd
