import Mhuxd.CatState

/-!
# The CI-V decoder (`cat_civ.c`)

Frames the bytes of each source, pairs the radio's answers with the commands that wait for them and
decodes the radio's state. `out` collects the calls of the frame callback.
-/

namespace Mhuxd

def CIV_MAX_FRAME : Nat := 64
def CIV_PRE : UInt8 := 0xfe
def CIV_EOM : UInt8 := 0xfd
def CIV_COL : UInt8 := 0xfc
def CIV_OK : UInt8 := 0xfb
def CIV_NG : UInt8 := 0xfa
def CIV_BCAST : UInt8 := 0x00
def CIV_MIN_LEN : Nat := 6
def CIV_COLLISION_MS : Nat := 150

/-- `RX_...`. -/
inductive RxState
  | idle | pre | frame | skip
deriving DecidableEq

structure CivRx where
  buf : List UInt8
  state : RxState
  tMs : Nat
deriving DecidableEq

structure CivPending where
  buf : List UInt8
  tMs : Nat
  fromHost : Bool
  echoed : Bool
  own : Bool
  client : Nat
  lost : Bool
  resends : Nat
deriving DecidableEq

/-- `struct cat_civ`, with the state it points to. -/
structure Civ where
  radioAddr : UInt8
  freqLen : Nat
  st : CatState
  rx : Src → CivRx
  pend : List CivPending
  last : List UInt8
  lastDir : CatDir
  lastClient : Nat
  out : List Emit

namespace Civ

/-! ### The fields of a frame -/

def fTo (f : List UInt8) : UInt8 := f.getD 2 0
def fFrom (f : List UInt8) : UInt8 := f.getD 3 0
def fCmd (f : List UInt8) : UInt8 := f.getD 4 0
/-- The data bytes, between the command and the end of the frame. -/
def fData (f : List UInt8) : List UInt8 := (f.drop 5).dropLast

/-- `cat_civ_create`. -/
def create (radioAddr : UInt8) (freqLen : Nat) (st : CatState) : Civ where
  radioAddr := radioAddr
  freqLen := if freqLen = 0 then 5 else freqLen
  st := st
  rx := fun _ => ⟨[], .idle, 0⟩
  pend := []
  last := []
  lastDir := .host
  lastClient := 0
  out := []

/-- `cat_civ_lost`. -/
def lost (civ : Civ) : Nat := civ.pend.countP (·.lost)

def emit (civ : Civ) (kind : FrameKind) (dir : CatDir) (buf : List UInt8) (applied own : Bool) (client t : Nat) :
    Civ :=
  { civ with out := civ.out ++ [⟨⟨kind, dir, t, buf, applied, own, client⟩, civ.lost⟩] }

/-! ### Field decoding -/

/-- The loop of `dec_freq`: the value of packed BCD bytes, lowest first. -/
def bcd : List UInt8 → Option Nat
  | [] => some 0
  | b :: bs =>
    let lo := (b &&& (0x0f : UInt8)).toNat
    let hi := (b >>> (4 : UInt8)).toNat
    if 9 < lo ∨ 9 < hi then none else (bcd bs).map fun f => lo + hi * 10 + f * 100

def decFreq (freqLen : Nat) (p : List UInt8) : Option Nat :=
  if p.length ≠ freqLen then none
  else (bcd p).filter fun f => decide (f ≠ 0 ∧ f < 2 ^ 32)

def decMode (b : UInt8) : Option CatMode :=
  match b.toNat with
  | 0x00 => some .lsb
  | 0x01 => some .usb
  | 0x02 => some .am
  | 0x03 => some .cw
  | 0x04 => some .rtty
  | 0x05 => some .fm
  | 0x06 => some .wfm
  | 0x07 => some .cwr
  | 0x08 => some .rttyr
  | 0x11 | 0x14 | 0x15 => some .ams
  | 0x12 => some .psk
  | 0x13 => some .pskr
  | 0x16 | 0x17 | 0x18 | 0x19 | 0x20 | 0x21 | 0x22 | 0x23 => some .other
  | _ => none

def decData (b : UInt8) : Option Bool := if b.toNat > 3 then none else some (b != 0)

/-! ### Frames that carry state -/

def applyFreq (st : CatState) (freqLen : Nat) (slot : Vfo) (p : List UInt8) (t : Nat) : CatState × Applied :=
  match decFreq freqLen p with
  | none => (st, .bad)
  | some hz => (st.setFreq slot hz t, .done)

def applyMode (st : CatState) (slot : Vfo) (p : List UInt8) (t : Nat) : CatState × Applied :=
  if p.length < 1 ∨ 2 < p.length then (st, .bad)
  else
    match decMode (p.getD 0 0) with
    | none => (st, .bad)
    | some mode => (st.setMode slot mode t, .done)

/-- The VFO byte of 25 and 26. -/
def slotOf (b : UInt8) : Vfo := if b = 0 then .sel else .unsel

def apply25 (st : CatState) (freqLen : Nat) (p : List UInt8) (t : Nat) : CatState × Applied :=
  match p with
  | [] => (st, .bad)
  | v :: p => if 1 < v.toNat then (st, .bad) else applyFreq st freqLen (slotOf v) p t

def apply26 (st : CatState) (p : List UInt8) (t : Nat) : CatState × Applied :=
  if p.length < 2 ∨ 4 < p.length ∨ 1 < (p.getD 0 0).toNat then (st, .bad)
  else
    match decMode (p.getD 1 0), if 3 ≤ p.length then decData (p.getD 2 0) else some false with
    | some mode, some data =>
      let slot := slotOf (p.getD 0 0)
      ((st.setMode slot mode t).setData slot data t, .done)
    | _, _ => (st, .bad)

def apply1a06 (st : CatState) (p : List UInt8) (t : Nat) : CatState × Applied :=
  if p.length < 2 ∨ 3 < p.length then (st, .bad)
  else
    match decData (p.getD 1 0) with
    | none => (st, .bad)
    | some data => (st.setData .sel data t, .done)

def apply0f (st : CatState) (p : List UInt8) (t : Nat) : CatState × Applied :=
  match p with
  | [b] =>
    if b.toNat ≤ 1 then (st.setSplit (b != 0) t, .done)
    else if 0x10 ≤ b.toNat ∧ b.toNat ≤ 0x12 then (st, .none) else (st, .bad)
  | _ => (st, .bad)

def apply07 (st : CatState) (p : List UInt8) (t : Nat) : CatState × Applied :=
  match p with
  | [b] =>
    match b.toNat with
    | 0x00 => (st.selectVfo false t, .done)
    | 0x01 => (st.selectVfo true t, .done)
    | 0xa0 => (st.equalizeVfos, .done)
    | 0xb0 => (st.exchangeVfos, .done)
    | _ => (st, .none)
  | _ => (st, .bad)

def apply1a (st : CatState) (p : List UInt8) (t : Nat) : CatState × Applied :=
  if 1 ≤ p.length ∧ p.getD 0 0 = 0x06 then apply1a06 st p t else (st, .none)

def applyReply (st : CatState) (freqLen : Nat) (f : List UInt8) (t : Nat) : CatState × Applied :=
  let p := fData f
  match (fCmd f).toNat with
  | 0x03 => applyFreq st freqLen .sel p t
  | 0x04 => applyMode st .sel p t
  | 0x0f => apply0f st p t
  | 0x25 => apply25 st freqLen p t
  | 0x26 => apply26 st p t
  | 0x1a => apply1a st p t
  | _ => (st, .none)

def applyUnsolicited (st : CatState) (freqLen : Nat) (f : List UInt8) (t : Nat) : CatState × Applied :=
  let p := fData f
  match (fCmd f).toNat with
  | 0x00 => applyFreq st freqLen .sel p t
  | 0x01 => applyMode st .sel p t
  | _ => (st, .none)

def applySet (st : CatState) (freqLen : Nat) (f : List UInt8) (t : Nat) : CatState × Applied :=
  let p := fData f
  match (fCmd f).toNat with
  | 0x05 => applyFreq st freqLen .sel p t
  | 0x06 => applyMode st .sel p t
  | 0x07 => apply07 st p t
  | 0x0f => apply0f st p t
  | 0x25 => apply25 st freqLen p t
  | 0x26 => apply26 st p t
  | 0x1a => apply1a st p t
  | _ => (st, .none)

def hasSub (cmd : UInt8) : Bool :=
  match cmd.toNat with
  | 0x13 | 0x14 | 0x15 | 0x16 | 0x19 | 0x1a | 0x1b | 0x1c | 0x1e | 0x21 | 0x25 | 0x26 | 0x27 => true
  | _ => false

/-- 1, 0 and -1: a query, a set, can't tell. -/
def isQuery (f : List UInt8) : Option Bool :=
  let n := (fData f).length
  match (fCmd f).toNat with
  | 0x03 | 0x04 | 0x0f => some (n == 0)
  | 0x05 | 0x06 | 0x07 => some false
  | 0x25 | 0x26 => some (n == 1)
  | 0x1a => if 1 ≤ n ∧ (fData f).getD 0 0 = 0x06 then some (n == 1) else none
  | _ => none

/-! ### Pending commands -/

def pendExpire (civ : Civ) (t : Nat) : Civ :=
  { civ with pend := civ.pend.dropWhile fun p => decide (p.tMs + PEND_TIMEOUT_MS < t) }

def pendAdd (civ : Civ) (f : List UInt8) (dir : CatDir) (client t : Nat) : Civ :=
  let pend := if civ.pend.length = PEND_MAX then civ.pend.tail else civ.pend
  { civ with pend := pend ++ [⟨f, t, dir != .radio, dir == .radio, dir == .own, if dir = .host then client else 0,
      false, 0⟩] }

/-- The radio answers in order: the controller's commands up to index `i` are gone. -/
def pendConsume (civ : Civ) (i : Nat) (p : CivPending) : Civ :=
  { civ with pend := (civ.pend.take (i + 1)).filter (fun q => !(fFrom q.buf == fFrom p.buf && q.client == p.client)) ++
      civ.pend.drop (i + 1) }

def pendFindQuery (civ : Civ) (r : List UInt8) : Option Nat :=
  civ.pend.findIdx? fun q =>
    fFrom q.buf == fTo r && fCmd q.buf == fCmd r &&
    !(hasSub (fCmd r) && (decide ((fData q.buf).length < 1) || decide ((fData r).length < 1) ||
      (fData q.buf).getD 0 0 != (fData r).getD 0 0)) &&
    isQuery q.buf != some false

def pendFindAck (civ : Civ) (ctrl : UInt8) (ok : Bool) : Option Nat :=
  civ.pend.findIdx? fun p => fFrom p.buf == ctrl && !(ok && isQuery p.buf == some true)

def pendFindEcho (civ : Civ) (f : List UInt8) : Option Nat :=
  civ.pend.findIdx? fun p => p.fromHost && !p.echoed && p.buf == f

/-! ### Frame classification -/

def learnAddr (civ : Civ) (dir : CatDir) (f : List UInt8) (t : Nat) : Civ :=
  if dir ≠ .radio then civ
  else if fTo f = CIV_BCAST ∨ fCmd f = CIV_OK ∨ fCmd f = CIV_NG then { civ with radioAddr := fFrom f }
  else if civ.last ≠ [] ∧ fTo civ.last = fFrom f ∧ fFrom civ.last = fTo f ∧ fCmd civ.last = fCmd f then
    { civ with radioAddr := fFrom f }.pendAdd civ.last civ.lastDir civ.lastClient t
  else civ

/-- The kind of a frame whose values may not fit. -/
def kindOr (r : Applied) (kind : FrameKind) : FrameKind := if r = .bad then .bad else kind

/-- The radio's broadcast. -/
def processBroadcast (civ : Civ) (f : List UInt8) (t : Nat) : Civ :=
  let (st, r) := applyUnsolicited civ.st civ.freqLen f t
  { civ with st := st }.emit (kindOr r .unsolicited) .radio f (r == Applied.done) false 0 t

/-- FB or FA from the radio. -/
def processAck (civ : Civ) (f : List UInt8) (t : Nat) : Civ :=
  let ok := fCmd f == CIV_OK
  let kind := if ok then FrameKind.ack else .nak
  match civ.pendFindAck (fTo f) ok with
  | none => civ.emit kind .radio f false false 0 t
  | some i =>
    match civ.pend[i]? with
    | none => civ
    | some p =>
      let (st, r) := if ok = true ∧ isQuery p.buf = some false then applySet civ.st civ.freqLen p.buf t
        else (civ.st, .none)
      ({ civ with st := st }.pendConsume i p).emit kind .radio f (r == Applied.done) p.own p.client t

/-- Another frame from the radio to a controller. -/
def processReply (civ : Civ) (f : List UInt8) (t : Nat) : Civ :=
  match civ.pendFindQuery f with
  | none => civ.emit .unmatched .radio f false false 0 t
  | some i =>
    match civ.pend[i]? with
    | none => civ
    | some p =>
      let civ := civ.pendConsume i p
      let (st, r) := applyReply civ.st civ.freqLen f t
      { civ with st := st }.emit (kindOr r .reply) .radio f (r == Applied.done) p.own p.client t

/-- A controller's command on the radio's stream: the bus echo, or only seen on the bus. -/
def processEcho (civ : Civ) (f : List UInt8) (t : Nat) : Civ :=
  match civ.pendFindEcho f with
  | none => (civ.pendAdd f .radio 0 t).emit .cmd .radio f false false 0 t
  | some i =>
    match civ.pend[i]? with
    | none => civ
    | some p =>
      { civ with pend := civ.pend.modify i fun p => { p with echoed := true } }.emit .echo .radio f false p.own
        p.client t

def processRadioFrame (civ : Civ) (f : List UInt8) (t : Nat) : Civ :=
  let ra := civ.radioAddr
  if fFrom f = ra ∧ fTo f ≠ ra then
    if fTo f = CIV_BCAST then civ.processBroadcast f t
    else if fCmd f = CIV_OK ∨ fCmd f = CIV_NG then civ.processAck f t
    else civ.processReply f t
  else if fTo f = ra ∧ fFrom f ≠ ra ∧ fFrom f ≠ CIV_BCAST then civ.processEcho f t
  else civ.emit .foreign .radio f false false 0 t

def processFrame (civ : Civ) (dir : CatDir) (client : Nat) (f : List UInt8) (t : Nat) : Civ :=
  let own := dir == .own
  let civ := civ.pendExpire t
  let civ := if civ.radioAddr = 0 then civ.learnAddr dir f t else civ
  let civ :=
    if civ.radioAddr = 0 then civ.emit .foreign dir f false own client t
    else if dir = .radio then civ.processRadioFrame f t
    else if fTo f = civ.radioAddr ∧ fFrom f ≠ CIV_BCAST then
      (civ.pendAdd f dir client t).emit .cmd dir f false own client t
    else civ.emit .foreign dir f false own client t
  { civ with last := f, lastDir := dir, lastClient := client }

/-! ### The framer -/

def setRx (civ : Civ) (src : Src) (rx : CivRx) : Civ := { civ with rx := Function.update civ.rx src rx }

def rxDrop (civ : Civ) (dir : CatDir) (client : Nat) (src : Src) (t : Nat) : Civ :=
  let rx := civ.rx src
  let civ := if 2 < rx.buf.length then civ.emit .dropped dir rx.buf false (dir == .own) client t else civ
  civ.setRx src { rx with buf := [] }

/-- `mark_lost`: commands sent shortly before and not echoed were destroyed. -/
def markLost (civ : Civ) (t : Nat) : Civ :=
  { civ with pend := civ.pend.map fun p =>
      if p.fromHost = true ∧ p.echoed = false ∧ t ≤ p.tMs + CIV_COLLISION_MS then { p with lost := true } else p }

def rxState (civ : Civ) (src : Src) (state : RxState) : Civ := civ.setRx src { civ.rx src with state := state }

def rxJam (civ : Civ) (dir : CatDir) (client : Nat) (src : Src) (t : Nat) : Civ :=
  let civ := if dir = .radio then civ.markLost t else civ
  ((civ.rxDrop dir client src t).emit .jam dir [CIV_COL] false (dir == .own) client t).rxState src .idle

/-- A byte inside a frame. -/
def rxFrame (civ : Civ) (dir : CatDir) (client : Nat) (src : Src) (b : UInt8) (t : Nat) : Civ :=
  let rx := civ.rx src
  if b = CIV_PRE then
    -- a new frame starts before this one ended, or an extra preamble byte
    if 2 < rx.buf.length then (civ.rxDrop dir client src t).rxState src .pre else civ
  else if b = CIV_EOM then
    let civ :=
      if CIV_MIN_LEN ≤ rx.buf.length + 1 then
        let civ := civ.processFrame dir client (rx.buf ++ [b]) t
        civ.setRx src { civ.rx src with buf := [] }
      else civ.rxDrop dir client src t
    civ.rxState src .idle
  else if rx.buf.length + 1 < CIV_MAX_FRAME then civ.setRx src { rx with buf := rx.buf ++ [b] }
  else (civ.rxDrop dir client src t).rxState src .skip

def rxByte (civ : Civ) (dir : CatDir) (client : Nat) (src : Src) (b : UInt8) (t : Nat) : Civ :=
  let civ := civ.setRx src { civ.rx src with tMs := t }
  if b = CIV_COL then civ.rxJam dir client src t
  else
    match (civ.rx src).state with
    | .idle => if b = CIV_PRE then civ.rxState src .pre else civ
    | .pre =>
      if b = CIV_PRE then civ.setRx src { civ.rx src with buf := [CIV_PRE, CIV_PRE], state := .frame }
      else civ.rxState src .idle
    | .frame => civ.rxFrame dir client src b t
    | .skip =>
      if b = CIV_EOM then civ.rxState src .idle
      else if b = CIV_PRE then civ.rxState src .pre else civ

def rxPartial (rx : CivRx) (t : Nat) : Bool := rx.state != .idle && decide (t ≤ rx.tMs + PEND_TIMEOUT_MS)

def pendLive (p : CivPending) (t : Nat) : Bool := decide (t ≤ p.tMs + PEND_TIMEOUT_MS)

/-! ### The interface -/

/-- `CAT_PENDING_CLIENT` and `CAT_PENDING_OWN` of `cat_civ_pending`. -/
def pending (civ : Civ) (t : Nat) : Bool × Bool :=
  ((List.range CAT_MAX_CLIENTS).any (fun c => rxPartial (civ.rx (.client (c + 1))) t) ||
      civ.pend.any fun p => !p.own && pendLive p t,
    civ.pend.any fun p => p.own && pendLive p t)

/-- `cat_civ_client_busy`. -/
def clientBusy (civ : Civ) (client t : Nat) : Bool :=
  decide (1 ≤ client ∧ client ≤ CAT_MAX_CLIENTS) &&
    (rxPartial (civ.rx (.client client)) t || civ.pend.any fun p => p.client == client && pendLive p t)

/-- `cat_civ_client_discard`. -/
def clientDiscard (civ : Civ) (client : Nat) : Civ :=
  if 1 ≤ client ∧ client ≤ CAT_MAX_CLIENTS then
    let civ := civ.setRx (.client client) { civ.rx (.client client) with buf := [], state := .idle }
    { civ with pend := civ.pend.filter fun p => p.client != client }
  else civ

/-- The loop of `cat_civ_resend`: the pending commands and the one to send again. -/
def resendLoop (max t : Nat) : List CivPending → List CivPending × Option CivPending
  | [] => ([], none)
  | p :: ps =>
    if p.lost = false then
      let (ps, r) := resendLoop max t ps
      (p :: ps, r)
    else if max ≤ p.resends then
      let (ps, r) := resendLoop max t ps
      ({ p with lost := false } :: ps, r)
    else
      let p := { p with lost := false, resends := p.resends + 1, tMs := t }
      (p :: ps, some p)

/-- `cat_civ_resend`. -/
def resend (civ : Civ) (max t : Nat) : Civ × Option CivPending :=
  let (pend, p) := resendLoop max t civ.pend
  ({ civ with pend := pend }, p)

/-- `cat_civ_feed`. -/
def feed (civ : Civ) (dir : CatDir) (client : Nat) (buf : List UInt8) (t : Nat) : Civ :=
  match Src.of dir client with
  | none => civ
  | some src => buf.foldl (fun civ b => civ.rxByte dir (if dir = .host then client else 0) src b t) civ

end Civ

end Mhuxd
