import Mhuxd.CatState

/-!
# The decoder of the older Yaesu radios (`cat_ybin.c`)

Commands of five bytes; the answers have no marks and are framed by the length each command has on
the model, in the order of the commands. `out` collects the calls of the frame callback.
-/

namespace Mhuxd

def YBIN_CMD_LEN : Nat := 5
def YBIN_MAX_FRAME : Nat := 80
def YBIN_CMD_GAP_MS : Nat := 300
def YBIN_HOLD_MS : Nat := 100
def YBIN_ANSWER_MS : Nat := 1000
def YBIN_BYTE_GAP_MS : Nat := 100
def GIVEUP_MS : Nat := 200
def LEN_MASK : Nat := 0x7fff

inductive YbinModel
  | ft757gx2 | ft817 | ft857 | ft897 | ft847 | ft840 | ft890 | ft900 | ft920 | ft990 | ft1000 | ft1000mp
deriving DecidableEq

/-- `FAM_...`. -/
inductive Family
  | f757 | f817 | f847 | f900 | f920 | f990 | f1000 | fMp
deriving DecidableEq

namespace YbinModel

def fam : YbinModel → Family
  | ft757gx2 => .f757
  | ft817 | ft857 | ft897 => .f817
  | ft847 => .f847
  | ft840 | ft890 | ft900 => .f900
  | ft920 => .f920
  | ft990 => .f990
  | ft1000 => .f1000
  | ft1000mp => .fMp

/-- 0: unknown. -/
def dumpLen : YbinModel → Nat
  | ft840 | ft890 => 649
  | ft900 => 1941
  | ft990 => 1508
  | ft1000 => 1636
  | ft1000mp => 1863
  | _ => 0

/-- 0: `YBIN_HOLD_MS`. -/
def holdMs : YbinModel → Nat
  | ft757gx2 => 150
  | _ => 0

end YbinModel

structure YbinRx where
  buf : List UInt8
  tMs : Nat
deriving DecidableEq

structure YbinPending where
  cmd : List UInt8
  len : Nat
  var : Bool
  own : Bool
  client : Nat
  got : Nat
  tMs : Nat
  tLast : Nat
deriving DecidableEq

/-- `struct cat_ybin`, with the state it points to. -/
structure Ybin where
  model : YbinModel
  st : CatState
  rx : Src → YbinRx
  pend : List YbinPending
  ans : List UInt8
  hold : Nat → Nat
  pacingMs : Nat
  out : List Emit

namespace Ybin

def cmdOp (c : List UInt8) : Nat := (c.getD 4 0).toNat
def cmdU (c : List UInt8) : Nat := (c.getD 3 0).toNat

/-- A bit of a byte. -/
def bit (b mask : UInt8) : Bool := b &&& mask != 0

/-- `cat_ybin_create`. -/
def create (model : YbinModel) (st : CatState) : Ybin where
  model := model
  st := st
  rx := fun _ => ⟨[], 0⟩
  pend := []
  ans := []
  hold := fun _ => 0
  pacingMs := 0
  out := []

def emit (y : Ybin) (kind : FrameKind) (dir : CatDir) (buf : List UInt8) (applied own : Bool) (client t : Nat) :
    Ybin :=
  { y with out := y.out ++ [⟨⟨kind, dir, t, buf, applied, own, client⟩, 0⟩] }

/-! ### Answer lengths -/

/-- The answer to 0x10 in the families with records. -/
def recordLen (fam : Family) (dump u : Nat) : Nat × Bool :=
  match u, fam with
  | 0, _ => (dump, true)
  | 1, _ => (1, false)
  | 2, .f900 => (19, false)
  | 2, .f920 => (28, false)
  | 2, .f990 => (32, false)
  | 2, _ => (16, false)
  | 3, .f900 => (18, false)
  | 3, .f920 => (28, false)
  | 3, _ => (32, false)
  | 4, .f900 => (19, false)
  | 4, .f920 => (14, false)
  | 4, _ => (16, false)
  | _, _ => (0, false)

/-- `answer_len`; the flag is `VAR`. -/
def answerLen (m : YbinModel) (c : List UInt8) : Nat × Bool :=
  let op := cmdOp c
  let u := cmdU c
  let dump := if m.dumpLen = 0 then LEN_MASK else m.dumpLen
  match m.fam with
  | .f757 => if op = 0x10 then (if u = 1 then 1 else 75, false) else (if op = 0x0e then 75 else 0, false)
  | .f817 =>
    match op with
    | 0x03 => (5, false)
    | 0xbb => (2, false)
    | 0xbd => (2, false)
    | 0xff => (0, false)
    | _ => (1, false)
  | .f847 =>
    match op with
    | 0x03 | 0x13 | 0x23 => (5, false)
    | 0xe7 | 0xf7 => (1, false)
    | _ => (0, false)
  | fam =>
    if op = 0x10 then recordLen fam dump u
    else if op = 0xfa then
      match fam with
      | .fMp => (if u % 2 = 1 then 6 else 5, false)
      | .f920 => (8, u != 1)
      | _ => (5, false)
    else if op = 0xf7 ∧ fam ≠ .f920 then (5, false)
    else (0, false)

def hasPacing (m : YbinModel) : Bool := m.fam != .f817 && m.fam != .f847

/-! ### Field decoding -/

/-- The loop of `dec_bcd`, with the value of the bytes before. -/
def bcdLoop : List UInt8 → Nat → Option Nat
  | [], v => some v
  | b :: bs, v =>
    let hi := (b >>> (4 : UInt8)).toNat
    let lo := (b &&& (0x0f : UInt8)).toNat
    if 9 < hi ∨ 9 < lo then none else bcdLoop bs (v * 100 + hi * 10 + lo)

def decBcd (p : List UInt8) (be : Bool) : Option Nat := bcdLoop (if be then p else p.reverse) 0

def decBe (p : List UInt8) : Nat := p.foldl (fun v b => v * 256 + b.toNat) 0

def mode817 (c : UInt8) : CatMode :=
  match (c &&& (0x7f : UInt8)).toNat with
  | 0x00 => .lsb
  | 0x01 => .usb
  | 0x02 => .cw
  | 0x03 => .cwr
  | 0x04 => .am
  | 0x06 => .wfm
  | 0x08 => .fm
  | 0x0a => .pktusb
  | 0x0c => .pktfm
  | _ => .none

def modeset1000 (c : UInt8) : CatMode :=
  match (c &&& (0x7f : UInt8)).toNat with
  | 0x00 => .lsb
  | 0x01 => .usb
  | 0x02 => .cw
  | 0x03 => .cwr
  | 0x04 => .am
  | 0x05 => .ams
  | 0x06 | 0x07 => .fm
  | 0x08 => .rtty
  | 0x09 => .rttyr
  | 0x0a => .pktlsb
  | 0x0b => .pktfm
  | _ => .none

def modeset920 (c : UInt8) : CatMode :=
  match (c &&& (0x7f : UInt8)).toNat with
  | 0x00 => .lsb
  | 0x01 => .usb
  | 0x02 => .cw
  | 0x03 => .cwr
  | 0x04 | 0x05 => .am
  | 0x06 | 0x07 => .fm
  | 0x08 => .pktlsb
  | 0x0a => .pktusb
  | 0x0b => .pktfm
  | _ => .none

def modeset900 (c : UInt8) : CatMode :=
  match c.toNat with
  | 0x00 => .lsb
  | 0x01 => .usb
  | 0x02 | 0x03 => .cw
  | 0x04 | 0x05 => .am
  | 0x06 => .fm
  | _ => .none

def mode757 (c : UInt8) : CatMode :=
  match c.toNat with
  | 0x00 => .lsb
  | 0x01 => .usb
  | 0x02 | 0x03 => .cw
  | 0x04 => .am
  | 0x05 => .fm
  | _ => .none

/-- `rec_mode`. -/
def recMode (fam : Family) (m f : UInt8) : CatMode :=
  let alt := bit f 0x80
  match fam with
  | .f920 =>
    match (m &&& (0x47 : UInt8)).toNat with
    | 0x00 => .lsb
    | 0x40 => .usb
    | 0x01 => .cwr
    | 0x41 => .cw
    | 0x02 => .am
    | 0x03 => .fm
    | 0x04 => .pktlsb
    | 0x05 => .pktusb
    | 0x06 => .pktfm
    | _ => .none
  | .f900 =>
    match (m &&& (0x07 : UInt8)).toNat with
    | 0 => .lsb
    | 1 => .usb
    | 2 => .cw
    | 3 => .am
    | 4 => .fm
    | _ => .none
  | .f757 => mode757 m
  | _ =>
    match (m &&& (0x07 : UInt8)).toNat with
    | 0 => .lsb
    | 1 => .usb
    | 2 => if alt ∧ fam = .fMp then .cwr else .cw
    | 3 => if alt ∧ fam = .fMp then .ams else .am
    | 4 => .fm
    | 5 => if alt then .rttyr else .rtty
    | 6 => if alt then .pktfm else .pktlsb
    | _ => .none

/-! ### State updates

A VFO is true for B; `none` is the selected one, whichever it is. -/

def slotOf (y : Ybin) : Option Bool → Vfo
  | none => .sel
  | some ab => if ab = y.st.vfoAb.val then .sel else .unsel

def setFreq (y : Ybin) (ab : Option Bool) (hz t : Nat) : Ybin := { y with st := y.st.setFreq (y.slotOf ab) hz t }

def setMode (y : Ybin) (ab : Option Bool) (mode : CatMode) (t : Nat) : Ybin :=
  let slot := y.slotOf ab
  let st := y.st.setMode slot mode t
  { y with st := if mode.withData true ≠ mode then st.setData slot false t else st }

/-- `struct rec`. -/
structure Rec where
  fo : Nat
  mo : Nat
  fl : Nat

def recHz (fam : Family) (a : List UInt8) (r : Rec) : Option Nat :=
  match fam with
  | .f757 => (decBcd ((a.drop r.fo).take 4) false).map (· * 10)
  | .f920 => some (decBe ((a.drop r.fo).take 4))
  | .fMp => some (decBe ((a.drop r.fo).take 4) * 10 / 16)
  | _ => some (decBe ((a.drop r.fo).take 3) * 10)

def recApply (y : Ybin) (ab : Option Bool) (a : List UInt8) (r : Rec) (t : Nat) : Ybin × Applied :=
  match recHz y.model.fam a r with
  | none => (y, .bad)
  | some hz =>
    let mode := recMode y.model.fam (a.getD r.mo 0) (a.getD (r.mo + r.fl) 0)
    if hz = 0 ∨ mode = .none then (y, .bad) else ((y.setFreq ab hz t).setMode ab mode t, .done)

/-- The second record is applied if the first one fits. -/
def recApply2 (y : Ybin) (ab : Option Bool) (a : List UInt8) (r : Rec) (ab' : Option Bool) (a' : List UInt8)
    (r' : Rec) (t : Nat) : Ybin × Applied :=
  let (y, res) := y.recApply ab a r t
  if res = .bad then (y, .bad) else y.recApply ab' a' r' t

def setSplit (y : Ybin) (split : Bool) (t : Nat) : Ybin := { y with st := y.st.setSplit split t }

def selectVfo (y : Ybin) (ab : Bool) (t : Nat) : Ybin := { y with st := y.st.selectVfo ab t }

def applyEeprom (y : Ybin) (addr : Nat) (v : UInt8) (t : Nat) : Ybin × Applied :=
  let ft817 := y.model == YbinModel.ft817
  if y.model.fam ≠ .f817 then (y, .none)
  else if addr = (if ft817 then 0x55 else 0x68) then (y.selectVfo (bit v 0x01) t, .done)
  else if addr = (if ft817 then 0x7a else 0x8d) then (y.setSplit (bit v 0x80) t, .done)
  else (y, .none)

/-- `apply_answer` of the families with the short answers. -/
def applyAnswer817 (y : Ybin) (c a : List UInt8) (t : Nat) : Ybin × Applied :=
  let op := cmdOp c
  let last := a.getD 4 0
  if op = 0xbb ∧ a.length = 2 then
    y.applyEeprom ((c.getD 0 0).toNat * 256 + (c.getD 1 0).toNat) (a.getD 0 0) t
  else if op ≠ 0x03 ∨ a.length ≠ 5 then (y, .none)
  else
    match decBcd (a.take 4) true with
    | none => (y, .bad)
    | some hz =>
      if hz = 0 ∨ mode817 last = .none ∨ (y.model.fam = .f847 ∧ 0x08 < (last &&& (0x7f : UInt8)).toNat) then
        (y, .bad)
      else ((y.setFreq none (hz * 10) t).setMode none (mode817 last) t, .done)

def applyAnswer757 (y : Ybin) (c a : List UInt8) (t : Nat) : Ybin × Applied :=
  if (cmdOp c ≠ 0x10 ∧ cmdOp c ≠ 0x0e) ∨ a.length ≠ 75 then (y, .none)
  else
    let flags := a.getD 0 0
    let y := if bit flags 0x10 then y else y.selectVfo (bit flags 0x08) t
    let (y, r) := y.recApply none a ⟨5, 9, 0⟩ t
    if r = .bad then (y, .bad) else y.recApply2 (some false) a ⟨10, 14, 0⟩ (some true) a ⟨15, 19, 0⟩ t

/-- The answer to 0xfa: status flags. -/
def applyFlags (y : Ybin) (flags : UInt8) (t : Nat) : Ybin × Applied :=
  match y.model.fam with
  | .fMp => ((y.selectVfo (bit flags 0x10) t).setSplit (bit flags 0x01) t, .done)
  | .f990 => ((y.selectVfo (bit flags 0x02) t).setSplit (bit flags 0x01) t, .done)
  | .f1000 => (y.setSplit (bit flags 0x01) t, .done)
  | .f920 =>
    let rxB := bit flags 0x02
    let txB := bit flags 0x01
    ((y.selectVfo rxB t).setSplit (rxB != txB) t, .done)
  | .f900 =>
    let y := if bit flags 0x80 then y.selectVfo (bit flags 0x40) t else y
    (y.setSplit (bit flags 0x04) t, .done)
  | _ => (y, .none)

/-- The answer to 0x10 with `u` 2 or 3: records. -/
def applyRecords (y : Ybin) (u : Nat) (a : List UInt8) (t : Nat) : Ybin × Applied :=
  match y.model.fam with
  | .f900 =>
    if u = 2 then y.recApply none a ⟨2, 7, 2⟩ t
    else y.recApply2 (some false) a ⟨1, 6, 2⟩ (some true) a ⟨10, 15, 2⟩ t
  | .f920 => y.recApply2 (some false) a ⟨1, 7, 1⟩ (some true) a ⟨15, 21, 1⟩ t
  | _ =>
    if u = 2 then y.recApply none a ⟨1, 7, 1⟩ t
    else y.recApply2 (some false) a ⟨1, 7, 1⟩ (some true) (a.drop 16) ⟨1, 7, 1⟩ t

def applyAnswer (y : Ybin) (c a : List UInt8) (t : Nat) : Ybin × Applied :=
  match y.model.fam with
  | .f817 | .f847 => y.applyAnswer817 c a t
  | .f757 => y.applyAnswer757 c a t
  | _ =>
    if cmdOp c = 0xfa then y.applyFlags (a.getD 0 0) t
    else if cmdOp c ≠ 0x10 ∨ (cmdU c ≠ 2 ∧ cmdU c ≠ 3) then (y, .none)
    else y.applyRecords (cmdU c) a t

/-- The branch of `apply_command` for the FT-817 family and the FT-847. -/
def applyCommand817 (y : Ybin) (c : List UInt8) (t : Nat) : Ybin × Applied :=
  let op := cmdOp c
  if op = 0x01 then
    match decBcd (c.take 4) true with
    | none => (y, .bad)
    | some hz => if hz = 0 then (y, .bad) else (y.setFreq none (hz * 10) t, .done)
  else if op = 0x07 then
    let mode := mode817 (c.getD 0 0)
    if mode = .none then (y, .bad) else (y.setMode none mode t, .done)
  else if y.model.fam = .f847 then (y, .none)
  else if op = 0x81 then (y.selectVfo (!y.st.vfoAb.val) t, .done)
  else if op = 0x02 ∨ op = 0x82 then (y.setSplit (op == 0x02) t, .done)
  else (y, .none)

/-- The mode set parameter: the mode and the VFO. -/
def modeSet (fam : Family) (u : UInt8) : CatMode × Option Bool :=
  match fam with
  | .f757 => (mode757 u, none)
  | .f900 => (modeset900 u, none)
  | .f920 => (modeset920 u, some (bit u 0x80))
  | .fMp => (modeset1000 u, some (bit u 0x80))
  | _ => (modeset1000 u, if bit u 0x80 then some true else none)

/-- A frequency set by 0x0a or 0x8a. -/
def applySetFreq (y : Ybin) (c : List UInt8) (t : Nat) : Ybin × Applied :=
  let op := cmdOp c
  let fam := y.model.fam
  if op = 0x8a ∧ fam ≠ .fMp ∧ fam ≠ .f920 ∧ fam ≠ .f1000 then (y, .none)
  else
    match decBcd (c.take 4) false with
    | none => (y, .bad)
    | some hz =>
      let ab := if op = 0x8a then some true else if fam = .fMp ∨ fam = .f920 then some false else none
      if hz = 0 then (y, .bad) else (y.setFreq ab (hz * 10) t, .done)

def applyCommand (y : Ybin) (c : List UInt8) (t : Nat) : Ybin × Applied :=
  match y.model.fam with
  | .f817 | .f847 => y.applyCommand817 c t
  | fam =>
    match cmdOp c with
    | 0x0a | 0x8a => y.applySetFreq c t
    | 0x0c =>
      let (mode, ab) := modeSet fam (c.getD 3 0)
      if mode = .none then (y, .bad) else (y.setMode ab mode t, .done)
    | 0x05 => if 1 < cmdU c then (y, .none) else (y.selectVfo (cmdU c == 1) t, .done)
    | _ => (y, .none)

/-! ### Pending commands and their answers -/

def pendRemove (y : Ybin) (i : Nat) : Ybin :=
  { y with pend := y.pend.eraseIdx i, ans := if i = 0 then [] else y.ans }

def byteGap (y : Ybin) : Nat := YBIN_BYTE_GAP_MS + y.pacingMs

def pendLive (y : Ybin) (p : YbinPending) (t : Nat) : Bool :=
  if p.got ≠ 0 then decide (t ≤ p.tLast + y.byteGap) else decide (t ≤ p.tMs + YBIN_ANSWER_MS + y.pacingMs)

def isAck (y : Ybin) (c : List UInt8) : Bool :=
  y.model.fam == .f817 &&
    match cmdOp c with
    | 0x03 | 0xbb | 0xbd | 0xe7 | 0xf7 => false
    | _ => true

/-- The command now first is taken by the radio at `t`: its answer is due from here on. -/
def dueFrom (t : Nat) : List YbinPending → List YbinPending
  | [] => []
  | p :: ps => (if p.tMs < t then { p with tMs := t } else p) :: ps

/-- `answer_done` for the first pending command `p`. -/
def answerDone (y : Ybin) (p : YbinPending) (complete : Bool) (t : Nat) : Ybin :=
  let a := y.ans
  let y := y.pendRemove 0
  let y := { y with pend := dueFrom t y.pend }
  let (y, kind, applied, t) :=
    if complete = false then (y, if p.var then FrameKind.reply else .dropped, false, p.tLast)
    else if YBIN_MAX_FRAME < p.len then (y, .reply, false, t)
    else
      let (y, r) := y.applyAnswer p.cmd a t
      (y, if r = .bad then .bad else if y.isAck p.cmd then .ack else .reply, r == Applied.done, t)
  if a = [] then y else y.emit kind .radio a applied p.own p.client t

/-- The first pending command gets no more answer. -/
def pendEnd (y : Ybin) (p : YbinPending) (t : Nat) : Ybin :=
  if p.got ≠ 0 then y.answerDone p false t else y.pendRemove 0

/-- The loop of `pend_expire`; each round takes a command off. -/
def expireLoop (t : Nat) : Nat → Ybin → Ybin
  | 0, y => y
  | n + 1, y =>
    match y.pend with
    | [] => y
    | p :: _ => if y.pendLive p t then y else expireLoop t n (y.pendEnd p t)

def pendExpire (y : Ybin) (t : Nat) : Ybin := expireLoop t y.pend.length y

/-- The loop of `pend_giveup`. -/
def giveupLoop (t : Nat) : Nat → Ybin → Ybin
  | 0, y => y
  | n + 1, y =>
    match y.pend with
    | [] => y
    | p :: _ => if p.got = 0 ∧ p.tMs + GIVEUP_MS < t then giveupLoop t n (y.pendRemove 0) else y

def pendGiveup (y : Ybin) (t : Nat) : Ybin := giveupLoop t y.pend.length y

/-- The room `pend_add` makes. -/
def pendRoom (y : Ybin) (t : Nat) : Ybin :=
  match y.pend with
  | [] => y
  | p :: _ => if y.pend.length = PEND_MAX then y.pendEnd p t else y

def pendAdd (y : Ybin) (c : List UInt8) (len : Nat × Bool) (own : Bool) (client t : Nat) : Ybin :=
  let y := y.pendRoom t
  { y with pend := y.pend ++ [⟨c, len.1, len.2, own, client, 0, t, t⟩] }

/-- `until` the line is kept after a command without answer. -/
def holdUntil (y : Ybin) (t : Nat) : Nat := t + if y.model.holdMs ≠ 0 then y.model.holdMs else YBIN_HOLD_MS

/-- `command`. -/
def command (y : Ybin) (dir : CatDir) (client : Nat) (c : List UInt8) (t : Nat) : Ybin :=
  let own := dir == .own
  let len := answerLen y.model c
  let y := if y.st.vfoAb.valid then y else y.selectVfo false t
  let y := (y.pendExpire t).pendGiveup t
  let y := if cmdOp c = 0x0e ∧ hasPacing y.model then { y with pacingMs := cmdU c } else y
  let y :=
    if len.1 ≠ 0 then y.pendAdd c len own client t
    else { y with hold := Function.update y.hold (if own then 0 else client) (y.holdUntil t) }
  let (y, r) := y.applyCommand c t
  y.emit (if r = .bad then .bad else .cmd) dir c (r == Applied.done) own client t

/-- A byte of the answer of the first pending command `p`. -/
def answerByte (y : Ybin) (p : YbinPending) (ps : List YbinPending) (b : UInt8) (t : Nat) : Ybin :=
  let y := if y.st.vfoAb.valid then y else y.selectVfo false t
  let p := { p with got := p.got + 1, tLast := t }
  let y := { y with pend := p :: ps, ans := y.ans ++ [b] }
  if p.got = p.len then y.answerDone p true t
  else if y.ans.length = YBIN_MAX_FRAME then
    { y.emit .reply .radio y.ans false p.own p.client t with ans := [] }
  else y

def radioByte (y : Ybin) (b : UInt8) (t : Nat) : Ybin :=
  let y := y.pendExpire t
  match y.pend with
  | [] => y.emit .unmatched .radio [b] false false 0 t
  | p :: ps => y.answerByte p ps b t

/-! ### The framers of the commands -/

def setRx (y : Ybin) (src : Src) (rx : YbinRx) : Ybin := { y with rx := Function.update y.rx src rx }

/-- `rx_expire`; the direction and the client are those of the framer. -/
def rxExpire (y : Ybin) (dir : CatDir) (client : Nat) (src : Src) (t : Nat) : Ybin :=
  let rx := y.rx src
  if rx.buf = [] ∨ t ≤ rx.tMs + YBIN_CMD_GAP_MS then y
  else (y.emit .dropped dir rx.buf false (dir == .own) client rx.tMs).setRx src { rx with buf := [] }

def hostByte (y : Ybin) (dir : CatDir) (client : Nat) (src : Src) (b : UInt8) (t : Nat) : Ybin :=
  let y := y.rxExpire dir client src t
  let buf := (y.rx src).buf ++ [b]
  if buf.length = YBIN_CMD_LEN then (y.setRx src ⟨[], t⟩).command dir client buf t else y.setRx src ⟨buf, t⟩

def rxPartial (rx : YbinRx) (t : Nat) : Bool := !rx.buf.isEmpty && decide (t ≤ rx.tMs + YBIN_CMD_GAP_MS)

/-! ### The interface -/

/-- `CAT_PENDING_CLIENT` and `CAT_PENDING_OWN` of `cat_ybin_pending`. -/
def pending (y : Ybin) (t : Nat) : Bool × Bool :=
  ((List.range CAT_MAX_CLIENTS).any (fun c => rxPartial (y.rx (.client (c + 1))) t || decide (t < y.hold (c + 1))) ||
      y.pend.any fun p => !p.own && y.pendLive p t,
    (rxPartial (y.rx .own) t || decide (t < y.hold 0)) || y.pend.any fun p => p.own && y.pendLive p t)

/-- `cat_ybin_client_busy`. -/
def clientBusy (y : Ybin) (client t : Nat) : Bool :=
  decide (1 ≤ client ∧ client ≤ CAT_MAX_CLIENTS) &&
    (rxPartial (y.rx (.client client)) t || decide (t < y.hold client) ||
      y.pend.any fun p => p.client == client && !p.own && y.pendLive p t)

/-- The commands of the client behind the first one are taken off. -/
def discardRest (client : Nat) : List YbinPending → List YbinPending
  | [] => []
  | p :: ps => p :: ps.filter fun q => q.client != client || q.own

/-- `cat_ybin_client_discard`. -/
def clientDiscard (y : Ybin) (client : Nat) : Ybin :=
  if 1 ≤ client ∧ client ≤ CAT_MAX_CLIENTS then
    let y := y.setRx (.client client) { y.rx (.client client) with buf := [] }
    let y := { y with hold := Function.update y.hold client 0, pend := discardRest client y.pend }
    match y.pend with
    | [] => y
    | p :: _ => if p.client ≠ client ∨ p.own then y else y.pendEnd p p.tLast
  else y

/-- `cat_ybin_feed`. -/
def feed (y : Ybin) (dir : CatDir) (client : Nat) (buf : List UInt8) (t : Nat) : Ybin :=
  match Src.of dir client with
  | none => y
  | some .radio => buf.foldl (fun y b => y.radioByte b t) y
  | some src => buf.foldl (fun y b => y.hostByte dir (if dir = .host then client else 0) src b t) y

/-- `cat_ybin_answering`: whose command. -/
def answering (y : Ybin) (t : Nat) : Option (Nat × Bool) :=
  match y.pend with
  | [] => none
  | p :: _ => if p.got ≠ 0 ∧ y.pendLive p t then some (p.client, p.own) else none

/-- `cat_ybin_expire`. -/
def expire (y : Ybin) (t : Nat) : Ybin :=
  let y := (List.range CAT_MAX_CLIENTS).foldl (fun y c => y.rxExpire .host (c + 1) (.client (c + 1)) t) y
  (y.rxExpire .own 0 .own t).pendExpire t

/-- `cat_ybin_query`: the command and the length of its answer. -/
def query (y : Ybin) : List UInt8 × Nat :=
  let c : List UInt8 :=
    match y.model.fam with
    | .f757 => [0, 0, 0, 0, 0x10]
    | .f817 | .f847 => [0, 0, 0, 0, 0x03]
    | _ => [0, 0, 0, 0x02, 0x10]
  (c, (answerLen y.model c).1)

/-- `cat_ybin_cat_on`. -/
def catOn (y : Ybin) : Option (List UInt8) := if y.model.fam = .f847 then some [0, 0, 0, 0, 0] else none

end Ybin

end Mhuxd
