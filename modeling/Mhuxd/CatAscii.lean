import Mhuxd.CatState

/-!
# The decoder of the ASCII protocols (`cat_ascii.c`)

Kenwood, Elecraft, newer Yaesu and Flex: frames end with `;`. `out` collects the calls of the frame
callback.
-/

namespace Mhuxd

def ASCII_MAX_FRAME : Nat := 64
def CAT_ASCII_SET_WAIT_MS : Nat := 200
def IF_LEN_KENWOOD : Nat := 37

/-- `enum cat_ascii_dialect`. -/
inductive Dialect
  | kenwood | elecraft | yaesu | flex
deriving DecidableEq

structure AsciiRx where
  buf : List UInt8
  tMs : Nat
deriving DecidableEq

/-- `struct ascii_pending`; `pfx` is its `prefix`. -/
structure AsciiPending where
  pfx : List UInt8
  frame : List UInt8
  tMs : Nat
  own : Bool
  client : Nat
  query : Bool
deriving DecidableEq

/-- `struct cat_ascii`, with the state it points to. A VFO is true for B; 0 in `k3Md` and `k3Dt` is
unknown. -/
structure Ascii where
  dialect : Dialect
  noData : Bool
  st : CatState
  rx : Src → AsciiRx
  pend : List AsciiPending
  k3Md : Bool → UInt8
  k3Dt : Bool → UInt8
  txAb : Option Bool
  out : List Emit

namespace Ascii

def chr (b : UInt8) : Char := Char.ofNat b.toNat

def charAt (s : List UInt8) (i : Nat) : Char := chr (s.getD i 0)

/-- `strncmp()` says equal. -/
def starts (s : List UInt8) (p : List Char) : Bool := (s.take p.length).map chr == p

/-- `cat_ascii_create`. -/
def create (dialect : Dialect) (noData : Bool) (st : CatState) : Ascii where
  dialect := dialect
  noData := noData
  st := st
  rx := fun _ => ⟨[], 0⟩
  pend := []
  k3Md := fun _ => 0
  k3Dt := fun _ => 0
  txAb := none
  out := []

def emit (a : Ascii) (kind : FrameKind) (dir : CatDir) (buf : List UInt8) (applied own : Bool) (client t : Nat) :
    Ascii :=
  { a with out := a.out ++ [⟨⟨kind, dir, t, buf, applied, own, client⟩, 0⟩] }

/-! ### Field decoding -/

/-- The loops over digits, with the value of those before. -/
def digits : List UInt8 → Nat → Option Nat
  | [], f => some f
  | c :: cs, f => if c.toNat < 0x30 ∨ 0x39 < c.toNat then none else digits cs (f * 10 + (c.toNat - 0x30))

def decFreq (p : List UInt8) : Option Nat :=
  if p.length < 8 ∨ 11 < p.length then none
  else (digits p 0).filter fun f => decide (f ≠ 0 ∧ f < 2 ^ 32)

def decBool (c : Char) : Option Bool := if c = '0' then some false else if c = '1' then some true else none

/-- A mode and its data flag, `none` if a data flag command tells. -/
abbrev ModeData := CatMode × Option Bool

def decModeKenwood (noData dataCodes : Bool) (c : Char) : Option ModeData :=
  let data := if noData || dataCodes then some false else none
  match c with
  | '1' => some (.lsb, data)
  | '2' => some (.usb, data)
  | '3' => some (.cw, data)
  | '4' => some (.fm, data)
  | '5' => some (.am, data)
  | '6' => some (.rtty, data)
  | '7' => some (.cwr, data)
  | '9' => some (.rttyr, data)
  | 'A' => some (.psk, some false)
  | 'B' => some (.pskr, some false)
  | 'C' | 'G' | 'K' => some (.pktlsb, some true)
  | 'D' | 'H' | 'L' => some (.pktusb, some true)
  | 'E' | 'I' | 'M' => some (.pktfm, some true)
  | 'F' | 'J' | 'N' => some (.pktam, some true)
  | _ => none

def decModeFlex (c : Char) : Option ModeData :=
  match c with
  | '1' => some (.lsb, some false)
  | '2' => some (.usb, some false)
  | '3' => some (.cw, some false)
  | '4' => some (.fm, some false)
  | '5' => some (.am, some false)
  | '6' => some (.pktlsb, some true)
  | '7' => some (.cwr, some false)
  | '9' => some (.pktusb, some true)
  | _ => none

def decModeZz (p : List UInt8) : Option ModeData :=
  if p.length < 1 ∨ 2 < p.length then none
  else
    match digits p 0 with
    | some 0 => some (.lsb, some false)
    | some 1 => some (.usb, some false)
    | some 3 => some (.cwr, some false)
    | some 4 => some (.cw, some false)
    | some 5 => some (.fm, some false)
    | some 6 => some (.am, some false)
    | some 7 => some (.pktusb, some true)
    | some 9 => some (.pktlsb, some true)
    | some 10 => some (.ams, some false)
    | some 2 | some 8 | some 11 => some (.other, some false)
    | _ => none

def decModeYaesu (c : Char) : Option ModeData :=
  match c with
  | '1' => some (.lsb, some false)
  | '2' => some (.usb, some false)
  | '3' => some (.cw, some false)
  | '4' => some (.fm, some false)
  | '5' => some (.am, some false)
  | '6' => some (.rtty, some false)
  | '7' => some (.cwr, some false)
  | '8' => some (.pktlsb, some true)
  | '9' => some (.rttyr, some false)
  | 'A' => some (.pktfm, some true)
  | 'B' => some (.fm, some false)
  | 'C' => some (.pktusb, some true)
  | 'D' => some (.am, some false)
  | 'E' => some (.other, some false)
  | 'F' => some (.pktfm, some true)
  | _ => none

def k3DataMode (md dt : Char) : CatMode :=
  if dt = '1' then .pktlsb else if dt = '2' then (if md = '9' then .rttyr else .rtty) else .pktusb

/-! ### State updates -/

def slotOf (a : Ascii) (ab : Bool) : Vfo := if ab = a.st.vfoAb.val then .sel else .unsel

def setFreq (a : Ascii) (ab : Bool) (hz t : Nat) : Ascii := { a with st := a.st.setFreq (a.slotOf ab) hz t }

def setMode (a : Ascii) (slot : Vfo) (m : ModeData) (t : Nat) : Ascii :=
  let st := a.st.setMode slot m.1 t
  { a with st := if m.2 = some false ∧ m.1.withData true ≠ m.1 then st.setData slot false t else st }

def updateSplit (a : Ascii) (t : Nat) : Ascii :=
  match a.txAb with
  | none => a
  | some tx => { a with st := a.st.setSplit (tx != a.st.vfoAb.val) t }

def setSplit (a : Ascii) (split : Bool) (t : Nat) : Ascii :=
  { a with st := a.st.setSplit split t, txAb := some (if split then !a.st.vfoAb.val else a.st.vfoAb.val) }

def selectVfo (a : Ascii) (ab : Bool) (t : Nat) : Ascii := { a with st := a.st.selectVfo ab t }

def selectRx (a : Ascii) (ab : Bool) (t : Nat) : Ascii := (a.selectVfo ab t).updateSplit t

def k3Apply (a : Ascii) (ab : Bool) (t : Nat) : Ascii :=
  let md := chr (a.k3Md ab)
  if a.k3Md ab = 0 then a
  else if md = '6' ∨ md = '9' then a.setMode (a.slotOf ab) (k3DataMode md (chr (a.k3Dt ab)), some true) t
  else
    match decModeKenwood a.noData false md with
    | none => a
    | some (mode, _) => a.setMode (a.slotOf ab) (mode, some false) t

/-- The mode is set if the code has one. -/
def setModeIf (a : Ascii) (ab : Bool) (m : Option ModeData) (t : Nat) : Ascii × Applied :=
  match m with
  | none => (a, .bad)
  | some m => (a.setMode (a.slotOf ab) m t, .done)

def applyModeCode (a : Ascii) (ab : Bool) (c : UInt8) (dataCodes : Bool) (t : Nat) : Ascii × Applied :=
  match a.dialect with
  | .elecraft =>
    if c.toNat < 0x31 ∨ 0x39 < c.toNat ∨ chr c = '8' then (a, .bad)
    else ({ a with k3Md := Function.update a.k3Md ab c }.k3Apply ab t, .done)
  | .flex => a.setModeIf ab (decModeFlex (chr c)) t
  | .yaesu => a.setModeIf ab (decModeYaesu (chr c)) t
  | .kenwood => a.setModeIf ab (decModeKenwood a.noData dataCodes (chr c)) t

/-! ### Commands -/

def cmdFreq (a : Ascii) (ab : Bool) (p : List UInt8) (t : Nat) : Ascii × Applied :=
  if p = [] then (a, .none)
  else
    match decFreq p with
    | none => (a, .bad)
    | some hz => (a.setFreq ab hz t, .done)

/-- What IF says of the receive VFO; not when transmitting in split. -/
def ifVfo (a : Ascii) (s : List UInt8) (hz : Nat) (tx split : Bool) (t : Nat) : Ascii × Applied :=
  if tx && split then (a, .done)
  else
    let a := if charAt s 30 = '2' then a else a.selectVfo (charAt s 30 == '1') t
    let a := a.setFreq a.st.vfoAb.val hz t
    a.applyModeCode a.st.vfoAb.val (s.getD 29 0) false t

def cmdIfKenwood (a : Ascii) (s : List UInt8) (t : Nat) : Ascii × Applied :=
  if s.length = 2 then (a, .none)
  else if s.length ≠ IF_LEN_KENWOOD then (a, .bad)
  else
    match decFreq ((s.drop 2).take 11), decBool (charAt s 28), decBool (charAt s 32) with
    | some hz, some tx, some split =>
      if charAt s 30 < '0' ∨ '2' < charAt s 30 then (a, .bad)
      else
        let (a, r) := a.ifVfo s hz tx split t
        if r = .bad then (a, .bad) else (a.setSplit split t, .done)
    | _, _, _ => (a, .bad)

def cmdIfYaesu (a : Ascii) (ab : Bool) (s : List UInt8) (t : Nat) : Ascii × Applied :=
  let n := s.length
  if n = 2 then (a, .none)
  else if n ≠ 26 ∧ n ≠ 29 ∧ n ≠ 27 ∧ n ≠ 40 then (a, .bad)
  else
    let w := if n = 26 ∨ n = 29 then 8 else 9
    match decFreq ((s.drop 5).take w) with
    | none => (a, .bad)
    | some hz => (a.setFreq ab hz t).applyModeCode ab (s.getD (5 + w + 7) 0) false t

/-- `s[2]` is 0 or 1: VFO A or B. -/
def cmdMain (a : Ascii) (s : List UInt8) (dataCodes : Bool) (t : Nat) : Ascii × Applied :=
  if s.length = 3 ∨ s.length = 2 then (a, .none)
  else if s.length ≠ 4 then (a, .bad)
  else
    match decBool (charAt s 2) with
    | none => (a, .bad)
    | some ab => a.applyModeCode ab (s.getD 3 0) dataCodes t

def cmdMd (a : Ascii) (s : List UInt8) (t : Nat) : Ascii × Applied :=
  let n := s.length
  if a.dialect = .yaesu then a.cmdMain s false t
  else if a.dialect = .elecraft ∧ 3 ≤ n ∧ charAt s 2 = '$' then
    if n = 3 then (a, .none) else if n = 4 then a.applyModeCode true (s.getD 3 0) false t else (a, .bad)
  else if n = 2 then (a, .none)
  else if n = 3 then a.applyModeCode a.st.vfoAb.val (s.getD 2 0) false t
  else (a, .bad)

/-- The branch of `cmd_data` for Elecraft. -/
def k3Data (a : Ascii) (s : List UInt8) (t : Nat) : Ascii × Applied :=
  let vfoB := decide (3 ≤ s.length ∧ charAt s 2 = '$')
  let p := if vfoB then 3 else 2
  let ab := vfoB || a.st.vfoAb.val
  if charAt s 1 ≠ 'T' ∨ s.length = p then (a, .none)
  else if s.length ≠ p + 1 ∨ charAt s p < '0' ∨ '3' < charAt s p then (a, .bad)
  else ({ a with k3Dt := Function.update a.k3Dt ab (s.getD p 0) }.k3Apply ab t, .done)

def cmdData (a : Ascii) (s : List UInt8) (t : Nat) : Ascii × Applied :=
  if a.dialect = .elecraft then a.k3Data s t
  else if a.dialect ≠ .kenwood then (a, .none)
  else if s.length = 2 then (a, .none)
  else if s.length ≠ 3 then (a, .bad)
  else
    match decBool (charAt s 2) with
    | none => (a, .bad)
    | some v => ({ a with st := a.st.setData .sel v t }, .done)

def cmdVfo (a : Ascii) (s : List UInt8) (t : Nat) : Ascii × Applied :=
  if s.length = 2 then (a, .none)
  else if s.length ≠ 3 ∨ charAt s 2 < '0' ∨ '3' < charAt s 2 then (a, .bad)
  else if '1' < charAt s 2 then (a, .none)
  else
    let ab := charAt s 2 == '1'
    (if starts s ['F', 'T'] then { a with txAb := some ab }.updateSplit t else a.selectRx ab t, .done)

def cmdSplit (a : Ascii) (c : Char) (t : Nat) : Ascii × Applied :=
  if c < '0' ∨ '2' < c then (a, .bad) else (a.setSplit (c != '0') t, .done)

def cmdOm (a : Ascii) (s : List UInt8) (t : Nat) : Ascii × Applied := a.cmdMain s true t

def cmdSf (a : Ascii) (s : List UInt8) (t : Nat) : Ascii × Applied :=
  if s.length = 3 ∨ s.length = 2 then (a, .none)
  else if s.length ≠ 15 then (a, .bad)
  else
    match decBool (charAt s 2), decFreq ((s.drop 3).take 11) with
    | some ab, some hz => (a.setFreq ab hz t).applyModeCode ab (s.getD 14 0) true t
    | _, _ => (a, .bad)

def cmdZz (a : Ascii) (s : List UInt8) (t : Nat) : Ascii × Applied :=
  if s.length = 4 then (a, .none)
  else if starts s ['Z', 'Z', 'F', 'A'] ∨ starts s ['Z', 'Z', 'F', 'B'] then
    a.cmdFreq (charAt s 3 != 'A') (s.drop 4) t
  else if starts s ['Z', 'Z', 'M', 'D'] ∨ starts s ['Z', 'Z', 'M', 'E'] then
    a.setModeIf (charAt s 3 != 'D') (decModeZz (s.drop 4)) t
  else if starts s ['Z', 'Z', 'S', 'P'] then
    if s.length = 5 then a.cmdSplit (charAt s 4) t else (a, .bad)
  else (a, .none)

/-- `isSet`: a frame from the client. -/
def applyFrame (a : Ascii) (s : List UInt8) (isSet : Bool) (t : Nat) : Ascii × Applied :=
  let yaesu := a.dialect == Dialect.yaesu
  if s.length < 2 then (a, .none)
  else if starts s ['F', 'A'] ∨ starts s ['F', 'B'] then a.cmdFreq (charAt s 1 != 'A') (s.drop 2) t
  else if starts s ['M', 'D'] then a.cmdMd s t
  else if starts s ['D', 'A'] ∨ starts s ['D', 'T'] then a.cmdData s t
  else if a.dialect = .flex ∧ 4 ≤ s.length ∧ starts s ['Z', 'Z'] then
    if isSet ∧ starts s ['Z', 'Z', 'S', 'P'] then (a, .none) else a.cmdZz s t
  else if isSet then (a, .none)
  else if starts s ['I', 'F'] then if yaesu then a.cmdIfYaesu false s t else a.cmdIfKenwood s t
  else if yaesu ∧ starts s ['O', 'I'] then a.cmdIfYaesu true s t
  else if starts s ['F', 'T'] ∨ (yaesu = false ∧ starts s ['F', 'R']) ∨ (yaesu ∧ starts s ['V', 'S']) then
    a.cmdVfo s t
  else if yaesu ∧ starts s ['S', 'T'] then
    if s.length = 2 then (a, .none) else if s.length = 3 then a.cmdSplit (charAt s 2) t else (a, .bad)
  else if a.dialect = .kenwood ∧ starts s ['O', 'M'] then a.cmdOm s t
  else if a.dialect = .kenwood ∧ starts s ['S', 'F'] then a.cmdSf s t
  else (a, .none)

/-! ### Pending client commands -/

def prefixOf (s : List UInt8) : List UInt8 :=
  if 4 ≤ s.length ∧ starts s ['Z', 'Z'] then s.take 4 else s.take 2

def pendLive (p : AsciiPending) (t : Nat) : Bool :=
  decide (t ≤ p.tMs + if p.query then PEND_TIMEOUT_MS else CAT_ASCII_SET_WAIT_MS)

def pendRemove (a : Ascii) (i : Nat) : Ascii := { a with pend := a.pend.eraseIdx i }

def pendAdd (a : Ascii) (buf pfx : List UInt8) (own : Bool) (client t : Nat) : Ascii :=
  let pend := a.pend.filter fun p => pendLive p t
  let pend := if pend.length = PEND_MAX then pend.tail else pend
  { a with pend := pend ++ [⟨pfx, buf, t, own, client, buf.length == pfx.length + 1⟩] }

/-- The oldest pending query the frame answers, else the oldest command: its index. `answer` is the
prefix and the frame, `none` for an error. -/
def pendFind (a : Ascii) (answer : Option (List UInt8 × List UInt8)) (t : Nat) : Option Nat :=
  let fits := fun p : AsciiPending => pendLive p t && answer.all fun x => p.pfx == x.1
  (a.pend.findIdx? fun p => p.query && fits p).or (a.pend.findIdx? fits)

/-- The frame repeats a set. -/
def repeatsSet (p : AsciiPending) (answer : Option (List UInt8 × List UInt8)) : Bool :=
  !p.query && answer.any fun x => !p.own && p.frame == x.2

/-- `pend_take`: the command a radio frame answers, with its owner. -/
def pendTake (a : Ascii) (answer : Option (List UInt8 × List UInt8)) (t : Nat) :
    Ascii × Option (Bool × Nat) :=
  match a.pendFind answer t with
  | none => (a, none)
  | some i =>
    match a.pend[i]? with
    | none => (a, none)
    | some p => (a.pendRemove i, if repeatsSet p answer then none else some (p.own, p.client))

/-- A frame of a client or of mhuxd. -/
def processCommand (a : Ascii) (dir : CatDir) (client : Nat) (buf : List UInt8) (t : Nat) : Ascii :=
  let s := buf.dropLast
  let own := dir == .own
  let a := if s = [] then a else a.pendAdd buf (prefixOf s) own client t
  let (a, r) := a.applyFrame s true t
  a.emit .cmd dir buf (r == Applied.done) own client t

/-- A frame of the radio. -/
def processAnswer (a : Ascii) (buf : List UInt8) (t : Nat) : Ascii :=
  let s := buf.dropLast
  if s.length = 1 ∧ (charAt s 0 = '?' ∨ charAt s 0 = 'E' ∨ charAt s 0 = 'O') then
    let (a, owner) := a.pendTake none t
    let (own, client) := owner.getD (false, 0)
    a.emit .error .radio buf false own client t
  else
    let (a, owner) := if s = [] then (a, none) else a.pendTake (some (prefixOf s, buf)) t
    let (own, client) := owner.getD (false, 0)
    let (a, r) := a.applyFrame s false t
    let kind := if r = .bad then .bad else if owner.isSome then .reply else .unsolicited
    a.emit kind .radio buf (r == Applied.done) own client t

def processFrame (a : Ascii) (dir : CatDir) (client : Nat) (buf : List UInt8) (t : Nat) : Ascii :=
  let a := if a.st.vfoAb.valid then a else a.selectVfo false t
  if dir = .radio then a.processAnswer buf t else a.processCommand dir client buf t

/-! ### The framer -/

def setRx (a : Ascii) (src : Src) (rx : AsciiRx) : Ascii := { a with rx := Function.update a.rx src rx }

def rxByte (a : Ascii) (dir : CatDir) (client : Nat) (src : Src) (b : UInt8) (t : Nat) : Ascii :=
  let buf := (a.rx src).buf
  if chr b = ';' then (a.processFrame dir client (buf ++ [b]) t).setRx src ⟨[], t⟩
  else if buf = [] ∧ (chr b = '\r' ∨ chr b = '\n' ∨ chr b = ' ' ∨ b = 0) then a.setRx src ⟨[], t⟩
  else if b.toNat < 0x20 ∨ 0x7f ≤ b.toNat ∨ ASCII_MAX_FRAME ≤ buf.length + 1 then
    (a.emit .dropped dir (buf ++ [b]) false (dir == .own) client t).setRx src ⟨[], t⟩
  else a.setRx src ⟨buf ++ [b], t⟩

def rxPartial (rx : AsciiRx) (t : Nat) : Bool := !rx.buf.isEmpty && decide (t ≤ rx.tMs + PEND_TIMEOUT_MS)

/-! ### The interface -/

/-- `CAT_PENDING_CLIENT` and `CAT_PENDING_OWN` of `cat_ascii_pending`. -/
def pending (a : Ascii) (t : Nat) : Bool × Bool :=
  ((List.range CAT_MAX_CLIENTS).any (fun c => rxPartial (a.rx (.client (c + 1))) t) ||
      a.pend.any fun p => !p.own && pendLive p t,
    a.pend.any fun p => p.own && pendLive p t)

/-- `cat_ascii_client_busy`. -/
def clientBusy (a : Ascii) (client t : Nat) : Bool :=
  decide (1 ≤ client ∧ client ≤ CAT_MAX_CLIENTS) &&
    (rxPartial (a.rx (.client client)) t || a.pend.any fun p => p.client == client && pendLive p t)

/-- `cat_ascii_client_discard`. -/
def clientDiscard (a : Ascii) (client : Nat) : Ascii :=
  if 1 ≤ client ∧ client ≤ CAT_MAX_CLIENTS then
    let a := a.setRx (.client client) { a.rx (.client client) with buf := [] }
    { a with pend := a.pend.filter fun p => p.client != client }
  else a

/-- `cat_ascii_feed`. -/
def feed (a : Ascii) (dir : CatDir) (client : Nat) (buf : List UInt8) (t : Nat) : Ascii :=
  match Src.of dir client with
  | none => a
  | some src => buf.foldl (fun a b => a.rxByte dir (if dir = .host then client else 0) src b t) a

end Ascii

end Mhuxd
