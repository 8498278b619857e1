import Mhuxd.Citem
import Mhuxd.KcfgItems

/-!
# The MCP client (`proc_mcp.c`, `mhmk2r.c`)

A client that has turned auto-information on is told of the PTT, footswitch and lockout flags, of the focus and of the
accessory outputs of a keyer when they change. What has been reported last is kept for each of the three sources.
-/

namespace Mhuxd

/-- A text without its zero. -/
abbrev Text : Type := List Char

/-! ### Focus control (`mhmk2r.c`) -/

/-- A bit of a state or of the focus control. -/
def bitItem (key : String) (idx baseBit : Nat) : CfgItem := ⟨key, idx, baseBit, 1, none, none⟩

def mokItems : List CfgItem :=
  [bitItem "txFocus" 0 0, bitItem "rxFocus" 0 1, bitItem "stereoFocus" 0 2, bitItem "dvkFocus" 0 3, bitItem "earsAuto" 0 4,
    bitItem "directControl" 0 5, bitItem "lptCw" 0 8, bitItem "lptCw" 0 9, bitItem "lptTxFocusPin" 0 10,
    bitItem "lptRxFocusPin" 0 11, bitItem "lptStereoFocusPin" 0 12, bitItem "focusAuto" 0 13,
    bitItem "ears.left.r1Main" 0 16, bitItem "ears.left.r1Sub" 0 17, bitItem "ears.left.scLeft" 0 18,
    bitItem "ears.left.scRight" 0 19, bitItem "ears.left.r2Main" 0 20, bitItem "ears.left.r2Sub" 0 21,
    bitItem "wkTxFocus" 0 22, bitItem "wkKeyOutFocus" 0 23, bitItem "ears.right.r1Main" 0 24,
    bitItem "ears.right.r1Sub" 0 25, bitItem "ears.right.scLeft" 0 26, bitItem "ears.right.scRight" 0 27,
    bitItem "ears.right.r2Main" 0 28, bitItem "ears.right.r2Sub" 0 29, bitItem "chanFocus" 0 30, bitItem "lptFsIn" 0 31,
    ⟨"a1SteppirVer", 4, 7, 8, none, none⟩, ⟨"a2SteppirVer", 5, 7, 8, none, none⟩, ⟨"a1SteppirVerHi", 6, 7, 8, none, none⟩,
    ⟨"a2SteppirVerHi", 7, 7, 8, none, none⟩, ⟨"ears.left.flags", 0, 21, 6, none, none⟩,
    ⟨"ears.right.flags", 0, 29, 6, none, none⟩]

def mk2rHfocusItems : List CfgItem :=
  [bitItem "txFocus" 0 0, bitItem "rxFocus" 0 1, bitItem "stereoFocus" 0 2, bitItem "wkControledByApp" 0 3,
    bitItem "directControl" 0 4, bitItem "ears.left.r1Main" 1 0, bitItem "ears.left.r1Sub" 1 1,
    bitItem "ears.left.scLeft" 1 2, bitItem "ears.left.scRight" 1 3, bitItem "ears.left.r2Main" 1 4,
    bitItem "ears.left.r2Sub" 1 5, bitItem "ears.right.r1Main" 2 0, bitItem "ears.right.r1Sub" 2 1,
    bitItem "ears.right.scLeft" 2 2, bitItem "ears.right.scRight" 2 3, bitItem "ears.right.r2Main" 2 4,
    bitItem "ears.right.r2Sub" 2 5]

def mk2rGetMokValue (state : List UInt8) (key : String) : Int := citemGetValue mokItems state key

/-- `mk2r_set_hfocus_value` on the first four bytes, which hold all items. -/
def mk2rSetHfocusValue (hfocus : List UInt8) (key : String) (value : Int) : List UInt8 :=
  Citem.setStep mk2rHfocusItems hfocus ⟨key, value⟩

/-- What is heard in the ears, in the order of the `FRD` command. -/
def earsKeys : List String :=
  ["ears.left.r1Main", "ears.left.r1Sub", "ears.left.scLeft", "ears.left.scRight", "ears.left.r2Main", "ears.left.r2Sub",
    "ears.right.r1Main", "ears.right.r1Sub", "ears.right.scLeft", "ears.right.scRight", "ears.right.r2Main",
    "ears.right.r2Sub"]

/-- The bytes and bits of a state for these. -/
def earsPlaces : List (Nat × Nat) := ((List.range 6).map fun k => (2, k)) ++ (List.range 6).map fun k => (3, k)

/-! ### The processor -/

/-- `struct proc_mcp`, what auto-information needs of it. -/
structure Mcp where
  flag1 : UInt8
  flag2 : UInt8
  mokState : List UInt8
  accState : List UInt8
  autoInfoOn : Bool
deriving DecidableEq, Repr

namespace KeyerType

/-- Keyers with two radios. -/
def twoRadios (t : KeyerType) : Bool := t == mk2r || t == mk2rp || t == u2r

end KeyerType

/-- `send_response`. -/
def sendResponse (cmd arg : Text) : Text := (cmd ++ arg ++ ['\r']).take 34

def sendResponseInt (cmd : Text) (iarg : Int) : Text :=
  sendResponse cmd (if iarg < 0 then '-' :: Nat.toDigits 10 (-iarg).toNat else Nat.toDigits 10 iarg.toNat)

namespace Mcp

def MHD2CFL_LOCKOUT : UInt8 := 0x02
def MHD2CFL_ANY_PTT : UInt8 := 0x04
def MHD2CFL_R2 : UInt8 := 0x08
def MHD2CFL_FOOTSWITCH : UInt8 := 0x80

/-- The flags that `flags_cb` has seen to change. -/
structure Changed where
  ptt : Bool
  footsw : Bool
  lockout : Bool

/-- One byte of flags. -/
def flagByte (s : Mcp × Changed) (c : UInt8) : Mcp × Changed :=
  let m := s.1
  let old := if c &&& MHD2CFL_R2 ≠ 0 then m.flag2 else m.flag1
  (if c &&& MHD2CFL_R2 ≠ 0 then { m with flag2 := c } else { m with flag1 := c },
    ⟨s.2.ptt || old &&& MHD2CFL_ANY_PTT != c &&& MHD2CFL_ANY_PTT,
      s.2.footsw || old &&& MHD2CFL_FOOTSWITCH != c &&& MHD2CFL_FOOTSWITCH,
      s.2.lockout || old &&& MHD2CFL_LOCKOUT != c &&& MHD2CFL_LOCKOUT⟩)

/-- The response for a flag: its argument has a carriage return already. -/
def flagResponse (t : KeyerType) (m : Mcp) (cmd : Text) (mask : UInt8) : Text :=
  let digit (flag : UInt8) : Char := if flag &&& mask ≠ 0 then '1' else '0'
  sendResponse cmd (if t.twoRadios then [digit m.flag1, digit m.flag2, '\r'] else [digit m.flag1, '\r'])

/-- `flags_cb`, with the responses. -/
def flagsCb (t : KeyerType) (m : Mcp) (data : List UInt8) : Mcp × List Text :=
  let (m, changed) := data.foldl flagByte (m, ⟨false, false, false⟩)
  (m, (if m.autoInfoOn && changed.ptt then [flagResponse t m ['P'] MHD2CFL_ANY_PTT] else []) ++
    (if m.autoInfoOn && changed.footsw then [flagResponse t m ['H'] MHD2CFL_FOOTSWITCH] else []) ++
    (if m.autoInfoOn && changed.lockout then [flagResponse t m ['L'] MHD2CFL_LOCKOUT] else []))

/-- A conversion to `uint8_t`. -/
def toU8 (z : Int) : Int := z % 256

/-- The responses for a focus state: that for `FR` has the last value looked at, which is `focusAuto`. -/
def mokResponses (m : Mcp) (state : List UInt8) : List Text :=
  let get (key : String) : Int := toU8 (mk2rGetMokValue state key)
  let old (key : String) : Int := mk2rGetMokValue m.mokState key
  (if get "txFocus" ≠ old "txFocus" then [sendResponseInt ['F', 'T'] (get "txFocus" + 1)] else []) ++
  (if get "focusAuto" ≠ old "focusAuto" then [sendResponseInt ['F', 'T', 'A'] (get "focusAuto")] else []) ++
  (if get "rxFocus" ≠ old "rxFocus" ∨ get "stereoFocus" ≠ old "stereoFocus" then
    [if get "stereoFocus" ≠ 0 then sendResponse ['F', 'R', 'S'] [] else sendResponseInt ['F', 'R'] (get "focusAuto" + 1)]
  else []) ++
  (if mk2rGetMokValue state "ears.left.flags" ≠ old "ears.left.flags" ∨
      mk2rGetMokValue state "ears.right.flags" ≠ old "ears.right.flags" then
    [sendResponse ['F', 'R', 'D'] (earsKeys.map fun key => if mk2rGetMokValue state key ≠ 0 then '1' else '0')]
  else [])

def mokStateChangedCb (m : Mcp) (state : List UInt8) : Mcp × List Text :=
  if state.length < 8 then (m, [])
  else
    let state := state.take 8
    ({ m with mokState := state }, if m.autoInfoOn then mokResponses m state else [])

/-- The argument of the responses for accessory outputs: the bits are not masked. -/
def accArg (hi lo : UInt8) : Text :=
  (List.range 16).map fun i => if (hi.toNat * 256 + lo.toNat) >>> (15 - i) ≠ 0 then '1' else '0'

/-- The responses don't look at `auto_info_on`. -/
def accStateChangedCb (m : Mcp) (state : List UInt8) : Mcp × List Text :=
  if state.length < 4 then (m, [])
  else
    let state := state.take 4
    let differ (i : Nat) : Bool :=
      state.getD i 0 != m.accState.getD i 0 || state.getD (i + 1) 0 != m.accState.getD (i + 1) 0
    ({ m with accState := state },
      (if differ 0 then [sendResponse ['A', 'M', '1'] (accArg (state.getD 0 0) (state.getD 1 0))] else []) ++
      (if differ 2 then [sendResponse ['A', 'M', '2'] (accArg (state.getD 2 0) (state.getD 3 0))] else []))

end Mcp

/-- `struct mh_control`, what a new processor is told of. -/
structure KeyerNow where
  online : Bool
  stateBuf : List UInt8
  accState : List UInt8
  stateLen : stateBuf.length = 13
  accLen : accState.length = 8

namespace Mcp

/-- A processor from `calloc`. -/
def zero : Mcp := ⟨0, 0, List.replicate 8 0, List.replicate 4 0, false⟩

/-- `mcp_create`: the callbacks are called at once when the keyer is online, both with the state buffer. -/
def create (c : KeyerNow) : Mcp × List Text :=
  if c.online then
    let (m, sent) := zero.mokStateChangedCb (c.stateBuf.take 8)
    let (m, sent') := m.accStateChangedCb (c.stateBuf.take 4)
    (m, sent ++ sent')
  else (zero, [])

end Mcp

/-- What a processor is called for. -/
inductive McpEvent
  | flags (c : UInt8) | mok (state : List UInt8) | acc (state : List UInt8) | autoInfo (on : Bool)

/-- The state and the responses: the router calls with one byte of flags at a time. -/
def Mcp.step (t : KeyerType) (m : Mcp) : McpEvent → Mcp × List Text
  | .flags c => m.flagsCb t [c]
  | .mok state => m.mokStateChangedCb state
  | .acc state => m.accStateChangedCb state
  | .autoInfo on => ({ m with autoInfoOn := on }, [])

/-! ### Commands of the client -/

/-- `frd_to_hfocus`; `none` is an invalid argument. -/
def frdToHfocus (hfocus : List UInt8) (arg : Text) : Option (List UInt8) :=
  if arg.length = 12 ∧ arg.all (fun c => c == '0' || c == '1') = true then
    some (mk2rSetHfocusValue ((earsKeys.zip arg).foldl (fun hf kc =>
      mk2rSetHfocusValue hf kc.1 (if kc.2 = '1' then 1 else 0)) hfocus) "directControl" 1)
  else none

/-- The commands of `process_cmd` that set the focus. -/
def focusCmd (hfocus : List UInt8) (cmd : Text) : Option (List UInt8) :=
  let set (hf : List UInt8) (key : String) (value : Int) := mk2rSetHfocusValue hf key value
  if cmd = ['F', 'T', '1'] then some (set hfocus "txFocus" 0)
  else if cmd = ['F', 'T', '2'] then some (set hfocus "txFocus" 1)
  else if cmd = ['F', 'R', '1'] then some (set (set (set hfocus "rxFocus" 0) "stereoFocus" 0) "directControl" 0)
  else if cmd = ['F', 'R', '2'] then some (set (set (set hfocus "rxFocus" 1) "stereoFocus" 0) "directControl" 0)
  else if cmd = ['F', 'R', 'S'] then some (set (set hfocus "stereoFocus" 1) "directControl" 0)
  else if cmd.take 3 = ['F', 'R', 'D'] then frdToHfocus hfocus (cmd.drop 3)
  else none

/-- The bits of a pair of outputs, from `AM1` or `AM2`. -/
def amBits (arg : Text) : Option Nat :=
  arg.zipIdx.foldlM (fun acc ci =>
    if ci.1 = '0' then some acc else if ci.1 = '1' then some (acc ||| 1 <<< (15 - ci.2)) else none) 0

/-- `cmd_am` on the four bytes of the outputs: these, the responses, and whether it ends without an error. A command
that sets them ends with one. -/
def cmdAm (accOutputs : List UInt8) (cmd : Text) : List UInt8 × List Text × Bool :=
  let offset := if cmd[2]? = some '2' then 2 else 0
  let accInt := (accOutputs.getD offset 0).toNat * 256 + (accOutputs.getD (offset + 1) 0).toNat
  if cmd.length = 3 then
    (accOutputs, [sendResponse cmd ((List.range 16).map fun i =>
      if (accInt >>> (15 - i)) % 2 = 1 then '1' else '0')], true)
  else if cmd.length = 19 then
    match amBits (cmd.drop 3) with
    | none => (accOutputs, [], false)
    | some accInt =>
      ((accOutputs.set offset (UInt8.ofNat (accInt / 256))).set (offset + 1) (UInt8.ofNat accInt), [], false)
  else (accOutputs, [], false)

/-! ### What a client should be sent -/

/-- The items of auto-information. -/
inductive AutoItem
  | ptt | footswitch | lockout | txFocus | focusAuto | rxFocus | ears | acc1 | acc2
deriving DecidableEq

namespace AutoItem

def all : List AutoItem := [ptt, footswitch, lockout, txFocus, focusAuto, rxFocus, ears, acc1, acc2]

def cmd : AutoItem → Text
  | ptt => ['P']
  | footswitch => ['H']
  | lockout => ['L']
  | txFocus => ['F', 'T']
  | focusAuto => ['F', 'T', 'A']
  | rxFocus => ['F', 'R']
  | ears => ['F', 'R', 'D']
  | acc1 => ['A', 'M', '1']
  | acc2 => ['A', 'M', '2']

end AutoItem

/-- The last reports of the keyer, and whether the client wants to know of them. -/
structure Reports where
  flag1 : UInt8
  flag2 : UInt8
  mok : List UInt8
  acc : List UInt8
  auto : Bool
deriving DecidableEq, Repr

namespace Reports

def digit (b : Bool) : Char := if b then '1' else '0'

/-- A flag of both radios or of the only one. -/
def flagArg (t : KeyerType) (r : Reports) (mask : UInt8) : Text :=
  let on (flag : UInt8) : Char := digit (flag &&& mask != 0)
  if t.twoRadios then [on r.flag1, on r.flag2] else [on r.flag1]

/-- The eight bits of a byte, the highest first. -/
def byteArg (c : UInt8) : Text := (List.range 8).map fun i => digit (c.toBitVec.getLsbD (7 - i))

/-- The focus of the receivers. -/
def focusArg (rx stereo : Bool) : Text := if stereo then ['S'] else if rx then ['2'] else ['1']

/-- The value of an item, as the commands of the client give it. -/
def arg (t : KeyerType) (r : Reports) : AutoItem → Text
  | .ptt => r.flagArg t Mcp.MHD2CFL_ANY_PTT
  | .footswitch => r.flagArg t Mcp.MHD2CFL_FOOTSWITCH
  | .lockout => r.flagArg t Mcp.MHD2CFL_LOCKOUT
  | .txFocus => if BitField.bit r.mok 0 0 then ['2'] else ['1']
  | .focusAuto => [digit (BitField.bit r.mok 1 5)]
  | .rxFocus => focusArg (BitField.bit r.mok 0 1) (BitField.bit r.mok 0 2)
  | .ears => ((List.range 6).map fun k => digit (BitField.bit r.mok 2 k)) ++
      (List.range 6).map fun k => digit (BitField.bit r.mok 3 k)
  | .acc1 => byteArg (r.acc.getD 0 0) ++ byteArg (r.acc.getD 1 0)
  | .acc2 => byteArg (r.acc.getD 2 0) ++ byteArg (r.acc.getD 3 0)

/-- One line. -/
def line (t : KeyerType) (r : Reports) (i : AutoItem) : Text := i.cmd ++ r.arg t i ++ ['\r']

def step (r : Reports) : McpEvent → Reports
  | .flags c => if c &&& Mcp.MHD2CFL_R2 ≠ 0 then { r with flag2 := c } else { r with flag1 := c }
  | .mok state => if state.length < 8 then r else { r with mok := state.take 8 }
  | .acc state => if state.length < 4 then r else { r with acc := state.take 4 }
  | .autoInfo on => { r with auto := on }

/-- All zero before the first report, and the reports to a new processor. -/
def create (c : KeyerNow) : Reports :=
  if c.online then ⟨0, 0, c.stateBuf.take 8, (c.accState.drop 2).take 4, false⟩
  else ⟨0, 0, List.replicate 8 0, List.replicate 4 0, false⟩

/-- The line of an item whose value has changed. -/
def news (t : KeyerType) (r r' : Reports) (i : AutoItem) : List Text :=
  if r'.arg t i ≠ r.arg t i then [r'.line t i] else []

/-- The lines for an event. -/
def lines (t : KeyerType) (r : Reports) (e : McpEvent) : List Text :=
  if r.auto then AutoItem.all.flatMap (news t r (r.step e)) else []

end Reports

/-- A step of the processor beside what it should know. -/
def mcpStep (t : KeyerType) (s : Mcp × Reports) (e : McpEvent) : Mcp × Reports := ((s.1.step t e).1, s.2.step e)

/-- One line with one carriage return, at its end. -/
def IsLine (s : Text) : Prop := s.getLast? = some '\r' ∧ '\r' ∉ s.dropLast

def hfocusValue (hfocus : List UInt8) (key : String) : Int := citemGetValue mk2rHfocusItems hfocus key

/-- The command of an item sets the focus or the outputs to the argument, and queries the outputs as the argument. -/
structure Reports.Decoded (t : KeyerType) (r : Reports) (hfocus outputs : List UInt8) : Prop where
  txFocus : ∃ hf ∈ focusCmd hfocus (AutoItem.txFocus.cmd ++ r.arg t .txFocus),
    hfocusValue hf "txFocus" = (BitField.bit r.mok 0 0).toInt
  rxFocus : ∃ hf ∈ focusCmd hfocus (AutoItem.rxFocus.cmd ++ r.arg t .rxFocus),
    Reports.focusArg (hfocusValue hf "rxFocus" == 1) (hfocusValue hf "stereoFocus" == 1) = r.arg t .rxFocus
  ears : ∃ hf ∈ focusCmd hfocus (AutoItem.ears.cmd ++ r.arg t .ears), ∀ p ∈ earsKeys.zip earsPlaces,
    hfocusValue hf p.1 = (BitField.bit r.mok p.2.1 p.2.2).toInt
  outputs : ∀ p ∈ [(AutoItem.acc1, 0), (AutoItem.acc2, 2)],
    (cmdAm outputs (p.1.cmd ++ r.arg t p.1)).1 =
      (outputs.set p.2 (r.acc.getD p.2 0)).set (p.2 + 1) (r.acc.getD (p.2 + 1) 0) ∧
    (cmdAm r.acc p.1.cmd).2.1 = [r.line t p.1]

/-- What is sent for an event are the lines of the changed items, and the client can set what they say. -/
def Notified (t : KeyerType) (s : Mcp × Reports) (e : McpEvent) : Prop :=
  (s.1.step t e).2 = s.2.lines t e ∧ (∀ l ∈ (s.1.step t e).2, IsLine l) ∧
    ∀ hfocus outputs, hfocus.length = 4 → outputs.length = 4 → (s.2.step e).Decoded t hfocus outputs

/-- What a run sends is what it should. -/
def Mirrors (t : KeyerType) (c : KeyerNow) (evs : List McpEvent) : Prop :=
  (Mcp.create c).2 = [] ∧ Run.StepsOk (mcpStep t) (Notified t) ((Mcp.create c).1, Reports.create c) evs

/-! ### When it is -/

/-- No zero bit below a one. -/
def Staircase (hi lo : UInt8) : Prop := ∀ k < 15, (hi.toNat * 256 + lo.toNat).testBit (k + 1) = true →
  (hi.toNat * 256 + lo.toNat).testBit k = true

/-- A pair of outputs that's reported: it is new to the callback and new as a report and has no zero bit below a one
with auto-information on, or it's none of both. -/
def AccRegular (auto : Bool) (state kept last : List UInt8) (i : Nat) : Prop :=
  let pair (s : List UInt8) : UInt8 × UInt8 := (s.getD i 0, s.getD (i + 1) 0)
  if pair state = pair kept then auto = true → pair state = pair last
  else auto = true ∧ pair state ≠ pair last ∧ Staircase (state.getD i 0) (state.getD (i + 1) 0)

/-- The focus of the receivers is as before, or turned to stereo, or from stereo or the other radio to that of the
number that automatic focus has. -/
def FocusRegular (state last : List UInt8) : Prop :=
  (BitField.bit state 0 1 = BitField.bit last 0 1 ∧ BitField.bit state 0 2 = BitField.bit last 0 2) ∨
  (BitField.bit state 0 2 = true ∧ BitField.bit last 0 2 = false) ∨
  (BitField.bit state 0 2 = false ∧ BitField.bit state 0 1 = BitField.bit state 1 5)

/-- Nothing is reported to a new processor that it takes for outputs. -/
def CreateRegular (c : KeyerNow) : Prop := c.online = true → ∀ i < 4, c.stateBuf.getD i 0 = 0

/-- With auto-information on no flag of the three changes, and the receiver focus is as it has to be; the outputs are
as they have to be on and off. -/
def McpRegular (s : Mcp × Reports) : McpEvent → Prop
  | .flags c => s.2.auto = true → ∀ mask ∈ [Mcp.MHD2CFL_ANY_PTT, Mcp.MHD2CFL_FOOTSWITCH, Mcp.MHD2CFL_LOCKOUT],
      c &&& mask = (if c &&& Mcp.MHD2CFL_R2 ≠ 0 then s.2.flag2 else s.2.flag1) &&& mask
  | .mok state => s.2.auto = true → 8 ≤ state.length → FocusRegular state s.2.mok
  | .acc state => 4 ≤ state.length → ∀ i ∈ [0, 2], AccRegular s.2.auto state s.1.accState s.2.acc i
  | .autoInfo _ => True

/-! ### Values of a focus state -/

/-- The bits that are looked at, with their bytes. -/
def mokBits : List (String × Nat × Nat) :=
  [("txFocus", 0, 0), ("rxFocus", 0, 1), ("stereoFocus", 0, 2), ("focusAuto", 1, 5)] ++ earsKeys.zip earsPlaces

namespace Mcp

variable {s s' : List UInt8} {key : String} {n k : Nat}

theorem mokBits_find : ∀ p ∈ mokBits, p.2.1 < 8 ∧ p.2.2 < 8 ∧
    (citemFind mokItems p.1).map (fun i => (i.idx, i.baseBit, i.width, i.convOut.isNone)) =
      some (0, 8 * p.2.1 + p.2.2, 1, true) := by
  decide +kernel

/-- A bit of a state of eight bytes. -/
theorem getMok_bit (hs : s.length = 8) (hp : (key, n, k) ∈ mokBits) :
    mk2rGetMokValue s key = if BitField.bit s n k then 1 else 0 := by
  obtain ⟨hn, hk, hfind⟩ := mokBits_find _ hp
  obtain ⟨i, hi, hval⟩ := Option.map_eq_some_iff.1 hfind
  dsimp only at hn hk hi hval
  simp only [Prod.mk.injEq] at hval
  obtain ⟨hidx, hbase, hwidth, hconv⟩ := hval
  have hw : ¬ i.IsWord := by
    unfold CfgItem.IsWord
    omega
  have hbyte : i.field.byte = n := by
    show i.idx + i.baseBit / 8 = n
    omega
  have hshift : i.field.shift = k := by
    show i.baseBit % 8 + 1 - i.width = k
    omega
  have hin : i.Inside s.length := by
    unfold CfgItem.Inside
    rw [if_neg hw]
    omega
  have hread : i.read s = if BitField.bit s n k then 1 else 0 := by
    unfold CfgItem.read
    rw [if_neg hw]
    refine Nat.eq_of_testBit_eq fun m => ?_
    have hfw : i.field.width = 1 := hwidth
    rw [BitField.testBit_get, hbyte, hshift, hfw]
    cases m with
    | zero => cases BitField.bit s n k <;> rfl
    | succ m => cases BitField.bit s n k <;> simp [Nat.testBit_succ]
  have hout (z : Int) : i.output z = z := by
    unfold CfgItem.output
    rw [Option.isNone_iff_eq_none.1 hconv]
    rfl
  unfold mk2rGetMokValue
  rw [Citem.getValue_some hi, if_pos hin, hout, hread]
  split_ifs <;> rfl

theorem ears_eq (hs : s.length = 8) : (earsKeys.map fun key => if mk2rGetMokValue s key ≠ 0 then '1' else '0') =
    ((List.range 6).map fun k => Reports.digit (BitField.bit s 2 k)) ++
      (List.range 6).map fun k => Reports.digit (BitField.bit s 3 k) := by
  have hkeys : earsKeys = (earsKeys.zip earsPlaces).map Prod.fst := rfl
  rw [hkeys, List.map_map]
  refine (List.map_congr_left (g := fun p => Reports.digit (BitField.bit s p.2.1 p.2.2)) fun p hp => ?_).trans rfl
  rw [Function.comp_apply, getMok_bit hs (List.mem_append_right _ hp)]
  cases BitField.bit s p.2.1 p.2.2 <;> rfl

theorem getMok_left (hs : s.length = 8) : mk2rGetMokValue s "ears.left.flags" = ((BitField.mk 2 0 6).get s : Int) := by
  have hfind : citemFind mokItems "ears.left.flags" = some ⟨"ears.left.flags", 0, 21, 6, none, none⟩ := rfl
  unfold mk2rGetMokValue
  rw [Citem.getValue_some hfind, hs]
  rfl

theorem getMok_right (hs : s.length = 8) : mk2rGetMokValue s "ears.right.flags" = ((BitField.mk 3 0 6).get s : Int) := by
  have hfind : citemFind mokItems "ears.right.flags" = some ⟨"ears.right.flags", 0, 29, 6, none, none⟩ := rfl
  unfold mk2rGetMokValue
  rw [Citem.getValue_some hfind, hs]
  rfl

theorem digit_inj {a b : Bool} : Reports.digit a = Reports.digit b ↔ a = b := by
  cases a <;> cases b <;> decide

theorem get_eq_iff {n : Nat} : (BitField.mk n 0 6).get s = (BitField.mk n 0 6).get s' ↔
    ((List.range 6).map fun k => Reports.digit (BitField.bit s n k)) =
      (List.range 6).map fun k => Reports.digit (BitField.bit s' n k) := by
  rw [List.map_inj_left]
  constructor
  · intro h k hk
    have hbit : ((BitField.mk n 0 6).get s).testBit k = ((BitField.mk n 0 6).get s').testBit k := by rw [h]
    rw [BitField.testBit_get, BitField.testBit_get] at hbit
    simpa [List.mem_range.1 hk, digit_inj] using hbit
  · intro h
    refine Nat.eq_of_testBit_eq fun k => ?_
    rw [BitField.testBit_get, BitField.testBit_get]
    by_cases hk : k < 6
    · have hbit := digit_inj.1 (h k (List.mem_range.2 hk))
      simp [hbit]
    · simp [hk]

/-- The six bits of each ear are compared at once. -/
theorem ears_ne_iff (hs : s.length = 8) (hs' : s'.length = 8) :
    (mk2rGetMokValue s "ears.left.flags" ≠ mk2rGetMokValue s' "ears.left.flags" ∨
      mk2rGetMokValue s "ears.right.flags" ≠ mk2rGetMokValue s' "ears.right.flags") ↔
    ((List.range 6).map fun k => Reports.digit (BitField.bit s 2 k)) ++
        ((List.range 6).map fun k => Reports.digit (BitField.bit s 3 k)) ≠
      ((List.range 6).map fun k => Reports.digit (BitField.bit s' 2 k)) ++
        (List.range 6).map fun k => Reports.digit (BitField.bit s' 3 k) := by
  rw [getMok_left hs, getMok_left hs', getMok_right hs, getMok_right hs', ne_eq, ne_eq, Int.natCast_inj,
    Int.natCast_inj, get_eq_iff, get_eq_iff, ← not_and_or, not_iff_not]
  constructor
  · rintro ⟨hleft, hright⟩
    rw [hleft, hright]
  · intro h
    exact List.append_inj h (by simp)

end Mcp

/-! ### Focus states -/

namespace Reports

variable {t : KeyerType} {r r' : Reports} {i : AutoItem}

theorem news_of_eq (h : r'.arg t i = r.arg t i) : news t r r' i = [] := by
  unfold news
  rw [if_neg (not_not_intro h)]

theorem digit_ne (b : Bool) : '\r' ≠ digit b := by cases b <;> decide

/-- No argument has a carriage return. -/
theorem cr_not_mem_arg (t : KeyerType) (r : Reports) (i : AutoItem) : '\r' ∉ r.arg t i := by
  have hbyte (c : UInt8) : '\r' ∉ byteArg c := by
    intro h
    obtain ⟨k, -, hk⟩ := List.mem_map.1 h
    exact digit_ne _ hk.symm
  have hflag (mask : UInt8) : '\r' ∉ r.flagArg t mask := by
    unfold flagArg
    split_ifs <;> simp [digit_ne]
  cases i with
  | ptt | footswitch | lockout => exact hflag _
  | txFocus =>
    show '\r' ∉ if BitField.bit r.mok 0 0 then ['2'] else ['1']
    split_ifs <;> decide
  | focusAuto =>
    unfold arg
    simp [digit_ne]
  | rxFocus =>
    show '\r' ∉ focusArg (BitField.bit r.mok 0 1) (BitField.bit r.mok 0 2)
    cases BitField.bit r.mok 0 1 <;> cases BitField.bit r.mok 0 2 <;> decide
  | ears =>
    unfold arg
    simp only [List.mem_append, List.mem_map, not_or, not_exists, not_and]
    exact ⟨fun k _ => (digit_ne _).symm, fun k _ => (digit_ne _).symm⟩
  | acc1 | acc2 => exact fun h => (List.mem_append.1 h).elim (hbyte _) (hbyte _)

theorem isLine_line (t : KeyerType) (r : Reports) (i : AutoItem) : IsLine (r.line t i) := by
  have hcmd : '\r' ∉ i.cmd := by cases i <;> decide
  unfold line
  refine ⟨List.getLast?_concat, ?_⟩
  rw [List.dropLast_concat]
  exact fun h => (List.mem_append.1 h).elim hcmd (cr_not_mem_arg t r i)

theorem isLine_of_mem_lines {e : McpEvent} {l : Text} (h : l ∈ r.lines t e) : IsLine l := by
  unfold lines at h
  split_ifs at h with hauto
  · obtain ⟨i, -, hi⟩ := List.mem_flatMap.1 h
    unfold news at hi
    split_ifs at hi with hne
    · rw [List.mem_singleton.1 hi]
      exact isLine_line t _ i
    · exact absurd hi List.not_mem_nil
  · exact absurd h List.not_mem_nil

/-- The lines of the items, one after the other. -/
theorem flatMap_all (f : AutoItem → List Text) : AutoItem.all.flatMap f =
    f .ptt ++ (f .footswitch ++ (f .lockout ++ (f .txFocus ++ (f .focusAuto ++ (f .rxFocus ++ (f .ears ++
      (f .acc1 ++ f .acc2))))))) := by
  simp [AutoItem.all]

theorem flatMap_mok {state : List UInt8} : AutoItem.all.flatMap (news t r { r with mok := state }) =
    news t r { r with mok := state } .txFocus ++ news t r { r with mok := state } .focusAuto ++
      news t r { r with mok := state } .rxFocus ++ news t r { r with mok := state } .ears := by
  have hnone (i : AutoItem) (h : i ∈ [AutoItem.ptt, .footswitch, .lockout, .acc1, .acc2]) :
      news t r { r with mok := state } i = [] := by
    refine news_of_eq ?_
    fin_cases h <;> rfl
  rw [flatMap_all, hnone .ptt (by decide), hnone .footswitch (by decide), hnone .lockout (by decide),
    hnone .acc1 (by decide), hnone .acc2 (by decide)]
  simp only [List.nil_append, List.append_nil, List.append_assoc]

theorem flatMap_acc {state : List UInt8} : AutoItem.all.flatMap (news t r { r with acc := state }) =
    news t r { r with acc := state } .acc1 ++ news t r { r with acc := state } .acc2 := by
  have hnone (i : AutoItem) (h : i ≠ .acc1 ∧ i ≠ .acc2) : news t r { r with acc := state } i = [] := by
    refine news_of_eq ?_
    cases i with
    | acc1 => exact absurd rfl h.1
    | acc2 => exact absurd rfl h.2
    | ptt | footswitch | lockout | txFocus | focusAuto | rxFocus | ears => rfl
  rw [flatMap_all, hnone .ptt (by decide), hnone .footswitch (by decide), hnone .lockout (by decide),
    hnone .txFocus (by decide), hnone .focusAuto (by decide), hnone .rxFocus (by decide), hnone .ears (by decide)]
  simp only [List.nil_append]

end Reports

namespace Mcp

variable {t : KeyerType} {m : Mcp} {r : Reports} {state : List UInt8}

theorem txFocus_eq (hs : state.length = 8) (hr : r.mok.length = 8) :
    (if toU8 (mk2rGetMokValue state "txFocus") ≠ mk2rGetMokValue r.mok "txFocus" then
      [sendResponseInt ['F', 'T'] (toU8 (mk2rGetMokValue state "txFocus") + 1)] else []) =
    r.news t { r with mok := state } .txFocus := by
  have hmem : ("txFocus", 0, 0) ∈ mokBits := by decide
  rw [getMok_bit hs hmem, getMok_bit hr hmem]
  unfold Reports.news Reports.line Reports.arg
  dsimp only
  cases BitField.bit state 0 0 <;> cases BitField.bit r.mok 0 0 <;> rfl

theorem focusAuto_eq (hs : state.length = 8) (hr : r.mok.length = 8) :
    (if toU8 (mk2rGetMokValue state "focusAuto") ≠ mk2rGetMokValue r.mok "focusAuto" then
      [sendResponseInt ['F', 'T', 'A'] (toU8 (mk2rGetMokValue state "focusAuto"))] else []) =
    r.news t { r with mok := state } .focusAuto := by
  have hmem : ("focusAuto", 1, 5) ∈ mokBits := by decide
  rw [getMok_bit hs hmem, getMok_bit hr hmem]
  unfold Reports.news Reports.line Reports.arg
  dsimp only
  cases BitField.bit state 1 5 <;> cases BitField.bit r.mok 1 5 <;> rfl

theorem focus_iff : ∀ rx st auto rx' st' : Bool,
    (if toU8 (if rx then 1 else 0) ≠ (if rx' then 1 else 0) ∨
        toU8 (if st then 1 else 0) ≠ (if st' then 1 else 0) then
      [if toU8 (if st then 1 else 0) ≠ 0 then sendResponse ['F', 'R', 'S'] []
      else sendResponseInt ['F', 'R'] (toU8 (if auto then 1 else 0) + 1)] else []) =
    (if Reports.focusArg rx st ≠ Reports.focusArg rx' st' then
      [['F', 'R'] ++ Reports.focusArg rx st ++ ['\r']] else []) ↔
    rx = rx' ∧ st = st' ∨ st = true ∧ st' = false ∨ st = false ∧ rx = auto := by
  decide

/-- The response for the focus of the receivers has the value of automatic focus. -/
theorem rxFocus_eq_iff (hs : state.length = 8) (hr : r.mok.length = 8) :
    (if toU8 (mk2rGetMokValue state "rxFocus") ≠ mk2rGetMokValue r.mok "rxFocus" ∨
        toU8 (mk2rGetMokValue state "stereoFocus") ≠ mk2rGetMokValue r.mok "stereoFocus" then
      [if toU8 (mk2rGetMokValue state "stereoFocus") ≠ 0 then sendResponse ['F', 'R', 'S'] []
      else sendResponseInt ['F', 'R'] (toU8 (mk2rGetMokValue state "focusAuto") + 1)] else []) =
    r.news t { r with mok := state } .rxFocus ↔ FocusRegular state r.mok := by
  have hauto : ("focusAuto", 1, 5) ∈ mokBits := by decide
  have hrx : ("rxFocus", 0, 1) ∈ mokBits := by decide
  have hst : ("stereoFocus", 0, 2) ∈ mokBits := by decide
  rw [getMok_bit hs hauto, getMok_bit hs hrx, getMok_bit hs hst, getMok_bit hr hrx, getMok_bit hr hst]
  exact focus_iff (BitField.bit state 0 1) (BitField.bit state 0 2) (BitField.bit state 1 5)
    (BitField.bit r.mok 0 1)
    (BitField.bit r.mok 0 2)

theorem ears_response_eq (hs : state.length = 8) (hr : r.mok.length = 8) :
    (if mk2rGetMokValue state "ears.left.flags" ≠ mk2rGetMokValue r.mok "ears.left.flags" ∨
        mk2rGetMokValue state "ears.right.flags" ≠ mk2rGetMokValue r.mok "ears.right.flags" then
      [sendResponse ['F', 'R', 'D']
        (earsKeys.map fun key => if mk2rGetMokValue state key ≠ 0 then '1' else '0')] else []) =
    r.news t { r with mok := state } .ears := by
  have hlen : (['F', 'R', 'D'] ++ earsKeys.map (fun key => if mk2rGetMokValue state key ≠ 0 then '1' else '0') ++
      ['\r']).length ≤ 34 := by
    simp [earsKeys]
  unfold sendResponse
  rw [List.take_of_length_le hlen, ears_eq hs]
  exact if_congr (ears_ne_iff hs hr) rfl rfl

theorem getD_take {n i : Nat} (h : i < n) (s : List UInt8) : (s.take n).getD i 0 = s.getD i 0 := by
  rw [List.getD_eq_getElem?_getD, List.getD_eq_getElem?_getD, List.getElem?_take_of_lt h]

theorem focusRegular_take : FocusRegular (state.take 8) r.mok ↔ FocusRegular state r.mok := by
  unfold FocusRegular BitField.bit
  rw [getD_take (by decide), getD_take (by decide)]

theorem news_self (t : KeyerType) (r : Reports) : AutoItem.all.flatMap (r.news t r) = [] :=
  List.flatMap_eq_nil_iff.2 fun _ _ => Reports.news_of_eq rfl

/-- The responses for a focus state. -/
theorem mok_iff (hmok : m.mokState = r.mok) (hauto : m.autoInfoOn = r.auto) (hr : r.mok.length = 8)
    (state : List UInt8) : (m.mokStateChangedCb state).2 = r.lines t (.mok state) ↔
      (r.auto = true → 8 ≤ state.length → FocusRegular state r.mok) := by
  by_cases hlen : state.length < 8
  · have hcb : m.mokStateChangedCb state = (m, []) := if_pos hlen
    have hstep : r.step (.mok state) = r := if_pos hlen
    rw [hcb, Reports.lines, hstep, news_self]
    exact iff_of_true (ite_self _).symm fun _ h => absurd h (not_le.2 hlen)
  · have hcb : m.mokStateChangedCb state = ({ m with mokState := state.take 8 },
        if m.autoInfoOn then m.mokResponses (state.take 8) else []) := if_neg hlen
    have hstep : r.step (.mok state) = { r with mok := state.take 8 } := if_neg hlen
    rw [hcb, Reports.lines, hstep, hauto]
    cases hon : r.auto with
    | false => exact iff_of_true rfl fun h => by cases h
    | true =>
      have hs : (state.take 8).length = 8 := by
        rw [List.length_take]
        omega
      have hall : AutoItem.all.flatMap (r.news t { r with mok := state.take 8 }) = _ := Reports.flatMap_mok
      rw [if_pos rfl, if_pos rfl, ← hon, hall, ← focusRegular_take, ← rxFocus_eq_iff (t := t) hs hr]
      unfold mokResponses
      dsimp only
      rw [hmok, txFocus_eq (t := t) hs hr, focusAuto_eq (t := t) hs hr, ears_response_eq (t := t) hs hr,
        List.append_left_inj, List.append_right_inj]
      exact ⟨fun h _ _ => h, fun h => h rfl (not_lt.1 hlen)⟩

/-! ### Flags -/

theorem flagResponse_not_isLine (t : KeyerType) (m : Mcp) (x : Char) (mask : UInt8) :
    ¬ IsLine (flagResponse t m [x] mask) := by
  rintro ⟨-, h⟩
  refine h ?_
  unfold flagResponse sendResponse
  cases t.twoRadios <;> simp

/-- The responses for one byte of flags, of the processor after it. -/
theorem flagsCb_byte (t : KeyerType) (m : Mcp) (c : UInt8) :
    (m.flagsCb t [c]).2 =
      [(['P'], MHD2CFL_ANY_PTT), (['H'], MHD2CFL_FOOTSWITCH), (['L'], MHD2CFL_LOCKOUT)].flatMap fun p =>
        if m.autoInfoOn && (if c &&& MHD2CFL_R2 ≠ 0 then m.flag2 else m.flag1) &&& p.2 != c &&& p.2 then
          [flagResponse t (m.flagsCb t [c]).1 p.1 p.2] else [] := by
  have hauto : (m.flagsCb t [c]).1.autoInfoOn = m.autoInfoOn := by
    unfold flagsCb flagByte
    dsimp only [List.foldl]
    split_ifs <;> rfl
  simp only [List.flatMap_cons, List.flatMap_nil, List.append_nil, ← List.append_assoc, ← hauto]
  rfl

theorem flag_news (mask : UInt8) {c : UInt8}
    (h : c &&& mask = (if c &&& MHD2CFL_R2 ≠ 0 then r.flag2 else r.flag1) &&& mask) :
    (r.step (.flags c)).flagArg t mask = r.flagArg t mask := by
  unfold Reports.step Reports.flagArg
  dsimp only
  split_ifs at h ⊢ <;> simp only [h]

/-- With auto-information on the flags must not change: a response that's sent has two carriage returns. -/
theorem flags_iff (h1 : m.flag1 = r.flag1) (h2 : m.flag2 = r.flag2) (hauto : m.autoInfoOn = r.auto) (c : UInt8) :
    (m.flagsCb t [c]).2 = r.lines t (.flags c) ↔
      (r.auto = true → ∀ mask ∈ [MHD2CFL_ANY_PTT, MHD2CFL_FOOTSWITCH, MHD2CFL_LOCKOUT],
        c &&& mask = (if c &&& MHD2CFL_R2 ≠ 0 then r.flag2 else r.flag1) &&& mask) := by
  have hsent := flagsCb_byte t m c
  rw [h1, h2, hauto] at hsent
  cases hon : r.auto with
  | false =>
    rw [hon] at hsent
    refine iff_of_true (hsent.trans ?_) fun h => by cases h
    unfold Reports.lines
    rw [hon]
    rfl
  | true =>
    rw [hon] at hsent
    constructor
    · intro h _ mask hmask
      by_contra hne
      have hsends : ∃ x, flagResponse t (m.flagsCb t [c]).1 [x] mask ∈ (m.flagsCb t [c]).2 := by
        have hb : (true && (if c &&& MHD2CFL_R2 ≠ 0 then r.flag2 else r.flag1) &&& mask != c &&& mask) = true := by
          rw [Bool.true_and, bne_iff_ne]
          exact fun heq => hne heq.symm
        simp only [List.mem_cons, List.not_mem_nil, or_false] at hmask
        rw [hsent]
        rcases hmask with rfl | rfl | rfl
        · exact ⟨'P', List.mem_flatMap.2 ⟨_, List.mem_cons_self, by simp only [hb]; exact List.mem_singleton_self _⟩⟩
        · exact ⟨'H', List.mem_flatMap.2
            ⟨_, List.mem_cons_of_mem _ List.mem_cons_self, by simp only [hb]; exact List.mem_singleton_self _⟩⟩
        · exact ⟨'L', List.mem_flatMap.2 ⟨_, List.mem_cons_of_mem _ (List.mem_cons_of_mem _ List.mem_cons_self),
            by simp only [hb]; exact List.mem_singleton_self _⟩⟩
      obtain ⟨x, hx⟩ := hsends
      rw [h] at hx
      exact flagResponse_not_isLine t _ x mask (Reports.isLine_of_mem_lines hx)
    · intro h
      have hmasks := h rfl
      have hsilent : (m.flagsCb t [c]).2 = [] := by
        rw [hsent]
        refine List.flatMap_eq_nil_iff.2 fun p hp => if_neg ?_
        have hmask : p.2 ∈ [MHD2CFL_ANY_PTT, MHD2CFL_FOOTSWITCH, MHD2CFL_LOCKOUT] := by
          simp only [List.mem_cons, List.not_mem_nil, or_false] at hp
          rcases hp with rfl | rfl | rfl <;> simp
        rw [Bool.true_and, bne_iff_ne]
        exact not_not_intro (hmasks _ hmask).symm
      rw [hsilent]
      unfold Reports.lines
      rw [hon, if_pos rfl]
      refine (List.flatMap_eq_nil_iff.2 fun i _ => Reports.news_of_eq ?_).symm
      cases i with
      | ptt => exact flag_news _ (hmasks _ (by simp))
      | footswitch => exact flag_news _ (hmasks _ (by simp))
      | lockout => exact flag_news _ (hmasks _ (by simp))
      | txFocus | focusAuto | rxFocus | ears | acc1 | acc2 =>
        unfold Reports.step
        dsimp only
        split_ifs <;> rfl

/-! ### Accessory outputs -/

/-- A pair of bytes as the number that the responses are made of. -/
def accInt (hi lo : UInt8) : Nat := hi.toNat * 256 + lo.toNat

variable {hi lo hi' lo' : UInt8}

theorem accInt_lt (hi lo : UInt8) : accInt hi lo < 2 ^ 16 := by
  have hhi := hi.toNat_lt
  have hlo := lo.toNat_lt
  unfold accInt
  omega

theorem testBit_accInt (hi lo : UInt8) (k : Nat) :
    (accInt hi lo).testBit k = if k < 8 then lo.toNat.testBit k else hi.toNat.testBit (k - 8) := by
  have hpow : accInt hi lo = 2 ^ 8 * hi.toNat + lo.toNat := by
    unfold accInt
    omega
  rw [hpow, Nat.testBit_two_pow_mul_add _ lo.toNat_lt]

theorem byteArgs_eq (hi lo : UInt8) : Reports.byteArg hi ++ Reports.byteArg lo =
    (List.range 16).map fun i => Reports.digit ((accInt hi lo).testBit (15 - i)) := by
  have hrange : List.range 16 = List.range 8 ++ (List.range 8).map (· + 8) := rfl
  rw [hrange, List.map_append, List.map_map]
  unfold Reports.byteArg
  refine congrArg₂ _ (List.map_congr_left fun i hi' => ?_) (List.map_congr_left fun i hi' => ?_)
  · have hlt := List.mem_range.1 hi'
    rw [testBit_accInt, if_neg (by omega)]
    exact congrArg (fun k => Reports.digit (hi.toNat.testBit k)) (by omega)
  · rw [Function.comp_apply, testBit_accInt, if_pos (by omega)]
    exact congrArg (fun k => Reports.digit (lo.toNat.testBit k)) (by omega)

theorem accInt_inj : accInt hi lo = accInt hi' lo' ↔ (hi, lo) = (hi', lo') := by
  rw [Prod.mk.injEq, ← UInt8.toNat_inj, ← UInt8.toNat_inj]
  have hlo := lo.toNat_lt
  have hlo' := lo'.toNat_lt
  unfold accInt
  omega

theorem byteArgs_inj : Reports.byteArg hi ++ Reports.byteArg lo = Reports.byteArg hi' ++ Reports.byteArg lo' ↔
    (hi, lo) = (hi', lo') := by
  refine ⟨fun h => accInt_inj.1 (Nat.eq_of_testBit_eq fun k => ?_), fun h => by cases h; rfl⟩
  by_cases hk : k < 16
  · rw [byteArgs_eq, byteArgs_eq, List.map_inj_left] at h
    have hbit := digit_inj.1 (h (15 - k) (List.mem_range.2 (by omega)))
    rwa [show 15 - (15 - k) = k by omega] at hbit
  · have hbig : 2 ^ 16 ≤ 2 ^ k := Nat.pow_le_pow_right (by decide) (not_lt.1 hk)
    rw [Nat.testBit_lt_two_pow ((accInt_lt hi lo).trans_le hbig),
      Nat.testBit_lt_two_pow ((accInt_lt hi' lo').trans_le hbig)]

theorem shiftRight_ne_zero_of_testBit {v k : Nat} (h : v.testBit k = true) : v >>> k ≠ 0 := by
  intro hzero
  have hbit : (v >>> k).testBit 0 = v.testBit k := by rw [Nat.testBit_shiftRight, Nat.add_zero]
  rw [hzero, Nat.zero_testBit, h] at hbit
  cases hbit

/-- The bits of a pair are shown as they are exactly if the ones are the lowest of them. -/
theorem accArg_iff : accArg hi lo = Reports.byteArg hi ++ Reports.byteArg lo ↔ Staircase hi lo := by
  have hbits : accArg hi lo = Reports.byteArg hi ++ Reports.byteArg lo ↔
      ∀ k < 16, accInt hi lo >>> k ≠ 0 → (accInt hi lo).testBit k = true := by
    have harg : accArg hi lo =
        (List.range 16).map fun i => Reports.digit (decide (accInt hi lo >>> (15 - i) ≠ 0)) := by
      refine List.map_congr_left fun i _ => ?_
      unfold Reports.digit accInt
      simp only [decide_eq_true_eq]
    rw [harg, byteArgs_eq, List.map_inj_left]
    simp only [List.mem_range, digit_inj]
    constructor
    · intro h k hk hne
      have hbit := h (15 - k) (by omega)
      rw [show 15 - (15 - k) = k by omega] at hbit
      rw [← hbit, decide_eq_true hne]
    · intro h i hi'
      cases hbit : (accInt hi lo).testBit (15 - i) with
      | true => exact decide_eq_true (shiftRight_ne_zero_of_testBit hbit)
      | false =>
        refine decide_eq_false fun hne => ?_
        rw [h (15 - i) (by omega) hne] at hbit
        cases hbit
  rw [hbits]
  constructor
  · intro h k hk hbit
    refine h k (by omega) fun hzero => ?_
    have hsucc : (accInt hi lo >>> k).testBit 1 = (accInt hi lo).testBit (k + 1) := by
      rw [Nat.testBit_shiftRight]
    rw [hzero, Nat.zero_testBit] at hsucc
    exact absurd (hsucc.trans hbit) (by decide)
  · intro h k hk hne
    obtain ⟨j, hj⟩ := Nat.exists_testBit_of_ne_zero hne
    rw [Nat.testBit_shiftRight] at hj
    -- from the highest one downward
    induction j generalizing k with
    | zero => exact hj
    | succ j ih =>
      have hbelow : k + (j + 1) < 16 := by
        by_contra hge
        have hbig : 2 ^ 16 ≤ 2 ^ (k + (j + 1)) := Nat.pow_le_pow_right (by decide) (not_lt.1 hge)
        rw [Nat.testBit_lt_two_pow ((accInt_lt hi lo).trans_le hbig)] at hj
        cases hj
      exact ih k hk hne (h (k + j) (by omega) hj)

/-- The response for one pair of outputs. -/
theorem acc_pair_iff {state kept last : List UInt8} (x : Char) (auto : Bool) (i : Nat) :
    (if state.getD i 0 != kept.getD i 0 || state.getD (i + 1) 0 != kept.getD (i + 1) 0 then
      [sendResponse ['A', 'M', x] (accArg (state.getD i 0) (state.getD (i + 1) 0))] else []) =
    (if auto then
      (if Reports.byteArg (state.getD i 0) ++ Reports.byteArg (state.getD (i + 1) 0) ≠
          Reports.byteArg (last.getD i 0) ++ Reports.byteArg (last.getD (i + 1) 0) then
        [['A', 'M', x] ++ (Reports.byteArg (state.getD i 0) ++ Reports.byteArg (state.getD (i + 1) 0)) ++ ['\r']]
      else [])
    else []) ↔ AccRegular auto state kept last i := by
  have hresponse : sendResponse ['A', 'M', x] (accArg (state.getD i 0) (state.getD (i + 1) 0)) =
      ['A', 'M', x] ++ accArg (state.getD i 0) (state.getD (i + 1) 0) ++ ['\r'] := by
    unfold sendResponse
    exact List.take_of_length_le (by simp [accArg])
  have hdiffer : (state.getD i 0 != kept.getD i 0 || state.getD (i + 1) 0 != kept.getD (i + 1) 0) = true ↔
      ¬ (state.getD i 0, state.getD (i + 1) 0) = (kept.getD i 0, kept.getD (i + 1) 0) := by
    rw [Prod.mk.injEq, not_and_or, Bool.or_eq_true, bne_iff_ne, bne_iff_ne]
  rw [hresponse]
  simp only [ne_eq, byteArgs_inj]
  unfold AccRegular
  dsimp only
  by_cases hkept : (state.getD i 0, state.getD (i + 1) 0) = (kept.getD i 0, kept.getD (i + 1) 0)
  · rw [if_neg (not_iff_not.2 hdiffer |>.2 (not_not_intro hkept)), if_pos hkept]
    cases auto with
    | false => exact iff_of_true rfl fun h => by cases h
    | true =>
      rw [if_pos rfl]
      by_cases hlast : (state.getD i 0, state.getD (i + 1) 0) = (last.getD i 0, last.getD (i + 1) 0)
      · rw [if_neg (not_not_intro hlast)]
        exact iff_of_true rfl fun _ => hlast
      · rw [if_pos hlast]
        exact iff_of_false (List.cons_ne_nil _ _).symm fun h => hlast (h rfl)
  · rw [if_pos (hdiffer.2 hkept), if_neg hkept]
    cases auto with
    | false => exact iff_of_false (List.cons_ne_nil _ _) fun h => absurd h.1 (by decide)
    | true =>
      rw [if_pos rfl]
      by_cases hlast : (state.getD i 0, state.getD (i + 1) 0) = (last.getD i 0, last.getD (i + 1) 0)
      · rw [if_neg (not_not_intro hlast)]
        exact iff_of_false (List.cons_ne_nil _ _) fun h => h.2.1 hlast
      · rw [if_pos hlast, List.cons.injEq, List.append_left_inj, List.append_right_inj, accArg_iff]
        exact ⟨fun h => ⟨rfl, hlast, h.1⟩, fun h => ⟨h.2.2, rfl⟩⟩

/-- Two lists of two parts each, told apart by a predicate. -/
theorem append_inj_of_part {as bs as' bs' : List Text} {p : Text → Bool} (has : ∀ l ∈ as, p l = true)
    (has' : ∀ l ∈ as', p l = true) (hbs : ∀ l ∈ bs, p l = false) (hbs' : ∀ l ∈ bs', p l = false) :
    as ++ bs = as' ++ bs' ↔ as = as' ∧ bs = bs' := by
  constructor
  · intro h
    have hparts : (as ++ bs).filter p = (as' ++ bs').filter p := by rw [h]
    have hnone : bs.filter p = [] := List.filter_eq_nil_iff.2 fun l hl => by simp [hbs l hl]
    have hnone' : bs'.filter p = [] := List.filter_eq_nil_iff.2 fun l hl => by simp [hbs' l hl]
    rw [List.filter_append, List.filter_append, List.filter_eq_self.2 has, List.filter_eq_self.2 has', hnone,
      hnone',
      List.append_nil, List.append_nil] at hparts
    subst hparts
    exact ⟨rfl, List.append_cancel_left h⟩
  · rintro ⟨rfl, rfl⟩
    rfl

theorem accRegular_take {auto : Bool} {kept last : List UInt8} {i : Nat} (hi : i + 1 < 4) :
    AccRegular auto (state.take 4) kept last i ↔ AccRegular auto state kept last i := by
  unfold AccRegular
  simp only [getD_take (Nat.lt_of_succ_lt hi), getD_take hi]

/-- The responses for a report of outputs. -/
theorem acc_iff (m : Mcp) (r : Reports) (state : List UInt8) :
    (m.accStateChangedCb state).2 = r.lines t (.acc state) ↔
      (4 ≤ state.length → ∀ i ∈ [0, 2], AccRegular r.auto state m.accState r.acc i) := by
  by_cases hlen : state.length < 4
  · have hcb : m.accStateChangedCb state = (m, []) := if_pos hlen
    have hstep : r.step (.acc state) = r := if_pos hlen
    rw [hcb, Reports.lines, hstep, news_self]
    exact iff_of_true (ite_self _).symm fun h => absurd h (not_le.2 hlen)
  · have hstep : r.step (.acc state) = { r with acc := state.take 4 } := if_neg hlen
    have hlines : r.lines t (.acc state) =
        (if r.auto then r.news t { r with acc := state.take 4 } .acc1 else []) ++
          (if r.auto then r.news t { r with acc := state.take 4 } .acc2 else []) := by
      rw [Reports.lines, hstep]
      cases hon : r.auto with
      | false => rfl
      | true =>
        rw [if_pos rfl, if_pos rfl, if_pos rfl, ← hon]
        exact Reports.flatMap_acc
    have htake (i : Nat) (hi : i + 1 < 4) :
        AccRegular r.auto (state.take 4) m.accState r.acc i ↔ AccRegular r.auto state m.accState r.acc i :=
      accRegular_take hi
    have hsent (x : Char) (i : Nat) (hi : i + 1 < 4) := (acc_pair_iff x r.auto i).trans (htake i hi)
    have htag (x : Char) (b : Bool) (u : Text) :
        ∀ l ∈ (if b then [sendResponse ['A', 'M', x] u] else []), l[2]? = some x := by
      intro l hl
      split_ifs at hl
      · rw [List.mem_singleton.1 hl]
        rfl
      · exact absurd hl List.not_mem_nil
    have hnews (i : AutoItem) (x : Char) (hcmd : i.cmd = ['A', 'M', x]) :
        ∀ l ∈ (if r.auto then r.news t { r with acc := state.take 4 } i else []), l[2]? = some x := by
      intro l hl
      unfold Reports.news Reports.line at hl
      rw [hcmd] at hl
      split_ifs at hl
      · rw [List.mem_singleton.1 hl]
        rfl
      all_goals exact absurd hl List.not_mem_nil
    unfold accStateChangedCb
    rw [if_neg hlen, hlines]
    dsimp only
    rw [append_inj_of_part (p := fun l => l[2]? == some '1') (fun l hl => by rw [htag _ _ _ l hl]; decide)
      (fun l hl => by rw [hnews .acc1 '1' rfl l hl]; decide) (fun l hl => by rw [htag _ _ _ l hl]; decide)
      (fun l hl => by rw [hnews .acc2 '2' rfl l hl]; decide)]
    have hboth : ((4 ≤ state.length → ∀ i ∈ [0, 2], AccRegular r.auto state m.accState r.acc i)) ↔
        AccRegular r.auto state m.accState r.acc 0 ∧ AccRegular r.auto state m.accState r.acc 2 := by
      simp [not_lt.1 hlen]
    rw [hboth]
    exact and_congr (hsent '1' 0 (by decide)) (hsent '2' 2 (by decide))

/-! ### The focus of the client -/

theorem hfocus_plain : ∀ i ∈ mk2rHfocusItems, i.convIn = none ∧ i.convOut = none := by decide

theorem hfocus_ok : ItemTable mk2rHfocusItems where
  ok := by decide +kernel
  apart := by decide +kernel
  conv := fun i hi => .inl (hfocus_plain i hi)

/-- The keys that commands set. -/
def hfocusKeys : List String := ["txFocus", "rxFocus", "stereoFocus", "directControl"] ++ earsKeys

theorem hfocusKeys_accepted : ∀ key ∈ hfocusKeys, ∀ b : Bool, Citem.Accepts mk2rHfocusItems 4 key b.toInt := by
  decide +kernel

variable {hf : List UInt8}

/-- A key that's set has its value, and the others keep theirs. -/
theorem hfocus_set (hlen : hf.length = 4) {key : String} (hkey : key ∈ hfocusKeys) (b : Bool) :
    (mk2rSetHfocusValue hf key b.toInt).length = 4 ∧
      hfocusValue (mk2rSetHfocusValue hf key b.toInt) = Function.update (hfocusValue hf) key b.toInt := by
  have hacc := hfocusKeys_accepted key hkey b
  rw [← hlen] at hacc
  have hset : Citem.SetGet mk2rHfocusItems hf key b.toInt := by
    refine ⟨fun ha i hi => ?_, fun hn => absurd hacc hn⟩
    refine Citem.setGet_accepted hfocus_ok hi ha fun hsome => ?_
    rw [(hfocus_plain i (Citem.find_mem hi)).1] at hsome
    cases hsome
  have hstep := Citem.getValue_step ⟨key, b.toInt⟩ hset
  refine ⟨(Citem.length_setStep ⟨key, b.toInt⟩ hset).trans hlen, hstep.trans ?_⟩
  unfold Citem.valuesStep
  rw [if_pos hacc]
  rfl

theorem digit_toInt (b : Bool) : (if Reports.digit b = '1' then 1 else 0 : Int) = b.toInt := by cases b <;> rfl

/-- Different keys set one after the other. -/
theorem hfocus_fold {f : Nat × Nat → Bool} {ps : List (String × Nat × Nat)} (hlen : hf.length = 4)
    (hkeys : ∀ p ∈ ps, p.1 ∈ hfocusKeys) (hnd : (ps.map Prod.fst).Nodup) :
    let hf' := ps.foldl (fun hf p => mk2rSetHfocusValue hf p.1 (f p.2).toInt) hf
    hf'.length = 4 ∧ (∀ p ∈ ps, hfocusValue hf' p.1 = (f p.2).toInt) ∧
      ∀ key ∉ ps.map Prod.fst, hfocusValue hf' key = hfocusValue hf key := by
  induction ps generalizing hf with
  | nil => exact ⟨hlen, fun p hp => absurd hp List.not_mem_nil, fun key _ => rfl⟩
  | cons p ps ih =>
    rw [List.map_cons, List.nodup_cons] at hnd
    obtain ⟨hlen', hval⟩ := hfocus_set hlen (hkeys p List.mem_cons_self) (f p.2)
    obtain ⟨hlast, hthese, hothers⟩ := ih hlen' (fun q hq => hkeys q (List.mem_cons_of_mem _ hq)) hnd.2
    refine ⟨hlast, fun q hq => ?_, fun key hkey => ?_⟩
    · rcases List.mem_cons.1 hq with rfl | hq
      · exact (hothers _ hnd.1).trans (by rw [hval, Function.update_self])
      · exact hthese q hq
    · rw [List.map_cons, List.mem_cons, not_or] at hkey
      exact (hothers key hkey.2).trans (by rw [hval, Function.update_of_ne hkey.1])

theorem ears_arg (t : KeyerType) (r : Reports) :
    r.arg t .ears = earsPlaces.map fun p => Reports.digit (BitField.bit r.mok p.1 p.2) := rfl

/-- `FRD` sets what is heard in the ears. -/
theorem focusCmd_ears (hlen : hf.length = 4) (t : KeyerType) (r : Reports) :
    ∃ hf' ∈ focusCmd hf (AutoItem.ears.cmd ++ r.arg t .ears), ∀ p ∈ earsKeys.zip earsPlaces,
      hfocusValue hf' p.1 = (BitField.bit r.mok p.2.1 p.2.2).toInt := by
  have hkeys : ∀ p ∈ earsKeys.zip earsPlaces, p.1 ∈ hfocusKeys := fun p hp =>
    List.mem_append_right _ (List.of_mem_zip hp).1
  obtain ⟨hlen', hears, -⟩ := hfocus_fold (f := fun p => BitField.bit r.mok p.1 p.2) hlen hkeys (by decide)
  have hfold : (earsKeys.zip (r.arg t .ears)).foldl
        (fun hf kc => mk2rSetHfocusValue hf kc.1 (if kc.2 = '1' then 1 else 0)) hf =
      (earsKeys.zip earsPlaces).foldl
        (fun hf p => mk2rSetHfocusValue hf p.1 (BitField.bit r.mok p.2.1 p.2.2).toInt) hf := by
    rw [ears_arg, List.zip_map_right, List.foldl_map]
    simp only [Prod.map_fst, Prod.map_snd, id_eq, digit_toInt]
  have hvalid : (r.arg t .ears).length = 12 ∧ (r.arg t .ears).all (fun c => c == '0' || c == '1') = true := by
    rw [ears_arg, List.length_map, List.all_map]
    refine ⟨rfl, List.all_eq_true.2 fun p _ => ?_⟩
    rw [Function.comp_apply]
    cases BitField.bit r.mok p.1 p.2 <;> rfl
  have hcmd : focusCmd hf (AutoItem.ears.cmd ++ r.arg t .ears) = frdToHfocus hf (r.arg t .ears) := rfl
  rw [hcmd]
  unfold frdToHfocus
  rw [if_pos hvalid, hfold]
  refine ⟨_, rfl, fun p hp => ?_⟩
  have hdirect : "directControl" ∈ hfocusKeys := by decide
  have hne : p.1 ≠ "directControl" := fun h => by
    have hmem := (List.of_mem_zip hp).1
    rw [h] at hmem
    exact absurd hmem (by decide)
  have hset := (hfocus_set hlen' hdirect true).2
  exact (congrFun hset p.1).trans ((Function.update_of_ne hne _ _).trans (hears p hp))

theorem focusCmd_txFocus (hlen : hf.length = 4) (t : KeyerType) (r : Reports) :
    ∃ hf' ∈ focusCmd hf (AutoItem.txFocus.cmd ++ r.arg t .txFocus),
      hfocusValue hf' "txFocus" = (BitField.bit r.mok 0 0).toInt := by
  have hset (b : Bool) := (hfocus_set hlen (show "txFocus" ∈ hfocusKeys by decide) b).2
  unfold Reports.arg
  dsimp only
  cases BitField.bit r.mok 0 0 with
  | false => exact ⟨_, rfl, (congrFun (hset false) "txFocus").trans (Function.update_self ..)⟩
  | true => exact ⟨_, rfl, (congrFun (hset true) "txFocus").trans (Function.update_self ..)⟩

/-- `FR1` and `FR2` set the focus and end stereo, `FRS` turns stereo on. -/
theorem focusCmd_rxFocus (hlen : hf.length = 4) (t : KeyerType) (r : Reports) :
    ∃ hf' ∈ focusCmd hf (AutoItem.rxFocus.cmd ++ r.arg t .rxFocus),
      Reports.focusArg (hfocusValue hf' "rxFocus" == 1) (hfocusValue hf' "stereoFocus" == 1) = r.arg t .rxFocus := by
  have hrx : "rxFocus" ∈ hfocusKeys := by decide
  have hstereo : "stereoFocus" ∈ hfocusKeys := by decide
  have hdirect : "directControl" ∈ hfocusKeys := by decide
  show ∃ hf' ∈ focusCmd hf (['F', 'R'] ++ Reports.focusArg (BitField.bit r.mok 0 1) (BitField.bit r.mok 0 2)),
    Reports.focusArg (hfocusValue hf' "rxFocus" == 1) (hfocusValue hf' "stereoFocus" == 1) =
      Reports.focusArg (BitField.bit r.mok 0 1) (BitField.bit r.mok 0 2)
  cases BitField.bit r.mok 0 2 with
  | true =>
    obtain ⟨hlen1, hval1⟩ := hfocus_set hlen hstereo true
    obtain ⟨-, hval2⟩ := hfocus_set hlen1 hdirect false
    refine ⟨mk2rSetHfocusValue (mk2rSetHfocusValue hf "stereoFocus" true.toInt) "directControl" false.toInt, rfl, ?_⟩
    rw [hval2, hval1]
    rfl
  | false =>
    have hsets (b : Bool) : let hf' := mk2rSetHfocusValue (mk2rSetHfocusValue (mk2rSetHfocusValue hf "rxFocus" b.toInt)
        "stereoFocus" false.toInt) "directControl" false.toInt
        Reports.focusArg (hfocusValue hf' "rxFocus" == 1) (hfocusValue hf' "stereoFocus" == 1) =
          Reports.focusArg b false := by
      obtain ⟨hlen1, hval1⟩ := hfocus_set hlen hrx b
      obtain ⟨hlen2, hval2⟩ := hfocus_set hlen1 hstereo false
      obtain ⟨-, hval3⟩ := hfocus_set hlen2 hdirect false
      dsimp only
      rw [hval3, hval2, hval1]
      cases b <;> rfl
    cases BitField.bit r.mok 0 1 with
    | true => exact ⟨_, rfl, hsets true⟩
    | false => exact ⟨_, rfl, hsets false⟩

/-! ### Commands for the outputs -/

/-- The first bits of the argument, the highest first. -/
theorem amBits_range {v : Nat} (hv : v < 2 ^ 16) (n : Nat) (hn : n ≤ 16) :
    ∃ x, (List.range n).foldlM (fun acc i => if Reports.digit (v.testBit (15 - i)) = '0' then some acc
        else if Reports.digit (v.testBit (15 - i)) = '1' then some (acc ||| 1 <<< (15 - i)) else none) 0 = some x ∧
      ∀ k, x.testBit k = (decide (16 - n ≤ k) && v.testBit k) := by
  induction n with
  | zero =>
    refine ⟨0, rfl, fun k => ?_⟩
    rw [Nat.zero_testBit]
    by_cases hk : 16 ≤ k
    · have hbig : 2 ^ 16 ≤ 2 ^ k := Nat.pow_le_pow_right (by decide) hk
      rw [Nat.testBit_lt_two_pow (hv.trans_le hbig), Bool.and_false]
    · rw [decide_eq_false hk, Bool.false_and]
  | succ n ih =>
    obtain ⟨x, hx, hbits⟩ := ih (by omega)
    rw [List.range_succ, List.foldlM_append, hx]
    cases hbit : v.testBit (15 - n) with
    | false =>
      refine ⟨x, by simp [Reports.digit, hbit], fun k => ?_⟩
      rw [hbits]
      by_cases hk : k = 15 - n
      · rw [hk, hbit, Bool.and_false, Bool.and_false]
      · exact congrArg (· && _) (decide_eq_decide.2 (by omega))
    | true =>
      refine ⟨x ||| 1 <<< (15 - n), by simp [Reports.digit, hbit], fun k => ?_⟩
      rw [Nat.testBit_or, hbits, Nat.one_shiftLeft, Nat.testBit_two_pow]
      by_cases hk : k = 15 - n
      · rw [hk, hbit]
        simp
      · rw [decide_eq_false (p := 15 - n = k) (fun h => hk h.symm), Bool.or_false]
        exact congrArg (· && _) (decide_eq_decide.2 (by omega))

theorem amBits_byteArgs (hi lo : UInt8) : amBits (Reports.byteArg hi ++ Reports.byteArg lo) =
    some (accInt hi lo) := by
  obtain ⟨x, hx, hbits⟩ := amBits_range (accInt_lt hi lo) 16 le_rfl
  have hxv : x = accInt hi lo := Nat.eq_of_testBit_eq fun k => by simp [hbits]
  have hzip (f : Nat → Char) : ((List.range 16).map f).zipIdx = (List.range 16).map fun i => (f i, i) := rfl
  rw [← hxv, ← hx, byteArgs_eq]
  unfold amBits
  rw [hzip, List.foldlM_map]

theorem length_byteArgs (hi lo : UInt8) : (Reports.byteArg hi ++ Reports.byteArg lo).length = 16 := by
  rw [byteArgs_eq, List.length_map, List.length_range]

/-- `AM1` and `AM2` with an argument. -/
theorem cmdAm_set (outputs : List UInt8) (x : Char) (hi lo : UInt8) :
    (cmdAm outputs (['A', 'M', x] ++ (Reports.byteArg hi ++ Reports.byteArg lo))).1 =
      (outputs.set (if some x = some '2' then 2 else 0) hi).set ((if some x = some '2' then 2 else 0) + 1) lo := by
  have hlen : (['A', 'M', x] ++ (Reports.byteArg hi ++ Reports.byteArg lo)).length = 19 := by
    rw [List.length_append, length_byteArgs]
    rfl
  have hdrop : (['A', 'M', x] ++ (Reports.byteArg hi ++ Reports.byteArg lo)).drop 3 =
      Reports.byteArg hi ++ Reports.byteArg lo := rfl
  have hthird : (['A', 'M', x] ++ (Reports.byteArg hi ++ Reports.byteArg lo))[2]? = some x := rfl
  have hhi : UInt8.ofNat (accInt hi lo / 256) = hi := by
    have hlo := lo.toNat_lt
    have hdiv : accInt hi lo / 256 = hi.toNat := by
      unfold accInt
      omega
    rw [hdiv, UInt8.ofNat_toNat]
  have hlo : UInt8.ofNat (accInt hi lo) = lo := by
    refine UInt8.toNat_inj.1 ?_
    have hlt := lo.toNat_lt
    rw [UInt8.toNat_ofNat']
    unfold accInt
    omega
  unfold cmdAm
  dsimp only
  rw [hlen, if_neg (by decide), if_pos rfl, hdrop, amBits_byteArgs, hthird]
  dsimp only
  rw [hhi, hlo]

/-- `AM1` and `AM2` without one. -/
theorem cmdAm_query (outputs : List UInt8) (x : Char) : (cmdAm outputs ['A', 'M', x]).2.1 =
    [['A', 'M', x] ++ (Reports.byteArg (outputs.getD (if some x = some '2' then 2 else 0) 0) ++
      Reports.byteArg (outputs.getD ((if some x = some '2' then 2 else 0) + 1) 0)) ++ ['\r']] := by
  unfold cmdAm
  dsimp only
  rw [if_pos (show ['A', 'M', x].length = 3 from rfl), show ['A', 'M', x][2]? = some x from rfl]
  dsimp only
  unfold sendResponse
  rw [List.take_of_length_le (by simp), byteArgs_eq]
  refine congrArg (fun u => [['A', 'M', x] ++ u ++ ['\r']]) (List.map_congr_left fun i _ => ?_)
  unfold Reports.digit accInt
  rw [Nat.testBit_eq_decide_div_mod_eq, Nat.shiftRight_eq_div_pow]
  simp only [decide_eq_true_eq]

/-- The commands of the client read every item as it is reported. -/
theorem decoded (t : KeyerType) (r : Reports) {outputs : List UInt8} (hlen : hf.length = 4) :
    r.Decoded t hf outputs where
  txFocus := focusCmd_txFocus hlen t r
  rxFocus := focusCmd_rxFocus hlen t r
  ears := focusCmd_ears hlen t r
  outputs := by
    intro p hp
    simp only [List.mem_cons, List.not_mem_nil, or_false] at hp
    rcases hp with rfl | rfl
    · exact ⟨cmdAm_set outputs '1' _ _, cmdAm_query r.acc '1'⟩
    · exact ⟨cmdAm_set outputs '2' _ _, cmdAm_query r.acc '2'⟩

/-! ### Runs -/

/-- The processor keeps the last reports, those of the outputs aside. -/
structure Follows (m : Mcp) (r : Reports) : Prop where
  flag1 : m.flag1 = r.flag1
  flag2 : m.flag2 = r.flag2
  mok : m.mokState = r.mok
  auto : m.autoInfoOn = r.auto
  length : r.mok.length = 8

theorem mokStateChangedCb_fst (m : Mcp) (state : List UInt8) :
    (m.mokStateChangedCb state).1 = if state.length < 8 then m else { m with mokState := state.take 8 } := by
  unfold mokStateChangedCb
  split_ifs <;> rfl

theorem accStateChangedCb_fst (m : Mcp) (state : List UInt8) :
    (m.accStateChangedCb state).1 = if state.length < 4 then m else { m with accState := state.take 4 } := by
  unfold accStateChangedCb
  by_cases hlen : state.length < 4
  · rw [if_pos hlen, if_pos hlen]
  · rw [if_neg hlen, if_neg hlen]

theorem follows_step (h : Follows m r) (e : McpEvent) : Follows (m.step t e).1 (r.step e) := by
  cases e with
  | flags c =>
    have hstep : (m.flagsCb t [c]).1 =
        if c &&& MHD2CFL_R2 ≠ 0 then { m with flag2 := c } else { m with flag1 := c } := rfl
    unfold step Reports.step
    dsimp only
    rw [hstep]
    split_ifs
    · exact ⟨h.flag1, rfl, h.mok, h.auto, h.length⟩
    · exact ⟨rfl, h.flag2, h.mok, h.auto, h.length⟩
  | mok state =>
    unfold step Reports.step
    dsimp only
    rw [mokStateChangedCb_fst]
    split_ifs with hlen
    · exact h
    · refine ⟨h.flag1, h.flag2, rfl, h.auto, ?_⟩
      rw [List.length_take]
      omega
  | acc state =>
    unfold step Reports.step
    dsimp only
    rw [accStateChangedCb_fst]
    split_ifs
    · exact h
    · exact ⟨h.flag1, h.flag2, h.mok, h.auto, h.length⟩
  | autoInfo on => exact ⟨h.flag1, h.flag2, h.mok, rfl, h.length⟩

theorem zero_follows : Follows zero ⟨0, 0, List.replicate 8 0, List.replicate 4 0, false⟩ :=
  ⟨rfl, rfl, rfl, rfl, rfl⟩

theorem create_follows (c : KeyerNow) : Follows (create c).1 (Reports.create c) := by
  unfold create Reports.create
  split_ifs
  · have hbuf : (c.stateBuf.take 8).length = 8 := by
      rw [List.length_take, c.stateLen]
      rfl
    have hacc : (c.stateBuf.take 4).length = 4 := by
      rw [List.length_take, c.stateLen]
      rfl
    dsimp only
    rw [accStateChangedCb_fst, mokStateChangedCb_fst, if_neg (by omega), if_neg (by omega),
      List.take_of_length_le hbuf.le]
    exact ⟨rfl, rfl, rfl, rfl, hbuf⟩
  · exact zero_follows

/-- A new processor is silent if it's not told of outputs. -/
theorem create_silent_iff (c : KeyerNow) : (create c).2 = [] ↔ CreateRegular c := by
  unfold CreateRegular create
  cases hon : c.online with
  | false => exact iff_of_true rfl fun h => by cases h
  | true =>
    have hmok : (zero.mokStateChangedCb (c.stateBuf.take 8)).2 = [] := by
      unfold mokStateChangedCb
      split_ifs with hlen hauto
      · rfl
      · exact absurd hauto (by decide)
      · rfl
    have hacc : ¬ (c.stateBuf.take 4).length < 4 := by
      rw [List.length_take, c.stateLen]
      decide
    have hkept : (zero.mokStateChangedCb (c.stateBuf.take 8)).1.accState = List.replicate 4 0 := by
      rw [mokStateChangedCb_fst]
      split_ifs <;> rfl
    rw [if_pos rfl]
    dsimp only
    rw [hmok, List.nil_append]
    unfold accStateChangedCb
    rw [if_neg hacc, hkept]
    have hget (i : Nat) (hi : i < 4) : ((c.stateBuf.take 4).take 4).getD i 0 = c.stateBuf.getD i 0 := by
      rw [getD_take hi, getD_take hi]
    have hpair (a b : UInt8) (l : Text) : (if a != 0 || b != 0 then [l] else []) = [] ↔ a = 0 ∧ b = 0 := by
      simp
    have hzero : (∀ i < 4, c.stateBuf.getD i 0 = 0) ↔ (c.stateBuf.getD 0 0 = 0 ∧ c.stateBuf.getD 1 0 = 0) ∧
        c.stateBuf.getD 2 0 = 0 ∧ c.stateBuf.getD 3 0 = 0 :=
      ⟨fun h => ⟨⟨h 0 (by decide), h 1 (by decide)⟩, h 2 (by decide), h 3 (by decide)⟩,
        fun h i hi => by interval_cases i <;> [exact h.1.1; exact h.1.2; exact h.2.1; exact h.2.2]⟩
    rw [List.append_eq_nil_iff]
    refine ((hpair _ _ _).and (hpair _ _ _)).trans ?_
    rw [hget 0 (by decide), hget 2 (by decide), hget (0 + 1) (by decide), hget (2 + 1) (by decide)]
    exact hzero.symm.trans ⟨fun h _ => h, fun h => h rfl⟩

/-- What is sent for an event is right exactly if the event is regular. -/
theorem notified_iff (h : Follows m r) (e : McpEvent) : Notified t (m, r) e ↔ McpRegular (m, r) e := by
  have hsent : Notified t (m, r) e ↔ (m.step t e).2 = r.lines t e := by
    refine ⟨fun hn => hn.1, fun heq => ⟨heq, fun l hl => ?_, fun hfocus outputs hlen _ => decoded t _ hlen⟩⟩
    rw [heq] at hl
    exact Reports.isLine_of_mem_lines hl
  rw [hsent]
  cases e with
  | flags c => exact flags_iff h.flag1 h.flag2 h.auto c
  | mok state => exact mok_iff h.mok h.auto h.length state
  | acc state => exact acc_iff m r state
  | autoInfo on =>
    refine iff_of_true ?_ trivial
    unfold Reports.lines
    split_ifs
    · exact (List.flatMap_eq_nil_iff.2 fun i _ => Reports.news_of_eq (by cases i <;> rfl)).symm
    · rfl

end Mcp

/-- A run tells a client of the items as they change exactly if its creation and every event are regular. -/
theorem mirrors_iff (t : KeyerType) (c : KeyerNow) (evs : List McpEvent) : Mirrors t c evs ↔
    CreateRegular c ∧ Run.StepsOk (mcpStep t) McpRegular ((Mcp.create c).1, Reports.create c) evs := by
  refine and_congr (Mcp.create_silent_iff c) (Run.stepsOk_congr_of_inv (I := fun s => s.1.Follows s.2) ?_ ?_
    (Mcp.create_follows c) evs)
  · exact fun s e h => Mcp.follows_step h e
  · exact fun s e h => Mcp.notified_iff h e

/-- A keyer online whose buffers are zero. -/
def KeyerNow.quiet : KeyerNow := ⟨true, List.replicate 13 0, List.replicate 8 0, rfl, rfl⟩

/-- The PTT of the first radio is reported with two carriage returns. -/
theorem mirrors_ptt : ¬ Mirrors .mk2r KeyerNow.quiet [.autoInfo true, .flags 0x04] := by
  rintro ⟨-, -, ⟨h, -⟩, -⟩
  exact absurd h (by decide)

-- the receiver focus on radio 2, reported as that on radio 1
example : ¬ Mirrors .mk2r KeyerNow.quiet [.autoInfo true, .mok [2, 0, 0, 0, 0, 0, 0, 0]] := by
  rintro ⟨-, -, ⟨h, -⟩, -⟩
  exact absurd h (by decide +kernel)

-- the second output of radio 1, with auto-information off
example : ¬ Mirrors .mk2r KeyerNow.quiet [.acc [0, 2, 0, 0]] := by
  rintro ⟨-, ⟨h, -⟩, -⟩
  exact absurd h (by decide)

end Mhuxd
