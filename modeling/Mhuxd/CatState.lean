import Mathlib

/-!
# The radio's state from CAT traffic (`cat_state.c`, `cat.h`)

Frequencies, modes and the VFO selection as the decoders read them, and the frames the decoders give
to their callback. Times are in milliseconds.
-/

namespace Mhuxd

/-! ### Frames -/

def CAT_MAX_CLIENTS : Nat := 9
/-- The decoders' `PEND_MAX` and `PEND_TIMEOUT_MS`. -/
def PEND_MAX : Nat := 8
def PEND_TIMEOUT_MS : Nat := 2000

inductive CatDir
  | host | own | radio
deriving DecidableEq

/-- `CAT_FRAME_...`. -/
inductive FrameKind
  | cmd | echo | reply | ack | nak | unsolicited | unmatched | foreign | bad | jam | dropped | error
deriving DecidableEq

/-- `struct cat_frame`; client 0 is none. -/
structure CatFrame where
  kind : FrameKind
  dir : CatDir
  tMs : Nat
  buf : List UInt8
  applied : Bool
  own : Bool
  client : Nat
deriving DecidableEq

/-- A call of the frame callback: the frame, and the lost commands the decoder has then. -/
structure Emit where
  frame : CatFrame
  lost : Nat
deriving DecidableEq

/-- A call of a decoder's feed function: bytes of a direction, for `.host` of a client. -/
structure Feed where
  dir : CatDir
  client : Nat
  buf : List UInt8
  tMs : Nat
deriving DecidableEq

/-- The framers of a decoder: one per client, mhuxd's own queries, the radio. -/
inductive Src
  | client (n : Nat) | own | radio
deriving DecidableEq

/-- The framer of a direction; `none` for a client out of range. -/
def Src.of (dir : CatDir) (client : Nat) : Option Src :=
  match dir with
  | .host => if 1 ≤ client ∧ client ≤ CAT_MAX_CLIENTS then some (.client client) else none
  | .own => some .own
  | .radio => some .radio

/-- The result of a function that applies a frame: -1, 0 or 1. -/
inductive Applied
  | bad | none | done
deriving DecidableEq

/-! ### The state -/

/-- `enum cat_mode`. -/
inductive CatMode
  | none | lsb | usb | cw | cwr | rtty | rttyr | am | ams | fm | wfm | pktlsb | pktusb | pktam | pktfm
  | fax | psk | pskr | other
deriving DecidableEq

/-- `struct cat_item`. -/
structure CatItem (α : Type) where
  val : α
  tMs : Nat
  valid : Bool
deriving DecidableEq

structure VfoState where
  freq : CatItem Nat
  mode : CatItem CatMode
  data : CatItem Bool
deriving DecidableEq

inductive Vfo
  | sel | unsel
deriving DecidableEq

/-- `struct cat_state`; `vfoAb` is true for VFO B. -/
structure CatState where
  sel : VfoState
  unsel : VfoState
  split : CatItem Bool
  vfoAb : CatItem Bool
  changes : Nat
deriving DecidableEq

def VfoState.zero : VfoState := ⟨⟨0, 0, false⟩, ⟨.none, 0, false⟩, ⟨false, 0, false⟩⟩

/-- `cat_mode_with_data`. -/
def CatMode.withData (base : CatMode) (data : Bool) : CatMode :=
  if data = false then base
  else
    match base with
    | .lsb => .pktlsb
    | .usb => .pktusb
    | .am => .pktam
    | .fm => .pktfm
    | m => m

/-- `mode_without_data`. -/
def CatMode.withoutData : CatMode → CatMode × Bool
  | .pktlsb => (.lsb, true)
  | .pktusb => (.usb, true)
  | .pktam => (.am, true)
  | .pktfm => (.fm, true)
  | m => (m, false)

namespace CatState

/-- `cat_state_init`. -/
def init : CatState := ⟨.zero, .zero, ⟨false, 0, false⟩, ⟨false, 0, false⟩, 0⟩

instance : Inhabited CatState := ⟨init⟩

def vfo (st : CatState) : Vfo → VfoState
  | .sel => st.sel
  | .unsel => st.unsel

def setVfo (st : CatState) (slot : Vfo) (v : VfoState) : CatState :=
  match slot with
  | .sel => { st with sel := v }
  | .unsel => { st with unsel := v }

/-- `item_set`: the item and what it adds to `changes`. -/
def itemSet {α : Type} [DecidableEq α] (it : CatItem α) (val : α) (t : Nat) : CatItem α × Nat :=
  (⟨val, t, true⟩, if it.valid = false ∨ it.val ≠ val then 1 else 0)

/-- `item_invalidate`. -/
def itemInvalidate {α : Type} (it : CatItem α) : CatItem α × Nat :=
  ({ it with valid := false }, if it.valid then 1 else 0)

/-- `cat_state_set_freq`. -/
def setFreq (st : CatState) (slot : Vfo) (hz : Nat) (t : Nat) : CatState :=
  let v := st.vfo slot
  let (freq, n) := itemSet v.freq hz t
  { st.setVfo slot { v with freq := freq } with changes := st.changes + n }

/-- `cat_state_set_data`. -/
def setData (st : CatState) (slot : Vfo) (data : Bool) (t : Nat) : CatState :=
  let v := st.vfo slot
  let (item, n) := itemSet v.data data t
  { st.setVfo slot { v with data := item } with changes := st.changes + n }

/-- `cat_state_set_mode`: a changed base mode invalidates the data flag. -/
def setMode (st : CatState) (slot : Vfo) (mode : CatMode) (t : Nat) : CatState :=
  if mode = .none then st
  else
    let v := st.vfo slot
    let (base, data) := mode.withoutData
    let (item, n) := if v.mode.valid = false ∨ v.mode.val ≠ base then itemInvalidate v.data else (v.data, 0)
    let (mode, m) := itemSet v.mode base t
    let st := { st.setVfo slot { v with mode := mode, data := item } with changes := st.changes + n + m }
    if data then st.setData slot true t else st

/-- `cat_state_set_split`. -/
def setSplit (st : CatState) (split : Bool) (t : Nat) : CatState :=
  let (item, n) := itemSet st.split split t
  { st with split := item, changes := st.changes + n }

/-- `swap_vfos`, `cat_state_exchange_vfos`. -/
def exchangeVfos (st : CatState) : CatState :=
  { st with sel := st.unsel, unsel := st.sel, changes := st.changes + if st.sel = st.unsel then 0 else 1 }

/-- The items of a slot are invalidated. -/
def invalidateVfo (st : CatState) (slot : Vfo) : CatState :=
  let v := st.vfo slot
  let (freq, n) := itemInvalidate v.freq
  let (mode, m) := itemInvalidate v.mode
  let (data, k) := itemInvalidate v.data
  { st.setVfo slot ⟨freq, mode, data⟩ with changes := st.changes + n + m + k }

/-- `cat_state_select_vfo`. -/
def selectVfo (st : CatState) (ab : Bool) (t : Nat) : CatState :=
  let st :=
    if st.vfoAb.valid then (if st.vfoAb.val ≠ ab then st.exchangeVfos else st)
    else (st.invalidateVfo .sel).invalidateVfo .unsel
  let (item, n) := itemSet st.vfoAb ab t
  { st with vfoAb := item, changes := st.changes + n }

/-- `cat_state_equalize_vfos`. -/
def equalizeVfos (st : CatState) : CatState :=
  { st with unsel := st.sel, changes := st.changes + if st.sel = st.unsel then 0 else 1 }

/-- `cat_state_mode`. -/
def mode (st : CatState) (slot : Vfo) : CatMode :=
  let v := st.vfo slot
  if v.mode.valid = false then .none else v.mode.val.withData (v.data.valid && v.data.val)

end CatState

end Mhuxd
