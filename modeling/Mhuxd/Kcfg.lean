import Mhuxd.ConRegistry
import Mhuxd.KcfgItems
import Mhuxd.Lib.BitField

/-!
# The keyer settings (`kcfg.c`, `mhcontrol.c`)

The settings block of a keyer, its options by their keys. The CW switching options keep their default
(`enforcedKeys`), but only if they are named in their own letter case: an item is found in any
(`find_citem`). And a negative value puts ones in the bits above its item (`kcfg_set_val` looks for
values that are too large only).
-/

namespace Mhuxd

/-- `json_object_set_new` on the members of an object: the value is replaced, or a member added. -/
def jsonObjectSet {α : Type} (kv : List (String × α)) (key : String) (v : α) : List (String × α) :=
  if key ∈ kv.map Prod.fst then kv.map fun m => if m.1 = key then (key, v) else m else kv ++ [(key, v)]

namespace Kcfg

/-! ### Items -/

/-- Where an item is. -/
def Citem.field (i : Citem) : BitField := ⟨i.off + i.baseBit / 8, i.baseBit % 8 + 1 - i.width, i.width⟩

/-- `find_citem`. -/
def findCitem (is : List Citem) (key : String) : Option Citem := is.find? fun i => strcaseEq key i.key

/-- `kcfg_set_val`: -2 for an option that keeps its default, -1 for other errors. -/
def kcfgSetVal (is : List Citem) (s : List UInt8) (key : String) (val : Int) : List UInt8 × Int :=
  match findCitem is key with
  | none => (s, -1)
  | some i =>
    if (i.dflt : Int) ≠ val ∧ key ∈ enforcedKeys then (s, -2)
    else if s.length ≤ i.field.byte then (s, -1)
    else if (i.field.mask : Int) < val then (s, -1)
    else (i.field.put val s, 0)

/-- `kcfg_get_val`. -/
def kcfgGetVal (is : List Citem) (s : List UInt8) (key : String) (d : Int) : Int :=
  match findCitem is key with
  | none => d
  | some i => if s.length ≤ i.field.byte then d else i.field.get s

/-! ### The settings block -/

def MOD_CW : Int := 0
def MOD_VOICE : Int := 1
def MOD_FSK : Int := 2
def MOD_DIGITAL : Int := 3

/-- The place and the default of the settings of a mode of the MK family: FSK uses those of DIGITAL. -/
def mk1Frbase (mode : Int) : Nat × UInt8 :=
  if mode = MOD_CW then (MK1_FRBASE_CW, 0x6a)
  else if mode = MOD_VOICE then (MK1_FRBASE_VOICE, 0x7f)
  else (MK1_FRBASE_DIGITAL, 0x95)

/-- The audio states of a mode: D (0) is not known to the MK family. -/
def noAudioD (dflt frbase : UInt8) : UInt8 :=
  [(3 : UInt8), 0x0c, 0x30].foldl (fun b states => if b &&& states = 0 then b ||| (dflt &&& states) else b) frbase

/-- The mode `mk1_set_frbase` takes, with the settings it takes it from. -/
def mk1Mode (t : KeyerType) (s : List UInt8) : Int × List UInt8 :=
  if t = .mk then (kcfgGetVal (items t) s "r1KeyerMode" MOD_DIGITAL, s)
  else
    let mode := if t = .ck then MOD_CW else MOD_DIGITAL
    (mode, (kcfgSetVal (items t) (kcfgSetVal (items t) s "r1ForceKeyerMode" 0).1 "r1KeyerMode" mode).1)

/-- `mk1_set_frbase`. -/
def mk1SetFrbase (t : KeyerType) (s : List UInt8) : List UInt8 :=
  let (mode, s) := mk1Mode t s
  let (off, dflt) := mk1Frbase mode
  let frbase := noAudioD dflt (s.getD off 0)
  let s := s.set 0 frbase
  s.set 2 ((s.getD 2 0 &&& (0x9f : UInt8)) ||| ((frbase >>> 1) &&& 0x60))

/-- The size of the block. -/
def bufSize (t : KeyerType) : Nat := if t.isMkFamily then MK1_FRBASE_DIGITAL + 1 else 56

/-- What `kcfg_create` sets after the defaults of the items. -/
def createCalls (t : KeyerType) : List (String × Int) :=
  if t = .dk2 ∨ t = .dk then [("r1FrBase_Cw.ptt1", 0), ("r1FrBase_Cw.ptt2", 1)]
  else if t = .mk2 ∨ t = .mk3 then
    [("r1FrBase_Cw.audioRx", AUDIO_SW_D), ("r1FrBase_Cw.audioTx", AUDIO_SW_D), ("r1FrBase_Cw.audioTxFootSw", AUDIO_SW_D),
      ("r1FrBase_Voice.audioRx", AUDIO_SW_A), ("r1FrBase_Voice.audioTx", AUDIO_SW_C),
      ("r1FrBase_Voice.audioTxFootSw", AUDIO_SW_A), ("r1FrBase_Digital.audioRx", AUDIO_SW_B),
      ("r1FrBase_Digital.audioTx", AUDIO_SW_B), ("r1FrBase_Digital.audioTxFootSw", AUDIO_SW_D)]
  else []

/-- Options set one after the other. -/
def setVals (is : List Citem) (s : List UInt8) (calls : List (String × Int)) : List UInt8 :=
  calls.foldl (fun s c => (kcfgSetVal is s c.1 c.2).1) s

/-- `kcfg_create`. -/
def kcfgCreate (t : KeyerType) : List UInt8 :=
  let s := setVals (items t) (List.replicate (bufSize t) 0) ((items t).map fun i => (i.key, (i.dflt : Int)))
  let s := if t.isMkFamily then (s.set MK1_FRBASE_VOICE 0x7f).set MK1_FRBASE_DIGITAL 0x95 else s
  let s := setVals (items t) s (createCalls t)
  if t.isMkFamily then mk1SetFrbase t s else s

/-- `mhc_set_kopt`. -/
def mhcSetKopt (t : KeyerType) (s : List UInt8) (key : String) (val : Int) : List UInt8 × Int :=
  if key = "" then (s, -1)
  else
    let (s, r) := kcfgSetVal (items t) s key val
    (s, if r = -1 then -1 else 0)

/-- `mhc_kopts_foreach` with `param_builder_cb`: the members of `param`. -/
def kopts (is : List Citem) (s : List UInt8) : List (String × Nat) :=
  is.foldl (fun kv i => jsonObjectSet kv i.key (i.field.get s)) []

end Kcfg

end Mhuxd
