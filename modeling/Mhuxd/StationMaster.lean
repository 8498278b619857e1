import Mathlib

/-!
# The Station Master's band plan (`mhsm.c`)

Antennas, groups and bands in one list, with references between them, as the web interface edits them
with JSON requests. A request that names an object of another type writes through that type's fields all
the same: what this does to the record is up to the compiler (`Layout`). `none` in place of the state is
a missing object that was dereferenced.
-/

namespace Mhuxd

def MAX_NAME_LEN : Nat := 10
def MAX_LABEL_LEN : Nat := 5

/-! ### JSON -/

/-- `json_t`; `other` are null and reals. -/
inductive Json
  | int (z : Int) | bool (b : Bool) | str (s : List UInt8) | arr (l : List Json) | obj (kv : List (String × Json))
  | other

namespace Json

/-- `json_object_get`. -/
def get (j : Json) (key : String) : Option Json :=
  match j with
  | obj kv => kv.lookup key
  | _ => none

/-- `json_object_set_new`. -/
def set (j : Json) (key : String) (v : Json) : Json :=
  match j with
  | obj kv => obj ((key, v) :: kv)
  | j => j

/-- A conversion to `int`. -/
def toInt (z : Int) : Int := Int.bmod z (2 ^ 32)

/-- `json_int_or` where the default keeps what is there: `none` for it. -/
def int? (j : Json) (key : String) : Option Int :=
  match j.get key with
  | some (int z) => some (toInt z)
  | some (bool b) => some (if b then 1 else 0)
  | _ => none

/-- `json_int_or`. -/
def intOr (j : Json) (key : String) (d : Int) : Int := (j.int? key).getD d

/-- `json_str_or`: `none` for the default. -/
def str? (j : Json) (key : String) : Option (List UInt8) :=
  match j.get key with
  | some (str s) => some s
  | _ => none

/-- The elements of an array, if there is one. -/
def items (j : Json) (key : String) : List Json :=
  match j.get key with
  | some (arr l) => l
  | _ => []

end Json

/-! ### Records -/

/-- `OBJ_TYPE_...`. -/
inductive ObjType
  | ant | grp | band
deriving DecidableEq

/-- The type of a number. -/
def ObjType.of (z : Int) : Option ObjType :=
  if z = 0 then some .ant else if z = 1 then some .grp else if z = 2 then some .band else none

def REF_TYPE_ANT : UInt8 := 0
def REF_TYPE_GRP : UInt8 := 1

/-- `struct reference`. -/
structure Ref where
  id : Int
  destId : Int
  type : UInt8
  flags : UInt8
  minAzimuth : UInt16
  maxAzimuth : UInt16
  rxonly : Bool
deriving DecidableEq

/-- `struct antenna_record` without the object. -/
structure AntennaRecord where
  outputSettings : UInt32
  steppir : Bool
  rxonly : Bool
  rotator : Bool
  rotatorOffset : Int
  paAntNumber : UInt8
deriving DecidableEq

/-- `struct groups_record` without the object. -/
structure GroupsRecord where
  numAntennas : UInt8
  flags : UInt8
  currentAzimuth : UInt16
  rxonly : Bool
deriving DecidableEq

/-- `struct band_record` without the object. -/
structure BandRecord where
  lowFreq : UInt32
  highFreq : UInt32
  outputs : UInt8
  bpfSeq : UInt32
  numAntennas : UInt8
  currentRx : UInt8
  currentTx : UInt8
  split : Bool
deriving DecidableEq

/-- What follows the object in a record. -/
inductive Body
  | ant (a : AntennaRecord) | grp (g : GroupsRecord) | band (b : BandRecord)
deriving DecidableEq

def Body.type : Body → ObjType
  | ant _ => .ant
  | grp _ => .grp
  | band _ => .band

/-- A record from `calloc`. -/
def Body.zero : ObjType → Body
  | .ant => .ant ⟨0, false, false, false, 0, 0⟩
  | .grp => .grp ⟨0, 0, 0, false⟩
  | .band => .band ⟨0, 0, 0, 0, 0, 0, 0, false⟩

@[simp] theorem Body.type_zero (t : ObjType) : (Body.zero t).type = t := by cases t <;> rfl

/-- `struct object` with its record; `raw` are the bytes of `raw_buf` not read yet. -/
structure Object where
  id : Int
  name : List UInt8
  label : List UInt8
  refs : List Ref
  body : Body
  raw : List UInt8
deriving DecidableEq

def Object.type (o : Object) : ObjType := o.body.type

/-- `struct sm_bandplan`; `fixedData` are its 115 bytes. -/
structure Bandplan where
  fixedData : List UInt8
  objList : List Object
  idCnt : Int
deriving DecidableEq

namespace Bandplan

/-- `bp_create`. -/
def create : Bandplan := ⟨List.replicate 115 0, [], 0⟩

end Bandplan

/-! ### Objects and references -/

/-- `++bp->id_cnt`. -/
def nextId (cnt : Int) : Int := Json.toInt (cnt + 1)

/-- The id of a new object or reference, with the counter after it. -/
def takeId (id cnt : Int) : Int × Int :=
  if 0 < id then (id, if cnt < id then id else cnt) else (nextId cnt, nextId cnt)

/-- `obj_create`. -/
def objCreate (t : ObjType) (id cnt : Int) : Object × Int :=
  let (id, cnt) := takeId id cnt
  (⟨id, [], [], [], .zero t, []⟩, cnt)

/-- `ref_create`. -/
def refCreate (type : UInt8) (id cnt : Int) : Ref × Int :=
  let (id, cnt) := takeId id cnt
  (⟨id, 0, type, 0, 0, 0, false⟩, cnt)

/-- `obj_by_id`. -/
def objById (os : List Object) (id : Int) : Option Object := os.find? fun o => o.id == id

/-- `ref_by_id`. -/
def refById (rs : List Ref) (id : Int) : Option Ref := rs.find? fun r => r.id == id

/-- The first object with the id of `o` is now `o`. -/
def setObj (o : Object) : List Object → List Object
  | [] => []
  | x :: xs => if x.id = o.id then o :: xs else x :: setObj o xs

/-- The first reference with the id of `r` is now `r`. -/
def setRef (r : Ref) : List Ref → List Ref
  | [] => []
  | x :: xs => if x.id = r.id then r :: xs else x :: setRef r xs

/-! ### Requests -/

/-- The relays with their bits. -/
def outputMap : List (String × Nat) :=
  [("A1", 22), ("A2", 20), ("A3", 18), ("A4", 16), ("A5", 14), ("A6", 12), ("A7", 10), ("A8", 8), ("A9", 4), ("A10", 2),
    ("B1", 13), ("B2", 11), ("B3", 23), ("B4", 9), ("B5", 3), ("B6", 1), ("B7", 21), ("B8", 19), ("B9", 17), ("B10", 15)]

/-- The string up to its zero. -/
def cstr (s : List UInt8) : List UInt8 := s.takeWhile (· ≠ 0)

/-- A string of a request, if there is one: `stc_strlcpy`. -/
def strField (j : Json) (key : String) (size : Nat) (old : List UInt8) : List UInt8 :=
  (j.str? key).elim old fun s => (cstr s).take size

/-- A bit of a bit field. -/
def bitField (j : Json) (key : String) (old : Bool) : Bool := (j.int? key).elim old fun z => decide (z % 2 = 1)

def u8Field (j : Json) (key : String) (old : UInt8) : UInt8 := (j.int? key).elim old UInt8.ofInt

def u16Field (j : Json) (key : String) (old : UInt16) : UInt16 := (j.int? key).elim old UInt16.ofInt

def u32Field (j : Json) (key : String) (old : UInt32) : UInt32 := (j.int? key).elim old UInt32.ofInt

/-- `check_roffset_range`. -/
def checkRoffsetRange (z : Int) : Int := if 180 < z then 180 else if z < -180 then -180 else z

/-- The relays of a request. -/
def relays (j : Json) (key : String) (old : UInt32) : UInt32 :=
  match j.get key with
  | some (.obj kv) =>
    outputMap.foldl (fun s (label, bit) =>
      let d : Int := ((s >>> UInt32.ofNat bit) &&& 1).toNat
      if (Json.obj kv).intOr label d = 1 then s ||| (1 <<< UInt32.ofNat bit) else s) 0
  | _ => old

namespace AntennaRecord

/-- The record's part of `sm_antsw_mod_ant_json`. -/
def mod (a : AntennaRecord) (j : Json) : AntennaRecord where
  steppir := bitField j "steppir" a.steppir
  rxonly := bitField j "rxonly" a.rxonly
  paAntNumber := u8Field j "pa_ant_number" a.paAntNumber
  rotator := bitField j "rotator" a.rotator
  rotatorOffset := checkRoffsetRange ((j.int? "rotator_offset").elim a.rotatorOffset fun z => Int.bmod z (2 ^ 16))
  outputSettings := relays j "output" a.outputSettings

end AntennaRecord

namespace GroupsRecord

/-- The record's part of `sm_antsw_mod_group_json`. -/
def mod (g : GroupsRecord) (j : Json) : GroupsRecord where
  numAntennas := u8Field j "num_antennas" g.numAntennas
  rxonly := bitField j "rxonly" g.rxonly
  flags :=
    let c := j.intOr "virtual_rotator" (-1)
    if c = -1 then g.flags else (g.flags &&& 0xfe) ||| if c = 0 then 1 else 0
  currentAzimuth := g.currentAzimuth

end GroupsRecord

namespace BandRecord

/-- `outputs` of `sm_antsw_mod_band_json`. -/
def modOutputs (j : Json) (out : UInt8) : UInt8 :=
  let bc := j.intOr "bcd_code" (-1)
  let out := if bc = -1 then out else (out &&& 0x0f) ||| UInt8.ofInt bc
  let ko := j.intOr "keyout" (-1)
  let out := if ko = -1 then out else (out &&& (0xbf : UInt8)) ||| (UInt8.ofInt ko <<< 6)
  let pp := j.intOr "pa_power" (-1)
  if pp = -1 then out else (out &&& (0x7f : UInt8)) ||| (UInt8.ofInt pp <<< 7)

/-- The record's part of `sm_antsw_mod_band_json`. -/
def mod (b : BandRecord) (j : Json) : BandRecord :=
  { b with
    lowFreq := u32Field j "low_freq" b.lowFreq
    highFreq := u32Field j "high_freq" b.highFreq
    outputs := modOutputs j b.outputs
    bpfSeq := relays j "bpf_seq" b.bpfSeq }

end BandRecord

/-- What writing through the fields of a type does to a record of another type: those of a request, and a
byte for its `raw_buf`. -/
structure Layout where
  write : ObjType → Json → Body → Body
  write_type : ∀ t j b, (write t j b).type = b.type
  poke : ObjType → UInt8 → Body → Body
  poke_type : ∀ t c b, (poke t c b).type = b.type

/-- A compiler that puts the fields of the records beside each other. -/
def Layout.apart : Layout := ⟨fun _ _ b => b, fun _ _ _ => rfl, fun _ _ b => b, fun _ _ _ => rfl⟩

/-- A record by the fields of a type. -/
def Body.mod (L : Layout) (t : ObjType) (j : Json) : Body → Body
  | .ant a => if t = .ant then .ant (a.mod j) else L.write t j (.ant a)
  | .grp g => if t = .grp then .grp (g.mod j) else L.write t j (.grp g)
  | .band b => if t = .band then .band (b.mod j) else L.write t j (.band b)

/-- The fields of a reference of a group. -/
def Ref.modGroup (r : Ref) (j : Json) : Ref :=
  { r with
    destId := j.intOr "dest_id" r.destId
    minAzimuth := u16Field j "min_azimuth" r.minAzimuth
    maxAzimuth := u16Field j "max_azimuth" r.maxAzimuth }

/-- The fields of a reference of a band. -/
def Ref.modBand (r : Ref) (j : Json) : Ref :=
  let rxonly := bitField j "rxonly" r.rxonly
  { r with
    destId := j.intOr "dest_id" r.destId
    flags := (u8Field j "flags" r.flags &&& 0xfe) ||| if rxonly then 1 else 0
    rxonly := rxonly }

/-- A reference of a request: that with its id is modified, or there is a new one. -/
def refStep (type : Json → UInt8) (mod : Ref → Json → Ref) (s : List Ref × Int) (j : Json) : List Ref × Int :=
  let id := j.intOr "id" 0
  match refById s.1 id with
  | some r => (setRef (mod r j) s.1, s.2)
  | none =>
    let (r, cnt) := refCreate (type j) id s.2
    (s.1 ++ [mod r j], cnt)

/-- The references of a request, by the type's function: antennas have none. -/
def modRefs (t : ObjType) (j : Json) (s : List Ref × Int) : List Ref × Int :=
  match t with
  | .ant => s
  | .grp => (j.items "refs").foldl (refStep (fun _ => REF_TYPE_ANT) Ref.modGroup) s
  | .band => (j.items "refs").foldl (refStep (fun j => UInt8.ofInt (j.intOr "type" 0)) Ref.modBand) s

/-- What `sm_antsw_mod_ant_json`, `sm_antsw_mod_group_json` and `sm_antsw_mod_band_json` do to the object
with the id: bands have no label. -/
def Object.mod (L : Layout) (t : ObjType) (j : Json) (o : Object) (cnt : Int) : Object × Int :=
  let (refs, cnt) := modRefs t j (o.refs, cnt)
  ({ o with
    label := if t = .band then o.label else strField j "label" MAX_LABEL_LEN o.label
    name := strField j "display" MAX_NAME_LEN o.name
    body := o.body.mod L t j
    refs := refs }, cnt)

namespace Bandplan

/-- `sm_antsw_mod_obj_json`; false is an error. -/
def modObjJson (L : Layout) (bp : Bandplan) (j : Json) : Bandplan × Bool :=
  match ObjType.of (j.intOr "type" (-1)) with
  | none => (bp, false)
  | some t =>
    match objById bp.objList (j.intOr "id" (-1)) with
    | none => (bp, false)
    | some o =>
      let (o, cnt) := o.mod L t j bp.idCnt
      ({ bp with objList := setObj o bp.objList, idCnt := cnt }, true)

/-- `sm_antsw_add_obj_json`. -/
def addObjJson (L : Layout) (bp : Bandplan) (j : Json) : Bandplan × Bool :=
  match ObjType.of (j.intOr "type" (-1)) with
  | none => (bp, false)
  | some t =>
    let (o, cnt) := objCreate t (j.intOr "id" 0) bp.idCnt
    { bp with objList := bp.objList ++ [o], idCnt := cnt }.modObjJson L (j.set "id" (.int o.id))

/-- `sm_antsw_rem_obj`. -/
def remObj (bp : Bandplan) (id : Int) : Bandplan × Bool :=
  if (objById bp.objList id).isSome then ({ bp with objList := bp.objList.eraseP fun o => o.id == id }, true)
  else (bp, false)

/-- `sm_antsw_rem_obj_ref`. -/
def remObjRef (bp : Bandplan) (objId refId : Int) : Bandplan × Bool :=
  match objById bp.objList objId with
  | none => (bp, false)
  | some o =>
    if (refById o.refs refId).isSome then
      ({ bp with objList := setObj { o with refs := o.refs.eraseP fun r => r.id == refId } bp.objList }, true)
    else (bp, false)

/-- `clear_obj_list`. -/
def clearObjList (bp : Bandplan) : Bandplan := { bp with objList := [] }

end Bandplan

/-! ### Calls of the interface -/

/-- The calls that edit the objects: `sm.obj` of a configuration, an array (`load`) or an action. -/
inductive SmCall
  | add (j : Json) | mod (j : Json) | rem (id : Int) | remRef (objId refId : Int) | load (items : List Json)

/-- A bulk load. -/
def SmCall.isLoad : SmCall → Bool
  | load _ => true
  | _ => false

/-- The items of an array that are objects. -/
def Json.isObj : Json → Bool
  | obj _ => true
  | _ => false

/-- `apply_sm_from_json` for `sm.obj`: the call, or none for what is refused before. -/
def SmCall.of (v : Json) : Option SmCall :=
  match v with
  | .arr l => some (.load l)
  | .obj _ =>
    let id (key : String) : Int := match v.get key with | some (.int z) => Json.toInt z | _ => -1
    match v.str? "action" with
    | none => none
    | some act =>
      let is (s : List Char) : Bool := act == s.map fun c => UInt8.ofNat c.toNat
      if is ['a', 'd', 'd'] then some (.add v)
      else if is ['m', 'o', 'd'] then some (.mod v)
      else if is ['r', 'e', 'm'] then if id "id" < 0 then none else some (.rem (id "id"))
      else if is ['r', 'e', 'm', '_', 'r', 'e', 'f'] then
        if id "obj_id" < 0 ∨ id "ref_id" < 0 then none else some (.remRef (id "obj_id") (id "ref_id"))
      else none
  | _ => none

namespace Bandplan

/-- The objects of an array are added; false if there was an error. -/
def loadItems (L : Layout) (bp : Bandplan) : List Json → Bandplan × Bool
  | [] => (bp, true)
  | j :: items =>
    if j.isObj then
      let (bp, ok) := bp.addObjJson L j
      let (bp, oks) := bp.loadItems L items
      (bp, ok && oks)
    else bp.loadItems L items

/-- A call on the band plan there is; false is an error. -/
def call (L : Layout) (bp : Bandplan) : SmCall → Bandplan × Bool
  | .add j => bp.addObjJson L j
  | .mod j => bp.modObjJson L j
  | .rem id => bp.remObj id
  | .remRef objId refId => bp.remObjRef objId refId
  | .load items => bp.clearObjList.loadItems L items

end Bandplan

/-- A call: without a band plan it's an error, but `sm_antsw_clear_lists` doesn't look whether there is
one. -/
def smCall (L : Layout) (bp : Option Bandplan) (c : SmCall) : Option (Option Bandplan × Bool) :=
  match bp, c with
  | none, .load _ => none
  | none, _ => some (none, false)
  | some bp, c => let (bp, ok) := bp.call L c; some (some bp, ok)

/-- `sm_antsw_set_opt`, by what `citem_set_value` does to the fixed data: it creates a missing band plan. -/
def smSetOpt (bp : Option Bandplan) (write : List UInt8 → List UInt8) : Bandplan :=
  let bp := bp.getD .create
  { bp with fixedData := write bp.fixedData }

end Mhuxd
