import Mhuxd.StationMaster
import Mhuxd.Buffer

/-!
# The Station Master's band plan as bytes (`mhsm.c`)

In the device's EEPROM fixed data is followed by the records of the antennas, groups and bands, each kind
ended by a record of length zero. The decoder's `BGETC` returns from the function when the record's bytes
are used up: what was decoded until then stays.
-/

namespace Mhuxd

/-! ### Encoding -/

/-- `update_index_values`: the objects with their numbers among those of their type, `n` being the next. -/
def indexFrom (n : ObjType → Nat) : List Object → List (Object × Nat)
  | [] => []
  | o :: os => (o, n o.type) :: indexFrom (fun t => if t = o.type then n t + 1 else n t) os

def updateIndexValues (os : List Object) : List (Object × Nat) := indexFrom (fun _ => 0) os

/-- `obj_by_id` with the index. -/
def ixById (ix : List (Object × Nat)) (id : Int) : Option (Object × Nat) := ix.find? fun x => x.1.id == id

def encodeStr (s : List UInt8) : List UInt8 := UInt8.ofNat (cstr s).length :: cstr s

def u16Bytes (x : UInt16) : List UInt8 := [x.toUInt8, (x >>> 8).toUInt8]

def u24Bytes (x : UInt32) : List UInt8 := [x.toUInt8, (x >>> 8).toUInt8, (x >>> 16).toUInt8]

def u32Bytes (x : UInt32) : List UInt8 := [x.toUInt8, (x >>> 8).toUInt8, (x >>> 16).toUInt8, (x >>> 24).toUInt8]

def bit (b : Bool) : UInt8 := if b then 1 else 0

/-- A record: its first byte is the size of the buffer, that byte included. -/
def record (payload : List UInt8) : List UInt8 :=
  let b := Buffer.empty.append (0 :: payload)
  UInt8.ofNat b.size :: b.data.tail

def encodeAnt (o : Object) (a : AntennaRecord) : List UInt8 :=
  encodeStr o.label ++ encodeStr o.name ++ u24Bytes a.outputSettings ++
    [bit a.steppir ||| (bit a.rxonly <<< 1), a.paAntNumber, bit a.rotator] ++
    if a.rotator then [UInt8.ofInt a.rotatorOffset, UInt8.ofInt (a.rotatorOffset / 256)] else []

/-- A reference of a group; the object referred to is dereferenced. -/
def encodeGrpRef (ix : List (Object × Nat)) (r : Ref) : Option (List UInt8) :=
  (ixById ix r.destId).map fun x => UInt8.ofNat x.2 :: u16Bytes r.minAzimuth ++ u16Bytes r.maxAzimuth

def encodeGrp (ix : List (Object × Nat)) (o : Object) (g : GroupsRecord) : Option (List UInt8) :=
  (o.refs.mapM (encodeGrpRef ix)).map fun refs =>
    encodeStr o.label ++ encodeStr o.name ++ UInt8.ofNat o.refs.length :: refs.flatten ++ [g.flags, 0, 0]

/-- A reference of a band, that is left out if there is no such antenna or group. -/
def encodeBandRef (ix : List (Object × Nat)) (r : Ref) : List UInt8 :=
  match ixById ix r.destId with
  | none => []
  | some (o, i) =>
    match o.type with
    | .ant => [0, UInt8.ofNat i, r.flags]
    | .grp => [UInt8.ofNat (i + 1), 0, r.flags]
    | .band => []

def encodeBand (ix : List (Object × Nat)) (o : Object) (b : BandRecord) : List UInt8 :=
  u32Bytes b.lowFreq ++ u32Bytes b.highFreq ++ encodeStr o.name ++ b.outputs :: u24Bytes b.bpfSeq ++
    UInt8.ofNat o.refs.length :: o.refs.flatMap (encodeBandRef ix) ++ [0, 0, 0]

/-- The stopper record: `$STOP$`. -/
def stopper : List UInt8 :=
  [0, 0, 0, 0, 0xff, 0xff, 0xff, 0xff, 6, 0x24, 0x53, 0x54, 0x4f, 0x50, 0x24, 0, 0, 0, 0, 0, 0, 0, 0]

/-- The payload of an object's record. -/
def encodeObj (ix : List (Object × Nat)) (o : Object) : Option (List UInt8) :=
  match o.body with
  | .ant a => some (encodeAnt o a)
  | .grp g => encodeGrp ix o g
  | .band b => some (encodeBand ix o b)

/-- The records of the objects of a type. -/
def encodeType (ix : List (Object × Nat)) (t : ObjType) (os : List Object) : Option (List UInt8) :=
  ((os.filter fun o => o.type == t).mapM (encodeObj ix)).map fun l => l.flatMap record

/-- `encode_bp`; `none` is a missing object that is dereferenced. -/
def encodeBp (bp : Bandplan) : Option (List UInt8) :=
  let ix := updateIndexValues bp.objList
  (encodeType ix .ant bp.objList).bind fun ants =>
    (encodeType ix .grp bp.objList).bind fun grps =>
      (encodeType ix .band bp.objList).map fun bands =>
        bp.fixedData ++ ants ++ 0 :: grps ++ 0 :: bands ++ record stopper

/-! ### Decoding -/

/-- An object that is decoded, with the counter of ids; false is an error. -/
abbrev Decode := Object × Int → (Object × Int) × Bool

/-- `BGETC`. -/
def bgetc (k : UInt8 → Decode) : Decode := fun (o, cnt) =>
  match o.raw with
  | [] => ((o, cnt), false)
  | c :: raw => k c ({ o with raw := raw }, cnt)

/-- A character of an array that is zero behind the string. -/
def writeAt (s : List UInt8) (i : Nat) (c : UInt8) : List UInt8 :=
  s.take i ++ List.replicate (i - s.length) 0 ++ c :: s.drop (i + 1)

/-- The loop over `n` characters from index `i` on. -/
def getChars (write : Object → Nat → UInt8 → Object) : Nat → Nat → Decode → Decode
  | 0, _, k => k
  | n + 1, i, k => bgetc fun c (o, cnt) => getChars write n (i + 1) k (write o i c, cnt)

def Object.writeLabel (o : Object) (i : Nat) (c : UInt8) : Object := { o with label := writeAt o.label i c }

def Object.writeName (o : Object) (i : Nat) (c : UInt8) : Object := { o with name := writeAt o.name i c }

/-- A string with its length: no more characters than there is room for. -/
def getStr (write : Object → Nat → UInt8 → Object) (room : Nat) (k : Decode) : Decode :=
  bgetc fun c => getChars write (min c.toNat room) 0 k

/-- A byte for the record. -/
def getByte (set : UInt8 → Body → Body) (k : Decode) : Decode :=
  bgetc fun c (o, cnt) => k ({ o with body := set c o.body }, cnt)

def Body.ant' (f : AntennaRecord → AntennaRecord) : Body → Body
  | .ant a => .ant (f a)
  | b => b

def Body.grp' (f : GroupsRecord → GroupsRecord) : Body → Body
  | .grp g => .grp (f g)
  | b => b

def Body.band' (f : BandRecord → BandRecord) : Body → Body
  | .band b => .band (f b)
  | b => b

/-- The function returns 0. -/
def decoded : Decode := fun s => (s, true)

/-- `c << i`. -/
def shl (c : UInt8) (i : UInt32) : UInt32 := c.toUInt32 <<< i

/-- `decode_arec`. -/
def decodeArec : Decode :=
  getStr Object.writeLabel MAX_LABEL_LEN <|
  getStr Object.writeName MAX_NAME_LEN <|
  getByte (fun c => Body.ant' fun a => { a with outputSettings := c.toUInt32 }) <|
  getByte (fun c => Body.ant' fun a => { a with outputSettings := a.outputSettings ||| shl c 8 }) <|
  getByte (fun c => Body.ant' fun a => { a with outputSettings := a.outputSettings ||| shl c 16 }) <|
  getByte (fun c => Body.ant' fun a => { a with steppir := c &&& 1 == 1, rxonly := (c >>> 1) &&& 1 == 1 }) <|
  getByte (fun c => Body.ant' fun a => { a with paAntNumber := c }) <|
  bgetc fun c (o, cnt) =>
    let o := { o with body := o.body.ant' fun a => { a with rotator := c &&& 1 == 1 } }
    if c = 1 then
      (getByte (fun c => Body.ant' fun a => { a with rotatorOffset := c.toNat }) <|
        getByte (fun c => Body.ant' fun a =>
          { a with rotatorOffset := checkRoffsetRange (Int.bmod (a.rotatorOffset + c.toNat * 256) (2 ^ 16)) }) decoded)
        (o, cnt)
    else decoded (o, cnt)

/-- `obj_id_by_idx`. -/
def objIdByIdx (os : List Object) (t : ObjType) (idx : Nat) : Int :=
  match (os.filter fun o => o.type == t)[idx]? with
  | some o => o.id
  | none => -1

/-- The references of a group, `n` of them. -/
def getGrpRefs (os : List Object) : Nat → Decode → Decode
  | 0, k => k
  | n + 1, k => fun (o, cnt) =>
    let (r, cnt) := refCreate REF_TYPE_ANT 0 cnt
    (bgetc fun ant => bgetc fun min0 => bgetc fun min1 => bgetc fun max0 => bgetc fun max1 (o, cnt) =>
      let r := { r with
        destId := objIdByIdx os .ant ant.toNat
        minAzimuth := min0.toUInt16 ||| (min1.toUInt16 <<< 8)
        maxAzimuth := max0.toUInt16 ||| (max1.toUInt16 <<< 8) }
      getGrpRefs os n k ({ o with refs := o.refs ++ [r] }, cnt)) (o, cnt)

/-- `decode_grec`. -/
def decodeGrec (os : List Object) : Decode :=
  getStr Object.writeLabel MAX_LABEL_LEN <|
  getStr Object.writeName MAX_NAME_LEN <|
  bgetc fun n (o, cnt) =>
    (getGrpRefs os n.toNat <|
      getByte (fun c => Body.grp' fun g => { g with flags := c }) <|
      getByte (fun c => Body.grp' fun g => { g with currentAzimuth := c.toUInt16 }) <|
      getByte (fun c => Body.grp' fun g => { g with currentAzimuth := g.currentAzimuth ||| (c.toUInt16 <<< 8) }) decoded)
      ({ o with body := o.body.grp' fun g => { g with numAntennas := n } }, cnt)

/-- The references of a band, `n` of them. -/
def getBandRefs (os : List Object) : Nat → Decode → Decode
  | 0, k => k
  | n + 1, k => bgetc fun ba0 => bgetc fun ba1 (o, cnt) =>
    let (r, cnt) := refCreate (if 0 < ba0.toNat then REF_TYPE_GRP else REF_TYPE_ANT) 0 cnt
    (bgetc fun flags (o, cnt) =>
      let r := { r with
        destId := if 0 < ba0.toNat then objIdByIdx os .grp (ba0.toNat - 1) else objIdByIdx os .ant ba1.toNat
        flags := flags
        rxonly := flags &&& 1 == 1 }
      getBandRefs os n k ({ o with refs := o.refs ++ [r] }, cnt)) (o, cnt)

/-- `decode_brec`. -/
def decodeBrec (os : List Object) : Decode :=
  getByte (fun c => Body.band' fun b => { b with lowFreq := c.toUInt32 }) <|
  getByte (fun c => Body.band' fun b => { b with lowFreq := b.lowFreq ||| shl c 8 }) <|
  getByte (fun c => Body.band' fun b => { b with lowFreq := b.lowFreq ||| shl c 16 }) <|
  getByte (fun c => Body.band' fun b => { b with lowFreq := b.lowFreq ||| shl c 24 }) <|
  getByte (fun c => Body.band' fun b => { b with highFreq := c.toUInt32 }) <|
  getByte (fun c => Body.band' fun b => { b with highFreq := b.highFreq ||| shl c 8 }) <|
  getByte (fun c => Body.band' fun b => { b with highFreq := b.highFreq ||| shl c 16 }) <|
  getByte (fun c => Body.band' fun b => { b with highFreq := b.highFreq ||| shl c 24 }) <|
  getStr Object.writeName MAX_NAME_LEN <|
  getByte (fun c => Body.band' fun b => { b with outputs := c }) <|
  getByte (fun c => Body.band' fun b => { b with bpfSeq := c.toUInt32 }) <|
  getByte (fun c => Body.band' fun b => { b with bpfSeq := b.bpfSeq ||| shl c 8 }) <|
  getByte (fun c => Body.band' fun b => { b with bpfSeq := b.bpfSeq ||| shl c 16 }) <|
  bgetc fun n (o, cnt) =>
    (getBandRefs os n.toNat <|
      getByte (fun c => Body.band' fun b => { b with currentRx := c }) <|
      getByte (fun c => Body.band' fun b => { b with currentTx := c }) <|
      getByte (fun c => Body.band' fun b => { b with split := c &&& 1 == 1 }) decoded)
      ({ o with body := o.body.band' fun b => { b with numAntennas := n } }, cnt)

/-- `decode_obj`. -/
def decodeObj (os : List Object) (s : Object × Int) : (Object × Int) × Bool :=
  match s.1.type with
  | .ant => decodeArec s
  | .grp => decodeGrec os s
  | .band => decodeBrec os s

/-- The objects are decoded one after the other; errors are logged only. -/
def decodeObjs (os : List Object) : List Object → Int → List Object × Int
  | [], cnt => ([], cnt)
  | o :: rest, cnt =>
    let ((o, cnt), _) := decodeObj os (o, cnt)
    let (rest, cnt) := decodeObjs os rest cnt
    (o :: rest, cnt)

/-- The stopper record, as the download knows it. -/
def isStopper (o : Object) : Bool :=
  match o.body with
  | .band b => b.numAntennas == 0 && b.lowFreq == 0 && b.highFreq == 0xffffffff
  | _ => false

/-- The last object is removed if it's the stopper record. -/
def dropStopper (os : List Object) : List Object :=
  match os.getLast? with
  | some o => if isStopper o then os.dropLast else os
  | none => os

/-- The end of `get_antsw_completion_cb`. -/
def Bandplan.decode (bp : Bandplan) : Bandplan :=
  let (os, cnt) := decodeObjs bp.objList bp.objList bp.idCnt
  { bp with objList := dropStopper os, idCnt := cnt }

end Mhuxd
