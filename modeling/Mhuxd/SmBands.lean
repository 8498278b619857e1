import Mhuxd.SmIdentity
import Mhuxd.Lib.BitField

/-!
# Editing and exporting a band (`mhsm.c`)

What the band plan gives out as JSON, and what of a request is found there afterwards. The byte `outputs` of a band
holds the BCD code, the key output and the power of the amplifier; setting the code keeps its old bits instead of
those of the two others.
-/

namespace Mhuxd

/-! ### JSON of the objects -/

/-- `json_string` makes a string of valid UTF-8 only. -/
def utf8Check (s : List UInt8) : Bool := (ByteArray.mk s.toArray).validateUTF8

/-- A text that isn't empty, if it makes a string. -/
def textItem (key : String) (s : List UInt8) : List (String × Json) :=
  if s ≠ [] ∧ utf8Check s = true then [(key, .str s)] else []

def flagJson (b : Bool) : Json := .int (if b then 1 else 0)

/-- The relays of `output_map`. -/
def relaysJson (v : UInt32) : Json :=
  .obj (outputMap.map fun (label, bit) => (label, flagJson (v.toBitVec.getLsbD bit)))

def Ref.toJson (r : Ref) : Json :=
  .obj [("id", .int r.id), ("dest_id", .int r.destId), ("type", .int r.type.toNat),
    ("min_azimuth", .int r.minAzimuth.toNat), ("max_azimuth", .int r.maxAzimuth.toNat), ("flags", .int r.flags.toNat),
    ("rxonly", flagJson r.rxonly)]

/-- The bits of `outputs`. -/
def bcdCode : BitField := ⟨0, 0, 4⟩

def keyout : BitField := ⟨0, 6, 1⟩

def paPower : BitField := ⟨0, 7, 1⟩

def Body.toItems : Body → List (String × Json)
  | .ant a => [("steppir", flagJson a.steppir), ("rxonly", flagJson a.rxonly), ("pa_ant_number", .int a.paAntNumber.toNat),
      ("rotator", flagJson a.rotator), ("rotator_offset", .int a.rotatorOffset), ("output", relaysJson a.outputSettings)]
  | .grp g => [("num_antennas", .int g.numAntennas.toNat), ("rxonly", flagJson g.rxonly),
      ("virtual_rotator", flagJson (g.flags &&& 1 == 0))]
  | .band b => [("low_freq", .int b.lowFreq.toNat), ("high_freq", .int b.highFreq.toNat),
      ("bcd_code", .int (bcdCode.read b.outputs)), ("keyout", .int (keyout.read b.outputs)),
      ("pa_power", .int (paPower.read b.outputs)), ("bpf_seq", relaysJson b.bpfSeq)]

/-- An object of `sm_antsw_to_json`. -/
def Object.toJson (o : Object) : Json :=
  .obj ([("type", .int (match o.type with | .ant => 0 | .grp => 1 | .band => 2)), ("id", .int o.id)] ++
    textItem "label" o.label ++ textItem "display" o.name ++ [("refs", .arr (o.refs.map Ref.toJson))] ++ o.body.toItems)

/-! ### What an update asks for -/

namespace Json

/-- The number of a key, a boolean as 0 or 1. -/
def num? (j : Json) (key : String) : Option Int :=
  match j.get key with
  | some (int z) => some z
  | some (bool b) => some (if b then 1 else 0)
  | _ => none

/-- A text; a missing one is empty. -/
def text (j : Json) (key : String) : List UInt8 := (j.str? key).getD []

/-- The object of the band pass filters or sequencers, if there is one. -/
def bpfSeq? (j : Json) : Option Json :=
  match j.get "bpf_seq" with
  | some (obj kv) => some (obj kv)
  | _ => none

end Json

/-- A reference with the items of an update for it, in order. -/
structure AskedRef where
  base : Ref
  items : List Json

namespace AskedRef

/-- The value of a field in the last item that names it. -/
def named (a : AskedRef) (key : String) : Option Int := a.items.reverse.findSome? fun j => j.num? key

/-- What the references should be. -/
def toJson (a : AskedRef) : Json :=
  .obj [("id", .int a.base.id), ("dest_id", .int ((a.named "dest_id").getD a.base.destId)),
    ("type", .int ((a.named "type").getD a.base.type.toNat)),
    ("min_azimuth", .int ((a.named "min_azimuth").getD a.base.minAzimuth.toNat)),
    ("max_azimuth", .int ((a.named "max_azimuth").getD a.base.maxAzimuth.toNat)),
    ("flags", .int ((a.named "flags").getD a.base.flags.toNat)),
    ("rxonly", .int ((a.named "rxonly").getD (if a.base.rxonly then 1 else 0)))]

/-- What the code makes of it. -/
def apply (a : AskedRef) : Ref := a.items.foldl Ref.modBand a.base

end AskedRef

/-- Adds an item to the first reference with the id. -/
def addItem (id : Int) (j : Json) (as : List AskedRef) : List AskedRef :=
  as.replaceF fun a => if a.base.id = id then some { a with items := a.items ++ [j] } else none

/-- An item is for the first reference with its id, or for a new one. -/
def askRef (s : List AskedRef × Int) (j : Json) : List AskedRef × Int :=
  let id := j.intOr "id" 0
  if s.1.any fun a => a.base.id == id then
    (addItem id j s.1, s.2)
  else
    let (r, cnt) := refCreate (UInt8.ofInt (j.intOr "type" 0)) id s.2
    (s.1 ++ [⟨r, [j]⟩], cnt)

def askedRefs (o : Object) (cnt : Int) (j : Json) : List AskedRef :=
  ((j.items "refs").foldl askRef (o.refs.map (⟨·, []⟩), cnt)).1

/-- The values named for a reference can be stored: those the type and the azimuths have, and of the flags the lowest
bit is that of `rxonly`. -/
structure AskedRef.Fits (a : AskedRef) : Prop where
  destId : ∀ z ∈ a.named "dest_id", Json.toInt z = z
  type : ∀ z ∈ a.named "type", z = a.base.type.toNat
  minAzimuth : ∀ z ∈ a.named "min_azimuth", z = a.base.minAzimuth.toNat
  maxAzimuth : ∀ z ∈ a.named "max_azimuth", z = a.base.maxAzimuth.toNat
  flags : ∀ z ∈ a.named "flags", 0 ≤ z ∧ z ≤ 255
  rxonly : ∀ z ∈ a.named "rxonly", z = 0 ∨ z = 1
  lowest : a.items ≠ [] →
    (a.named "flags").getD a.base.flags.toNat % 2 = (a.named "rxonly").getD (if a.base.rxonly then 1 else 0)

/-- The numbers named for a band can be stored, a BCD code has the old one's bits and comes with the two other values
of its byte where these are on, and relays come with the others that are on. -/
structure BandRecord.Fits (b : BandRecord) (j : Json) : Prop where
  lowFreq : ∀ z ∈ j.num? "low_freq", 0 ≤ z ∧ z < 2 ^ 32
  highFreq : ∀ z ∈ j.num? "high_freq", 0 ≤ z ∧ z < 2 ^ 32
  bcdCode : ∀ z ∈ j.num? "bcd_code", 0 ≤ z ∧ z ≤ 15 ∧ bcdCode.read b.outputs ||| z.toNat = z.toNat ∧
    (j.num? "keyout" = none → keyout.read b.outputs = 0) ∧ (j.num? "pa_power" = none → paPower.read b.outputs = 0)
  keyout : ∀ z ∈ j.num? "keyout", z = 0 ∨ z = 1
  paPower : ∀ z ∈ j.num? "pa_power", z = 0 ∨ z = 1
  bpfSeq : ∀ v ∈ j.bpfSeq?, ∀ r ∈ outputMap, (∀ z ∈ v.num? r.1, z = 0 ∨ z = 1) ∧
    (v.num? r.1 = none → b.bpfSeq.toBitVec.getLsbD r.2 = false)

/-- The texts named are stored as they are: bands have no label. -/
structure Object.Fits (o : Object) (cnt : Int) (j : Json) : Prop where
  label : ∀ s ∈ j.str? "label", s = o.toJson.text "label"
  display : ∀ s ∈ j.str? "display", (cstr s).take MAX_NAME_LEN = s ∧ (s = [] ∨ utf8Check s = true)
  refs : ∀ a ∈ askedRefs o cnt j, a.Fits

/-! ### References -/

namespace AskedRef

variable {a : AskedRef} {j : Json} {key : String}

/-- `rxonly` after the items. -/
def rxonly (a : AskedRef) : Bool := (a.named "rxonly").elim a.base.rxonly fun z => decide (Json.toInt z % 2 = 1)

def flags (a : AskedRef) : UInt8 := (a.named "flags").elim a.base.flags fun z => UInt8.ofInt (Json.toInt z)

theorem toInt_mod (z : Int) : Json.toInt z % 256 = z % 256 := by
  unfold Json.toInt
  rw [Int.bmod_def]
  split_ifs <;> omega

theorem toNat_ofInt (z : Int) : ((UInt8.ofInt z).toNat : Int) = z % 256 := by
  rw [UInt8.ofInt, UInt8.toNat_ofNat']
  omega

theorem toNat_mask (x : UInt8) (b : Bool) :
    ((x &&& 0xfe) ||| if b then 1 else 0).toNat = x.toNat / 2 * 2 + if b then 1 else 0 := by
  have hbits : ∀ (b : Bool) (y : BitVec 8), ((y &&& 0xfe) ||| if b then 1 else 0).toNat =
    y.toNat / 2 * 2 + if b then 1 else 0 := by
    decide
  cases b
  · exact hbits false x.toBitVec
  · exact hbits true x.toBitVec

/-- With `rxonly` as asked for. -/
theorem flags_iff (a : AskedRef) (h : (if a.rxonly then 1 else 0) = (a.named "rxonly").getD (if a.base.rxonly then 1 else 0)) :
    ((if a.items = [] then a.base.flags else (a.flags &&& 0xfe) ||| if a.rxonly then 1 else 0).toNat : Int) =
      (a.named "flags").getD a.base.flags.toNat ↔ (∀ z ∈ a.named "flags", 0 ≤ z ∧ z ≤ 255) ∧
        (a.items ≠ [] →
          (a.named "flags").getD a.base.flags.toNat % 2 = (a.named "rxonly").getD (if a.base.rxonly then 1 else 0)) := by
  by_cases hitems : a.items = []
  · have hnamed : a.named "flags" = none := by
      unfold named
      rw [hitems]
      rfl
    rw [if_pos hitems, hnamed]
    simp [hitems]
  · rw [if_neg hitems, toNat_mask, ← h]
    unfold flags
    cases a.named "flags" with
    | none =>
      have hlt := a.base.flags.toNat_lt
      simp only [Option.elim_none, Option.getD_none, Option.mem_def, reduceCtorEq, false_imp_iff, implies_true,
        true_and,
        ne_eq, hitems, not_false_eq_true, forall_const]
      split_ifs <;> omega
    | some z =>
      have hmod := toInt_mod z
      have hofInt := toNat_ofInt (Json.toInt z)
      simp only [Option.elim_some, Option.getD_some, Option.mem_def, Option.some.injEq, forall_eq', ne_eq, hitems,
        not_false_eq_true, forall_const]
      split_ifs <;> omega

end AskedRef

variable {as : List AskedRef} {j : Json} {id : Int}

namespace BandRecord

end BandRecord

/-! ### The export -/

namespace Object

variable {o : Object} {b : BandRecord}

end Object

/-! ### Relays -/

namespace BandRecord

end BandRecord

/-! ### Updates -/

namespace Object

variable {o : Object} {b : BandRecord} {L : Layout} {j : Json} {cnt : Int}

end Object

/-! ### Importing an export -/

/-- The references of the ids are ints. -/
def RefsStored (rs : List Ref) : Prop := ∀ r ∈ rs, Json.toInt r.id = r.id ∧ Json.toInt r.destId = r.destId

namespace Object

variable {o : Object} {b : BandRecord} {L : Layout} {cnt : Int}

/-- The name is a string of its size, the ids are ints. -/
structure Stored (o : Object) : Prop where
  id : Json.toInt o.id = o.id
  name : (cstr o.name).take MAX_NAME_LEN = o.name
  refs : RefsStored o.refs

end Object

/-! ### The band plan -/

section

variable {os : List Object} {o o' : Object} {id : Int}

end

namespace Bandplan

variable {L : Layout} {bp : Bandplan} {j : Json} {o : Object} {b : BandRecord}

end Bandplan

end Mhuxd
