import Mhuxd.KcfgLaws

/-!
# Keyer settings that are saved and applied again (`cfgmgrj.c`)

The settings of a keyer are saved as the value of each option by its key, `param`, and the PTT settings of each radio
and mode in words, `ptt`. At the next start a new block is made and both are applied to it, `ptt` first. An option
survives this as long as the protected options have their defaults, and those with one key one value: `c_mk2r` has two
items `accSer1BaudRate`.
-/

namespace Mhuxd

namespace Kcfg

/-! ### PTT settings -/

/-- The type with the number: `MHT_CK` to `MHT_MK3`. -/
def typeOf (n : Int) : Option KeyerType :=
  [(1, KeyerType.ck), (2, .dk), (3, .dk2), (4, .mk), (5, .mk2), (6, .mk2r), (7, .mk2rp), (8, .sm), (9, .smd), (10, .u2r),
    (11, .mk3)].lookup n

/-- `mhc_get_type`. -/
def mhcGetType : KeyerType → Int
  | .ck => 1
  | .dk => 2
  | .dk2 => 3
  | .mk => 4
  | .mk2 => 5
  | .mk2r => 6
  | .mk2rp => 7
  | .sm => 8
  | .smd => 9
  | .u2r => 10
  | .mk3 => 11

/-- The keyer modes with a PTT setting. -/
inductive PttMode
  | cw | voice | digital
deriving DecidableEq

namespace PttMode

def all : List PttMode := [cw, voice, digital]

def suffix : PttMode → String
  | cw => "FrBase_Cw"
  | voice => "FrBase_Voice"
  | digital => "FrBase_Digital"

end PttMode

/-- `struct ptt_map_entry`. -/
structure PttMapEntry where
  keyerType : KeyerType
  pttStr : String
  ptt1 : Nat
  ptt2 : Nat
  qsk : Nat

def pttMap : List PttMapEntry :=
  [⟨.mk2, "ptt1", 1, 0, 0⟩, ⟨.mk2, "ptt2", 0, 1, 0⟩, ⟨.mk2, "ptt12", 1, 1, 0⟩, ⟨.mk2, "semi", 0, 0, 0⟩,
    ⟨.mk2, "qsk", 0, 0, 1⟩,
    ⟨.mk3, "ptt1", 1, 0, 0⟩, ⟨.mk3, "ptt2", 0, 1, 0⟩, ⟨.mk3, "ptt12", 1, 1, 0⟩, ⟨.mk3, "semi", 0, 0, 0⟩,
    ⟨.mk3, "qsk", 0, 0, 1⟩,
    ⟨.mk, "ptt1", 1, 0, 0⟩, ⟨.mk, "ptt2", 0, 1, 0⟩, ⟨.mk, "ptt12", 1, 1, 0⟩, ⟨.mk, "qsk", 0, 0, 1⟩,
    ⟨.dk, "ptt", 0, 1, 0⟩, ⟨.dk, "noptt", 0, 0, 0⟩,
    ⟨.dk2, "ptt", 0, 1, 0⟩, ⟨.dk2, "semi", 0, 0, 0⟩, ⟨.dk2, "qsk", 0, 0, 1⟩,
    ⟨.ck, "ptt", 1, 0, 0⟩, ⟨.ck, "qsk", 0, 0, 1⟩,
    ⟨.mk2r, "ptt1", 1, 0, 0⟩, ⟨.mk2r, "ptt2", 0, 1, 0⟩, ⟨.mk2r, "ptt12", 1, 1, 0⟩, ⟨.mk2r, "semi", 0, 0, 0⟩,
    ⟨.mk2r, "qsk", 0, 0, 1⟩,
    ⟨.mk2rp, "ptt1", 1, 0, 0⟩, ⟨.mk2rp, "ptt2", 0, 1, 0⟩, ⟨.mk2rp, "ptt12", 1, 1, 0⟩, ⟨.mk2rp, "semi", 0, 0, 0⟩,
    ⟨.mk2rp, "qsk", 0, 0, 1⟩]

/-- `compose_ptt_str`. -/
def composePttStr (t : KeyerType) (ptt1 ptt2 qsk : Int) : String :=
  match t with
  | .ck => if ptt1 ≠ 0 then "ptt" else "qsk"
  | .dk => if ptt2 ≠ 0 then "ptt" else "noptt"
  | .dk2 => if ptt2 ≠ 0 then "ptt" else if qsk ≠ 0 then "qsk" else "semi"
  | .mk =>
    if ptt1 ≠ 0 ∧ ptt2 ≠ 0 then "ptt12" else if ptt1 ≠ 0 then "ptt1" else if ptt2 ≠ 0 then "ptt2" else "qsk"
  | .mk2 | .mk3 | .mk2r | .mk2rp =>
    if ptt1 ≠ 0 ∧ ptt2 ≠ 0 then "ptt12" else if ptt1 ≠ 0 then "ptt1" else if ptt2 ≠ 0 then "ptt2"
    else if qsk ≠ 0 then "qsk" else "semi"
  | _ => "_invalid_"

/-- `ptt_has_mode`; `none` is a number that no type has. -/
def pttHasMode (type : Option KeyerType) (mode : PttMode) : Bool :=
  match type with
  | some .ck | some .dk2 => mode == .cw
  | some .dk => mode == .digital
  | _ => true

/-- Options set one after the other, up to the first error. -/
def setKopts (t : KeyerType) (s : List UInt8) : List (String × Int) → List UInt8 × Int
  | [] => (s, 0)
  | (key, val) :: calls =>
    match mhcSetKopt t s key val with
    | (s, r) => if r ≠ 0 then (s, -1) else setKopts t s calls

/-- The options of a PTT setting. -/
def PttMapEntry.calls (e : PttMapEntry) (chan : String) (mode : PttMode) : List (String × Int) :=
  [(chan ++ mode.suffix ++ ".ptt1", (e.ptt1 : Int)), (chan ++ mode.suffix ++ ".ptt2", (e.ptt2 : Int))] ++
    (if mode = .cw then [(chan ++ "Qsk", (e.qsk : Int))] else []) ++
    (if mode = .cw ∧ e.keyerType = .ck then [(chan ++ "DelaySerialPtt", if e.qsk = 0 then 1 else 0)] else [])

/-- `apply_ptt_value`, for a keyer `t` and a request that is for a keyer of `type`. -/
def applyPttValue (t : KeyerType) (type : Option KeyerType) (s : List UInt8) (chan : String) (mode : PttMode)
    (val : String) : List UInt8 × Int :=
  match pttMap.find? fun e => some e.keyerType == type && e.pttStr == val with
  | none => (s, -1)
  | some e => setKopts t s (e.calls chan mode)

/-- The PTT settings of a radio, by their modes. -/
structure PttObj where
  cw : Option JsonVal := none
  voice : Option JsonVal := none
  digital : Option JsonVal := none
deriving DecidableEq

def PttObj.get (o : PttObj) : PttMode → Option JsonVal
  | .cw => o.cw
  | .voice => o.voice
  | .digital => o.digital

/-- The settings after a part of a request was applied, the errors, and whether something was set. -/
structure Applied where
  settings : List UInt8
  errors : Nat := 0
  changed : Bool := false

/-- A round of `apply_ptt_channel_from_json`. -/
def applyPttMode (t : KeyerType) (type : Option KeyerType) (chan : String) (obj : PttObj) (a : Applied) (mode : PttMode) : Applied :=
  match obj.get mode with
  | none => a
  | some val =>
    if !pttHasMode type mode then a
    else
      match val with
      | .str val =>
        match applyPttValue t type a.settings chan mode val with
        | (s, r) =>
          if r ≠ 0 then { a with settings := s, errors := a.errors + 1 } else { a with settings := s, changed := true }
      | _ => { a with errors := a.errors + 1 }

/-- `apply_ptt_channel_from_json`; `none` is no object. -/
def applyPttChannel (t : KeyerType) (type : Option KeyerType) (chan : String) (obj : Option PttObj) (a : Applied) :
    Applied :=
  match obj with
  | none => a
  | some obj => PttMode.all.foldl (applyPttMode t type chan obj) a

/-- `ptt` of a keyer. -/
structure PttJson where
  r1 : Option PttObj := none
  r2 : Option PttObj := none
deriving DecidableEq

/-- `apply_ptt_from_json`. -/
def applyPtt (t : KeyerType) (type : Option KeyerType) (ptt : Option PttJson) (a : Applied) : Applied :=
  match ptt with
  | none => a
  | some ptt => applyPttChannel t type "r2" ptt.r2 (applyPttChannel t type "r1" ptt.r1 a)

/-- The value of an option in `param`. -/
def paramGetInt (param : List (String × Nat)) (key : String) : Int := ((param.lookup key).getD 0 : Nat)

/-- `build_ptt_channel_json`. -/
def buildPttChannel (t : KeyerType) (param : List (String × Nat)) (chan : String) : Option PttObj :=
  if ∀ key ∈ [chan ++ "FrBase_Cw.ptt1", chan ++ "FrBase_Cw.ptt2", chan ++ "Qsk"], param.lookup key = none then none
  else
    let build (mode : PttMode) : Option JsonVal :=
      if pttHasMode (some t) mode then
        some (.str (composePttStr t (paramGetInt param (chan ++ mode.suffix ++ ".ptt1"))
          (paramGetInt param (chan ++ mode.suffix ++ ".ptt2")) (paramGetInt param (chan ++ "Qsk"))))
      else none
    some ⟨build .cw, build .voice, build .digital⟩

/-- `build_ptt_meta_json`. -/
def buildPtt (t : KeyerType) (param : List (String × Nat)) : Option PttJson :=
  match buildPttChannel t param "r1", buildPttChannel t param "r2" with
  | none, none => none
  | r1, r2 => some ⟨r1, r2⟩

/-! ### Options -/

/-- A member of `param`: the keys of nested objects are joined by dots. -/
inductive ParamJson
  | val (v : JsonVal)
  | obj (members : List (String × ParamJson))

/-- The value of an option, `none` if it is no number. -/
def koptVal : JsonVal → Option Int
  | .int i => some (castInt i)
  | .bool b => some (if b then 1 else 0)
  | .real q => some (castInt (q.num.tdiv q.den))
  | _ => none

def fullKey (pre key : String) : String := if pre = "" then key else pre ++ "." ++ key

mutual
/-- The options of a member. -/
def ParamJson.calls (key : String) : ParamJson → List (String × Int)
  | .val v => (koptVal v).toList.map (key, ·)
  | .obj members => memberCalls key members

/-- The options in the order of `apply_kopts_from_json`. -/
def memberCalls (pre : String) : List (String × ParamJson) → List (String × Int)
  | [] => []
  | (key, v) :: members => v.calls (fullKey pre key) ++ memberCalls pre members
end

/-- `apply_kopts_from_json`. -/
def applyKopts (t : KeyerType) (calls : List (String × Int)) (a : Applied) : Applied :=
  calls.foldl (fun a c =>
    match mhcSetKopt t a.settings c.1 c.2 with
    | (s, r) => { a with settings := s, errors := if r ≠ 0 then a.errors + 1 else a.errors }) a

/-! ### Requests -/

/-- The type and the settings of a request; `none` where a section is missing. -/
structure SettingsJson where
  type : Option JsonVal
  ptt : Option PttJson
  param : Option (List (String × ParamJson))

/-- The type a request is for, the keyer's own if it has none. -/
def SettingsJson.keyerType (req : SettingsJson) (t : KeyerType) : Option KeyerType :=
  let type := jsonGetInt req.type 0
  typeOf (if type = 0 then mhcGetType t else type)

/-- `kcfg_get_settings`: the block as it is sent. -/
def kcfgGetSettings (t : KeyerType) (s : List UInt8) : List UInt8 := if t.isMkFamily then mk1SetFrbase t s else s

/-- `apply_device_from_json`, the part about the keyer settings, with the errors: those of a keyer that is online are
sent. -/
def applySettings (t : KeyerType) (online : Bool) (s : List UInt8) (req : SettingsJson) : List UInt8 × Nat :=
  let a := applyPtt t (req.keyerType t) req.ptt ⟨s, 0, false⟩
  let changed := a.changed
  let a := match req.param with
    | none => a
    | some members => applyKopts t (memberCalls "" members) a
  (if (req.param.isSome || changed) && online then kcfgGetSettings t a.settings else a.settings, a.errors)

/-- The settings of a keyer in the file, `build_config_json`. -/
def savedSettings (t : KeyerType) (s : List UInt8) : SettingsJson :=
  let param := kopts (items t) s
  ⟨some (.int (mhcGetType t)), buildPtt t param, some (param.map fun m => (m.1, .val (.int m.2)))⟩

/-- `kcfg_update_keyer_mode`. -/
def kcfgUpdateKeyerMode (t : KeyerType) (s : List UInt8) (cur r1 r2 : UInt8) : List UInt8 :=
  if t.hasR2 then
    (kcfgSetVal (items t) (kcfgSetVal (items t) s "r1KeyerMode" r1.toNat).1 "r2KeyerMode" r2.toNat).1
  else (kcfgSetVal (items t) s "r1KeyerMode" cur.toNat).1

/-- What is saved is applied as settings of the keyer's own type. -/
theorem keyerType_savedSettings (t : KeyerType) (s : List UInt8) : (savedSettings t s).keyerType t = some t := by
  cases t <;> rfl

/-- What happens to the settings of a keyer. -/
inductive SettingsEv
  | request (online : Bool) (req : SettingsJson)
  | keyerMode (cur r1 r2 : UInt8)
  | send

def settingsStep (t : KeyerType) (s : List UInt8) : SettingsEv → List UInt8
  | .request online req => (applySettings t online s req).1
  | .keyerMode cur r1 r2 => kcfgUpdateKeyerMode t s cur r1 r2
  | .send => kcfgGetSettings t s

/-! ### What applying keeps -/

section keeps
variable {t : KeyerType} {type : Option KeyerType} {s : List UInt8} {P : List UInt8 → Prop}

theorem mhcSetKopt_cases (t : KeyerType) (s : List UInt8) (key : String) (val : Int) :
    (mhcSetKopt t s key val).1 = s ∨ (mhcSetKopt t s key val).1 = (kcfgSetVal (items t) s key val).1 := by
  unfold mhcSetKopt
  split_ifs
  · exact Or.inl rfl
  · exact Or.inr rfl

theorem keeps_mhcSetKopt {key : String} {val : Int} (h : P s → P (kcfgSetVal (items t) s key val).1) (hs : P s) :
    P (mhcSetKopt t s key val).1 := by
  rcases mhcSetKopt_cases t s key val with heq | heq <;> rw [heq]
  · exact hs
  · exact h hs

theorem keeps_setKopts {calls : List (String × Int)}
    (h : ∀ c ∈ calls, ∀ s, P s → P (kcfgSetVal (items t) s c.1 c.2).1) (hs : P s) : P (setKopts t s calls).1 := by
  induction calls generalizing s with
  | nil => exact hs
  | cons c calls ih =>
    have hset := keeps_mhcSetKopt (h c List.mem_cons_self s) hs
    unfold setKopts
    generalize mhcSetKopt t s c.1 c.2 = res at hset
    dsimp only
    split_ifs
    · exact hset
    · exact ih (fun c hc => h c (List.mem_cons_of_mem _ hc)) hset

/-- The options that PTT settings set. -/
def pttCalls : List (String × Int) :=
  pttMap.flatMap fun e => ["r1", "r2"].flatMap fun chan => PttMode.all.flatMap fun mode => e.calls chan mode

theorem mem_pttCalls {e : PttMapEntry} (he : e ∈ pttMap) {chan : String} (hchan : chan = "r1" ∨ chan = "r2")
    (mode : PttMode) {c : String × Int} (hc : c ∈ e.calls chan mode) : c ∈ pttCalls := by
  refine List.mem_flatMap.mpr ⟨e, he, List.mem_flatMap.mpr ⟨chan, by simpa using hchan, ?_⟩⟩
  exact List.mem_flatMap.mpr ⟨mode, by cases mode <;> decide, hc⟩

variable (h : ∀ c ∈ pttCalls, ∀ s, P s → P (kcfgSetVal (items t) s c.1 c.2).1)
include h

theorem keeps_applyPttValue {chan : String} (hchan : chan = "r1" ∨ chan = "r2") (mode : PttMode) (val : String)
    (hs : P s) : P (applyPttValue t type s chan mode val).1 := by
  unfold applyPttValue
  split
  · exact hs
  · rename_i e he
    exact keeps_setKopts (fun c hc => h c (mem_pttCalls (List.mem_of_find?_eq_some he) hchan mode hc)) hs

theorem keeps_applyPttMode {chan : String} (hchan : chan = "r1" ∨ chan = "r2") (obj : PttObj) {a : Applied}
    (ha : P a.settings) (mode : PttMode) : P (applyPttMode t type chan obj a mode).settings := by
  unfold applyPttMode
  cases obj.get mode with
  | none => exact ha
  | some val =>
    dsimp only
    split_ifs
    · exact ha
    · cases val with
      | str val =>
        have hval : P (applyPttValue t type a.settings chan mode val).1 := keeps_applyPttValue h hchan mode val ha
        dsimp only
        split_ifs <;> exact hval
      | int | bool | real | other => exact ha

theorem keeps_applyPttChannel {chan : String} (hchan : chan = "r1" ∨ chan = "r2") (obj : Option PttObj) {a : Applied}
    (ha : P a.settings) : P (applyPttChannel t type chan obj a).settings := by
  unfold applyPttChannel
  cases obj with
  | none => exact ha
  | some obj =>
    exact List.foldlRecOn (motive := fun a : Applied => P a.settings) _ _ ha
      fun _ ha mode _ => keeps_applyPttMode h hchan obj ha mode

theorem keeps_applyPtt (ptt : Option PttJson) {a : Applied} (ha : P a.settings) : P (applyPtt t type ptt a).settings := by
  unfold applyPtt
  split
  · exact ha
  · exact keeps_applyPttChannel h (Or.inr rfl) _ (keeps_applyPttChannel h (Or.inl rfl) _ ha)

end keeps

theorem keeps_applyKopts {t : KeyerType} {P : List UInt8 → Prop} {calls : List (String × Int)}
    (h : ∀ c ∈ calls, ∀ s, P s → P (kcfgSetVal (items t) s c.1 c.2).1) {a : Applied} (ha : P a.settings) :
    P (applyKopts t calls a).settings :=
  List.foldlRecOn (motive := fun a : Applied => P a.settings) _ _ ha fun _ ha c hc => keeps_mhcSetKopt (h c hc _) ha

/-! ### What is saved -/

section saved
variable {α : Type} {kv : List (String × α)} {key k : String} {v v' : α}

theorem mem_jsonObjectSet : (k, v) ∈ jsonObjectSet kv key v' ↔ (k = key ∧ v = v') ∨ (k ≠ key ∧ (k, v) ∈ kv) := by
  unfold jsonObjectSet
  split_ifs with hkey
  · obtain ⟨m, hold, hm⟩ := List.mem_map.mp hkey
    rw [List.mem_map]
    constructor
    · rintro ⟨⟨k', v''⟩, hmem, heq⟩
      split_ifs at heq with hk
      · obtain ⟨rfl, rfl⟩ := Prod.mk.inj heq
        exact Or.inl ⟨rfl, rfl⟩
      · obtain ⟨rfl, rfl⟩ := Prod.mk.inj heq
        exact Or.inr ⟨hk, hmem⟩
    · rintro (⟨rfl, rfl⟩ | ⟨hk, hmem⟩)
      · exact ⟨m, hold, if_pos hm⟩
      · exact ⟨_, hmem, if_neg hk⟩
  · rw [List.mem_append, List.mem_singleton, Prod.mk.injEq]
    constructor
    · rintro (hmem | heq)
      · exact Or.inr ⟨fun hk => hkey (hk ▸ List.mem_map_of_mem hmem), hmem⟩
      · exact Or.inl heq
    · rintro (heq | ⟨-, hmem⟩)
      · exact Or.inr heq
      · exact Or.inl hmem

theorem nodup_jsonObjectSet (h : (kv.map Prod.fst).Nodup) (key : String) (v : α) :
    ((jsonObjectSet kv key v).map Prod.fst).Nodup := by
  unfold jsonObjectSet
  split_ifs with hkey
  · have hkeys : (kv.map fun m => if m.1 = key then (key, v) else m).map Prod.fst = kv.map Prod.fst := by
      rw [List.map_map]
      refine List.map_congr_left fun m _ => ?_
      rw [Function.comp_apply]
      split_ifs with hm
      · exact hm.symm
      · rfl
    rwa [hkeys]
  · rw [List.map_append, List.map_singleton]
    refine List.nodup_append.mpr ⟨h, List.nodup_singleton _, fun a ha b hb => ?_⟩
    rw [List.mem_singleton.mp hb]
    exact ne_of_mem_of_not_mem ha hkey

/-- An option is saved with the value of the last item with its key. -/
theorem mem_kopts (is : List Citem) (s : List UInt8) {v : Nat} :
    (k, v) ∈ kopts is s ↔ ∃ i, is.reverse.find? (fun i => i.key == k) = some i ∧ v = i.field.get s := by
  induction is using List.reverseRecOn with
  | nil => simp [kopts]
  | append_singleton is x ih =>
    rw [kopts, List.foldl_append, List.foldl_cons, List.foldl_nil, mem_jsonObjectSet, List.reverse_append,
      List.reverse_singleton, List.singleton_append, List.find?_cons, ← kopts, ih]
    by_cases hk : k = x.key
    · subst hk
      simp
    · have hne : (x.key == k) = false := beq_eq_false_iff_ne.mpr fun h => hk h.symm
      simp [hk, hne]

theorem nodup_kopts (is : List Citem) (s : List UInt8) : ((kopts is s).map Prod.fst).Nodup := by
  induction is using List.reverseRecOn with
  | nil => exact List.nodup_nil
  | append_singleton is x ih =>
    rw [kopts, List.foldl_append, List.foldl_cons, List.foldl_nil]
    exact nodup_jsonObjectSet ih ..

end saved

/-- The two items of an MK2R that have one key. -/
def twice (t : KeyerType) : Option (Citem × Citem) :=
  if t = .mk2r ∨ t = .mk2rp then
    some (⟨"accSer1BaudRate", 48, 7, 8, 0x24⟩, ⟨"accSer1BaudRate", 49, 7, 8, 0x24⟩)
  else none

/-- Other keys differ, in more than their letter case. -/
def Keyed (is : List Citem) (two : Option (Citem × Citem)) : Prop :=
  is.Pairwise fun i j => caseCode i.key = caseCode j.key → two = some (i, j)

theorem keyed_items (t : KeyerType) : Keyed (items t) (twice t) := by
  have hck : (items .ck).Pairwise fun i j => caseCode i.key = caseCode j.key → none = some (i, j) := by decide +kernel
  have hmk : (items .mk).Pairwise fun i j => caseCode i.key = caseCode j.key → none = some (i, j) := by decide +kernel
  have hdk2 : (items .dk2).Pairwise fun i j => caseCode i.key = caseCode j.key → none = some (i, j) := by decide +kernel
  have hmk2 : (items .mk2).Pairwise fun i j => caseCode i.key = caseCode j.key → none = some (i, j) := by decide +kernel
  have hmk3 : (items .mk3).Pairwise fun i j => caseCode i.key = caseCode j.key → none = some (i, j) := by decide +kernel
  have hmk2r : (items .mk2r).Pairwise fun i j => caseCode i.key = caseCode j.key → twice .mk2r = some (i, j) := by
    decide +kernel
  have hu2r : (items .u2r).Pairwise fun i j => caseCode i.key = caseCode j.key → none = some (i, j) := by decide +kernel
  have hsm : (items .sm).Pairwise fun i j => caseCode i.key = caseCode j.key → none = some (i, j) := by decide +kernel
  cases t with
  | ck | dk => exact hck
  | mk => exact hmk
  | dk2 => exact hdk2
  | mk2 => exact hmk2
  | mk3 => exact hmk3
  | mk2r | mk2rp => exact hmk2r
  | u2r => exact hu2r
  | sm | smd => exact hsm

theorem twice_find (t : KeyerType) : ∀ p ∈ twice t, findCitem (items t) p.1.key = some p.1 ∧
    (items t).reverse.find? (fun i => i.key == p.1.key) = some p.2 ∧ p.1.field.mask = p.2.field.mask ∧
      p.2.key = p.1.key ∧ ¬ p.1.Protected := by
  cases t with
  | mk2r | mk2rp => decide +kernel
  | ck | dk | dk2 | mk | mk2 | sm | smd | u2r | mk3 => exact nofun

section restore
variable {t : KeyerType} {is : List Citem} {two : Option (Citem × Citem)} {size : Nat} {s s₀ : List UInt8} {i j l : Citem}
  {m : Citem → Int} {calls : List (String × Int)}

theorem find_self (hk : Keyed is two) (hi : i ∈ is) (hne : ∀ p ∈ two, i ≠ p.2) : findCitem is i.key = some i := by
  have hself : strcaseEq i.key i.key = true := strcaseEq_iff.2 rfl
  cases hfind : findCitem is i.key with
  | none => exact absurd hself (by simpa using List.find?_eq_none.1 hfind i hi)
  | some x =>
    obtain ⟨-, before, later, hsplit, hbefore⟩ := List.find?_eq_some_iff_append.mp hfind
    have hcode := find_code hfind
    rw [hsplit, List.mem_append, List.mem_cons] at hi
    rcases hi with hi | rfl | hi
    · exact absurd hself (by simpa using hbefore i hi)
    · rfl
    · rw [hsplit] at hk
      have htwo := (List.pairwise_cons.mp (List.pairwise_append.mp hk).2.1).1 i hi hcode.symm
      exact absurd rfl (hne (x, i) htwo)

theorem last_self (hk : Keyed is two) (hi : i ∈ is) (hne : ∀ p ∈ two, i ≠ p.1) :
    is.reverse.find? (fun x => x.key == i.key) = some i := by
  cases hfind : is.reverse.find? fun x => x.key == i.key with
  | none => exact absurd (beq_self_eq_true i.key) (by simpa using List.find?_eq_none.1 hfind i (List.mem_reverse.2 hi))
  | some x =>
    obtain ⟨hx, later, before, hsplit, hlater⟩ := List.find?_eq_some_iff_append.mp hfind
    have hkey : x.key = i.key := eq_of_beq hx
    have hmem := hsplit ▸ List.mem_reverse.2 hi
    rw [List.mem_append, List.mem_cons] at hmem
    rcases hmem with hmem | rfl | hmem
    · exact absurd (hlater i hmem) (by simp)
    · rfl
    · have hsplit' : is = before.reverse ++ x :: later.reverse := by
        rw [← List.reverse_reverse is, hsplit]
        simp
      rw [hsplit'] at hk
      have htwo := (List.pairwise_append.mp hk).2.2 i (List.mem_reverse.2 hmem) x List.mem_cons_self
        (congrArg caseCode hkey.symm)
      exact absurd rfl (hne (i, x) htwo)

theorem run_setSpec_skip (h : ∀ c ∈ calls, findCitem is c.1 ≠ some j) : Run.run (setSpec is) m calls j = m j := by
  induction calls generalizing m with
  | nil => rfl
  | cons c calls ih =>
    rw [Run.run_cons, ih fun c hc => h c (List.mem_cons_of_mem _ hc)]
    unfold setSpec
    split_ifs
    · exact if_neg (h c List.mem_cons_self)
    · rfl

/-- One call that finds the item. -/
theorem run_setSpec_one {c : String × Int} (hc : c ∈ calls) (hfind : findCitem is c.1 = some j)
    (hnodup : (calls.map Prod.fst).Nodup) (hothers : ∀ c' ∈ calls, findCitem is c'.1 = some j → c'.1 = c.1) :
    Run.run (setSpec is) m calls j = if Accepts is c.1 c.2 then c.2 else m j := by
  obtain ⟨before, later, rfl⟩ := List.append_of_mem hc
  rw [List.map_append, List.map_cons, List.nodup_append, List.nodup_cons] at hnodup
  obtain ⟨-, ⟨hlater, -⟩, hbefore⟩ := hnodup
  have hskip : ∀ c' ∈ before, findCitem is c'.1 ≠ some j := fun c' hc' hfind' =>
    hbefore _ (List.mem_map_of_mem hc') _ List.mem_cons_self (hothers c' (List.mem_append_left _ hc') hfind')
  have hskip' : ∀ c' ∈ later, findCitem is c'.1 ≠ some j := fun c' hc' hfind' =>
    hlater (hothers c' (List.mem_append_right _ (List.mem_cons_of_mem _ hc')) hfind' ▸ List.mem_map_of_mem hc')
  rw [Run.run_append, Run.run_cons, run_setSpec_skip hskip']
  unfold setSpec
  split_ifs
  · exact if_pos hfind
  · exact run_setSpec_skip hskip

/-- The saved options as they are applied. -/
def savedCalls (is : List Citem) (s : List UInt8) : List (String × Int) := (kopts is s).map fun m => (m.1, (m.2 : Int))

theorem mem_savedCalls {c : String × Int} : c ∈ savedCalls is s ↔
    ∃ l, is.reverse.find? (fun i => i.key == c.1) = some l ∧ c.2 = l.field.get s := by
  obtain ⟨key, val⟩ := c
  unfold savedCalls
  rw [List.mem_map]
  constructor
  · rintro ⟨⟨key', v⟩, hmem, heq⟩
    obtain ⟨rfl, rfl⟩ := Prod.mk.inj heq
    obtain ⟨l, hl, rfl⟩ := (mem_kopts is s).mp hmem
    exact ⟨l, hl, rfl⟩
  · rintro ⟨l, hl, hval⟩
    exact ⟨(key, l.field.get s), (mem_kopts is s).mpr ⟨l, hl, rfl⟩, Prod.ext rfl hval.symm⟩

theorem nodup_savedCalls (is : List Citem) (s : List UInt8) : ((savedCalls is s).map Prod.fst).Nodup := by
  have hkeys : (savedCalls is s).map Prod.fst = (kopts is s).map Prod.fst := by
    rw [savedCalls, List.map_map]
    rfl
  rw [hkeys]
  exact nodup_kopts is s

/-- A saved key is that of an item. -/
theorem key_savedCalls {c : String × Int} (hc : c ∈ savedCalls is s) : ∃ i ∈ is, i.key = c.1 := by
  obtain ⟨l, hl, -⟩ := mem_savedCalls.mp hc
  exact ⟨l, List.mem_reverse.1 (List.mem_of_find?_eq_some hl), eq_of_beq (List.find?_some (p := fun i : Citem => i.key == c.1) hl)⟩

variable (hk : Keyed is two) (htwo : ∀ p ∈ two, p.2.key = p.1.key)
include hk htwo

theorem key_eq_of_code (hi : i ∈ is) (hj : j ∈ is) (hcode : caseCode i.key = caseCode j.key) : i.key = j.key := by
  by_cases hij : i = j
  · rw [hij]
  · have hsym : Std.Symm fun i j : Citem => caseCode i.key = caseCode j.key → two = some (i, j) ∨ two = some (j, i) :=
      ⟨fun _ _ h hcode => (h hcode.symm).symm⟩
    have hpair : is.Pairwise fun i j => caseCode i.key = caseCode j.key → two = some (i, j) ∨ two = some (j, i) :=
      hk.imp fun h hcode => Or.inl (h hcode)
    rcases hpair.forall hi hj hij hcode with heq | heq
    · exact (htwo (i, j) heq).symm
    · exact htwo (j, i) heq

theorem regular_savedCalls : ∀ c ∈ savedCalls is s, Regular is c.1 c.2 := by
  intro c hc i hi
  obtain ⟨l, hl, hlkey⟩ := key_savedCalls hc
  obtain ⟨l', -, hval⟩ := mem_savedCalls.mp hc
  by_cases hprot : i.Protected
  · have hkey := key_eq_of_code hk htwo hl (find_mem hi) (hlkey ▸ find_code hi)
    exact Or.inl (hlkey ▸ hkey ▸ hprot)
  · exact Or.inr ⟨by omega, fun h => absurd h hprot⟩

theorem get_restored (ht : Table is size) (hs₀ : s₀.length = size) (hj : j ∈ is) (hfind : findCitem is j.key = some j)
    (hlast : is.reverse.find? (fun i => i.key == j.key) = some l) :
    (j.field.get (Run.run (setStep is) s₀ (savedCalls is s)) : Int) =
      if Accepts is j.key (l.field.get s) then (l.field.get s : Int) else j.field.get s₀ := by
  have hall := (stepsOk_iff ht hs₀).mpr (regular_savedCalls (s := s) hk htwo)
  rw [get_setSteps ht hs₀ hall (m := fun i => i.field.get s₀) (fun _ _ => rfl) j hj]
  have hmem : (j.key, (l.field.get s : Int)) ∈ savedCalls is s := mem_savedCalls.mpr ⟨l, hlast, rfl⟩
  refine run_setSpec_one hmem hfind (nodup_savedCalls is s) fun c hc hc' => ?_
  obtain ⟨i, hi, hikey⟩ := key_savedCalls hc
  exact hikey.symm.trans (key_eq_of_code hk htwo hi hj (hikey ▸ find_code hc'))

theorem get_restored_skip (ht : Table is size) (hs₀ : s₀.length = size) (hj : j ∈ is)
    (hfind : ∀ key, findCitem is key ≠ some j) :
    j.field.get (Run.run (setStep is) s₀ (savedCalls is s)) = j.field.get s₀ := by
  have hall := (stepsOk_iff ht hs₀).mpr (regular_savedCalls (s := s) hk htwo)
  have hget := get_setSteps ht hs₀ hall (m := fun i => i.field.get s₀) (fun _ _ => rfl) j hj
  rw [run_setSpec_skip fun c _ => hfind c.1] at hget
  exact_mod_cast hget

end restore

/-! ### A restart -/

section restart
variable {t : KeyerType} {s : List UInt8}

theorem find_again {is : List Citem} {key : String} {i : Citem} (h : findCitem is key = some i) :
    findCitem is i.key = some i := by
  have hsame : key.toList.map Char.toLower = i.key.toList.map Char.toLower :=
    eq_of_beq (List.find?_some (p := fun i : Citem => strcaseEq key i.key) h)
  rw [← h]
  unfold findCitem strcaseEq
  rw [hsame]

/-- The second item is found by no key. -/
theorem find_ne_second {p : Citem × Citem} (hp : p ∈ twice t) (key : String) : findCitem (items t) key ≠ some p.2 := by
  intro hfind
  obtain ⟨hfirst, -, -, hkey, -⟩ := twice_find t p hp
  have heq := Option.some.inj ((hkey ▸ find_again hfind).symm.trans hfirst)
  revert heq
  unfold twice at hp
  split_ifs at hp
  · rw [← Option.some.inj hp]
    decide
  · exact nomatch hp

theorem second_byte (t : KeyerType) : ∀ p ∈ twice t,
    p.2 ∈ items t ∧ ∀ i ∈ items t, i.field.byte = p.2.field.byte → i = p.2 := by
  cases t with
  | mk2r | mk2rp => decide +kernel
  | ck | dk | dk2 | mk | mk2 | sm | smd | u2r | mk3 => exact nofun

theorem second_kept {p : Citem × Citem} (hp : p ∈ twice t) (s : List UInt8) (key : String) (val : Int) :
    p.2.field.get (kcfgSetVal (items t) s key val).1 = p.2.field.get s := by
  unfold kcfgSetVal
  cases hfind : findCitem (items t) key with
  | none => rfl
  | some i =>
    have hne : i.field.byte ≠ p.2.field.byte := fun hbyte =>
      find_ne_second hp key (hfind.trans (congrArg some ((second_byte t p hp).2 i (find_mem hfind) hbyte)))
    dsimp only
    split_ifs
    · rfl
    · rfl
    · rfl
    · rw [BitField.get, BitField.getD_put_of_ne hne]
      rfl

/-- The block has its size, and the item that no key finds its first value. -/
def Kept (t : KeyerType) (s : List UInt8) : Prop :=
  s.length = bufSize t ∧ ∀ p ∈ twice t, p.2.field.get s = p.2.field.get (kcfgCreate t)

theorem Kept.set (h : Kept t s) (key : String) (val : Int) : Kept t (kcfgSetVal (items t) s key val).1 :=
  ⟨(length_kcfgSetVal ..).trans h.1, fun p hp => (second_kept hp s key val).trans (h.2 p hp)⟩

theorem twice_mkFamily (h : t.isMkFamily = true) : twice t = none := by
  cases t <;> first | rfl | exact absurd h (by decide)

theorem Kept.send (h : Kept t s) : Kept t (kcfgGetSettings t s) := by
  unfold kcfgGetSettings
  split_ifs with hmk
  · refine ⟨(length_mk1SetFrbase t s).trans h.1, ?_⟩
    rw [twice_mkFamily hmk]
    exact nofun
  · exact h

theorem Kept.step (h : Kept t s) (e : SettingsEv) : Kept t (settingsStep t s e) := by
  cases e with
  | request online req =>
    have hptt : Kept t (applyPtt t (req.keyerType t) req.ptt ⟨s, 0, false⟩).settings :=
      keeps_applyPtt (fun c _ _ hs => hs.set c.1 c.2) req.ptt h
    unfold settingsStep applySettings
    dsimp only
    cases req.param with
    | none =>
      split_ifs
      · exact hptt.send
      · exact hptt
    | some members =>
      have hparam : Kept t (applyKopts t (memberCalls "" members)
          (applyPtt t (req.keyerType t) req.ptt ⟨s, 0, false⟩)).settings :=
        keeps_applyKopts (fun c _ _ hs => hs.set c.1 c.2) hptt
      split_ifs
      · exact hparam.send
      · exact hparam
  | keyerMode cur r1 r2 =>
    unfold settingsStep kcfgUpdateKeyerMode
    dsimp only
    split_ifs
    · exact (h.set _ _).set _ _
    · exact h.set _ _
  | send => exact h.send

theorem Kept.run (h : Kept t s) (evs : List SettingsEv) : Kept t (Run.run (settingsStep t) s evs) := by
  induction evs generalizing s with
  | nil => exact h
  | cons e evs ih => exact ih (h.step e)

theorem kept_create (t : KeyerType) : Kept t (kcfgCreate t) := ⟨length_create t, fun _ _ => rfl⟩

theorem pttCalls_regular : ∀ c ∈ pttCalls, 0 ≤ c.2 ∧ (c.1 ∈ enforcedKeys ∨ caseCode c.1 ∉ enforcedCodes) := by
  decide +kernel

/-- PTT settings leave the protected options alone. -/
theorem protected_applyPtt (type : Option KeyerType) (ptt : Option PttJson) (h : Kept t s)
    (hprot : AllProtected (items t) s) : AllProtected (items t) (applyPtt t type ptt ⟨s, 0, false⟩).settings := by
  have hkeeps : ∀ c ∈ pttCalls, ∀ s, Kept t s ∧ AllProtected (items t) s →
      Kept t (kcfgSetVal (items t) s c.1 c.2).1 ∧ AllProtected (items t) (kcfgSetVal (items t) s c.1 c.2).1 := by
    intro c hc s hs
    refine ⟨hs.1.set _ _, ?_⟩
    have hset : AllProtected (items t) (setVals (items t) s [c]) :=
      allProtected_setVals (table_items t) hs.1.1 hs.2 fun c' hc' => by
        rw [List.mem_singleton.mp hc']
        exact pttCalls_regular c hc
    exact hset
  exact (keeps_applyPtt (P := fun s => Kept t s ∧ AllProtected (items t) s) hkeeps ptt ⟨h, hprot⟩).2

theorem keys_nonempty (t : KeyerType) : ∀ i ∈ items t, i.key ≠ "" := by
  cases t <;> decide +kernel

theorem applyKopts_saved (t : KeyerType) (s : List UInt8) (a : Applied) :
    (applyKopts t (savedCalls (items t) s) a).settings =
      Run.run (setStep (items t)) a.settings (savedCalls (items t) s) := by
  have hkeys : ∀ c ∈ savedCalls (items t) s, c.1 ≠ "" := by
    intro c hc
    obtain ⟨i, hi, hkey⟩ := key_savedCalls hc
    exact hkey ▸ keys_nonempty t i hi
  unfold applyKopts
  generalize savedCalls (items t) s = calls at hkeys
  induction calls generalizing a with
  | nil => rfl
  | cons c calls ih =>
    rw [List.foldl_cons, ih _ fun c hc => hkeys c (List.mem_cons_of_mem _ hc), Run.run_cons]
    refine congrArg (fun s => Run.run (setStep (items t)) s calls) ?_
    simp [mhcSetKopt, hkeys c List.mem_cons_self, setStep]

theorem memberCalls_saved (t : KeyerType) (s : List UInt8) :
    memberCalls "" ((kopts (items t) s).map fun m => (m.1, .val (.int m.2))) = savedCalls (items t) s := by
  have hsmall : ∀ m ∈ kopts (items t) s, m.2 ≤ 255 := by
    intro m hm
    obtain ⟨i, hi, hval⟩ := (mem_kopts (items t) s).mp hm
    have hfits := (table_items t).fits i (List.mem_reverse.1 (List.mem_of_find?_eq_some hi))
    have hwidth : 2 ^ i.field.width ≤ 2 ^ 8 := Nat.pow_le_pow_right (by decide) (by unfold BitField.Fits at hfits; omega)
    have hle := i.field.get_le s
    unfold BitField.mask at hle
    omega
  unfold savedCalls
  revert hsmall
  generalize kopts (items t) s = members
  intro hsmall
  induction members with
  | nil => rfl
  | cons m members ih =>
    have hcast : castInt (m.2 : Int) = m.2 := by
      have hm := hsmall m List.mem_cons_self
      unfold castInt
      exact Int.bmod_eq_of_le (by omega) (by omega)
    rw [List.map_cons, memberCalls, ih fun m hm => hsmall m (List.mem_cons_of_mem _ hm)]
    simp [ParamJson.calls, koptVal, fullKey, hcast]

/-- The options after a restart are those before it exactly if the protected ones have their defaults and the two items
with one key one value. -/
theorem options_survive_restart (t : KeyerType) (evs : List SettingsEv) :
    (∀ i ∈ items t, i.field.get (applySettings t false (kcfgCreate t)
        (savedSettings t (Run.run (settingsStep t) (kcfgCreate t) evs))).1 =
      i.field.get (Run.run (settingsStep t) (kcfgCreate t) evs)) ↔
    AllProtected (items t) (Run.run (settingsStep t) (kcfgCreate t) evs) ∧ ∀ p ∈ twice t,
      p.1.field.get (Run.run (settingsStep t) (kcfgCreate t) evs) =
        p.2.field.get (Run.run (settingsStep t) (kcfgCreate t) evs) := by
  have hkept := (kept_create t).run evs
  generalize Run.run (settingsStep t) (kcfgCreate t) evs = s at hkept
  have hfresh := protected_applyPtt (some t) (savedSettings t s).ptt (kept_create t) (allProtected_create t)
  have hfreshKept : Kept t (applyPtt t (some t) (savedSettings t s).ptt ⟨kcfgCreate t, 0, false⟩).settings :=
    keeps_applyPtt (fun c _ _ hs => hs.set c.1 c.2) _ (kept_create t)
  have hrestored : (applySettings t false (kcfgCreate t) (savedSettings t s)).1 =
      Run.run (setStep (items t)) (applyPtt t (some t) (savedSettings t s).ptt ⟨kcfgCreate t, 0, false⟩).settings
        (savedCalls (items t) s) := by
    rw [← applyKopts_saved, ← memberCalls_saved]
    unfold applySettings
    rw [keyerType_savedSettings]
    simp [savedSettings]
  rw [hrestored]
  generalize (applyPtt t (some t) (savedSettings t s).ptt ⟨kcfgCreate t, 0, false⟩).settings = s₀ at hfresh hfreshKept
  have ht := table_items t
  have hk := keyed_items t
  have htwo : ∀ p ∈ twice t, p.2.key = p.1.key := fun p hp => (twice_find t p hp).2.2.2.1
  -- an item that is alone with its key
  have halone : ∀ i ∈ items t, (∀ p ∈ twice t, i ≠ p.1 ∧ i ≠ p.2) →
      (i.field.get (Run.run (setStep (items t)) s₀ (savedCalls (items t) s)) : Int) =
        if Accepts (items t) i.key (i.field.get s) then (i.field.get s : Int) else i.field.get s₀ := fun i hi hne =>
    get_restored hk htwo ht hfreshKept.1 hi (find_self hk hi fun p hp => (hne p hp).2)
      (last_self hk hi fun p hp => (hne p hp).1)
  have hfirst : ∀ p ∈ twice t, p.1.field.get (Run.run (setStep (items t)) s₀ (savedCalls (items t) s)) =
      p.2.field.get s := by
    intro p hp
    obtain ⟨hfind, hlast, hmask, -, hprot⟩ := twice_find t p hp
    have hget := get_restored (s := s) hk htwo ht hfreshKept.1 (find_mem hfind) hfind hlast
    have haccepts : Accepts (items t) p.1.key (p.2.field.get s) :=
      (accepts_iff hfind).mpr ⟨by omega, by exact_mod_cast hmask ▸ p.2.field.get_le s, fun h => absurd h hprot⟩
    rw [if_pos haccepts] at hget
    exact_mod_cast hget
  have hsecond : ∀ p ∈ twice t, p.2.field.get (Run.run (setStep (items t)) s₀ (savedCalls (items t) s)) =
      p.2.field.get s := by
    intro p hp
    rw [get_restored_skip hk htwo ht hfreshKept.1 (second_byte t p hp).1 (find_ne_second hp), hfreshKept.2 p hp,
      hkept.2 p hp]
  constructor
  · intro h
    refine ⟨fun e he hprot => ?_, fun p hp => ?_⟩
    · by_contra hne
      have hnot : ∀ p ∈ twice t, e ≠ p.1 ∧ e ≠ p.2 := by
        intro p hp
        obtain ⟨-, -, -, hkey, hfree⟩ := twice_find t p hp
        refine ⟨fun heq => hfree (heq ▸ hprot), fun heq => hfree ?_⟩
        unfold Citem.Protected at hprot ⊢
        rw [← hkey, ← heq]
        exact hprot
      have hget := halone e he hnot
      have hrefused : ¬ Accepts (items t) e.key (e.field.get s) := fun haccepts => hne (by
        have hdflt := ((accepts_iff (find_self hk he fun p hp => (hnot p hp).2)).mp haccepts).2.2 hprot
        exact_mod_cast hdflt)
      rw [if_neg hrefused, hfresh e he hprot, h e he] at hget
      exact hne (by exact_mod_cast hget)
    · rw [← hfirst p hp]
      exact (h p.1 (find_mem (twice_find t p hp).1)).symm
  · rintro ⟨hprot, hone⟩ i hi
    by_cases hp : ∃ p ∈ twice t, i = p.1 ∨ i = p.2
    · obtain ⟨p, hp, rfl | rfl⟩ := hp
      · rw [hfirst p hp, hone p hp]
      · exact hsecond p hp
    · have hnot : ∀ p ∈ twice t, i ≠ p.1 ∧ i ≠ p.2 := fun p hmem =>
        not_or.mp fun hor => hp ⟨p, hmem, hor⟩
      have hget := halone i hi hnot
      have haccepts : Accepts (items t) i.key (i.field.get s) :=
        (accepts_iff (find_self hk hi fun p hp => (hnot p hp).2)).mpr
          ⟨by omega, by exact_mod_cast i.field.get_le s, fun hpr => by exact_mod_cast hprot i hi hpr⟩
      rw [if_pos haccepts] at hget
      exact_mod_cast hget

end restart

end Kcfg

end Mhuxd
