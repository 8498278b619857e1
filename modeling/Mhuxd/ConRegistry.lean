import Mhuxd.Channel
import Mhuxd.Lib.Run

/-!
# Connectors and their registry (`conmgr.c`, `cfgmgrj.c`)

The connector manager has the connectors that run, the configuration manager the settings it was given,
by id: they are what is saved. A connector that does not start is kept in the registry only, and settings
for an id that is in use replace those in the registry while the old connector goes on. `again` notes the
ids of such connectors: it is read by no function here.
-/

namespace Mhuxd

def VSP_DEVNAME_MAX : Nat := 64
def INT_MAX : Int := 2147483647

/-- A conversion to `int`. -/
def castInt (i : Int) : Int := i.bmod (2 ^ 32)

/-- `json_t`; `other` stands for null, arrays and objects. -/
inductive JsonVal
  | int (i : Int)
  | bool (b : Bool)
  | real (q : Rat)
  | str (s : String)
  | other
deriving DecidableEq

/-- `json_get_int`. -/
def jsonGetInt (v : Option JsonVal) (defval : Int) : Int :=
  match v with
  | some (.int i) => castInt i
  | some (.bool b) => if b then 1 else 0
  | some (.real q) => castInt (q.num.tdiv q.den)
  | _ => defval

/-- `json_get_boolish`. -/
def jsonGetBoolish (v : Option JsonVal) (defval : Int) : Bool := jsonGetInt v defval != 0

/-- The members of a connector's settings. -/
structure ConnObj where
  id : Option JsonVal
  serial : Option JsonVal
  channel : Option JsonVal
  type : Option JsonVal
  devname : Option JsonVal
  forwardUnsolicited : Option JsonVal
  pttRts : Option JsonVal
  pttDtr : Option JsonVal
  remoteAccess : Option JsonVal
deriving DecidableEq

/-- `strcasecmp` finds no difference. -/
def strcaseEq (a b : String) : Bool := a.toList.map Char.toLower == b.toList.map Char.toLower

def channelMap : List (String × Channel) :=
  [("CTL", .control), ("FLAGS", .flags), ("R1", .r1), ("R2", .r2), ("CAT1", .r1), ("CAT2", .r2), ("AUX", .r2),
    ("FSK1", .r1Fsk), ("FSK2", .r2Fsk), ("WK", .winkey), ("PTT1", .ptt1), ("PTT2", .ptt2), ("PTT_FOCUS", .pttFocus),
    ("MCP", .mcp), ("ROTATOR", .rotator)]

/-- `ch_str2channel`. -/
def chStr2channel (s : String) : Option Channel := (channelMap.find? fun m => strcaseEq m.1 s).map (·.2)

inductive ConType
  | vsp | tcp
deriving DecidableEq

/-- `vsp_devname_is_valid`. -/
def vspDevnameIsValid (devname : String) : Bool :=
  let cs := devname.toList
  !cs.isEmpty && cs.length ≤ VSP_DEVNAME_MAX && (cs.head?.any (·.isAlphanum)) &&
    cs.all fun c => c.isAlphanum || c == '_' || c == '-' || c == '.'

/-- `struct con_cfg`; `devname` is the port of a TCP connector. -/
structure ConCfg where
  serial : String
  channel : Channel
  type : ConType
  noUnsolicited : Bool
  devname : String
  pttRts : Int
  pttDtr : Int
  remoteAccess : Int
deriving DecidableEq

/-- `con_cfg_from_json`. -/
def conCfgFromJson (o : ConnObj) : Option ConCfg :=
  match o.serial, o.channel, o.type with
  | some (.str serial), some (.str channelStr), some (.str typeStr) =>
    match chStr2channel channelStr with
    | none => none
    | some channel =>
      let fwdOk := match o.forwardUnsolicited with
        | none | some (.bool _) | some (.int _) => true
        | _ => false
      let noUnsolicited := !jsonGetBoolish o.forwardUnsolicited 1
      if fwdOk = false then none
      else if strcaseEq typeStr "VSP" then
        match o.devname with
        | some (.str devname) =>
          if vspDevnameIsValid devname then
            some ⟨serial, channel, .vsp, noUnsolicited, devname, jsonGetInt o.pttRts 0, jsonGetInt o.pttDtr 0, 0⟩
          else none
        | _ => none
      else if strcaseEq typeStr "TCP" then
        match o.devname with
        | some (.str devname) => some ⟨serial, channel, .tcp, noUnsolicited, devname, 0, 0,
          jsonGetInt o.remoteAccess 0⟩
        | _ => none
      else none
  | _, _, _ => none

/-- `struct connector`. -/
structure Connector where
  id : Int
  serial : String
  channel : Channel
  type : ConType
  devname : String
deriving DecidableEq

/-- The connector manager and the registry of the configuration manager. -/
structure CfgMgr where
  devices : List String
  connectorList : List Connector
  idCnt : Int
  connectors : List ConnObj
  again : List Int
deriving DecidableEq

/-- The id of an entry. -/
def ConnObj.entryId (o : ConnObj) : Int := jsonGetInt o.id 0

namespace CfgMgr

def create : CfgMgr := ⟨[], [], 0, [], []⟩

/-- `conmgr_reserve_id`. -/
def conmgrReserveId (m : CfgMgr) (id : Int) : CfgMgr := if m.idCnt < id then { m with idCnt := id } else m

def runs (m : CfgMgr) (id : Int) : Bool := m.connectorList.any (·.id == id)

/-- The id is given again while a connector runs with it. -/
def noteAgain (m : CfgMgr) (id : Int) : CfgMgr := if m.runs id then { m with again := id :: m.again } else m

/-- `conmgr_create_con_cfg`: the id, 0 if the connector is not created. Whether its sockets and its port can
be opened is up to `starts`. -/
def conmgrCreateConCfg (m : CfgMgr) (cfg : ConCfg) (id : Int) (starts : Bool) : CfgMgr × Int :=
  if 0 < id ∧ m.runs id = true then (m.noteAgain id, 0)
  else
    let m := m.conmgrReserveId id
    if cfg.serial = "" then (m, 0)
    else if cfg.serial ∉ m.devices then (m, 0)
    else if cfg.type = .vsp ∧ (cfg.pttRts ≠ 0 ∨ cfg.pttDtr ≠ 0) ∧ cfg.channel.pttChannel = none then (m, 0)
    else if starts = false then (m, 0)
    else
      let ctrId := if 0 < id then id else castInt (m.idCnt + 1)
      let cnt := if 0 < id then m.idCnt else ctrId
      ({ m with idCnt := cnt, connectorList := m.connectorList ++
        [⟨ctrId, cfg.serial, cfg.channel, cfg.type, cfg.devname⟩] },
        ctrId)

/-- The first entry with the id is replaced, if there is one. -/
def replace (obj : ConnObj) (id : Int) : List ConnObj → Option (List ConnObj)
  | [] => none
  | c :: cs => if c.entryId = id then some (obj :: cs) else (replace obj id cs).map (c :: ·)

/-- `registry_set_connector`. -/
def registrySetConnector (m : CfgMgr) (obj : ConnObj) (id : Int) : CfgMgr :=
  let obj := { obj with id := some (.int id) }
  { m with connectors := (replace obj id m.connectors).getD (m.connectors ++ [obj]) }

/-- The highest id of an entry. -/
def maxId (os : List ConnObj) : Int := os.foldl (fun max o => if max < o.entryId then o.entryId else max) 0

/-- `apply_connector_from_json`: -1 if the settings are invalid. -/
def applyConnectorFromJson (m : CfgMgr) (obj : ConnObj) (keepInvalid starts : Bool) : CfgMgr × Int :=
  let id := jsonGetInt obj.id 0
  match conCfgFromJson obj with
  | none =>
    if keepInvalid = false ∨ id ≤ 0 then (m, -1)
    else (((m.conmgrReserveId id).noteAgain id).registrySetConnector obj id, -1)
  | some cfg =>
    let (m, runId) := m.conmgrCreateConCfg cfg id starts
    let id := if id ≤ 0 then runId else id
    if id ≤ 0 then
      let id := castInt (maxId m.connectors + 1)
      ((m.conmgrReserveId id).registrySetConnector obj id, 0)
    else (m.registrySetConnector obj id, 0)

/-- What is noted of ids that no connector runs with any more is dropped. -/
def forget (m : CfgMgr) : CfgMgr := { m with again := m.again.filter m.runs }

/-- `conmgr_destroy_con`. -/
def conmgrDestroyCon (m : CfgMgr) (id : Int) : CfgMgr :=
  { m with connectorList := m.connectorList.eraseP (·.id == id) }.forget

/-- `cfgmgrj_remove_conn`: 0, or -2 (`-ENOENT`) if there is no entry. -/
def cfgmgrjRemoveConn (m : CfgMgr) (id : Int) : CfgMgr × Int :=
  let m := m.conmgrDestroyCon id
  if m.connectors.any (·.entryId == id) then
    ({ m with connectors := m.connectors.eraseP (·.entryId == id) }, 0)
  else (m, -2)

/-- `cfgmgrj_remove_device` while no configuration is applied; `connected` is the keyer's state. -/
def cfgmgrjRemoveDevice (m : CfgMgr) (serial : String) (connected : Bool) : CfgMgr :=
  if serial = "" ∨ serial ∉ m.devices ∨ connected = true then m
  else
    { m with
      devices := m.devices.filter (· != serial)
      connectorList := m.connectorList.filter (·.serial != serial)
      connectors := m.connectors.filter (·.serial != some (JsonVal.str serial)) }.forget

end CfgMgr

/-- What happens to the connectors. A configuration that is loaded adds its keyers and then its connectors. -/
inductive CfgEv
  | addDevice (serial : String)
  /-- A connector of a configuration file (`keepInvalid`) or of a request. -/
  | connector (obj : ConnObj) (keepInvalid starts : Bool)
  | removeConn (id : Int)
  | removeDevice (serial : String) (connected : Bool)
deriving DecidableEq

namespace CfgMgr

def step (m : CfgMgr) : CfgEv → CfgMgr
  | .addDevice serial => if serial ∈ m.devices then m else { m with devices := m.devices ++ [serial] }
  | .connector obj keepInvalid starts => (m.applyConnectorFromJson obj keepInvalid starts).1
  | .removeConn id => (m.cfgmgrjRemoveConn id).1
  | .removeDevice serial connected => m.cfgmgrjRemoveDevice serial connected

/-! ### The settings that are to be kept -/

/-- The settings to be kept for each id. -/
abbrev Given := Int → Option ConnObj

/-- The id that settings are given for. Those without one are for the connector that starts with them, or for the id
after the highest entry. -/
def givenId (m : CfgMgr) (obj : ConnObj) (starts : Bool) : Int :=
  if 0 < jsonGetInt obj.id 0 then jsonGetInt obj.id 0
  else
    match conCfgFromJson obj with
    | none => 0
    | some cfg =>
      let runId := (m.conmgrCreateConCfg cfg (jsonGetInt obj.id 0) starts).2
      if 0 < runId then runId else castInt (maxId m.connectors + 1)

/-- Settings replace those that were given for the id, if they are not refused. They go with their id or with the
keyer they name. -/
def give (m : CfgMgr) (g : Given) : CfgEv → Given
  | .addDevice _ => g
  | .connector obj keepInvalid starts =>
    if conCfgFromJson obj = none ∧ (keepInvalid = false ∨ jsonGetInt obj.id 0 ≤ 0) then g
    else
      Function.update g (m.givenId obj starts) (some { obj with id := some (.int (m.givenId obj starts)) })
  | .removeConn id => Function.update g id none
  | .removeDevice serial connected =>
    if serial = "" ∨ serial ∉ m.devices ∨ connected = true then g
    else fun id => (g id).filter (·.serial != some (JsonVal.str serial))

/-- The registry has what is to be kept, and nothing else. -/
def Records (m : CfgMgr) (g : Given) : Prop := ∀ id o, o ∈ m.connectors ∧ o.entryId = id ↔ g id = some o

/-! ### Settings and connectors -/

/-- The entry has the connector's settings. -/
def Describes (o : ConnObj) (c : Connector) : Prop :=
  ∃ cfg, conCfgFromJson o = some cfg ∧ cfg.serial = c.serial ∧ cfg.channel = c.channel ∧ cfg.type = c.type ∧
    cfg.devname = c.devname

/-- The counter of the ids does not overflow. -/
def Below (m : CfgMgr) : CfgEv → Prop
  | .connector obj _ _ => jsonGetInt obj.id 0 ≤ 0 → m.idCnt < INT_MAX
  | _ => True

/-- Registry and connectors agree, but for connectors with an id of `but`. -/
structure Agrees (but : List Int) (m : CfgMgr) : Prop where
  entryPos : ∀ o ∈ m.connectors, 0 < o.entryId
  entryNodup : (m.connectors.map ConnObj.entryId).Nodup
  runNodup : (m.connectorList.map Connector.id).Nodup
  /-- A connector has exactly one entry with its id, which has its settings. -/
  matched : ∀ c ∈ m.connectorList, c.id ∉ but → ∃ o ∈ m.connectors, o.entryId = c.id ∧ Describes o c ∧
    ∀ o' ∈ m.connectors, o'.entryId = c.id → o' = o
  removed : ∀ id, (∀ c ∈ (m.step (.removeConn id)).connectorList, c.id ≠ id) ∧
    ∀ o ∈ (m.step (.removeConn id)).connectors, o.entryId ≠ id

/-- The invariant of the runs: they agree but for a connector with the id `x`, and the counter has passed
all ids. No connector has the id 0. -/
structure Kept (x : Int) (m : CfgMgr) : Prop where
  entryPos : ∀ o ∈ m.connectors, 0 < o.entryId
  entryNodup : (m.connectors.map ConnObj.entryId).Nodup
  entryLe : ∀ o ∈ m.connectors, o.entryId ≤ m.idCnt
  runPos : ∀ c ∈ m.connectorList, 0 < c.id
  runNodup : (m.connectorList.map Connector.id).Nodup
  runLe : ∀ c ∈ m.connectorList, c.id ≤ m.idCnt
  matched : ∀ c ∈ m.connectorList, c.id ≠ x → c.id ∉ m.again → ∃ o ∈ m.connectors, o.entryId = c.id ∧ Describes o c
  cntPos : 0 ≤ m.idCnt
  cntLe : m.idCnt ≤ INT_MAX

variable {m : CfgMgr}

theorem castInt_eq {i : Int} (h0 : 0 ≤ i) (h : i ≤ INT_MAX) : castInt i = i := by
  unfold castInt
  have hmax : INT_MAX = 2147483647 := rfl
  exact Int.bmod_eq_of_le (by omega) (by omega)

theorem castInt_le (i : Int) : castInt i ≤ INT_MAX := by
  have := Int.bmod_lt (x := i) (m := 2 ^ 32) (by decide)
  have hmax : INT_MAX = 2147483647 := rfl
  unfold castInt
  omega

theorem jsonGetInt_le (v : Option JsonVal) : jsonGetInt v 0 ≤ INT_MAX := by
  have hone : (1 : Int) ≤ INT_MAX := by decide
  have hzero : (0 : Int) ≤ INT_MAX := by decide
  rcases v with _ | (i | b | q | s | _)
  · exact hzero
  · exact castInt_le i
  · cases b
    · exact hzero
    · exact hone
  · exact castInt_le _
  · exact hzero
  · exact hzero

theorem entryId_set (obj : ConnObj) {id : Int} (h0 : 0 ≤ id) (h : id ≤ INT_MAX) :
    ({ obj with id := some (.int id) } : ConnObj).entryId = id := castInt_eq h0 h

theorem runs_iff {id : Int} : m.runs id = true ↔ ∃ c ∈ m.connectorList, c.id = id := by simp [runs]

/-! ### The registry -/

theorem replace_none {obj : ConnObj} {id : Int} {os : List ConnObj} (h : replace obj id os = none) :
    ∀ o ∈ os, o.entryId ≠ id := by
  induction os with
  | nil => simp
  | cons c cs ih =>
    rw [replace] at h
    split_ifs at h with hc
    rw [Option.map_eq_none_iff] at h
    intro o ho
    rcases List.mem_cons.1 ho with rfl | ho
    · exact hc
    · exact ih h o ho

theorem replace_some {obj : ConnObj} {id : Int} {os os' : List ConnObj} (h : replace obj id os = some os')
    (hobj : obj.entryId = id) : os'.map ConnObj.entryId = os.map ConnObj.entryId ∧ obj ∈ os' ∧
      (∀ o ∈ os, o.entryId ≠ id → o ∈ os') ∧ ∀ o ∈ os', o = obj ∨ o ∈ os := by
  induction os generalizing os' with
  | nil => simp [replace] at h
  | cons c cs ih =>
    rw [replace] at h
    split_ifs at h with hc
    · obtain rfl := Option.some.inj h
      refine ⟨by simp [hobj, hc], by simp, ?_, ?_⟩
      · rintro o (_ | ⟨_, ho⟩) hne
        · exact absurd hc hne
        · exact List.mem_cons_of_mem _ ho
      · rintro o (_ | ⟨_, ho⟩)
        · exact .inl rfl
        · exact .inr (List.mem_cons_of_mem _ ho)
    · rw [Option.map_eq_some_iff] at h
      obtain ⟨cs', hcs', rfl⟩ := h
      obtain ⟨hmap, hmem, hkeep, hfrom⟩ := ih hcs'
      refine ⟨by simp [hmap], List.mem_cons_of_mem _ hmem, ?_, ?_⟩
      · rintro o (_ | ⟨_, ho⟩) hne
        · exact List.mem_cons_self ..
        · exact List.mem_cons_of_mem _ (hkeep o ho hne)
      · rintro o (_ | ⟨_, ho⟩)
        · exact .inr (List.mem_cons_self ..)
        · exact (hfrom o ho).imp_right (List.mem_cons_of_mem _)

/-- What `registry_set_connector` makes of the registry. -/
theorem registrySet_spec (m : CfgMgr) (obj : ConnObj) {id : Int} (h0 : 0 ≤ id) (hmax : id ≤ INT_MAX) :
    ((m.registrySetConnector obj id).connectors.map ConnObj.entryId = m.connectors.map ConnObj.entryId ∨
        (∀ o ∈ m.connectors, o.entryId ≠ id) ∧
          (m.registrySetConnector obj id).connectors.map ConnObj.entryId = m.connectors.map ConnObj.entryId ++
          [id]) ∧
      { obj with id := some (.int id) } ∈ (m.registrySetConnector obj id).connectors ∧
      (∀ o ∈ m.connectors, o.entryId ≠ id → o ∈ (m.registrySetConnector obj id).connectors) ∧
      ∀ o ∈ (m.registrySetConnector obj id).connectors, o.entryId = id ∨ o ∈ m.connectors := by
  have hid := entryId_set obj h0 hmax
  unfold registrySetConnector
  dsimp only
  rcases hr : replace { obj with id := some (.int id) } id m.connectors with _ | os'
  · have hne := replace_none hr
    refine ⟨.inr ⟨hne, by simp [hid]⟩, by simp, fun o ho _ => by simp [ho], fun o ho => ?_⟩
    rw [Option.getD_none, List.mem_append, List.mem_singleton] at ho
    rcases ho with ho | rfl
    · exact .inr ho
    · exact .inl hid
  · obtain ⟨hmap, hmem, hkeep, hfrom⟩ := replace_some hr hid
    refine ⟨.inl hmap, hmem, hkeep, fun o ho => ?_⟩
    rcases hfrom o ho with rfl | ho
    · exact .inl hid
    · exact .inr ho

theorem Kept.registrySet {x id : Int} (h : m.Kept x) (obj : ConnObj) (hx : x = 0 ∨ x = id) (h0 : 0 < id)
    (hle : id ≤ m.idCnt) (hrun : ∀ c ∈ m.connectorList, c.id = id → c.id ∉ m.again → Describes obj c) :
    (m.registrySetConnector obj id).Kept 0 := by
  have hmax := Int.le_trans hle h.cntLe
  have hset := entryId_set obj (Int.le_of_lt h0) hmax
  obtain ⟨hids, hmem, hkeep, hfrom⟩ := registrySet_spec m obj (Int.le_of_lt h0) hmax
  refine ⟨fun o' ho' => ?_, ?_, fun o' ho' => ?_, h.runPos, h.runNodup, h.runLe, fun c hc _ hna => ?_, h.cntPos,
    h.cntLe⟩
  · rcases hfrom o' ho' with heq | ho'
    · omega
    · exact h.entryPos o' ho'
  · rcases hids with heq | ⟨hne, heq⟩
    · rw [heq]
      exact h.entryNodup
    · rw [heq, List.nodup_append]
      refine ⟨h.entryNodup, by simp, ?_⟩
      intro i hi j hj
      obtain ⟨o', ho', rfl⟩ := List.mem_map.1 hi
      rw [List.mem_singleton.1 hj]
      exact hne o' ho'
  · show o'.entryId ≤ m.idCnt
    rcases hfrom o' ho' with heq | ho'
    · omega
    · exact h.entryLe o' ho'
  · rcases eq_or_ne c.id id with heq | hne
    · obtain ⟨cfg, hcfg, hsame⟩ := hrun c hc heq hna
      exact ⟨_, hmem, hset.trans heq.symm, cfg, hcfg, hsame⟩
    · have hcx : c.id ≠ x := by
        rcases hx with rfl | rfl
        · have := h.runPos c hc
          omega
        · exact hne
      obtain ⟨o', ho', hid', hdesc⟩ := h.matched c hc hcx hna
      exact ⟨o', hkeep o' ho' (by rw [hid']; exact hne), hid', hdesc⟩

theorem Kept.reserve {x : Int} (h : m.Kept x) {id : Int} (hid : id ≤ INT_MAX) : (m.conmgrReserveId id).Kept x := by
  unfold conmgrReserveId
  split_ifs with hlt
  · exact ⟨h.entryPos, h.entryNodup, fun o ho => Int.le_trans (h.entryLe o ho) (Int.le_of_lt hlt), h.runPos,
      h.runNodup,
      fun c hc => Int.le_trans (h.runLe c hc) (Int.le_of_lt hlt), h.matched,
      Int.le_trans h.cntPos (Int.le_of_lt hlt), hid⟩
  · exact h

theorem reserve_le (m : CfgMgr) (id : Int) : id ≤ (m.conmgrReserveId id).idCnt := by
  unfold conmgrReserveId
  split_ifs with hlt
  · exact Int.le_refl _
  · exact Int.not_lt.1 hlt

theorem reserve_list (m : CfgMgr) (id : Int) : (m.conmgrReserveId id).connectorList = m.connectorList := by
  unfold conmgrReserveId
  split_ifs <;> rfl

theorem reserve_again (m : CfgMgr) (id : Int) : (m.conmgrReserveId id).again = m.again := by
  unfold conmgrReserveId
  split_ifs <;> rfl

theorem Kept.note {x : Int} (h : m.Kept x) (id : Int) : (m.noteAgain id).Kept x := by
  unfold noteAgain
  split_ifs
  · refine ⟨h.entryPos, h.entryNodup, h.entryLe, h.runPos, h.runNodup, h.runLe, fun c hc hne hna => ?_,
      h.cntPos, h.cntLe⟩
    exact h.matched c hc hne fun hm => hna (List.mem_cons_of_mem _ hm)
  · exact h

/-- A connector with the id has it noted. -/
theorem note_again {id : Int} {c : Connector} (hc : c ∈ (m.noteAgain id).connectorList) (hid : c.id = id) :
    c.id ∈ (m.noteAgain id).again := by
  unfold noteAgain at hc ⊢
  split_ifs at hc ⊢ with hrun
  · simp [hid]
  · exact absurd (runs_iff.2 ⟨c, hc, hid⟩) hrun

theorem maxId_spec (os : List ConnObj) : 0 ≤ maxId os ∧ (∀ o ∈ os, o.entryId ≤ maxId os) ∧
    ∀ k, 0 ≤ k → (∀ o ∈ os, o.entryId ≤ k) → maxId os ≤ k := by
  induction os using List.reverseRecOn with
  | nil => exact ⟨Int.le_refl _, by simp, fun k hk _ => hk⟩
  | append_singleton os o ih =>
    obtain ⟨h0, hle, hlub⟩ := ih
    have hmax : maxId (os ++ [o]) = if maxId os < o.entryId then o.entryId else maxId os := by
      rw [maxId, List.foldl_append]
      rfl
    rw [hmax]
    refine ⟨by split_ifs <;> omega, fun o' ho' => ?_, fun k hk hall => ?_⟩
    · rcases List.mem_append.1 ho' with ho' | ho'
      · have := hle o' ho'
        split_ifs <;> omega
      · rw [List.mem_singleton.1 ho']
        split_ifs <;> omega
    · have := hlub k hk fun o' ho' => hall o' (List.mem_append_left _ ho')
      have := hall o (by simp)
      split_ifs <;> omega

/-! ### Steps -/

/-- What `conmgr_create_con_cfg` does: the id is in use, the connector does not start or it runs. -/
theorem create_cases (m : CfgMgr) (cfg : ConCfg) (id : Int) (starts : Bool) :
    (0 < id ∧ m.runs id = true ∧ m.conmgrCreateConCfg cfg id starts = (m.noteAgain id, 0)) ∨
    ((0 < id → m.runs id = false) ∧ m.conmgrCreateConCfg cfg id starts = (m.conmgrReserveId id, 0)) ∨
    ∃ ctrId, (0 < id → m.runs id = false) ∧ ctrId = (if 0 < id then id else castInt ((m.conmgrReserveId id).idCnt + 1)) ∧
      m.conmgrCreateConCfg cfg id starts = ({ m.conmgrReserveId id with
        idCnt := if 0 < id then (m.conmgrReserveId id).idCnt else ctrId
        connectorList := m.connectorList ++ [⟨ctrId, cfg.serial, cfg.channel, cfg.type, cfg.devname⟩] },
        ctrId) := by
  unfold conmgrCreateConCfg
  by_cases huse : 0 < id ∧ m.runs id = true
  · rw [if_pos huse]
    exact .inl ⟨huse.1, huse.2, rfl⟩
  · have hfree : 0 < id → m.runs id = false := fun h0 => by simpa [h0] using huse
    rw [if_neg huse]
    refine .inr ?_
    dsimp only
    split_ifs
    all_goals first
      | exact .inl ⟨hfree, rfl⟩
      | exact .inr ⟨_, hfree, rfl, by rw [reserve_list]⟩

/-- A connector that runs under a fresh id is the only one that need not be registered. -/
theorem Kept.start (h : m.Kept 0) {id cnt : Int} (cfg : ConCfg) (h0 : 0 < id) (hfree : m.runs id = false)
    (hle : id ≤ cnt)
    (hcnt : m.idCnt ≤ cnt) (hmax : cnt ≤ INT_MAX) :
    ({ m with
      idCnt := cnt
      connectorList := m.connectorList ++ [⟨id, cfg.serial, cfg.channel, cfg.type, cfg.devname⟩] } :
      CfgMgr).Kept id := by
  have hne : ∀ c ∈ m.connectorList, c.id ≠ id := by simpa [runs] using hfree
  refine ⟨h.entryPos, h.entryNodup, fun o ho => Int.le_trans (h.entryLe o ho) hcnt, fun c hc => ?_, ?_,
    fun c hc => ?_,
    fun c hc hx hna => ?_, Int.le_trans h.cntPos hcnt, hmax⟩
  · rcases List.mem_append.1 hc with hc | hc
    · exact h.runPos c hc
    · rw [List.mem_singleton.1 hc]
      exact h0
  · rw [List.map_append, List.nodup_append]
    refine ⟨h.runNodup, by simp, ?_⟩
    intro i hi j hj
    obtain ⟨c, hc, rfl⟩ := List.mem_map.1 hi
    have hj' : j = id := by simpa using hj
    rw [hj']
    exact hne c hc
  · rcases List.mem_append.1 hc with hc | hc
    · exact Int.le_trans (h.runLe c hc) hcnt
    · rw [List.mem_singleton.1 hc]
      exact hle
  · rcases List.mem_append.1 hc with hc | hc
    · have hpos := h.runPos c hc
      exact h.matched c hc (by omega) hna
    · rw [List.mem_singleton.1 hc] at hx
      exact absurd rfl hx

theorem Kept.connector (h : m.Kept 0) {obj : ConnObj} {keepInvalid starts : Bool}
    (hok : m.Below (.connector obj keepInvalid starts)) : (m.step (.connector obj keepInvalid starts)).Kept 0 := by
  have hidmax : jsonGetInt obj.id 0 ≤ INT_MAX := jsonGetInt_le _
  show (m.applyConnectorFromJson obj keepInvalid starts).1.Kept 0
  unfold applyConnectorFromJson
  generalize hid : jsonGetInt obj.id 0 = id at hidmax
  have hbelow : id ≤ 0 → m.idCnt < INT_MAX := by rw [← hid]; exact hok
  rcases hcfg : conCfgFromJson obj with _ | cfg
  · dsimp only
    split_ifs with hkeep
    · exact h
    · have h0 : 0 < id := by omega
      have hnote := (h.reserve hidmax).note id
      refine hnote.registrySet obj (.inl rfl) h0 ?_ fun c hc heq hna => absurd (note_again hc heq) hna
      have hcnt : ((m.conmgrReserveId id).noteAgain id).idCnt = (m.conmgrReserveId id).idCnt := by
        unfold noteAgain
        split_ifs <;> rfl
      rw [hcnt]
      exact reserve_le m id
  · dsimp only
    rcases create_cases m cfg id starts with ⟨h0, huse, heq⟩ | ⟨hfree, heq⟩ | ⟨ctrId, hfree, hctr, heq⟩
    · -- the id is in use: the registry gets the settings all the same
      rw [heq]
      dsimp only
      rw [if_neg (by omega), if_neg (by omega)]
      obtain ⟨c, hc, rfl⟩ := runs_iff.1 huse
      refine (h.note c.id).registrySet obj (.inl rfl) h0 ?_ fun c' hc' heq' hna => absurd (note_again hc' heq') hna
      rw [noteAgain, if_pos huse]
      exact h.runLe c hc
    · rw [heq]
      dsimp only
      rcases Int.lt_or_le 0 id with h0 | h0
      · rw [if_neg (by omega), if_neg (by omega)]
        refine (h.reserve hidmax).registrySet obj (.inl rfl) h0 (reserve_le m id) fun c hc heq' _ => ?_
        rw [reserve_list] at hc
        exact absurd (runs_iff.2 ⟨c, hc, heq'⟩) (by simp [hfree h0])
      · rw [if_pos h0, if_pos (Int.le_refl 0)]
        have hsame : m.conmgrReserveId id = m := by
          have := h.cntPos
          rw [conmgrReserveId, if_neg (by omega)]
        rw [hsame]
        obtain ⟨hm0, hmle, hmlub⟩ := maxId_spec m.connectors
        have hcnt := hmlub m.idCnt h.cntPos h.entryLe
        have hlt := hbelow h0
        rw [castInt_eq (i := maxId m.connectors + 1) (by omega) (by omega)]
        refine (h.reserve (by omega)).registrySet obj (.inl rfl) (by omega)
          (reserve_le m _) fun c hc heq' hna => ?_
        rw [reserve_list] at hc
        rw [reserve_again] at hna
        have hpos := h.runPos c hc
        obtain ⟨o, ho, hoid, -⟩ := h.matched c hc (by omega) hna
        have := hmle o ho
        omega
    · have hrange : 0 < ctrId ∧ m.runs ctrId = false ∧
          ctrId ≤ (if 0 < id then (m.conmgrReserveId id).idCnt else ctrId) ∧
          m.idCnt ≤ (if 0 < id then (m.conmgrReserveId id).idCnt else ctrId) ∧
          (if 0 < id then (m.conmgrReserveId id).idCnt else ctrId) ≤ INT_MAX := by
        rcases Int.lt_or_le 0 id with h0 | h0
        · rw [if_pos h0] at hctr
          subst hctr
          have := (h.reserve hidmax).cntLe
          refine ⟨h0, hfree h0, ?_, ?_, ?_⟩
          · rw [if_pos h0]
            exact reserve_le m ctrId
          · rw [if_pos h0, conmgrReserveId]
            split_ifs with hlt
            · exact Int.le_of_lt hlt
            · exact Int.le_refl _
          · rw [if_pos h0]
            exact this
        · have hn : ¬0 < id := by omega
          have hsame : m.conmgrReserveId id = m := by
            have := h.cntPos
            rw [conmgrReserveId, if_neg (by omega)]
          have hlt := hbelow h0
          have hpos := h.cntPos
          rw [if_neg hn, hsame, castInt_eq (by omega) (by omega)] at hctr
          rw [if_neg hn]
          refine ⟨by omega, ?_, Int.le_refl _, by omega, by omega⟩
          have hall : ∀ c ∈ m.connectorList, c.id ≠ ctrId := fun c hc => by
            have := h.runLe c hc
            omega
          simpa [runs] using hall
      obtain ⟨h0, hnew, hle, hcnt, hmax⟩ := hrange
      have hstart := h.start cfg h0 hnew hle hcnt hmax
      have hctrId : (if id ≤ 0 then ctrId else id) = ctrId := by
        split_ifs with hi
        · rfl
        · rw [hctr, if_pos (by omega)]
      rw [heq]
      dsimp only
      rw [hctrId, if_neg (by omega)]
      have hsame : ({ m.conmgrReserveId id with
          idCnt := if 0 < id then (m.conmgrReserveId id).idCnt else ctrId
          connectorList := m.connectorList ++ [⟨ctrId, cfg.serial, cfg.channel, cfg.type, cfg.devname⟩] } :
          CfgMgr) =
          { m with
            idCnt := if 0 < id then (m.conmgrReserveId id).idCnt else ctrId
            connectorList := m.connectorList ++ [⟨ctrId, cfg.serial, cfg.channel, cfg.type, cfg.devname⟩] } := by
        unfold conmgrReserveId
        split_ifs <;> rfl
      rw [hsame]
      refine hstart.registrySet obj (.inr rfl) h0 hle fun c hc heq' _ => ?_
      rcases List.mem_append.1 hc with hc | hc
      · exact absurd (runs_iff.2 ⟨c, hc, heq'⟩) (by simp [hnew])
      · rw [List.mem_singleton.1 hc]
        exact ⟨cfg, hcfg, rfl, rfl, rfl, rfl⟩

/-! ### What is given and what is recorded -/

theorem reserve_connectors (m : CfgMgr) (id : Int) : (m.conmgrReserveId id).connectors = m.connectors := by
  unfold conmgrReserveId
  split_ifs <;> rfl

theorem note_connectors (m : CfgMgr) (id : Int) : (m.noteAgain id).connectors = m.connectors := by
  unfold noteAgain
  split_ifs <;> rfl

theorem create_connectors (m : CfgMgr) (cfg : ConCfg) (id : Int) (starts : Bool) :
    (m.conmgrCreateConCfg cfg id starts).1.connectors = m.connectors := by
  rcases create_cases m cfg id starts with ⟨-, -, heq⟩ | ⟨-, heq⟩ | ⟨ctrId, -, -, heq⟩
  · rw [heq, note_connectors]
  · rw [heq, reserve_connectors]
  · rw [heq]
    exact reserve_connectors m id

/-- `registry_set_connector` reads the registry alone. -/
theorem registrySet_congr {m' : CfgMgr} (h : m'.connectors = m.connectors) (obj : ConnObj) (id : Int) :
    (m'.registrySetConnector obj id).connectors = (m.registrySetConnector obj id).connectors := by
  unfold registrySetConnector
  rw [h]

/-- Settings that are not refused are recorded for the id they are given for. -/
theorem apply_connectors (m : CfgMgr) (obj : ConnObj) (keepInvalid starts : Bool) :
    (m.applyConnectorFromJson obj keepInvalid starts).1.connectors =
      if conCfgFromJson obj = none ∧ (keepInvalid = false ∨ jsonGetInt obj.id 0 ≤ 0) then m.connectors
      else (m.registrySetConnector obj (m.givenId obj starts)).connectors := by
  unfold applyConnectorFromJson givenId
  generalize jsonGetInt obj.id 0 = id
  rcases hcfg : conCfgFromJson obj with _ | cfg
  · dsimp only
    by_cases hrefuse : keepInvalid = false ∨ id ≤ 0
    · rw [if_pos hrefuse, if_pos ⟨rfl, hrefuse⟩]
    · have h0 : 0 < id := by omega
      rw [if_neg hrefuse, if_neg fun h => hrefuse h.2, if_pos h0]
      exact registrySet_congr ((note_connectors _ id).trans (reserve_connectors m id)) obj id
  · have hcreate := create_connectors m cfg id starts
    have htaken : ¬(some cfg = none ∧ (keepInvalid = false ∨ id ≤ 0)) := fun h => Option.some_ne_none cfg h.1
    dsimp only
    rw [if_neg htaken]
    by_cases h0 : 0 < id
    · rw [if_neg (by omega), if_neg (by omega), if_pos h0]
      exact registrySet_congr hcreate obj id
    · have hrunId : (if id ≤ 0 then (m.conmgrCreateConCfg cfg id starts).2 else id) =
          (m.conmgrCreateConCfg cfg id starts).2 := if_pos (Int.not_lt.1 h0)
      rw [hrunId, if_neg h0]
      by_cases hrun : 0 < (m.conmgrCreateConCfg cfg id starts).2
      · rw [if_neg (by omega), if_pos hrun]
        exact registrySet_congr hcreate obj _
      · rw [if_pos (by omega), if_neg hrun, hcreate]
        exact registrySet_congr ((reserve_connectors _ _).trans hcreate) obj _

/-- Settings that are not refused are given for a positive `int`. -/
theorem Kept.givenId_range (h : m.Kept 0) {obj : ConnObj} {keepInvalid starts : Bool}
    (hok : m.Below (.connector obj keepInvalid starts))
    (htaken : ¬(conCfgFromJson obj = none ∧ (keepInvalid = false ∨ jsonGetInt obj.id 0 ≤ 0))) :
    0 < m.givenId obj starts ∧ m.givenId obj starts ≤ INT_MAX := by
  have hown : jsonGetInt obj.id 0 ≤ INT_MAX := jsonGetInt_le _
  have hbelow : jsonGetInt obj.id 0 ≤ 0 → m.idCnt < INT_MAX := hok
  unfold givenId
  split_ifs with h0
  · exact ⟨h0, hown⟩
  · rcases hcfg : conCfgFromJson obj with _ | cfg
    · exact absurd ⟨hcfg, .inr (Int.not_lt.1 h0)⟩ htaken
    · dsimp only
      split_ifs with hrun
      · refine ⟨hrun, ?_⟩
        rcases create_cases m cfg (jsonGetInt obj.id 0) starts with ⟨-, -, heq⟩ | ⟨-, heq⟩ | ⟨ctrId, -, hctr, heq⟩
        · rw [heq] at hrun
          exact absurd hrun (Int.lt_irrefl 0)
        · rw [heq] at hrun
          exact absurd hrun (Int.lt_irrefl 0)
        · rw [heq]
          show ctrId ≤ INT_MAX
          rw [hctr, if_neg h0]
          exact castInt_le _
      · -- the highest id of the registry is not above the counter
        obtain ⟨hm0, -, hmlub⟩ := maxId_spec m.connectors
        have hcnt := hmlub m.idCnt h.cntPos h.entryLe
        have hlt := hbelow (Int.not_lt.1 h0)
        rw [castInt_eq (by omega) (by omega)]
        omega

/-- Settings are recorded. -/
theorem Records.set {g : Given} (h : m.Records g) {obj : ConnObj} {id : Int} (h0 : 0 < id) (hmax : id ≤ INT_MAX)
    (hnd : ((m.registrySetConnector obj id).connectors.map ConnObj.entryId).Nodup) :
    (m.registrySetConnector obj id).Records (Function.update g id (some { obj with id := some (.int id) })) := by
  have hset := entryId_set obj (Int.le_of_lt h0) hmax
  obtain ⟨-, hmem, hkeep, hfrom⟩ := registrySet_spec m obj (Int.le_of_lt h0) hmax
  intro i o
  rcases eq_or_ne i id with rfl | hne
  · rw [Function.update_self, Option.some.injEq]
    constructor
    · rintro ⟨ho, hoid⟩
      exact List.inj_on_of_nodup_map hnd hmem ho (hset.trans hoid.symm)
    · rintro rfl
      exact ⟨hmem, hset⟩
  · rw [Function.update_of_ne hne, ← h i o]
    constructor
    · rintro ⟨ho, hoid⟩
      rcases hfrom o ho with heq | ho
      · exact absurd (hoid.symm.trans heq) hne
      · exact ⟨ho, hoid⟩
    · rintro ⟨ho, hoid⟩
      exact ⟨hkeep o ho (by rw [hoid]; exact hne), hoid⟩

/-- Connectors that go are forgotten, with entries that are none of the others'. -/
theorem Kept.drop (h : m.Kept 0) {list : List Connector} {os : List ConnObj} (devices : List String)
    (hlist : list.Sublist m.connectorList) (hos : os.Sublist m.connectors)
    (hkeep : ∀ c ∈ list, ∀ o ∈ m.connectors, o.entryId = c.id → Describes o c → o ∈ os) :
    ({ m with devices := devices, connectorList := list, connectors := os } : CfgMgr).forget.Kept 0 := by
  refine ⟨fun o ho => h.entryPos o (hos.subset ho), h.entryNodup.sublist (hos.map _), fun o ho =>
    h.entryLe o (hos.subset ho),
    fun c hc => h.runPos c (hlist.subset hc), h.runNodup.sublist (hlist.map _), fun c hc =>
    h.runLe c (hlist.subset hc),
    fun c hc hne hna => ?_, h.cntPos, h.cntLe⟩
  have hna' : c.id ∉ m.again := by
    intro hmem
    refine hna (List.mem_filter.2 ⟨hmem, ?_⟩)
    exact runs_iff.2 ⟨c, hc, rfl⟩
  obtain ⟨o, ho, hid, hdesc⟩ := h.matched c (hlist.subset hc) hne hna'
  exact ⟨o, hkeep c hc o ho hid hdesc, hid, hdesc⟩

theorem eraseP_none {α : Type} {f : α → Int} {l : List α} (h : (l.map f).Nodup) (i : Int) :
    ∀ x ∈ l.eraseP (f · == i), f x ≠ i := by
  induction l with
  | nil => simp
  | cons y ys ih =>
    obtain ⟨hy, hys⟩ := List.nodup_cons.1 h
    intro x hx
    by_cases hyi : f y = i
    · rw [List.eraseP_cons_of_pos (by simp [hyi])] at hx
      intro hxi
      exact hy (List.mem_map.2 ⟨x, hx, hxi.trans hyi.symm⟩)
    · rw [List.eraseP_cons_of_neg (by simpa using hyi)] at hx
      rcases List.mem_cons.1 hx with rfl | hx
      · exact hyi
      · exact ih hys x hx

/-- Without an entry to remove, `eraseP` leaves the registry as it is. -/
theorem removeConn_eq (m : CfgMgr) (id : Int) : m.step (.removeConn id) =
    ({ m with connectorList := m.connectorList.eraseP (·.id == id), connectors := m.connectors.eraseP (·.entryId == id) } :
      CfgMgr).forget := by
  show (m.cfgmgrjRemoveConn id).1 = _
  unfold cfgmgrjRemoveConn
  dsimp only
  split_ifs with hany
  · rfl
  · have hsame : m.connectors.eraseP (·.entryId == id) = m.connectors :=
      List.eraseP_of_forall_not fun o ho => by
        have hno : ∀ o ∈ m.connectors, ¬o.entryId = id := by simpa [conmgrDestroyCon, forget] using hany
        simpa using hno o ho
    rw [hsame]
    rfl

theorem conCfgFromJson_serial {o : ConnObj} {cfg : ConCfg} (h : conCfgFromJson o = some cfg) :
    o.serial = some (.str cfg.serial) := by
  unfold conCfgFromJson at h
  split at h
  · rename_i serial channelStr typeStr hserial _ _
    rw [hserial]
    dsimp only at h
    split at h
    · simp at h
    · split_ifs at h
      · split at h
        · split_ifs at h
          rw [← Option.some.inj h]
        · simp at h
      · split at h
        · rw [← Option.some.inj h]
        · simp at h
  · simp at h

theorem Kept.after (h : m.Kept 0) {e : CfgEv} (hok : m.Below e) : (m.step e).Kept 0 := by
  cases e with
  | addDevice serial =>
    rw [step]
    split_ifs
    · exact h
    · exact ⟨h.entryPos, h.entryNodup, h.entryLe, h.runPos, h.runNodup, h.runLe, h.matched, h.cntPos, h.cntLe⟩
  | connector obj keepInvalid starts => exact h.connector hok
  | removeConn id =>
    rw [removeConn_eq]
    refine h.drop m.devices (List.eraseP_sublist) (List.eraseP_sublist) fun c hc o ho hid _ => ?_
    have hne := eraseP_none h.runNodup id c hc
    exact (List.mem_eraseP_of_neg (by simpa [hid] using hne)).2 ho
  | removeDevice serial connected =>
    show (m.cfgmgrjRemoveDevice serial connected).Kept 0
    unfold cfgmgrjRemoveDevice
    split_ifs
    · exact h
    · refine h.drop _ List.filter_sublist List.filter_sublist fun c hc o ho _ hdesc => ?_
      obtain ⟨cfg, hcfg, hserial, -⟩ := hdesc
      have hne : c.serial ≠ serial := by simpa using (List.mem_filter.1 hc).2
      refine List.mem_filter.2 ⟨ho, ?_⟩
      rw [conCfgFromJson_serial hcfg, hserial]
      simpa using hne

/-- The registry goes on having what is given. -/
theorem Records.after {g : Given} (h : m.Kept 0) (hg : m.Records g) {e : CfgEv} (hok : m.Below e) :
    (m.step e).Records (m.give g e) := by
  have hafter := h.after hok
  cases e with
  | addDevice serial =>
    intro i o
    rw [give, ← hg i o, step]
    split_ifs <;> rfl
  | connector obj keepInvalid starts =>
    have hconn := apply_connectors m obj keepInvalid starts
    rw [give]
    split_ifs at hconn ⊢ with hrefuse
    · intro i o
      rw [← hg i o, ← hconn]
      rfl
    · obtain ⟨h0, hmax⟩ := h.givenId_range hok hrefuse
      have hnd : ((m.registrySetConnector obj (m.givenId obj starts)).connectors.map ConnObj.entryId).Nodup :=
        hconn ▸ hafter.entryNodup
      intro i o
      rw [← hg.set h0 hmax hnd i o, ← hconn]
      rfl
  | removeConn id =>
    rw [removeConn_eq]
    intro i o
    show o ∈ m.connectors.eraseP (·.entryId == id) ∧ o.entryId = i ↔ _
    rw [give]
    rcases eq_or_ne i id with rfl | hne
    · rw [Function.update_self]
      exact iff_of_false (fun ho => eraseP_none h.entryNodup i o ho.1 ho.2) (by simp)
    · rw [Function.update_of_ne hne, ← hg i o]
      constructor
      · rintro ⟨ho, hoid⟩
        exact ⟨List.mem_of_mem_eraseP ho, hoid⟩
      · rintro ⟨ho, hoid⟩
        exact ⟨(List.mem_eraseP_of_neg (by simpa [hoid] using hne)).2 ho, hoid⟩
  | removeDevice serial connected =>
    intro i o
    show o ∈ (m.cfgmgrjRemoveDevice serial connected).connectors ∧ _ ↔ _
    rw [give, cfgmgrjRemoveDevice]
    split_ifs
    · exact hg i o
    · show o ∈ m.connectors.filter _ ∧ o.entryId = i ↔ (g i).filter _ = some o
      rw [List.mem_filter, Option.filter_eq_some_iff, ← hg i o]
      exact ⟨fun ⟨⟨ho, hne⟩, hoid⟩ => ⟨⟨ho, hoid⟩, hne⟩, fun ⟨⟨ho, hoid⟩, hne⟩ => ⟨⟨ho, hne⟩, hoid⟩⟩

theorem Kept.agrees (h : m.Kept 0) : m.Agrees m.again where
  entryPos := h.entryPos
  entryNodup := h.entryNodup
  runNodup := h.runNodup
  matched c hc hna := by
    have hpos := h.runPos c hc
    obtain ⟨o, ho, hid, hdesc⟩ := h.matched c hc (by omega) hna
    exact ⟨o, ho, hid, hdesc, fun o' ho' hid' => List.inj_on_of_nodup_map h.entryNodup ho' ho (hid'.trans hid.symm)⟩
  removed id := by
    rw [removeConn_eq]
    exact ⟨eraseP_none h.runNodup id, eraseP_none h.entryNodup id⟩

/-- Registry and connectors agree in every run in which the counter of the ids does not overflow, but for connectors
whose id was given again. The registry has the settings given last for an id even then. -/
theorem registry_agrees (evs : List CfgEv) (hok : Run.StepsOk step Below create evs) :
    (Run.run step create evs).Agrees (Run.run step create evs).again ∧
      (Run.run step create evs).Records (Run.ghost step give create (fun _ => none) evs) := by
  have hinit : create.Kept 0 ∧ create.Records fun _ => none :=
    ⟨⟨by simp [create], by simp [create], by simp [create], by simp [create], by simp [create], by simp [create],
      by simp [create], Int.le_refl _, by decide⟩, fun id o => by simp [create]⟩
  obtain ⟨hkept, hrecords⟩ := Run.ghost_inv_of_ok (I := fun m g => m.Kept 0 ∧ m.Records g)
    (fun _ _ _ h hok => ⟨h.1.after hok, h.2.after h.1 hok⟩) hinit hok
  exact ⟨hkept.agrees, hrecords⟩

instance (m : CfgMgr) (e : CfgEv) : Decidable (m.Below e) := by
  unfold Below
  split <;> infer_instance

def tcpPort (id : Option JsonVal) (channel port : String) : ConnObj :=
  ⟨id, some (.str "MK1"), some (.str channel), some (.str "tcp"), some (.str port), none, none, none, none⟩

/-- A port that starts, one that does not and the first one's removal. -/
def portRun : List CfgEv :=
  [.addDevice "MK1", .connector (tcpPort (some (.int 4)) "CAT1" "4001") true true, .connector (tcpPort none "WK" "4002") false false,
    .connector (tcpPort none "PTT1" "4003") false true, .removeConn 4]

/-- Settings for the id of a port that runs. -/
def againRun : List CfgEv :=
  [.addDevice "MK1", .connector (tcpPort (some (.int 1)) "CAT1" "4001") false true,
    .connector (tcpPort (some (.int 1)) "CAT2" "4002") false true]

theorem registry_agrees_ports :
    ((Run.run step create portRun).connectorList.map Connector.id = [6] ∧
      (Run.run step create portRun).Agrees (Run.run step create portRun).again ∧
      (Run.run step create portRun).Records (Run.ghost step give create (fun _ => none) portRun)) ∧
    Run.ghost step give create (fun _ => none) againRun 1 = some (tcpPort (some (.int 1)) "CAT2" "4002") ∧
      (Run.run step create againRun).Records (Run.ghost step give create (fun _ => none) againRun) :=
  ⟨⟨by decide +kernel, registry_agrees portRun (by decide +kernel)⟩, by decide +kernel,
    (registry_agrees againRun (by decide +kernel)).2⟩

theorem registry_overwritten :
    ¬ ∀ evs, Run.StepsOk step Below create evs → (Run.run step create evs).Agrees [] := by
  intro h
  obtain ⟨o, ho, -, ⟨cfg, hcfg, -, hch, -⟩, -⟩ := (h againRun (by decide +kernel)).matched
    ⟨1, "MK1", .r1, .tcp, "4001"⟩ (by decide +kernel) (by decide)
  have hos : (Run.run step create againRun).connectors = [tcpPort (some (.int 1)) "CAT2" "4002"] := by decide +kernel
  rw [hos, List.mem_singleton] at ho
  have hr2 : (conCfgFromJson (tcpPort (some (.int 1)) "CAT2" "4002")).map (·.channel) = some .r2 := by decide +kernel
  rw [← ho, hcfg] at hr2
  have : cfg.channel = .r2 := by simpa using hr2
  rw [hch] at this
  exact absurd this (by decide)

end CfgMgr

end Mhuxd
