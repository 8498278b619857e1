import Mhuxd.KcfgItems
import Mhuxd.HttpFiles
import Mhuxd.Lib.Run

/-!
# The keyers and their names (`devmgr.c`)

A keyer is known by its serial number and may have a name that the user gave it. Keyers are added when they are plugged
in or configured; the names of a request are checked before they are used. Texts are bytes, without the NUL at the end.
-/

namespace Mhuxd

open HttpConnection

def DEVICE_NAME_MAX_CHARS : Nat := 32

/-- `struct device`, what the device manager has of it. `connected` is `mhc_is_connected`. -/
structure Device where
  serial : List UInt8
  name : Option (List UInt8) := none
  connected : Bool := false
deriving DecidableEq

inductive NameError
  | einval | eexist
deriving DecidableEq

/-- The value of a `name` key. -/
inductive NameVal
  | string (s : List UInt8)
  | null
  | other
deriving DecidableEq

namespace Devices

/-- What `strcasecmp` compares. -/
def fold (s : List UInt8) : List UInt8 := s.map FileSystem.lower

/-- `mhi_type_from_serial`. -/
def typeFromSerial (serial : List UInt8) : Option KeyerType :=
  KeyerType.ofSerial (String.ofList (serial.map fun b => Char.ofNat b.toNat))

/-- `dmgr_get_device`. -/
def getDevice (l : List Device) (serial : List UInt8) : Option Device := l.find? fun d => d.serial = serial

/-- `dmgr_device_name`. -/
def deviceName (d : Device) : List UInt8 := d.name.getD d.serial

/-- `create_dev`; the keyer is in the list afterwards unless its type is unknown or not supported. -/
def createDev (l : List Device) (serial : List UInt8) : List Device :=
  if (getDevice l serial).isSome then l
  else
    match typeFromSerial serial with
    | none => l
    | some t => if t.supported then l ++ [{ serial := serial }] else l

/-- The keyer with this serial number is changed. -/
def modify (l : List Device) (serial : List UInt8) (f : Device → Device) : List Device :=
  l.map fun d => if d.serial = serial then f d else d

def setConnected (connected : Bool) (d : Device) : Device := { d with connected := connected }

/-- `devmon_callback` for a keyer that was plugged in: the system knows its device node, and it can be opened. -/
def plugged (l : List Device) (serial : List UInt8) (node opened : Bool) : List Device :=
  if (typeFromSerial serial).isNone || !node || !opened then l
  else modify (createDev l serial) serial (setConnected true)

/-- `dmgr_remove_device`. -/
def removeDevice (l : List Device) (serial : List UInt8) : List Device :=
  match getDevice l serial with
  | none => l
  | some d => if d.connected then l else l.erase d

/-- `is_default_name`. -/
def isDefaultName (serial : List UInt8) : Option (List UInt8) → Bool
  | none => true
  | some name => name = [] || name = serial

/-- `is_valid_name`, for a name that is not empty. -/
def isValidName (name : List UInt8) : Bool :=
  !(name.head? = some 0x20 || name.getLast? = some 0x20) && name.all (fun c => !(c < 0x20 || c = 0x7f)) &&
    (name.filter fun c => c &&& 0xc0 ≠ 0x80).length ≤ DEVICE_NAME_MAX_CHARS

/-- `wanted` of `dmgr_check_device_name`. -/
def wanted (serial : List UInt8) (name : Option (List UInt8)) : List UInt8 :=
  if isDefaultName serial name then serial else name.getD []

/-- `dmgr_check_device_name`. -/
def checkDeviceName (l : List Device) (serial : List UInt8) (name : Option (List UInt8)) : Option NameError :=
  if !isDefaultName serial name && !isValidName (name.getD []) then some .einval
  else if l.any fun d =>
      d.serial ≠ serial && (fold (deviceName d) = fold (wanted serial name) || fold d.serial = fold (wanted serial name)) then
    some .eexist
  else none

/-- `dmgr_set_device_name`. -/
def setDeviceName (name : Option (List UInt8)) (d : Device) : Device :=
  { d with name := if isDefaultName d.serial name then none else name }

/-- The string of a `name` value, `json_string_value`. -/
def NameVal.value : NameVal → Option (List UInt8)
  | .string s => some s
  | _ => none

/-- `cfgmgrj_check_device_name`. -/
def cfgCheckDeviceName (l : List Device) (serial : List UInt8) : NameVal → Option NameError
  | .other => some .einval
  | v => checkDeviceName l serial (NameVal.value v)

/-- `apply_device_from_json`, the part about the name: the keyer is added first. -/
def applyDevice (l : List Device) (serial : List UInt8) (nameVal : Option NameVal) : List Device :=
  let l := createDev l serial
  match nameVal with
  | none => l
  | some v =>
    if (getDevice l serial).isSome ∧ cfgCheckDeviceName l serial v = none then
      modify l serial (setDeviceName (NameVal.value v))
    else l

/-- `check_device_names`: a request is answered with the error of its first bad name, before anything is changed. -/
def checkDeviceNames (l : List Device) (devices : List (List UInt8 × Option NameVal)) : Option NameError :=
  devices.findSome? fun p => p.2.bind (cfgCheckDeviceName l p.1)

/-- The keyers as `build_config_json` writes them. -/
def buildConfig (l : List Device) : List (List UInt8 × Option NameVal) := l.map fun d => (d.serial, d.name.map .string)

/-- The keyers as `apply_config_json` reads them. -/
def applyConfig (l : List Device) (devices : List (List UInt8 × Option NameVal)) : List Device :=
  devices.foldl (fun l p => applyDevice l p.1 p.2) l

end Devices

/-- What happens to the list of keyers. A request may be served while another one waits for a keyer, so it is its single
steps that count. -/
inductive DeviceEv
  | plugged (serial : List UInt8) (node opened : Bool)
  | lost (serial : List UInt8)
  | apply (serial : List UInt8) (name : Option NameVal)
  | remove (serial : List UInt8) (busy : Bool)

namespace Devices

/-- One step; `cfgmgrj_remove_device` refuses while the configuration is applied. -/
def step (l : List Device) : DeviceEv → List Device
  | .plugged serial node opened => plugged l serial node opened
  | .lost serial => modify l serial (setConnected false)
  | .apply serial name => applyDevice l serial name
  | .remove serial busy => if busy then l else removeDevice l serial

/-! ### What one step does -/

variable {l : List Device} {serial : List UInt8}

/-- A keyer with this serial number would be added. -/
def Adds (l : List Device) (serial : List UInt8) : Prop :=
  (∀ d ∈ l, d.serial ≠ serial) ∧ ∃ t, typeFromSerial serial = some t ∧ t.supported = true

theorem getDevice_isSome : (getDevice l serial).isSome = true ↔ ∃ d ∈ l, d.serial = serial := by
  simp [getDevice]

theorem createDev_of_adds (h : Adds l serial) : createDev l serial = l ++ [{ serial := serial }] := by
  obtain ⟨hnone, t, ht, hsup⟩ := h
  have hget : ¬ (getDevice l serial).isSome = true := by
    rw [getDevice_isSome]
    rintro ⟨d, hd, hserial⟩
    exact hnone d hd hserial
  rw [createDev, if_neg hget, ht]
  exact if_pos hsup

theorem present_of_adds (h : Adds l serial) : (getDevice (createDev l serial) serial).isSome = true := by
  rw [createDev_of_adds h, getDevice_isSome]
  exact ⟨_, List.mem_append_right _ (List.mem_singleton_self _), rfl⟩

theorem createDev_of_not_adds (h : ¬ Adds l serial) : createDev l serial = l := by
  unfold createDev
  split_ifs with hget
  · rfl
  · have hnone : ∀ d ∈ l, d.serial ≠ serial := fun d hd hserial => hget (getDevice_isSome.mpr ⟨d, hd, hserial⟩)
    rcases ht : typeFromSerial serial with _ | t
    · rfl
    · exact if_neg fun hsup => h ⟨hnone, t, ht, hsup⟩

/-- The check: the name is one, and no other keyer has it as its name or as its serial number. -/
theorem checkDeviceName_eq_none {name : Option (List UInt8)} : checkDeviceName l serial name = none ↔
    (isDefaultName serial name = false → isValidName (name.getD []) = true) ∧ ∀ d ∈ l, d.serial ≠ serial →
      fold (deviceName d) ≠ fold (wanted serial name) ∧ fold d.serial ≠ fold (wanted serial name) := by
  unfold checkDeviceName
  split_ifs with hvalid hused
  · simp only [Bool.and_eq_true, Bool.not_eq_true'] at hvalid
    simp [hvalid]
  · simp only [List.any_eq_true, Bool.and_eq_true, Bool.or_eq_true, decide_eq_true_eq] at hused
    obtain ⟨d, hd, hne, hsame⟩ := hused
    refine iff_of_false nofun fun h => ?_
    rcases hsame with hsame | hsame
    · exact (h.2 d hd hne).1 hsame
    · exact (h.2 d hd hne).2 hsame
  · simp only [Bool.and_eq_true, Bool.not_eq_true', not_and, Bool.not_eq_false] at hvalid
    simp only [List.any_eq_true, Bool.and_eq_true, Bool.or_eq_true, decide_eq_true_eq, not_exists, not_and, not_or] at hused
    exact iff_of_true rfl ⟨hvalid, hused⟩

theorem cfgChecked {v : NameVal} (h : cfgCheckDeviceName l serial v = none) : checkDeviceName l serial (NameVal.value v) = none := by
  cases v with
  | other => exact absurd h nofun
  | string s => exact h
  | null => exact h

/-- What a name is set to. -/
theorem deviceName_set (name : Option (List UInt8)) (d : Device) :
    deviceName (setDeviceName name d) = wanted d.serial name := by
  unfold deviceName setDeviceName wanted
  split_ifs with h
  · rfl
  · cases name with
    | none => exact absurd rfl h
    | some n => rfl

/-- A keyer that is not in the list yet does not matter for the names of others. -/
theorem cfgCheck_createDev (v : NameVal) : cfgCheckDeviceName (createDev l serial) serial v = cfgCheckDeviceName l serial v := by
  by_cases h : Adds l serial
  · rw [createDev_of_adds h]
    cases v <;> simp [cfgCheckDeviceName, checkDeviceName]
  · rw [createDev_of_not_adds h]

theorem applyDevice_some (v : NameVal) : applyDevice l serial (some v) =
    if (getDevice (createDev l serial) serial).isSome ∧ cfgCheckDeviceName l serial v = none then
      modify (createDev l serial) serial (setDeviceName (NameVal.value v))
    else createDev l serial := by
  rw [← cfgCheck_createDev]
  rfl

/-! ### The list of the keyers -/

/-- Serial numbers are unique, and names are names. A name differs from those of the keyers before it in the list, and
from their serial numbers. -/
structure Wf (l : List Device) : Prop where
  serials : l.Pairwise fun d d' => d.serial ≠ d'.serial
  types : ∀ d ∈ l, ∃ t, typeFromSerial d.serial = some t ∧ t.supported = true
  names : ∀ d ∈ l, ∀ n, d.name = some n → isDefaultName d.serial (some n) = false ∧ isValidName n = true
  order : l.Pairwise fun d d' => ∀ n, d'.name = some n → fold (deviceName d) ≠ fold n ∧ fold d.serial ≠ fold n

/-- No two keyers are shown under the same name. -/
def Distinct (l : List Device) : Prop := l.Pairwise fun d d' => fold (deviceName d) ≠ fold (deviceName d')

/-- No keyer is shown under this serial number. -/
def Free (l : List Device) (serial : List UInt8) : Prop := ∀ d ∈ l, fold (deviceName d) ≠ fold serial

namespace Wf

theorem nil : Wf [] := ⟨.nil, nofun, nofun, .nil⟩

theorem sublist {l' : List Device} (h : Wf l) (hs : l'.Sublist l) : Wf l' :=
  ⟨h.serials.sublist hs, fun d hd => h.types d (hs.subset hd), fun d hd => h.names d (hs.subset hd), h.order.sublist hs⟩

theorem createDev (h : Wf l) (serial : List UInt8) : Wf (createDev l serial) := by
  by_cases hadds : Adds l serial
  · rw [createDev_of_adds hadds]
    refine ⟨?_, ?_, ?_, ?_⟩
    · rw [List.pairwise_append]
      exact ⟨h.serials, List.pairwise_singleton _ _, fun d hd d' hd' => by
        rw [List.mem_singleton.mp hd']
        exact hadds.1 d hd⟩
    · intro d hd
      rcases List.mem_append.mp hd with hd | hd
      · exact h.types d hd
      · rw [List.mem_singleton.mp hd]
        exact hadds.2
    · intro d hd n hn
      rcases List.mem_append.mp hd with hd | hd
      · exact h.names d hd n hn
      · rw [List.mem_singleton.mp hd] at hn
        exact absurd hn nofun
    · rw [List.pairwise_append]
      refine ⟨h.order, List.pairwise_singleton _ _, fun d hd d' hd' n hn => ?_⟩
      rw [List.mem_singleton.mp hd'] at hn
      exact absurd hn nofun
  · rw [createDev_of_not_adds hadds]
    exact h

/-- A change that leaves serial numbers and names alone. -/
theorem modify_of_same (h : Wf l) {f : Device → Device} (hserial : ∀ d, (f d).serial = d.serial)
    (hname : ∀ d, (f d).name = d.name) (serial : List UInt8) : Wf (modify l serial f) := by
  have hs : ∀ d : Device, (if d.serial = serial then f d else d).serial = d.serial := fun d => by
    split_ifs
    · exact hserial d
    · rfl
  have hn : ∀ d : Device, (if d.serial = serial then f d else d).name = d.name := fun d => by
    split_ifs
    · exact hname d
    · rfl
  refine ⟨?_, ?_, ?_, ?_⟩
  · rw [modify, List.pairwise_map]
    simpa only [hs] using h.serials
  · intro d hd
    obtain ⟨c, hc, rfl⟩ := List.mem_map.mp hd
    rw [hs]
    exact h.types c hc
  · intro d hd n hnn
    obtain ⟨c, hc, rfl⟩ := List.mem_map.mp hd
    rw [hn] at hnn
    rw [hs]
    exact h.names c hc n hnn
  · rw [modify, List.pairwise_map]
    simpa only [deviceName, hs, hn] using h.order

/-- A name that was checked. -/
theorem setName (h : Wf l) {name : Option (List UInt8)} (hcheck : checkDeviceName l serial name = none) :
    Wf (modify l serial (setDeviceName name)) := by
  obtain ⟨hvalid, hother⟩ := checkDeviceName_eq_none.mp hcheck
  refine ⟨?_, ?_, ?_, ?_⟩
  · rw [modify, List.pairwise_map]
    refine h.serials.imp fun {d d'} hne => ?_
    split_ifs <;> exact hne
  · intro d hd
    obtain ⟨c, hc, rfl⟩ := List.mem_map.mp hd
    split_ifs <;> exact h.types c hc
  · intro d hd n hn
    obtain ⟨c, hc, rfl⟩ := List.mem_map.mp hd
    split_ifs at hn ⊢ with hserial
    · subst hserial
      unfold setDeviceName at hn ⊢
      dsimp only at hn ⊢
      split_ifs at hn with hdefault
      rw [Bool.not_eq_true] at hdefault
      refine ⟨hn ▸ hdefault, ?_⟩
      simpa [hn] using hvalid hdefault
    · exact h.names c hc n hn
  · rw [modify, List.pairwise_map]
    refine (h.order.and h.serials).imp_of_mem fun {d d'} hd hd' hboth n hn => ?_
    obtain ⟨horder, hne⟩ := hboth
    by_cases hserial : d.serial = serial
    · have hne' : d'.serial ≠ serial := fun h' => hne (hserial.trans h'.symm)
      rw [if_neg hne'] at hn
      rw [if_pos hserial, deviceName_set, hserial]
      have hfree := hother d' hd' hne'
      rw [deviceName, hn] at hfree
      exact ⟨hfree.1.symm, hserial ▸ (horder n hn).2⟩
    · rw [if_neg hserial]
      by_cases hserial' : d'.serial = serial
      · rw [if_pos hserial'] at hn
        have hwanted := deviceName_set name d'
        rw [deviceName, hn, hserial'] at hwanted
        have hfree := hother d hd hserial
        rw [← hwanted] at hfree
        exact hfree
      · rw [if_neg hserial'] at hn
        exact horder n hn

theorem step (h : Wf l) (e : DeviceEv) : Wf (step l e) := by
  cases e with
  | plugged serial node opened =>
    rw [Devices.step, plugged]
    split_ifs
    · exact h
    · exact (h.createDev serial).modify_of_same (f := setConnected true) (fun _ => rfl) (fun _ => rfl) serial
  | lost serial => exact h.modify_of_same (f := setConnected false) (fun _ => rfl) (fun _ => rfl) serial
  | apply serial name =>
    cases name with
    | none => exact h.createDev serial
    | some v =>
      rw [Devices.step, applyDevice_some]
      split_ifs with hcheck
      · exact (h.createDev serial).setName (cfgChecked ((cfgCheck_createDev v).trans hcheck.2))
      · exact h.createDev serial
  | remove serial busy =>
    rw [Devices.step, removeDevice]
    split_ifs
    · exact h
    · split
      · exact h
      · split_ifs
        · exact h
        · exact h.sublist List.erase_sublist

theorem run (evs : List DeviceEv) : Wf (Run.run Devices.step [] evs) := Run.run_inv (fun _ e h => h.step e) nil evs

end Wf

/-! ### Names are distinct -/

namespace Distinct

theorem createDev_iff (h : Distinct l) : Distinct (createDev l serial) ↔ (Adds l serial → Free l serial) := by
  by_cases hadds : Adds l serial
  · rw [createDev_of_adds hadds, Distinct, List.pairwise_append]
    simp only [List.pairwise_singleton, List.mem_singleton, forall_eq, true_and, hadds, true_imp_iff]
    exact and_iff_right h
  · rw [createDev_of_not_adds hadds]
    exact iff_of_true h fun hno => absurd hno hadds

theorem modify_of_same {f : Device → Device} (hname : ∀ d, deviceName (f d) = deviceName d) (serial : List UInt8) :
    Distinct (modify l serial f) ↔ Distinct l := by
  have hn : ∀ d : Device, deviceName (if d.serial = serial then f d else d) = deviceName d := fun d => by
    split_ifs
    · exact hname d
    · rfl
  rw [Distinct, modify, List.pairwise_map]
  simp only [hn]
  rfl

/-- A keyer that is added changes nothing for the others. -/
theorem others (h : Distinct l) : (createDev l serial).Pairwise fun d d' =>
    d.serial ≠ serial → d'.serial ≠ serial → fold (deviceName d) ≠ fold (deviceName d') := by
  by_cases hadds : Adds l serial
  · rw [createDev_of_adds hadds, List.pairwise_append]
    refine ⟨h.imp fun {d d'} hne _ _ => hne, List.pairwise_singleton _ _, fun d _ d' hd' _ hne => ?_⟩
    exact absurd rfl (List.mem_singleton.mp hd' ▸ hne)
  · rw [createDev_of_not_adds hadds]
    exact h.imp fun {d d'} hne _ _ => hne

/-- Names that differ, but for that of one keyer, differ when it got one that was checked. -/
theorem setName {name : Option (List UInt8)} (hcheck : checkDeviceName l serial name = none) (hs : Wf l)
    (h : l.Pairwise fun d d' => d.serial ≠ serial → d'.serial ≠ serial → fold (deviceName d) ≠ fold (deviceName d')) :
    Distinct (modify l serial (setDeviceName name)) := by
  obtain ⟨-, hother⟩ := checkDeviceName_eq_none.mp hcheck
  rw [Distinct, modify, List.pairwise_map]
  refine (h.and hs.serials).imp_of_mem fun {d d'} hd hd' hboth => ?_
  obtain ⟨hdiff, hne⟩ := hboth
  by_cases hserial : d.serial = serial
  · have hne' : d'.serial ≠ serial := fun h' => hne (hserial.trans h'.symm)
    rw [if_pos hserial, if_neg hne', deviceName_set, hserial]
    exact (hother d' hd' hne').1.symm
  · rw [if_neg hserial]
    by_cases hserial' : d'.serial = serial
    · rw [if_pos hserial', deviceName_set, hserial']
      exact (hother d hd hserial).1
    · rw [if_neg hserial']
      exact hdiff hserial hserial'

end Distinct

/-- A keyer that is new comes with a name that was checked, or no other is shown under its serial number. -/
def NewNameFree (l : List Device) : DeviceEv → Prop
  | .plugged serial node opened => node = true → opened = true → Adds l serial → Free l serial
  | .apply serial name => Adds l serial → Free l serial ∨ ∃ v, name = some v ∧ cfgCheckDeviceName l serial v = none
  | _ => True

theorem Distinct.step_iff (hw : Wf l) (h : Distinct l) (e : DeviceEv) : Distinct (step l e) ↔ NewNameFree l e := by
  cases e with
  | plugged serial node opened =>
    rw [step, plugged, NewNameFree]
    split_ifs with hno
    · refine iff_of_true h fun hnode hopened hadds => ?_
      obtain ⟨-, t, ht, -⟩ := hadds
      simp [ht, hnode, hopened] at hno
    · simp only [Bool.or_eq_true, Bool.not_eq_true', not_or, Bool.not_eq_false] at hno
      rw [Distinct.modify_of_same (f := setConnected true) (fun _ => rfl), h.createDev_iff]
      simp [hno.1.2, hno.2]
  | lost serial => exact iff_of_true ((Distinct.modify_of_same (f := setConnected false) (fun _ => rfl) serial).mpr h) trivial
  | apply serial name =>
    rcases name with _ | v
    · show Distinct (createDev l serial) ↔ _
      rw [h.createDev_iff, NewNameFree]
      simp
    · rw [step, applyDevice_some, NewNameFree]
      by_cases hcheck : cfgCheckDeviceName l serial v = none
      · refine iff_of_true ?_ fun _ => Or.inr ⟨v, rfl, hcheck⟩
        split_ifs with hset
        · refine Distinct.setName (cfgChecked ((cfgCheck_createDev v).trans hcheck)) (hw.createDev serial) ?_
          exact h.others
        · have hadds : ¬ Adds l serial := fun hadds => hset ⟨present_of_adds hadds, hcheck⟩
          rw [createDev_of_not_adds hadds]
          exact h
      · rw [if_neg fun hset => hcheck hset.2, h.createDev_iff]
        refine forall_congr' fun _ => (or_iff_left ?_).symm
        rintro ⟨v', hv, hcheck'⟩
        exact hcheck (Option.some.inj hv ▸ hcheck')
  | remove serial busy =>
    refine iff_of_true ?_ trivial
    rw [step, removeDevice]
    split_ifs
    · exact h
    · split
      · exact h
      · split_ifs
        · exact h
        · exact List.Pairwise.sublist List.erase_sublist h

/-- In every run no two keyers are ever shown under the same name exactly if every keyer that is added is free to be
shown under its serial number, or comes with a name that passes the check. -/
theorem names_distinct_iff (evs : List DeviceEv) :
    (∀ as, as <+: evs → Distinct (Run.run step [] as)) ↔ Run.StepsOk step NewNameFree [] evs :=
  Run.forall_prefix_iff (I := Wf) (P := Distinct) (fun _ e hw h => ⟨hw.step e, h.step_iff hw e⟩) Wf.nil .nil evs

/-! ### A request -/

theorem mem_createDev {d : Device} : d ∈ createDev l serial ↔ d ∈ l ∨ Adds l serial ∧ d = { serial := serial } := by
  by_cases hadds : Adds l serial
  · simp [createDev_of_adds hadds, hadds]
  · simp [createDev_of_not_adds hadds, hadds]

/-- Others stay as they are. -/
theorem mem_applyDevice {d : Device} (hd : d ∈ l) (hne : d.serial ≠ serial) (name : Option NameVal) :
    d ∈ applyDevice l serial name := by
  have hmem : d ∈ createDev l serial := mem_createDev.mpr (Or.inl hd)
  rcases name with _ | v
  · exact hmem
  · rw [applyDevice_some]
    split_ifs
    · exact List.mem_map.mpr ⟨d, hmem, if_neg hne⟩
    · exact hmem

/-- What is there afterwards was there before, or is the keyer that the settings are for. -/
theorem of_mem_applyDevice {name : Option NameVal} {d : Device} (hd : d ∈ applyDevice l serial name) :
    d ∈ l ∨ d.serial = serial ∧
      (deviceName d = serial ∨ ∃ v, name = some v ∧ deviceName d = wanted serial (NameVal.value v)) := by
  have hcreated : ∀ d ∈ createDev l serial, d ∈ l ∨ d.serial = serial ∧ deviceName d = serial := by
    intro d hd
    rcases mem_createDev.mp hd with hd | ⟨-, rfl⟩
    · exact Or.inl hd
    · exact Or.inr ⟨rfl, rfl⟩
  rcases name with _ | v
  · exact (hcreated d hd).imp_right fun h => ⟨h.1, Or.inl h.2⟩
  · rw [applyDevice_some] at hd
    split_ifs at hd
    · obtain ⟨c, hc, rfl⟩ := List.mem_map.mp hd
      split_ifs with hserial
      · exact Or.inr ⟨hserial, Or.inr ⟨v, rfl, by rw [deviceName_set, hserial]⟩⟩
      · exact (hcreated c hc).imp_right fun h => ⟨h.1, Or.inl h.2⟩
    · exact (hcreated d hd).imp_right fun h => ⟨h.1, Or.inl h.2⟩

/-- The keyer is there afterwards, and a name that passes the check is shown. -/
theorem there_of_check {name : Option NameVal} (hcheck : ∀ v, name = some v → cfgCheckDeviceName l serial v = none)
    (hthere : (∃ d ∈ l, d.serial = serial) ∨ Adds l serial) :
    ∃ d ∈ applyDevice l serial name, d.serial = serial ∧
      ∀ v, name = some v → deviceName d = wanted serial (NameVal.value v) := by
  have hpresent : ∃ d ∈ createDev l serial, d.serial = serial := by
    rcases hthere with ⟨d, hd, hserial⟩ | hadds
    · exact ⟨d, mem_createDev.mpr (Or.inl hd), hserial⟩
    · exact ⟨_, mem_createDev.mpr (Or.inr ⟨hadds, rfl⟩), rfl⟩
  cases name with
  | none =>
    obtain ⟨d, hd, hserial⟩ := hpresent
    exact ⟨d, hd, hserial, nofun⟩
  | some v =>
    rw [applyDevice_some, if_pos ⟨getDevice_isSome.mpr hpresent, hcheck v rfl⟩]
    obtain ⟨d, hd, hserial⟩ := hpresent
    refine ⟨setDeviceName (NameVal.value v) d, List.mem_map.mpr ⟨d, hd, if_pos hserial⟩, hserial, fun u hu => ?_⟩
    cases hu
    rw [deviceName_set, hserial]

/-- The settings of one keyer do not stand in the way of the name of another. -/
theorem check_applyDevice {s : List UInt8} {name : Option NameVal} {v : NameVal} (hcheck : cfgCheckDeviceName l s v = none)
    (hserial : fold serial ≠ fold (wanted s (NameVal.value v)))
    (hname : ∀ u, name = some u → fold (wanted serial (NameVal.value u)) ≠ fold (wanted s (NameVal.value v))) :
    cfgCheckDeviceName (applyDevice l serial name) s v = none := by
  obtain ⟨hvalid, hother⟩ := checkDeviceName_eq_none.mp (cfgChecked hcheck)
  have hall : checkDeviceName (applyDevice l serial name) s (NameVal.value v) = none := by
    refine checkDeviceName_eq_none.mpr ⟨hvalid, fun d hd hne => ?_⟩
    rcases of_mem_applyDevice hd with hd | ⟨hs, hshown | ⟨u, hu, hshown⟩⟩
    · exact hother d hd hne
    · rw [hshown, hs]
      exact ⟨hserial, hserial⟩
    · rw [hshown, hs]
      exact ⟨hname u hu, hserial⟩
  cases v with
  | other => exact absurd hcheck nofun
  | string n => exact hall
  | null => exact hall

/-- The names of a request are not in each other's way. -/
def Apart (p q : List UInt8 × Option NameVal) : Prop :=
  p.1 ≠ q.1 ∧ ∀ v, q.2 = some v → fold p.1 ≠ fold (wanted q.1 (NameVal.value v)) ∧
    ∀ u, p.2 = some u → fold (wanted p.1 (NameVal.value u)) ≠ fold (wanted q.1 (NameVal.value v))

theorem mem_applyConfig {devices : List (List UInt8 × Option NameVal)} {d : Device} (hd : d ∈ l)
    (hne : ∀ p ∈ devices, d.serial ≠ p.1) : d ∈ applyConfig l devices := by
  induction devices generalizing l with
  | nil => exact hd
  | cons p devices ih =>
    exact ih (mem_applyDevice hd (hne p List.mem_cons_self) p.2) fun q hq => hne q (List.mem_cons_of_mem _ hq)

/-- A request that passes the check up front, with names that are not in each other's way, is carried out: every keyer
of it is there, and shown under the name it asks for, if it asks for one. -/
theorem request_applied {devices : List (List UInt8 × Option NameVal)} (hcheck : checkDeviceNames l devices = none)
    (hapart : devices.Pairwise Apart) (hknown : ∀ p ∈ devices, ∃ t, typeFromSerial p.1 = some t ∧ t.supported = true)
    {p : List UInt8 × Option NameVal} (hp : p ∈ devices) :
    ∃ d ∈ applyConfig l devices, d.serial = p.1 ∧ ∀ v, p.2 = some v → deviceName d = wanted p.1 (NameVal.value v) := by
  have hchecks : ∀ q ∈ devices, ∀ u, q.2 = some u → cfgCheckDeviceName l q.1 u = none := by
    intro q hq u hu
    have hnone := List.findSome?_eq_none_iff.mp hcheck q hq
    rwa [hu, Option.bind_some] at hnone
  clear hcheck
  induction devices generalizing l with
  | nil => exact absurd hp List.not_mem_nil
  | cons q devices ih =>
    obtain ⟨hq, hrest⟩ := List.pairwise_cons.mp hapart
    rcases List.mem_cons.mp hp with rfl | hp
    · have hthere : (∃ d ∈ l, d.serial = p.1) ∨ Adds l p.1 := by
        by_cases hin : ∃ d ∈ l, d.serial = p.1
        · exact Or.inl hin
        · exact Or.inr ⟨fun d hd hserial => hin ⟨d, hd, hserial⟩, hknown p List.mem_cons_self⟩
      obtain ⟨d, hd, hserial, hshown⟩ := there_of_check (hchecks p List.mem_cons_self) hthere
      have hstays : d ∈ applyConfig (applyDevice l p.1 p.2) devices := by
        refine mem_applyConfig hd fun r hr => ?_
        rw [hserial]
        exact (hq r hr).1
      exact ⟨d, hstays, hserial, hshown⟩
    · refine ih hrest (fun r hr => hknown r (List.mem_cons_of_mem _ hr)) hp fun r hr u hu => ?_
      obtain ⟨hserial, hname⟩ := (hq r hr).2 u hu
      exact check_applyDevice (hchecks r (List.mem_cons_of_mem _ hr) u hu) hserial hname

/-- Three keyers in one request, two of them with a name. -/
def twoNames : List (List UInt8 × Option NameVal) :=
  [(chars "M2A", some (.string (chars "Station 1"))), (chars "CKA", none),
    (chars "DKB", some (.string (chars "Digi")))]

theorem request_applied_two :
    (∃ d ∈ applyConfig [] twoNames, d.serial = chars "M2A" ∧ deviceName d = chars "Station 1") ∧
      (∃ d ∈ applyConfig [] twoNames, d.serial = chars "CKA") ∧
      ∃ d ∈ applyConfig [] twoNames, d.serial = chars "DKB" ∧ deviceName d = chars "Digi" := by
  have hapart : twoNames.Pairwise Apart := by
    refine .cons (List.forall_mem_cons.mpr ⟨?_, List.forall_mem_singleton.mpr ?_⟩)
      (.cons (List.forall_mem_singleton.mpr ?_) (.cons nofun .nil))
    · exact ⟨by decide, nofun⟩
    · refine ⟨by decide, fun v hv => ?_⟩
      cases hv
      refine ⟨by decide, fun u hu => ?_⟩
      cases hu
      decide
    · refine ⟨by decide, fun v hv => ?_⟩
      cases hv
      exact ⟨by decide, nofun⟩
  have hknown : ∀ p ∈ twoNames, ∃ t, typeFromSerial p.1 = some t ∧ t.supported = true :=
    List.forall_mem_cons.mpr ⟨⟨.mk2, by decide⟩,
      List.forall_mem_cons.mpr ⟨⟨.ck, by decide⟩, List.forall_mem_singleton.mpr ⟨.dk, by decide⟩⟩⟩
  have happlied : ∀ p ∈ twoNames, ∃ d ∈ applyConfig [] twoNames, d.serial = p.1 ∧
      ∀ v, p.2 = some v → deviceName d = wanted p.1 (NameVal.value v) :=
    fun p hp => request_applied (by decide) hapart hknown hp
  unfold twoNames at happlied
  rw [List.forall_mem_cons, List.forall_mem_cons, List.forall_mem_singleton] at happlied
  obtain ⟨⟨d, hd, hserial, hname⟩, ⟨e, he, heserial, -⟩, f, hf, hfserial, hfname⟩ := happlied
  exact ⟨⟨d, hd, hserial, hname _ rfl⟩, ⟨e, he, heserial⟩, f, hf, hfserial, hfname _ rfl⟩

/-! ### A restart -/

theorem modify_append_of_new {x : Device} (h : ∀ d ∈ l, d.serial ≠ x.serial) (f : Device → Device) :
    modify (l ++ [x]) x.serial f = l ++ [f x] := by
  have hsame : l.map (fun d => if d.serial = x.serial then f d else d) = l := by
    conv_rhs => rw [← List.map_id l]
    exact List.map_congr_left fun d hd => if_neg (h d hd)
  rw [modify, List.map_append, hsame]
  simp

/-- The last keyer of a list is loaded like it was. -/
theorem applyDevice_last {d : Device} (h : Wf (l ++ [d])) :
    applyDevice (l.map (setConnected false)) d.serial (d.name.map .string) =
      l.map (setConnected false) ++ [setConnected false d] := by
  have hpair := List.pairwise_append.mp h.serials
  have hnew : ∀ c ∈ l.map (setConnected false), c.serial ≠ d.serial := by
    intro c hc
    obtain ⟨b, hb, rfl⟩ := List.mem_map.mp hc
    exact hpair.2.2 b hb d (List.mem_singleton_self d)
  have hlast : d ∈ l ++ [d] := List.mem_append_right _ (List.mem_singleton_self d)
  have hadds : Adds (l.map (setConnected false)) d.serial := ⟨hnew, h.types d hlast⟩
  rcases hname : d.name with _ | n
  · show createDev _ _ = _
    rw [createDev_of_adds hadds]
    simp [setConnected, hname]
  · obtain ⟨hdefault, hvalid⟩ := h.names d hlast n hname
    have hwanted : wanted d.serial (some n) = n := by
      rw [wanted, if_neg (by simp [hdefault])]
      rfl
    have hcheck : checkDeviceName (l.map (setConnected false)) d.serial (some n) = none := by
      refine checkDeviceName_eq_none.mpr ⟨fun _ => hvalid, fun c hc _ => ?_⟩
      obtain ⟨b, hb, rfl⟩ := List.mem_map.mp hc
      rw [hwanted]
      exact (List.pairwise_append.mp h.order).2.2 b hb d (List.mem_singleton_self d) n hname
    rw [Option.map_some, applyDevice_some, if_pos ⟨present_of_adds hadds, hcheck⟩, createDev_of_adds hadds]
    refine (modify_append_of_new (x := { serial := d.serial }) hnew _).trans ?_
    simp [setDeviceName, setConnected, NameVal.value, hdefault, hname]

theorem applyConfig_buildConfig (h : Wf l) : applyConfig [] (buildConfig l) = l.map (setConnected false) := by
  induction l using List.reverseRecOn with
  | nil => rfl
  | append_singleton l d ih =>
    have hl : Wf l := h.sublist (List.sublist_append_left l [d])
    rw [buildConfig, List.map_append, applyConfig, List.foldl_append, List.map_append]
    refine (congrArg (applyDevice · d.serial (d.name.map .string)) (ih hl)).trans ?_
    exact applyDevice_last h

/-- Whatever happened before, the configuration that is saved brings all keyers back after a restart, with their names
and in their order. -/
theorem names_survive_restart (evs : List DeviceEv) :
    applyConfig [] (buildConfig (Run.run step [] evs)) = (Run.run step [] evs).map (setConnected false) :=
  applyConfig_buildConfig (Wf.run evs)

end Devices

end Mhuxd
