import Mhuxd.RadioMode

/-!
# The keyer's forced mode follows the radio information (`mhcontrol.c`, `kcfg.c`)

A keyer in its forced mode is in the mode of its settings. While a radio reports, the option is off, and it is on
again when the reports stop; each change of it is submitted to the keyer with the settings.
-/

namespace Mhuxd

namespace RadioMode

open Kcfg

namespace Ctl

/-- The option of the forced mode. -/
def forceItem : RadioNo → Citem
  | .r1 => ⟨"r1ForceKeyerMode", 6, 0, 1, 1⟩
  | .r2 => ⟨"r2ForceKeyerMode", 18, 0, 1, 1⟩

/-- The forced mode in a block of settings. -/
def forcedIn (t : KeyerType) (r : RadioNo) (s : List UInt8) : Int := kcfgGetVal (items t) s (forceKey r) 1

/-- The settings that were submitted last. -/
def lastSettings (c : Ctl) : Option (List UInt8) :=
  (c.out.filterMap fun o => match o with
    | .setSettings s => some s
    | _ => none).getLast?

/-- The configuration sets other options, in a way that leaves alone what it doesn't name. -/
def Keeps (t : KeyerType) (r : RadioNo) : Ev → Prop
  | .kopts calls => ∀ k ∈ calls, Kcfg.Regular (items t) k.1 k.2 ∧ caseCode k.1 ≠ caseCode (forceKey r)
  | _ => True

/-! ### The option in the tables -/

section tables

/-- No item of a list has the option's key. -/
def Lacks (is : List Citem) (r : RadioNo) : Prop := ∀ i ∈ is, caseCode i.key ≠ caseCode (forceKey r)

/-- The only item with the option's key. -/
def Alone (is : List Citem) (r : RadioNo) : Prop :=
  forceItem r ∈ is ∧ ∀ i ∈ is, caseCode i.key = caseCode (forceKey r) → i = forceItem r

variable {as bs : List Citem} {r : RadioNo}

theorem Alone.append (ha : Alone as r) (hb : Lacks bs r) : Alone (as ++ bs) r := by
  refine ⟨List.mem_append_left bs ha.1, fun i hi hcode => ?_⟩
  rcases List.mem_append.1 hi with hi | hi
  · exact ha.2 i hi hcode
  · exact absurd hcode (hb i hi)

theorem Lacks.append (ha : Lacks as r) (hb : Alone bs r) : Alone (as ++ bs) r := by
  refine ⟨List.mem_append_right as hb.1, fun i hi hcode => ?_⟩
  rcases List.mem_append.1 hi with hi | hi
  · exact absurd hcode (ha i hi)
  · exact hb.2 i hi hcode

theorem tables_r1 : Alone cBase .r1 ∧ Alone items.mkBase .r1 ∧ Lacks cMk1 .r1 ∧ Lacks cDk2 .r1 ∧ Lacks cMk2 .r1 ∧
    Lacks cMk3 .r1 ∧ Lacks cMk2r .r1 ∧ Lacks cU2r .r1 := by
  unfold Alone Lacks
  decide +kernel

theorem tables_r2 : Lacks cBase .r2 ∧ Alone cMk2r .r2 := by
  unfold Alone Lacks
  decide +kernel

/-- Each keyer with modes has the option for each of its radios. -/
theorem alone_items {t : KeyerType} (ht : t.hasKeyerMode = true) (hr : t.hasRadio r = true) : Alone (items t) r := by
  cases r with
  | r1 =>
    obtain ⟨hbase, hmkBase, hmk1, hdk2, hmk2, hmk3, hmk2r, hu2r⟩ := tables_r1
    cases t with
    | mk => exact hmkBase.append hmk1
    | dk2 => exact hbase.append hdk2
    | mk2 => exact hbase.append hmk2
    | mk3 => exact hbase.append hmk3
    | mk2r | mk2rp => exact hbase.append hmk2r
    | u2r => exact hbase.append hu2r
    | ck | dk | sm | smd => cases ht
  | r2 =>
    cases t with
    | mk2r | mk2rp => exact tables_r2.1.append tables_r2.2
    | _ => cases hr

end tables

/-! ### What keeps the option and what sets it -/

section option
variable {t : KeyerType} {r : RadioNo} {s : List UInt8} {key : String} {val : Int}

theorem find_force (ht : t.hasKeyerMode = true) (hr : t.hasRadio r = true) :
    findCitem (items t) (forceKey r) = some (forceItem r) := by
  obtain ⟨hmem, halone⟩ := alone_items ht hr
  have hself : strcaseEq (forceKey r) (forceItem r).key = true := by
    cases r <;> exact strcaseEq_iff.2 rfl
  cases hfind : findCitem (items t) (forceKey r) with
  | none => exact absurd hself (by simpa using List.find?_eq_none.1 hfind _ hmem)
  | some i => rw [halone i (find_mem hfind) (find_code hfind).symm]

theorem force_not_protected (r : RadioNo) : ¬ (forceItem r).Protected := by
  cases r <;> decide

/-- The option is set. -/
theorem forcedIn_set (ht : t.hasKeyerMode = true) (hr : t.hasRadio r = true) (hs : s.length = bufSize t)
    (hval : 0 ≤ val ∧ val ≤ 1) : forcedIn t r (kcfgSetVal (items t) s (forceKey r) val).1 = val := by
  have hfind := find_force ht hr
  have hprot := force_not_protected r
  have hregular : Kcfg.Regular (items t) (forceKey r) val := by
    intro i hi
    obtain rfl := Option.some.inj (hfind.symm.trans hi)
    exact Or.inr ⟨hval.1, fun h => absurd h hprot⟩
  have haccepts : Accepts (items t) (forceKey r) val := by
    refine (accepts_iff hfind).2 ⟨hval.1, ?_, fun h => absurd h hprot⟩
    cases r <;> exact hval.2
  have hset := (setGet_iff (table_items t) hs).2 hregular
  rw [SetGet, if_pos haccepts] at hset
  exact hset.2.1 1

/-- Another option is set. -/
theorem forcedIn_other (ht : t.hasKeyerMode = true) (hr : t.hasRadio r = true) (hs : s.length = bufSize t)
    (hregular : Kcfg.Regular (items t) key val) (hkey : caseCode key ≠ caseCode (forceKey r)) :
    forcedIn t r (kcfgSetVal (items t) s key val).1 = forcedIn t r s := by
  have hset := (setGet_iff (table_items t) hs).2 hregular
  have hfind := find_force ht hr
  rw [SetGet] at hset
  split_ifs at hset with haccepts
  · obtain ⟨-, -, hsame⟩ := hset
    cases hi : findCitem (items t) key with
    | none => rw [kcfgSetVal_none hi]
    | some i =>
      have hne : forceItem r ≠ i := by
        rintro rfl
        refine hkey ((find_code hi).trans ?_)
        cases r <;> rfl
      obtain ⟨-, hget⟩ := hsame i hi
      rw [forcedIn, forcedIn, kcfgGetVal, kcfgGetVal, hfind]
      dsimp only
      rw [length_kcfgSetVal, hget _ (find_mem hfind) hne]
  · rw [hset.2]

/-- Bytes that are set behind the options are not the option's. -/
theorem forcedIn_getSettings (ht : t.hasKeyerMode = true) (hr : t.hasRadio r = true) :
    forcedIn t r (kcfgGetSettings t s) = forcedIn t r s := by
  rw [kcfgGetSettings]
  split_ifs with hmk
  · have htype : t = .mk ∧ r = .r1 := by
      cases t <;> cases r <;> first
        | exact ⟨rfl, rfl⟩
        | exact absurd ht (by decide)
        | exact absurd hmk (by decide)
        | exact absurd hr (by decide)
    obtain ⟨rfl, rfl⟩ := htype
    rw [forcedIn, forcedIn, kcfgGetVal, kcfgGetVal, find_force ht hr]
    dsimp only
    rw [length_mk1SetFrbase]
    congr 2
    simp [BitField.get, mk1SetFrbase, mk1Mode, Citem.field, forceItem]
  · rfl

/-- A key that is not of a protected item. -/
theorem regular_of_code (h0 : 0 ≤ val) (hkey : key ∈ enforcedKeys ∨ caseCode key ∉ enforcedCodes) :
    Kcfg.Regular (items t) key val := by
  intro i hi
  rcases hkey with hkey | hcode
  · exact Or.inl hkey
  · refine Or.inr ⟨h0, fun hprot => absurd ?_ hcode⟩
    rw [find_code hi]
    exact List.mem_map_of_mem hprot

theorem regular_dflt {j : Citem} (hj : j ∈ items t) : Kcfg.Regular (items t) j.key (j.dflt : Int) := by
  intro i hi
  refine Or.inr ⟨Int.natCast_nonneg _, fun hprot => Or.inl ?_⟩
  rw [(table_items t).alone i (find_mem hi) hprot j hj (find_code hi)]

/-- Options set one after the other, none of them this one. -/
theorem forcedIn_setVals (ht : t.hasKeyerMode = true) (hr : t.hasRadio r = true) (hs : s.length = bufSize t)
    {calls : List (String × Int)}
    (hcalls : ∀ k ∈ calls, Kcfg.Regular (items t) k.1 k.2 ∧ caseCode k.1 ≠ caseCode (forceKey r)) :
    forcedIn t r (setVals (items t) s calls) = forcedIn t r s := by
  induction calls generalizing s with
  | nil => rfl
  | cons k calls ih =>
    obtain ⟨⟨hregular, hkey⟩, hrest⟩ := List.forall_mem_cons.1 hcalls
    rw [setVals_cons, ih ((length_kcfgSetVal ..).trans hs) hrest]
    exact forcedIn_other ht hr hs hregular hkey

/-- All options are set to their defaults. -/
theorem forcedIn_dflts (ht : t.hasKeyerMode = true) (hr : t.hasRadio r = true) (hs : s.length = bufSize t)
    {js : List Citem} (hjs : ∀ j ∈ js, j ∈ items t) (h : forceItem r ∈ js ∨ forcedIn t r s = 1) :
    forcedIn t r (setVals (items t) s (js.map fun i => (i.key, (i.dflt : Int)))) = 1 := by
  induction js generalizing s with
  | nil => exact h.resolve_left List.not_mem_nil
  | cons j js ih =>
    obtain ⟨hj, hjs⟩ := List.forall_mem_cons.1 hjs
    rw [List.map_cons, setVals_cons]
    refine ih ((length_kcfgSetVal ..).trans hs) hjs ?_
    by_cases hforce : j = forceItem r
    · right
      subst hforce
      cases r <;> exact forcedIn_set ht hr hs (by decide)
    · rcases h with hmem | hone
      · exact Or.inl ((List.mem_cons.1 hmem).resolve_left (Ne.symm hforce))
      · right
        have hcode : caseCode j.key ≠ caseCode (forceKey r) := fun he => hforce ((alone_items ht hr).2 j hj he)
        dsimp only
        rw [forcedIn_other ht hr hs (regular_dflt hj) hcode, hone]

theorem createCalls_keep (t : KeyerType) (r : RadioNo) :
    ∀ k ∈ createCalls t, caseCode k.1 ≠ caseCode (forceKey r) := by
  have hcodes : ∀ k ∈ createCalls .dk2 ++ createCalls .mk2,
      caseCode k.1 ≠ caseCode (forceKey .r1) ∧ caseCode k.1 ≠ caseCode (forceKey .r2) := by
    decide
  have hcalls : createCalls t = createCalls .dk2 ∨ createCalls t = createCalls .mk2 ∨ createCalls t = [] := by
    cases t <;> simp [createCalls]
  intro k hk
  have hmem : k ∈ createCalls .dk2 ++ createCalls .mk2 := by
    rcases hcalls with h | h | h <;> rw [h] at hk
    · exact List.mem_append_left _ hk
    · exact List.mem_append_right _ hk
    · cases hk
  cases r with
  | r1 => exact (hcodes k hmem).1
  | r2 => exact (hcodes k hmem).2

/-- Byte 6 or 18. -/
theorem forcedIn_setByte (ht : t.hasKeyerMode = true) (hr : t.hasRadio r = true) {n : Nat} {b : UInt8}
    (hn : n = MK1_FRBASE_VOICE ∨ n = MK1_FRBASE_DIGITAL) : forcedIn t r (s.set n b) = forcedIn t r s := by
  have hbyte : n ≠ (forceItem r).field.byte := by
    rcases hn with rfl | rfl <;> cases r <;> decide
  rw [forcedIn, forcedIn, kcfgGetVal, kcfgGetVal, find_force ht hr]
  dsimp only
  rw [List.length_set, BitField.get, BitField.get, List.getD_eq_getElem?_getD, List.getElem?_set_ne hbyte,
    List.getD_eq_getElem?_getD]

theorem forcedIn_create (ht : t.hasKeyerMode = true) (hr : t.hasRadio r = true) :
    forcedIn t r (kcfgCreate t) = 1 := by
  have hzero : (List.replicate (bufSize t) (0 : UInt8)).length = bufSize t := List.length_replicate
  have hdflts := forcedIn_dflts ht hr hzero (fun _ hj => hj) (Or.inl (alone_items ht hr).1)
  have hlen := length_setVals (items t) (List.replicate (bufSize t) 0) ((items t).map fun i => (i.key, (i.dflt : Int)))
  rw [hzero] at hlen
  have hcalls : ∀ k ∈ createCalls t, Kcfg.Regular (items t) k.1 k.2 ∧ caseCode k.1 ≠ caseCode (forceKey r) := by
    intro k hk
    obtain ⟨h0, hcode⟩ := createCalls_regular t k hk
    exact ⟨regular_of_code h0 hcode, createCalls_keep t r k hk⟩
  unfold kcfgCreate
  generalize setVals (items t) (List.replicate (bufSize t) 0) ((items t).map fun i => (i.key, (i.dflt : Int))) = s
    at hdflts hlen
  have hget : ∀ s, forcedIn t r (if t.isMkFamily then mk1SetFrbase t s else s) = forcedIn t r s :=
    fun s => forcedIn_getSettings ht hr
  have hmk : forcedIn t r (if t.isMkFamily then (s.set MK1_FRBASE_VOICE 0x7f).set MK1_FRBASE_DIGITAL 0x95 else s) = 1 ∧
      (if t.isMkFamily then (s.set MK1_FRBASE_VOICE 0x7f).set MK1_FRBASE_DIGITAL 0x95 else s).length = bufSize t := by
    split_ifs
    · rw [forcedIn_setByte ht hr (Or.inr rfl), forcedIn_setByte ht hr (Or.inl rfl), List.length_set, List.length_set]
      exact ⟨hdflts, hlen⟩
    · exact ⟨hdflts, hlen⟩
  dsimp only
  rw [hget, forcedIn_setVals ht hr hmk.2 hcalls]
  exact hmk.1

end option

/-! ### Runs -/

/-- The option is on while there is no valid information, in the settings and in those that the keyer has. -/
structure Follows (t : KeyerType) (r : RadioNo) (c : Ctl) : Prop where
  keyer : c.keyer = t
  len : c.settings.length = bufSize t
  forced : forcedIn t r c.settings = if c.radioInfoValid r then 0 else 1
  sent : ∀ s ∈ c.lastSettings, forcedIn t r s = forcedIn t r c.settings
  unsent : c.lastSettings = none → forcedIn t r c.settings = 1

section runs
variable {t : KeyerType} {r r' : RadioNo} {c c' : Ctl} {e : Ev}

/-- The settings among what is submitted. -/
def settingsIn (os : List Out) : List (List UInt8) :=
  os.filterMap fun o => match o with
    | .setSettings s => some s
    | _ => none

theorem lastSettings_append (os : List Out) (hout : c'.out = c.out ++ os) :
    c'.lastSettings = (settingsIn os).getLast?.or c.lastSettings := by
  rw [lastSettings, hout, List.filterMap_append, List.getLast?_append]
  rfl

/-- Nothing is submitted, and the option stays as it is. -/
theorem Follows.quiet (h : Follows t r c) (os : List Out) (hkeyer : c'.keyer = c.keyer) (hout : c'.out = c.out ++ os)
    (hos : settingsIn os = []) (hlen : c'.settings.length = c.settings.length)
    (hforced : forcedIn t r c'.settings = forcedIn t r c.settings)
    (hvalid : c'.radioInfoValid r = c.radioInfoValid r) : Follows t r c' := by
  have hlast : c'.lastSettings = c.lastSettings := by
    rw [lastSettings_append os hout, hos]
    rfl
  exact ⟨hkeyer.trans h.keyer, hlen.trans h.len, by rw [hforced, hvalid, h.forced], by rw [hlast, hforced]; exact h.sent,
    by rw [hlast, hforced]; exact h.unsent⟩

/-- The settings are submitted, with the option as the information wants it. -/
theorem Follows.sends (h : Follows t r c) (os : List Out) (hkeyer : c'.keyer = c.keyer) (hout : c'.out = c.out ++ os)
    (hos : settingsIn os = [c'.settings]) (hlen : c'.settings.length = c.settings.length)
    (hforced : forcedIn t r c'.settings = if c'.radioInfoValid r then 0 else 1) : Follows t r c' := by
  have hlast : c'.lastSettings = some c'.settings := by
    rw [lastSettings_append os hout, hos]
    rfl
  refine ⟨hkeyer.trans h.keyer, hlen.trans h.len, hforced, ?_, ?_⟩
  · rintro s hs
    rw [hlast] at hs
    cases hs
    rfl
  · intro hnone
    rw [hlast] at hnone
    cases hnone

theorem length_getSettings (t : KeyerType) (s : List UInt8) : (kcfgGetSettings t s).length = s.length := by
  rw [kcfgGetSettings]
  split_ifs
  · exact length_mk1SetFrbase t s
  · rfl

theorem length_forceSettings (c : Ctl) (r : RadioNo) (enable : Int) :
    (c.forceSettings r enable).length = c.settings.length :=
  (length_getSettings ..).trans (length_kcfgSetVal ..)

theorem force_codes : caseCode (forceKey .r1) ≠ caseCode (forceKey .r2) := by
  decide

theorem force_other (h : r' ≠ r) : caseCode (forceKey r') ≠ caseCode (forceKey r) := by
  cases r <;> cases r' <;> first | exact absurd rfl h | exact force_codes | exact force_codes.symm

theorem force_code (r : RadioNo) : caseCode (forceKey r) ∉ enforcedCodes := by
  cases r <;> decide

/-- The option of a radio is set: the one of the other stays as it is. -/
theorem forcedIn_forceSettings (ht : t.hasKeyerMode = true) (hr : t.hasRadio r = true) (hkeyer : c.keyer = t)
    (hs : c.settings.length = bufSize t) {enable : Int} (h : 0 ≤ enable ∧ enable ≤ 1) :
    forcedIn t r (c.forceSettings r' enable) = if r = r' then enable else forcedIn t r c.settings := by
  rw [forceSettings, hkeyer, forcedIn_getSettings ht hr]
  split_ifs with heq
  · rw [← heq, forcedIn_set ht hr hs h]
  · exact forcedIn_other ht hr hs (regular_of_code h.1 (Or.inr (force_code r'))) (force_other (Ne.symm heq))

theorem forced_eq (h : c.keyer = t) (r : RadioNo) : c.forced r = forcedIn t r c.settings := by
  rw [Ctl.forced, h]
  rfl

theorem Follows.updateRadio (h : Follows t r c) (ht : t.hasKeyerMode = true) (hr : t.hasRadio r = true) (now : Nat)
    (source : List UInt8) (info : RadioReport) : Follows t r (c.updateRadio now source r' info) := by
  have hkeyer := h.keyer
  have hout : (c.updateRadio now source r' info).out = c.out ++ c.outs source r' info := by
    rw [updateRadio_eq]
  have hstored : (c.updateRadio now source r' info).radioInfoValid = Function.update c.radioInfoValid r' true := by
    rw [updateRadio_eq]
    dsimp only
    split_ifs <;> rfl
  have hvalid : (c.updateRadio now source r' info).radioInfoValid r = if r = r' then true else c.radioInfoValid r := by
    rw [hstored, Function.update_apply]
  have hsettings : (c.updateRadio now source r' info).settings =
      if c.lifts r' then c.forceSettings r' 0 else c.settings := by
    rw [updateRadio_eq]
    dsimp only
    split_ifs <;> rfl
  have hos : settingsIn (c.outs source r' info) = if c.lifts r' then [c.forceSettings r' 0] else [] := by
    rw [outs]
    split_ifs <;> rfl
  by_cases hlift : c.lifts r' = true
  · rw [if_pos hlift] at hsettings hos
    refine h.sends _ (updateRadio_keyer ..) hout (hos.trans (by rw [hsettings])) ?_ ?_
    · rw [hsettings, length_forceSettings]
    · rw [hsettings, hvalid, forcedIn_forceSettings ht hr hkeyer h.len (by decide), h.forced]
      split_ifs <;> simp_all
  · rw [if_neg hlift] at hsettings hos
    refine h.quiet _ (updateRadio_keyer ..) hout hos (by rw [hsettings]) (by rw [hsettings]) ?_
    rw [hvalid]
    split_ifs with heq
    · -- the option is off already
      subst heq
      have hoff : forcedIn t r c.settings = 0 := by
        by_contra hon
        exact hlift (decide_eq_true ⟨hkeyer ▸ ht, forced_eq hkeyer r ▸ hon⟩)
      have hforced := h.forced
      rw [hoff] at hforced
      by_contra hnot
      rw [if_neg fun hv => hnot hv.symm] at hforced
      exact absurd hforced (by decide)
    · rfl

theorem Follows.radioInfoTimeoutCb (h : Follows t r c) (ht : t.hasKeyerMode = true) (hr : t.hasRadio r = true) :
    Follows t r (c.radioInfoTimeoutCb r') := by
  have hkeyer := h.keyer
  rw [radioInfoTimeoutCb_eq]
  by_cases htimer : c.radioInfoTimer r' = false
  · rw [if_pos htimer]
    exact h
  rw [if_neg htimer]
  have hos : settingsIn (c.dropOuts r') = if c.forces r' then [c.forceSettings r' 1] else [] := by
    rw [dropOuts]
    split_ifs <;> rfl
  have hvalid : (c.dropInfo r').radioInfoValid r = if r = r' then false else c.radioInfoValid r :=
    Function.update_apply ..
  by_cases hforce : c.forces r' = true
  · rw [if_pos hforce] at hos
    rw [if_pos hforce]
    refine h.sends _ rfl rfl hos (length_forceSettings ..) ?_
    rw [hvalid, forcedIn_forceSettings ht hr hkeyer h.len (by decide), h.forced]
    split_ifs <;> simp_all
  · rw [if_neg hforce] at hos
    rw [if_neg hforce]
    refine h.quiet _ rfl rfl hos rfl rfl ?_
    rw [hvalid]
    split_ifs with heq
    · -- the option is on already
      subst heq
      have hon : forcedIn t r c.settings = 1 := by
        by_contra hoff
        exact hforce (decide_eq_true ⟨hkeyer ▸ ht, forced_eq hkeyer r ▸ hoff⟩)
      have hforced := h.forced
      rw [hon] at hforced
      by_contra hnot
      rw [if_pos (Bool.eq_true_of_not_eq_false fun hv => hnot hv.symm)] at hforced
      exact absurd hforced (by decide)
    · rfl

theorem mode_codes (r : RadioNo) : caseCode "r1KeyerMode" ≠ caseCode (forceKey r) ∧
    caseCode "r2KeyerMode" ≠ caseCode (forceKey r) := by
  cases r <;> decide

theorem mode_regular : caseCode "r1KeyerMode" ∉ enforcedCodes ∧ caseCode "r2KeyerMode" ∉ enforcedCodes := by
  decide

/-- The keyer's mode is another option. -/
theorem forcedIn_updateKeyerMode (ht : t.hasKeyerMode = true) (hr : t.hasRadio r = true) {s : List UInt8}
    (hs : s.length = bufSize t) (cur r1 r2 : UInt8) :
    forcedIn t r (kcfgUpdateKeyerMode t s cur r1 r2) = forcedIn t r s ∧
      (kcfgUpdateKeyerMode t s cur r1 r2).length = s.length := by
  have hset : ∀ s : List UInt8, s.length = bufSize t → ∀ val : UInt8,
      forcedIn t r (kcfgSetVal (items t) s "r1KeyerMode" val.toNat).1 = forcedIn t r s ∧
        forcedIn t r (kcfgSetVal (items t) s "r2KeyerMode" val.toNat).1 = forcedIn t r s := by
    intro s hs val
    have h0 : (0 : Int) ≤ val.toNat := Int.natCast_nonneg _
    exact ⟨forcedIn_other ht hr hs (regular_of_code h0 (Or.inr mode_regular.1)) (mode_codes r).1,
      forcedIn_other ht hr hs (regular_of_code h0 (Or.inr mode_regular.2)) (mode_codes r).2⟩
  rw [kcfgUpdateKeyerMode]
  split_ifs
  · rw [length_kcfgSetVal, length_kcfgSetVal, (hset _ ((length_kcfgSetVal ..).trans hs) r2).2, (hset s hs r1).1]
    exact ⟨rfl, rfl⟩
  · rw [length_kcfgSetVal, (hset s hs cur).1]
    exact ⟨rfl, rfl⟩

theorem Follows.keyerModeReport (h : Follows t r c) (ht : t.hasKeyerMode = true) (hr : t.hasRadio r = true) (now : Nat)
    (f : UInt8) : Follows t r (c.keyerModeReport now f) := by
  have hkeyer := h.keyer
  subst hkeyer
  obtain ⟨hforced, hlen⟩ := forcedIn_updateKeyerMode ht hr h.len (f &&& 3) ((f >>> 2) &&& 3) ((f >>> 4) &&& 3)
  rw [Ctl.keyerModeReport]
  split
  · refine h.sends [_, _] rfl (List.append_assoc ..) rfl ((length_getSettings ..).trans hlen) ?_
    refine (forcedIn_getSettings ht hr).trans (hforced.trans ?_)
    exact h.forced
  · exact h.quiet [_] rfl rfl rfl hlen hforced rfl

/-- Options are set with the configuration. -/
theorem forcedIn_setKopts (ht : t.hasKeyerMode = true) (hr : t.hasRadio r = true) {calls : List (String × Int)}
    (hcalls : ∀ k ∈ calls, Kcfg.Regular (items t) k.1 k.2 ∧ caseCode k.1 ≠ caseCode (forceKey r)) {s : List UInt8}
    (hs : s.length = bufSize t) :
    forcedIn t r (calls.foldl (fun s k => (mhcSetKopt t s k.1 k.2).1) s) = forcedIn t r s ∧
      (calls.foldl (fun s k => (mhcSetKopt t s k.1 k.2).1) s).length = s.length := by
  induction calls generalizing s with
  | nil => exact ⟨rfl, rfl⟩
  | cons k calls ih =>
    obtain ⟨⟨hregular, hkey⟩, hrest⟩ := List.forall_mem_cons.1 hcalls
    have hone : forcedIn t r (mhcSetKopt t s k.1 k.2).1 = forcedIn t r s ∧
        (mhcSetKopt t s k.1 k.2).1.length = s.length := by
      rw [mhcSetKopt]
      split_ifs
      · exact ⟨rfl, rfl⟩
      · exact ⟨forcedIn_other ht hr hs hregular hkey, length_kcfgSetVal ..⟩
    obtain ⟨hforced, hlen⟩ := ih hrest (hone.2.trans hs)
    exact ⟨hforced.trans hone.1, hlen.trans hone.2⟩

theorem Follows.step (h : Follows t r c) (ht : t.hasKeyerMode = true) (hr : t.hasRadio r = true) (he : Keeps t r e) :
    Follows t r (c.step e) := by
  cases e with
  | update now source info =>
    rw [Ctl.step, mhcUpdateRadioInfo]
    split
    · exact h
    · exact h.updateRadio ht hr now _ _
  | timeout r' => exact h.radioInfoTimeoutCb ht hr
  | keyerMode now f => exact h.keyerModeReport ht hr now f
  | modeDone result =>
    rw [Ctl.step, radioInfoModeCb]
    split_ifs
    · exact h.quiet [] rfl (List.append_nil _).symm rfl rfl rfl rfl
    · exact h
  | online => exact h.quiet [] rfl (List.append_nil _).symm rfl rfl rfl rfl
  | kopts calls =>
    have hkeyer := h.keyer
    subst hkeyer
    obtain ⟨hforced, hlen⟩ := forcedIn_setKopts ht hr he h.len
    refine h.sends [_] rfl rfl rfl ((length_getSettings ..).trans hlen) ?_
    exact (forcedIn_getSettings ht hr).trans (hforced.trans h.forced)

end runs

/-- In every run in which the configuration leaves the option alone, the forced mode of a radio is off exactly while
its information is valid: in the settings, and in those that were submitted last. Before any were submitted no
information was valid. -/
theorem forced_mode_follows (t : KeyerType) (ht : t.hasKeyerMode = true) {r : RadioNo} (hr : t.hasRadio r = true)
    {evs : List Ev} (hevs : ∀ e ∈ evs, Keeps t r e) :
    let c := Run.run step (mhcCreate t) evs
    forcedIn t r c.settings = (if c.radioInfoValid r then 0 else 1) ∧
      (∀ s ∈ c.lastSettings, forcedIn t r s = if c.radioInfoValid r then 0 else 1) ∧
      (c.lastSettings = none → c.radioInfoValid r = false) := by
  intro c
  have hone := forcedIn_create ht hr
  have hstart : Follows t r (mhcCreate t) := by
    refine ⟨rfl, length_create t, hone, ?_, fun _ => hone⟩
    intro s hs
    cases hs
  have h : Follows t r c := Run.run_inv_of_ok (fun _ _ h he => h.step ht hr he) hstart (Run.stepsOk_const_iff.2 hevs)
  refine ⟨h.forced, fun s hs => (h.sent s hs).trans h.forced, fun hnone => ?_⟩
  have hon := h.unsent hnone
  rw [h.forced] at hon
  by_contra hvalid
  rw [if_pos (Bool.eq_true_of_not_eq_false hvalid)] at hon
  exact absurd hon (by decide)

theorem forced_mode_follows_mk2r :
    let c := Run.run step (mhcCreate .mk2r) [.update 5000 none ⟨⟨2, 0, 0, 0, 0, 0⟩, 2, ⟨[], by decide⟩⟩,
      .update 6000 none ⟨⟨1, 0, 0, 0, 0, 0⟩, 0, ⟨[], by decide⟩⟩, .timeout .r1]
    forcedIn .mk2r .r2 c.settings = if c.radioInfoValid .r2 then 0 else 1 :=
  (forced_mode_follows .mk2r rfl (r := .r2) rfl (by simp [Keeps])).1

end Ctl

end RadioMode

end Mhuxd
