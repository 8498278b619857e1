import Mhuxd.CatState

/-!
# What storing leaves as it was

Every function that stores in the radio's state counts what it changes and stamps what it writes with the
time of the call (`Stored`). So a call that leaves the state as it was in the end left it so in each part.
-/

namespace Mhuxd

/-- An item is as it was but for its time. -/
def ItemKept {α : Type} (t : Nat) (it it' : CatItem α) : Prop := it' = it ∨ it' = { it with tMs := t }

section
variable {α : Type} {t n : Nat} {it it' it'' : CatItem α}

theorem ItemKept.refl : ItemKept t it it := .inl rfl

theorem ItemKept.trans (h : ItemKept t it it') (h' : ItemKept t it' it'') : ItemKept t it it'' := by
  rcases h' with rfl | rfl
  · exact h
  · rcases h with rfl | rfl
    · exact .inr rfl
    · exact .inr rfl

theorem ItemKept.antisymm (h : ItemKept t it it') (h' : ItemKept t it' it) : it' = it := by
  rcases h with rfl | rfl
  · rfl
  · rcases h' with h' | h'
    · exact h'.symm
    · exact h'.symm

theorem itemSet_kept [DecidableEq α] {val : α} (h : (CatState.itemSet it val t).2 = 0) :
    ItemKept t it (CatState.itemSet it val t).1 := by
  unfold CatState.itemSet at h ⊢
  dsimp only at h ⊢
  split_ifs at h with hc
  obtain ⟨v, s, b⟩ := it
  simp only [not_or, not_not, Bool.not_eq_false] at hc
  obtain ⟨rfl, rfl⟩ := hc
  exact .inr rfl

theorem itemInvalidate_kept (h : (CatState.itemInvalidate it).2 = 0) : (CatState.itemInvalidate it).1 = it := by
  obtain ⟨v, s, b⟩ := it
  cases b with
  | false => rfl
  | true => exact absurd h Nat.one_ne_zero

end

/-- The items of a VFO are as they were but for their times. -/
structure VfoKept (t : Nat) (v v' : VfoState) : Prop where
  freq : ItemKept t v.freq v'.freq
  mode : ItemKept t v.mode v'.mode
  data : ItemKept t v.data v'.data

/-- The state is as it was but for the times. -/
structure StateKept (t : Nat) (st st' : CatState) : Prop where
  sel : VfoKept t st.sel st'.sel
  unsel : VfoKept t st.unsel st'.unsel
  split : ItemKept t st.split st'.split
  vfoAb : ItemKept t st.vfoAb st'.vfoAb

/-- Changes are counted, and what is written is stamped with the time. -/
structure Stored (t : Nat) (st st' : CatState) : Prop where
  le : st.changes ≤ st'.changes
  kept : st'.changes = st.changes → StateKept t st st'

section
variable {t : Nat} {st st' st'' : CatState} {slot : Vfo} {v v' v'' : VfoState}

theorem VfoKept.refl : VfoKept t v v := ⟨.refl, .refl, .refl⟩

theorem VfoKept.trans (h : VfoKept t v v') (h' : VfoKept t v' v'') : VfoKept t v v'' :=
  ⟨h.freq.trans h'.freq, h.mode.trans h'.mode, h.data.trans h'.data⟩

theorem VfoKept.antisymm (h : VfoKept t v v') (h' : VfoKept t v' v) : v' = v := by
  obtain ⟨f, m, d⟩ := v
  obtain ⟨f', m', d'⟩ := v'
  obtain rfl := h.freq.antisymm h'.freq
  obtain rfl := h.mode.antisymm h'.mode
  obtain rfl := h.data.antisymm h'.data
  rfl

theorem StateKept.refl : StateKept t st st := ⟨.refl, .refl, .refl, .refl⟩

theorem StateKept.trans (h : StateKept t st st') (h' : StateKept t st' st'') : StateKept t st st'' :=
  ⟨h.sel.trans h'.sel, h.unsel.trans h'.unsel, h.split.trans h'.split, h.vfoAb.trans h'.vfoAb⟩

theorem Stored.refl : Stored t st st := ⟨Nat.le_refl _, fun _ => .refl⟩

theorem Stored.trans (h : Stored t st st') (h' : Stored t st' st'') : Stored t st st'' := by
  refine ⟨Nat.le_trans h.le h'.le, fun heq => ?_⟩
  have hle := h.le
  have hle' := h'.le
  exact (h.kept (by omega)).trans (h'.kept (by omega))

/-- A call that comes back to where it began has changed nothing. -/
theorem Stored.antisymm (h : Stored t st st') (h' : Stored t st' st) : st' = st := by
  have hch : st'.changes = st.changes := Nat.le_antisymm h'.le h.le
  have hk := h.kept hch
  have hk' := h'.kept hch.symm
  obtain ⟨sel, unsel, split, ab, n⟩ := st
  obtain ⟨sel', unsel', split', ab', n'⟩ := st'
  obtain rfl := hk.sel.antisymm hk'.sel
  obtain rfl := hk.unsel.antisymm hk'.unsel
  obtain rfl := hk.split.antisymm hk'.split
  obtain rfl := hk.vfoAb.antisymm hk'.vfoAb
  obtain rfl : n' = n := hch
  rfl

/-! ### The functions that store -/

/-- A VFO is written, with the number of its changes. -/
theorem Stored.setVfo {n : Nat} (h : n = 0 → VfoKept t (st.vfo slot) v) :
    Stored t st { st.setVfo slot v with changes := st.changes + n } := by
  refine ⟨Nat.le_add_right _ _, fun hn => ?_⟩
  have hk := h (by simpa using hn)
  cases slot with
  | sel => exact ⟨hk, .refl, .refl, .refl⟩
  | unsel => exact ⟨.refl, hk, .refl, .refl⟩

theorem stored_setFreq (hz : Nat) : Stored t st (st.setFreq slot hz t) :=
  .setVfo fun hn => ⟨itemSet_kept hn, .refl, .refl⟩

theorem stored_setData (data : Bool) : Stored t st (st.setData slot data t) :=
  .setVfo fun hn => ⟨.refl, .refl, itemSet_kept hn⟩

/-- What a changed base mode leaves of the data flag, with the number of changes. -/
def dataLeft (v : VfoState) (base : CatMode) : CatItem Bool × Nat :=
  if v.mode.valid = false ∨ v.mode.val ≠ base then CatState.itemInvalidate v.data else (v.data, 0)

/-- The base mode is set. -/
def CatState.setBase (st : CatState) (slot : Vfo) (base : CatMode) (t : Nat) : CatState :=
  let v := st.vfo slot
  { st.setVfo slot { v with mode := (itemSet v.mode base t).1, data := (dataLeft v base).1 } with
    changes := st.changes + (dataLeft v base).2 + (itemSet v.mode base t).2 }

theorem setMode_eq {mode : CatMode} (h : mode ≠ .none) : st.setMode slot mode t =
    if mode.withoutData.2 then (st.setBase slot mode.withoutData.1 t).setData slot true t
    else st.setBase slot mode.withoutData.1 t := if_neg h

theorem stored_setBase (base : CatMode) : Stored t st (st.setBase slot base t) := by
  unfold CatState.setBase
  dsimp only
  rw [Nat.add_assoc]
  refine .setVfo fun hn => ⟨.refl, itemSet_kept (by omega), ?_⟩
  have hdata : (dataLeft (st.vfo slot) base).2 = 0 := by omega
  unfold dataLeft at hdata ⊢
  split_ifs at hdata ⊢
  · exact .inl (itemInvalidate_kept hdata)
  · exact .refl

theorem stored_exchangeVfos : Stored t st st.exchangeVfos := by
  refine ⟨Nat.le_add_right _ _, fun hn => ?_⟩
  have heq : st.sel = st.unsel := by
    by_contra hne
    simp [CatState.exchangeVfos, hne] at hn
  exact ⟨by rw [CatState.exchangeVfos, heq]; exact .refl, by rw [CatState.exchangeVfos, heq]; exact .refl, .refl, .refl⟩

theorem stored_invalidateVfo : Stored t st (st.invalidateVfo slot) := by
  unfold CatState.invalidateVfo
  dsimp only
  rw [Nat.add_assoc, Nat.add_assoc]
  refine .setVfo fun hn => ⟨?_, ?_, ?_⟩
  · exact .inl (itemInvalidate_kept (by omega))
  · exact .inl (itemInvalidate_kept (by omega))
  · exact .inl (itemInvalidate_kept (by omega))

theorem stored_selectVfo (ab : Bool) : Stored t st (st.selectVfo ab t) := by
  have hset : ∀ st : CatState, Stored t st
      { st with vfoAb := (CatState.itemSet st.vfoAb ab t).1, changes := st.changes + (CatState.itemSet st.vfoAb ab t).2 } := by
    intro st
    refine ⟨Nat.le_add_right _ _, fun hn => ⟨.refl, .refl, .refl, itemSet_kept ?_⟩⟩
    simpa using hn
  unfold CatState.selectVfo
  split_ifs
  · exact stored_exchangeVfos.trans (hset _)
  · exact hset _
  · exact (stored_invalidateVfo.trans stored_invalidateVfo).trans (hset _)

/-! ### Storing what is there -/

theorem setFreq_eq_iff {hz : Nat} : st.setFreq slot hz t = st ↔ (st.vfo slot).freq = ⟨hz, t, true⟩ := by
  constructor
  · intro h
    have hfreq : ((st.setFreq slot hz t).vfo slot).freq = ⟨hz, t, true⟩ := by cases slot <;> rfl
    rw [← h]
    exact hfreq
  · intro h
    unfold CatState.setFreq CatState.itemSet
    dsimp only
    rw [h]
    cases slot
    all_goals
      simp only [CatState.vfo] at h
      simp [CatState.vfo, CatState.setVfo]
      rw [← h]

theorem setData_eq_iff {data : Bool} : st.setData slot data t = st ↔ (st.vfo slot).data = ⟨data, t, true⟩ := by
  constructor
  · intro h
    have hdata : ((st.setData slot data t).vfo slot).data = ⟨data, t, true⟩ := by cases slot <;> rfl
    rw [← h]
    exact hdata
  · intro h
    unfold CatState.setData CatState.itemSet
    dsimp only
    rw [h]
    cases slot
    all_goals
      simp only [CatState.vfo] at h
      simp [CatState.vfo, CatState.setVfo]
      rw [← h]

theorem setBase_eq_iff {base : CatMode} : st.setBase slot base t = st ↔ (st.vfo slot).mode = ⟨base, t, true⟩ := by
  constructor
  · intro h
    have hmode : ((st.setBase slot base t).vfo slot).mode = ⟨base, t, true⟩ := by cases slot <;> rfl
    rw [← h]
    exact hmode
  · intro h
    unfold CatState.setBase CatState.itemSet dataLeft
    dsimp only
    rw [h]
    cases slot
    all_goals
      simp only [CatState.vfo] at h
      simp [CatState.vfo, CatState.setVfo]
      rw [← h]

/-- The VFO that is selected already. -/
theorem selectVfo_eq_iff {ab : Bool} : st.selectVfo ab t = st ↔ st.vfoAb = ⟨ab, t, true⟩ := by
  constructor
  · intro h
    have hab : (st.selectVfo ab t).vfoAb = ⟨ab, t, true⟩ := rfl
    rw [← h]
    exact hab
  · intro h
    unfold CatState.selectVfo CatState.itemSet
    simp [h]
    rw [← h]

/-- Two calls that change nothing together change nothing each. -/
theorem Stored.eq_iff (h : Stored t st st') (h' : Stored t st' st'') : st'' = st ↔ st' = st ∧ st'' = st' := by
  constructor
  · rintro rfl
    have heq := h.antisymm h'
    exact ⟨heq, heq.symm⟩
  · rintro ⟨rfl, rfl⟩
    rfl

end

end Mhuxd
