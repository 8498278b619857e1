import Mhuxd.StationMaster

/-!
# The sectors of a virtual rotator (`mhsm.c`)

Each reference of a virtual rotator has a sector, from its start azimuth to its stop, that may cross north. The degrees
are marked in a table, and every two sectors are compared by their ends.
-/

namespace Mhuxd

/-- `SM_VALIDATE_RESULT_...`. -/
inductive ValidateResult
  | ok | azimuthOverlap | azimuthGaps
deriving DecidableEq, Repr

def azimuthOverlap (min1 max1 min2 max2 : Nat) : Bool :=
  if max1 < min1 then
    -- range crossing 360
    if max2 < min2 then true else decide (min2 < max1)
  else if max2 ≤ min1 ∧ max2 ≤ max1 then false
  else if min1 < min2 ∧ max1 ≤ min2 then false
  else true

namespace Ref

def start (r : Ref) : Nat := r.minAzimuth.toNat

def stop (r : Ref) : Nat := r.maxAzimuth.toNat

def overlaps (r s : Ref) : Bool := azimuthOverlap r.start r.stop s.start s.stop

end Ref

/-- `deg[i] = 1` for `n` degrees from `i` on; `none` is an access outside the table. -/
def markDegrees (deg : List Bool) (i : Nat) : Nat → Option (List Bool)
  | 0 => some deg
  | n + 1 => if i < deg.length then markDegrees (deg.set i true) (i + 1) n else none

/-- The gap array with a reference. -/
def updateDegrees (deg : List Bool) (r : Ref) : Option (List Bool) :=
  if r.stop < r.start then (markDegrees deg 0 (r.stop + 1)).bind fun deg => markDegrees deg r.start (360 - r.start)
  else markDegrees deg r.start (r.stop + 1 - r.start)

/-- A reference overlaps with another one of the list. -/
def overlapped (refs : List Ref) (p : Ref × Nat) : Bool := (refs.eraseIdx p.2).any fun cmp => p.1.overlaps cmp

/-- The references from one on, with their places in the list. -/
def scanRefs (refs : List Ref) : List (Ref × Nat) → List Bool → Option ValidateResult
  | [], deg => some (if deg.all id then .ok else .azimuthGaps)
  | p :: rest, deg =>
    (updateDegrees deg p.1).bind fun deg => if overlapped refs p then some .azimuthOverlap else scanRefs refs rest deg

def validateRefs (refs : List Ref) : Option ValidateResult := scanRefs refs refs.zipIdx (List.replicate 360 false)

/-- The references of an object that is a virtual rotator. -/
def Object.virtualRotator (o : Object) : Option (List Ref) :=
  match o.body with
  | .grp g => if g.flags &&& 1 = 0 then some o.refs else none
  | _ => none

def validateObjects : List Object → Option ValidateResult
  | [] => some .ok
  | o :: os =>
    match o.virtualRotator with
    | none => validateObjects os
    | some refs => (validateRefs refs).bind fun res => if res = .ok then validateObjects os else some res

/-- `sm_antsw_validate_bp`. -/
def smAntswValidateBp (bp : Option Bandplan) : Option ValidateResult :=
  match bp with
  | none => some .ok
  | some bp => validateObjects bp.objList

/-! ### What it should say -/

namespace Ref

/-- The degree is in the sector. -/
def Has (r : Ref) (d : Nat) : Prop :=
  d < 360 ∧ if r.stop < r.start then d ≤ r.stop ∨ r.start ≤ d else r.start ≤ d ∧ d ≤ r.stop

instance (r : Ref) (d : Nat) : Decidable (r.Has d) := by
  unfold Has
  infer_instance

def IsEnd (r : Ref) (d : Nat) : Prop := d = r.start ∨ d = r.stop

/-- Two sectors share no degree but common ends. -/
def Meets (r s : Ref) : Prop := ∀ d, r.Has d → s.Has d → r.IsEnd d ∧ s.IsEnd d

end Ref

/-- Every degree is in a sector. -/
def Covered (refs : List Ref) : Prop := ∀ d < 360, ∃ r ∈ refs, r.Has d

/-- The virtual rotators of a band plan. -/
def Bandplan.rotators (bp : Bandplan) : List (List Ref) := bp.objList.filterMap Object.virtualRotator

/-- The validation of a band plan with this virtual rotator has a result, and it's a success exactly if every degree is
in a sector and no two sectors share more than ends. -/
def Validates (refs : List Ref) : Prop :=
  ∀ bp : Bandplan, bp.rotators = [refs] → ∃ res, smAntswValidateBp (some bp) = some res ∧
    (res = .ok ↔ Covered refs ∧ refs.Pairwise Ref.Meets)

/-! ### When it does -/

namespace Ref

/-- The first sector crosses north, and so does the second one or it starts below the first one's stop; or it doesn't
and the second one begins before it ends, and stops behind its start. -/
def Hits (r s : Ref) : Prop :=
  if r.stop < r.start then s.stop < s.start ∨ s.start < r.stop
  else r.start < s.stop ∧ (s.start ≤ r.start ∨ s.start < r.stop)

instance (r s : Ref) : Decidable (r.Hits s) := by
  unfold Hits
  infer_instance

/-- Of two sectors that hit: both start at one degree, which is the last one or all of a sector, or they are the same
two degrees; or they meet above 359. -/
def Harmless (r s : Ref) : Prop :=
  if r.stop < r.start then
    if s.stop < s.start then
      r.stop = 0 ∧ s.stop = 0 ∧ (360 ≤ r.start ∨ 360 ≤ s.start ∨ r.start = 359 ∧ s.start = 359)
    else 360 ≤ s.start
  else if s.stop < s.start then 360 ≤ r.start
  else 360 ≤ r.start ∨ 360 ≤ s.start ∨ r.start = s.start ∧
    (r.start = 359 ∨ r.stop = r.start ∨ s.stop = s.start ∨ r.stop = r.start + 1 ∧ s.stop = s.start + 1)

def RightlyReported (r s : Ref) : Prop := (r.Hits s ∨ s.Hits r) ∧ ¬ r.Harmless s

def FalselyReported (r s : Ref) : Prop := (r.Hits s ∨ s.Hits r) ∧ r.Harmless s

/-- The sector starts at or behind the stop of one that crosses north, and goes on behind the start of that one. -/
def RunsInto (s r : Ref) : Prop :=
  r.stop ≤ s.start ∧ s.start ≤ s.stop ∧ r.stop < r.start ∧ r.start < s.stop ∧
    (s.stop < 360 ∨ r.start < 360 ∧ s.start < 360 ∧ ¬ (r.start = 359 ∧ s.start = 359))

def Missed (r s : Ref) : Prop := s.RunsInto r ∨ r.RunsInto s

end Ref

/-- Degree 0 or the one behind a stop is between the ends of no sector. -/
def Gap (refs : List Ref) : Prop :=
  ∃ d ∈ 0 :: refs.map (fun r : Ref => r.stop + 1), d < 360 ∧
    ∀ r ∈ refs, if r.stop < r.start then r.stop < d ∧ d < r.start else d < r.start ∨ r.stop < d

/-- No stop is above 359, or a sector before it hits another one. -/
def InTable (refs : List Ref) : Prop :=
  ∀ (i : Nat) (r : Ref), refs[i]? = some r → 360 ≤ r.stop →
    ∃ j < i, ∃ k ≠ j, ∃ p q : Ref, refs[j]? = some p ∧ refs[k]? = some q ∧ p.Hits q

/-- Two sectors of the list. -/
def SomeTwo (P : Ref → Ref → Prop) (refs : List Ref) : Prop := ∃ r s, [r, s].Sublist refs ∧ P r s

/-- The table isn't left, and there is a gap, or two sectors are rightly reported, or some are falsely reported exactly
if some are missed. -/
def Regular (refs : List Ref) : Prop :=
  InTable refs ∧ (Gap refs ∨ SomeTwo Ref.RightlyReported refs ∨
    (SomeTwo Ref.FalselyReported refs ↔ SomeTwo Ref.Missed refs))

namespace Ref

variable {r s : Ref} {d : Nat}

theorem overlaps_iff : r.overlaps s = true ↔ r.Hits s := by
  unfold overlaps azimuthOverlap Hits
  split_ifs <;> simp <;> omega

theorem has_crossing (h : r.stop < r.start) : r.Has d ↔ d < 360 ∧ (d ≤ r.stop ∨ r.start ≤ d) := by
  rw [Has, if_pos h]

theorem has_plain (h : ¬ r.stop < r.start) : r.Has d ↔ d < 360 ∧ r.start ≤ d ∧ d ≤ r.stop := by
  rw [Has, if_neg h]

/-- Two sectors share more than ends where they are missed. -/
theorem meets_iff_of_not_hits (h : ¬ (r.Hits s ∨ s.Hits r)) : r.Meets s ↔ ¬ r.Missed s := by
  unfold Hits at h
  unfold Meets Missed RunsInto IsEnd
  by_cases hrc : r.stop < r.start
  · by_cases hsc : s.stop < s.start
    · rw [if_pos hrc] at h
      exact absurd (.inl (.inl hsc)) h
    · rw [if_pos hrc, if_neg hsc] at h
      simp only [has_crossing hrc, has_plain hsc]
      refine ⟨fun hm => ?_, fun hc d hrd hsd => by omega⟩
      have hstop := hm s.stop
      have h359 := hm 359
      omega
  · by_cases hsc : s.stop < s.start
    · rw [if_neg hrc, if_pos hsc] at h
      simp only [has_plain hrc, has_crossing hsc]
      refine ⟨fun hm => ?_, fun hc d hrd hsd => by omega⟩
      have hstop := hm r.stop
      have h359 := hm 359
      omega
    · rw [if_neg hrc, if_neg hsc] at h
      simp only [has_plain hrc, has_plain hsc]
      exact ⟨fun hm => by omega, fun hc d hrd hsd => by omega⟩

theorem meets_iff_of_hits (h : r.Hits s ∨ s.Hits r) : r.Meets s ↔ r.Harmless s := by
  unfold Hits at h
  unfold Meets Harmless IsEnd
  by_cases hrc : r.stop < r.start
  · by_cases hsc : s.stop < s.start
    · rw [if_pos hrc, if_pos hsc]
      simp only [has_crossing hrc, has_crossing hsc]
      refine ⟨fun hm => ?_, fun ht d hrd hsd => by omega⟩
      have h0 := hm 0
      have h359 := hm 359
      omega
    · rw [if_pos hrc, if_neg hsc] at *
      simp only [has_crossing hrc, has_plain hsc]
      refine ⟨fun hm => ?_, fun ht d hrd hsd => by omega⟩
      have hstart := hm s.start
      omega
  · by_cases hsc : s.stop < s.start
    · rw [if_neg hrc, if_pos hsc] at *
      simp only [has_plain hrc, has_crossing hsc]
      refine ⟨fun hm => ?_, fun ht d hrd hsd => by omega⟩
      have hstart := hm r.start
      omega
    · rw [if_neg hrc, if_neg hsc] at *
      simp only [has_plain hrc, has_plain hsc]
      refine ⟨fun hm => ?_, fun ht d hrd hsd => by omega⟩
      have hfirst := hm (max r.start s.start)
      have hsecond := hm (max r.start s.start + 1)
      omega

/-- Two sectors that hit are never missed. -/
theorem Missed.not_hits (h : r.Missed s) : ¬ (r.Hits s ∨ s.Hits r) := by
  unfold Missed RunsInto at h
  unfold Hits
  by_cases hrc : r.stop < r.start
  · rw [if_pos hrc, if_neg (by omega)]
    omega
  · rw [if_neg hrc, if_pos (by omega)]
    omega

theorem meets_iff : r.Meets s ↔ ¬ r.Missed s ∧ ¬ r.RightlyReported s := by
  unfold RightlyReported
  by_cases h : r.Hits s ∨ s.Hits r
  · rw [meets_iff_of_hits h, and_iff_right fun hm => hm.not_hits h, and_iff_right h, not_not]
  · rw [meets_iff_of_not_hits h, and_iff_left fun hr => h hr.1]

theorem not_hits_iff : (¬ r.Hits s ∧ ¬ s.Hits r) ↔ ¬ r.FalselyReported s ∧ ¬ r.RightlyReported s := by
  unfold FalselyReported RightlyReported
  tauto

end Ref

/-! ### The table -/

variable {deg : List Bool} {i n : Nat}

theorem getD_set (h : i < deg.length) (d : Nat) : (deg.set i true).getD d false =
    (deg.getD d false || decide (d = i)) := by
  rw [List.getD_eq_getElem?_getD, List.getElem?_set, List.getD_eq_getElem?_getD]
  by_cases hd : d = i
  · subst hd
    simp [h]
  · simp [hd, Ne.symm hd]

theorem markDegrees_some (deg : List Bool) (i n : Nat) (h : i + n ≤ deg.length ∨ n = 0) :
    ∃ deg', markDegrees deg i n = some deg' ∧
    deg'.length = deg.length ∧ ∀ d, deg'.getD d false = (deg.getD d false || decide (i ≤ d ∧ d < i + n)) := by
  induction n generalizing deg i with
  | zero =>
    refine ⟨deg, rfl, rfl, fun d => ?_⟩
    have hout : ¬ (i ≤ d ∧ d < i + 0) := by omega
    rw [decide_eq_false hout, Bool.or_false]
  | succ n ih =>
    have hlt : i < deg.length := by omega
    obtain ⟨deg', hmark, hlen, hdeg⟩ := ih (deg.set i true) (i + 1) (by rw [List.length_set]; omega)
    refine ⟨deg', ?_, hlen.trans (List.length_set ..), fun d => ?_⟩
    · rw [markDegrees, if_pos hlt, hmark]
    · rw [hdeg, getD_set hlt, Bool.or_assoc, ← Bool.decide_or]
      congr 1
      exact decide_eq_decide.2 (by omega)

theorem markDegrees_none (h : deg.length < i + n) (hn : n ≠ 0) : markDegrees deg i n = none := by
  induction n generalizing deg i with
  | zero => exact absurd rfl hn
  | succ n ih =>
    rw [markDegrees]
    split_ifs with hlt
    · exact ih (by rw [List.length_set]; omega) (by omega)
    · rfl

theorem updateDegrees_some {r : Ref} (hlen : deg.length = 360) (h : r.stop < 360) :
    ∃ deg', updateDegrees deg r = some deg' ∧
    deg'.length = 360 ∧ ∀ d, deg'.getD d false = (deg.getD d false || decide (r.Has d)) := by
  unfold updateDegrees
  by_cases hc : r.stop < r.start
  · obtain ⟨deg₁, hmark₁, hlen₁, hdeg₁⟩ := markDegrees_some deg 0 (r.stop + 1) (by omega)
    obtain ⟨deg₂, hmark₂, hlen₂, hdeg₂⟩ := markDegrees_some deg₁ r.start (360 - r.start) (by omega)
    refine ⟨deg₂, ?_, by omega, fun d => ?_⟩
    · rw [if_pos hc, hmark₁]
      exact hmark₂
    · rw [hdeg₂, hdeg₁, Bool.or_assoc, ← Bool.decide_or]
      congr 1
      refine decide_eq_decide.2 ?_
      rw [Ref.has_crossing hc]
      omega
  · obtain ⟨deg', hmark, hlen', hdeg⟩ := markDegrees_some deg r.start (r.stop + 1 - r.start) (by omega)
    refine ⟨deg', ?_, by omega, fun d => ?_⟩
    · rw [if_neg hc, hmark]
    · rw [hdeg]
      congr 1
      refine decide_eq_decide.2 ?_
      rw [Ref.has_plain hc]
      omega

theorem updateDegrees_none {r : Ref} (hlen : deg.length = 360) (h : 360 ≤ r.stop) :
    updateDegrees deg r = none := by
  unfold updateDegrees
  split_ifs with hc
  · rw [markDegrees_none (by omega) (by omega)]
    rfl
  · exact markDegrees_none (by omega) (by omega)

theorem all_iff (hlen : deg.length = 360) : deg.all id = true ↔ ∀ d < 360, deg.getD d false = true := by
  rw [List.all_eq_true]
  constructor
  · intro h d hd
    rw [List.getD_eq_getElem _ _ (by omega)]
    exact h _ (List.getElem_mem _)
  · intro h x hx
    obtain ⟨d, hd, rfl⟩ := List.getElem_of_mem hx
    have hdeg := h d (by omega)
    rwa [List.getD_eq_getElem _ _ hd] at hdeg

/-! ### The references one after the other -/

variable {refs : List Ref} {l : List (Ref × Nat)}

/-- No stop is above 359, up to the first reference that is reported. -/
def StaysIn (refs : List Ref) : List (Ref × Nat) → Prop
  | [] => True
  | p :: rest => p.1.stop < 360 ∧ (overlapped refs p = false → StaysIn refs rest)

/-- The result of a validation that stays in the table. -/
theorem scanRefs_some (hin : StaysIn refs l) (deg : List Bool) (hlen : deg.length = 360) :
    ∃ res, scanRefs refs l deg = some res ∧
    (res = .ok ↔ (∀ p ∈ l, overlapped refs p = false) ∧ ∀ d < 360, deg.getD d false = true ∨
      ∃ p ∈ l, p.1.Has d) := by
  induction l generalizing deg with
  | nil =>
    refine ⟨_, rfl, ?_⟩
    have hall := all_iff hlen
    split_ifs with h
    · simpa using hall.1 h
    · rw [hall] at h
      simpa using h
  | cons p l ih =>
    obtain ⟨hstop, hrest⟩ := hin
    obtain ⟨deg', hupdate, hlen', hdeg⟩ := updateDegrees_some (r := p.1) hlen hstop
    rw [scanRefs, hupdate, Option.bind_some]
    split_ifs with hrep
    · refine ⟨_, rfl, iff_of_false (by decide) fun h => ?_⟩
      rw [h.1 p List.mem_cons_self] at hrep
      cases hrep
    · obtain ⟨res, hscan, hok⟩ := ih (hrest (Bool.eq_false_iff.2 hrep)) deg' hlen'
      refine ⟨res, hscan, hok.trans ?_⟩
      rw [List.forall_mem_cons, and_iff_right (a := overlapped refs p = false) (Bool.eq_false_iff.2 hrep)]
      refine and_congr_right fun _ => forall₂_congr fun d _ => ?_
      rw [hdeg]
      simp [or_assoc]

theorem scanRefs_none (hin : ¬ StaysIn refs l) (hlen : deg.length = 360) : scanRefs refs l deg = none := by
  induction l generalizing deg with
  | nil => exact absurd trivial hin
  | cons p l ih =>
    rw [scanRefs]
    by_cases hstop : p.1.stop < 360
    · obtain ⟨deg', hupdate, hlen', -⟩ := updateDegrees_some (r := p.1) hlen hstop
      rw [hupdate, Option.bind_some]
      have hrep : overlapped refs p = false ∧ ¬ StaysIn refs l := by
        by_contra hne
        exact hin ⟨hstop, fun h => by_contra fun h' => hne ⟨h, h'⟩⟩
      rw [if_neg (by rw [hrep.1]; decide), ih hrep.2 hlen']
    · rw [updateDegrees_none hlen (not_lt.1 hstop)]
      rfl

theorem overlapped_iff {p : Ref × Nat} :
    overlapped refs p = true ↔ ∃ k ≠ p.2, ∃ q : Ref, refs[k]? = some q ∧ p.1.Hits q := by
  unfold overlapped
  rw [List.any_eq_true]
  simp only [List.mem_eraseIdx_iff_getElem?, Ref.overlaps_iff]
  constructor
  · rintro ⟨q, ⟨k, hne, hq⟩, hhits⟩
    exact ⟨k, hne, q, hq, hhits⟩
  · rintro ⟨k, hne, q, hq, hhits⟩
    exact ⟨q, ⟨k, hne, hq⟩, hhits⟩

theorem staysIn_iff : StaysIn refs l ↔ ∀ (i : Nat) (p : Ref × Nat), l[i]? = some p → 360 ≤ p.1.stop →
    ∃ j < i, ∃ q, l[j]? = some q ∧ overlapped refs q = true := by
  induction l with
  | nil => exact iff_of_true trivial fun i p h => by simp at h
  | cons p l ih =>
    rw [StaysIn, ih]
    constructor
    · rintro ⟨hstop, hrest⟩ (_ | i) q hq hover
      · obtain rfl : p = q := by simpa using hq
        omega
      · by_cases hrep : overlapped refs p = true
        · exact ⟨0, Nat.succ_pos i, p, rfl, hrep⟩
        · obtain ⟨j, hj, q', hq', hrep'⟩ := hrest (Bool.not_eq_true _ ▸ hrep) i q (by simpa using hq) hover
          exact ⟨j + 1, Nat.succ_lt_succ hj, q', by simpa using hq', hrep'⟩
    · intro h
      refine ⟨?_, fun hrep i q hq hover => ?_⟩
      · by_contra hover
        obtain ⟨j, hj, -⟩ := h 0 p rfl (Nat.not_lt.1 hover)
        exact absurd hj (Nat.not_lt_zero j)
      · obtain ⟨_ | j, hj, q', hq', hrep'⟩ := h (i + 1) q (by simpa using hq) hover
        · obtain rfl : p = q' := by simpa using hq'
          rw [hrep] at hrep'
          cases hrep'
        · exact ⟨j, Nat.lt_of_succ_lt_succ hj, q', by simpa using hq', hrep'⟩

theorem zipIdx_getElem? {i : Nat} {p : Ref × Nat} : refs.zipIdx[i]? = some p ↔ refs[i]? = some p.1 ∧ p.2 = i := by
  rw [List.getElem?_zipIdx, Option.map_eq_some_iff]
  constructor
  · rintro ⟨r, hr, rfl⟩
    exact ⟨hr, Nat.zero_add i⟩
  · rintro ⟨hr, hi⟩
    exact ⟨p.1, hr, by rw [Nat.zero_add, ← hi]⟩

theorem inTable_iff : InTable refs ↔ StaysIn refs refs.zipIdx := by
  rw [staysIn_iff]
  simp only [zipIdx_getElem?, overlapped_iff]
  constructor
  · rintro h i p ⟨hp, -⟩ hover
    obtain ⟨j, hj, k, hne, p', q, hp', hq, hhits⟩ := h i p.1 hp hover
    exact ⟨j, hj, (p', j), ⟨hp', rfl⟩, k, hne, q, hq, hhits⟩
  · rintro h i r hr hover
    obtain ⟨j, hj, p', ⟨hp', hidx⟩, k, hne, q, hq, hhits⟩ := h i (r, i) ⟨hr, rfl⟩ hover
    exact ⟨j, hj, k, hidx ▸ hne, p'.1, q, hp', hq, hhits⟩

/-- Nothing is reported where no two references hit each other. -/
theorem none_overlapped_iff : (∀ p ∈ refs.zipIdx, overlapped refs p = false) ↔
    refs.Pairwise fun r s => ¬ r.Hits s ∧ ¬ s.Hits r := by
  simp only [Bool.eq_false_iff, ne_eq, overlapped_iff]
  rw [List.pairwise_iff_getElem]
  constructor
  · intro h i j hi hj hij
    have hfirst := h (refs[i], i) (List.mem_zipIdx_iff_getElem?.2 (List.getElem?_eq_getElem hi))
    have hsecond := h (refs[j], j) (List.mem_zipIdx_iff_getElem?.2 (List.getElem?_eq_getElem hj))
    exact ⟨fun hhits => hfirst ⟨j, by dsimp only; omega, refs[j], List.getElem?_eq_getElem hj, hhits⟩,
      fun hhits => hsecond ⟨i, by dsimp only; omega, refs[i], List.getElem?_eq_getElem hi, hhits⟩⟩
  · rintro h ⟨r, i⟩ hp ⟨j, hne, s, hs, hhits⟩
    have hr : refs[i]? = some r := List.mem_zipIdx_iff_getElem?.1 hp
    obtain ⟨hi, rfl⟩ := List.getElem?_eq_some_iff.1 hr
    obtain ⟨hj, rfl⟩ := List.getElem?_eq_some_iff.1 hs
    rcases Nat.lt_or_gt_of_ne hne with hlt | hlt
    · exact (h j i hj hi hlt).2 hhits
    · exact (h i j hi hj hlt).1 hhits

theorem mem_zipIdx_of_mem {r : Ref} (h : r ∈ refs) : ∃ i, (r, i) ∈ refs.zipIdx := by
  obtain ⟨i, hi, rfl⟩ := List.getElem_of_mem h
  exact ⟨i, List.mem_zipIdx_iff_getElem?.2 (List.getElem?_eq_getElem hi)⟩

theorem mem_of_mem_zipIdx {p : Ref × Nat} (h : p ∈ refs.zipIdx) : p.1 ∈ refs :=
  List.mem_of_getElem? (List.mem_zipIdx_iff_getElem?.1 h)

/-- A validation that stays in the table is a success exactly if no two sectors hit each other and every degree is in a
sector. -/
theorem validateRefs_some (hin : InTable refs) : ∃ res, validateRefs refs = some res ∧
    (res = .ok ↔ (refs.Pairwise fun r s => ¬ r.Hits s ∧ ¬ s.Hits r) ∧ Covered refs) := by
  obtain ⟨res, hscan, hok⟩ :=
    scanRefs_some (inTable_iff.1 hin) (List.replicate 360 false) List.length_replicate
  refine ⟨res, hscan, hok.trans ?_⟩
  rw [none_overlapped_iff]
  refine and_congr_right fun _ => forall₂_congr fun d hd => ?_
  have hdeg : (List.replicate 360 false).getD d false = false := by
    rw [List.getD_eq_getElem _ _ (by rwa [List.length_replicate]), List.getElem_replicate]
  rw [hdeg]
  constructor
  · rintro (h | ⟨p, hp, hhas⟩)
    · cases h
    · exact ⟨p.1, mem_of_mem_zipIdx hp, hhas⟩
  · rintro ⟨r, hr, hhas⟩
    obtain ⟨i, hi⟩ := mem_zipIdx_of_mem hr
    exact .inr ⟨_, hi, hhas⟩

theorem validateRefs_none (hin : ¬ InTable refs) : validateRefs refs = none :=
  scanRefs_none (fun h => hin (inTable_iff.2 h)) List.length_replicate

/-! ### The band plan -/

theorem validateObjects_none {os : List Object} (h : os.filterMap Object.virtualRotator = []) :
    validateObjects os = some .ok := by
  induction os with
  | nil => rfl
  | cons o os ih =>
    rw [List.filterMap_cons] at h
    cases hrot : o.virtualRotator with
    | none =>
      rw [hrot] at h
      rw [validateObjects, hrot]
      exact ih h
    | some refs => simp [hrot] at h

/-- The validation of a band plan is that of its virtual rotator. -/
theorem smAntswValidateBp_eq {bp : Bandplan} (h : bp.rotators = [refs]) :
    smAntswValidateBp (some bp) = validateRefs refs := by
  show validateObjects bp.objList = _
  unfold Bandplan.rotators at h
  generalize bp.objList = os at h
  induction os with
  | nil => simp at h
  | cons o os ih =>
    rw [List.filterMap_cons] at h
    cases hrot : o.virtualRotator with
    | none =>
      rw [hrot] at h
      rw [validateObjects, hrot]
      exact ih h
    | some refs' =>
      rw [hrot] at h
      obtain ⟨rfl, hos⟩ := List.cons.inj h
      rw [validateObjects, hrot]
      dsimp only
      cases hval : validateRefs refs' with
      | none => rfl
      | some res =>
        rw [Option.bind_some]
        split_ifs with hok
        · rw [validateObjects_none hos, hok]
        · rfl

/-- A band plan with one object, a virtual rotator. -/
def rotatorPlan (refs : List Ref) : Bandplan :=
  { Bandplan.create with objList := [⟨1, [], [], refs, .grp ⟨0, 0, 0, false⟩, []⟩] }

theorem validates_of_refs : Validates refs ↔
    ∃ res, validateRefs refs = some res ∧ (res = .ok ↔ Covered refs ∧ refs.Pairwise Ref.Meets) := by
  constructor
  · intro h
    have hplan : (rotatorPlan refs).rotators = [refs] := rfl
    rw [← smAntswValidateBp_eq hplan]
    exact h (rotatorPlan refs) hplan
  · intro h bp hbp
    rw [smAntswValidateBp_eq hbp]
    exact h

/-! ### The condition -/

theorem not_someTwo {P : Ref → Ref → Prop} : ¬ SomeTwo P refs ↔ refs.Pairwise fun r s => ¬ P r s := by
  rw [List.pairwise_iff_forall_sublist]
  exact ⟨fun h r s hrs hP => h ⟨r, s, hrs, hP⟩, fun h ⟨r, s, hrs, hP⟩ => h hrs hP⟩

theorem Ref.not_has {r : Ref} {d : Nat} (hd : d < 360) :
    ¬ r.Has d ↔ if r.stop < r.start then r.stop < d ∧ d < r.start else d < r.start ∨ r.stop < d := by
  unfold Ref.Has
  split_ifs <;> omega

/-- The first degree of a gap is 0 or behind a stop. -/
theorem gap_iff : Gap refs ↔ ¬ Covered refs := by
  constructor
  · rintro ⟨d, -, hd, hout⟩ hcov
    obtain ⟨r, hr, hhas⟩ := hcov d hd
    exact (Ref.not_has hd).2 (hout r hr) hhas
  · intro hcov
    have hex : ∃ d, d < 360 ∧ ∀ r ∈ refs, ¬ r.Has d := by simpa [Covered] using hcov
    classical
    obtain ⟨hd, hout⟩ := Nat.find_spec hex
    refine ⟨Nat.find hex, ?_, hd, fun r hr => (Ref.not_has hd).1 (hout r hr)⟩
    rcases hfirst : Nat.find hex with _ | d
    · exact List.mem_cons_self
    · have hbefore := Nat.find_min hex (m := d) (by omega)
      have hin : ∃ r ∈ refs, r.Has d := by
        by_contra hne
        exact hbefore ⟨by omega, fun r hr hhas => hne ⟨r, hr, hhas⟩⟩
      obtain ⟨r, hr, hhas⟩ := hin
      have hnext := hout r hr
      rw [hfirst] at hnext hd
      refine List.mem_cons_of_mem _ (List.mem_map.2 ⟨r, hr, ?_⟩)
      unfold Ref.Has at hhas hnext
      split_ifs at hhas hnext <;> omega

theorem pairwise_not_hits_iff : (refs.Pairwise fun r s => ¬ r.Hits s ∧ ¬ s.Hits r) ↔
    ¬ SomeTwo Ref.FalselyReported refs ∧ ¬ SomeTwo Ref.RightlyReported refs := by
  rw [not_someTwo, not_someTwo, ← List.pairwise_and_iff]
  simp only [Ref.not_hits_iff]

theorem pairwise_meets_iff : refs.Pairwise Ref.Meets ↔
    ¬ SomeTwo Ref.Missed refs ∧ ¬ SomeTwo Ref.RightlyReported refs := by
  rw [not_someTwo, not_someTwo, ← List.pairwise_and_iff]
  simp only [← Ref.meets_iff]

/-- The validation is as it should be exactly for regular lists. -/
theorem validates_iff (refs : List Ref) : Validates refs ↔ Regular refs := by
  rw [validates_of_refs]
  unfold Regular
  by_cases hin : InTable refs
  · obtain ⟨res, hres, hok⟩ := validateRefs_some hin
    have hval : (∃ res', some res = some res' ∧ (res' = .ok ↔ Covered refs ∧ refs.Pairwise Ref.Meets)) ↔
        (res = .ok ↔ Covered refs ∧ refs.Pairwise Ref.Meets) := by
      simp only [Option.some.injEq, exists_eq_left']
    rw [and_iff_right hin, hres, hval, hok, pairwise_not_hits_iff, pairwise_meets_iff, gap_iff]
    tauto
  · rw [validateRefs_none hin]
    simp [hin]

/-- A reference with a sector. -/
def sector (id : Int) (min max : UInt16) : Ref := ⟨id, 0, REF_TYPE_ANT, 0, min, max, false⟩

/-- A sector goes on into one that crosses north, and one stops at 360. -/
theorem validates_crossing : (smAntswValidateBp (some (rotatorPlan [sector 1 350 10, sector 2 10 355])) = some .ok ∧
      ¬ Validates [sector 1 350 10, sector 2 10 355]) ∧
    ¬ Validates [sector 1 0 180, sector 2 180 360] := by
  have hok : validateRefs [sector 1 350 10, sector 2 10 355] = some .ok := by
    obtain ⟨res, hres, hok⟩ := validateRefs_some
      (inTable_iff.2 ⟨by decide, fun _ => ⟨by decide, fun _ => trivial⟩⟩ : InTable [sector 1 350 10, sector 2 10 355])
    rw [hres, hok.2 ⟨by decide, fun d hd => ?_⟩]
    by_cases h : d ≤ 10 ∨ 350 ≤ d
    · exact ⟨sector 1 350 10, List.mem_cons_self, (Ref.has_crossing (by decide)).2 ⟨hd, h⟩⟩
    · refine ⟨sector 2 10 355, List.mem_cons_of_mem _ List.mem_cons_self, (Ref.has_plain (by decide)).2 ⟨hd, ?_⟩⟩
      have hstart : (sector 2 10 355).start = 10 := rfl
      have hstop : (sector 2 10 355).stop = 355 := rfl
      omega
  have hout : validateRefs [sector 1 0 180, sector 2 180 360] = none :=
    scanRefs_none (fun h => absurd (h.2 (by decide)).1 (by decide)) List.length_replicate
  refine ⟨⟨(smAntswValidateBp_eq rfl).trans hok, ?_⟩, ?_⟩
  · rw [validates_of_refs]
    rintro ⟨res, hres, hiff⟩
    rw [hok] at hres
    obtain rfl := Option.some.inj hres
    have hmeets := (List.pairwise_cons.1 (hiff.1 rfl).2).1 _ (List.mem_singleton.2 rfl)
    rcases (hmeets 352 (by decide) (by decide)).1 with h | h
    · exact absurd h (by decide)
    · exact absurd h (by decide)
  · rw [validates_of_refs]
    rintro ⟨res, hres, -⟩
    rw [hout] at hres
    cases hres

end Mhuxd
