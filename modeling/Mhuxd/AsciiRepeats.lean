import Mhuxd.AsciiFrames

/-!
# Sets the radio repeats

With AI on the radio repeats a set: the frame is no answer, and all clients get it. `pend_take` looks only at
the oldest live command with the prefix of the frame, so it takes the repeat for one when that command is the
set itself.
-/

namespace Mhuxd

namespace Ascii

variable {a : Ascii} {t : Nat} {buf : List UInt8}

/-! ### The first of a list -/

section
variable {α : Type} {P R : α → Bool} {l : List α} {q : α}

/-- The first one with `R` is the first one with `P`. -/
theorem eraseP_congr_of_find (hPR : ∀ x ∈ l, P x → R x) (h : l.find? R = some q) (hq : P q) :
    l.eraseP R = l.eraseP P := by
  induction l with
  | nil => exact nomatch h
  | cons x l ih =>
    cases hR : R x with
    | true =>
      obtain rfl : x = q := by simpa [hR] using h
      rw [List.eraseP_cons_of_pos hR, List.eraseP_cons_of_pos hq]
    | false =>
      have hP : ¬P x = true := fun hp => Bool.false_ne_true (hR.symm.trans (hPR x List.mem_cons_self hp))
      have hPR : ∀ z ∈ l, P z → R z := fun z hz => hPR z (List.mem_cons_of_mem _ hz)
      rw [List.eraseP_cons_of_neg (by simp [hR]), List.eraseP_cons_of_neg hP, ih hPR (by simpa [hR] using h)]

theorem ne_cons_eraseP (hq : P q = false) (hex : ∃ x ∈ l, P x) : l ≠ q :: l.eraseP P := by
  induction l with
  | nil => exact nofun
  | cons x l ih =>
    intro heq
    obtain ⟨rfl, hl⟩ := List.cons_eq_cons.1 heq
    obtain ⟨z, hz, hPz⟩ := hex
    rcases List.mem_cons.1 hz with rfl | hz
    · exact Bool.false_ne_true (hq.symm.trans hPz)
    · rw [List.eraseP_cons_of_neg (by simp [hq])] at hl
      exact ih ⟨z, hz, hPz⟩ hl

/-- Without the first one with `R`, which is none with `P`, the list isn't what it is without the first one
with `P`. -/
theorem eraseP_ne_of_find (hPR : ∀ x ∈ l, P x → R x) (h : l.find? R = some q) (hq : P q = false)
    (hex : ∃ x ∈ l, P x) :
    l.eraseP R ≠ l.eraseP P := by
  induction l with
  | nil => exact nomatch h
  | cons x l ih =>
    obtain ⟨z, hz, hPz⟩ := hex
    cases hR : R x with
    | true =>
      obtain rfl : x = q := by simpa [hR] using h
      rw [List.eraseP_cons_of_pos hR, List.eraseP_cons_of_neg (by simp [hq])]
      refine ne_cons_eraseP hq ⟨z, (List.mem_cons.1 hz).resolve_left ?_, hPz⟩
      rintro rfl
      exact Bool.false_ne_true (hq.symm.trans hPz)
    | false =>
      have hP : ¬P x = true := fun hp => Bool.false_ne_true (hR.symm.trans (hPR x List.mem_cons_self hp))
      have hPR : ∀ z ∈ l, P z → R z := fun z hz => hPR z (List.mem_cons_of_mem _ hz)
      rw [List.eraseP_cons_of_neg (by simp [hR]), List.eraseP_cons_of_neg hP]
      intro heq
      refine ih hPR (by simpa [hR] using h) ⟨z, (List.mem_cons.1 hz).resolve_left ?_, hPz⟩
        (List.cons_eq_cons.1 heq).2
      rintro rfl
      exact hP hPz

end

/-! ### The commands of a decoder -/

/-- The decoders there are: created, fed, and rid of what clients left that are gone. -/
inductive Reached : Ascii → Prop
  | create (dialect : Dialect) (noData : Bool) (st : CatState) : Reached (create dialect noData st)
  | feed {a : Ascii} (h : Reached a) (f : Feed) : Reached (a.feed f.dir f.client f.buf f.tMs)
  | discard {a : Ascii} (h : Reached a) (client : Nat) : Reached (a.clientDiscard client)

/-- A pending command as `pend_add` makes it. -/
structure Formed (p : AsciiPending) : Prop where
  cmd : p.frame.dropLast ≠ []
  pfx : p.pfx = prefixOf p.frame.dropLast
  query : p.query = (p.frame.length == p.pfx.length + 1)

/-- Each command of a decoder is formed. -/
def AllFormed (a : Ascii) : Prop := ∀ p ∈ a.pend, Formed p

theorem allFormed_sub {b : Ascii} (h : AllFormed a) (hsub : b.pend ⊆ a.pend) :
    AllFormed b := fun p hp => h p (hsub hp)

theorem allFormed_noted {b : Ascii} (h : AllFormed a) (hn : Noted a b) : AllFormed b := by
  intro p hp
  rw [hn.pend] at hp
  exact h p hp

theorem allFormed_entered (h : AllFormed a) (dir : CatDir) (client : Nat) (f : List UInt8) :
    AllFormed (a.entered dir client f t) := by
  unfold entered
  split_ifs with hf
  · exact h
  · intro p hp
    rcases List.mem_append.1 hp with hp | hp
    · have hlive : ∀ q ∈ a.pend.filter (fun q => pendLive q t), Formed q :=
        fun q hq => h q (List.mem_filter.1 hq).1
      split_ifs at hp
      · exact hlive p (List.mem_of_mem_tail hp)
      · exact hlive p hp
    · rw [List.mem_singleton.1 hp]
      exact ⟨hf, rfl, rfl⟩

theorem pendTake_sub (answer : Option (List UInt8 × List UInt8)) : (a.pendTake answer t).1.pend ⊆ a.pend := by
  unfold pendTake
  split
  · exact List.Subset.refl _
  · split
    · exact List.Subset.refl _
    · exact List.eraseIdx_subset

theorem taken_sub (f : List UInt8) : (a.taken f t).1.pend ⊆ a.pend := by
  unfold taken
  split_ifs
  · exact List.Subset.refl _
  · exact pendTake_sub _

theorem allFormed_processFrame (h : AllFormed a) (dir : CatDir) (client : Nat) (f : List UInt8) :
    AllFormed (a.processFrame dir client f t) := by
  have hbegun : AllFormed (a.begun t) := allFormed_sub h (by rw [begun_pend]; exact List.Subset.refl _)
  rw [processFrame_eq]
  split_ifs
  · by_cases herr : isError f.dropLast
    · rw [processError_eq _ herr]
      exact allFormed_sub (allFormed_sub hbegun (pendTake_sub none)) (List.Subset.refl _)
    · rw [processAnswer_eq _ herr]
      have htaken := allFormed_sub hbegun (taken_sub (t := t) f)
      exact allFormed_sub (allFormed_noted htaken (noted_applyFrame f.dropLast false)) (List.Subset.refl _)
  · rw [processCommand_eq]
    have hadd := allFormed_entered (t := t) hbegun dir client f
    exact allFormed_sub (allFormed_noted hadd (noted_applyFrame f.dropLast true)) (List.Subset.refl _)

theorem allFormed_rxByte (h : AllFormed a) (dir : CatDir) (client : Nat) (src : Src) (b : UInt8) :
    AllFormed (a.rxByte dir client src b t) := by
  unfold rxByte
  dsimp only
  split_ifs
  · exact allFormed_sub (allFormed_processFrame (t := t) h dir client _) (List.Subset.refl _)
  · exact h
  · exact h
  · exact h

theorem allFormed_feed (h : AllFormed a) (f : Feed) : AllFormed (a.feed f.dir f.client f.buf f.tMs) := by
  unfold Ascii.feed
  split
  · exact h
  · generalize f.buf = bs
    induction bs generalizing a with
    | nil => exact h
    | cons b bs ih => exact ih (allFormed_rxByte h _ _ _ b)

theorem Reached.allFormed (h : Reached a) : AllFormed a := by
  induction h with
  | create => exact nofun
  | feed h f ih => exact allFormed_feed ih f
  | discard h client ih =>
    unfold clientDiscard
    split_ifs
    · exact allFormed_sub ih (List.filter_sublist.subset)
    · exact ih

/-! ### The repeat of a set -/

/-- A set of a client that still waits, equal to the frame. -/
def repeated (buf : List UInt8) (t : Nat) (p : AsciiPending) : Bool :=
  pendLive p t && !p.query && !p.own && p.frame == buf

/-- A command that still waits, with the prefix of the frame. -/
def sharesPrefix (buf : List UInt8) (t : Nat) (p : AsciiPending) : Bool :=
  pendLive p t && p.pfx == prefixOf buf.dropLast

theorem sharesPrefix_of_repeated {p : AsciiPending} (hf : Formed p) (h : repeated buf t p) :
    sharesPrefix buf t p := by
  simp only [repeated, Bool.and_eq_true, beq_iff_eq] at h
  simp [sharesPrefix, h.1.1.1, hf.pfx, h.2]

/-- A frame equal to a set is no error. -/
theorem not_isError_of_repeated {p : AsciiPending} (hf : Formed p) (h : repeated buf t p) :
    ¬isError buf.dropLast := by
  simp only [repeated, Bool.and_eq_true, beq_iff_eq, Bool.not_eq_true'] at h
  obtain ⟨⟨⟨-, hq⟩, -⟩, rfl⟩ := h
  intro herr
  have hlen : p.frame.dropLast.length = 1 := herr.1
  have hpfx : p.pfx.length = 1 := by
    rw [hf.pfx, prefixOf, if_neg (by omega), List.length_take]
    omega
  rw [List.length_dropLast] at hlen
  rw [hf.query, hpfx] at hq
  simp at hq
  omega

/-- No query with the prefix of the frame waits. -/
def Unqueried (a : Ascii) (buf : List UInt8) (t : Nat) : Prop :=
  ∀ q ∈ a.pend, pendLive q t → q.query → q.pfx ≠ prefixOf buf.dropLast

/-- A command that shares the prefix of such a frame is a set. -/
theorem Unqueried.not_query {p : AsciiPending} (hno : a.Unqueried buf t) (hp : p ∈ a.pend)
    (hshares : sharesPrefix buf t p = true) : p.query = false := by
  simp only [sharesPrefix, Bool.and_eq_true, beq_iff_eq] at hshares
  cases hq : p.query with
  | false => rfl
  | true => exact absurd hshares.2 (hno p hp hshares.1 hq)

/-- What a frame takes off the list when no query waits for it. -/
theorem pendTake_unqueried {p : AsciiPending} (hno : a.Unqueried buf t)
    (h : a.pend.find? (sharesPrefix buf t) = some p) :
    a.pendTake (some (prefixOf buf.dropLast, buf)) t =
      ({ a with pend := a.pend.eraseP (sharesPrefix buf t) },
        if !p.own && p.frame == buf then none else some (p.own, p.client)) := by
  have hshares : sharesPrefix buf t p = true := List.find?_some h
  have hmem := List.mem_of_find?_eq_some h
  have hquery := hno.not_query hmem hshares
  have hqueries : a.pend.findIdx? (fun q => q.query && sharesPrefix buf t q) = none := by
    refine List.findIdx?_eq_none_iff.2 fun q hq => ?_
    by_contra hne
    simp only [sharesPrefix, Bool.not_eq_false, Bool.and_eq_true, beq_iff_eq] at hne
    exact hno q hq hne.2.1 hne.1 hne.2.2
  have hfind : a.pendFind (some (prefixOf buf.dropLast, buf)) t = a.pend.findIdx? (sharesPrefix buf t) := by
    show (a.pend.findIdx? fun q => q.query && sharesPrefix buf t q).or (a.pend.findIdx? (sharesPrefix buf t)) = _
    rw [hqueries, Option.none_or]
  have herase := @List.eraseP_eq_eraseIdx _ a.pend (sharesPrefix buf t)
  rw [List.find?_eq_bind_findIdx?_getElem?] at h
  obtain ⟨i, hi, hp⟩ := Option.bind_eq_some_iff.1 h
  rw [hi] at herase hfind
  unfold pendTake
  rw [hfind]
  dsimp only
  rw [hp, herase]
  simp [pendRemove, repeatsSet, hquery]

/-- With no query waiting for it, a frame equal to a set of a client goes to all and takes that set off the list
if and only if the oldest command with its prefix is that set. -/
theorem ascii_repeat_shared {a : Ascii} (hr : Reached a) (client : Nat) (buf : List UInt8) (t : Nat)
    (hset : ∃ p ∈ a.pend, repeated buf t p) (hno : a.Unqueried buf t) :
    ((∃ e, (a.processFrame .radio client buf t).out = a.out ++ [e] ∧
        (e.frame.kind = .unsolicited ∨ e.frame.kind = .bad) ∧ e.frame.own = false ∧ e.frame.client = 0) ∧
      (a.processFrame .radio client buf t).pend = a.pend.eraseP (repeated buf t)) ↔
    ∃ p, a.pend.find? (sharesPrefix buf t) = some p ∧ repeated buf t p := by
  obtain ⟨p₀, hp₀, hrep₀⟩ := hset
  have hform := hr.allFormed
  have hsub : ∀ p ∈ a.pend, repeated buf t p → sharesPrefix buf t p :=
    fun p hp => sharesPrefix_of_repeated (hform p hp)
  have herr := not_isError_of_repeated (hform p₀ hp₀) hrep₀
  have hne : buf.dropLast ≠ [] := by
    have hframe : p₀.frame = buf := by
      simp only [repeated, Bool.and_eq_true, beq_iff_eq] at hrep₀
      exact hrep₀.2
    rw [← hframe]
    exact (hform p₀ hp₀).cmd
  obtain ⟨p, hfind⟩ := Option.isSome_iff_exists.1 (List.find?_isSome.2 ⟨p₀, hp₀, hsub p₀ hp₀ hrep₀⟩)
  have hpend : (a.begun t).pend = a.pend := begun_pend
  have hno' : (a.begun t).Unqueried buf t := by
    unfold Unqueried
    rw [hpend]
    exact hno
  -- the frame takes the oldest command with its prefix
  have htaken : (a.begun t).taken buf t = ({ a.begun t with pend := a.pend.eraseP (sharesPrefix buf t) },
      if !p.own && p.frame == buf then none else some (p.own, p.client)) := by
    rw [taken, if_neg hne, pendTake_unqueried hno' (by rw [hpend]; exact hfind), hpend]
  have hframe : a.processFrame .radio client buf t = (a.begun t).processAnswer buf t :=
    by rw [processFrame_eq, if_pos rfl]
  have hshares : sharesPrefix buf t p = true := List.find?_some hfind
  have hmem := List.mem_of_find?_eq_some hfind
  have hrep : repeated buf t p = (!p.own && p.frame == buf) := by
    have hquery := hno.not_query hmem hshares
    simp only [sharesPrefix, Bool.and_eq_true, beq_iff_eq] at hshares
    simp [repeated, hshares.1, hquery]
  rw [hframe, processAnswer_eq _ herr, htaken]
  dsimp only
  generalize hb : ({ a.begun t with pend := a.pend.eraseP (sharesPrefix buf t) } : Ascii) = b
  have hnoted := noted_applyFrame (a := b) (t := t) buf.dropLast false
  generalize b.applyFrame buf.dropLast false t = y at hnoted
  have hypend : y.1.pend = a.pend.eraseP (sharesPrefix buf t) := by rw [hnoted.pend, ← hb]
  have hyout : y.1.out = a.out := by
    rw [hnoted.out, ← hb]
    exact begun_out
  constructor
  · rintro ⟨-, hp'⟩
    refine ⟨p, hfind, ?_⟩
    by_contra hnot
    exact eraseP_ne_of_find hsub hfind (by simpa using hnot) ⟨p₀, hp₀, hrep₀⟩ (hypend.symm.trans hp')
  · rintro ⟨p', hfind', hrep'⟩
    obtain rfl : p = p' := Option.some.inj (hfind.symm.trans hfind')
    have hnone : (!p.own && p.frame == buf) = true := hrep ▸ hrep'
    rw [if_pos hnone]
    refine ⟨⟨_, congrArg (· ++ _) hyout, ?_, rfl, rfl⟩, hypend.trans (eraseP_congr_of_find hsub hfind hrep')⟩
    show answerKind y.2 none = .unsolicited ∨ answerKind y.2 none = .bad
    unfold answerKind
    by_cases hbad : y.2 = .bad
    · exact .inr (if_pos hbad)
    · exact .inl (if_neg hbad)

/-- Frequencies of 14.074 and 7.074 MHz for VFO A. -/
def fa14 : List UInt8 := [0x46, 0x41, 0x30, 0x30, 0x30, 0x31, 0x34, 0x30, 0x37, 0x34, 0x30, 0x30, 0x30, 0x3b]
def fa7 : List UInt8 := [0x46, 0x41, 0x30, 0x30, 0x30, 0x30, 0x37, 0x30, 0x37, 0x34, 0x30, 0x30, 0x30, 0x3b]

/-- One client has set 14.074 MHz, then another one 7.074 MHz. -/
def twoSets : Ascii := ((create .kenwood false .init).feed .host 1 fa14 0).feed .host 2 fa7 0

theorem twoSets_reached : Reached twoSets :=
  .feed (.feed (.create .kenwood false .init) ⟨.host, 1, fa14, 0⟩) ⟨.host, 2, fa7, 0⟩

theorem ascii_repeat_shared_first :
    (∃ e, (twoSets.processFrame .radio 0 fa14 5).out = twoSets.out ++ [e] ∧
        (e.frame.kind = .unsolicited ∨ e.frame.kind = .bad) ∧ e.frame.own = false ∧ e.frame.client = 0) ∧
      (twoSets.processFrame .radio 0 fa14 5).pend = twoSets.pend.eraseP (repeated fa14 5) :=
  (ascii_repeat_shared twoSets_reached 0 fa14 5 (by decide +kernel) (by unfold Unqueried; decide +kernel)).2
    ⟨⟨[0x46, 0x41], fa14, 0, false, 1, false⟩, by decide +kernel, by decide +kernel⟩

/-- The repeat of the second set is taken for the answer to the first one. -/
theorem ascii_repeat_answered :
    ¬ ∀ (a : Ascii) (client : Nat) (buf : List UInt8) (t : Nat), Reached a → (∃ p ∈ a.pend, repeated buf t p) →
      a.Unqueried buf t →
      (∃ e, (a.processFrame .radio client buf t).out = a.out ++ [e] ∧
          (e.frame.kind = .unsolicited ∨ e.frame.kind = .bad) ∧ e.frame.own = false ∧ e.frame.client = 0) ∧
        (a.processFrame .radio client buf t).pend = a.pend.eraseP (repeated buf t) := by
  intro h
  obtain ⟨-, hpend⟩ := h twoSets 0 fa7 5 twoSets_reached (by decide +kernel) (by unfold Unqueried; decide +kernel)
  exact absurd hpend (by decide +kernel)

end Ascii

end Mhuxd
