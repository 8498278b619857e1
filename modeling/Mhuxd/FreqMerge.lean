import Mhuxd.FreqInfo
import Mhuxd.Lib.LittleEndian

/-!
# One command for each frequency (`send_cat_freq_info`)

The merge walks the five entries and lets each take the bits of the later ones of its frequency. `live_merge` is what is
left of it: of every frequency one entry, with the bits of all. `freq_commands_exact` reads the commands back.
-/

namespace Mhuxd

namespace FreqEntry

variable {e x : FreqEntry} {es : List FreqEntry} {f g : UInt32}

/-- The bits of the entries of a frequency. -/
def maskOf (f : UInt32) : List FreqEntry → UInt16
  | [] => 0
  | e :: es => if e.freq = f then e.mask ||| maskOf f es else maskOf f es

/-- The entries of a frequency are marked as merged. -/
def markMerged (f : UInt32) (es : List FreqEntry) : List FreqEntry :=
  es.map fun x => if x.freq = f then { x with mask := 0 } else x

@[simp] theorem length_markMerged : (markMerged f es).length = es.length := List.length_map ..

theorem absorb_eq (e : FreqEntry) (es : List FreqEntry) :
    e.absorb es = ({ e with mask := e.mask ||| maskOf e.freq es }, markMerged e.freq es) := by
  induction es generalizing e with
  | nil => simp [absorb, maskOf, markMerged]
  | cons x xs ih =>
    rw [absorb]
    split_ifs with h
    · simp [ih, maskOf, markMerged, h.2, UInt16.or_assoc]
    · by_cases hf : x.freq = e.freq
      · have hmask : x.mask = 0 := by
          by_contra hmask
          exact h ⟨hmask, hf⟩
        have hdead : x = ⟨e.freq, 0⟩ := by rw [← hf, ← hmask]
        simp [ih, maskOf, markMerged, hdead]
      · simp [ih, maskOf, markMerged, hf]

/-- A frequency that is merged has no bits left, the others keep theirs. -/
theorem maskOf_markMerged : maskOf g (markMerged f es) = if g = f then 0 else maskOf g es := by
  induction es with
  | nil => simp [markMerged, maskOf]
  | cons x xs ih =>
    rw [markMerged, List.map_cons, ← markMerged, maskOf, ih]
    by_cases hx : x.freq = f <;> by_cases hg : g = f <;> simp [maskOf, hx, hg]
    simp [Ne.symm hg]

/-- The entries of a frequency that are not marked. -/
def live (f : UInt32) (es : List FreqEntry) : List FreqEntry := es.filter fun e => e.mask ≠ 0 ∧ e.freq = f

theorem live_cons : live f (e :: es) = if e.mask ≠ 0 ∧ e.freq = f then e :: live f es else live f es := by
  simp [live, List.filter_cons]

/-- Every frequency that has bits is left with one entry, and that has all of them. -/
theorem live_merge {n : Nat} (hn : es.length ≤ n) :
    live f (merge n es) = if maskOf f es = 0 then [] else [⟨f, maskOf f es⟩] := by
  induction n generalizing es with
  | zero =>
    rw [List.eq_nil_of_length_eq_zero (Nat.le_zero.1 hn)]
    rfl
  | succ n ih =>
    rcases es with _ | ⟨e, es⟩
    · rfl
    · have hn' : es.length ≤ n := Nat.le_of_succ_le_succ hn
      by_cases hdead : e.mask = 0
      · rw [merge, if_pos hdead, live_cons, if_neg fun h => h.1 hdead, ih hn', maskOf, hdead, UInt16.zero_or, ite_self]
      · have hall : e.mask ||| maskOf e.freq es ≠ 0 := fun h => hdead (UInt16.or_eq_zero_iff.1 h).1
        rw [merge, if_neg hdead, absorb_eq, live_cons, ih (by simpa using hn'), maskOf_markMerged, maskOf]
        by_cases hf : e.freq = f
        · subst hf
          simp [hall]
        · simp [hf, Ne.symm hf]

/-- A bit that some entry of the frequency has. -/
theorem testBit_maskOf (i : Nat) :
    (maskOf f es).toNat.testBit i = es.any fun e => e.freq = f ∧ e.mask.toNat.testBit i := by
  induction es with
  | nil => simp [maskOf]
  | cons e es ih =>
    rw [maskOf, List.any_cons, ← ih]
    split_ifs with hf <;> simp [hf]

end FreqEntry

/-! ### Reading a command -/

namespace Command

/-- The frequency of a frequency information command. -/
def freqOf (cmd : Command) : Nat := LittleEndian.get cmd.params 0 4

/-- The fields of it that are at this frequency, and the bit that says so. -/
def fieldsOf (cmd : Command) : Nat := LittleEndian.get cmd.params 5 2

end Command

namespace FreqEntry

variable {e : FreqEntry} {r : RadioNo}

theorem freqOf_command : (e.command r).freqOf = e.freq.toNat := by
  have := e.freq.toNat_lt
  simp [Command.freqOf, LittleEndian.get, command, Nat.shiftRight_eq_div_pow]
  omega

theorem fieldsOf_command : (e.command r).fieldsOf = (e.mask ||| bit 5).toNat := by
  rw [Command.fieldsOf, command]
  generalize e.mask ||| bit 5 = mask
  have := mask.toNat_lt
  simp [LittleEndian.get, Nat.shiftRight_eq_div_pow]
  omega

end FreqEntry

namespace RadioInfo

variable {info : RadioInfo} {r : RadioNo} {f : UInt32}

/-- The fields, in the order of their bits. -/
def freqs (info : RadioInfo) : List UInt32 := [info.rxFreq, info.txFreq, info.operFreq, info.vfoAFreq, info.vfoBFreq]

theorem testBit_entries (i : Nat) : (FreqEntry.maskOf f info.entries).toNat.testBit i = true ↔ info.freqs[i]? = some f := by
  have hbit : (FreqEntry.bit 0).toNat = 2 ^ 0 ∧ (FreqEntry.bit 1).toNat = 2 ^ 1 ∧ (FreqEntry.bit 2).toNat = 2 ^ 2 ∧
      (FreqEntry.bit 3).toNat = 2 ^ 3 ∧ (FreqEntry.bit 4).toNat = 2 ^ 4 := by decide
  obtain ⟨h0, h1, h2, h3, h4⟩ := hbit
  rw [FreqEntry.testBit_maskOf]
  simp only [entries, freqs, List.any_cons, List.any_nil, h0, h1, h2, h3, h4, Nat.testBit_two_pow]
  rcases i with _ | _ | _ | _ | _ | i <;> simp

theorem maskOf_entries_ne_zero : FreqEntry.maskOf f info.entries ≠ 0 ↔ f ∈ info.freqs := by
  rw [List.mem_iff_getElem?]
  constructor
  · intro h
    by_contra hno
    refine h (UInt16.toNat_inj.1 (Nat.eq_of_testBit_eq fun i => ?_))
    rw [UInt16.toNat_zero, Nat.zero_testBit]
    exact Bool.eq_false_iff.2 fun hi => hno ⟨i, testBit_entries i |>.1 hi⟩
  · rintro ⟨i, hi⟩ hzero
    have hbit : (FreqEntry.maskOf f info.entries).toNat.testBit i = true := (testBit_entries i).2 hi
    rw [hzero] at hbit
    simp at hbit

theorem mem_freqCommands {cmd : Command} (h : cmd ∈ info.freqCommands r) : ∃ e : FreqEntry, cmd = e.command r ∧
    e.freq ≠ 0 ∧ e.freq ∈ info.freqs := by
  obtain ⟨e, he, rfl⟩ := List.mem_map.1 h
  obtain ⟨hmem, hlive⟩ := List.mem_filter.1 he
  simp only [decide_eq_true_eq] at hlive
  refine ⟨e, rfl, hlive.2, ?_⟩
  rw [← maskOf_entries_ne_zero]
  intro hzero
  have hnone : FreqEntry.live e.freq (FreqEntry.merge info.entries.length info.entries) = [] := by
    rw [FreqEntry.live_merge le_rfl, if_pos hzero]
  have hsome : e ∈ FreqEntry.live e.freq (FreqEntry.merge info.entries.length info.entries) :=
    List.mem_filter.2 ⟨hmem, by simpa using hlive.1⟩
  rw [hnone] at hsome
  cases hsome

theorem freqCommands_filter (hf : f ≠ 0) (hmem : f ∈ info.freqs) :
    (info.freqCommands r).filter (fun cmd => cmd.freqOf = f.toNat) =
      [FreqEntry.command ⟨f, FreqEntry.maskOf f info.entries⟩ r] := by
  have hlive := FreqEntry.live_merge (f := f) (le_refl info.entries.length)
  rw [if_neg (maskOf_entries_ne_zero.2 hmem)] at hlive
  rw [freqCommands, List.filter_map, List.filter_filter]
  have hsame : (fun e : FreqEntry => ((fun cmd : Command => decide (cmd.freqOf = f.toNat)) ∘ fun e => e.command r) e &&
      decide (e.mask ≠ 0 ∧ e.freq ≠ 0)) = fun e => decide (e.mask ≠ 0 ∧ e.freq = f) := by
    funext e
    rw [Function.comp_apply, ← Bool.decide_and]
    refine decide_eq_decide.2 ?_
    rw [FreqEntry.freqOf_command, UInt32.toNat_inj]
    constructor
    · rintro ⟨heq, hmask, -⟩
      exact ⟨hmask, heq⟩
    · rintro ⟨hmask, rfl⟩
      exact ⟨rfl, hmask, hf⟩
  rw [hsame, ← FreqEntry.live, hlive]
  rfl

end RadioInfo

/-- A radio's frequencies are told with one command for each that is not zero. The command names the fields that are at
its frequency, and says that they are valid. -/
theorem freq_commands_exact (info : RadioInfo) (r : RadioNo) :
    (∀ cmd ∈ info.freqCommands r, cmd.code = r.freqCmd ∧ cmd.params.length = 7 ∧
      ∃ f ∈ info.freqs, f ≠ 0 ∧ cmd.freqOf = f.toNat) ∧
    ∀ f ∈ info.freqs, f ≠ 0 → ∃ cmd, (info.freqCommands r).filter (fun cmd => cmd.freqOf = f.toNat) = [cmd] ∧
      ∀ i, cmd.fieldsOf.testBit i = true ↔ info.freqs[i]? = some f ∨ i = 5 := by
  constructor
  · intro cmd hcmd
    obtain ⟨e, rfl, hne, hmem⟩ := RadioInfo.mem_freqCommands hcmd
    exact ⟨rfl, rfl, e.freq, hmem, hne, FreqEntry.freqOf_command⟩
  · intro f hmem hne
    refine ⟨_, RadioInfo.freqCommands_filter hne hmem, fun i => ?_⟩
    have hbit : (FreqEntry.bit 5).toNat = 2 ^ 5 := rfl
    rw [FreqEntry.fieldsOf_command, UInt16.toNat_or, Nat.testBit_or, Bool.or_eq_true, RadioInfo.testBit_entries, hbit,
      Nat.testBit_two_pow, decide_eq_true_eq, eq_comm (a := i)]

end Mhuxd
