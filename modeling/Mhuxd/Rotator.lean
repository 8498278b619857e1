import Mhuxd.Command
import Mhuxd.Lib.Lines
import Mhuxd.Processors

/-!
# The rotator client (`proc_rotator.c`)

A client sets a bearing with `API` and three digits, and has the Station Master turn to it with `AM 1`. What it sends
comes in pieces. Lines that are no such command, or too long for the processor, are passed over.
-/

namespace Mhuxd

def MHCMD_TURN_TO_AZIMUTH : UInt8 := 0x49

/-- The command of `mhc_sm_turn_to_azimuth`. -/
def turnToAzimuth (bearing : Nat) : Command :=
  ⟨MHCMD_TURN_TO_AZIMUTH, [UInt8.ofNat (bearing &&& 0xff), UInt8.ofNat (bearing >>> 8 &&& 0xff)], rfl⟩

namespace ProcRotator

/-- `rot_create`. -/
def create : ProcRotator := ⟨⟨[], false⟩, none⟩

/-- `process_cmd`, with the command it submits. -/
def runLine (bearing : Option Nat) (cmd : List UInt8) : Option Nat × Option Command :=
  let (bearing, submits) := processCmd bearing cmd
  (bearing, if submits then bearing.map turnToAzimuth else none)

/-- A round of `rot_cb`, with the command it submits. -/
def getByte (r : ProcRotator) (c : UInt8) : ProcRotator × Option Command :=
  match r.line.next ROT_MAX_CMD_SIZE c with
  | (l, none) => ({ r with line := l }, none)
  | (l, some cmd) => (⟨l, (runLine r.bearing cmd).1⟩, (runLine r.bearing cmd).2)

/-- The commands that `rot_cb` submits for what comes in pieces. -/
def submitted (r : ProcRotator) : List (List UInt8) → List Command
  | [] => []
  | p :: ps => Mealy.out getByte r p ++ submitted (Mealy.next getByte r p) ps

/-! ### What a client sends -/

/-- A line that the processor passes over: too long, too short or without its end, `API` of another length or out of
range, or another command. -/
def Other (l : List UInt8) : Prop :=
  (∀ c ∈ l, CmdLine.isEol c = false) ∧ (ROT_MAX_CMD_SIZE < l.length ∨ l.length < 3 ∨ l.getLast? ≠ some 0x3b ∨
    if (CmdLine.text l).take 3 = "API".toList then
      (CmdLine.text l).length = 7 → atoi ((CmdLine.text l).drop 3) < 0 ∨ 359 < atoi ((CmdLine.text l).drop 3)
    else CmdLine.text l ≠ "AM 1;".toList)

instance (l : List UInt8) : Decidable (Other l) := by
  unfold Other
  infer_instance

/-- A line of a client. -/
inductive RotLine
  | bearing (n : Fin 1000)
  | turn
  | other (l : List UInt8) (h : Other l)

namespace RotLine

def digit (n : Nat) : UInt8 := UInt8.ofNat (48 + n % 10)

def bytes : RotLine → List UInt8
  | bearing n => [0x41, 0x50, 0x49, digit (n / 100), digit (n / 10), digit n, 0x3b]
  | turn => [0x41, 0x4d, 0x20, 0x31, 0x3b]
  | other l _ => l

/-- The bearings that lines turn to. -/
def turns : Option Nat → List RotLine → List Nat
  | _, [] => []
  | b, bearing n :: ls => turns (if n.val ≤ 359 then some n.val else b) ls
  | b, turn :: ls => b.toList ++ turns b ls
  | b, other _ _ :: ls => turns b ls

end RotLine

/-- A line with its end. -/
structure RotSent where
  line : RotLine
  ends : List UInt8
  ne : ends ≠ []
  eol : ∀ c ∈ ends, CmdLine.isEol c = true

def RotSent.bytes (s : RotSent) : List UInt8 := s.line.bytes ++ s.ends

/-! ### Lines -/

variable {r : ProcRotator} {b : Option Nat}

theorem runLine_submits (b : Option Nat) (cmd : List UInt8) :
    (runLine b cmd).2.isSome = (processCmd b cmd).2 := by
  unfold runLine processCmd
  dsimp only
  split_ifs <;> cases b <;> simp_all

/-- The number of commands is that of `rot_cb`. -/
theorem rotCb_eq (r : ProcRotator) (p : List UInt8) :
    r.rotCb p = (Mealy.next getByte r p, (Mealy.out getByte r p).length) := by
  unfold ProcRotator.rotCb
  rw [← Nat.zero_add (Mealy.out getByte r p).length]
  generalize 0 = n
  induction p generalizing r n with
  | nil => rfl
  | cons c p ih =>
    rw [List.foldl_cons, Mealy.next_cons, Mealy.out_cons, List.length_append]
    rcases hnext : r.line.next ROT_MAX_CMD_SIZE c with ⟨l, _ | cmd⟩
    · simp [ih, getByte, hnext]
    · have hsubmits := runLine_submits r.bearing cmd
      simp only [ih, getByte, hnext]
      rw [← hsubmits]
      cases hcmd : (runLine r.bearing cmd).2 <;> simp [runLine, Nat.add_assoc]

theorem submitted_eq (r : ProcRotator) (ps : List (List UInt8)) :
    r.submitted ps = Mealy.out getByte r ps.flatten := by
  induction ps generalizing r with
  | nil => rfl
  | cons p ps ih => rw [submitted, ih, List.flatten_cons, Mealy.out_append]

theorem out_getByte (l : CmdLine) (b : Option Nat) (xs : List UInt8) :
    Mealy.out getByte ⟨l, b⟩ xs = Mealy.out runLine b (Mealy.out (CmdLine.next ROT_MAX_CMD_SIZE) l xs) := by
  induction xs generalizing l b with
  | nil => rfl
  | cons x xs ih =>
    rw [Mealy.out_cons, Mealy.out_cons, getByte]
    rcases l.next ROT_MAX_CMD_SIZE x with ⟨l', _ | cmd⟩
    · exact ih l' b
    · dsimp only [Option.toList_some]
      rw [List.singleton_append, Mealy.out_cons, ih]

theorem out_next (max : Nat) (l : CmdLine) (xs : List UInt8) :
    Mealy.out (CmdLine.next max) l xs = Mealy.out (Lines.collect CmdLine.isEol max) ⟨l.cmd, l.cmdOverflow⟩ xs := by
  induction xs generalizing l with
  | nil => rfl
  | cons x xs ih =>
    rw [Mealy.out_cons, Mealy.out_cons, ih]
    rcases l with ⟨cmd, full⟩
    cases full <;> cases hx : CmdLine.isEol x <;> cases cmd <;> simp [CmdLine.next, Lines.collect, hx] <;> split_ifs <;> simp

/-- The commands for the lines that a stream ends. -/
theorem submitted_create (ps : List (List UInt8)) : create.submitted ps = Mealy.out runLine none
    ((Lines.ended CmdLine.isEol ps.flatten).filter (Lines.fits ROT_MAX_CMD_SIZE)) := by
  have hcollect : Mealy.out (Lines.collect CmdLine.isEol ROT_MAX_CMD_SIZE) (Lines.after ROT_MAX_CMD_SIZE [])
      ps.flatten = (Lines.ended CmdLine.isEol ps.flatten).filter (Lines.fits ROT_MAX_CMD_SIZE) :=
    Lines.out_collect (l := []) nofun ps.flatten
  rw [submitted_eq, create, out_getByte, out_next]
  exact congrArg _ hcollect

/-! ### Commands -/

theorem bearing_text : ∀ n : Fin 1000, (CmdLine.text (RotLine.bearing n).bytes).take 3 = "API".toList ∧
    (CmdLine.text (RotLine.bearing n).bytes).length = 7 ∧
      atoi ((CmdLine.text (RotLine.bearing n).bytes).drop 3) = n.val := by
  decide +kernel

theorem runLine_bearing (b : Option Nat) (n : Fin 1000) :
    runLine b (RotLine.bearing n).bytes = (if n.val ≤ 359 then some n.val else b, none) := by
  obtain ⟨hname, hlen, hval⟩ := bearing_text n
  have hend : ¬ ((RotLine.bearing n).bytes.length < 3 ∨ (RotLine.bearing n).bytes.getLast? ≠ some 0x3b) := by
    simp [RotLine.bytes]
  unfold runLine processCmd
  dsimp only
  rw [if_neg hend, if_pos hname, if_neg (not_not.mpr hlen), hval]
  by_cases hle : n.val ≤ 359
  · have hin : ¬ ((n.val : Int) < 0 ∨ 359 < (n.val : Int)) := by omega
    rw [if_neg hin, if_pos hle]
    rfl
  · have hout : (n.val : Int) < 0 ∨ 359 < (n.val : Int) := by omega
    rw [if_pos hout, if_neg hle]
    rfl

theorem runLine_turn (b : Option Nat) : runLine b RotLine.turn.bytes = (b, b.map turnToAzimuth) := by
  have htext : CmdLine.text RotLine.turn.bytes = "AM 1;".toList := by decide
  have hend : ¬ (RotLine.turn.bytes.length < 3 ∨ RotLine.turn.bytes.getLast? ≠ some 0x3b) := by decide
  have hname : ¬ "AM 1;".toList.take 3 = "API".toList := by decide
  unfold runLine processCmd
  simp only [htext, if_neg hend, if_neg hname, if_true]
  cases b <;> rfl

/-- What a line can do. -/
theorem runLine_cases (b : Option Nat) (cmd : List UInt8) : runLine b cmd = (b, none) ∨
    (CmdLine.text cmd = "AM 1;".toList ∧ runLine b cmd = (b, b.map turnToAzimuth)) ∨
      ((CmdLine.text cmd).take 3 = "API".toList ∧ (CmdLine.text cmd).length = 7 ∧
        ∃ n ≤ 359, runLine b cmd = (some n, none)) := by
  unfold runLine processCmd
  dsimp only
  by_cases hend : cmd.length < 3 ∨ cmd.getLast? ≠ some 0x3b
  · simp [hend]
  rw [if_neg hend]
  by_cases hname : (CmdLine.text cmd).take 3 = "API".toList
  · rw [if_pos hname]
    by_cases hlen : (CmdLine.text cmd).length = 7
    · rw [if_neg (not_not.mpr hlen)]
      by_cases hrange : atoi ((CmdLine.text cmd).drop 3) < 0 ∨ 359 < atoi ((CmdLine.text cmd).drop 3)
      · simp [hrange]
      · rw [if_neg hrange]
        exact Or.inr (Or.inr ⟨hname, hlen, _, by omega, rfl⟩)
    · simp [hlen]
  · rw [if_neg hname]
    by_cases hturn : CmdLine.text cmd = "AM 1;".toList
    · rw [if_pos hturn]
      refine Or.inr (Or.inl ⟨hturn, ?_⟩)
      cases b <;> rfl
    · rw [if_neg hturn]
      exact Or.inl rfl

theorem runLine_other (b : Option Nat) {l : List UInt8} (h : Other l) (hlen : l.length ≤ ROT_MAX_CMD_SIZE) :
    runLine b l = (b, none) := by
  have hpass := h.2.resolve_left hlen.not_gt
  unfold runLine processCmd
  dsimp only
  by_cases hend : l.length < 3 ∨ l.getLast? ≠ some 0x3b
  · rw [if_pos hend]
    rfl
  obtain ⟨hthree, hlast⟩ := not_or.mp hend
  replace hpass := (hpass.resolve_left hthree).resolve_left hlast
  rw [if_neg hend]
  by_cases hname : (CmdLine.text l).take 3 = "API".toList
  · rw [if_pos hname] at hpass ⊢
    by_cases hseven : (CmdLine.text l).length = 7
    · rw [if_neg (not_not.mpr hseven), if_pos (hpass hseven)]
      rfl
    · rw [if_pos hseven]
      rfl
  · rw [if_neg hname] at hpass ⊢
    rw [if_neg hpass]
    rfl

theorem out_runLine_le (hb : ∀ n ∈ b, n ≤ 359) (ls : List (List UInt8)) :
    ∀ c ∈ Mealy.out runLine b ls, ∃ n ≤ 359, c = turnToAzimuth n := by
  induction ls generalizing b with
  | nil => exact nofun
  | cons l ls ih =>
    rw [Mealy.out_cons]
    rcases runLine_cases b l with heq | ⟨-, heq⟩ | ⟨-, -, n, hn, heq⟩ <;> rw [heq]
    · exact ih hb
    · intro c hc
      rcases List.mem_append.mp hc with hc | hc
      · obtain ⟨n, hn, rfl⟩ := Option.map_eq_some_iff.mp (Option.mem_toList.mp hc)
        exact ⟨n, hb n hn, rfl⟩
      · exact ih hb c hc
    · exact ih fun m hm => (Option.mem_some_iff.mp hm) ▸ hn

/-! ### Requests -/

theorem digit_open (n : Nat) : CmdLine.isEol (RotLine.digit n) = false := by
  have hdigits : ∀ d < 10, CmdLine.isEol (UInt8.ofNat (48 + d)) = false := by decide
  exact hdigits (n % 10) (Nat.mod_lt n (by decide))

theorem bytes_open (l : RotLine) : ∀ c ∈ l.bytes, CmdLine.isEol c = false := by
  cases l with
  | bearing n =>
    have hletters : ∀ c ∈ [0x41, 0x50, 0x49, 0x3b], CmdLine.isEol c = false := by decide +kernel
    intro c hc
    simp only [RotLine.bytes, List.mem_cons, List.not_mem_nil, or_false] at hc
    rcases hc with rfl | rfl | rfl | rfl | rfl | rfl | rfl
    · exact hletters _ (by simp)
    · exact hletters _ (by simp)
    · exact hletters _ (by simp)
    · exact digit_open _
    · exact digit_open _
    · exact digit_open _
    · exact hletters _ (by simp)
  | turn => decide +kernel
  | other l h => exact h.1

theorem filter_empty_lines (n : Nat) :
    (List.replicate n ([] : List UInt8)).filter (Lines.fits ROT_MAX_CMD_SIZE) = [] := by
  rw [List.filter_replicate_of_neg (by decide)]

/-- The lines of what was sent, without the empty ones. -/
theorem ended_sent (s : RotSent) (xs : List UInt8) :
    (Lines.ended CmdLine.isEol (s.bytes ++ xs)).filter (Lines.fits ROT_MAX_CMD_SIZE) =
      [s.line.bytes].filter (Lines.fits ROT_MAX_CMD_SIZE) ++
        (Lines.ended CmdLine.isEol xs).filter (Lines.fits ROT_MAX_CMD_SIZE) := by
  obtain ⟨e, es, hends⟩ := List.exists_cons_of_ne_nil s.ne
  have heol := s.eol
  rw [hends] at heol
  have hbytes : s.bytes ++ xs = s.line.bytes ++ e :: (es ++ xs) := by
    rw [RotSent.bytes, hends, List.append_assoc, List.cons_append]
  rw [hbytes, Lines.ended_line (bytes_open s.line) (heol e List.mem_cons_self),
    Lines.ended_ends fun c hc => heol c (List.mem_cons_of_mem _ hc), ← List.singleton_append, List.filter_append,
    List.filter_append, filter_empty_lines, List.nil_append]

theorem out_sent (b : Option Nat) (sent : List RotSent) : Mealy.out runLine b
      ((Lines.ended CmdLine.isEol (sent.flatMap RotSent.bytes)).filter (Lines.fits ROT_MAX_CMD_SIZE)) =
    (RotLine.turns b (sent.map RotSent.line)).map turnToAzimuth := by
  induction sent generalizing b with
  | nil => rfl
  | cons s sent ih =>
    rw [List.flatMap_cons, ended_sent, List.map_cons]
    cases hline : s.line with
    | bearing n =>
      have hfits : Lines.fits ROT_MAX_CMD_SIZE (RotLine.bearing n).bytes = true := rfl
      rw [List.filter_cons_of_pos hfits, List.filter_nil, List.singleton_append, Mealy.out_cons, runLine_bearing, ih]
      rfl
    | turn =>
      have hfits : Lines.fits ROT_MAX_CMD_SIZE RotLine.turn.bytes = true := rfl
      rw [List.filter_cons_of_pos hfits, List.filter_nil, List.singleton_append, Mealy.out_cons, runLine_turn, ih,
        RotLine.turns, List.map_append]
      cases b <;> rfl
    | other l h =>
      by_cases hfits : Lines.fits ROT_MAX_CMD_SIZE (RotLine.other l h).bytes = true
      · have hlen : l.length ≤ ROT_MAX_CMD_SIZE := by
          unfold Lines.fits at hfits
          rw [Bool.and_eq_true, decide_eq_true_eq] at hfits
          exact hfits.2
        rw [List.filter_cons_of_pos hfits, List.filter_nil, List.singleton_append, Mealy.out_cons,
          show runLine b (RotLine.other l h).bytes = (b, none) from runLine_other b h hlen, ih]
        rfl
      · rw [List.filter_cons_of_neg hfits, List.filter_nil, List.nil_append, ih]
        rfl

/-- However it comes in pieces, what a client sends turns the Station Master to bearings of a circle only: at each
`AM 1` to the last bearing set in range, if there is one. -/
theorem turns_as_sent (pieces : List (List UInt8)) :
    (∀ cmd ∈ create.submitted pieces, ∃ n ≤ 359, cmd = turnToAzimuth n) ∧
    ∀ sent : List RotSent, pieces.flatten = sent.flatMap RotSent.bytes →
      create.submitted pieces = (RotLine.turns none (sent.map RotSent.line)).map turnToAzimuth := by
  rw [submitted_create]
  refine ⟨out_runLine_le (fun _ h => absurd h (Option.not_mem_none _)) _, fun sent h => ?_⟩
  rw [h, out_sent]

/-- `API400;` and `API-10;` are out of range; the line between them is too long. -/
theorem turns_as_sent_two : create.submitted [[0x41, 0x50, 0x49, 0x30, 0x39], [0x30, 0x3b, 0x0d, 0x0a, 0x41, 0x50, 0x49],
      [0x34, 0x30, 0x30, 0x3b, 0x0d], List.replicate 40 0x21, [0x0d, 0x41, 0x50, 0x49, 0x2d, 0x31, 0x30, 0x3b, 0x0a],
      [0x41, 0x4d, 0x20, 0x31, 0x3b, 0x0d]] =
    [turnToAzimuth 90] :=
  (turns_as_sent _).2
    [⟨.bearing 90, [0x0d, 0x0a], by decide, by decide +kernel⟩, ⟨.bearing 400, [0x0d], by decide, by decide +kernel⟩,
      ⟨.other (List.replicate 40 0x21) (by decide +kernel), [0x0d], by decide, by decide +kernel⟩,
      ⟨.other [0x41, 0x50, 0x49, 0x2d, 0x31, 0x30, 0x3b] (by decide +kernel), [0x0a], by decide, by decide +kernel⟩,
      ⟨.turn, [0x0d], by decide, by decide +kernel⟩]
    (by decide)

end ProcRotator

end Mhuxd
