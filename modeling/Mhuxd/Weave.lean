import Mhuxd.Command

/-!
# Whole commands on the control channel

`Weave cmds sl`: the slots `sl` are those of the commands `cmds`, one after the other, with idle slots
between them. A weave cut off anywhere is a weave and the start of one more command
(`Weave.cut`), and the keyer reads back its whole commands, whatever it had half read before
(`Weave.read`).
-/

namespace Mhuxd

inductive Weave : List Command → List (Bool × UInt8) → Prop
  | nil : Weave [] []
  | idle {cmds : List Command} {sl : List (Bool × UInt8)} (h : Weave cmds sl) : Weave cmds (sl ++ [idleSlot])
  | cmd {cmds : List Command} {sl : List (Bool × UInt8)} (h : Weave cmds sl) (c : Command) :
    Weave (cmds ++ [c]) (sl ++ c.slots)

/-- The slots of the commands `cmds`, then `part` of one more or of none. -/
def Cut (cmds : List Command) (sl : List (Bool × UInt8)) (all : List Command) : Prop :=
  ∃ whole part, sl = whole ++ part ∧ Weave cmds whole ∧
    ((part = [] ∧ cmds <+: all) ∨ ∃ c, part ≠ [] ∧ part ≠ c.slots ∧ part <+: c.slots ∧ cmds ++ [c] <+: all)

/-- The slots start with a first-byte mark, if they are any. -/
def Begins (sl : List (Bool × UInt8)) : Prop := ∀ s ∈ sl.head?, isFirst s = true

theorem Begins.upToLast {sl : List (Bool × UInt8)} (h : Begins sl) (c : UInt8) : upToLast c sl = none := by
  cases sl with
  | nil => rfl
  | cons s ss => exact if_pos (h s rfl)

theorem Begins.carry {sl : List (Bool × UInt8)} (h : Begins sl) (rd : CmdRd) : rd.carry sl = none := by
  unfold CmdRd.carry
  cases rd.cmd with
  | none => rfl
  | some c => simp [h.upToLast c]

/-- What begins with a part that begins, begins. -/
theorem Begins.append {a b : List (Bool × UInt8)} (ha : Begins a) (hb : Begins b) : Begins (a ++ b) := by
  cases a with
  | nil => exact hb
  | cons s ss => exact ha

namespace Command

variable (c : Command)

theorem begins_slots : Begins c.slots := by
  intro s hs
  obtain rfl : (false, c.code) = s := by simpa [slots] using hs
  exact c.isFirst_code

/-- A command cut off gives nothing. -/
theorem cmdsStarting_part {part : List (Bool × UInt8)} (h : part <+: c.slots) (hne : part ≠ c.slots) :
    cmdsStarting part = [] := by
  have hinit : part <+: (false, c.code) :: c.params.map (true, ·) := by
    rcases List.prefix_concat_iff.1 h with he | hp
    · exact absurd he hne
    · exact hp
  cases part with
  | nil => rfl
  | cons s ss =>
    obtain ⟨rfl, hss⟩ := List.cons_prefix_cons.1 hinit
    obtain ⟨n, rfl⟩ : ∃ n, ss = (c.params.take n).map (true, ·) := by
      refine ⟨ss.length, ?_⟩
      rw [List.map_take]
      exact List.prefix_iff_eq_take.1 hss
    have hup : ∀ ps : List UInt8, upToLast c.code (ps.map (true, ·)) = none := by
      intro ps
      induction ps with
      | nil => rfl
      | cons p ps ih => simp [upToLast, isFirst, isLast, ih]
    have hrest := cmdsStarting_params (c.params.take n) []
    rw [List.append_nil] at hrest
    rw [cmdsStarting_cons, hrest, cmdAt, hup]
    simp

end Command

theorem begins_idle (k : Nat) : Begins (List.replicate k idleSlot) := by
  intro s hs
  rw [List.eq_of_mem_replicate (List.mem_of_mem_head? hs)]
  rfl

namespace Weave

variable {cmds : List Command} {sl : List (Bool × UInt8)}

theorem idles (h : Weave cmds sl) (k : Nat) : Weave cmds (sl ++ List.replicate k idleSlot) := by
  induction k with
  | zero => simpa using h
  | succ k ih =>
    rw [List.replicate_succ', ← List.append_assoc]
    exact ih.idle

theorem of_idles (h : ∀ s ∈ sl, s = idleSlot) : Weave [] sl := by
  have := Weave.nil.idles sl.length
  rwa [List.nil_append, ← List.eq_replicate_of_mem h] at this

theorem begins (h : Weave cmds sl) : Begins sl := by
  induction h with
  | nil => exact begins_idle 0
  | idle h ih => exact ih.append (begins_idle 1)
  | cmd h c ih => exact ih.append c.begins_slots

/-- The commands that start in a weave are its own. -/
theorem cmdsStarting_append (h : Weave cmds sl) (hfit : ∀ c ∈ cmds, c.bytes.length ≤ MHDMX_CMD_BUFFER_SIZE)
    {rest : List (Bool × UInt8)} (hrest : Begins rest) :
    cmdsStarting (sl ++ rest) = cmds.map Command.bytes ++ cmdsStarting rest := by
  induction h generalizing rest with
  | nil => rfl
  | idle h ih =>
    have hat : cmdAt (idleSlot :: rest) = none := by
      have hup : upToLast idleSlot.2 rest = none := hrest.upToLast _
      rw [cmdAt, hup]
      rfl
    have hbegins : Begins (idleSlot :: rest) := (begins_idle 1).append hrest
    rw [List.append_assoc, List.singleton_append, ih hfit hbegins, cmdsStarting_cons, hat]
    rfl
  | cmd h c ih =>
    have hc : c.bytes.length ≤ MHDMX_CMD_BUFFER_SIZE := hfit c (List.mem_append_right _ (List.mem_singleton_self c))
    rw [List.append_assoc, ih (fun c hc => hfit c (List.mem_append_left _ hc)) (c.begins_slots.append hrest),
      c.cmdsStarting_slots hc, List.map_append, List.append_assoc]
    rfl

theorem cut (h : Weave cmds sl) {p : List (Bool × UInt8)} (hp : p <+: sl) : ∃ done, Cut done p cmds := by
  induction h with
  | nil => exact ⟨[], [], [], List.prefix_nil.1 hp, .nil, .inl ⟨rfl, List.prefix_rfl⟩⟩
  | @idle cmds sl h ih =>
    rcases List.prefix_concat_iff.1 hp with rfl | hp
    · exact ⟨cmds, _, [], (List.append_nil _).symm, h.idle, .inl ⟨rfl, List.prefix_rfl⟩⟩
    · exact ih hp
  | @cmd cmds sl h c ih =>
    rcases Nat.le_total p.length sl.length with hle | hle
    · obtain ⟨done, whole, part, rfl, hw, hcut⟩ := ih (List.prefix_of_prefix_length_le hp (List.prefix_append ..) hle)
      refine ⟨done, whole, part, rfl, hw, ?_⟩
      rcases hcut with ⟨hpart, hd⟩ | ⟨d, h1, h2, h3, hd⟩
      · exact .inl ⟨hpart, hd.trans (List.prefix_append ..)⟩
      · exact .inr ⟨d, h1, h2, h3, hd.trans (List.prefix_append ..)⟩
    · obtain ⟨part, rfl⟩ := List.prefix_of_prefix_length_le (List.prefix_append ..) hp hle
      have hpart : part <+: c.slots := (List.prefix_append_right_inj _).1 hp
      by_cases hnil : part = []
      · exact ⟨cmds, sl, part, rfl, h, .inl ⟨hnil, List.prefix_append ..⟩⟩
      by_cases hall : part = c.slots
      · refine ⟨cmds ++ [c], sl ++ c.slots, [], ?_, h.cmd c, .inl ⟨rfl, List.prefix_rfl⟩⟩
        rw [hall, List.append_nil]
      · exact ⟨cmds, sl, part, rfl, h, .inr ⟨c, hnil, hall, hpart, List.prefix_rfl⟩⟩

end Weave

theorem Cut.among {cmds all : List Command} {sl : List (Bool × UInt8)} (h : Cut cmds sl all) : cmds <+: all := by
  obtain ⟨whole, part, -, -, hcut⟩ := h
  rcases hcut with ⟨-, hpre⟩ | ⟨c, -, -, -, hpre⟩
  · exact hpre
  · exact (List.prefix_append ..).trans hpre

/-- The keyer reads the whole commands. -/
theorem Cut.read {cmds all : List Command} {sl : List (Bool × UInt8)} (h : Cut cmds sl all)
    (hfit : ∀ c ∈ all, c.bytes.length ≤ MHDMX_CMD_BUFFER_SIZE) (rd : CmdRd) :
    Mealy.out CmdRd.step rd sl = cmds.map Command.bytes := by
  have hpre := h.among
  obtain ⟨whole, part, rfl, hw, hcut⟩ := h
  have hpart : Begins part ∧ cmdsStarting part = [] := by
    rcases hcut with ⟨rfl, -⟩ | ⟨c, hne, hc, hpre, -⟩
    · exact ⟨begins_idle 0, rfl⟩
    · refine ⟨fun s hs => ?_, c.cmdsStarting_part hpre hc⟩
      obtain ⟨ss, rfl⟩ : ∃ ss, part = s :: ss := List.head?_eq_some_iff.1 hs
      obtain ⟨t, ht⟩ := hpre
      exact c.begins_slots s (by rw [← ht]; rfl)
  obtain ⟨hb, hs⟩ := hpart
  rw [CmdRd.out_eq, (hw.begins.append hb).carry, hw.cmdsStarting_append (fun c hc => hfit c (hpre.subset hc)) hb, hs,
    List.append_nil]
  rfl

end Mhuxd
