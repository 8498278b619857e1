import Mhuxd.WireDec

/-!
# The demultiplexer from the keyer (`demux.c`)

`dmxDemux` reads the keyer's stream byte by byte. It is the reader of frames with the four channels
the keyer sends, and the reader of commands on the control channel (`dmxRead_sim`). So whatever state
it is in, sequences are reported exactly (`dmx_reports`), and the only trace of what came before is a
command half read, which they may complete.
-/

namespace Mhuxd

/-- `struct dmx`; -1 is `none`, `cmdBuffer` holds the first `cmd_length` bytes. -/
structure Dmx where
  frameNo : Nat
  byteNo : Nat
  syncByte : Option UInt8
  resultByte : UInt8
  cmdBuffer : List UInt8
  cmd : Option UInt8
  cmdBuffer_le : cmdBuffer.length ≤ MHDMX_CMD_BUFFER_SIZE

/-- `dmx_create`: all zero, so the first bytes count as the middle of a command 0. -/
def dmxCreate : Dmx := ⟨0, 0, some 0, 0, [], some 0, Nat.zero_le _⟩

theorem Dmx.length_store_le (dmx : Dmx) (byte : UInt8) (h : ¬ dmx.cmdBuffer.length = MHDMX_CMD_BUFFER_SIZE) :
    (dmx.cmdBuffer ++ [byte]).length ≤ MHDMX_CMD_BUFFER_SIZE := by
  have := dmx.cmdBuffer_le
  rw [List.length_append, List.length_singleton]
  omega

/-- The end of the control channel's case: the byte is stored, the last one completes the command. -/
def dmxStore (dmx : Dmx) (byte : UInt8) (last : Bool) : Dmx × Option Channel :=
  match dmx.cmd with
  | none => (dmx, none)
  | some _ =>
    if h : dmx.cmdBuffer.length = MHDMX_CMD_BUFFER_SIZE then (dmx, none)
    else
      let dmx := { dmx with
        cmdBuffer := dmx.cmdBuffer ++ [byte]
        cmdBuffer_le := dmx.length_store_le byte h }
      if last then ({ dmx with cmd := none }, some .control) else (dmx, none)

/-- The third byte of frame 1: the control channel, with its own semantic of the validity bit. -/
def dmxControl (dmx : Dmx) (s c : UInt8) : Dmx × Option Channel :=
  let byte := restore s 0 c
  if bitOf s 3 = 0 then
    if byte &&& 0x80 = 0 then
      dmxStore { dmx with cmd := some byte, cmdBuffer := [], cmdBuffer_le := Nat.zero_le _ } byte false
    else dmxStore dmx byte (dmx.cmd.any fun cmd => byte == cmd ||| 0x80)
  else dmxStore dmx byte false

/-- `dmx_demux`: one byte; the channel a byte or a command was received on. -/
def dmxDemux (dmx : Dmx) (c : UInt8) : Dmx × Option Channel :=
  if c &&& 0x80 = 0 then
    let frameNo := if c &&& 0x40 = 0 then 0 else dmx.frameNo + 1
    ({ dmx with frameNo := frameNo, byteNo := 0, syncByte := some c }, none)
  else
    let dmx := { dmx with byteNo := dmx.byteNo + 1 }
    match dmx.syncByte with
    | none => (dmx, none)
    | some s =>
      if 3 < dmx.frameNo then ({ dmx with syncByte := none }, none)
      else
        match dmx.byteNo with
        | 1 => if bitOf s 5 = 1 then ({ dmx with resultByte := restore s 2 c }, some .r1) else (dmx, none)
        | 2 => if bitOf s 4 = 1 then ({ dmx with resultByte := restore s 1 c }, some .r2) else (dmx, none)
        | 3 =>
          if dmx.frameNo ≠ 1 then
            if bitOf s 3 = 1 then
              -- FLAGS, WINKEY or PS2
              ({ dmx with resultByte := restore s 0 c }, Channel.all[dmx.frameNo]?)
            else (dmx, none)
          else dmxControl dmx s c
        | _ => (dmx, none)

/-- What the caller takes: the command buffer or the result byte. -/
def reported (r : Dmx × Option Channel) : Option (Channel × List UInt8) :=
  r.2.map fun ch => (ch, if ch = .control then r.1.cmdBuffer else [r.1.resultByte])

def dmxRead (dmx : Dmx) (c : UInt8) : Dmx × Option (Channel × List UInt8) :=
  ((dmxDemux dmx c).1, reported (dmxDemux dmx c))

/-- What is reported of a stream. -/
abbrev Dmx.reports (dmx : Dmx) (w : List UInt8) : List (Channel × List UInt8) := Mealy.out dmxRead dmx w

/-- The bytes reported on a data channel. -/
def reportedBytes (ch : Channel) (rep : List (Channel × List UInt8)) : List UInt8 :=
  (rep.filter (·.1 == ch)).flatMap (·.2)

/-- The commands reported. -/
def reportedCmds (rep : List (Channel × List UInt8)) : List (List UInt8) :=
  (rep.filter (·.1 == .control)).map (·.2)

/-! ### The readers inside the demultiplexer -/

/-- The channels of the keyer's frames. -/
def inChannels : List Channel := [.flags, .control, .winkey, .ps2]

namespace Dmx

def rd (dmx : Dmx) : RefDec := ⟨dmx.frameNo, dmx.byteNo, dmx.syncByte⟩

def cmdRd (dmx : Dmx) : CmdRd := ⟨dmx.cmd, dmx.cmdBuffer, dmx.cmdBuffer_le⟩

end Dmx

/-- What a slot makes of the command being read and what is reported for it. -/
def slotRead (k : CmdRd) (s : Slot) : CmdRd × Option (Channel × List UInt8) :=
  if s.chan = .control then
    ((k.step (s.valid, s.byte)).1, (k.step (s.valid, s.byte)).2.map (.control, ·))
  else (k, if s.valid then some (s.chan, [s.byte]) else none)

theorem bitOf_cases (s n : UInt8) : bitOf s n = 0 ∨ bitOf s n = 1 := by
  have h : ∀ b : BitVec 8, (⟨b⟩ : UInt8) &&& 1 = 0 ∨ (⟨b⟩ : UInt8) &&& 1 = 1 := by decide
  exact h (s >>> n).toBitVec

/-- Storing a byte that starts no command is a step of the command reader. -/
theorem dmxStore_sim (dmx : Dmx) (v : Bool) (byte : UInt8) (hfirst : isFirst (v, byte) = false) :
    (dmxStore dmx byte (dmx.cmd.any fun cmd => isLast cmd (v, byte))).1.rd = dmx.rd ∧
    (dmxStore dmx byte (dmx.cmd.any fun cmd => isLast cmd (v, byte))).1.cmdRd =
      (dmx.cmdRd.step (v, byte)).1 ∧
    reported (dmxStore dmx byte (dmx.cmd.any fun cmd => isLast cmd (v, byte))) =
      (dmx.cmdRd.step (v, byte)).2.map (Channel.control, ·) := by
  have hstep : dmx.cmdRd.step (v, byte) = _ := CmdRd.step.eq_def _ _
  rw [if_neg (by simp [hfirst])] at hstep
  cases hc : dmx.cmd with
  | none =>
    have hstore : dmxStore dmx byte false = (dmx, none) := by rw [dmxStore, hc]
    simp only [Dmx.cmdRd, hc] at hstep
    rw [Option.any_none, hstore, Dmx.cmdRd, hc, hstep]
    exact ⟨rfl, rfl, rfl⟩
  | some cmd =>
    simp only [Dmx.cmdRd, hc] at hstep
    by_cases hfull : dmx.cmdBuffer.length = MHDMX_CMD_BUFFER_SIZE
    · rw [dif_pos hfull] at hstep
      have hstore : ∀ l, dmxStore dmx byte l = (dmx, none) := by
        intro l
        simp only [dmxStore, hc, hfull, dite_true]
      rw [hstore, Dmx.cmdRd, hc, hstep]
      exact ⟨rfl, rfl, rfl⟩
    · rw [dif_neg hfull] at hstep
      rw [Option.any_some, Dmx.cmdRd, Dmx.cmdRd, hc, hstep]
      by_cases hlast : isLast cmd (v, byte) = true
      · simp [dmxStore, hc, hfull, hlast, Dmx.rd, reported]
      · simp [dmxStore, hc, hfull, hlast, Dmx.rd, reported]

/-- The control slot is read by the command reader; the frame reader does not see it. -/
theorem dmxControl_sim (dmx : Dmx) (s c : UInt8) :
    (dmxControl dmx s c).1.rd = dmx.rd ∧
    (dmxControl dmx s c).1.cmdRd = (dmx.cmdRd.step (bitOf s 3 == 1, restore s 0 c)).1 ∧
    reported (dmxControl dmx s c) =
      (dmx.cmdRd.step (bitOf s 3 == 1, restore s 0 c)).2.map (Channel.control, ·) := by
  unfold dmxControl
  rcases bitOf_cases s 3 with h | h <;> simp only [h]
  · by_cases hm : restore s 0 c &&& 0x80 = 0
    · have hf : isFirst (false, restore s 0 c) = true := by simp [isFirst, hm]
      simp only [hm, if_true]
      rw [show ((0 : UInt8) == 1) = false from rfl, CmdRd.step, if_pos hf]
      simp [dmxStore, MHDMX_CMD_BUFFER_SIZE, Dmx.rd, Dmx.cmdRd, reported]
    · have hf : isFirst (false, restore s 0 c) = false := by simp [isFirst, hm]
      simp only [hm, if_false]
      exact dmxStore_sim dmx false _ hf
  · have hl : (dmx.cmd.any fun cmd => isLast cmd (true, restore s 0 c)) = false := by
      cases dmx.cmd <;> rfl
    have := dmxStore_sim dmx true (restore s 0 c) rfl
    rw [hl] at this
    exact this

/-- One byte: the frame reader's slot goes to the command reader or is reported if it is valid. -/
theorem dmxRead_sim (dmx : Dmx) (c : UInt8) :
    (dmxRead dmx c).1.rd = (dmx.rd.step inChannels c).1 ∧
    (dmxRead dmx c).1.cmdRd =
      ((dmx.rd.step inChannels c).2.map fun s => (slotRead dmx.cmdRd s).1).getD dmx.cmdRd ∧
    (dmxRead dmx c).2 = (dmx.rd.step inChannels c).2.bind fun s => (slotRead dmx.cmdRd s).2 := by
  unfold dmxRead dmxDemux RefDec.step
  by_cases h7 : c &&& 0x80 = 0
  · rw [if_pos h7, if_pos h7]
    exact ⟨rfl, rfl, rfl⟩
  rw [if_neg h7, if_neg h7]
  cases hs : dmx.syncByte with
  | none =>
    simp [Dmx.rd, Dmx.cmdRd, hs, reported]
  | some s =>
    by_cases hn : 3 < dmx.frameNo
    · have hch : inChannels[dmx.frameNo]? = none := by
        rw [List.getElem?_eq_none_iff]
        exact hn
      simp [Dmx.rd, Dmx.cmdRd, hs, hn, hch, reported]
    obtain ⟨ch, hch, hch', hctl⟩ : ∃ ch, inChannels[dmx.frameNo]? = some ch ∧
        Channel.all[dmx.frameNo]? = some ch ∧ (ch = .control ↔ dmx.frameNo = 1) := by
      have : dmx.frameNo = 0 ∨ dmx.frameNo = 1 ∨ dmx.frameNo = 2 ∨ dmx.frameNo = 3 := by omega
      rcases this with h | h | h | h <;> rw [h] <;> exact ⟨_, rfl, rfl, by decide⟩
    simp only [Dmx.rd, hs, hn, if_false, hch]
    match hb : dmx.byteNo with
    | 0 =>
      rcases bitOf_cases s 5 with h | h <;> simp [h, slotRead, reported, Dmx.cmdRd]
    | 1 =>
      rcases bitOf_cases s 4 with h | h <;> simp [h, slotRead, reported, Dmx.cmdRd]
    | 2 =>
      by_cases h1 : dmx.frameNo = 1
      · obtain ⟨hrd, hcmd, hrep⟩ := dmxControl_sim
          ⟨1, 3, some s, dmx.resultByte, dmx.cmdBuffer, dmx.cmd, dmx.cmdBuffer_le⟩ s c
        simp only [h1, ne_eq, not_true_eq_false, if_false, slotRead, hctl.2 h1, Option.map_some,
          Option.getD_some, Option.bind_some, if_true]
        refine ⟨?_, ?_, ?_⟩
        · exact hrd
        · exact hcmd
        · exact hrep
      · have hne : ch ≠ .control := fun h => h1 (hctl.1 h)
        rcases bitOf_cases s 3 with h | h <;>
          simp [h, h1, hch', slotRead, reported, Dmx.cmdRd, hne]
    | n + 3 => simp [reported, Dmx.cmdRd]

/-! ### Whole streams -/

/-- What is reported of a list of slots. -/
abbrev slotReports (k : CmdRd) (sl : List Slot) : List (Channel × List UInt8) := Mealy.out slotRead k sl

/-- The demultiplexer reports what its readers make of the stream. -/
theorem reports_eq (dmx : Dmx) (w : List UInt8) :
    dmx.reports w = slotReports dmx.cmdRd (Mealy.out (RefDec.step inChannels) dmx.rd w) := by
  induction w generalizing dmx with
  | nil => rfl
  | cons c w ih =>
    obtain ⟨hrd, hcmd, hrep⟩ := dmxRead_sim dmx c
    have hih := ih (dmxRead dmx c).1
    rw [Dmx.reports, Mealy.out_cons, Mealy.out_cons, hrep]
    rw [Dmx.reports, hrd, hcmd] at hih
    rw [hih]
    cases (dmx.rd.step inChannels c).2 with
    | none => rfl
    | some s => rfl

theorem slotReports_cons (k : CmdRd) (s : Slot) (sl : List Slot) :
    slotReports k (s :: sl) = (slotRead k s).2.toList ++ slotReports (slotRead k s).1 sl := rfl

theorem reportedBytes_append (ch : Channel) (a b : List (Channel × List UInt8)) :
    reportedBytes ch (a ++ b) = reportedBytes ch a ++ reportedBytes ch b := by
  rw [reportedBytes, List.filter_append, List.flatMap_append]
  rfl

/-- On a data channel the valid slots are reported. -/
theorem reportedBytes_slots (k : CmdRd) (sl : List Slot) {ch : Channel} (hch : ch ≠ .control) :
    reportedBytes ch (slotReports k sl) = chanBytes ch sl := by
  induction sl generalizing k with
  | nil => rfl
  | cons s sl ih =>
    have hcons : chanBytes ch (s :: sl) =
        (if s.chan = ch ∧ s.valid = true then [s.byte] else []) ++ chanBytes ch sl := by
      by_cases h : s.chan = ch ∧ s.valid = true <;> simp [chanBytes, h]
    rw [slotReports_cons, reportedBytes_append, ih, hcons]
    congr 1
    unfold slotRead
    by_cases hs : s.chan = .control
    · have hne : ¬ s.chan = ch := fun h => hch (h.symm.trans hs)
      rw [if_pos hs, if_neg (fun h => hne h.1)]
      cases (k.step (s.valid, s.byte)).2 with
      | none => rfl
      | some p => simp [reportedBytes, Ne.symm hch]
    · rw [if_neg hs]
      cases hv : s.valid with
      | false => simp [reportedBytes]
      | true => by_cases h : s.chan = ch <;> simp [reportedBytes, h]

/-- The commands reported are those the command reader finds in the control slots. -/
theorem reportedCmds_slots (k : CmdRd) (sl : List Slot) :
    reportedCmds (slotReports k sl) = Mealy.out CmdRd.step k (ctlSlots sl) := by
  induction sl generalizing k with
  | nil => rfl
  | cons s sl ih =>
    rw [slotReports_cons, reportedCmds, List.filter_append, List.map_append]
    have ih' := ih (slotRead k s).1
    rw [reportedCmds] at ih'
    rw [ih']
    unfold slotRead
    by_cases hs : s.chan = .control
    · have hctl : ctlSlots (s :: sl) = (s.valid, s.byte) :: ctlSlots sl := by simp [ctlSlots, hs]
      rw [hctl, Mealy.out_cons, if_pos hs]
      cases (k.step (s.valid, s.byte)).2 <;> rfl
    · have hctl : ctlSlots (s :: sl) = ctlSlots sl := by simp [ctlSlots, hs]
      rw [hctl, if_neg hs]
      cases s.valid with
      | false => rfl
      | true => simp [hs]

/-- The bytes of some sequences, and their slots. -/
def seqsBytes (seqs : List (WireSeq 4)) : List UInt8 := seqs.flatMap WireSeq.bytes

def seqsSlots (seqs : List (WireSeq 4)) : List Slot := seqs.flatMap (WireSeq.slots inChannels)

/-- From every state the bytes of whole sequences are reported as the slots they encode; the command
half read before is completed by them at most. -/
theorem dmx_reports (dmx : Dmx) (seqs : List (WireSeq 4)) :
    (∀ ch, ch ≠ .control →
      reportedBytes ch (dmx.reports (seqsBytes seqs)) = chanBytes ch (seqsSlots seqs)) ∧
    reportedCmds (dmx.reports (seqsBytes seqs)) =
      (dmx.cmdRd.carry (ctlSlots (seqsSlots seqs))).toList ++ cmdsStarting (ctlSlots (seqsSlots seqs)) := by
  have hslots : Mealy.out (RefDec.step inChannels) dmx.rd (seqsBytes seqs) = seqsSlots seqs := by
    refine Mealy.Sync.flatMap ?_ seqs dmx.rd
    intro s
    exact s.sync (Nat.le_refl 4)
  rw [reports_eq, hslots]
  refine ⟨fun ch hch => reportedBytes_slots _ _ hch, ?_⟩
  rw [reportedCmds_slots, CmdRd.out_eq]

/-- A first frame and a control frame whose slot is the last byte of command 5. -/
def lastOfFive : WireSeq 4 where
  head := ⟨0x00, 0x80, 0x80, 0x80, by decide, by decide, by decide, by decide, by decide⟩
  rest := [⟨0x41, 0x80, 0x80, 0x85, by decide, by decide, by decide, by decide, by decide⟩]
  len := by decide

/-- Not only the commands that start in the sequences are reported: here a command 5 that started
before is completed. -/
theorem dmx_reports_half_read :
    ¬ ∀ (dmx : Dmx) (seqs : List (WireSeq 4)), reportedCmds (dmx.reports (seqsBytes seqs)) =
      cmdsStarting (ctlSlots (seqsSlots seqs)) := by
  intro h
  have := h (Mealy.next dmxRead dmxCreate [0x00, 0x80, 0x80, 0x80, 0x40, 0x80, 0x80, 0x85]) [lastOfFive]
  exact absurd this (by decide +kernel)

end Mhuxd
