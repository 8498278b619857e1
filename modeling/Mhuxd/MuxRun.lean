import Mhuxd.Command
import Mhuxd.Lib.Run

/-!
# Multiplexing with a keyer that drains at any pace

`mx_mux` is called again and again while `write()` takes what it likes from the output buffer. Over
every such run what is on the line and in the output buffer hands over the channel buffers as one
call does (`Line.muxed`), so once they are empty the keyer has read every byte of every channel
(`mux_lossless`).
-/

namespace Mhuxd

inductive MuxOp
  /-- A call of `mx_mux`. -/
  | mux
  /-- A `write()` that takes at most `n` bytes. -/
  | drain (n : Nat)
deriving DecidableEq, Repr

/-- The buffers on both sides of the multiplexer and what was written to the keyer. -/
structure Line where
  bout : Buffer
  ibuf : Channel → Buffer
  wire : List UInt8

namespace Line

def step (s : Line) : MuxOp → Line
  | .mux => { s with bout := (mxMux s.bout s.ibuf).1, ibuf := (mxMux s.bout s.ibuf).2.1 }
  | .drain n =>
    { s with bout := s.bout.consume n, wire := s.wire ++ s.bout.unread.take n }

/-- An output buffer and a line with nothing on them. -/
def start (ibuf : Channel → Buffer) : Line := ⟨.empty, ibuf, []⟩

abbrev run (s : Line) (ops : List MuxOp) : Line := Run.run step s ops

/-- Everything on its way to the keyer. -/
def out (s : Line) : List UInt8 := s.wire ++ s.bout.unread

theorem muxed_step {ibuf : Channel → Buffer} {s : Line} (h : Muxed ibuf s.ibuf s.out) (op : MuxOp) :
    Muxed ibuf (s.step op).ibuf (s.step op).out := by
  cases op with
  | mux =>
    obtain ⟨w, hw, -⟩ := mxMux_out s.bout s.ibuf
    have hout : (s.step .mux).out = s.out ++ w := by
      rw [out, out, List.append_assoc, ← hw.unread]
      rfl
    rw [hout]
    exact h.trans hw.muxed
  | drain n =>
    have hout : (s.step (.drain n)).out = s.out := by
      rw [out, out]
      simp only [step, Buffer.unread_consume, List.append_assoc, List.take_append_drop]
    rw [hout]
    exact h

theorem muxed (ibuf : Channel → Buffer) (ops : List MuxOp) :
    Muxed ibuf ((start ibuf).run ops).ibuf ((start ibuf).run ops).out := by
  refine @Run.run_inv _ _ step (fun s => Muxed ibuf s.ibuf s.out) ?_ (start ibuf) ?_ ops
  · intro s op h
    exact muxed_step h op
  · exact .refl

/-- The output buffer is drained and the multiplexer called. -/
def round : List MuxOp := [.drain BUFFER_CAPACITY, .mux]

theorem unread_round (s : Line) {c : Channel} (hc : isMuxed c = true) :
    ((s.run round).ibuf c).unread.length ≤ (s.ibuf c).unread.length - 1 := by
  have hempty : (s.bout.consume BUFFER_CAPACITY).unread = [] := by
    rw [Buffer.unread_consume]
    refine List.drop_eq_nil_of_le ?_
    rw [Buffer.unread, List.length_drop]
    exact Nat.le_trans (Nat.sub_le _ _) s.bout.size_le
  have hroom : MAX_SEQUENCE_SIZE ≤ (s.bout.consume BUFFER_CAPACITY).avail := by
    rw [Buffer.eq_empty_of_unread hempty]
    decide
  exact mxMux_progress hroom s.ibuf hc

/-- A keyer that keeps reading empties the channels. -/
theorem unread_rounds (n : Nat) (s : Line) {c : Channel} (hc : isMuxed c = true) :
    ((s.run (List.replicate n round).flatten).ibuf c).unread.length ≤ (s.ibuf c).unread.length - n := by
  induction n generalizing s with
  | zero => exact Nat.le_refl _
  | succ n ih =>
    have hround := unread_round s hc
    have hrest := ih (s.run round)
    rw [List.replicate_succ, List.flatten_cons, run, Run.run_append]
    exact Nat.le_trans hrest (by omega)

end Line

/-- The control buffer holds just the command, or nothing. -/
def ControlHolds (b : Buffer) : Option Command → Prop
  | none => b.unread = []
  | some cmd => b.rpos = 0 ∧ b.data = cmd.bytes

theorem ControlHolds.cmdSlots {b : Buffer} {cmd : Option Command} (h : ControlHolds b cmd) :
    b.cmdSlots = cmd.toList.flatMap Command.slots := by
  cases cmd with
  | none => exact Buffer.cmdSlots_nil h
  | some cmd =>
    rw [Command.cmdSlots_of_data h.1 h.2]
    simp

theorem ControlHolds.fits {b : Buffer} {cmd : Option Command} (h : ControlHolds b cmd) :
    ∀ c ∈ cmd, c.bytes.length ≤ MHDMX_CMD_BUFFER_SIZE := by
  rintro c rfl
  rw [← h.2]
  exact b.size_le

/-- The multiplexer loses nothing: whatever the channels hold and however the output buffer is
drained, the keyer reads back every channel, and every run can be continued until all is sent. -/
theorem mux_lossless (ibuf : Channel → Buffer) (cmd : Option Command) (hps2 : (ibuf .ps2).unread = [])
    (hctl : ControlHolds (ibuf .control) cmd) (ops : List MuxOp) :
    (∃ more, ∀ c, c.isMh = true → (((Line.start ibuf).run (ops ++ more)).ibuf c).unread = []) ∧
    ((∀ c, c.isMh = true → (((Line.start ibuf).run ops).ibuf c).unread = []) →
      ∀ d : RefDec,
        (∀ c, c.isMh = true → c ≠ .control →
          chanBytes c (d.slots ((Line.start ibuf).run ops).out) = (ibuf c).unread) ∧
        (∃ k, ctlSlots (d.slots ((Line.start ibuf).run ops).out) =
          cmd.toList.flatMap Command.slots ++ List.replicate k idleSlot) ∧
        ∀ r : CmdRd, Mealy.out CmdRd.step r (ctlSlots (d.slots ((Line.start ibuf).run ops).out)) =
          cmd.toList.map Command.bytes) := by
  have hmuxed : ∀ c : Channel, c.isMh = true → isMuxed c = true ∨ c = .ps2 := by
    intro c hc
    cases c <;> simp_all [isMuxed, isData, Channel.isMh]
  constructor
  · obtain ⟨n, hn⟩ : ∃ n, ∀ c, (((Line.start ibuf).run ops).ibuf c).unread.length ≤ n := by
      refine ⟨BUFFER_CAPACITY, fun c => ?_⟩
      rw [Buffer.unread, List.length_drop]
      exact Nat.le_trans (Nat.sub_le _ _) (Buffer.size_le _)
    refine ⟨(List.replicate n Line.round).flatten, fun c hc => ?_⟩
    rcases hmuxed c hc with hm | rfl
    · have hlen := Line.unread_rounds n ((Line.start ibuf).run ops) hm
      have hc := hn c
      rw [Line.run, Run.run_append]
      refine List.length_eq_zero_iff.1 (Nat.le_zero.1 (Nat.le_trans hlen ?_))
      omega
    · rw [(Line.muxed ibuf _).other .ps2 rfl]
      exact hps2
  · intro hdone d
    have hm := Line.muxed ibuf ops
    have hslots : ∃ k, ctlSlots (d.slots ((Line.start ibuf).run ops).out) =
        cmd.toList.flatMap Command.slots ++ List.replicate k idleSlot := by
      obtain ⟨taken, k, hs, hb, -⟩ := hm.ctl d
      rw [Buffer.cmdSlots_nil (hdone .control rfl), List.append_nil, hctl.cmdSlots] at hb
      exact ⟨k, by rw [hs, hb]⟩
    refine ⟨fun c hc hne => ?_, hslots, fun r => ?_⟩
    · rcases hmuxed c hc with hmx | rfl
      · have hd : isData c = true := by
          rcases Bool.or_eq_true_iff.1 hmx with hd | he
          · exact hd
          · exact absurd (eq_of_beq he) hne
        have := hm.data d c hd
        rwa [hdone c hc, List.append_nil] at this
      · rw [hm.none d .ps2 rfl, hps2]
    · obtain ⟨k, hk⟩ := hslots
      rw [hk]
      exact Command.read_slots cmd hctl.fits k r

/-- A radio byte with bit 7 and a command beside it, both taken by one call. -/
theorem mux_lossless_r1_control :
    chanBytes .r1 (RefDec.init.slots ((Line.start (upd (upd (fun _ => .empty) .r1
        (Buffer.empty.append [0xfe, 0x12])) .control (Buffer.empty.append [0x05, 0x81, 0x85]))).run
          [.mux]).out) = [0xfe, 0x12] := by
  refine ((mux_lossless _ (some ⟨0x05, [0x81], by decide⟩) rfl ⟨rfl, rfl⟩ [.mux]).2 ?_ .init).1
    .r1 rfl (by decide)
  intro c hc
  cases c <;> decide +kernel

end Mhuxd
