import Mhuxd.MuxSpec

/-!
# Commands to the keyer

A command is its code, its parameters and the code with bit 7 set. Multiplexed from a control buffer
that held nothing before it, its first and its last byte lose their validity bit, so the keyer reads
it back whole (`Command.read_slots`).
-/

namespace Mhuxd

structure Command where
  code : UInt8
  params : List UInt8
  code_msb : code &&& 0x80 = 0
deriving DecidableEq

namespace Command

def bytes (cmd : Command) : List UInt8 := cmd.code :: cmd.params ++ [cmd.code ||| 0x80]

/-- The control slots of the command, validity cleared on the first and the last. -/
def slots (cmd : Command) : List (Bool × UInt8) :=
  (false, cmd.code) :: cmd.params.map (true, ·) ++ [(false, cmd.code ||| 0x80)]

@[simp] theorem bytes_length (cmd : Command) : cmd.bytes.length = cmd.params.length + 2 := by
  simp [bytes]

theorem isFirst_code (cmd : Command) : isFirst (false, cmd.code) = true := by
  simp [isFirst, cmd.code_msb]

theorem isFirst_last (cmd : Command) : isFirst (false, cmd.code ||| 0x80) = false := by
  have h : ∀ b : BitVec 8, isFirst (false, ⟨b⟩ ||| 0x80) = false := by decide
  exact h cmd.code.toBitVec

/-- Parameters are read as they are: they have their validity bit, whatever their bit 7. -/
theorem upToLast_params (cmd : Command) (params : List UInt8) (rest : List (Bool × UInt8)) :
    upToLast cmd.code (params.map (true, ·) ++ (false, cmd.code ||| 0x80) :: rest) =
      some (params ++ [cmd.code ||| 0x80]) := by
  induction params with
  | nil => simp [upToLast, cmd.isFirst_last, isLast]
  | cons p ps ih =>
    rw [List.map_cons, List.cons_append, upToLast, ih]
    simp [isFirst, isLast]

theorem cmdsStarting_params (params : List UInt8) (sl : List (Bool × UInt8)) :
    cmdsStarting (params.map (true, ·) ++ sl) = cmdsStarting sl := by
  induction params with
  | nil => rfl
  | cons p ps ih =>
    rw [List.map_cons, List.cons_append, cmdsStarting_cons, ih]
    rfl

theorem cmdsStarting_slots (cmd : Command) (hfit : cmd.bytes.length ≤ MHDMX_CMD_BUFFER_SIZE)
    (sl : List (Bool × UInt8)) : cmdsStarting (cmd.slots ++ sl) = cmd.bytes :: cmdsStarting sl := by
  have hup := cmd.upToLast_params cmd.params sl
  have hb : fits cmd.bytes = true := decide_eq_true hfit
  have hat : cmdAt (cmd.slots ++ sl) = some cmd.bytes := by
    rw [slots, List.append_assoc, List.singleton_append, List.cons_append, cmdAt,
      if_pos cmd.isFirst_code, hup]
    exact Option.filter_some_pos hb
  have hlast : cmdAt ((false, cmd.code ||| 0x80) :: sl) = none := by
    rw [cmdAt, cmd.isFirst_last]
    rfl
  rw [slots, List.append_assoc, List.singleton_append, List.cons_append] at hat ⊢
  rw [cmdsStarting_cons, hat, cmdsStarting_params, cmdsStarting_cons, hlast]
  rfl

theorem cmdsStarting_idle (k : Nat) : cmdsStarting (List.replicate k idleSlot) = [] := by
  induction k with
  | zero => rfl
  | succ k ih =>
    rw [List.replicate_succ, cmdsStarting_cons, ih, cmdAt]
    cases k <;> rfl

/-- Commands and idle slots between them are read as the commands, whatever was half read before. -/
theorem read_slots (cmd : Option Command) (hfit : ∀ c ∈ cmd, c.bytes.length ≤ MHDMX_CMD_BUFFER_SIZE)
    (k : Nat) (r : CmdRd) :
    Mealy.out CmdRd.step r (cmd.toList.flatMap slots ++ List.replicate k idleSlot) =
      cmd.toList.map bytes := by
  have hcarry : r.carry (cmd.toList.flatMap slots ++ List.replicate k idleSlot) = none := by
    have hup : ∀ c, upToLast c (cmd.toList.flatMap slots ++ List.replicate k idleSlot) = none := by
      intro c
      cases cmd with
      | none =>
        cases k with
        | zero => rfl
        | succ k => rfl
      | some cmd => simp [slots, upToLast, cmd.isFirst_code]
    unfold CmdRd.carry
    cases r.cmd with
    | none => rfl
    | some c => simp [hup c]
  rw [CmdRd.out_eq, hcarry]
  cases cmd with
  | none => exact cmdsStarting_idle k
  | some cmd =>
    have := cmd.cmdsStarting_slots (hfit cmd rfl) (List.replicate k idleSlot)
    simpa [cmdsStarting_idle] using this

/-- The marks of a buffer that holds just the command. -/
theorem cmdSlots_of_data {cmd : Command} {b : Buffer} (hr : b.rpos = 0) (hd : b.data = cmd.bytes) :
    b.cmdSlots = cmd.slots := by
  have hsize : b.size = cmd.params.length + 2 := by rw [Buffer.size, hd, bytes_length]
  have hmid : ∀ (ps : List UInt8) (n : Nat), 0 < n → n + ps.length + 1 = b.size →
      ((ps ++ [cmd.code ||| 0x80]).zipIdx n).map
        (fun p => (decide (0 < p.2) && decide (p.2 + 1 < b.size), p.1)) =
      ps.map (true, ·) ++ [(false, cmd.code ||| 0x80)] := by
    intro ps
    induction ps with
    | nil =>
      intro n hn hs
      simp only [List.length_nil, Nat.add_zero] at hs
      simp [hs]
    | cons p ps ih =>
      intro n hn hs
      rw [List.length_cons] at hs
      have hlt : n + 1 < b.size := by omega
      rw [List.cons_append, List.zipIdx_cons, List.map_cons, ih (n + 1) (Nat.succ_pos n) (by omega)]
      simp [hn, hlt]
  have hrest := hmid cmd.params 1 Nat.one_pos (by omega)
  rw [Buffer.cmdSlots, Buffer.unread, hr, hd, List.drop_zero, bytes, List.cons_append,
    List.zipIdx_cons, List.map_cons, hrest]
  rfl

end Command

end Mhuxd
