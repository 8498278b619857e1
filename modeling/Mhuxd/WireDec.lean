import Mhuxd.Channel
import Mhuxd.Lib.Mealy

/-!
# Reading the keyer's frames

A frame is a sync byte and three payload bytes; a sequence is a first frame and further ones.
`RefDec` reads a stream of bytes as slots: every payload byte with its channel and its validity bit.
The channel of a frame's third byte is given by the frame's number, so the same rules read both
directions, each with its list of channels. `WireSeq.sync`: a well-formed sequence is read as its
slots whatever came before it.

On the control channel the validity bit marks the middle of a command. `CmdRd` collects the commands
of a stream of control slots; `cmdsStarting` says which ones they are.
-/

namespace Mhuxd

/-- One payload byte of a frame. -/
structure Slot where
  chan : Channel
  valid : Bool
  byte : UInt8
deriving DecidableEq, Repr

structure RefDec where
  frameNo : Nat
  byteNo : Nat
  sync : Option UInt8
deriving DecidableEq, Repr

/-- Bit `n` of a byte. -/
def bitOf (s n : UInt8) : UInt8 := (s >>> n) &&& (1 : UInt8)

/-- A payload byte with bit 7 restored from bit `n` of the sync byte. -/
def restore (s n c : UInt8) : UInt8 := (c &&& 0x7f) ||| (bitOf s n <<< (7 : UInt8))

namespace RefDec

def init : RefDec := ⟨0, 0, none⟩

/-- One byte; `chans` are the channels the frames of a sequence are shared by. -/
def step (chans : List Channel) (d : RefDec) (c : UInt8) : RefDec × Option Slot :=
  if c &&& 0x80 = 0 then
    (⟨if c &&& 0x40 = 0 then 0 else d.frameNo + 1, 0, some c⟩, none)
  else
    let d := { d with byteNo := d.byteNo + 1 }
    match d.sync with
    | none => (d, none)
    | some s =>
      match chans[d.frameNo]? with
      | none => ({ d with sync := none }, none)
      | some ch =>
        match d.byteNo with
        | 1 => (d, some ⟨.r1, bitOf s 5 == 1, restore s 2 c⟩)
        | 2 => (d, some ⟨.r2, bitOf s 4 == 1, restore s 1 c⟩)
        | 3 => (d, some ⟨ch, bitOf s 3 == 1, restore s 0 c⟩)
        | _ => (d, none)

end RefDec

/-- The bytes of a data channel. -/
def chanBytes (ch : Channel) (sl : List Slot) : List UInt8 :=
  sl.filterMap fun s => if s.chan = ch ∧ s.valid = true then some s.byte else none

/-- The slots of the control channel: validity and byte. -/
def ctlSlots (sl : List Slot) : List (Bool × UInt8) :=
  sl.filterMap fun s => if s.chan = .control then some (s.valid, s.byte) else none

@[simp] theorem chanBytes_nil (ch : Channel) : chanBytes ch [] = [] := rfl

@[simp] theorem ctlSlots_nil : ctlSlots [] = [] := rfl

theorem chanBytes_append (ch : Channel) (a b : List Slot) :
    chanBytes ch (a ++ b) = chanBytes ch a ++ chanBytes ch b := List.filterMap_append

theorem ctlSlots_append (a b : List Slot) : ctlSlots (a ++ b) = ctlSlots a ++ ctlSlots b :=
  List.filterMap_append

/-! ### Frames and sequences -/

/-- The bytes of a frame, the first of a sequence or a further one. -/
structure WireFrame (first : Bool) where
  sync : UInt8
  p1 : UInt8
  p2 : UInt8
  p3 : UInt8
  sync_msb : sync &&& 0x80 = 0
  sync_first : sync &&& 0x40 = 0 ↔ first = true
  p1_msb : ¬ p1 &&& 0x80 = 0
  p2_msb : ¬ p2 &&& 0x80 = 0
  p3_msb : ¬ p3 &&& 0x80 = 0

namespace WireFrame

variable {first : Bool}

def bytes (f : WireFrame first) : List UInt8 := [f.sync, f.p1, f.p2, f.p3]

def slots (ch : Channel) (f : WireFrame first) : List Slot :=
  [⟨.r1, bitOf f.sync 5 == 1, restore f.sync 2 f.p1⟩,
    ⟨.r2, bitOf f.sync 4 == 1, restore f.sync 1 f.p2⟩,
    ⟨ch, bitOf f.sync 3 == 1, restore f.sync 0 f.p3⟩]

theorem step_sync (chans : List Channel) (d : RefDec) (f : WireFrame first) :
    d.step chans f.sync = (⟨if first then 0 else d.frameNo + 1, 0, some f.sync⟩, none) := by
  have hn : (if f.sync &&& 0x40 = 0 then 0 else d.frameNo + 1) =
      if first then 0 else d.frameNo + 1 := by
    simp only [f.sync_first]
  unfold RefDec.step
  rw [if_pos f.sync_msb, hn]

/-- A frame is read as its slots when its number is that of a channel. -/
theorem read {chans : List Channel} (d : RefDec) (f : WireFrame first) {ch : Channel}
    (hch : chans[if first then 0 else d.frameNo + 1]? = some ch) :
    Mealy.out (RefDec.step chans) d f.bytes = f.slots ch ∧
      (Mealy.next (RefDec.step chans) d f.bytes).frameNo = if first then 0 else d.frameNo + 1 := by
  have h1 := f.p1_msb
  have h2 := f.p2_msb
  have h3 := f.p3_msb
  constructor
  · rw [bytes, Mealy.out_cons, f.step_sync]
    simp only [Mealy.out_cons, Mealy.out_nil, RefDec.step, h1, h2, h3, if_false, hch, slots,
      Option.toList, List.nil_append, List.singleton_append]
  · rw [bytes, Mealy.next_cons, f.step_sync]
    simp only [Mealy.next_cons, Mealy.next_nil, RefDec.step, h1, h2, h3, if_false, hch]

end WireFrame

/-- A sequence of at most `n` frames. -/
structure WireSeq (n : Nat) where
  head : WireFrame true
  rest : List (WireFrame false)
  len : rest.length < n

namespace WireSeq

variable {n : Nat} {chans : List Channel}

def bytes (s : WireSeq n) : List UInt8 := s.head.bytes ++ s.rest.flatMap WireFrame.bytes

/-- The slots of frames numbered by the channels of a list. -/
def restSlots : List Channel → List (WireFrame false) → List Slot
  | ch :: chs, f :: fs => f.slots ch ++ restSlots chs fs
  | _, _ => []

def slots (chans : List Channel) (s : WireSeq n) : List Slot :=
  match chans with
  | [] => []
  | ch :: chs => s.head.slots ch ++ restSlots chs s.rest

theorem read_rest (fs : List (WireFrame false)) (chs : List Channel) (d : RefDec)
    (hd : chans.drop (d.frameNo + 1) = chs) (hlen : fs.length ≤ chs.length) :
    Mealy.out (RefDec.step chans) d (fs.flatMap WireFrame.bytes) = restSlots chs fs := by
  induction fs generalizing chs d with
  | nil => cases chs <;> rfl
  | cons f fs ih =>
    cases chs with
    | nil => simp at hlen
    | cons ch chs =>
      have hch : chans[d.frameNo + 1]? = some ch := by
        rw [← List.head?_drop, hd]; rfl
      obtain ⟨hs, hn⟩ := f.read d hch
      have hn' : (Mealy.next (RefDec.step chans) d f.bytes).frameNo = d.frameNo + 1 := hn
      have htl : chans.drop (d.frameNo + 1 + 1) = chs := by
        rw [← List.drop_drop, hd]; rfl
      rw [List.flatMap_cons, Mealy.out_append, restSlots, hs]
      congr 1
      refine ih chs _ ?_ (by simpa using hlen)
      rw [hn']
      exact htl

/-- The first byte of a sequence resynchronises the reader. -/
theorem sync (s : WireSeq n) (hn : n ≤ chans.length) :
    Mealy.Sync (RefDec.step chans) s.bytes (s.slots chans) := by
  intro d
  obtain ⟨head, rest, hlen⟩ := s
  cases chans with
  | nil =>
    rw [List.length_nil] at hn
    omega
  | cons ch chs =>
    have hlen' : rest.length ≤ chs.length := by
      rw [List.length_cons] at hn
      omega
    obtain ⟨hs, hf⟩ := @WireFrame.read true (ch :: chs) d head ch rfl
    have hf' : (Mealy.next (RefDec.step (ch :: chs)) d head.bytes).frameNo = 0 := hf
    show Mealy.out _ d (head.bytes ++ rest.flatMap WireFrame.bytes) = head.slots ch ++ restSlots chs rest
    rw [Mealy.out_append, hs]
    congr 1
    refine read_rest rest chs _ ?_ hlen'
    rw [hf']
    rfl

end WireSeq

/-! ### Commands on the control channel -/

def MHDMX_CMD_BUFFER_SIZE : Nat := 4096

/-- A slot without validity and without bit 7 marks the first byte of a command. -/
def isFirst (s : Bool × UInt8) : Bool := !s.1 && s.2 &&& 0x80 == 0

/-- A slot without validity that is `c` with bit 7 set marks the last byte of command `c`. -/
def isLast (c : UInt8) (s : Bool × UInt8) : Bool := !s.1 && s.2 == c ||| 0x80

/-- The bytes up to the last-byte mark of command `c`, when it comes before any first-byte mark. -/
def upToLast (c : UInt8) : List (Bool × UInt8) → Option (List UInt8)
  | [] => none
  | s :: ss =>
    if isFirst s then none
    else if isLast c s then some [s.2]
    else (upToLast c ss).map (s.2 :: ·)

/-- Only commands that fit the command buffer are reported. -/
def fits (p : List UInt8) : Bool := decide (p.length ≤ MHDMX_CMD_BUFFER_SIZE)

/-- The command that starts with the first of the slots. -/
def cmdAt : List (Bool × UInt8) → Option (List UInt8)
  | [] => none
  | s :: ss => if isFirst s then ((upToLast s.2 ss).map (s.2 :: ·)).filter fits else none

/-- The commands that start in a stream of control slots. -/
def cmdsStarting (sl : List (Bool × UInt8)) : List (List UInt8) := sl.tails.filterMap cmdAt

@[simp] theorem cmdsStarting_nil : cmdsStarting [] = [] := rfl

theorem cmdsStarting_cons (s : Bool × UInt8) (ss : List (Bool × UInt8)) :
    cmdsStarting (s :: ss) = (cmdAt (s :: ss)).toList ++ cmdsStarting ss := by
  unfold cmdsStarting
  rw [List.tails_cons, List.filterMap_cons]
  cases cmdAt (s :: ss) <;> rfl

/-- The bytes of the command being read. -/
structure CmdRd where
  cmd : Option UInt8
  buf : List UInt8
  buf_le : buf.length ≤ MHDMX_CMD_BUFFER_SIZE
deriving DecidableEq

namespace CmdRd

/-- One slot of the control channel; gives a command when it is complete. -/
def step (k : CmdRd) (s : Bool × UInt8) : CmdRd × Option (List UInt8) :=
  if isFirst s then (⟨some s.2, [s.2], by simp [MHDMX_CMD_BUFFER_SIZE]⟩, none)
  else
    match k.cmd with
    | none => (k, none)
    | some c =>
      if h : k.buf.length = MHDMX_CMD_BUFFER_SIZE then (k, none)
      else
        have hle : (k.buf ++ [s.2]).length ≤ MHDMX_CMD_BUFFER_SIZE := by
          have := k.buf_le
          rw [List.length_append, List.length_singleton]
          omega
        if isLast c s then (⟨none, k.buf ++ [s.2], hle⟩, some (k.buf ++ [s.2]))
        else (⟨some c, k.buf ++ [s.2], hle⟩, none)

/-- The command half read in `k`, when `sl` completes it. -/
def carry (k : CmdRd) (sl : List (Bool × UInt8)) : Option (List UInt8) :=
  match k.cmd with
  | none => none
  | some c => ((upToLast c sl).map (k.buf ++ ·)).filter fits

theorem carry_full {k : CmdRd} (h : k.buf.length = MHDMX_CMD_BUFFER_SIZE) (sl : List (Bool × UInt8)) :
    k.carry sl = none := by
  have hne : ∀ c ss p, upToLast c ss = some p → 0 < p.length := by
    intro c ss p hp
    cases ss with
    | nil => simp [upToLast] at hp
    | cons s ss =>
      unfold upToLast at hp
      split_ifs at hp
      · obtain rfl := Option.some.inj hp
        exact Nat.one_pos
      · obtain ⟨q, -, rfl⟩ := Option.map_eq_some_iff.1 hp
        exact Nat.succ_pos _
  unfold carry
  cases k.cmd with
  | none => rfl
  | some c =>
    cases hu : upToLast c sl with
    | none => simp [hu]
    | some p =>
      have hp := hne c sl p hu
      have hf : fits (k.buf ++ p) = false := by
        simp only [fits, List.length_append, h, decide_eq_false_iff_not]
        omega
      simp [hu, hf, Option.filter]

/-- The commands read in a stream: the one half read before it, then those that start in it. -/
theorem out_eq (k : CmdRd) (sl : List (Bool × UInt8)) :
    Mealy.out step k sl = (k.carry sl).toList ++ cmdsStarting sl := by
  induction sl generalizing k with
  | nil => cases h : k.cmd <;> simp [carry, h, upToLast]
  | cons s ss ih =>
    rw [Mealy.out_cons, cmdsStarting_cons, ih]
    by_cases hf : isFirst s = true
    · have hk : k.carry (s :: ss) = none := by
        cases h : k.cmd <;> simp [carry, h, upToLast, hf]
      have hs : k.step s = (⟨some s.2, [s.2], by simp [MHDMX_CMD_BUFFER_SIZE]⟩, none) := by
        rw [step, if_pos hf]
      rw [hk, hs, cmdAt, if_pos hf, carry]
      rfl
    rw [cmdAt, if_neg hf]
    cases hc : k.cmd with
    | none =>
      have hs : k.step s = (k, none) := by simp [step, hf, hc]
      have hk : ∀ sl, k.carry sl = none := by
        intro sl
        simp [carry, hc]
      rw [hs, hk, hk]
    | some c =>
      by_cases hfull : k.buf.length = MHDMX_CMD_BUFFER_SIZE
      · have hs : k.step s = (k, none) := by simp [step, hf, hc, hfull]
        rw [hs, carry_full hfull, carry_full hfull]
      have hlt : k.buf.length + 1 ≤ MHDMX_CMD_BUFFER_SIZE := by
        have := k.buf_le
        omega
      by_cases hl : isLast c s = true
      · have hk : k.carry (s :: ss) = some (k.buf ++ [s.2]) := by
          simp [carry, hc, upToLast, hf, hl, Option.filter, fits, hlt]
        have hs : (k.step s).2 = some (k.buf ++ [s.2]) ∧ (k.step s).1.cmd = none := by
          simp [step, hf, hc, hfull, hl]
        rw [hk, hs.1, carry, hs.2]
      · simp [step, hf, hc, hfull, hl, carry, upToLast, Option.map_map, Function.comp_def]

end CmdRd

end Mhuxd
