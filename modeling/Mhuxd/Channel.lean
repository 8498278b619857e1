import Mathlib

/-!
# Channels (`channel.h`)

The microHam channels the keyer's frames carry, and the router's own channels behind them: PTT
requests, the MCP and rotator processors.
-/

namespace Mhuxd

/-- The channels in the order of their numbers. -/
inductive Channel
  | flags | control | winkey | ps2 | r1 | r2 | r1Fsk | r2Fsk
  | ptt1 | ptt2 | pttFocus | mcp | rotator
deriving DecidableEq, Repr, Inhabited

namespace Channel

/-- Every channel, in the order a loop over `ALL_NUM_CHANNELS` visits them. -/
def all : List Channel :=
  [.flags, .control, .winkey, .ps2, .r1, .r2, .r1Fsk, .r2Fsk, .ptt1, .ptt2, .pttFocus, .mcp, .rotator]

theorem mem_all (ch : Channel) : ch ∈ all := by cases ch <;> decide

/-- `channel < MH_NUM_CHANNELS`: carried by the keyer's frames. -/
def isMh : Channel → Bool
  | .ptt1 | .ptt2 | .pttFocus | .mcp | .rotator => false
  | _ => true

/-- `ch_is_ptt_channel`. -/
def isPtt : Channel → Bool
  | .ptt1 | .ptt2 | .pttFocus => true
  | _ => false

/-- `ch_ptt_channel`: the channel that keys the radio of a channel. -/
def pttChannel : Channel → Option Channel
  | .r1 | .r1Fsk => some .ptt1
  | .r2 | .r2Fsk => some .ptt2
  | .winkey => some .pttFocus
  | .ptt1 => some .ptt1
  | .ptt2 => some .ptt2
  | _ => none

end Channel

/-- A value per channel, as the router's arrays over `ALL_NUM_CHANNELS`, with one replaced. -/
def upd {α : Type} (f : Channel → α) (ch : Channel) (a : α) : Channel → α :=
  fun c => if c = ch then a else f c

@[simp] theorem upd_self {α : Type} (f : Channel → α) (ch : Channel) (a : α) : upd f ch a ch = a := by
  simp [upd]

@[simp] theorem upd_of_ne {α : Type} (f : Channel → α) {ch c : Channel} (a : α) (h : c ≠ ch) :
    upd f ch a c = f c := by
  simp [upd, h]

end Mhuxd
