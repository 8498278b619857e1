import Mhuxd.StationMaster

/-!
# The CW and FSK messages of a keyer (`mhcontrol.c`)

Nine messages of each kind in fixed buffers. A text is copied without its terminating zero: what is left of a longer
one stays behind it. The keyer is offline, so nothing is sent.
-/

namespace Mhuxd

def MAX_CW_FSK_MESSAGE_LEN : Nat := 50

inductive MsgKind
  | cw | fsk
deriving DecidableEq, Repr

/-- `struct cw_fsk_message`. -/
structure Message where
  text : List UInt8
  nextIdx : UInt8
  delay : UInt8
deriving DecidableEq, Repr

/-- `cw_message` and `fsk_message`, by the index 1 to 9. -/
abbrev Messages : Type := MsgKind → UInt8 → Message

/-- A call that stores a message. -/
structure MsgStore where
  kind : MsgKind
  idx : UInt8
  text : List UInt8
  nextIdx : UInt8
  delay : UInt8

/-- `memcpy` of a string's characters to the start of a buffer. -/
def overwrite (buf text : List UInt8) : List UInt8 := text ++ buf.drop text.length

namespace Message

/-- A message from `calloc`. -/
def zero : Message := ⟨List.replicate (MAX_CW_FSK_MESSAGE_LEN + 1) 0, 0, 0⟩

/-- The text up to its zero, the next message and the delay. -/
def read (m : Message) : List UInt8 × UInt8 × UInt8 := (cstr m.text, m.nextIdx, m.delay)

def put (m : Message) (c : MsgStore) : Message := ⟨overwrite m.text (cstr c.text), c.nextIdx, c.delay⟩

end Message

namespace MsgStore

/-- The index and the length are looked at. -/
def Accepted (c : MsgStore) : Prop := (cstr c.text).length ≤ MAX_CW_FSK_MESSAGE_LEN ∧ 1 ≤ c.idx ∧ c.idx ≤ 9

instance (c : MsgStore) : Decidable c.Accepted := inferInstanceAs (Decidable (_ ∧ _))

/-- What is stored. -/
def value (c : MsgStore) : List UInt8 × UInt8 × UInt8 := (cstr c.text, c.nextIdx, c.delay)

/-- The call is for the slot. -/
def IsFor (c : MsgStore) (kind : MsgKind) (idx : UInt8) : Prop := c.kind = kind ∧ c.idx = idx

instance (c : MsgStore) (kind : MsgKind) (idx : UInt8) : Decidable (c.IsFor kind idx) :=
  inferInstanceAs (Decidable (_ ∧ _))

end MsgStore

namespace Messages

def init : Messages := fun _ _ => .zero

/-- `mhc_store_cw_message`, `mhc_store_fsk_message`: false for `CMD_RESULT_ERROR`. -/
def store (ms : Messages) (c : MsgStore) : Messages × Bool :=
  if c.Accepted then
    (fun kind idx => if c.IsFor kind idx then (ms kind idx).put c else ms kind idx, true)
  else (ms, false)

/-- `mhc_get_cw_message`, `mhc_get_fsk_message`. -/
def get (ms : Messages) (kind : MsgKind) (idx : UInt8) : Option (List UInt8 × UInt8 × UInt8) :=
  if idx < 1 ∨ 9 < idx then none else some (ms kind idx).read

/-- The messages after calls one after the other. -/
def storeAll (ms : Messages) (cs : List MsgStore) : Messages := cs.foldl (fun ms c => (ms.store c).1) ms

end Messages

/-! ### A buffer -/

/-- The string is all characters, with zeros behind it. -/
structure Holds (buf text : List UInt8) : Prop where
  eq : buf = text ++ List.replicate (MAX_CW_FSK_MESSAGE_LEN + 1 - text.length) 0
  chars : ∀ b ∈ text, b ≠ 0
  le : text.length ≤ MAX_CW_FSK_MESSAGE_LEN

theorem ne_zero_of_mem_cstr {s : List UInt8} : ∀ b ∈ cstr s, b ≠ 0 := by
  intro b hb
  simpa using List.mem_takeWhile_imp hb

theorem cstr_append_zero {t : List UInt8} (ht : ∀ b ∈ t, b ≠ 0) (n : Nat) :
    cstr (t ++ List.replicate n 0) = t := by
  unfold cstr
  rw [List.takeWhile_append_of_pos fun b hb => by simpa using ht b hb]
  cases n <;> simp [List.replicate_succ]

namespace Holds

variable {buf text : List UInt8}

theorem cstr_eq (h : Holds buf text) : cstr buf = text := by
  rw [h.eq]
  exact cstr_append_zero h.chars _

theorem zero : Holds Message.zero.text [] := ⟨rfl, by simp, by decide⟩

/-- A text is written over the start of the one that is there. -/
theorem overwrite {new : List UInt8} (h : Holds buf text) (hchars : ∀ b ∈ new, b ≠ 0)
    (hle : new.length ≤ MAX_CW_FSK_MESSAGE_LEN) : Holds (Mhuxd.overwrite buf new)
    (new ++ text.drop new.length) where
  eq := by
    have hlen := h.le
    unfold Mhuxd.overwrite
    rw [h.eq, List.drop_append, List.append_assoc, List.drop_replicate]
    congr 3
    simp only [List.length_append, List.length_drop]
    unfold MAX_CW_FSK_MESSAGE_LEN at *
    omega
  chars b hb := by
    rcases List.mem_append.1 hb with hb | hb
    · exact hchars b hb
    · exact h.chars b (List.mem_of_mem_drop hb)
  le := by
    have hlen := h.le
    simp only [List.length_append, List.length_drop]
    omega

end Holds

/-! ### A slot -/

/-- The calls accepted for a slot. -/
def acceptedFor (kind : MsgKind) (idx : UInt8) (cs : List MsgStore) : List MsgStore :=
  cs.filter fun c => c.Accepted ∧ c.IsFor kind idx

/-- The text of a slot after the calls for it: what is left of longer texts follows the last one. -/
def leftText (cs : List MsgStore) : List UInt8 := cs.foldl (fun t c => cstr c.text ++
    t.drop (cstr c.text).length) []

theorem leftText_append (cs : List MsgStore) (c : MsgStore) :
    leftText (cs ++ [c]) = cstr c.text ++ (leftText cs).drop (cstr c.text).length := by
  simp [leftText]

/-- The text is as long as the longest one. -/
theorem length_leftText_le {cs : List MsgStore} {n : Nat} :
    (leftText cs).length ≤ n ↔ ∀ c ∈ cs, (cstr c.text).length ≤ n := by
  induction cs using List.reverseRecOn with
  | nil => simp [leftText]
  | append_singleton cs c ih =>
    have hmem : (∀ c' ∈ cs ++ [c], (cstr c'.text).length ≤ n) ↔
        (∀ c' ∈ cs, (cstr c'.text).length ≤ n) ∧ (cstr c.text).length ≤ n := by
      simp [or_imp, forall_and]
    rw [hmem, ← ih, leftText_append, List.length_append, List.length_drop]
    omega

namespace Messages

theorem storeAll_append (ms : Messages) (cs : List MsgStore) (c : MsgStore) :
    ms.storeAll (cs ++ [c]) = ((ms.storeAll cs).store c).1 := List.foldl_concat ..

theorem store_slot (ms : Messages) (c : MsgStore) (kind : MsgKind) (idx : UInt8) :
    (ms.store c).1 kind idx = if c.Accepted ∧ c.IsFor kind idx then (ms kind idx).put c else ms kind idx := by
  unfold store
  by_cases h : c.Accepted
  · simp only [h, if_true, true_and]
  · simp only [h, if_false, false_and]

/-- A slot after the calls: the text, and the next message and delay of the last one accepted for it. -/
theorem storeAll_slot (cs : List MsgStore) (kind : MsgKind) (idx : UInt8) :
    Holds (init.storeAll cs kind idx).text (leftText (acceptedFor kind idx cs)) ∧
      ((init.storeAll cs kind idx).nextIdx, (init.storeAll cs kind idx).delay) =
        (((acceptedFor kind idx cs).getLast?.map MsgStore.value).getD ([], 0, 0)).2 := by
  induction cs using List.reverseRecOn with
  | nil => exact ⟨.zero, rfl⟩
  | append_singleton cs c ih =>
    rw [storeAll_append, store_slot]
    unfold acceptedFor
    rw [List.filter_append]
    by_cases h : c.Accepted ∧ c.IsFor kind idx
    · rw [if_pos h, List.filter_cons_of_pos (by simpa using h), List.filter_nil, leftText_append]
      refine ⟨ih.1.overwrite ne_zero_of_mem_cstr h.1.1, ?_⟩
      simp [Message.put, MsgStore.value]
    · rw [if_neg h, List.filter_cons_of_neg (by simpa using h), List.filter_nil, List.append_nil]
      exact ih

/-- Reading a slot gives what was stored last in it: nothing if nothing was. -/
def ReadsLast (cs : List MsgStore) : Prop :=
  ∀ kind idx, 1 ≤ idx → idx ≤ 9 →
    (init.storeAll cs).get kind idx = some (((acceptedFor kind idx cs).getLast?.map MsgStore.value).getD ([], 0, 0))

theorem leftText_eq_iff (cs : List MsgStore) : leftText cs = (cs.getLast?.map fun c => cstr c.text).getD [] ↔
    ∀ last ∈ cs.getLast?, ∀ c ∈ cs, (cstr c.text).length ≤ (cstr last.text).length := by
  rcases List.eq_nil_or_concat cs with rfl | ⟨cs, last, rfl⟩
  · simp [leftText]
  · have hmem : (∀ c ∈ cs ++ [last], (cstr c.text).length ≤ (cstr last.text).length) ↔
        ∀ c ∈ cs, (cstr c.text).length ≤ (cstr last.text).length := by
      simp [or_imp, forall_and]
    rw [List.concat_eq_append, leftText_append]
    simp only [List.getLast?_concat, Option.map_some, Option.getD_some, Option.mem_some_iff, forall_eq']
    rw [hmem, ← length_leftText_le, List.append_right_eq_self, List.drop_eq_nil_iff]

/-- The messages read back exactly if the last text accepted for each slot is not shorter than one before. -/
theorem reads_last_iff (cs : List MsgStore) : ReadsLast cs ↔
    ∀ kind idx, ∀ last ∈ (acceptedFor kind idx cs).getLast?, ∀ c ∈ acceptedFor kind idx cs,
      (cstr c.text).length ≤ (cstr last.text).length := by
  have hslot (kind : MsgKind) (idx : UInt8) (h1 : 1 ≤ idx) (h9 : idx ≤ 9) : (init.storeAll cs).get kind idx =
      some (((acceptedFor kind idx cs).getLast?.map MsgStore.value).getD ([], 0, 0)) ↔
      ∀ last ∈ (acceptedFor kind idx cs).getLast?, ∀ c ∈ acceptedFor kind idx cs,
        (cstr c.text).length ≤ (cstr last.text).length := by
    obtain ⟨hholds, hrest⟩ := storeAll_slot cs kind idx
    have hin : ¬ (idx < 1 ∨ 9 < idx) := by
      rw [not_or, UInt8.not_lt, UInt8.not_lt]
      exact ⟨h1, h9⟩
    have hval : (((acceptedFor kind idx cs).getLast?.map MsgStore.value).getD ([], 0, 0)).1 =
        ((acceptedFor kind idx cs).getLast?.map fun c => cstr c.text).getD [] := by
      cases (acceptedFor kind idx cs).getLast? <;> rfl
    rw [← leftText_eq_iff, ← hval, get, if_neg hin, Option.some.injEq, Prod.ext_iff]
    unfold Message.read
    rw [hholds.cstr_eq]
    exact and_iff_left hrest
  constructor
  · intro h kind idx last hlast
    have hmem := List.mem_of_mem_getLast? hlast
    have haccepted : last.Accepted ∧ last.IsFor kind idx := by simpa using (List.mem_filter.1 hmem).2
    have hidx : last.idx = idx := haccepted.2.2
    have h1 : 1 ≤ idx := hidx ▸ haccepted.1.2.1
    have h9 : idx ≤ 9 := hidx ▸ haccepted.1.2.2
    exact (hslot kind idx h1 h9).1 (h kind idx h1 h9) last hlast
  · intro h kind idx h1 h9
    exact (hslot kind idx h1 h9).2 (h kind idx)

/-- `A` is stored over `CQ`. -/
theorem reads_last_shorter :
    ¬ ReadsLast [⟨.cw, 1, [0x43, 0x51], 0xff, 0⟩, ⟨.cw, 1, [0x41], 0xff, 0⟩] := by
  intro h
  have hget := h .cw 1 (by decide) (by decide)
  exact absurd hget (by decide)

end Messages

end Mhuxd
