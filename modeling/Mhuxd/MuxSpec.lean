import Mhuxd.Mux
import Mhuxd.WireDec

/-!
# What one call of `mx_mux` puts on the wire

The keyer reads the host's sequences with the five channels of `outChannels`. `mxMux_out`: the bytes
appended to the output buffer are read, from every state of the reader, as slots that hand over the
front of every data channel's buffer (`chanBytes`), and on the control channel the marked bytes of
its buffer (`cmdSlots`) followed by idle slots (`CtlTaken`). No other channel is touched.
`mxMux_progress`: with room for a sequence, a byte of every channel with one is taken.
-/

namespace Mhuxd

namespace RefDec

/-- The slots the keyer reads in a stream. -/
abbrev slots (d : RefDec) (w : List UInt8) : List Slot := Mealy.out (step outChannels) d w

/-- The keyer's reader after a stream. -/
abbrev after (d : RefDec) (w : List UInt8) : RefDec := Mealy.next (step outChannels) d w

end RefDec

/-- The slot of a control channel with nothing to send. -/
def idleSlot : Bool × UInt8 := (false, 0)

/-! ### The bytes of a frame -/

theorem msb_cases (c : UInt8) : msb c = 0 ∨ msb c = 1 := by
  have h : ∀ b : BitVec 8, msb ⟨b⟩ = 0 ∨ msb ⟨b⟩ = 1 := by decide
  exact h c.toBitVec

theorem payload_msb (o : Option UInt8) : ¬ Frame.payload o &&& 0x80 = 0 := by
  cases o with
  | none => decide
  | some c =>
    have h : ∀ b : BitVec 8, ¬ Frame.payload (some ⟨b⟩) &&& 0x80 = 0 := by decide
    exact h c.toBitVec

theorem restore_payload {s n : UInt8} {o : Option UInt8} (h : bitOf s n = (o.map msb).getD 0) :
    restore s n (Frame.payload o) = o.getD 0 := by
  unfold restore
  rw [h]
  cases o with
  | none => decide
  | some c =>
    have hb : ∀ b : BitVec 8,
        (Frame.payload (some ⟨b⟩) &&& 0x7f) ||| (msb ⟨b⟩ <<< (7 : UInt8)) = ⟨b⟩ := by decide
    exact hb c.toBitVec

namespace Frame

/-- The bits of the sync byte. -/
theorem syncByte_bits (first : Bool) (f : Frame) :
    f.syncByte first &&& 0x80 = 0 ∧ (f.syncByte first &&& 0x40 = 0 ↔ first = true) ∧
    (bitOf (f.syncByte first) 5 == 1) = f.r1.isSome ∧
    bitOf (f.syncByte first) 2 = (f.r1.map msb).getD 0 ∧
    (bitOf (f.syncByte first) 4 == 1) = f.r2.isSome ∧
    bitOf (f.syncByte first) 1 = (f.r2.map msb).getD 0 ∧
    (bitOf (f.syncByte first) 3 == 1) = (f.shared.map (·.2)).getD false ∧
    bitOf (f.syncByte first) 0 = (f.shared.map (msb ·.1)).getD 0 := by
  obtain ⟨r1, r2, sh⟩ := f
  -- the sync byte depends on the high bits only: 90 cases
  have h1 : ∀ o : Option UInt8, o = none ∨ ∃ c, o = some c ∧ (msb c = 0 ∨ msb c = 1) := by
    intro o
    cases o with
    | none => exact .inl rfl
    | some c => exact .inr ⟨c, rfl, msb_cases c⟩
  have h2 : sh = none ∨ ∃ c v, sh = some (c, v) ∧ (msb c = 0 ∨ msb c = 1) := by
    cases sh with
    | none => exact .inl rfl
    | some p => exact .inr ⟨p.1, p.2, rfl, msb_cases p.1⟩
  rcases h1 r1 with rfl | ⟨c1, rfl, h | h⟩ <;> rcases h1 r2 with rfl | ⟨c2, rfl, h' | h'⟩ <;>
    rcases h2 with rfl | ⟨c3, v, rfl, h'' | h''⟩ <;>
    simp only [syncByte, *, Option.map_some, Option.map_none, Option.getD_some, Option.getD_none,
      Option.isSome_some, Option.isSome_none] <;>
    (try cases v) <;> cases first <;> decide

/-- A frame of the multiplexer as the reader takes it. -/
def wire (first : Bool) (f : Frame) : WireFrame first where
  sync := f.syncByte first
  p1 := payload f.r1
  p2 := payload f.r2
  p3 := payload (f.shared.map (·.1))
  sync_msb := (f.syncByte_bits first).1
  sync_first := (f.syncByte_bits first).2.1
  p1_msb := payload_msb _
  p2_msb := payload_msb _
  p3_msb := payload_msb _

/-- The slots of a frame, the third on `ch`. -/
def slots (ch : Channel) (f : Frame) : List Slot :=
  [⟨.r1, f.r1.isSome, f.r1.getD 0⟩, ⟨.r2, f.r2.isSome, f.r2.getD 0⟩,
    ⟨ch, (f.shared.map (·.2)).getD false, (f.shared.map (·.1)).getD 0⟩]

theorem wire_slots (first : Bool) (ch : Channel) (f : Frame) :
    (f.wire first).slots ch = f.slots ch := by
  obtain ⟨-, -, v1, m1, v2, m2, v3, m3⟩ := f.syncByte_bits first
  have m3' : bitOf (f.syncByte first) 0 = ((f.shared.map (·.1)).map msb).getD 0 := by
    rw [m3, Option.map_map]; rfl
  simp only [WireFrame.slots, wire, v1, v2, v3, restore_payload m1, restore_payload m2,
    restore_payload m3', slots]

end Frame

/-- The slots of the frames of a sequence. -/
def seqSlots : List Channel → List Frame → List Slot
  | ch :: chs, f :: fs => f.slots ch ++ seqSlots chs fs
  | _, _ => []

theorem restSlots_wire (chs : List Channel) (fs : List Frame) :
    WireSeq.restSlots chs (fs.map (Frame.wire false)) = seqSlots chs fs := by
  induction fs generalizing chs with
  | nil => cases chs <;> rfl
  | cons f fs ih =>
    cases chs with
    | nil => rfl
    | cons ch chs => rw [List.map_cons, WireSeq.restSlots, Frame.wire_slots, ih, seqSlots]

/-- A sequence of the multiplexer is read as its slots whatever came before. -/
theorem seqBytes_sync {fs : List Frame} (hlen : fs.length ≤ 5) :
    Mealy.Sync (RefDec.step outChannels) (seqBytes fs) (seqSlots outChannels fs) := by
  cases fs with
  | nil => exact .nil
  | cons f fs =>
    let s : WireSeq 5 := ⟨f.wire true, fs.map (Frame.wire false), by
      rw [List.length_map]
      exact hlen⟩
    have hb : s.bytes = seqBytes (f :: fs) := by
      show f.bytes true ++ (fs.map (Frame.wire false)).flatMap WireFrame.bytes = _
      rw [List.flatMap_map, seqBytes]
      rfl
    have hs : s.slots outChannels = seqSlots outChannels (f :: fs) := by
      show (f.wire true).slots .flags ++ WireSeq.restSlots outChannels.tail (fs.map (Frame.wire false)) = _
      rw [Frame.wire_slots, restSlots_wire]
      rfl
    rw [← hb, ← hs]
    exact s.sync (Nat.le_refl 5)

/-! ### The marks of the control buffer -/

namespace Buffer

/-- The unread bytes of a command in the control buffer as the multiplexer marks them: validity is
cleared on the first and the last byte of the buffer. -/
def cmdSlots (b : Buffer) : List (Bool × UInt8) :=
  (b.unread.zipIdx b.rpos).map fun p => (decide (0 < p.2) && decide (p.2 + 1 < b.size), p.1)

theorem getC_unread (b : Buffer) : b.getC.1.toList ++ b.getC.2.unread = b.unread := by
  cases h : b.unread with
  | nil => rw [getC_nil b h]; simp [h]
  | cons c cs =>
    obtain ⟨h1, h2⟩ := getC_cons b h
    rw [h1, h2]; rfl

theorem getC_unread_tail (b : Buffer) : b.getC.2.unread = b.unread.tail := by
  cases h : b.unread with
  | nil => rw [getC_nil b h, h]; rfl
  | cons c cs =>
    obtain ⟨h1, h2⟩ := getC_cons b h
    rw [h1, h2]; rfl

theorem getC_unread_le (b : Buffer) : b.getC.2.unread.length ≤ b.unread.length := by
  rw [getC_unread_tail, List.length_tail]
  omega

theorem cmdSlots_length (b : Buffer) : b.cmdSlots.length = b.unread.length := by
  simp [cmdSlots]

theorem cmdSlots_nil {b : Buffer} (h : b.unread = []) : b.cmdSlots = [] := by
  simp [cmdSlots, h]

theorem cmdSlots_eq_nil {b : Buffer} : b.cmdSlots = [] ↔ b.unread = [] := by
  simp [cmdSlots]

/-- Reading a byte of the control buffer leaves the marks of the others as they are. The mark of the
byte read is computed from the buffer after the read, as `mx_mux` does. -/
theorem cmdSlots_getC {b b' : Buffer} {c : UInt8} (h : b.getC = (some c, b')) :
    b.cmdSlots = (decide (1 < b'.rpos) && decide (b'.rpos < b'.size), c) :: b'.cmdSlots := by
  cases hu : b.unread with
  | nil => rw [getC_nil b hu] at h; simp at h
  | cons x xs =>
    obtain ⟨h1, h2⟩ := getC_cons b hu
    rw [h1] at h
    obtain ⟨rfl, rfl⟩ : x = c ∧ b.consume 1 = b' := by simpa using h
    have hlen : b.data.length - b.rpos = xs.length + 1 := by
      have := congrArg List.length hu
      simpa [unread] using this
    simp only [cmdSlots, hu, h2, List.zipIdx_cons, List.map_cons]
    unfold consume
    split
    · rename_i hlt
      have hpos : 1 < b.rpos + 1 ↔ 0 < b.rpos := by omega
      simp only [size, hpos]
      rfl
    · rename_i hge
      have hxs : xs = [] := List.length_eq_zero_iff.1 (by omega)
      subst hxs
      have : ¬ b.rpos + 1 < b.size := hge
      simp [empty, this]

theorem size_append_of_le {b : Buffer} {p : List UInt8} (h : p.length ≤ b.avail) :
    (b.append p).size = b.size + p.length := by
  rw [size, data_append_of_le b h, List.length_append]
  rfl

end Buffer

/-! ### One frame takes a byte of each channel -/

/-- The data channels of the keyer's input. -/
def isData : Channel → Bool
  | .flags | .winkey | .r1 | .r2 | .r1Fsk | .r2Fsk => true
  | _ => false

/-- `ch` may share a frame: it is neither a radio's channel. -/
def isShared (ch : Channel) : Prop := ch ≠ .r1 ∧ ch ≠ .r2

theorem outChannels_shared : ∀ ch ∈ outChannels, isShared ch := by
  simp [outChannels, isShared]

section frame

variable {ch : Channel} {ibuf : Channel → Buffer}

theorem mxFrame_r1 (ch : Channel) : (mxFrame ch ibuf).1.r1 = (ibuf .r1).getC.1 := rfl

theorem mxFrame_r2 (ch : Channel) : (mxFrame ch ibuf).1.r2 = (ibuf .r2).getC.1 := rfl

theorem mxFrame_buf_shared (hch : isShared ch) : (mxFrame ch ibuf).2 ch = (ibuf ch).getC.2 := by
  simp [mxFrame, upd, hch.1, hch.2]

theorem mxFrame_buf_r1 (hch : isShared ch) : (mxFrame ch ibuf).2 .r1 = (ibuf .r1).getC.2 := by
  simp [mxFrame, upd, hch.1.symm]

theorem mxFrame_buf_r2 (hch : isShared ch) : (mxFrame ch ibuf).2 .r2 = (ibuf .r2).getC.2 := by
  simp [mxFrame, upd, hch.2.symm]

theorem mxFrame_buf_other {c : Channel} (h : c ≠ ch) (h1 : c ≠ .r1) (h2 : c ≠ .r2) :
    (mxFrame ch ibuf).2 c = ibuf c := by
  simp [mxFrame, upd, h, h1, h2]

theorem mxFrame_shared (hch : isShared ch) :
    (mxFrame ch ibuf).1.shared = (ibuf ch).getC.1.map fun c =>
      (c, ch != .control || (decide (1 < (ibuf ch).getC.2.rpos) &&
        decide ((ibuf ch).getC.2.rpos < (ibuf ch).getC.2.size))) := by
  simp [mxFrame, upd, hch.1, hch.2]

/-- A frame hands over the front of every data channel it carries. -/
theorem mxFrame_data (hch : isShared ch) {c : Channel} (hc : isData c = true) :
    chanBytes c ((mxFrame ch ibuf).1.slots ch) ++ ((mxFrame ch ibuf).2 c).unread =
      (ibuf c).unread := by
  have hctl : c ≠ .control := by rintro rfl; simp [isData] at hc
  obtain ⟨hr1, hr2⟩ := hch
  by_cases h1 : c = .r1
  · subst h1
    rw [mxFrame_buf_r1 ⟨hr1, hr2⟩, ← (ibuf .r1).getC_unread]
    simp only [chanBytes, Frame.slots]
    rw [mxFrame_r1]
    cases (ibuf .r1).getC.1 <;> simp [hr1]
  by_cases h2 : c = .r2
  · subst h2
    rw [mxFrame_buf_r2 ⟨hr1, hr2⟩, ← (ibuf .r2).getC_unread]
    simp only [chanBytes, Frame.slots]
    rw [mxFrame_r2]
    cases (ibuf .r2).getC.1 <;> simp [hr2]
  by_cases h3 : c = ch
  · subst h3
    rw [mxFrame_buf_shared ⟨hr1, hr2⟩, ← (ibuf c).getC_unread]
    simp only [chanBytes, Frame.slots, mxFrame_shared ⟨hr1, hr2⟩]
    cases (ibuf c).getC.1 <;> simp [hr1.symm, hr2.symm, hctl]
  · rw [mxFrame_buf_other h3 h1 h2]
    simp [chanBytes, Frame.slots, Ne.symm h1, Ne.symm h2, Ne.symm h3]

/-- The control frame takes the next marked byte; with nothing to send its slot is idle. -/
theorem mxFrame_control :
    ctlSlots ((mxFrame .control ibuf).1.slots .control) =
        (match (ibuf .control).cmdSlots with | [] => [idleSlot] | s :: _ => [s]) ∧
      ((mxFrame .control ibuf).2 .control).cmdSlots = (ibuf .control).cmdSlots.tail := by
  have hsh : isShared .control := ⟨by decide, by decide⟩
  rw [mxFrame_buf_shared hsh]
  simp only [ctlSlots, Frame.slots, mxFrame_shared hsh]
  cases hu : (ibuf .control).unread with
  | nil =>
    rw [Buffer.getC_nil _ hu, Buffer.cmdSlots_nil hu]
    exact ⟨rfl, rfl⟩
  | cons c cs =>
    obtain ⟨h1, _⟩ := Buffer.getC_cons _ hu
    rw [Buffer.cmdSlots_getC h1, h1]
    exact ⟨by simp, rfl⟩

theorem mxFrame_ctl_other (hch : ch ≠ .control) (f : Frame) : ctlSlots (f.slots ch) = [] := by
  simp [ctlSlots, Frame.slots, hch]

end frame

/-! ### The frames of a sequence -/

theorem mxFrames_data {chs : List Channel} (hchs : ∀ ch ∈ chs, isShared ch) (ibuf : Channel → Buffer)
    {c : Channel} (hc : isData c = true) :
    chanBytes c (seqSlots chs (mxFrames chs ibuf).1) ++ ((mxFrames chs ibuf).2 c).unread =
      (ibuf c).unread := by
  induction chs generalizing ibuf with
  | nil => rfl
  | cons ch chs ih =>
    have hrest := ih (fun c hc => hchs c (List.mem_cons_of_mem _ hc)) (mxFrame ch ibuf).2
    simp only [mxFrames, seqSlots, chanBytes_append, List.append_assoc]
    rw [hrest]
    exact mxFrame_data (hchs ch (List.mem_cons_self ..)) hc

theorem mxFrames_length (chs : List Channel) (ibuf : Channel → Buffer) :
    (mxFrames chs ibuf).1.length = chs.length := by
  induction chs generalizing ibuf with
  | nil => rfl
  | cons ch chs ih => simp only [mxFrames, List.length_cons, ih]

theorem mxFrames_other {chs : List Channel} (ibuf : Channel → Buffer) {c : Channel} (h : c ∉ chs)
    (h1 : c ≠ .r1) (h2 : c ≠ .r2) : (mxFrames chs ibuf).2 c = ibuf c := by
  induction chs generalizing ibuf with
  | nil => rfl
  | cons ch chs ih =>
    rw [List.mem_cons, not_or] at h
    simp only [mxFrames]
    rw [ih _ h.2, mxFrame_buf_other h.1 h1 h2]

theorem mxFrame_unread_le (ch : Channel) (ibuf : Channel → Buffer) (c : Channel) :
    ((mxFrame ch ibuf).2 c).unread.length ≤ (ibuf c).unread.length := by
  have hle : ∀ (f : Channel → Buffer) (x : Channel),
      ((upd f x (f x).getC.2) c).unread.length ≤ (f c).unread.length := by
    intro f x
    by_cases h : c = x
    · rw [h, upd_self]
      exact Buffer.getC_unread_le _
    · rw [upd_of_ne _ _ h]
  exact Nat.le_trans (hle _ ch) (Nat.le_trans (hle _ .r2) (hle _ .r1))

theorem mxFrame_taken {ch : Channel} (hch : isShared ch) (ibuf : Channel → Buffer) {c : Channel}
    (hc : c = ch ∨ c = .r1 ∨ c = .r2) :
    ((mxFrame ch ibuf).2 c).unread.length ≤ (ibuf c).unread.length - 1 := by
  rcases hc with rfl | rfl | rfl
  · rw [mxFrame_buf_shared hch, Buffer.getC_unread_tail, List.length_tail]
  · rw [mxFrame_buf_r1 hch, Buffer.getC_unread_tail, List.length_tail]
  · rw [mxFrame_buf_r2 hch, Buffer.getC_unread_tail, List.length_tail]

theorem mxFrames_unread_le (chs : List Channel) (ibuf : Channel → Buffer) (c : Channel) :
    ((mxFrames chs ibuf).2 c).unread.length ≤ (ibuf c).unread.length := by
  induction chs generalizing ibuf with
  | nil => exact Nat.le_refl _
  | cons ch chs ih => exact Nat.le_trans (ih _) (mxFrame_unread_le ch ibuf c)

/-- A sequence takes a byte of every channel one of its frames carries. -/
theorem mxFrames_taken {chs : List Channel} (hchs : ∀ ch ∈ chs, isShared ch) (ibuf : Channel → Buffer)
    {c : Channel} (hc : c ∈ chs ∨ (chs ≠ [] ∧ (c = .r1 ∨ c = .r2))) :
    ((mxFrames chs ibuf).2 c).unread.length ≤ (ibuf c).unread.length - 1 := by
  induction chs generalizing ibuf with
  | nil => simp at hc
  | cons ch chs ih =>
    have hch := hchs ch (List.mem_cons_self ..)
    have hrest := mxFrames_unread_le chs (mxFrame ch ibuf).2 c
    by_cases h : c = ch ∨ c = .r1 ∨ c = .r2
    · exact Nat.le_trans hrest (mxFrame_taken hch ibuf h)
    · rw [not_or] at h
      have hmem : c ∈ chs := by
        rcases hc with hc | hc
        · exact (List.mem_cons.1 hc).resolve_left h.1
        · exact absurd hc.2 h.2
      have := ih (fun x hx => hchs x (List.mem_cons_of_mem _ hx)) (mxFrame ch ibuf).2 (.inl hmem)
      have := mxFrame_unread_le ch ibuf c
      simp only [mxFrames]
      omega

/-- The channels `mx_mux` takes bytes from. -/
def isMuxed (c : Channel) : Bool := isData c || c == .control

theorem mem_outChannels_of_muxed {c : Channel} (hc : isMuxed c = true) :
    c ∈ outChannels ∨ (outChannels ≠ [] ∧ (c = .r1 ∨ c = .r2)) := by
  cases c <;> simp_all [isMuxed, isData, outChannels]

theorem mem_outChannels {c : Channel} (hc : isMuxed c = false) :
    c ∉ outChannels ∧ c ≠ .r1 ∧ c ≠ .r2 := by
  cases c <;> simp_all [isMuxed, isData, outChannels]

theorem chanBytes_other {c : Channel} {chs : List Channel} (h : c ∉ chs) (h1 : c ≠ .r1) (h2 : c ≠ .r2)
    (fs : List Frame) : chanBytes c (seqSlots chs fs) = [] := by
  induction fs generalizing chs with
  | nil => cases chs <;> rfl
  | cons f fs ih =>
    cases chs with
    | nil => rfl
    | cons ch chs =>
      rw [List.mem_cons, not_or] at h
      rw [seqSlots, chanBytes_append, ih h.2]
      simp [chanBytes, Frame.slots, Ne.symm h1, Ne.symm h2, Ne.symm h.1]

/-- `trimFrames` cuts the list behind its last used frame. -/
theorem trimFrames_take (fs : List Frame) :
    ∃ k ≤ fs.length, trimFrames fs = fs.take k ∧ ∀ i f, fs[i]? = some f → f.used = true → i < k := by
  induction fs with
  | nil => exact ⟨0, Nat.le_refl _, rfl, by simp⟩
  | cons f fs ih =>
    obtain ⟨k, hk, ht, hu⟩ := ih
    by_cases hfs : trimFrames fs = []
    · have hk0 : k = 0 ∨ fs = [] := by
        rw [hfs] at ht
        simpa [List.take_eq_nil_iff] using ht.symm
      have hnone : ∀ (i : Nat) (g : Frame), fs[i]? = some g → ¬ g.used = true := by
        intro i g hg hgu
        have := hu i g hg hgu
        rcases hk0 with rfl | rfl
        · omega
        · simp at hg
      by_cases hf : f.used = true
      · refine ⟨1, by simp, by simp [trimFrames, hfs, hf], fun i g hg hgu => ?_⟩
        cases i with
        | zero => omega
        | succ i => exact absurd hgu (hnone i g (by simpa using hg))
      · refine ⟨0, by simp, by simp [trimFrames, hfs, hf], fun i g hg hgu => ?_⟩
        cases i with
        | zero =>
          obtain rfl : f = g := by simpa using hg
          exact absurd hgu hf
        | succ i => exact absurd hgu (hnone i g (by simpa using hg))
    · obtain ⟨g, gs, hg⟩ := List.exists_cons_of_ne_nil hfs
      refine ⟨k + 1, by simpa using hk, ?_, fun i h hi hhu => ?_⟩
      · rw [List.take_succ_cons, ← ht]
        simp only [trimFrames, hg]
      · cases i with
        | zero => omega
        | succ i => have := hu i h (by simpa using hi) hhu; omega

theorem chanBytes_unused {f : Frame} (hf : f.used = false) (c ch : Channel) :
    chanBytes c (f.slots ch) = [] := by
  simp only [Frame.used, Bool.or_eq_false_iff, Option.isSome_eq_false_iff, Option.isNone_iff_eq_none]
    at hf
  obtain ⟨⟨h1, h2⟩, h3⟩ := hf
  simp [chanBytes, Frame.slots, h1, h2, h3]

theorem chanBytes_trim (c : Channel) (chs : List Channel) (fs : List Frame) :
    chanBytes c (seqSlots chs (trimFrames fs)) = chanBytes c (seqSlots chs fs) := by
  induction fs generalizing chs with
  | nil => rfl
  | cons f fs ih =>
    cases chs with
    | nil => cases trimFrames (f :: fs) <;> rfl
    | cons ch chs =>
      rw [seqSlots, chanBytes_append, ← ih chs]
      cases hfs : trimFrames fs with
      | nil =>
        by_cases hf : f.used = true
        · simp [trimFrames, hfs, hf, seqSlots]
        · rw [Bool.not_eq_true] at hf
          simp [trimFrames, hfs, hf, seqSlots, chanBytes_unused hf]
      | cons g gs => simp only [trimFrames, hfs, seqSlots, chanBytes_append]

/-- `ctl` is read off the wire while the marked bytes `before` of the control buffer became `after`:
the bytes taken, then idle slots, which appear only once nothing is left. -/
def CtlTaken (ctl before after : List (Bool × UInt8)) : Prop :=
  ∃ taken k, ctl = taken ++ List.replicate k idleSlot ∧ before = taken ++ after ∧ (k = 0 ∨ after = [])

namespace CtlTaken

variable {ctl ctl' a b c : List (Bool × UInt8)}

theorem refl : CtlTaken [] a a := ⟨[], 0, rfl, rfl, .inl rfl⟩

theorem trans (h : CtlTaken ctl a b) (h' : CtlTaken ctl' b c) : CtlTaken (ctl ++ ctl') a c := by
  obtain ⟨t, k, rfl, rfl, hk⟩ := h
  obtain ⟨t', k', rfl, rfl, hk'⟩ := h'
  rcases hk with rfl | hb
  · exact ⟨t ++ t', k', by simp, by simp, hk'⟩
  · obtain ⟨rfl, rfl⟩ := List.append_eq_nil_iff.1 hb
    refine ⟨t, k + k', ?_, by simp, .inr rfl⟩
    rw [List.append_assoc, List.nil_append, List.replicate_append_replicate]

end CtlTaken

/-- The control channel over the frames of a sequence: only its own frame has a slot of it, and that
frame is on the wire when a command byte is in it. -/
theorem mxFrames_control (ibuf : Channel → Buffer) :
    CtlTaken (ctlSlots (seqSlots outChannels (trimFrames (mxFrames outChannels ibuf).1)))
      (ibuf .control).cmdSlots ((mxFrames outChannels ibuf).2 .control).cmdSlots := by
  set ibuf1 := (mxFrame .flags ibuf).2
  set f0 := (mxFrame .flags ibuf).1
  set f1 := (mxFrame .control ibuf1).1
  obtain ⟨gs, hfs, hlen⟩ : ∃ gs, (mxFrames outChannels ibuf).1 = f0 :: f1 :: gs ∧ gs.length = 3 :=
    ⟨_, rfl, mxFrames_length [.winkey, .r1Fsk, .r2Fsk] _⟩
  have hb1 : ibuf1 .control = ibuf .control :=
    mxFrame_buf_other (by decide) (by decide) (by decide)
  have hb2 : (mxFrames outChannels ibuf).2 .control = (mxFrame .control ibuf1).2 .control :=
    @mxFrames_other [.winkey, .r1Fsk, .r2Fsk] _ .control (by decide) (by decide) (by decide)
  obtain ⟨hslot, htail⟩ := @mxFrame_control ibuf1
  rw [hb1] at hslot htail
  rw [hb2, htail]
  obtain ⟨k, -, ht, hu⟩ := trimFrames_take (mxFrames outChannels ibuf).1
  rw [ht, hfs]
  -- behind the control frame no frame has a control slot
  have hrest : ∀ j, ctlSlots (seqSlots [.winkey, .r1Fsk, .r2Fsk] (gs.take j)) = [] := by
    intro j
    match gs, hlen with
    | [g2, g3, g4], _ =>
      have e2 := @mxFrame_ctl_other .winkey (by decide) g2
      have e3 := @mxFrame_ctl_other .r1Fsk (by decide) g3
      have e4 := @mxFrame_ctl_other .r2Fsk (by decide) g4
      match j with
      | 0 => rfl
      | 1 => simpa [seqSlots] using e2
      | 2 => simp [seqSlots, ctlSlots_append, e2, e3]
      | j + 3 => simp [seqSlots, ctlSlots_append, e2, e3, e4]
  have e0 := @mxFrame_ctl_other .flags (by decide) f0
  have hk2 : 2 ≤ k → ctlSlots (seqSlots outChannels ((f0 :: f1 :: gs).take k)) =
      ctlSlots (f1.slots .control) := by
    intro hk
    obtain ⟨j, rfl⟩ : ∃ j, k = j + 2 := ⟨k - 2, by omega⟩
    simp [outChannels, seqSlots, ctlSlots_append, e0, hrest j]
  cases hcmd : (ibuf .control).cmdSlots with
  | nil =>
    rcases Nat.lt_or_ge k 2 with hk | hk
    · refine ⟨[], 0, ?_, rfl, .inl rfl⟩
      match k, hk with
      | 0, _ => rfl
      | 1, _ => simp [outChannels, seqSlots, e0]
    · rw [hk2 hk, hslot, hcmd]
      exact ⟨[], 1, rfl, rfl, .inr rfl⟩
  | cons s ss =>
    have hk : 2 ≤ k := by
      refine hu 1 f1 (by rw [hfs]; rfl) ?_
      have hne : (ibuf .control).unread ≠ [] := fun h => by
        rw [Buffer.cmdSlots_nil h] at hcmd; simp at hcmd
      obtain ⟨x, xs, hx⟩ := List.exists_cons_of_ne_nil hne
      have hsome : f1.shared.isSome = true := by
        rw [show f1 = (mxFrame .control ibuf1).1 from rfl, mxFrame_shared ⟨by decide, by decide⟩,
          hb1, (Buffer.getC_cons _ hx).1]
        rfl
      simp [Frame.used, hsome]
    rw [hk2 hk, hslot, hcmd]
    exact ⟨[s], 0, rfl, rfl, .inl rfl⟩

/-! ### The loop -/

/-- `w`, read from any state, hands over the fronts of the channel buffers `ibuf` and leaves
`ibuf'`. -/
structure Muxed (ibuf ibuf' : Channel → Buffer) (w : List UInt8) : Prop where
  data : ∀ (d : RefDec) c, isData c = true →
    chanBytes c (d.slots w) ++ (ibuf' c).unread = (ibuf c).unread
  ctl : ∀ d : RefDec, CtlTaken (ctlSlots (d.slots w)) (ibuf .control).cmdSlots (ibuf' .control).cmdSlots
  none : ∀ (d : RefDec) c, isMuxed c = false → chanBytes c (d.slots w) = []
  other : ∀ c, isMuxed c = false → ibuf' c = ibuf c

namespace Muxed

variable {ibuf ibuf' ibuf'' : Channel → Buffer} {w w' : List UInt8}

theorem refl : Muxed ibuf ibuf [] :=
  ⟨fun _ _ _ => rfl, fun _ => .refl, fun _ _ _ => rfl, fun _ _ => rfl⟩

theorem trans (h : Muxed ibuf ibuf' w) (h' : Muxed ibuf' ibuf'' w') : Muxed ibuf ibuf'' (w ++ w') where
  data d c hc := by
    rw [RefDec.slots, Mealy.out_append, chanBytes_append, List.append_assoc, h'.data _ c hc, h.data d c hc]
  ctl d := by
    rw [RefDec.slots, Mealy.out_append, ctlSlots_append]
    exact (h.ctl d).trans (h'.ctl _)
  none d c hc := by
    rw [RefDec.slots, Mealy.out_append, chanBytes_append, h'.none _ c hc, h.none d c hc, List.nil_append]
  other c hc := (h'.other c hc).trans (h.other c hc)

/-- Nothing is put into a channel. -/
theorem unread_le (h : Muxed ibuf ibuf' w) (c : Channel) :
    (ibuf' c).unread.length ≤ (ibuf c).unread.length := by
  by_cases hd : isData c = true
  · have := congrArg List.length (h.data .init c hd)
    rw [List.length_append] at this
    omega
  by_cases hctl : c = .control
  · obtain ⟨taken, -, -, hb, -⟩ := h.ctl .init
    have := congrArg List.length hb
    rw [List.length_append, Buffer.cmdSlots_length, Buffer.cmdSlots_length] at this
    rw [hctl]
    omega
  · rw [h.other c (by simp [isMuxed, hd, hctl])]

theorem seq (ibuf : Channel → Buffer) :
    Muxed ibuf (mxFrames outChannels ibuf).2 (seqBytes (trimFrames (mxFrames outChannels ibuf).1)) := by
  have hlen : (trimFrames (mxFrames outChannels ibuf).1).length ≤ 5 := by
    obtain ⟨k, -, ht, -⟩ := trimFrames_take (mxFrames outChannels ibuf).1
    rw [ht, List.length_take, mxFrames_length]
    exact Nat.min_le_right _ _
  refine ⟨fun d c hc => ?_, fun d => ?_, fun d c hc => ?_, fun c hc => ?_⟩
  · rw [RefDec.slots, seqBytes_sync hlen d, chanBytes_trim]
    exact mxFrames_data outChannels_shared ibuf hc
  · rw [RefDec.slots, seqBytes_sync hlen d]
    exact mxFrames_control ibuf
  · obtain ⟨h0, h1, h2⟩ := mem_outChannels hc
    rw [RefDec.slots, seqBytes_sync hlen d]
    exact chanBytes_other h0 h1 h2 _
  · obtain ⟨h0, h1, h2⟩ := mem_outChannels hc
    exact mxFrames_other ibuf h0 h1 h2

end Muxed

theorem seqBytes_length (fs : List Frame) : (seqBytes fs).length = 4 * fs.length := by
  have h : ∀ gs : List Frame, (gs.flatMap (Frame.bytes false)).length = 4 * gs.length := by
    intro gs
    induction gs with
    | nil => rfl
    | cons g gs ih => rw [List.flatMap_cons, List.length_append, ih, List.length_cons]; simp [Frame.bytes]; omega
  cases fs with
  | nil => rfl
  | cons f fs => rw [seqBytes, List.length_append, h, List.length_cons]; simp [Frame.bytes]; omega

theorem seqBytes_trim_length (ibuf : Channel → Buffer) :
    (seqBytes (trimFrames (mxFrames outChannels ibuf).1)).length ≤ MAX_SEQUENCE_SIZE := by
  obtain ⟨k, hk, ht, -⟩ := trimFrames_take (mxFrames outChannels ibuf).1
  rw [mxFrames_length] at hk
  rw [seqBytes_length, ht, List.length_take, mxFrames_length]
  have : outChannels.length = 5 := rfl
  simp only [MAX_SEQUENCE_SIZE]
  omega

/-- A mux call appends `w` to the output buffer and takes it from the channel buffers. -/
structure MuxOut (bout : Buffer) (ibuf : Channel → Buffer) (r : Buffer × (Channel → Buffer) × Nat)
    (w : List UInt8) : Prop where
  unread : r.1.unread = bout.unread ++ w
  size : r.1.size = bout.size + w.length
  muxed : Muxed ibuf r.2.1 w

theorem mxLoop_out (fuel : Nat) (bout : Buffer) (ibuf : Channel → Buffer) (n : Nat)
    (hroom : MAX_SEQUENCE_SIZE ≤ bout.avail) :
    ∃ w, MuxOut bout ibuf (mxLoop fuel bout ibuf n) w ∧ (mxLoop fuel bout ibuf n).2.2 = n + w.length := by
  induction fuel generalizing bout ibuf n with
  | zero => exact ⟨[], ⟨by simp [mxLoop], by simp [mxLoop], .refl⟩, rfl⟩
  | succ fuel ih =>
    have hm := Muxed.seq ibuf
    have hfit := Nat.le_trans (seqBytes_trim_length ibuf) hroom
    cases hfs : trimFrames (mxFrames outChannels ibuf).1 with
    | nil =>
      rw [hfs] at hm
      refine ⟨[], ⟨?_, ?_, ?_⟩, ?_⟩ <;> simp only [mxLoop, hfs, List.append_nil, List.length_nil, Nat.add_zero]
      exact hm
    | cons f fs =>
      rw [hfs] at hm hfit
      have hu := Buffer.unread_append_of_le bout hfit
      have hd := Buffer.size_append_of_le hfit
      by_cases hr : MAX_SEQUENCE_SIZE ≤ (bout.append (seqBytes (f :: fs))).avail
      · obtain ⟨w, ⟨h1, h2, h3⟩, h4⟩ := ih (bout.append (seqBytes (f :: fs))) (mxFrames outChannels ibuf).2
          (n + (seqBytes (f :: fs)).length) hr
        refine ⟨seqBytes (f :: fs) ++ w, ⟨?_, ?_, ?_⟩, ?_⟩ <;> simp only [mxLoop, hfs, hr, if_true]
        · rw [h1, hu, List.append_assoc]
        · rw [h2, hd, List.length_append, Nat.add_assoc]
        · exact hm.trans h3
        · rw [h4, List.length_append, Nat.add_assoc]
      · refine ⟨seqBytes (f :: fs), ⟨?_, ?_, ?_⟩, ?_⟩ <;> simp only [mxLoop, hfs, hr, if_false]
        · exact hu
        · exact hd
        · exact hm

theorem mxFrames_outChannels_taken (ibuf : Channel → Buffer) {c : Channel} (hc : isMuxed c = true) :
    ((mxFrames outChannels ibuf).2 c).unread.length ≤ (ibuf c).unread.length - 1 :=
  mxFrames_taken outChannels_shared ibuf (mem_outChannels_of_muxed hc)

/-- One call of `mx_mux`, for every room left in the output buffer. -/
theorem mxMux_out (bout : Buffer) (ibuf : Channel → Buffer) :
    ∃ w, MuxOut bout ibuf (mxMux bout ibuf) w ∧ (mxMux bout ibuf).2.2 = w.length := by
  by_cases h : bout.avail < MAX_SEQUENCE_SIZE
  · exact ⟨[], ⟨by simp [mxMux, h], by simp [mxMux, h], by simp [mxMux, h, Muxed.refl]⟩, by simp [mxMux, h]⟩
  · obtain ⟨w, hw, hn⟩ := mxLoop_out BUFFER_CAPACITY bout ibuf 0 (Nat.le_of_not_lt h)
    refine ⟨w, ?_, ?_⟩ <;> simp only [mxMux, h, if_false]
    · exact hw
    · rw [hn, Nat.zero_add]

theorem mxLoop_progress (fuel : Nat) (bout : Buffer)
    (ibuf : Channel → Buffer) (n : Nat) {c : Channel} (hc : isMuxed c = true) :
    ((mxLoop (fuel + 1) bout ibuf n).2.1 c).unread.length ≤ (ibuf c).unread.length - 1 := by
  have htaken := mxFrames_outChannels_taken ibuf hc
  cases hfs : trimFrames (mxFrames outChannels ibuf).1 with
  | nil =>
    simp only [mxLoop, hfs]
    exact htaken
  | cons f fs =>
    by_cases hr : MAX_SEQUENCE_SIZE ≤ (bout.append (seqBytes (f :: fs))).avail
    · obtain ⟨w, hw, -⟩ := mxLoop_out fuel _ (mxFrames outChannels ibuf).2
        (n + (seqBytes (f :: fs)).length) hr
      have := hw.muxed.unread_le c
      simp only [mxLoop, hfs, hr, if_true]
      omega
    · simp only [mxLoop, hfs, hr, if_false]
      exact htaken

/-- With room for a sequence, a byte of every channel that has one is taken. -/
theorem mxMux_progress {bout : Buffer} (hroom : MAX_SEQUENCE_SIZE ≤ bout.avail) (ibuf : Channel → Buffer)
    {c : Channel} (hc : isMuxed c = true) :
    ((mxMux bout ibuf).2.1 c).unread.length ≤ (ibuf c).unread.length - 1 := by
  rw [mxMux, if_neg (Nat.not_lt.2 hroom)]
  exact mxLoop_progress 4095 bout ibuf 0 hc

end Mhuxd
