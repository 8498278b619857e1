import Mhuxd.AsciiReplay
import Mhuxd.CatClients
import Mhuxd.CivReplay
import Mhuxd.TraceRoundTrip
import Mhuxd.YbinReplay

/-!
# Frames in a trace

The framers of a decoder never hold more than their buffers, and what a decoder gives to its callback has the length
and the client that a trace line has room for (`Bounded`). So the line of every frame of every run is whole, and the
replay tool reads it back (`trace_line_round_trip`).
-/

namespace Mhuxd

variable {dir : CatDir} {client t : Nat} {src : Src} {b : UInt8} {f buf : List UInt8}

theorem length_concat_le {n : Nat} (h : buf.length < n) : (buf ++ [b]).length ≤ n := by
  rw [List.length_append, List.length_singleton]
  exact h

/-- A sender's number. -/
def Sends (dir : CatDir) (client : Nat) : Prop := dir = .host → 1 ≤ client ∧ client ≤ CAT_MAX_CLIENTS

theorem sends_of (h : Src.of dir client = some src) : Sends dir (if dir = .host then client else 0) := by
  rintro rfl
  unfold Src.of at h
  dsimp only at h
  split_ifs at h with hc
  rwa [if_pos rfl]

/-- A frame with room in a buffer of `n` bytes, from a client that there is. -/
structure Emit.Framed (n : Nat) (e : Emit) : Prop where
  length : e.frame.buf.length ≤ n
  sends : Sends e.frame.dir e.frame.client

/-! ### CI-V -/

namespace Civ

variable {civ : Civ}

structure Bounded (civ : Civ) : Prop where
  rx : ∀ src, (civ.rx src).buf.length < CIV_MAX_FRAME
  out : ∀ e ∈ civ.out, e.Framed CIV_MAX_FRAME

namespace Bounded

theorem create (radioAddr : UInt8) (freqLen : Nat) (st : CatState) : Bounded (.create radioAddr freqLen st) :=
  ⟨fun _ => (by decide : 0 < CIV_MAX_FRAME), fun _ he => absurd he List.not_mem_nil⟩

theorem setRx (h : Bounded civ) (src : Src) (rx : CivRx) (hrx : rx.buf.length < CIV_MAX_FRAME) :
    Bounded (civ.setRx src rx) := by
  refine ⟨fun s => ?_, h.out⟩
  rw [setRx_rx, Function.update_apply]
  split_ifs
  · exact hrx
  · exact h.rx s

theorem rxState (h : Bounded civ) (src : Src) (state : RxState) : Bounded (civ.rxState src state) :=
  h.setRx src _ (h.rx src)

theorem emit (h : Bounded civ) {kind : FrameKind} {applied own : Bool} (hlen : f.length ≤ CIV_MAX_FRAME)
    (hs : Sends dir client) : Bounded (civ.emit kind dir f applied own client t) :=
  ⟨h.rx, forall_mem_concat h.out ⟨hlen, hs⟩⟩

theorem processFrame (h : Bounded civ) (hlen : f.length ≤ CIV_MAX_FRAME) (hs : Sends dir client) :
    Bounded (civ.processFrame dir client f t) := by
  obtain ⟨e, he, hout, -⟩ : Judges dir client f t (fun civ => civ.processFrame dir client f t) civ := judges_frame civ
  have hsends : Sends e.frame.dir e.frame.client := by
    intro hd
    rw [he.dir] at hd
    rw [he.client (by rw [hd]; decide)]
    exact hs hd
  refine ⟨fun s => ?_, ?_⟩
  · rw [processFrame_rx]
    exact h.rx s
  · rw [hout]
    exact forall_mem_concat h.out ⟨by rw [he.buf]; exact hlen, hsends⟩

theorem empty_lt (rx : CivRx) : ({ rx with buf := [] } : CivRx).buf.length < CIV_MAX_FRAME :=
  (by decide : 0 < CIV_MAX_FRAME)

theorem rxDrop (h : Bounded civ) (hs : Sends dir client) (src : Src) : Bounded (civ.rxDrop dir client src t) := by
  unfold Civ.rxDrop
  dsimp only
  split_ifs
  · exact (h.emit (h.rx src).le hs).setRx src _ (empty_lt _)
  · exact h.setRx src _ (empty_lt _)

theorem rxJam (h : Bounded civ) (hs : Sends dir client) (src : Src) : Bounded (civ.rxJam dir client src t) := by
  have hlost : Bounded (if dir = .radio then civ.markLost t else civ) := by
    split_ifs
    · exact ⟨h.rx, h.out⟩
    · exact h
  exact ((hlost.rxDrop hs src).emit (by decide) hs).rxState _ _

theorem rxFrame (h : Bounded civ) (hs : Sends dir client) (src : Src) (b : UInt8) :
    Bounded (civ.rxFrame dir client src b t) := by
  have hroom := h.rx src
  have hlen : ((civ.rx src).buf ++ [b]).length ≤ CIV_MAX_FRAME := length_concat_le hroom
  unfold Civ.rxFrame
  dsimp only
  split_ifs with _ _ _ _ hmax
  · exact (h.rxDrop hs src).rxState _ _
  · exact h
  · exact ((h.processFrame hlen hs).setRx src _ (empty_lt _)).rxState _ _
  · exact (h.rxDrop hs src).rxState _ _
  · exact h.setRx src _ (by rw [List.length_append, List.length_singleton]; exact hmax)
  · exact (h.rxDrop hs src).rxState _ _

theorem rxByte (h : Bounded civ) (hs : Sends dir client) (src : Src) (b : UInt8) :
    Bounded (civ.rxByte dir client src b t) := by
  have hn := h.setRx src { civ.rx src with tMs := t } (h.rx src)
  unfold Civ.rxByte
  dsimp only
  generalize civ.setRx src { civ.rx src with tMs := t } = a at hn ⊢
  by_cases hcol : b = CIV_COL
  · rw [if_pos hcol]
    exact hn.rxJam hs src
  · rw [if_neg hcol]
    rcases (a.rx src).state with _ | _ | _ | _
    · dsimp only
      split_ifs
      · exact hn.rxState _ _
      · exact hn
    · dsimp only
      split_ifs
      · exact hn.setRx src _ (by decide : 2 < CIV_MAX_FRAME)
      · exact hn.rxState _ _
    · exact hn.rxFrame hs src b
    · dsimp only
      split_ifs
      · exact hn.rxState _ _
      · exact hn.rxState _ _
      · exact hn

theorem feed (h : Bounded civ) (dir : CatDir) (client : Nat) (buf : List UInt8) (t : Nat) :
    Bounded (civ.feed dir client buf t) := by
  unfold Civ.feed
  split
  · exact h
  · next src hsrc =>
    induction buf generalizing civ with
    | nil => exact h
    | cons b buf ih => exact ih (h.rxByte (sends_of hsrc) src b)

theorem clientDiscard (h : Bounded civ) (client : Nat) : Bounded (civ.clientDiscard client) := by
  unfold Civ.clientDiscard
  dsimp only
  split_ifs
  · have hrx := h.setRx (.client client) { civ.rx (.client client) with buf := [], state := .idle }
      (by decide : 0 < CIV_MAX_FRAME)
    exact ⟨hrx.rx, hrx.out⟩
  · exact h

end Bounded

end Civ

/-! ### The ASCII protocols -/

namespace Ascii

variable {a : Ascii}

structure Bounded (a : Ascii) : Prop where
  rx : ∀ src, (a.rx src).buf.length < ASCII_MAX_FRAME
  out : ∀ e ∈ a.out, e.Framed ASCII_MAX_FRAME

namespace Bounded

theorem create (dialect : Dialect) (noData : Bool) (st : CatState) : Bounded (.create dialect noData st) :=
  ⟨fun _ => (by decide : 0 < ASCII_MAX_FRAME), fun _ he => absurd he List.not_mem_nil⟩

theorem setRx (h : Bounded a) (src : Src) (rx : AsciiRx) (hrx : rx.buf.length < ASCII_MAX_FRAME) :
    Bounded (a.setRx src rx) := by
  refine ⟨fun s => ?_, h.out⟩
  by_cases hs : s = src
  · rw [hs, setRx_rx_self]
    exact hrx
  · rw [setRx_rx_of_ne a hs]
    exact h.rx s

theorem emit (h : Bounded a) {kind : FrameKind} {applied own : Bool} (hlen : f.length ≤ ASCII_MAX_FRAME)
    (hs : Sends dir client) : Bounded (a.emit kind dir f applied own client t) :=
  ⟨h.rx, forall_mem_concat h.out ⟨hlen, hs⟩⟩

theorem processFrame (h : Bounded a) (hlen : f.length ≤ ASCII_MAX_FRAME) (hs : Sends dir client) :
    Bounded (a.processFrame dir client f t) := by
  obtain ⟨e, hout, hdir, hbuf, -, hclient⟩ := processFrame_out a dir client f t
  have hsends : Sends e.frame.dir e.frame.client := by
    intro hd
    rw [hdir] at hd
    rw [hclient hd]
    exact hs hd
  refine ⟨fun s => ?_, ?_⟩
  · rw [processFrame_own_rx]
    exact h.rx s
  · rw [hout]
    exact forall_mem_concat h.out ⟨by rw [hbuf]; exact hlen, hsends⟩

theorem rxByte (h : Bounded a) (hs : Sends dir client) (src : Src) (b : UInt8) :
    Bounded (a.rxByte dir client src b t) := by
  have hroom := h.rx src
  have hlen : ((a.rx src).buf ++ [b]).length ≤ ASCII_MAX_FRAME := length_concat_le hroom
  have hempty : (⟨[], t⟩ : AsciiRx).buf.length < ASCII_MAX_FRAME := (by decide : 0 < ASCII_MAX_FRAME)
  unfold Ascii.rxByte
  dsimp only
  split_ifs with _ _ hdrop
  · exact (h.processFrame hlen hs).setRx src _ hempty
  · exact h.setRx src _ hempty
  · exact (h.emit hlen hs).setRx src _ hempty
  · refine h.setRx src ⟨_, t⟩ ?_
    rw [not_or, not_or] at hdrop
    rw [List.length_append, List.length_singleton]
    exact not_le.1 hdrop.2.2

theorem feed (h : Bounded a) (dir : CatDir) (client : Nat) (buf : List UInt8) (t : Nat) :
    Bounded (a.feed dir client buf t) := by
  unfold Ascii.feed
  split
  · exact h
  · next src hsrc =>
    induction buf generalizing a with
    | nil => exact h
    | cons b buf ih => exact ih (h.rxByte (sends_of hsrc) src b)

theorem clientDiscard (h : Bounded a) (client : Nat) : Bounded (a.clientDiscard client) := by
  unfold Ascii.clientDiscard
  dsimp only
  split_ifs
  · have hrx := h.setRx (.client client) { a.rx (.client client) with buf := [] } (by decide : 0 < ASCII_MAX_FRAME)
    exact ⟨hrx.rx, hrx.out⟩
  · exact h

end Bounded

end Ascii

/-! ### The older Yaesu radios -/

namespace Ybin

variable {y y' : Ybin} {p : YbinPending}

/-- Bytes of an answer are given to the callback when the buffer is full. -/
structure Bounded (y : Ybin) : Prop where
  rx : ∀ src, (y.rx src).buf.length < YBIN_CMD_LEN
  ans : y.ans.length < YBIN_MAX_FRAME
  out : ∀ e ∈ y.out, e.Framed YBIN_MAX_FRAME

namespace Bounded

theorem create (model : YbinModel) (st : CatState) : Bounded (.create model st) :=
  ⟨fun _ => (by decide : 0 < YBIN_CMD_LEN), (by decide : 0 < YBIN_MAX_FRAME), fun _ he => absurd he List.not_mem_nil⟩

theorem of_noted (h : Bounded y) (hn : Noted y y') : Bounded y' := by
  obtain ⟨st, rfl, -⟩ := hn
  exact ⟨h.rx, h.ans, h.out⟩

theorem setRx (h : Bounded y) (src : Src) (rx : YbinRx) (hrx : rx.buf.length < YBIN_CMD_LEN) : Bounded (y.setRx src rx) := by
  refine ⟨fun s => ?_, h.ans, h.out⟩
  rw [Ybin.setRx]
  dsimp only
  rw [Function.update_apply]
  split_ifs
  · exact hrx
  · exact h.rx s

theorem emit (h : Bounded y) {kind : FrameKind} {applied own : Bool} (hlen : f.length ≤ YBIN_MAX_FRAME)
    (hs : Sends dir client) : Bounded (y.emit kind dir f applied own client t) :=
  ⟨h.rx, h.ans, forall_mem_concat h.out ⟨hlen, hs⟩⟩

theorem sends_radio (client : Nat) : Sends .radio client := nofun

theorem pendRemove (h : Bounded y) : Bounded (y.pendRemove 0) := ⟨h.rx, (by decide : 0 < YBIN_MAX_FRAME), h.out⟩

/-- The answer may fill the buffer. -/
theorem answerDone (hrx : ∀ src, (y.rx src).buf.length < YBIN_CMD_LEN) (hans : y.ans.length ≤ YBIN_MAX_FRAME)
    (hout : ∀ e ∈ y.out, e.Framed YBIN_MAX_FRAME) (p : YbinPending) (complete : Bool) (t : Nat) :
    Bounded (y.answerDone p complete t) := by
  obtain ⟨st, kind, applied, -, heq⟩ := y.answerDone_eq p complete t
  have hanswered : Bounded (y.answered st t) := ⟨hrx, (by decide : 0 < YBIN_MAX_FRAME), hout⟩
  rw [heq]
  split
  · exact hanswered
  · exact hanswered.emit hans (sends_radio _)

theorem pendEnd (h : Bounded y) (p : YbinPending) (t : Nat) : Bounded (y.pendEnd p t) := by
  unfold Ybin.pendEnd
  split_ifs
  · exact answerDone h.rx h.ans.le h.out p false t
  · exact h.pendRemove

theorem expireLoop (h : Bounded y) (t n : Nat) : Bounded (Ybin.expireLoop t n y) := by
  induction n generalizing y with
  | zero => exact h
  | succ n ih =>
    unfold Ybin.expireLoop
    split
    · exact h
    · split_ifs
      · exact h
      · exact ih (h.pendEnd _ t)

theorem pendExpire (h : Bounded y) (t : Nat) : Bounded (y.pendExpire t) := h.expireLoop t _

theorem giveupLoop (h : Bounded y) (t n : Nat) : Bounded (Ybin.giveupLoop t n y) := by
  induction n generalizing y with
  | zero => exact h
  | succ n ih =>
    unfold Ybin.giveupLoop
    split
    · exact h
    · split_ifs
      · exact ih h.pendRemove
      · exact h

theorem pendAdd (h : Bounded y) (c : List UInt8) (len : Nat × Bool) (own : Bool) (client t : Nat) :
    Bounded (y.pendAdd c len own client t) := by
  have hroom : Bounded (y.pendRoom t) := by
    unfold Ybin.pendRoom
    split
    · exact h
    · split_ifs
      · exact h.pendEnd _ t
      · exact h
  exact ⟨hroom.rx, hroom.ans, hroom.out⟩

theorem paced (h : Bounded y) (c : List UInt8) : Bounded (y.paced c) := by
  unfold Ybin.paced
  split_ifs
  · exact ⟨h.rx, h.ans, h.out⟩
  · exact h

theorem ready (h : Bounded y) (c : List UInt8) (t : Nat) : Bounded (y.ready c t) :=
  paced (((h.of_noted noted_vfo).pendExpire t).giveupLoop t _) c

theorem command (h : Bounded y) {c : List UInt8} (hlen : c.length ≤ YBIN_MAX_FRAME) (hs : Sends dir client) (t : Nat) :
    Bounded (y.command dir client c t) := by
  obtain ⟨st, kind, applied, heq⟩ := y.command_eq dir client c t
  have htaken : Bounded (y.taken c (dir == .own) client t) := by
    have hready := h.ready c t
    unfold Ybin.taken
    split_ifs
    · exact hready.pendAdd _ _ _ _ _
    · exact ⟨hready.rx, hready.ans, hready.out⟩
  have hst : Bounded { y.taken c (dir == .own) client t with st := st } := ⟨htaken.rx, htaken.ans, htaken.out⟩
  rw [heq]
  exact hst.emit hlen hs

theorem answerByte (h : Bounded y) (p : YbinPending) (ps : List YbinPending) (b : UInt8) (t : Nat) :
    Bounded (y.answerByte p ps b t) := by
  have hv := h.of_noted (noted_vfo (t := t))
  unfold Ybin.answerByte
  dsimp only
  generalize (if y.st.vfoAb.valid then y else y.selectVfo false t) = z at hv ⊢
  have hlen : (z.ans ++ [b]).length ≤ YBIN_MAX_FRAME := length_concat_le hv.ans
  split_ifs with _ hfull
  · exact answerDone (y := { z with
      pend := { p with got := p.got + 1, tLast := t } :: ps
      ans := z.ans ++ [b] }) hv.rx hlen hv.out _ true t
  · exact ⟨hv.rx, (by decide : 0 < YBIN_MAX_FRAME), forall_mem_concat hv.out ⟨hlen, sends_radio _⟩⟩
  · exact ⟨hv.rx, lt_of_le_of_ne hlen hfull, hv.out⟩

theorem radioByte (h : Bounded y) (b : UInt8) (t : Nat) : Bounded (y.radioByte b t) := by
  have he := h.pendExpire t
  unfold Ybin.radioByte
  dsimp only
  split
  · exact he.emit (by decide : 1 ≤ YBIN_MAX_FRAME) (sends_radio _)
  · exact he.answerByte _ _ b t

theorem rxExpire (h : Bounded y) (hs : Sends dir client) (src : Src) (t : Nat) : Bounded (y.rxExpire dir client src t) := by
  have hlen : (y.rx src).buf.length ≤ YBIN_MAX_FRAME := (h.rx src).le.trans (by decide)
  unfold Ybin.rxExpire
  dsimp only
  split_ifs
  · exact h
  · exact (h.emit hlen hs).setRx src { y.rx src with buf := [] } (by decide : 0 < YBIN_CMD_LEN)

theorem hostByte (h : Bounded y) (hs : Sends dir client) (src : Src) (b : UInt8) (t : Nat) :
    Bounded (y.hostByte dir client src b t) := by
  have he := h.rxExpire hs src t
  have hroom := he.rx src
  have hlen : (((y.rxExpire dir client src t).rx src).buf ++ [b]).length ≤ YBIN_CMD_LEN := length_concat_le hroom
  unfold Ybin.hostByte
  dsimp only
  split_ifs with hfull
  · exact (he.setRx src ⟨[], t⟩ (by decide : 0 < YBIN_CMD_LEN)).command (hlen.trans (by decide)) hs t
  · exact he.setRx src ⟨_, t⟩ (lt_of_le_of_ne hlen hfull)

theorem feed (h : Bounded y) (dir : CatDir) (client : Nat) (buf : List UInt8) (t : Nat) :
    Bounded (y.feed dir client buf t) := by
  unfold Ybin.feed
  split
  · exact h
  · induction buf generalizing y with
    | nil => exact h
    | cons b buf ih => exact ih (h.radioByte b t)
  · next src _ hsrc =>
    induction buf generalizing y with
    | nil => exact h
    | cons b buf ih => exact ih (h.hostByte (sends_of hsrc) src b t)

theorem clientDiscard (h : Bounded y) (client : Nat) : Bounded (y.clientDiscard client) := by
  have hrx := h.setRx (.client client) { y.rx (.client client) with buf := [] } (by decide : 0 < YBIN_CMD_LEN)
  have hw : ∀ hold pend, Bounded { y.setRx (.client client) { y.rx (.client client) with buf := [] } with
      hold := hold
      pend := pend } := fun _ _ => ⟨hrx.rx, hrx.ans, hrx.out⟩
  unfold Ybin.clientDiscard
  dsimp only
  split_ifs
  · split
    · exact hw _ _
    · split_ifs
      · exact hw _ _
      · exact (hw _ _).pendEnd _ _
  · exact h

theorem expire (h : Bounded y) (t : Nat) : Bounded (y.expire t) := by
  have hclients : ∀ (cs : List Nat) (z : Ybin), (∀ c ∈ cs, c < CAT_MAX_CLIENTS) → Bounded z →
      Bounded (cs.foldl (fun y c => y.rxExpire .host (c + 1) (.client (c + 1)) t) z) := by
    intro cs
    induction cs with
    | nil => exact fun _ _ hz => hz
    | cons c cs ih =>
      intro z hcs hz
      have hsends : Sends .host (c + 1) := fun _ => ⟨Nat.le_add_left 1 c, hcs c List.mem_cons_self⟩
      exact ih _ (fun d hd => hcs d (List.mem_cons_of_mem _ hd)) (hz.rxExpire hsends _ t)
  have hown : Sends .own 0 := nofun
  exact ((hclients _ y (fun c hc => List.mem_range.1 hc) h).rxExpire hown .own t).pendExpire t

end Bounded

end Ybin

/-! ### Runs of a decoder -/

/-- A decoder and its configuration. -/
inductive DecConfig
  | civ (radioAddr : UInt8) (freqLen : Nat)
  | ascii (dialect : Dialect) (noData : Bool)
  | ybin (model : YbinModel)

def DecConfig.create (st : CatState) : DecConfig → Dec
  | civ radioAddr freqLen => .civ (.create radioAddr freqLen st)
  | ascii dialect noData => .ascii (.create dialect noData st)
  | ybin model => .ybin (.create model st)

/-- The calls of a decoder that may give frames to the callback, or take commands off. -/
inductive DecCall
  | feed (f : Feed)
  | clientDiscard (client : Nat)
  | expire (t : Nat)
  | resend (max t : Nat)

namespace Dec

variable {d : Dec}

def call (d : Dec) : DecCall → Dec
  | .feed f => d.feed f.dir f.client f.buf f.tMs
  | .clientDiscard client => d.clientDiscard client
  | .expire t => d.expire t
  | .resend max t => (d.resend max t).1

/-- The field `text` of the decoder's frames. -/
def text : Dec → Bool
  | .ascii _ => true
  | _ => false

def Bounded : Dec → Prop
  | .civ c => c.Bounded
  | .ascii a => a.Bounded
  | .ybin y => y.Bounded

theorem bounded_create (c : DecConfig) (st : CatState) : (c.create st).Bounded := by
  cases c with
  | civ radioAddr freqLen => exact Civ.Bounded.create radioAddr freqLen st
  | ascii dialect noData => exact Ascii.Bounded.create dialect noData st
  | ybin model => exact Ybin.Bounded.create model st

theorem Bounded.call (h : d.Bounded) (x : DecCall) : (d.call x).Bounded := by
  cases d with
  | civ c =>
    cases x with
    | feed f => exact Civ.Bounded.feed h f.dir f.client f.buf f.tMs
    | clientDiscard client => exact Civ.Bounded.clientDiscard h client
    | expire t => exact h
    | resend max t => exact ⟨h.rx, h.out⟩
  | ascii a =>
    cases x with
    | feed f => exact Ascii.Bounded.feed h f.dir f.client f.buf f.tMs
    | clientDiscard client => exact Ascii.Bounded.clientDiscard h client
    | expire t => exact h
    | resend max t => exact h
  | ybin y =>
    cases x with
    | feed f => exact Ybin.Bounded.feed h f.dir f.client f.buf f.tMs
    | clientDiscard client => exact Ybin.Bounded.clientDiscard h client
    | expire t => exact Ybin.Bounded.expire h t
    | resend max t => exact h

/-- The framers of a decoder take nothing from a client that there isn't. -/
theorem feed_none (h : Src.of dir client = none) (d : Dec) (buf : List UInt8) (t : Nat) :
    d.feed dir client buf t = d := by
  cases d with
  | civ c => simp only [feed, Civ.feed, h]
  | ascii a => simp only [feed, Ascii.feed, h]
  | ybin y => simp only [feed, Ybin.feed, h]

theorem within_create (c : DecConfig) (st : CatState) : (c.create st).Within (· ≤ CAT_MAX_CLIENTS) := by
  have hno : ∀ e ∈ ([] : List Emit), e.ClientIn (· ≤ CAT_MAX_CLIENTS) := fun _ he => absurd he List.not_mem_nil
  cases c with
  | civ radioAddr freqLen => exact ⟨fun _ hp => absurd hp List.not_mem_nil, fun _ _ => Nat.zero_le _, hno⟩
  | ascii dialect noData => exact ⟨fun _ hp => absurd hp List.not_mem_nil, hno⟩
  | ybin model => exact ⟨fun _ hp => absurd hp List.not_mem_nil, hno⟩

theorem Within.call (h : d.Within (· ≤ CAT_MAX_CLIENTS)) (x : DecCall) : (d.call x).Within (· ≤ CAT_MAX_CLIENTS) := by
  cases x with
  | feed f =>
    rcases hsrc : Src.of f.dir f.client with _ | src
    · rw [Dec.call, feed_none hsrc]
      exact h
    · refine h.feed (Nat.zero_le _) (fun hd => ?_) f.buf f.tMs
      have hs := sends_of hsrc hd
      rw [if_pos hd] at hs
      exact hs.2
  | clientDiscard client => exact h.clientDiscard client
  | expire t => exact h.expire t
  | resend max t => exact h.resend max t

theorem fits_drain (h : d.Bounded) (hw : d.Within (· ≤ CAT_MAX_CLIENTS)) {e : Emit} (he : e ∈ d.drain.2) :
    e.frame.Fits d.text := by
  have hradio : e.ClientIn (· ≤ CAT_MAX_CLIENTS) := (within_iff.1 hw).2 e he
  cases d with
  | civ c =>
    have hf := h.out e he
    exact ⟨hf.length.trans (by decide : CIV_MAX_FRAME ≤ YBIN_MAX_FRAME), hf.sends, hradio⟩
  | ascii a =>
    have hf := h.out e he
    exact ⟨hf.length, hf.sends, hradio⟩
  | ybin y =>
    have hf := h.out e he
    exact ⟨hf.length, hf.sends, hradio⟩

/-- Every frame of every run has room in a line. -/
theorem fits_run (c : DecConfig) (st : CatState) (calls : List DecCall) {e : Emit}
    (he : e ∈ (Run.run call (c.create st) calls).drain.2) : e.frame.Fits (Run.run call (c.create st) calls).text :=
  have hbounded : (Run.run call (c.create st) calls).Bounded :=
    Run.run_inv (I := Bounded) (fun _ x h => h.call x) (bounded_create c st) calls
  have hwithin : (Run.run call (c.create st) calls).Within (· ≤ CAT_MAX_CLIENTS) :=
    Run.run_inv (I := Within (· ≤ CAT_MAX_CLIENTS)) (fun _ x h => Within.call h x) (within_create c st) calls
  fits_drain hbounded hwithin he

end Dec

open CatReplay (Printable readLine)

/-- The line of a frame is whole and one line, and the replay tool reads the frame from it. -/
theorem trace_line_round_trip (c : DecConfig) (st : CatState) (calls : List DecCall) {e : Emit}
    (he : e ∈ (Run.run Dec.call (c.create st) calls).drain.2) (w : TraceWriter) (shown : Option CatState) :
    let text := (Run.run Dec.call (c.create st) calls).text
    let time := w.time e.frame.tMs
    let line := catTraceFrame CAT_TRACE_LINE_MAX time text e.frame shown
    line = Printf.Buf.of (traceText time text e.frame shown) ∧ line.len < CAT_TRACE_LINE_MAX ∧
      (∀ b ∈ line.text, Printable b) ∧
      readLine (line.text ++ [newline]) =
        .data (.ok ⟨e.frame.dir, if e.frame.dir = .host then e.frame.client else 0, e.frame.buf⟩) := by
  have hf := Dec.fits_run c st calls he
  have htime := CatReplay.stamp_time w e.frame.tMs
  dsimp only
  rw [catTraceFrame_eq hf htime.room]
  exact ⟨rfl, length_traceText hf htime.room shown, CatReplay.printable_traceText hf htime shown,
    CatReplay.readLine_traceText hf htime shown⟩

/-- A client's bytes that are no command: a quote, a backslash, a blank, the comment character and one that isn't
printable. -/
theorem trace_line_round_trip_dropped :
    readLine ((catTraceFrame CAT_TRACE_LINE_MAX (replayTime 1500) true
      ⟨.dropped, .host, 1500, [34, 92, 32, 35, 255], false, false, 2⟩ none).text ++ [newline]) =
      .data (.ok ⟨.host, 2, [34, 92, 32, 35, 255]⟩) :=
  (trace_line_round_trip (.ascii .kenwood false) .init [.feed ⟨.host, 2, [34, 92, 32, 35, 255], 1500⟩]
    (e := ⟨⟨.dropped, .host, 1500, [34, 92, 32, 35, 255], false, false, 2⟩, 0⟩) (by decide) .replay none).2.2.2

end Mhuxd
