import Mhuxd.WsChunks

/-!
# What follows a close (`hcon_in_cb`, `ws_raw_data_cb`, `ws_timer_cb`)

A close marks the connection and stops its watcher; the read loop that is under way, and the parser's loop in it, go
on. A message that is complete there is delivered. Frames are not queued any more.

`trace` is what the application was told and the frames that were queued, in order; no function reads it.
-/

namespace Mhuxd

open WebSocket Framing

inductive WsNote
  | message (opcode : UInt8) (payload : List UInt8)
  | frame (f : WsFrame)
deriving DecidableEq

/-- `struct http_connection`, once upgraded. Times are in microseconds. -/
structure WsSession (τ : Type) where
  ws : Ws τ
  inbuf : List UInt8
  lastRx : Nat
  pingSentAt : Nat
  trace : List WsNote

def WS_IDLE_PING_INTERVAL : Nat := 30 * 1000000
def WS_PONG_TIMEOUT : Nat := 15 * 1000000

namespace Ws

variable {τ : Type}

/-- What came of a step. A message comes before what the callback sends. -/
def notes (ws ws' : Ws τ) : List WsNote :=
  (ws'.messages.drop ws.messages.length).map (fun m => .message m.1 m.2) ++
    (ws'.con.frames.drop ws.con.frames.length).map .frame

def handleNoting (cb : MsgCb τ) (s : Ws τ × List WsNote) (f : ClientFrame) : (Ws τ × List WsNote) × Option WsEnd :=
  let r := s.1.handleFrame (some cb) f
  ((r.1, s.2 ++ s.1.notes r.1), r.2)

end Ws

/-- The frames of a buffer, their payloads unmasked where they stand. -/
def unmaskFrames : Nat → List UInt8 → List UInt8
  | 0, bs => bs
  | n + 1, bs =>
    match nextFrame bs with
    | .item f rest => bs.take (bs.length - rest.length - f.payload.length) ++ f.payload ++ unmaskFrames n rest
    | _ => bs

/-- The frames of `buf` before `rest` were handled, but not taken off. -/
def unmaskBefore (buf rest : List UInt8) : List UInt8 :=
  unmaskFrames buf.length (buf.take (buf.length - rest.length)) ++ rest

/-- `ws_inbuf` after the loop of `ws_raw_data_cb`. -/
def leftOver (buf : List UInt8) : End UInt8 WsEnd → List UInt8
  | .more rest => rest
  | .halt .done _ rest => rest
  | .halt .stop _ rest => unmaskBefore buf rest
  | _ => buf

namespace WsSession

variable {τ : Type}

def opened (rsp : List UInt8) (app : τ) (now : Nat) : WsSession τ where
  ws := .upgraded (.upgraded rsp) app
  inbuf := []
  lastRx := now
  pingSentAt := 0
  trace := []

def setWs (s : WsSession τ) (ws : Ws τ) : WsSession τ := { s with ws := ws, trace := s.trace ++ s.ws.notes ws }

def setCon (s : WsSession τ) (con : HttpConnection) : WsSession τ := s.setWs { s.ws with con := con }

/-- `rem_connection`. -/
def remConnection (s : WsSession τ) : WsSession τ := s.setCon s.ws.con.remConnection

/-- The end of `ws_raw_data_cb`. -/
def afterLoop (now : Nat) (s : WsSession τ) (buf : List UInt8) (r : (Ws τ × List WsNote) × End UInt8 WsEnd) :
    WsSession τ × Bool :=
  ({ s with ws := r.1.1, trace := r.1.2, inbuf := leftOver buf r.2, lastRx := now }, Ws.endOk r.2)

/-- `ws_raw_data_cb`; false is -1. -/
def rawDataCb (cb : MsgCb τ) (now : Nat) (s : WsSession τ) (data : List UInt8) : WsSession τ × Bool :=
  if data = [] then (s, true)
  else if WS_MAX_PAYLOAD_SIZE * 2 < s.inbuf.length + data.length then (s, false)
  else
    let buf := s.inbuf ++ data
    s.afterLoop now buf (drain nextFrame (Ws.handleNoting cb) (buf.length + 1) (s.ws, s.trace) buf)

/-- `hcon_in_cb` of an upgraded connection. After the results that are given there is nothing to read. -/
def hconInCb (cb : MsgCb τ) (now : Nat) : List ReadRes → WsSession τ → WsSession τ
  | [], s => s
  | .again :: _, s => s
  | .error :: _, s => s.remConnection
  | .data bs :: reads, s =>
    if bs = [] then s.remConnection
    else
      let r := s.rawDataCb cb now bs
      if r.2 then hconInCb cb now reads r.1 else r.1.remConnection

/-- `ws_timer_cb`. -/
def wsTimerCb (now : Nat) (s : WsSession τ) : WsSession τ :=
  if s.ws.con.wsEnabled = false ∨ s.ws.con.terminate then s
  else if s.ws.waitingPong then
    if WS_PONG_TIMEOUT ≤ now - s.pingSentAt then
      let r := s.ws.con.hsWsClose 1001 (HttpConnection.chars "pong timeout")
      if r.2 then s.setCon r.1 else (s.setCon r.1).remConnection
    else s
  else if WS_IDLE_PING_INTERVAL ≤ now - s.lastRx then
    let r := s.ws.con.wsSendFrame WS_OP_PING []
    if r.2 then { s.setWs { s.ws with con := r.1, waitingPong := true } with pingSentAt := now }
    else (s.setCon r.1).remConnection
  else s

/-- `call` is one of the application's that it doesn't make in the message callback. -/
inductive Ev (τ : Type)
  | input (now : Nat) (reads : List ReadRes)
  | timer (now : Nat)
  | call (c : AppCall) (app : τ)
  | out (res : List WriteRes)
  | remove

def step (cb : MsgCb τ) (s : WsSession τ) (e : Ev τ) : WsSession τ :=
  if s.ws.con.removed then s
  else
    match e with
    | .input now reads => if s.ws.con.wIn then s.hconInCb cb now reads else s
    | .timer now => s.wsTimerCb now
    | .call c app => s.setWs { s.ws with con := (s.ws.con.appCall c).1, app := app }
    | .out res => if s.ws.con.wOut then s.setCon (s.ws.con.outLoop res) else s
    | .remove => s.remConnection

end WsSession

/-! ### Behind a close -/

/-- How a frame behind a close ends the reading. After an invalid text only that of the chunk. -/
inductive LateEnd
  | message | fail | invalid
deriving DecidableEq

/-- A message is complete behind a close. -/
def lateText (opcode : UInt8) (payload : List UInt8) : LateEnd :=
  if opcode = WS_OP_TEXT ∧ wsValidateUtf8 payload = false then .invalid else .message

/-- A frame behind a close, by the message that is being put together. Nothing can be sent, so a ping fails. -/
def lateFrame (frag : Ws.Frag) (f : ClientFrame) : Ws.Frag × Option LateEnd :=
  if f.opcode = WS_OP_TEXT ∨ f.opcode = WS_OP_BINARY then
    match frag with
    | some _ => (frag, some .fail)
    | none =>
      if f.fin then (none, some (lateText f.opcode f.payload))
      else
        match wsAppendBuf [] f.payload with
        | none => (none, some .fail)
        | some buf => (some (f.opcode, buf), none)
  else if f.opcode = WS_OP_CONT then
    match frag with
    | none => (none, some .fail)
    | some (opcode, buf) =>
      match wsAppendBuf buf f.payload with
      | none => (frag, some .fail)
      | some buf => if f.fin then (none, some (lateText opcode buf)) else (some (opcode, buf), none)
  else (frag, if f.opcode = WS_OP_PONG then none else some .fail)

/-- Whether there is a message in `bs`, the part of the buffer that is behind a close. If the reading goes on, `later`
says of the rest. -/
def lateInBuf (later : Ws.Frag → List UInt8 → Bool) (frag : Ws.Frag) (buf bs : List UInt8) : Bool :=
  match drain nextFrame lateFrame (bs.length + 1) frag bs with
  | (frag, .more rest) => later frag rest
  | (_, .bad) => false
  | (_, .halt .fail _ _) => false
  | (_, .halt .message _ _) => true
  | (frag, .halt .invalid _ rest) => later frag (unmaskBefore buf rest)

/-- Whether reads behind a close complete a message. -/
def lateMessage : List ReadRes → Ws.Frag → List UInt8 → Bool
  | .data bs :: reads, frag, inbuf =>
    if bs = [] ∨ WS_MAX_PAYLOAD_SIZE * 2 < inbuf.length + bs.length then false
    else lateInBuf (lateMessage reads) frag (inbuf ++ bs) (inbuf ++ bs)
  | _, _, _ => false

/-- Whether a pass completes a message behind the close that it comes to. -/
def passLate {τ : Type} (cb : MsgCb τ) : List ReadRes → Ws τ → List UInt8 → Bool
  | .data bs :: reads, ws, inbuf =>
    if bs = [] ∨ WS_MAX_PAYLOAD_SIZE * 2 < inbuf.length + bs.length then false
    else
      let buf := inbuf ++ bs
      match drain nextFrame (Ws.handleToClose (some cb)) (buf.length + 1) ws buf with
      | (ws, .more rest) => passLate cb reads ws rest
      | (_, .bad) => false
      | (ws, .halt none _ rest) => lateInBuf (lateMessage reads) ws.frag buf rest
      | (_, .halt (some .fail) _ _) => false
      | (ws, .halt (some .stop) _ rest) => lateMessage reads ws.frag (unmaskBefore buf rest)
      | (ws, .halt (some .done) _ rest) => lateMessage reads ws.frag rest
  | _, _, _ => false

/-! ### What is sent -/

namespace HttpConnection

variable {con con' con'' : HttpConnection} {fs gs : List WsFrame}

/-- Frames are queued while the connection is open, the close frame as the last. -/
structure Sends (con con' : HttpConnection) (fs : List WsFrame) : Prop where
  enabled : con'.wsEnabled = true
  frames : con'.frames = con.frames ++ fs
  once : fs.Pairwise fun f _ => f.opcode ≠ WS_OP_CLOSE
  closing : con.terminate = true → con' = con ∧ fs = []
  closes : con.terminate = false → (con'.terminate = true ↔ ∃ f ∈ fs, f.opcode = WS_OP_CLOSE)
  stopped : con.terminate = false → con'.terminate = true → con'.wIn = false

theorem Sends.refl (hws : con.wsEnabled = true) : con.Sends con [] where
  enabled := hws
  frames := (List.append_nil _).symm
  once := .nil
  closing := fun _ => ⟨rfl, rfl⟩
  closes := fun ho => by simp [ho]
  stopped := fun ho ht => by rw [ho] at ht; cases ht

theorem Sends.trans (h : con.Sends con' fs) (h' : con'.Sends con'' gs) : con.Sends con'' (fs ++ gs) := by
  rcases ho : con.terminate with _ | _
  · have hcloses := h.closes ho
    rcases ho' : con'.terminate with _ | _
    · rw [ho'] at hcloses
      have hnone : ∀ f ∈ fs, f.opcode ≠ WS_OP_CLOSE := fun f hf hop =>
        absurd (hcloses.2 ⟨f, hf, hop⟩) Bool.false_ne_true
      refine ⟨h'.enabled, by rw [h'.frames, h.frames, List.append_assoc], ?_, fun ht => ?_, fun _ => ?_,
        fun _ => ?_⟩
      · exact List.pairwise_append.2 ⟨h.once, h'.once, fun f hf _ _ => hnone f hf⟩
      · rw [ho] at ht
        cases ht
      · rw [h'.closes ho']
        constructor
        · rintro ⟨f, hf, hop⟩
          exact ⟨f, List.mem_append_right _ hf, hop⟩
        · rintro ⟨f, hf, hop⟩
          rcases List.mem_append.1 hf with hf | hf
          · exact absurd hop (hnone f hf)
          · exact ⟨f, hf, hop⟩
      · exact h'.stopped ho'
    · obtain ⟨rfl, rfl⟩ := h'.closing ho'
      rw [List.append_nil]
      exact h
  · obtain ⟨rfl, rfl⟩ := h.closing ho
    exact h'

theorem pushFrame_frames (con : HttpConnection) (f : WsFrame) : (con.pushFrame f).frames = con.frames ++ [f] := by
  unfold pushFrame
  split_ifs <;> rfl

theorem pushFrame_terminate (con : HttpConnection) (f : WsFrame) :
    (con.pushFrame f).terminate = con.terminate := by
  unfold pushFrame
  split_ifs <;> rfl

theorem pushFrame_wsEnabled (con : HttpConnection) (f : WsFrame) :
    (con.pushFrame f).wsEnabled = con.wsEnabled := by
  unfold pushFrame
  split_ifs <;> rfl

theorem pushFrame_wIn (con : HttpConnection) (f : WsFrame) : (con.pushFrame f).wIn = con.wIn := by
  unfold pushFrame
  split_ifs <;> rfl

/-- The close frame is queued, and the connection marked. -/
theorem Sends.closeWith (ho : con.terminate = false) {f : WsFrame}
    (hop : f.opcode = WS_OP_CLOSE) (henabled : con'.wsEnabled = true) (hf : con'.frames = con.frames ++ [f])
    (ht : con'.terminate = true) (hin : con'.wIn = false) : con.Sends con' [f] where
  enabled := henabled
  frames := hf
  once := List.pairwise_singleton ..
  closing := fun ht => by rw [ho] at ht; cases ht
  closes := fun _ => by simp [ht, hop]
  stopped := fun _ _ => hin

theorem Sends.overflowed (hws : con.wsEnabled = true) (ho : con.terminate = false) :
    con.Sends con.overflowed [backpressure] := by
  refine .closeWith ho rfl ?_ ?_ rfl ?_
  · exact (pushFrame_wsEnabled _ _).trans hws
  · exact pushFrame_frames _ _
  · exact pushFrame_wIn _ _

/-- A frame that is no close. -/
theorem Sends.pushFrame (hws : con.wsEnabled = true) (ho : con.terminate = false) {f : WsFrame}
    (hop : f.opcode ≠ WS_OP_CLOSE) : con.Sends (con.pushFrame f) [f] where
  enabled := (pushFrame_wsEnabled _ _).trans hws
  frames := pushFrame_frames _ _
  once := List.pairwise_singleton ..
  closing := fun ht => by rw [ho] at ht; cases ht
  closes := fun _ => by simp [pushFrame_terminate, ho, hop]
  stopped := fun _ ht => by rw [pushFrame_terminate, ho] at ht; cases ht

/-- A frame is sent: it is too long, it is queued, or it exceeds the limit. -/
theorem wsSendFrame_open (hws : con.wsEnabled = true) (ho : con.terminate = false) (opcode : UInt8)
    (payload : List UInt8) :
    WS_MAX_PAYLOAD_SIZE < payload.length ∧ con.wsSendFrame opcode payload = (con, false) ∨
      (∃ f : WsFrame, f.opcode = opcode ∧ con.wsSendFrame opcode payload = (con.pushFrame f, true)) ∨
      con.wsSendFrame opcode payload = (con.overflowed, false) := by
  by_cases hle : payload.length ≤ WS_MAX_PAYLOAD_SIZE
  · by_cases hover : OUTQ_HARD_LIMIT < con.outqBytes + (WsFrame.header opcode payload.length).length + payload.length
    · exact .inr (.inr (sendFrame_exceeds hws ⟨ho, hle, hover⟩))
    · exact .inr (.inl ⟨⟨opcode, payload, hle⟩, rfl, sendFrame_fits ho ⟨opcode, payload, hle⟩
        (Nat.not_lt.1 hover)⟩)
  · left
    exact ⟨Nat.not_le.1 hle, by rw [wsSendFrame, sendFrameBy, dif_pos (Nat.not_le.1 hle)]⟩

theorem Sends.wsSendFrame (hws : con.wsEnabled = true) {opcode : UInt8} (hop : opcode ≠ WS_OP_CLOSE)
    (payload : List UInt8) : ∃ fs, con.Sends (con.wsSendFrame opcode payload).1 fs := by
  rcases ho : con.terminate with _ | _
  · rcases wsSendFrame_open hws ho opcode payload with ⟨-, heq⟩ | ⟨f, rfl, heq⟩ | heq
    · rw [heq]
      exact ⟨_, .refl hws⟩
    · rw [heq]
      exact ⟨_, .pushFrame hws ho hop⟩
    · rw [heq]
      exact ⟨_, .overflowed hws ho⟩
  · rw [wsSendFrame_terminate ho]
    exact ⟨_, .refl hws⟩

theorem length_closePayload (code : UInt16) (reason : List UInt8) : (closePayload code reason).length ≤ 125 := by
  have htake := List.length_take_le 123 reason
  simp only [closePayload, List.length_cons]
  omega

theorem Sends.hsWsClose (hws : con.wsEnabled = true) (code : UInt16) (reason : List UInt8) :
    ∃ fs, con.Sends (con.hsWsClose code reason).1 fs := by
  rcases ho : con.terminate with _ | _
  · have hmax : WS_MAX_PAYLOAD_SIZE = 1024 * 1024 := rfl
    have hlen := length_closePayload code reason
    have hstopped : ({ con with wIn := false } : HttpConnection).terminate = false := ho
    have hclose : (con.hsWsClose code reason).1 = { (({ con with wIn := false } : HttpConnection).wsSendFrame WS_OP_CLOSE
        (closePayload code reason)).1 with terminate := true } := by
      rw [HttpConnection.hsWsClose, closeBy, if_neg (by simp [ho])]
      rfl
    rw [hclose]
    have henabled : ({ con with wIn := false } : HttpConnection).wsEnabled = true := hws
    rcases wsSendFrame_open henabled hstopped WS_OP_CLOSE (closePayload code reason) with
      ⟨hlong, -⟩ | ⟨f, hop, heq⟩ | heq
    · omega
    · rw [heq]
      refine ⟨[f], .closeWith ho hop ?_ ?_ rfl ?_⟩
      · exact (pushFrame_wsEnabled _ _).trans hws
      · exact pushFrame_frames _ _
      · exact pushFrame_wIn _ _
    · rw [heq]
      exact ⟨[backpressure], Sends.overflowed hws ho⟩
  · rw [hsWsClose_terminate ho]
    exact ⟨_, .refl hws⟩

theorem Sends.answerClose (hws : con.wsEnabled = true) (payload : List UInt8) :
    ∃ fs, con.Sends (con.answerClose payload).1 fs := by
  rw [HttpConnection.answerClose]
  rcases ho : con.terminate with _ | _
  · rcases wsSendFrame_open hws ho WS_OP_CLOSE payload with ⟨-, heq⟩ | ⟨f, hop, heq⟩ | heq
    · rw [heq]
      exact ⟨_, .refl hws⟩
    · rw [heq]
      refine ⟨[f], .closeWith ho hop ?_ ?_ rfl rfl⟩
      · exact (pushFrame_wsEnabled _ _).trans hws
      · exact pushFrame_frames _ _
    · rw [heq]
      exact ⟨_, .overflowed hws ho⟩
  · rw [wsSendFrame_terminate ho]
    exact ⟨_, .refl hws⟩

theorem Sends.appCall (hws : con.wsEnabled = true) (c : AppCall) : ∃ fs, con.Sends (con.appCall c).1 fs := by
  cases c with
  | sendText data => exact Sends.wsSendFrame hws (by decide) data
  | sendBinary data => exact Sends.wsSendFrame hws (by decide) data
  | sendPong data => exact Sends.wsSendFrame hws (by decide) data
  | close code reason => exact Sends.hsWsClose hws code reason

theorem Sends.runApp {τ : Type} (hws : con.wsEnabled = true) (p : AppProg τ) :
    ∃ fs, con.Sends (con.runApp p).1 fs := by
  induction p generalizing con with
  | ret app ok => exact ⟨_, .refl hws⟩
  | call c k ih =>
    obtain ⟨fs, hcall⟩ := Sends.appCall hws c
    obtain ⟨gs, hrest⟩ := ih _ hcall.enabled
    exact ⟨fs ++ gs, hcall.trans hrest⟩

/-- Output queues no frame, and it marks nothing. -/
theorem outLoop_same (con : HttpConnection) (res : List WriteRes) :
    (con.outLoop res).frames = con.frames ∧ (con.outLoop res).terminate = con.terminate ∧
      (con.outLoop res).wsEnabled = con.wsEnabled ∧ (con.wIn = false → (con.outLoop res).wIn = false) := by
  induction res generalizing con with
  | nil =>
    unfold outLoop
    split
    · unfold outDone
      split_ifs <;> exact ⟨rfl, rfl, rfl, by simp [remConnection]⟩
    · exact ⟨rfl, rfl, rfl, id⟩
  | cons r res ih =>
    unfold outLoop
    split
    · unfold outDone
      split_ifs <;> exact ⟨rfl, rfl, rfl, by simp [remConnection]⟩
    · cases r with
      | again => exact ⟨rfl, rfl, rfl, id⟩
      | error => exact ⟨rfl, rfl, rfl, fun _ => rfl⟩
      | wrote n =>
        dsimp only
        split_ifs <;> exact ih _

end HttpConnection

/-! ### What is noted -/

/-- The note of a close frame. -/
def WsNote.IsClose : WsNote → Prop
  | .message _ _ => False
  | .frame f => f.opcode = WS_OP_CLOSE

instance (x : WsNote) : Decidable x.IsClose := by
  cases x with
  | message => exact instDecidableFalse
  | frame f => exact inferInstanceAs (Decidable (f.opcode = WS_OP_CLOSE))

/-- Nothing comes after a close frame. -/
abbrev EndsAtClose (trace : List WsNote) : Prop := trace.Pairwise fun x _ => ¬x.IsClose

theorem EndsAtClose.of_prefix {trace trace' : List WsNote} (h : EndsAtClose trace') (hpre : trace <+: trace') :
    EndsAtClose trace := List.Pairwise.sublist hpre.sublist h

namespace Ws

variable {τ : Type} {cb : MsgCb τ} {ws ws' : Ws τ} {f : ClientFrame} {trace trace' : List WsNote} {ms : List (UInt8 × List UInt8)}
  {fs : List WsFrame} {xs rest : List UInt8}

theorem notes_eq (hm : ws'.messages = ws.messages ++ ms) (hf : ws'.con.frames = ws.con.frames ++ fs) :
    ws.notes ws' = ms.map (fun m => .message m.1 m.2) ++ fs.map .frame := by
  rw [notes, hm, hf, List.drop_left, List.drop_left]

/-- The trace of a connection tells whether it is closing, and then nothing is read in a later pass. -/
structure Traced (ws : Ws τ) (trace : List WsNote) : Prop where
  enabled : ws.con.wsEnabled = true
  stopped : ws.con.terminate = true → ws.con.wIn = false
  closed : ws.con.terminate = true ↔ ∃ x ∈ trace, x.IsClose

theorem exists_isClose_iff (ms : List (UInt8 × List UInt8)) :
    (∃ x ∈ ms.map (fun m => WsNote.message m.1 m.2) ++ fs.map .frame, x.IsClose) ↔
    ∃ f ∈ fs, f.opcode = WS_OP_CLOSE := by
  constructor
  · rintro ⟨x, hx, hclose⟩
    rcases List.mem_append.1 hx with hx | hx
    · obtain ⟨m, -, rfl⟩ := List.mem_map.1 hx
      exact hclose.elim
    · obtain ⟨f, hf, rfl⟩ := List.mem_map.1 hx
      exact ⟨f, hf, hclose⟩
  · rintro ⟨f, hf, hop⟩
    exact ⟨.frame f, List.mem_append_right _ (List.mem_map_of_mem hf), hop⟩

theorem endsAtClose_notes (hone : fs.Pairwise fun f _ => f.opcode ≠ WS_OP_CLOSE) :
    EndsAtClose (ms.map (fun m => WsNote.message m.1 m.2) ++ fs.map .frame) := by
  refine List.pairwise_append.2 ⟨?_, ?_, ?_⟩
  · exact List.pairwise_map.2 (List.pairwise_of_forall fun _ _ => not_false)
  · exact List.pairwise_map.2 hone
  · intro x hx _ _
    obtain ⟨m, -, rfl⟩ := List.mem_map.1 hx
    exact not_false

/-- Messages are told and frames are queued. The trace goes on as it should, but for a message behind a close. -/
theorem Traced.sent (h : Traced ws trace) (hm : ws'.messages = ws.messages ++ ms) (hs : ws.con.Sends ws'.con fs) :
    Traced ws' (trace ++ ws.notes ws') ∧
      (EndsAtClose trace → (EndsAtClose (trace ++ ws.notes ws') ↔ (ws.con.terminate = true → ms = []))) := by
  rw [notes_eq hm hs.frames]
  rcases ho : ws.con.terminate with _ | _
  · have hopen : ¬∃ x ∈ trace, x.IsClose := by
      rw [← h.closed, ho]
      exact Bool.false_ne_true
    refine ⟨⟨hs.enabled, hs.stopped ho, ?_⟩, fun hends => iff_of_true ?_ nofun⟩
    · rw [hs.closes ho, ← exists_isClose_iff ms]
      constructor
      · rintro ⟨x, hx, hclose⟩
        exact ⟨x, List.mem_append_right _ hx, hclose⟩
      · rintro ⟨x, hx, hclose⟩
        rcases List.mem_append.1 hx with hx | hx
        · exact absurd ⟨x, hx, hclose⟩ hopen
        · exact ⟨x, hx, hclose⟩
    · refine List.pairwise_append.2 ⟨hends, endsAtClose_notes hs.once, fun x hx _ _ hclose => ?_⟩
      exact hopen ⟨x, hx, hclose⟩
  · obtain ⟨hcon, rfl⟩ := hs.closing ho
    obtain ⟨x, hx, hclose⟩ := h.closed.1 ho
    rw [List.map_nil, List.append_nil]
    refine ⟨⟨hs.enabled, ?_, ?_⟩, fun hends => ?_⟩
    · rw [hcon]
      exact h.stopped
    · rw [hcon]
      exact iff_of_true ho ⟨x, List.mem_append_left _ hx, hclose⟩
    · constructor
      · intro hall _
        cases ms with
        | nil => rfl
        | cons m ms => exact absurd hclose ((List.pairwise_append.1 hall).2.2 x hx _ List.mem_cons_self)
      · intro hnil
        rw [hnil rfl, List.map_nil, List.append_nil]
        exact hends

/-- The connection is only sent to. -/
theorem Traced.quiet (h : Traced ws trace) (hm : ws'.messages = ws.messages) (hs : ws.con.Sends ws'.con fs) :
    Traced ws' (trace ++ ws.notes ws') ∧ (EndsAtClose trace → EndsAtClose (trace ++ ws.notes ws')) := by
  have hnone : ws'.messages = ws.messages ++ [] := by rw [hm, List.append_nil]
  obtain ⟨htraced, hends⟩ := h.sent hnone hs
  exact ⟨htraced, fun hpre => (hends hpre).2 fun _ => rfl⟩

/-! ### A frame -/

/-- What a frame tells and sends. -/
def Tells (ws ws' : Ws τ) : Prop := ∃ ms fs, ws'.messages = ws.messages ++ ms ∧ ws.con.Sends ws'.con fs

theorem Tells.of_sends (hm : ws'.messages = ws.messages) (h : ∃ fs, ws.con.Sends ws'.con fs) : ws.Tells ws' := by
  obtain ⟨fs, hs⟩ := h
  exact ⟨[], fs, by rw [hm, List.append_nil], hs⟩

theorem Tells.of_same (hws : ws.con.wsEnabled = true) (hm : ws'.messages = ws.messages) (hc : ws'.con = ws.con) :
    ws.Tells ws' := .of_sends hm ⟨[], by rw [hc]; exact .refl hws⟩

/-- A complete message. -/
theorem message_tells (hws : ws.con.wsEnabled = true) (h : ws'.con = ws.con) (hm : ws'.messages = ws.messages)
    (opcode : UInt8) (payload : List UInt8) (reset : Ws τ → Ws τ) (hreset : ∀ ws : Ws τ, ws.Still (reset ws)) :
    ws.Tells
      (if opcode = WS_OP_TEXT ∧ wsValidateUtf8 payload = false then (reset ws'.closeInvalid, some WsEnd.stop)
      else
        match ws'.deliver (some cb) opcode payload with
        | (ws, true) => (reset ws, none)
        | (ws, false) => (ws, some .fail)).1 := by
  split_ifs with hbad
  · refine .of_sends ((hreset _).messages.trans hm) ?_
    rw [(hreset _).con, ← h]
    exact HttpConnection.Sends.hsWsClose (h ▸ hws) _ _
  · obtain ⟨fs, hs⟩ := HttpConnection.Sends.runApp hws (cb ws'.app opcode payload)
    have hcon : (ws'.deliver (some cb) opcode payload).1.con = (ws.con.runApp (cb ws'.app opcode payload)).1 := by
      rw [← h]
      rfl
    have hmsg : (ws'.deliver (some cb) opcode payload).1.messages = ws.messages ++ [(opcode, payload)] := by
      rw [deliver_messages, hm]
    rcases hdel : ws'.deliver (some cb) opcode payload with ⟨ws₁, _ | _⟩
    all_goals
      rw [hdel] at hcon hmsg
    · exact ⟨_, fs, hmsg, hcon ▸ hs⟩
    · refine ⟨_, fs, (hreset ws₁).messages.trans hmsg, ?_⟩
      rw [(hreset ws₁).con, hcon]
      exact hs

theorem dataFrame_tells (hws : ws.con.wsEnabled = true) : ws.Tells (ws.dataFrame (some cb) f).1 := by
  unfold dataFrame
  by_cases hact : ws.fragActive = true
  · rw [if_pos hact]
    exact .of_same hws rfl rfl
  · rw [if_neg hact]
    by_cases hfin : f.fin = true
    · rw [if_pos hfin]
      exact message_tells hws rfl rfl f.opcode f.payload id Still.refl
    · rw [if_neg hfin]
      dsimp only
      rcases wsAppendBuf [] f.payload with _ | buf <;> exact .of_same hws rfl rfl

theorem contFrame_tells (hws : ws.con.wsEnabled = true) : ws.Tells (ws.contFrame (some cb) f).1 := by
  unfold contFrame
  by_cases hact : ws.fragActive = false
  · rw [if_pos hact]
    exact .of_same hws rfl rfl
  · rw [if_neg hact]
    rcases wsAppendBuf ws.fragBuf f.payload with _ | buf
    · exact .of_same hws rfl rfl
    · dsimp only
      by_cases hfin : f.fin = true
      · rw [if_pos hfin]
        have hcon : ({ ws with fragBuf := buf } : Ws τ).con = ws.con := rfl
        exact message_tells hws hcon rfl ws.fragOpcode buf resetFrag fun _ => ⟨rfl, rfl⟩
      · rw [if_neg hfin]
        exact .of_same hws rfl rfl

theorem handleFrame_tells (cb : MsgCb τ) (hws : ws.con.wsEnabled = true) (f : ClientFrame) :
    ws.Tells (ws.handleFrame (some cb) f).1 := by
  unfold handleFrame
  split_ifs
  · exact dataFrame_tells hws
  · exact contFrame_tells hws
  · have hpong := HttpConnection.Sends.wsSendFrame hws (show WS_OP_PONG ≠ WS_OP_CLOSE by decide) f.payload
    unfold pingFrame
    rcases hsend : ws.con.wsSendFrame WS_OP_PONG f.payload with ⟨con, _ | _⟩
    all_goals
      rw [hsend] at hpong
      exact .of_sends rfl hpong
  · exact .of_same hws rfl rfl
  · have hclose := HttpConnection.Sends.answerClose hws f.payload
    unfold closeFrame
    rcases hsend : ws.con.answerClose f.payload with ⟨con, _ | _⟩
    all_goals
      rw [hsend] at hclose
      exact .of_sends rfl hclose
  · exact .of_same hws rfl rfl

variable {r : Option WsEnd} {s s' : Ws τ × List WsNote} {e : End UInt8 WsEnd}

theorem handleNoting_eq (trace : List WsNote) (hf : ws.handleFrame (some cb) f = (ws', r)) :
    handleNoting cb (ws, trace) f = ((ws', trace ++ ws.notes ws'), r) := by
  rw [handleNoting, hf]

theorem handleNoting_handle (ha : handleNoting cb s f = (s', r)) :
    s.1.handleFrame (some cb) f = (s'.1, r) ∧ s'.2 = s.2 ++ s.1.notes s'.1 := by
  rw [handleNoting] at ha
  cases ha
  exact ⟨rfl, rfl⟩

theorem Traced.handle (h : Traced s.1 s.2) (ha : handleNoting cb s f = (s', r)) : Traced s'.1 s'.2 := by
  obtain ⟨hf, htrace⟩ := handleNoting_handle ha
  obtain ⟨ms, fs, hm, hs⟩ := handleFrame_tells cb h.enabled f
  rw [hf] at hm hs
  rw [htrace]
  exact (h.sent hm hs).1

/-- A frame that comes while the connection is open. -/
theorem Traced.ends (h : Traced ws trace) (hends : EndsAtClose trace) (ho : ws.con.terminate = false)
    (hf : ws.handleFrame (some cb) f = (ws', r)) : EndsAtClose (trace ++ ws.notes ws') := by
  obtain ⟨ms, fs, hm, hs⟩ := handleFrame_tells cb h.enabled f
  rw [hf] at hm hs
  exact ((h.sent hm hs).2 hends).2 fun ht => absurd (ho.symm.trans ht) Bool.false_ne_true

/-- All that is in the buffer, with the trace. -/
abbrev Noted (cb : MsgCb τ) := Drains nextFrame (handleNoting cb)

theorem Traced.noted (h : Traced s.1 s.2) (hd : Noted cb s xs s' e) : Traced s'.1 s'.2 := by
  induction hd with
  | more => exact h
  | bad => exact h
  | go _ ha _ ih => exact ih (h.handle ha)
  | halt _ ha => exact h.handle ha

theorem Noted.trace_prefix (hd : Noted cb s xs s' e) : s.2 <+: s'.2 := by
  induction hd with
  | more => exact List.prefix_rfl
  | bad => exact List.prefix_rfl
  | go _ ha _ ih =>
    rw [(handleNoting_handle ha).2] at ih
    exact (List.prefix_append _ _).trans ih
  | halt _ ha =>
    rw [(handleNoting_handle ha).2]
    exact List.prefix_append _ _

/-! ### Behind the close -/

/-- What a frame does behind a close. -/
def Late (ws : Ws τ) (r : Ws τ × Option WsEnd) : Frag × Option LateEnd → Prop
  | (g, none) => r.2 = none ∧ r.1.frag = g ∧ ws.Still r.1
  | (g, some .invalid) => r.2 = some .stop ∧ r.1.frag = g ∧ ws.Still r.1
  | (_, some .fail) => r.2 = some .fail ∧ ws.Still r.1
  | (_, some .message) => r.1.messages ≠ ws.messages

theorem message_late (ht : ws.con.terminate = true) (h : ws'.con = ws.con) (hm : ws'.messages = ws.messages)
    (opcode : UInt8) (payload : List UInt8) (reset : Ws τ → Ws τ) (hreset : ∀ ws : Ws τ, ws.Still (reset ws))
    (hfrag : (reset ws').frag = none) :
    ws.Late
      (if opcode = WS_OP_TEXT ∧ wsValidateUtf8 payload = false then (reset ws'.closeInvalid, some .stop)
      else
        match ws'.deliver (some cb) opcode payload with
        | (ws, true) => (reset ws, none)
        | (ws, false) => (ws, some .fail))
      (none, some (lateText opcode payload)) := by
  have ht' : ws'.con.terminate = true := by rw [h]; exact ht
  unfold lateText
  split_ifs with hbad
  · rw [closeInvalid_terminate ht']
    exact ⟨rfl, hfrag, (hreset ws').con.trans h, (hreset ws').messages.trans hm⟩
  · have hmsg : (ws'.deliver (some cb) opcode payload).1.messages = ws.messages ++ [(opcode, payload)] := by
      rw [deliver_messages, hm]
    rcases hdel : ws'.deliver (some cb) opcode payload with ⟨ws₁, _ | _⟩
    all_goals
      rw [hdel] at hmsg
    · exact fun hsame => absurd (hmsg.symm.trans hsame) (by simp)
    · exact fun hsame => absurd (((hreset ws₁).messages.trans hmsg).symm.trans hsame) (by simp)

theorem dataFrame_late (ht : ws.con.terminate = true) (hop : f.opcode = WS_OP_TEXT ∨ f.opcode = WS_OP_BINARY) :
    ws.Late (ws.dataFrame (some cb) f) (lateFrame ws.frag f) := by
  unfold dataFrame lateFrame
  rw [if_pos hop]
  rcases hact : ws.fragActive with _ | _
  · have hfrag := frag_of_inactive hact
    rw [hfrag, if_neg Bool.false_ne_true]
    dsimp only
    rcases hfin : f.fin with _ | _
    · rw [if_neg Bool.false_ne_true, if_neg Bool.false_ne_true]
      rcases wsAppendBuf [] f.payload with _ | buf
      · exact ⟨rfl, rfl, rfl⟩
      · exact ⟨rfl, rfl, rfl, rfl⟩
    · exact message_late ht rfl rfl f.opcode f.payload id Still.refl hfrag
  · rw [frag_of_active hact, if_pos rfl]
    exact ⟨rfl, rfl, rfl⟩

theorem contFrame_late (ht : ws.con.terminate = true) (hop : f.opcode = WS_OP_CONT) :
    ws.Late (ws.contFrame (some cb) f) (lateFrame ws.frag f) := by
  have hdata : ¬(f.opcode = WS_OP_TEXT ∨ f.opcode = WS_OP_BINARY) := by
    rw [hop]
    decide
  unfold contFrame lateFrame
  rw [if_neg hdata, if_pos hop]
  rcases hact : ws.fragActive with _ | _
  · rw [frag_of_inactive hact, if_pos rfl]
    exact ⟨rfl, rfl, rfl⟩
  · rw [frag_of_active hact, if_neg (by simp)]
    dsimp only
    rcases wsAppendBuf ws.fragBuf f.payload with _ | buf
    · exact ⟨rfl, rfl, rfl⟩
    · dsimp only
      rcases hfin : f.fin with _ | _
      · exact ⟨rfl, rfl, rfl, rfl⟩
      · have hcon : ({ ws with fragActive := true, fragBuf := buf } : Ws τ).con = ws.con := rfl
        exact message_late ht hcon rfl ws.fragOpcode buf resetFrag (fun _ => ⟨rfl, rfl⟩) rfl

theorem lateFrame_other {g : Frag} (hdata : ¬(f.opcode = WS_OP_TEXT ∨ f.opcode = WS_OP_BINARY))
    (hcont : f.opcode ≠ WS_OP_CONT) : lateFrame g f = (g, if f.opcode = WS_OP_PONG then none else some .fail) := by
  unfold lateFrame
  rw [if_neg hdata, if_neg hcont]

theorem handleFrame_late (cb : MsgCb τ) (ht : ws.con.terminate = true) (f : ClientFrame) :
    ws.Late (ws.handleFrame (some cb) f) (lateFrame ws.frag f) := by
  unfold handleFrame
  split_ifs with hdata hcont hping hpong hclose
  · exact dataFrame_late ht hdata
  · exact contFrame_late ht hcont
  all_goals
    rw [lateFrame_other hdata hcont]
  · rw [pingFrame, HttpConnection.wsSendFrame_terminate ht, if_neg (by rw [hping]; decide)]
    exact ⟨rfl, rfl, rfl⟩
  · rw [if_pos hpong]
    exact ⟨rfl, rfl, rfl, rfl⟩
  · rw [closeFrame, HttpConnection.answerClose_terminate ht, if_neg hpong]
    exact ⟨rfl, rfl, rfl⟩
  · rw [if_neg hpong]
    exact ⟨rfl, rfl, rfl⟩

theorem Still.notes (h : ws.Still ws') : ws.notes ws' = [] := by
  rw [Ws.notes, h.messages, h.con, List.drop_length, List.drop_length]
  rfl

/-- How the loop ends behind a close. -/
def LateDone (s : Ws τ × List WsNote) (e : End UInt8 WsEnd) (g : Frag) : End UInt8 LateEnd → Prop
  | .more rest => s.1.con.terminate = true ∧ s.1.frag = g ∧ e = .more rest ∧ EndsAtClose s.2
  | .bad => e = .bad ∧ EndsAtClose s.2
  | .halt .fail at_ rest => e = .halt .fail at_ rest ∧ EndsAtClose s.2
  | .halt .invalid at_ rest => s.1.con.terminate = true ∧ s.1.frag = g ∧ e = .halt .stop at_ rest ∧ EndsAtClose s.2
  | .halt .message _ _ => ¬EndsAtClose s.2

theorem Traced.late {g g' : Frag} {e₀ : End UInt8 LateEnd} (h : Drains nextFrame lateFrame g xs g' e₀)
    (hg : ws.frag = g) (ht : ws.con.terminate = true) (htraced : Traced ws trace) (hends : EndsAtClose trace)
    (hd : Noted cb (ws, trace) xs s e) : LateDone s e g' e₀ := by
  induction h generalizing ws trace with
  | more hp =>
    obtain ⟨rfl, rfl⟩ := hd.of_more hp
    exact ⟨ht, hg, rfl, hends⟩
  | bad hp =>
    obtain ⟨rfl, rfl⟩ := hd.of_bad hp
    exact ⟨rfl, hends⟩
  | @go g xs f rest g₁ g' e₀ hp ha _ ih =>
    have hlate := handleFrame_late cb ht f
    rw [hg, ha] at hlate
    rcases hf : ws.handleFrame (some cb) f with ⟨ws₁, r⟩
    rw [hf] at hlate
    obtain ⟨rfl, hfrag, hstill⟩ := hlate
    have hnoting := handleNoting_eq trace hf
    have htraced₁ := htraced.handle (s := (ws, trace)) hnoting
    rw [hstill.notes, List.append_nil] at hnoting htraced₁
    exact ih hfrag (hstill.con ▸ ht) htraced₁ hends (hd.of_go hp hnoting)
  | @halt g xs f rest g₁ x hp ha =>
    have hlate := handleFrame_late cb ht f
    rw [hg, ha] at hlate
    rcases hf : ws.handleFrame (some cb) f with ⟨ws₁, r⟩
    rw [hf] at hlate
    have hnoting := handleNoting_eq trace hf
    cases x with
    | message =>
      obtain ⟨ms, fs, hm, hs⟩ := handleFrame_tells cb htraced.enabled f
      rw [hf] at hm hs
      have hlost : ¬EndsAtClose (trace ++ ws.notes ws₁) := by
        intro hall
        have hnil := ((htraced.sent hm hs).2 hends).1 hall ht
        rw [hnil, List.append_nil] at hm
        exact hlate hm
      cases r with
      | none => exact fun hall => hlost (hall.of_prefix (Noted.trace_prefix (hd.of_go hp hnoting)))
      | some x =>
        obtain ⟨rfl, rfl⟩ := hd.of_halt hp hnoting
        exact hlost
    | fail =>
      obtain ⟨rfl, hstill⟩ := hlate
      rw [hstill.notes, List.append_nil] at hnoting
      obtain ⟨rfl, rfl⟩ := hd.of_halt hp hnoting
      exact ⟨rfl, hends⟩
    | invalid =>
      obtain ⟨rfl, hfrag, hstill⟩ := hlate
      rw [hstill.notes, List.append_nil] at hnoting
      obtain ⟨rfl, rfl⟩ := hd.of_halt hp hnoting
      exact ⟨hstill.con ▸ ht, hfrag, rfl, hends⟩

/-! ### Up to the close -/

/-- How far the loop has come at the first close. -/
def Reaches (cb : MsgCb τ) (s : Ws τ × List WsNote) (xs : List UInt8) (s' : Ws τ × List WsNote) :
    End UInt8 (Option WsEnd) → Prop
  | .more rest => Noted cb s xs s' (.more rest)
  | .bad => Noted cb s xs s' .bad
  | .halt (some x) at_ rest => Noted cb s xs s' (.halt x at_ rest)
  | .halt none _ rest => ∀ s'' e, Noted cb s' rest s'' e → Noted cb s xs s'' e

theorem Reaches.go {s₁ : Ws τ × List WsNote} {e : End UInt8 (Option WsEnd)} (hp : nextFrame xs = .item f rest)
    (ha : handleNoting cb s f = (s₁, none)) (h : Reaches cb s₁ rest s' e) : Reaches cb s xs s' e := by
  cases e with
  | more => exact Drains.go hp ha h
  | bad => exact Drains.go hp ha h
  | halt y at_ rest' =>
    cases y with
    | some x => exact Drains.go hp ha h
    | none => exact fun s'' e hd => .go hp ha (h s'' e hd)

/-- Up to the first close nothing is told that shouldn't be. -/
theorem Traced.toClose {e : End UInt8 (Option WsEnd)} (hd : ToClose (some cb) ws xs ws' e) (h : Traced ws trace)
    (hends : EndsAtClose trace) (ho : ws.con.terminate = false) :
    ∃ trace', Traced ws' trace' ∧ EndsAtClose trace' ∧ Reaches cb (ws, trace) xs (ws', trace') e := by
  induction hd generalizing trace with
  | more hp => exact ⟨trace, h, hends, Drains.more hp⟩
  | bad hp => exact ⟨trace, h, hends, Drains.bad hp⟩
  | go hp ha _ ih =>
    obtain ⟨hf, ho₁⟩ := handleToClose_go ha
    have hnoting := handleNoting_eq trace hf
    obtain ⟨trace', htraced, hends', hreach⟩ := ih (h.handle (s := (_, trace)) hnoting) (h.ends hends ho hf) ho₁
    exact ⟨trace', htraced, hends', hreach.go hp hnoting⟩
  | @halt s xs f rest s' y hp ha =>
    cases y with
    | some x =>
      have hf := handleToClose_end ha
      have hnoting := handleNoting_eq trace hf
      exact ⟨_, h.handle (s := (_, trace)) hnoting, h.ends hends ho hf, Drains.halt hp hnoting⟩
    | none =>
      obtain ⟨hf, -⟩ := handleToClose_closed ha
      have hnoting := handleNoting_eq trace hf
      exact ⟨_, h.handle (s := (_, trace)) hnoting, h.ends hends ho hf, fun s'' e hd => .go hp hnoting hd⟩

end Ws

/-! ### A pass -/

namespace WsSession

open Ws

variable {τ : Type} {cb : MsgCb τ} {now : Nat} {s : WsSession τ} {reads : List ReadRes}

/-- The state of a session and its trace are in step. -/
abbrev Tracked (s : WsSession τ) : Prop := Traced s.ws s.trace

theorem remConnection_trace (s : WsSession τ) : s.remConnection.trace = s.trace := by
  simp [remConnection, setCon, WsSession.setWs, notes, HttpConnection.remConnection]

theorem Tracked.remConnection (h : s.Tracked) : s.remConnection.Tracked where
  enabled := h.enabled
  stopped := fun _ => rfl
  closed := by
    rw [remConnection_trace]
    exact h.closed

theorem rawDataCb_eq {bs : List UInt8} {s' : Ws τ × List WsNote} {e : End UInt8 WsEnd} (hne : bs ≠ [])
    (hlim : ¬WS_MAX_PAYLOAD_SIZE * 2 < s.inbuf.length + bs.length)
    (hd : Noted cb (s.ws, s.trace) (s.inbuf ++ bs) s' e) :
    s.rawDataCb cb now bs = s.afterLoop now (s.inbuf ++ bs) (s', e) := by
  rw [rawDataCb, if_neg hne, if_neg hlim]
  dsimp only
  rw [hd.drain_eq nextFrame_stable (Nat.lt_succ_self _)]

theorem exists_noted (cb : MsgCb τ) (s : Ws τ × List WsNote) (xs : List UInt8) : ∃ s' e, Noted cb s xs s' e :=
  ⟨_, _, drains_drain nextFrame_stable _ _ (Nat.lt_succ_self _)⟩

/-- What is left of the pass after one read. -/
def passRest (cb : MsgCb τ) (now : Nat) (reads : List ReadRes) (r : WsSession τ × Bool) : WsSession τ :=
  if r.2 then r.1.hconInCb cb now reads else r.1.remConnection

theorem hconInCb_data {bs : List UInt8} (hne : bs ≠ []) :
    s.hconInCb cb now (.data bs :: reads) = passRest cb now reads (s.rawDataCb cb now bs) := by
  rw [hconInCb, if_neg hne]
  rfl

theorem rawDataCb_cases (cb : MsgCb τ) (now : Nat) (s : WsSession τ) (bs : List UInt8) :
    (s.rawDataCb cb now bs).1 = s ∨ ∃ s' e, Noted cb (s.ws, s.trace) (s.inbuf ++ bs) s' e ∧
      s.rawDataCb cb now bs = s.afterLoop now (s.inbuf ++ bs) (s', e) := by
  by_cases hne : bs = []
  · left
    rw [rawDataCb, if_pos hne]
  · by_cases hlim : WS_MAX_PAYLOAD_SIZE * 2 < s.inbuf.length + bs.length
    · left
      rw [rawDataCb, if_neg hne, if_pos hlim]
    · obtain ⟨s', e, hd⟩ := exists_noted cb (s.ws, s.trace) (s.inbuf ++ bs)
      exact .inr ⟨s', e, hd, rawDataCb_eq hne hlim hd⟩

theorem Tracked.hconInCb (h : s.Tracked) (reads : List ReadRes) : (s.hconInCb cb now reads).Tracked := by
  induction reads generalizing s with
  | nil => exact h
  | cons r reads ih =>
    cases r with
    | again => exact h
    | error => exact h.remConnection
    | data bs =>
      by_cases hne : bs = []
      · rw [WsSession.hconInCb, if_pos hne]
        exact h.remConnection
      · have htracked : (s.rawDataCb cb now bs).1.Tracked := by
          rcases rawDataCb_cases cb now s bs with heq | ⟨s', e, hd, heq⟩
          · rw [heq]
            exact h
          · rw [heq]
            exact Traced.noted (s := (s.ws, s.trace)) h hd
        rw [hconInCb_data hne, passRest]
        split_ifs
        · exact ih htracked
        · exact htracked.remConnection

theorem trace_prefix_hconInCb (s : WsSession τ) (reads : List ReadRes) :
    s.trace <+: (s.hconInCb cb now reads).trace := by
  induction reads generalizing s with
  | nil => exact List.prefix_rfl
  | cons r reads ih =>
    cases r with
    | again => exact List.prefix_rfl
    | error => rw [hconInCb, remConnection_trace]
    | data bs =>
      by_cases hne : bs = []
      · rw [hconInCb, if_pos hne, remConnection_trace]
      · have hpre : s.trace <+: (s.rawDataCb cb now bs).1.trace := by
          rcases rawDataCb_cases cb now s bs with heq | ⟨s', e, hd, heq⟩
          · rw [heq]
          · rw [heq]
            exact Noted.trace_prefix hd
        rw [hconInCb_data hne, passRest]
        split_ifs
        · exact hpre.trans (ih _)
        · rw [remConnection_trace]
          exact hpre

theorem hconInCb_error_trace : (s.hconInCb cb now (.error :: reads)).trace = s.trace := by
  rw [hconInCb, remConnection_trace]

/-- A read of nothing, or of more than the buffer may hold, ends the connection before any frame. -/
theorem hconInCb_refused_trace {bs : List UInt8}
    (h : bs = [] ∨ WS_MAX_PAYLOAD_SIZE * 2 < s.inbuf.length + bs.length) :
    (s.hconInCb cb now (.data bs :: reads)).trace = s.trace := by
  by_cases hne : bs = []
  · rw [hconInCb, if_pos hne, remConnection_trace]
  · rw [hconInCb_data hne, rawDataCb, if_neg hne, if_pos (h.resolve_left hne), passRest,
      if_neg (by exact Bool.false_ne_true), remConnection_trace]

/-- The rest of a pass after a buffer whose last part `bs` is behind the close. -/
theorem late_buf {ws : Ws τ} {trace : List WsNote} {buf bs : List UInt8} {s' : Ws τ × List WsNote}
    {e : End UInt8 WsEnd} (ht : ws.con.terminate = true) (htraced : Traced ws trace) (hends : EndsAtClose trace)
    (hd : Noted cb (ws, trace) bs s' e)
    (ih : ∀ s : WsSession τ, s.Tracked → EndsAtClose s.trace → s.ws.con.terminate = true →
      (EndsAtClose (s.hconInCb cb now reads).trace ↔ lateMessage reads s.ws.frag s.inbuf = false)) :
    EndsAtClose (passRest cb now reads (s.afterLoop now buf (s', e))).trace ↔
      lateInBuf (lateMessage reads) ws.frag buf bs = false := by
  have hlate := drains_drain nextFrame_stable lateFrame ws.frag (Nat.lt_succ_self bs.length)
  unfold lateInBuf
  rcases hres : drain nextFrame lateFrame (bs.length + 1) ws.frag bs with ⟨g, e₀⟩
  rw [hres] at hlate
  have hdone := Traced.late hlate rfl ht htraced hends hd
  have htraced' : Traced s'.1 s'.2 := Traced.noted (s := (ws, trace)) htraced hd
  cases e₀ with
  | more rest =>
    obtain ⟨ht', hfrag, rfl, hends'⟩ := hdone
    have hrest := ih (s.afterLoop now buf (s', .more rest)).1 htraced' hends' ht'
    subst hfrag
    exact hrest
  | bad =>
    obtain ⟨rfl, hends'⟩ := hdone
    refine iff_of_true ?_ rfl
    rw [passRest, if_neg (by exact Bool.false_ne_true), remConnection_trace]
    exact hends'
  | halt x at_ rest =>
    cases x with
    | message =>
      refine iff_of_false (fun hall => hdone ?_) (by simp)
      rw [passRest] at hall
      split_ifs at hall
      · exact hall.of_prefix (trace_prefix_hconInCb (s.afterLoop now buf (s', e)).1 reads)
      · rw [remConnection_trace] at hall
        exact hall
    | fail =>
      obtain ⟨rfl, hends'⟩ := hdone
      refine iff_of_true ?_ rfl
      rw [passRest, if_neg (by exact Bool.false_ne_true), remConnection_trace]
      exact hends'
    | invalid =>
      obtain ⟨ht', hfrag, rfl, hends'⟩ := hdone
      have hrest := ih (s.afterLoop now buf (s', .halt .stop at_ rest)).1 htraced' hends' ht'
      subst hfrag
      exact hrest

/-- A pass behind a close. -/
theorem late_pass (h : s.Tracked) (hends : EndsAtClose s.trace) (ht : s.ws.con.terminate = true)
    (reads : List ReadRes) :
    EndsAtClose (s.hconInCb cb now reads).trace ↔ lateMessage reads s.ws.frag s.inbuf = false := by
  induction reads generalizing s with
  | nil => exact iff_of_true hends rfl
  | cons r reads ih =>
    cases r with
    | again => exact iff_of_true hends rfl
    | error =>
      rw [hconInCb_error_trace]
      exact iff_of_true hends rfl
    | data bs =>
      rw [lateMessage]
      by_cases href : bs = [] ∨ WS_MAX_PAYLOAD_SIZE * 2 < s.inbuf.length + bs.length
      · rw [if_pos href, hconInCb_refused_trace href]
        exact iff_of_true hends rfl
      · obtain ⟨hne, hlim⟩ := not_or.1 href
        obtain ⟨s', e, hd⟩ := exists_noted cb (s.ws, s.trace) (s.inbuf ++ bs)
        rw [if_neg href, hconInCb_data hne, rawDataCb_eq hne hlim hd]
        exact late_buf ht h hends hd fun _ h' hends' ht' => ih h' hends' ht'

/-- A pass that begins while the connection is open. -/
theorem open_pass (h : s.Tracked) (hends : EndsAtClose s.trace) (ho : s.ws.con.terminate = false)
    (reads : List ReadRes) :
    EndsAtClose (s.hconInCb cb now reads).trace ↔ passLate cb reads s.ws s.inbuf = false := by
  induction reads generalizing s with
  | nil => exact iff_of_true hends rfl
  | cons r reads ih =>
    cases r with
    | again => exact iff_of_true hends rfl
    | error =>
      rw [hconInCb_error_trace]
      exact iff_of_true hends rfl
    | data bs =>
      rw [passLate]
      by_cases href : bs = [] ∨ WS_MAX_PAYLOAD_SIZE * 2 < s.inbuf.length + bs.length
      · rw [if_pos href, hconInCb_refused_trace href]
        exact iff_of_true hends rfl
      · obtain ⟨hne, hlim⟩ := not_or.1 href
        rw [if_neg href, hconInCb_data hne]
        dsimp only
        have hclose := drains_drain nextFrame_stable (handleToClose (some cb)) s.ws
          (Nat.lt_succ_self (s.inbuf ++ bs).length)
        rcases hres : drain nextFrame (handleToClose (some cb))
          ((s.inbuf ++ bs).length + 1) s.ws (s.inbuf ++ bs) with
          ⟨ws', e⟩
        rw [hres] at hclose
        obtain ⟨trace', htraced', hends', hreach⟩ := Traced.toClose hclose h hends ho
        cases e with
        | more rest =>
          rw [rawDataCb_eq hne hlim hreach]
          exact ih (s := (s.afterLoop now (s.inbuf ++ bs) ((ws', trace'), .more rest)).1) htraced' hends'
            (ToClose.open hclose ho)
        | bad =>
          refine iff_of_true ?_ rfl
          rw [rawDataCb_eq hne hlim hreach, passRest, if_neg (by exact Bool.false_ne_true), remConnection_trace]
          exact hends'
        | halt y at_ rest =>
          cases y with
          | some x =>
            rw [rawDataCb_eq hne hlim hreach]
            cases x with
            | fail =>
              refine iff_of_true ?_ rfl
              rw [passRest, if_neg (by exact Bool.false_ne_true), remConnection_trace]
              exact hends'
            | stop =>
              exact late_pass (s := (s.afterLoop now (s.inbuf ++ bs)
                ((ws', trace'), .halt .stop at_ rest)).1) htraced'
                hends' (ToClose.ended hclose (by simp)) reads
            | done =>
              exact late_pass (s := (s.afterLoop now (s.inbuf ++ bs)
                ((ws', trace'), .halt .done at_ rest)).1) htraced'
                hends' (ToClose.ended hclose (by simp)) reads
          | none =>
            have ht' : ws'.con.terminate = true := ToClose.ended hclose nofun
            obtain ⟨s'', e, hd⟩ := exists_noted cb (ws', trace') rest
            rw [rawDataCb_eq hne hlim (hreach s'' e hd)]
            exact late_buf ht' htraced' hends' hd fun _ hs hs' hs'' => late_pass hs hs' hs'' reads

/-! ### Runs -/

/-- No pass completes a message behind the close that it comes to. -/
def NoLateMessage (cb : MsgCb τ) (s : WsSession τ) : Ev τ → Prop
  | .input _ reads => s.ws.con.removed = false → s.ws.con.wIn = true → passLate cb reads s.ws s.inbuf = false
  | _ => True

instance (e : Ev τ) : Decidable (NoLateMessage cb s e) := by
  cases e <;> unfold NoLateMessage <;> infer_instance

theorem Tracked.opened (rsp : List UInt8) (app : τ) (now : Nat) : (WsSession.opened rsp app now).Tracked where
  enabled := rfl
  stopped := nofun
  closed := iff_of_false nofun nofun

/-- What isn't input sends at most. -/
theorem Tracked.quiet (h : s.Tracked) (hends : EndsAtClose s.trace) (ws : Ws τ) (hm : ws.messages = s.ws.messages)
    (hs : ∃ fs, s.ws.con.Sends ws.con fs) : (s.setWs ws).Tracked ∧ EndsAtClose (s.setWs ws).trace := by
  obtain ⟨fs, hs⟩ := hs
  obtain ⟨htraced, hkept⟩ := Traced.quiet h hm hs
  exact ⟨htraced, hkept hends⟩

theorem Tracked.wsTimerCb (h : s.Tracked) (hends : EndsAtClose s.trace) (now : Nat) :
    (s.wsTimerCb now).Tracked ∧ EndsAtClose (s.wsTimerCb now).trace := by
  have hclose := h.quiet hends { s.ws with con := (s.ws.con.hsWsClose 1001 (HttpConnection.chars "pong timeout")).1 }
    rfl (HttpConnection.Sends.hsWsClose h.enabled 1001 _)
  have hping := HttpConnection.Sends.wsSendFrame h.enabled (show WS_OP_PING ≠ WS_OP_CLOSE by decide) []
  unfold WsSession.wsTimerCb
  by_cases hoff : s.ws.con.wsEnabled = false ∨ s.ws.con.terminate = true
  · rw [if_pos hoff]
    exact ⟨h, hends⟩
  rw [if_neg hoff]
  by_cases hwait : s.ws.waitingPong = true
  · rw [if_pos hwait]
    by_cases hlate : WS_PONG_TIMEOUT ≤ now - s.pingSentAt
    · rw [if_pos hlate]
      dsimp only
      split_ifs
      · exact hclose
      · exact ⟨hclose.1.remConnection, (remConnection_trace _).symm ▸ hclose.2⟩
    · rw [if_neg hlate]
      exact ⟨h, hends⟩
  rw [if_neg hwait]
  by_cases hidle : WS_IDLE_PING_INTERVAL ≤ now - s.lastRx
  · rw [if_pos hidle]
    dsimp only
    split_ifs
    · exact h.quiet hends { s.ws with con := (s.ws.con.wsSendFrame WS_OP_PING []).1, waitingPong := true } rfl hping
    · have hfailed := h.quiet hends { s.ws with con := (s.ws.con.wsSendFrame WS_OP_PING []).1 } rfl hping
      exact ⟨hfailed.1.remConnection, (remConnection_trace _).symm ▸ hfailed.2⟩
  · rw [if_neg hidle]
    exact ⟨h, hends⟩

theorem Tracked.outLoop (h : s.Tracked) (res : List WriteRes) :
    (s.setCon (s.ws.con.outLoop res)).Tracked ∧ (s.setCon (s.ws.con.outLoop res)).trace = s.trace := by
  obtain ⟨hframes, hterm, hws, hin⟩ := s.ws.con.outLoop_same res
  have htrace : (s.setCon (s.ws.con.outLoop res)).trace = s.trace := by
    simp [setCon, WsSession.setWs, notes, hframes]
  refine ⟨⟨hws.trans h.enabled, fun ht => hin (h.stopped (hterm ▸ ht)), ?_⟩, htrace⟩
  rw [htrace, ← h.closed]
  exact iff_of_eq (congrArg (· = true) hterm)

theorem Tracked.step (h : s.Tracked) (hends : EndsAtClose s.trace) (e : Ev τ) :
    (s.step cb e).Tracked ∧ (EndsAtClose (s.step cb e).trace ↔ NoLateMessage cb s e) := by
  unfold WsSession.step
  by_cases hrem : s.ws.con.removed = true
  · rw [if_pos hrem]
    refine ⟨h, iff_of_true hends ?_⟩
    cases e with
    | input now reads => exact fun hlive => absurd (hlive.symm.trans hrem) Bool.false_ne_true
    | _ => exact trivial
  rw [if_neg hrem]
  cases e with
  | input now reads =>
    dsimp only
    split_ifs with hin
    · have ho : s.ws.con.terminate = false := by
        rcases ht : s.ws.con.terminate with _ | _
        · rfl
        · exact absurd ((h.stopped ht).symm.trans hin) Bool.false_ne_true
      refine ⟨h.hconInCb reads, (open_pass h hends ho reads).trans ⟨fun hq _ _ => hq, fun hq => ?_⟩⟩
      exact hq (Bool.not_eq_true _ ▸ hrem) hin
    · exact ⟨h, iff_of_true hends fun _ hin' => absurd hin' hin⟩
  | timer now =>
    obtain ⟨htracked, hends'⟩ := h.wsTimerCb hends now
    exact ⟨htracked, iff_of_true hends' trivial⟩
  | call c app =>
    obtain ⟨htracked, hends'⟩ := h.quiet hends { s.ws with con := (s.ws.con.appCall c).1, app := app } rfl
      (HttpConnection.Sends.appCall h.enabled c)
    exact ⟨htracked, iff_of_true hends' trivial⟩
  | out res =>
    dsimp only
    split_ifs
    · obtain ⟨htracked, htrace⟩ := h.outLoop res
      exact ⟨htracked, iff_of_true (htrace.symm ▸ hends) trivial⟩
    · exact ⟨h, iff_of_true hends trivial⟩
  | remove => exact ⟨h.remConnection, iff_of_true ((remConnection_trace s).symm ▸ hends) trivial⟩

/-- Nothing comes of what a client sends behind a close, for every stream and all reads of it, exactly if no pass
completes a message behind the close that it comes to. -/
theorem ws_ends_at_close (cb : MsgCb τ) (rsp : List UInt8) (app : τ) (now : Nat) (evs : List (Ev τ)) :
    (∀ as, as <+: evs → EndsAtClose (Run.run (step cb) (opened rsp app now) as).trace) ↔
      Run.StepsOk (step cb) (NoLateMessage cb) (opened rsp app now) evs :=
  Run.forall_prefix_iff (fun _ e h hends => h.step hends e) (Tracked.opened rsp app now) .nil evs

/-- A close frame and a text, in two reads of one pass. -/
theorem ws_message_after_close :
    (Run.run (step fun _ _ _ => .ret () true) (opened [] () 0)
      [.input 0 [.data [0x88, 0x80, 0, 0, 0, 0], .data [0x81, 0x82, 0, 0, 0, 0, 0x7b, 0x7d]]]).trace =
        [.frame ⟨WS_OP_CLOSE, [], by decide⟩, .message WS_OP_TEXT [0x7b, 0x7d]] ∧
      ¬EndsAtClose [.frame ⟨WS_OP_CLOSE, [], by decide⟩, .message WS_OP_TEXT [0x7b, 0x7d]] := by
  decide

end WsSession

end Mhuxd
