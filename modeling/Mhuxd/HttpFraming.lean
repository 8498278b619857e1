import Mhuxd.HttpConnection
import Mhuxd.Lib.Run

/-!
# The frames on the wire

What the queue holds and what was written are whole frames, but for the hard limit: it empties the queue, and
the close frame that follows may stand in the middle of another frame.
-/

namespace Mhuxd

namespace WsFrame

theorem header_ne_nil (opcode : UInt8) (n : Nat) : header opcode n ≠ [] := by simp [header]

/-- The length bytes as numbers in network order. -/
theorem header_eq (opcode : UInt8) (n : Nat) : header opcode n = (0x80 ||| opcode &&& 0x0f) ::
    if n < 126 then [UInt8.ofNat n] else if n ≤ 0xffff then 126 :: WebSocket.toBigEndian 2 n
    else 127 :: WebSocket.toBigEndian 8 n := by
  have hshift : ∀ k, n >>> k = n / 2 ^ k := fun k => Nat.shiftRight_eq_div_pow n k
  unfold header
  split_ifs
  · rfl
  · simp [WebSocket.toBigEndian, hshift]
  · simp [WebSocket.toBigEndian, hshift, List.range_succ, Nat.div_div_eq_div_mul]

/-- The first byte: `FIN`, no reserved bits, the opcode. -/
theorem first_byte (opcode : UInt8) : ((0x80 ||| opcode &&& 0x0f) &&& 0x80 != 0) = true ∧
    (0x80 ||| opcode &&& 0x0f) &&& 0x70 = 0 ∧ (0x80 ||| opcode &&& 0x0f) &&& 0x0f = opcode &&& 0x0f := by
  have h : ∀ b : BitVec 8, (((0x80 ||| UInt8.ofBitVec b &&& 0x0f) &&& 0x80 != 0) = true ∧
      (0x80 ||| UInt8.ofBitVec b &&& 0x0f) &&& 0x70 = 0 ∧
      (0x80 ||| UInt8.ofBitVec b &&& 0x0f) &&& 0x0f = UInt8.ofBitVec b &&& 0x0f) := by decide
  exact h opcode.toBitVec

theorem short_len : ∀ n < 126, (UInt8.ofNat n &&& 0x7f).toNat = n ∧ UInt8.ofNat n &&& 0x80 = 0 := by decide

/-- The header announces the payload that follows it. -/
theorem read_header (opcode : UInt8) {n : Nat} (hn : n < 256 ^ 8) (payload : List UInt8) :
    WebSocket.read (header opcode n ++ payload) = (WebSocket.readPayload false n payload).map fun (key, payload,
      rest) =>
      (⟨true, 0, opcode &&& 0x0f, key, payload⟩, rest) := by
  obtain ⟨hfin, hrsv, hop⟩ := first_byte opcode
  rw [header_eq, List.cons_append]
  split_ifs with hshort hmid
  · obtain ⟨hlen, hmask⟩ := short_len n hshort
    have h126 : n ≠ 126 := by omega
    have h127 : n ≠ 127 := by omega
    simp [WebSocket.read, WebSocket.readLen, hlen, hmask, h126, h127, hfin, hrsv, hop]
  · have h2 : n < 256 ^ 2 := by omega
    have hnat : WebSocket.readNat 2 (WebSocket.toBigEndian 2 n ++ payload) = some (n, payload) :=
      WebSocket.readNat_toBigEndian h2 payload
    simp [WebSocket.read, WebSocket.readLen, hnat, hfin, hrsv, hop]
    rfl
  · have hnat : WebSocket.readNat 8 (WebSocket.toBigEndian 8 n ++ payload) = some (n, payload) :=
      WebSocket.readNat_toBigEndian hn payload
    simp [WebSocket.read, WebSocket.readLen, hnat, hfin, hrsv, hop]
    rfl

/-- A frame of the server is well formed: it is read back with its opcode and its payload. -/
theorem read_bytes (f : WsFrame) (rest : List UInt8) :
    WebSocket.read (f.bytes ++ rest) = some (⟨true, 0, f.opcode &&& 0x0f, none, f.payload⟩, rest) := by
  have hn : f.payload.length < 256 ^ 8 := lt_of_le_of_lt f.fits (by decide)
  rw [bytes, List.append_assoc, read_header _ hn]
  simp [WebSocket.readPayload]

/-- The frame is read back as it was sent. -/
def WellFormed (f : WsFrame) : Prop :=
  WebSocket.read f.bytes = some (⟨true, 0, f.opcode &&& 0x0f, none, f.payload⟩, [])

theorem wellFormed (f : WsFrame) : f.WellFormed := by
  rw [WellFormed, ← f.read_bytes [], List.append_nil]

end WsFrame

namespace HttpConnection

variable {con con' : HttpConnection} {rsp : List UInt8} {opcode : UInt8} {payload data : List UInt8} {hr : HttpResponse}
  {q q' : List HttpResponse} {e : Ev}

/-! ### What sending does -/

/-- The frame's entries are queued. -/
def pushFrame (con : HttpConnection) (f : WsFrame) : HttpConnection :=
  let con := con.push (WsFrame.header f.opcode f.payload.length) true
  let con := if f.payload = [] then con else con.push f.payload false
  { con with frames := con.frames ++ [f] }

/-- The close frame of a client that doesn't read. -/
def backpressure : WsFrame := ⟨WS_OP_CLOSE, closePayload 1013 (chars "backpressure"), by decide⟩

/-- What is left of a connection whose queue went over the limit. -/
def overflowed (con : HttpConnection) : HttpConnection :=
  { { con.clearResponseQueue with wIn := false }.pushFrame backpressure with terminate := true }

/-- A frame of this payload exceeds the hard limit. -/
def Exceeds (con : HttpConnection) (opcode : UInt8) (payload : List UInt8) : Prop :=
  con.terminate = false ∧ payload.length ≤ WS_MAX_PAYLOAD_SIZE ∧
    OUTQ_HARD_LIMIT < con.outqBytes + (WsFrame.header opcode payload.length).length + payload.length

instance : Decidable (con.Exceeds opcode payload) := by unfold Exceeds; infer_instance

theorem queue_fits {n : Nat} (ht : con.terminate = false) (hne : data ≠ [])
    (hfit : con.outqBytes + data.length ≤ OUTQ_HARD_LIMIT) (first : Bool) :
    queueResponseData (n + 1) con data first = (con.push data first, true) := by
  rw [queueResponseData, if_neg (by simp [ht]), if_neg hne, if_neg (by omega)]

/-- A frame that fits is queued. -/
theorem sendFrame_fits {n : Nat} (ht : con.terminate = false) (f : WsFrame)
    (hfit : con.outqBytes + (WsFrame.header f.opcode f.payload.length).length + f.payload.length ≤ OUTQ_HARD_LIMIT) :
    con.sendFrameBy (queueResponseData (n + 1)) f.opcode f.payload = (con.pushFrame f, true) := by
  have hheader := queue_fits (n := n) ht (WsFrame.header_ne_nil f.opcode f.payload.length) (by omega) true
  rw [sendFrameBy, dif_neg (Nat.not_lt.2 f.fits), hheader]
  dsimp only
  by_cases hnil : f.payload = []
  · rw [if_pos hnil, pushFrame, if_pos hnil]
  · have ht' : (con.push (WsFrame.header f.opcode f.payload.length) true).terminate = false := ht
    have hroom : (con.push (WsFrame.header f.opcode f.payload.length) true).outqBytes + f.payload.length ≤
        OUTQ_HARD_LIMIT := by simpa [push] using hfit
    rw [if_neg hnil, queue_fits ht' hnil hroom, pushFrame, if_neg hnil]

/-- Over the limit the queue is emptied and a close frame takes its place. -/
theorem queue_exceeds {n : Nat} (hws : con.wsEnabled = true) (ht : con.terminate = false) (hne : data ≠ [])
    (hover : OUTQ_HARD_LIMIT < con.outqBytes + data.length) (first : Bool) :
    queueResponseData (n + 2) con data first = (con.overflowed, false) := by
  have hcleared : ({ con.clearResponseQueue with wIn := false } : HttpConnection).terminate = false := ht
  have hroom : 0 + (WsFrame.header backpressure.opcode backpressure.payload.length).length + backpressure.payload.length ≤
      OUTQ_HARD_LIMIT := by decide
  have hsend := sendFrame_fits (n := n) hcleared backpressure hroom
  have hclose : closeBy (queueResponseData (n + 1)) con.clearResponseQueue 1013 (chars "backpressure") =
      (con.overflowed, true) := by
    rw [closeBy, if_neg (by simp [clearResponseQueue, ht])]
    exact congrArg (fun x : HttpConnection × Bool => ({ x.1 with terminate := true }, x.2)) hsend
  rw [queueResponseData, if_neg (by simp [ht]), if_neg hne, if_pos hover, if_pos hws, hclose]

/-- Sending a frame over the limit has the same end, whichever part of it is over the limit. -/
theorem sendFrame_exceeds {n : Nat} (hws : con.wsEnabled = true) (h : con.Exceeds opcode payload) :
    con.sendFrameBy (queueResponseData (n + 2)) opcode payload = (con.overflowed, false) := by
  obtain ⟨ht, hle, hover⟩ := h
  rw [sendFrameBy, dif_neg (Nat.not_lt.2 hle)]
  by_cases hheader : con.outqBytes + (WsFrame.header opcode payload.length).length ≤ OUTQ_HARD_LIMIT
  · have hne : payload ≠ [] := by
      rintro rfl
      rw [List.length_nil] at hover hheader
      omega
    rw [queue_fits ht (WsFrame.header_ne_nil opcode payload.length) hheader]
    dsimp only
    have hws' : (con.push (WsFrame.header opcode payload.length) true).wsEnabled = true := hws
    have ht' : (con.push (WsFrame.header opcode payload.length) true).terminate = false := ht
    have hfull : OUTQ_HARD_LIMIT < (con.push (WsFrame.header opcode payload.length) true).outqBytes + payload.length := by
      simpa [push] using hover
    rw [if_neg hne, queue_exceeds hws' ht' hne hfull]
    rfl
  · rw [queue_exceeds hws ht (WsFrame.header_ne_nil opcode payload.length) (Nat.not_le.1 hheader)]

/-! ### The invariant -/

/-- What is left to write. -/
def bytesLeft (q : List HttpResponse) : List UInt8 := q.flatMap fun hr => hr.data.drop hr.sent

/-- The queue is empty or begins with a frame of which nothing was written. -/
def AtStart (q : List HttpResponse) : Prop := ∀ hr ∈ q.head?, hr.first = true ∧ hr.sent = 0

instance : Decidable (AtStart q) := by unfold AtStart; infer_instance

/-- Up to each place in the queue where a frame begins or nothing follows, the bytes written and the bytes
left are the response and whole frames. -/
def OnFrames (rsp : List UInt8) (con : HttpConnection) : Prop :=
  ∀ q₁ q₂, con.responseList = q₁ ++ q₂ → AtStart q₂ →
    ∃ fs : List WsFrame, fs.Sublist con.frames ∧ con.wire ++ bytesLeft q₁ = rsp ++ fs.flatMap WsFrame.bytes

/-- What was written is a prefix of the response and well-formed frames that were sent, in this order. -/
def Intact (rsp : List UInt8) (con : HttpConnection) : Prop :=
  ∃ fs : List WsFrame, fs.Sublist con.frames ∧ (∀ f ∈ fs, f.WellFormed) ∧
  con.wire <+: rsp ++ fs.flatMap WsFrame.bytes

theorem OnFrames.intact (h : con.OnFrames rsp) : con.Intact rsp := by
  obtain ⟨fs, hsub, heq⟩ := h con.responseList [] (List.append_nil _).symm nofun
  exact ⟨fs, hsub, fun f _ => f.wellFormed, _, heq⟩

@[simp] theorem bytesLeft_nil : bytesLeft [] = [] := rfl

@[simp] theorem bytesLeft_cons : bytesLeft (hr :: q) = hr.data.drop hr.sent ++ bytesLeft q := rfl

@[simp] theorem bytesLeft_append : bytesLeft (q ++ q') = bytesLeft q ++ bytesLeft q' := List.flatMap_append ..

@[simp] theorem atStart_nil : AtStart [] := nofun

@[simp] theorem atStart_cons : AtStart (hr :: q) ↔ hr.first = true ∧ hr.sent = 0 := by simp [AtStart]

/-- Only the queue, the bytes and the frames count. -/
theorem OnFrames.congr (h : con.OnFrames rsp) (hl : con'.responseList = con.responseList)
    (hw : con'.wire = con.wire)
    (hf : con'.frames = con.frames) : con'.OnFrames rsp := by
  intro q₁ q₂ hq hat
  rw [hw, hf]
  exact h q₁ q₂ (hl.symm.trans hq) hat

/-- A frame is queued. -/
theorem OnFrames.pushFrame (h : con.OnFrames rsp) (f : WsFrame) : (con.pushFrame f).OnFrames rsp := by
  obtain ⟨tail, hlist, hbytes, htail⟩ : ∃ tail, (con.pushFrame f).responseList =
      con.responseList ++ (⟨WsFrame.header f.opcode f.payload.length, 0, true⟩ :: tail) ∧
      WsFrame.header f.opcode f.payload.length ++ bytesLeft tail = f.bytes ∧ ∀ hr ∈ tail, hr.first = false := by
    by_cases hnil : f.payload = []
    · exact ⟨[], by simp [HttpConnection.pushFrame, hnil, push], by simp [WsFrame.bytes, hnil], nofun⟩
    · exact ⟨[⟨f.payload, 0, false⟩], by simp [HttpConnection.pushFrame, hnil, push], by simp [WsFrame.bytes],
        by simp⟩
  have hrest : (con.pushFrame f).wire = con.wire ∧ (con.pushFrame f).frames = con.frames ++ [f] := by
    unfold HttpConnection.pushFrame
    split_ifs <;> exact ⟨rfl, rfl⟩
  obtain ⟨hwire, hframes⟩ := hrest
  intro q₁ q₂ hq hat
  rw [hlist] at hq
  rw [hwire, hframes]
  rcases List.append_eq_append_iff.1 hq with ⟨a, rfl, ha⟩ | ⟨c, hc, rfl⟩
  · -- the split is in the new frame: before it or behind it
    obtain ⟨fs, hsub, heq⟩ := h con.responseList [] (List.append_nil _).symm atStart_nil
    cases a with
    | nil => exact ⟨fs, hsub.trans (List.sublist_append_left ..), by simpa using heq⟩
    | cons x a =>
      obtain ⟨rfl, ha'⟩ : x = _ ∧ tail = a ++ q₂ := (List.cons_eq_cons.1 ha).imp_left Eq.symm
      cases q₂ with
      | nil =>
        rw [List.append_nil] at ha'
        refine ⟨fs ++ [f], hsub.append_right [f], ?_⟩
        rw [bytesLeft_append, ← List.append_assoc, heq, List.flatMap_append, bytesLeft_cons, List.drop_zero,
          ← ha', hbytes]
        simp
      | cons hr q₂ =>
        have hmem : hr ∈ tail := by rw [ha']; simp
        rw [atStart_cons, htail hr hmem] at hat
        exact absurd hat.1 Bool.false_ne_true
  · have hat' : AtStart c := by
      cases c with
      | nil => exact atStart_nil
      | cons hr c => exact hat
    obtain ⟨fs, hsub, heq⟩ := h q₁ c hc hat'
    exact ⟨fs, hsub.trans (List.sublist_append_left ..), heq⟩

/-- The queue is emptied where a frame begins. -/
theorem OnFrames.overflowed (h : con.OnFrames rsp) (hat : AtStart con.responseList) :
    con.overflowed.OnFrames rsp := by
  obtain ⟨fs, hsub, heq⟩ := h [] con.responseList rfl hat
  have hcleared : ({ con.clearResponseQueue with wIn := false } : HttpConnection).OnFrames rsp := by
    intro q₁ q₂ hq _
    obtain ⟨rfl, -⟩ := List.append_eq_nil_iff.1 hq.symm
    exact ⟨fs, hsub, heq⟩
  exact (hcleared.pushFrame backpressure).congr rfl rfl rfl

/-- Bytes of the first entry are written. -/
theorem OnFrames.written (h : con.OnFrames rsp) (hl : con.responseList = hr :: q) {r : Nat}
    (hl' : con'.responseList = if hr.sent + r = hr.data.length then q else { hr with sent := hr.sent + r } :: q)
    (hw : con'.wire = con.wire ++ (hr.data.drop hr.sent).take r) (hf : con'.frames = con.frames) :
    con'.OnFrames rsp := by
  have hsplit : (hr.data.drop hr.sent).take r ++ hr.data.drop (hr.sent + r) = hr.data.drop hr.sent := by
    rw [← List.drop_drop, List.take_append_drop]
  intro q₁ q₂ hq hat
  rw [hw, hf]
  rw [hl'] at hq
  split_ifs at hq with hall
  · obtain ⟨fs, hsub, heq⟩ := h (hr :: q₁) q₂ (by rw [hl, hq, List.cons_append]) hat
    rw [hall, List.drop_length, List.append_nil] at hsplit
    rw [bytesLeft_cons, ← List.append_assoc] at heq
    exact ⟨fs, hsub, by rw [hsplit, heq]⟩
  · cases q₁ with
    | nil =>
      rw [List.nil_append] at hq
      rw [← hq, atStart_cons] at hat
      have hsent : hr.sent = 0 ∧ r = 0 := by
        have hzero : hr.sent + r = 0 := hat.2
        omega
      obtain ⟨fs, hsub, heq⟩ := h [] (hr :: q) hl (atStart_cons.2 ⟨hat.1, hsent.1⟩)
      exact ⟨fs, hsub, by simpa [hsent.2] using heq⟩
    | cons x q₁ =>
      obtain ⟨rfl, hq'⟩ : x = _ ∧ q = q₁ ++ q₂ := (List.cons_eq_cons.1 hq).imp_left Eq.symm
      obtain ⟨fs, hsub, heq⟩ := h (hr :: q₁) q₂ (by rw [hl, hq', List.cons_append]) hat
      refine ⟨fs, hsub, ?_⟩
      rw [bytesLeft_cons] at heq ⊢
      rw [← heq, List.append_assoc, ← List.append_assoc (List.take _ _)]
      exact congrArg (fun x => con.wire ++ (x ++ bytesLeft q₁)) hsplit

/-! ### Steps -/

/-- Whatever was sent, what was written is intact; while the connection lives, the queue is as well. -/
structure Good (rsp : List UInt8) (con : HttpConnection) : Prop where
  ws : con.wsEnabled = true
  intact : con.Intact rsp
  queue : con.removed = false → con.OnFrames rsp

/-- What has to hold for a step to leave the frames whole: what is sent over the hard limit finds that the
queue begins with a frame, nothing of it written. -/
def KeepsFrames (con : HttpConnection) : Ev → Prop
  | .send opcode payload => con.Exceeds opcode payload → AtStart con.responseList
  | .close code reason => con.Exceeds WS_OP_CLOSE (closePayload code reason) → AtStart con.responseList
  | .answerClose payload => con.Exceeds WS_OP_CLOSE payload → AtStart con.responseList
  | _ => True

theorem Good.of_onFrames (hws : con.wsEnabled = true) (h : con.OnFrames rsp) :
    con.Good rsp := ⟨hws, h.intact, fun _ => h⟩

/-- A frame is sent: nothing changes, it is queued, or it exceeds the limit. -/
theorem wsSendFrame_cases (hws : con.wsEnabled = true) (opcode : UInt8) (payload : List UInt8) :
    con.wsSendFrame opcode payload = (con, false) ∨
      (∃ f : WsFrame, con.wsSendFrame opcode payload = (con.pushFrame f, true)) ∨
      con.Exceeds opcode payload ∧ con.wsSendFrame opcode payload = (con.overflowed, false) := by
  by_cases hle : payload.length ≤ WS_MAX_PAYLOAD_SIZE
  · by_cases ht : con.terminate = true
    · left
      rw [wsSendFrame, sendFrameBy, dif_neg (Nat.not_lt.2 hle), queueResponseData, if_pos ht]
    · rw [Bool.not_eq_true] at ht
      by_cases hover : OUTQ_HARD_LIMIT < con.outqBytes + (WsFrame.header opcode payload.length).length + payload.length
      · exact .inr (.inr ⟨⟨ht, hle, hover⟩, sendFrame_exceeds hws ⟨ht, hle, hover⟩⟩)
      · exact .inr (.inl ⟨⟨opcode, payload, hle⟩, sendFrame_fits ht ⟨opcode, payload, hle⟩ (Nat.not_lt.1 hover)⟩)
  · left
    rw [wsSendFrame, sendFrameBy, dif_pos (Nat.not_le.1 hle)]

theorem Good.wsSendFrame (h : con.Good rsp) (hlive : con.removed = false)
    (hkeep : con.Exceeds opcode payload → AtStart con.responseList) :
    (con.wsSendFrame opcode payload).1.wsEnabled = true ∧ (con.wsSendFrame opcode payload).1.OnFrames rsp := by
  have hq := h.queue hlive
  rcases wsSendFrame_cases h.ws opcode payload with heq | ⟨f, heq⟩ | ⟨hover, heq⟩
  · rw [heq]
    exact ⟨h.ws, hq⟩
  · rw [heq]
    exact ⟨by rw [← h.ws]; unfold HttpConnection.pushFrame; split_ifs <;> rfl, hq.pushFrame f⟩
  · rw [heq]
    exact ⟨h.ws, hq.overflowed (hkeep hover)⟩

theorem Good.remConnection (h : con.Good rsp) : con.remConnection.Good rsp := ⟨h.ws, h.intact, nofun⟩

theorem Good.outDone (h : con.Good rsp) : con.outDone.Good rsp := by
  have hstopped : ({ con with wOut := false } : HttpConnection).Good rsp :=
    ⟨h.ws, h.intact, fun hlive => (h.queue hlive).congr rfl rfl rfl⟩
  unfold HttpConnection.outDone
  split_ifs
  · exact hstopped.remConnection
  · exact hstopped

theorem Good.outLoop (h : con.Good rsp) (hlive : con.removed = false) (res : List WriteRes) :
    (con.outLoop res).Good rsp := by
  induction res generalizing con with
  | nil =>
    unfold HttpConnection.outLoop
    split
    · exact h.outDone
    · exact h
  | cons x res ih =>
    unfold HttpConnection.outLoop
    rcases hl : con.responseList with _ | ⟨hr, hrs⟩
    · exact h.outDone
    · cases x with
      | again => exact h
      | error => exact h.remConnection
      | wrote n =>
        dsimp only
        have hwritten : ∀ con' : HttpConnection, _ → _ → _ → con'.OnFrames rsp := fun con' =>
          (h.queue hlive).written hl (r := min n (hr.data.length - hr.sent))
        split_ifs with hall
        · exact ih (.of_onFrames h.ws (hwritten _ (by rw [if_pos hall]) rfl rfl)) hlive
        · exact ih (.of_onFrames h.ws (hwritten _ (by rw [if_neg hall]) rfl rfl)) hlive

/-- A step that keeps the frames keeps the invariant. -/
theorem Good.step (h : con.Good rsp) {e : Ev} (hkeep : con.KeepsFrames e) : (con.step e).Good rsp := by
  unfold HttpConnection.step
  rcases hgone : con.removed with _ | _
  swap
  · exact h
  rw [if_neg Bool.false_ne_true]
  cases e with
  | send opcode payload =>
    obtain ⟨hws, hq⟩ := h.wsSendFrame hgone hkeep
    exact .of_onFrames hws hq
  | close code reason =>
    dsimp only
    rw [hsWsClose, closeBy]
    split_ifs with ht
    · exact h
    · have hstopped : ({ con with wIn := false } : HttpConnection).Good rsp :=
        .of_onFrames h.ws ((h.queue hgone).congr rfl rfl rfl)
      obtain ⟨hws, hq⟩ := hstopped.wsSendFrame hgone hkeep
      exact .of_onFrames hws (hq.congr rfl rfl rfl)
  | answerClose payload =>
    obtain ⟨hws, hq⟩ := h.wsSendFrame hgone hkeep
    dsimp only
    unfold HttpConnection.answerClose
    split
    · next con' heq =>
      rw [heq] at hws hq
      exact .of_onFrames hws hq
    · next con' heq =>
      rw [heq] at hws hq
      exact .of_onFrames hws (hq.congr rfl rfl rfl)
  | out res =>
    dsimp only
    split_ifs
    · exact h.outLoop hgone res
    · exact h
  | remove => exact h.remConnection

theorem Good.upgraded (rsp : List UInt8) : (upgraded rsp).Good rsp := by
  refine .of_onFrames rfl fun q₁ q₂ hq hat => ⟨[], .slnil, ?_⟩
  cases q₁ with
  | nil =>
    rw [← List.nil_append q₂, ← hq, HttpConnection.upgraded, atStart_cons] at hat
    exact absurd hat.1 Bool.false_ne_true
  | cons hr q₁ =>
    obtain ⟨rfl, hnil⟩ : hr = _ ∧ [] = q₁ ++ q₂ := (List.cons_eq_cons.1 hq).imp_left Eq.symm
    obtain ⟨rfl, -⟩ := List.append_eq_nil_iff.1 hnil.symm
    simp [HttpConnection.upgraded]

/-- In a run that empties the queue only where a frame begins, what is written is intact. -/
theorem ws_output_framed {rsp : List UInt8} {evs : List Ev} (h : Run.StepsOk step KeepsFrames (upgraded rsp) evs)
    {as : List Ev} (has : as <+: evs) : (Run.run step (upgraded rsp) as).Intact rsp := by
  obtain ⟨bs, rfl⟩ := has
  have hgood : (Run.run step (upgraded rsp) as).Good rsp :=
    Run.run_inv_of_ok (I := Good rsp) (fun _ _ hg hkeep => hg.step hkeep) (.upgraded rsp) h.left
  exact hgood.intact

instance : Decidable (con.KeepsFrames e) := by
  cases e <;> unfold KeepsFrames <;> infer_instance

theorem ws_output_framed_ping : (Run.run step (upgraded [0x48, 0x54])
    [.send WS_OP_PING [], .out [.wrote 2, .wrote 1], .send WS_OP_TEXT [0x61], .close 1001 []]).Intact [0x48,
    0x54] := by
  have hsteps : Run.StepsOk step KeepsFrames (upgraded [0x48, 0x54])
      [.send WS_OP_PING [], .out [.wrote 2, .wrote 1], .send WS_OP_TEXT [0x61], .close 1001 []] := by decide
  exact ws_output_framed hsteps (List.prefix_refl _)

/-! ### A frame that is cut -/

/-- Two messages; the socket takes 100000 bytes of the first one's payload before the second is sent. -/
def cutRun (m m' : List UInt8) : List Ev :=
  [.out [.wrote 2], .send WS_OP_TEXT m, .out [.wrote 10, .wrote 100000], .send WS_OP_TEXT m',
    .out [.wrote 2, .wrote 14]]

theorem header_long : WsFrame.header WS_OP_TEXT 600000 = [0x81, 127, 0, 0, 0, 0, 0, 9, 39, 192] := by decide

/-- The first message is queued. -/
theorem cutRun_queued {m : List UInt8} (hm : m.length = 600000) (hle : m.length ≤ WS_MAX_PAYLOAD_SIZE) :
    Run.run step (upgraded [0x48, 0x54]) [.out [.wrote 2], .send WS_OP_TEXT m] =
      ⟨true, false, true, true, [⟨WsFrame.header WS_OP_TEXT 600000, 0, true⟩, ⟨m, 0, false⟩], 600010, false,
        [0x48, 0x54], [⟨WS_OP_TEXT, m, hle⟩]⟩ := by
  have hne : m ≠ [] := by
    rintro rfl
    simp at hm
  have hwritten : step (upgraded [0x48, 0x54]) (.out [.wrote 2]) =
      ⟨true, false, true, false, [], 0, false, [0x48, 0x54], []⟩ := by decide
  have hroom : 0 + (WsFrame.header WS_OP_TEXT m.length).length + m.length ≤ OUTQ_HARD_LIMIT := by
    rw [hm]
    decide
  have hsent : step ⟨true, false, true, false, [], 0, false, [0x48, 0x54], []⟩ (.send WS_OP_TEXT m) =
      pushFrame ⟨true, false, true, false, [], 0, false, [0x48, 0x54], []⟩ ⟨WS_OP_TEXT, m, hle⟩ :=
    congrArg Prod.fst (sendFrame_fits rfl ⟨WS_OP_TEXT, m, hle⟩ hroom)
  rw [Run.run_cons, Run.run_cons, Run.run_nil, hwritten, hsent, pushFrame, if_neg hne]
  simp [push, hm, header_long]

/-- The socket takes the header and a part of the payload. -/
theorem cutRun_partial {m : List UInt8} (hm : m.length = 600000) (hle : m.length ≤ WS_MAX_PAYLOAD_SIZE) :
    step ⟨true, false, true, true, [⟨WsFrame.header WS_OP_TEXT 600000, 0, true⟩, ⟨m, 0, false⟩], 600010, false,
        [0x48, 0x54], [⟨WS_OP_TEXT, m, hle⟩]⟩ (.out [.wrote 10, .wrote 100000]) =
      ⟨true, false, true, true, [⟨m, 100000, false⟩], 500000, false,
        [0x48, 0x54] ++ (WsFrame.header WS_OP_TEXT 600000 ++ m.take 100000), [⟨WS_OP_TEXT, m, hle⟩]⟩ := by
  simp [step, outLoop, hm, header_long]

/-- The close frame is written. -/
theorem overflowed_out (hlive : con.removed = false) :
    (step con.overflowed (.out [.wrote 2, .wrote 14])).wire = con.wire ++ backpressure.bytes ∧
      (step con.overflowed (.out [.wrote 2, .wrote 14])).frames = con.frames ++ [backpressure] := by
  have hlist : con.overflowed.responseList =
      [⟨WsFrame.header WS_OP_CLOSE 14, 0, true⟩, ⟨backpressure.payload, 0, false⟩] := rfl
  have hpayload : backpressure.payload.length = 14 := by decide
  have hheader : (WsFrame.header WS_OP_CLOSE 14).length = 2 := by decide
  have hwire : con.overflowed.wire = con.wire := rfl
  have hframes : con.overflowed.frames = con.frames ++ [backpressure] := rfl
  have hsame : con.overflowed.removed = false ∧ con.overflowed.wOut = true ∧ con.overflowed.terminate = true :=
    ⟨hlive, rfl, rfl⟩
  obtain ⟨hremoved, hout, hterm⟩ := hsame
  rw [step, if_neg (by simp [hremoved])]
  have hbytes : (WsFrame.header WS_OP_CLOSE 14).take 2 ++ backpressure.payload.take 14 = backpressure.bytes :=
    by decide
  simp [hout, outLoop, outDone, hlist, hheader, hpayload, hterm, hwire, hframes, hbytes, remConnection]

/-- The close frame follows the part of the payload. -/
theorem cutRun_wire {m m' : List UInt8} (hm : m.length = 600000) (hm' : m'.length = 600000)
    (hle : m.length ≤ WS_MAX_PAYLOAD_SIZE) :
    (Run.run step (upgraded [0x48, 0x54]) (cutRun m m')).wire =
        [0x48, 0x54] ++ (WsFrame.header WS_OP_TEXT 600000 ++ m.take 100000) ++ backpressure.bytes ∧
      (Run.run step (upgraded [0x48, 0x54]) (cutRun m m')).frames = [⟨WS_OP_TEXT, m, hle⟩, backpressure] := by
  obtain ⟨c, hc⟩ : ∃ c : HttpConnection, c = ⟨true, false, true, true, [⟨m, 100000, false⟩], 500000, false,
      [0x48, 0x54] ++ (WsFrame.header WS_OP_TEXT 600000 ++ m.take 100000), [⟨WS_OP_TEXT, m, hle⟩]⟩ := ⟨_, rfl⟩
  have hover : c.Exceeds WS_OP_TEXT m' := by
    refine ⟨by rw [hc], by rw [hm']; decide, ?_⟩
    rw [hc, hm']
    show OUTQ_HARD_LIMIT < 500000 + (WsFrame.header WS_OP_TEXT 600000).length + 600000
    decide
  have hover' : step c (.send WS_OP_TEXT m') = c.overflowed := by
    have hlive : c.removed = false := by rw [hc]
    rw [step, if_neg (by simp [hlive])]
    exact congrArg Prod.fst (sendFrame_exceeds (by rw [hc]) hover)
  have hrun : Run.run step (upgraded [0x48, 0x54]) (cutRun m m') =
    step (step c (.send WS_OP_TEXT m')) (.out [.wrote 2, .wrote 14]) := by
    rw [hc, ← cutRun_partial hm hle, ← cutRun_queued hm hle]
    rfl
  have hwire : c.wire = [0x48, 0x54] ++ (WsFrame.header WS_OP_TEXT 600000 ++ m.take 100000) := by rw [hc]
  have hframes : c.frames = [⟨WS_OP_TEXT, m, hle⟩] := by rw [hc]
  have hlive : c.removed = false := by rw [hc]
  have hend := overflowed_out hlive
  rw [hwire, hframes] at hend
  rw [hrun, hover']
  exact hend

/-- No frame of the two messages, and no close frame, begins like this. -/
theorem cut_not_frames {m m' : List UInt8} (hm : m.length = 600000) (hm' : m'.length = 600000)
    (ha : ∀ i < 600000, m[i]? = some 0x61) (hb : m'[0]? = some 0x62) {fs : List WsFrame}
    (hfs : ∀ f ∈ fs, f.opcode = WS_OP_TEXT ∧ (f.payload = m ∨ f.payload = m') ∨ f = backpressure) :
    ¬ WsFrame.header WS_OP_TEXT 600000 ++ m.take 100000 ++ backpressure.bytes <+: fs.flatMap WsFrame.bytes := by
  rintro ⟨rest, h⟩
  have hat : ∀ i : Nat, (WsFrame.header WS_OP_TEXT 600000 ++ m.take 100000 ++ backpressure.bytes ++ rest)[i]? =
      (fs.flatMap WsFrame.bytes)[i]? := by
    intro i
    rw [h]
  have h0 : m[0]? = some 0x61 := ha 0 (by omega)
  have hcut : m[100000]? = some 0x61 := ha 100000 (by omega)
  have hbp : backpressure.bytes[0]? = some 0x88 := by decide
  simp only [getElem?_eq_some_iff] at h0 hcut hb hbp
  obtain ⟨_, h0⟩ := h0
  obtain ⟨_, hcut⟩ := hcut
  obtain ⟨_, hb⟩ := hb
  obtain ⟨hpos, hbp⟩ := hbp
  cases fs with
  | nil =>
    have hfirst := hat 0
    simp [header_long] at hfirst
  | cons f fs =>
    rcases hfs f List.mem_cons_self with ⟨hop, hpay | hpay⟩ | rfl
    · -- the payload goes on where the close frame stands
      have hf : f.bytes = WsFrame.header WS_OP_TEXT 600000 ++ m := by rw [WsFrame.bytes, hop, hpay, hm]
      have hclose := hat 100010
      rw [List.flatMap_cons, hf] at hclose
      simp [header_long, List.getElem?_append, hm, hpos, hbp, hcut] at hclose
    · have hf : f.bytes = WsFrame.header WS_OP_TEXT 600000 ++ m' := by rw [WsFrame.bytes, hop, hpay, hm']
      have hfirst := hat 10
      rw [List.flatMap_cons, hf] at hfirst
      simp [header_long, hm, hm', h0, hb] at hfirst
    · have hfirst := hat 0
      simp [header_long, hpos, hbp] at hfirst

/-- The second message is over the limit: the queue is emptied, and the close frame follows a part of the first
message's payload. No frames of these messages and the close frame begin like what is on the wire. -/
theorem ws_output_cut :
    ¬ (Run.run step (upgraded [0x48, 0x54]) (cutRun (List.replicate 600000 0x61)
      (List.replicate 600000 0x62))).Intact
        [0x48, 0x54] ∧
      ∀ fs : List WsFrame, (∀ f ∈ fs, f.opcode = WS_OP_TEXT ∧
          (f.payload = List.replicate 600000 0x61 ∨ f.payload = List.replicate 600000 0x62) ∨ f = backpressure) →
        ¬ (Run.run step (upgraded [0x48, 0x54])
            (cutRun (List.replicate 600000 0x61) (List.replicate 600000 0x62))).wire <+:
          [0x48, 0x54] ++ fs.flatMap WsFrame.bytes := by
  obtain ⟨m, hmdef⟩ : ∃ m : List UInt8, m = List.replicate 600000 0x61 := ⟨_, rfl⟩
  obtain ⟨m', hmdef'⟩ : ∃ m : List UInt8, m = List.replicate 600000 0x62 := ⟨_, rfl⟩
  rw [← hmdef, ← hmdef']
  have hm : m.length = 600000 := by rw [hmdef, List.length_replicate]
  have hm' : m'.length = 600000 := by rw [hmdef', List.length_replicate]
  have hle : m.length ≤ WS_MAX_PAYLOAD_SIZE := by
    rw [hm]
    decide
  have ha : ∀ i < 600000, m[i]? = some 0x61 := by
    intro i hi
    rw [hmdef, List.getElem?_replicate, if_pos hi]
  have hb : m'[0]? = some 0x62 := by rw [hmdef', List.getElem?_replicate, if_pos (by omega)]
  obtain ⟨hwire, hframes⟩ := cutRun_wire hm hm' hle
  have hno : ∀ fs : List WsFrame, (∀ f ∈ fs, f.opcode = WS_OP_TEXT ∧ (f.payload = m ∨ f.payload = m') ∨
    f = backpressure) →
      ¬ (Run.run step (upgraded [0x48, 0x54]) (cutRun m m')).wire <+: [0x48, 0x54] ++
      fs.flatMap WsFrame.bytes := by
    intro fs hfs hpre
    rw [hwire, List.append_assoc, List.prefix_append_right_inj] at hpre
    exact cut_not_frames hm hm' ha hb hfs hpre
  refine ⟨?_, hno⟩
  rintro ⟨fs, hsub, -, hpre⟩
  refine hno fs (fun f hf => ?_) hpre
  have hmem : f ∈ [⟨WS_OP_TEXT, m, hle⟩, backpressure] := hframes ▸ hsub.subset hf
  rcases List.mem_pair.1 hmem with rfl | rfl
  · exact .inl ⟨rfl, .inl rfl⟩
  · exact .inr rfl

end HttpConnection

end Mhuxd
