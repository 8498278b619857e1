import Mhuxd.HttpFraming
import Mhuxd.WsParse

/-!
# Chunks of a WebSocket client

The parser takes the same frames off the stream wherever it is cut. What depends on the cut is a message on which
the application closes the connection: frames behind it in the same chunk are still handled, those of a later
chunk are not.
-/

namespace Mhuxd

open WebSocket Framing

variable {τ : Type} {cb : Option (MsgCb τ)} {ws ws' : Ws τ} {f : ClientFrame} {xs ys rest : List UInt8}

/-! ### The parser -/

theorem frameBody_own {fin masked : Bool} {opcode : UInt8} {n : Nat} (h : frameBody fin opcode masked n xs = .item f rest) :
    ∃ pre, xs = pre ++ rest ∧ pre.length = 4 + n ∧ n ≤ WS_MAX_PAYLOAD_SIZE ∧
      ∀ ys, frameBody fin opcode masked n (pre ++ ys) = .item f ys := by
  unfold frameBody at h
  split_ifs at h with hmask hmax hshort hctl
  cases h
  have hlen : (xs.take (4 + n)).length = 4 + n := by rw [List.length_take]; omega
  refine ⟨xs.take (4 + n), (List.take_append_drop ..).symm, hlen, Nat.not_lt.1 hmax, fun ys => ?_⟩
  have h4 : (xs.take (4 + n) ++ ys).take 4 = xs.take 4 := by
    rw [List.take_append_of_le_length (by omega), List.take_take, Nat.min_eq_left (by omega)]
  have hn : ((xs.take (4 + n) ++ ys).drop 4).take n = (xs.drop 4).take n := by
    rw [List.drop_append_of_le_length (by omega), List.drop_take, Nat.add_sub_cancel_left,
      List.take_append_of_le_length
      (by rw [List.length_take, List.length_drop]; omega), List.take_take, Nat.min_self]
  rw [frameBody, if_neg hmask, if_neg hmax, if_neg (by rw [List.length_append]; omega), if_neg hctl, h4, hn,
    List.drop_left' hlen]

theorem frameBody_bad {fin masked : Bool} {opcode : UInt8} {n : Nat} (h : frameBody fin opcode masked n xs = .bad)
    (ys : List UInt8) : frameBody fin opcode masked n (xs ++ ys) = .bad := by
  unfold frameBody at h ⊢
  split_ifs at h ⊢ with hmask hmax hshort hctl hshort' <;> first | rfl | skip
  all_goals
    rw [List.length_append] at *
    omega

theorem frameBody_more {fin masked : Bool} {opcode : UInt8} {n : Nat} (h : frameBody fin opcode masked n xs = .more) :
    xs.length < 4 + n ∧ n ≤ WS_MAX_PAYLOAD_SIZE := by
  unfold frameBody at h
  split_ifs at h with hmask hmax hshort
  exact ⟨hshort, Nat.not_lt.1 hmax⟩

/-- A frame is seen from its own bytes. -/
theorem nextFrame_own (h : nextFrame xs = .item f rest) :
    ∃ pre, pre ≠ [] ∧ xs = pre ++ rest ∧ pre.length ≤ WS_MAX_PAYLOAD_SIZE + 14 ∧
    ∀ ys, nextFrame (pre ++ ys) = .item f ys := by
  match xs, h with
  | b0 :: b1 :: p, h =>
    simp only [nextFrame] at h
    split_ifs at h with hrsv hfrag
    rcases hlen : readLen (b1 &&& 0x7f).toNat p with _ | ⟨n, q⟩
    · rw [hlen] at h
      exact absurd h nofun
    · rw [hlen] at h
      obtain ⟨pre, rfl, hpre, hown⟩ := readLen_own hlen
      obtain ⟨body, rfl, hbody, hmax, hown'⟩ := frameBody_own h
      refine ⟨b0 :: b1 :: (pre ++ body), by simp, by simp, ?_, fun ys => ?_⟩
      · simp only [List.length_cons, List.length_append]
        omega
      · simp only [List.cons_append, nextFrame, if_neg hrsv, if_neg hfrag, List.append_assoc, hown, hown']

theorem nextFrame_bad (h : nextFrame xs = .bad) (ys : List UInt8) : nextFrame (xs ++ ys) = .bad := by
  match xs, h with
  | b0 :: b1 :: p, h =>
    simp only [List.cons_append, nextFrame] at h ⊢
    split_ifs at h ⊢ with hrsv hfrag
    · rfl
    · rfl
    · rcases hlen : readLen (b1 &&& 0x7f).toNat p with _ | ⟨n, q⟩
      · rw [hlen] at h
        exact absurd h nofun
      · rw [hlen] at h
        obtain ⟨pre, rfl, -, hown⟩ := readLen_own hlen
        rw [List.append_assoc, hown]
        exact frameBody_bad h ys

/-- What is short of a frame is shorter than the longest frame. -/
theorem nextFrame_more (h : nextFrame xs = .more) : xs.length < WS_MAX_PAYLOAD_SIZE + 14 := by
  match xs, h with
  | [], _ => simp
  | [_], _ => simp
  | b0 :: b1 :: p, h =>
    simp only [nextFrame] at h
    split_ifs at h
    rcases hlen : readLen (b1 &&& 0x7f).toNat p with _ | ⟨n, q⟩
    · have hshort := readLen_none hlen
      simp only [List.length_cons]
      omega
    · rw [hlen] at h
      obtain ⟨pre, rfl, hpre, -⟩ := readLen_own hlen
      obtain ⟨hbody, hmax⟩ := frameBody_more h
      simp only [List.length_cons, List.length_append]
      omega

theorem nextFrame_stable : Stable nextFrame where
  nil := rfl
  append := by
    intro xs f rest h ys
    obtain ⟨pre, -, rfl, -, hown⟩ := nextFrame_own h
    rw [List.append_assoc, hown]
  bad_append := fun h ys => nextFrame_bad h ys
  tight := by
    intro xs f rest h
    obtain ⟨pre, hne, hxs, -, hown⟩ := nextFrame_own h
    exact ⟨pre, hne, hxs, by simpa using hown []⟩

/-! ### The connection once it is closing -/

namespace HttpConnection

variable {con : HttpConnection}

theorem wsSendFrame_terminate (h : con.terminate = true) (opcode : UInt8) (payload : List UInt8) :
    con.wsSendFrame opcode payload = (con, false) := by
  rw [wsSendFrame, sendFrameBy]
  by_cases hbig : WS_MAX_PAYLOAD_SIZE < payload.length
  · rw [dif_pos hbig]
  · rw [dif_neg hbig, queueResponseData, if_pos h]

theorem hsWsClose_terminate (h : con.terminate = true) (code : UInt16) (reason : List UInt8) :
    con.hsWsClose code reason = (con, true) := by
  rw [hsWsClose, closeBy, if_pos h]

theorem answerClose_terminate (h : con.terminate = true) (payload : List UInt8) :
    con.answerClose payload = (con, false) := by
  rw [answerClose, wsSendFrame_terminate h]

theorem runApp_terminate (h : con.terminate = true) (p : AppProg τ) : (con.runApp p).1 = con := by
  induction p with
  | ret => rfl
  | call c k ih =>
    have hsame : (con.appCall c).1 = con := by
      cases c with
      | close code reason => exact congrArg Prod.fst (hsWsClose_terminate h code reason)
      | _ => exact congrArg Prod.fst (wsSendFrame_terminate h _ _)
    rw [runApp, hsame]
    exact ih _

/-- `hs_ws_close` leaves the connection closing. -/
theorem terminate_hsWsClose (con : HttpConnection) (code : UInt16) (reason : List UInt8) :
    (con.hsWsClose code reason).1.terminate = true := by
  rw [hsWsClose, closeBy]
  split_ifs with h
  · exact h
  · rfl

/-- A frame that was queued leaves the connection as it was. -/
theorem queue_ok {n : Nat} {data : List UInt8} {first : Bool} {con' : HttpConnection}
    (h : queueResponseData n con data first = (con', true)) : con'.terminate = con.terminate := by
  cases n with
  | zero => cases h
  | succ n =>
    rw [queueResponseData] at h
    split_ifs at h with ht hnil hover hws
    · cases h
    · cases h
      rfl
    · split at h
      · exact absurd (congrArg Prod.snd h) Bool.false_ne_true
      · exact absurd (congrArg Prod.snd h) Bool.false_ne_true
    · cases h
    · cases h
      rfl

theorem wsSendFrame_ok {opcode : UInt8} {payload : List UInt8} {con' : HttpConnection}
    (h : con.wsSendFrame opcode payload = (con', true)) : con'.terminate = con.terminate := by
  rw [wsSendFrame, sendFrameBy] at h
  by_cases hbig : WS_MAX_PAYLOAD_SIZE < payload.length
  · rw [dif_pos hbig] at h
    cases h
  rw [dif_neg hbig] at h
  split at h
  · cases h
  next con₁ hheader =>
    split at h
    · cases h
    next con₂ hpayload =>
      cases h
      have hfirst := queue_ok hheader
      split_ifs at hpayload
      · cases hpayload
        exact hfirst
      · exact (queue_ok hpayload).trans hfirst

end HttpConnection

namespace Ws

/-- The message that is put together. -/
abbrev Frag := Option (UInt8 × List UInt8)

def frag (ws : Ws τ) : Frag := if ws.fragActive then some (ws.fragOpcode, ws.fragBuf) else none

/-- A frame behind a close: it goes on, it ends the reading without a trace (`true`), or it shows (`false`): a
message, a ping, a close frame, an error. -/
def silentFrame (frag : Frag) (f : ClientFrame) : Frag × Option Bool :=
  if f.opcode = WS_OP_TEXT ∨ f.opcode = WS_OP_BINARY then
    match frag with
    | some _ => (frag, some false)
    | none =>
      if f.fin then (none, some (decide (f.opcode = WS_OP_TEXT ∧ wsValidateUtf8 f.payload = false)))
      else
        match wsAppendBuf [] f.payload with
        | none => (none, some false)
        | some buf => (some (f.opcode, buf), none)
  else if f.opcode = WS_OP_CONT then
    match frag with
    | none => (none, some false)
    | some (opcode, buf) =>
      match wsAppendBuf buf f.payload with
      | none => (frag, some false)
      | some buf =>
        if f.fin then (none, some (decide (opcode = WS_OP_TEXT ∧ wsValidateUtf8 buf = false)))
        else (some (opcode, buf), none)
  else (frag, if f.opcode = WS_OP_PONG then none else some false)

def silentEnd : End UInt8 Bool → Bool
  | .more _ => true
  | .bad => false
  | .halt silent _ _ => silent

/-- What follows a close shows nothing: there are only pongs and the parts of one message, which is unfinished or
no valid text, and then less than a frame. -/
def quiet (xs : List UInt8) : Bool := silentEnd (drain nextFrame silentFrame (xs.length + 1) none xs).2

/-- A frame that shows nothing. -/
structure Still (ws ws' : Ws τ) : Prop where
  con : ws'.con = ws.con
  messages : ws'.messages = ws.messages

theorem Still.refl (ws : Ws τ) : ws.Still ws := ⟨rfl, rfl⟩

variable {c : MsgCb τ}

theorem deliver_terminate (h : ws.con.terminate = true) (opcode : UInt8) (payload : List UInt8) :
    (ws.deliver cb opcode payload).1.con = ws.con := by
  cases cb with
  | none => rfl
  | some cb => exact HttpConnection.runApp_terminate h _

theorem deliver_messages (opcode : UInt8) (payload : List UInt8) :
    (ws.deliver (some c) opcode payload).1.messages = ws.messages ++ [(opcode, payload)] := rfl

theorem closeInvalid_terminate (h : ws.con.terminate = true) : ws.closeInvalid = ws := by
  rw [closeInvalid, HttpConnection.hsWsClose_terminate h]

/-- What is seen of a frame behind a close. -/
def Shows (ws : Ws τ) (r : Ws τ × Option WsEnd) : Frag × Option Bool → Prop
  | (g, none) => r.2 = none ∧ r.1.frag = g ∧ ws.Still r.1
  | (_, some true) => r.2 = some .stop ∧ ws.Still r.1
  | (_, some false) => r.2 = some .fail ∨ ws.messages.length < r.1.messages.length

theorem frag_of_active (h : ws.fragActive = true) : ws.frag = some (ws.fragOpcode, ws.fragBuf) := if_pos h

theorem frag_of_inactive (h : ws.fragActive = false) : ws.frag = none := if_neg (by simp [h])

/-- A message is complete: it is no valid text, or the application gets it. -/
theorem message_shows (ht : ws.con.terminate = true) (h : ws'.con = ws.con) (hm : ws'.messages = ws.messages)
    (opcode : UInt8)
    (payload : List UInt8) (g : Frag) (reset : Ws τ → Ws τ) (hreset : ∀ ws : Ws τ, ws.Still (reset ws)) :
    ws.Shows
      (if opcode = WS_OP_TEXT ∧ wsValidateUtf8 payload = false then (reset ws'.closeInvalid, some .stop)
      else
        match ws'.deliver (some c) opcode payload with
        | (ws, true) => (reset ws, none)
        | (ws, false) => (ws, some .fail))
      (g, some (decide (opcode = WS_OP_TEXT ∧ wsValidateUtf8 payload = false))) := by
  have ht' : ws'.con.terminate = true := by rw [h]; exact ht
  by_cases hbad : opcode = WS_OP_TEXT ∧ wsValidateUtf8 payload = false
  · rw [if_pos hbad, decide_eq_true hbad, closeInvalid_terminate ht']
    exact ⟨rfl, (hreset ws').con.trans h, (hreset ws').messages.trans hm⟩
  · rw [if_neg hbad, decide_eq_false hbad]
    rcases hdel : ws'.deliver (some c) opcode payload with ⟨ws₁, ok⟩
    have hmsg : ws₁.messages = ws.messages ++ [(opcode, payload)] := by
      rw [← hm, ← deliver_messages (c := c), hdel]
    cases ok with
    | true =>
      refine .inr ?_
      rw [(hreset ws₁).messages, hmsg]
      simp
    | false => exact .inl rfl

/-- A data frame behind a close. -/
theorem dataFrame_shows (ht : ws.con.terminate = true) (hop : f.opcode = WS_OP_TEXT ∨ f.opcode = WS_OP_BINARY) :
    ws.Shows (ws.dataFrame (some c) f) (silentFrame ws.frag f) := by
  unfold dataFrame silentFrame
  rw [if_pos hop]
  rcases hact : ws.fragActive with _ | _
  · rw [frag_of_inactive hact, if_neg Bool.false_ne_true]
    dsimp only
    rcases hfin : f.fin with _ | _
    · rw [if_neg Bool.false_ne_true, if_neg Bool.false_ne_true]
      rcases wsAppendBuf [] f.payload with _ | buf
      · exact .inl rfl
      · exact ⟨rfl, rfl, rfl, rfl⟩
    · exact message_shows ht rfl rfl f.opcode f.payload none id Still.refl
  · rw [frag_of_active hact, if_pos rfl]
    exact .inl rfl

theorem contFrame_shows (ht : ws.con.terminate = true) (hop : f.opcode = WS_OP_CONT) :
    ws.Shows (ws.contFrame (some c) f) (silentFrame ws.frag f) := by
  have hdata : ¬(f.opcode = WS_OP_TEXT ∨ f.opcode = WS_OP_BINARY) := by
    rw [hop]
    decide
  unfold contFrame silentFrame
  rw [if_neg hdata, if_pos hop]
  rcases hact : ws.fragActive with _ | _
  · rw [frag_of_inactive hact, if_pos rfl]
    exact .inl rfl
  · rw [frag_of_active hact, if_neg (by simp)]
    dsimp only
    rcases wsAppendBuf ws.fragBuf f.payload with _ | buf
    · exact .inl rfl
    · dsimp only
      rcases hfin : f.fin with _ | _
      · exact ⟨rfl, rfl, rfl, rfl⟩
      · have hws : ({ ws with fragActive := true, fragBuf := buf } : Ws τ).con = ws.con := rfl
        exact message_shows ht hws rfl ws.fragOpcode buf none resetFrag fun _ => ⟨rfl, rfl⟩

theorem silentFrame_other {g : Frag} (hdata : ¬(f.opcode = WS_OP_TEXT ∨ f.opcode = WS_OP_BINARY))
    (hcont : f.opcode ≠ WS_OP_CONT) : silentFrame g f = (g, if f.opcode = WS_OP_PONG then none else some false) := by
  unfold silentFrame
  rw [if_neg hdata, if_neg hcont]

/-- Behind a close every frame is silent, or it shows. -/
theorem handleFrame_shows (ht : ws.con.terminate = true) (f : ClientFrame) :
    ws.Shows (ws.handleFrame (some c) f) (silentFrame ws.frag f) := by
  unfold handleFrame
  split_ifs with hdata hcont hping hpong hclose
  · exact dataFrame_shows ht hdata
  · exact contFrame_shows ht hcont
  all_goals
    rw [silentFrame_other hdata hcont]
  · rw [pingFrame, HttpConnection.wsSendFrame_terminate ht, if_neg (by rw [hping]; decide)]
    exact .inl rfl
  · rw [if_pos hpong]
    exact ⟨rfl, rfl, rfl, rfl⟩
  · rw [closeFrame, HttpConnection.answerClose_terminate ht, if_neg hpong]
    exact .inl rfl
  · rw [if_neg hpong]
    exact .inl rfl

/-! ### What a frame does to the connection -/

theorem deliver_frag (opcode : UInt8) (payload : List UInt8) :
    (ws.deliver cb opcode payload).1.frag = ws.frag := by
  cases cb <;> rfl

theorem length_messages_deliver (cb : Option (MsgCb τ)) (ws : Ws τ) (opcode : UInt8) (payload : List UInt8) :
    ws.messages.length ≤ (ws.deliver cb opcode payload).1.messages.length := by
  cases cb with
  | none => exact le_rfl
  | some c =>
    rw [deliver_messages, List.length_append]
    omega

/-- What a frame may do: the states it can lead to. -/
structure FrameEffect (cb : Option (MsgCb τ)) (ws : Ws τ) (r : Ws τ × Option WsEnd) : Prop where
  messages : ws.messages.length ≤ r.1.messages.length
  closing : ws.con.terminate = true → r.1.con = ws.con
  ended : r.2 = some .stop ∨ r.2 = some .done → r.1.con.terminate = true
  closes : r.2 = none → ws.con.terminate = false → r.1.con.terminate = true → r.1.frag = none ∧ cb.isSome

theorem FrameEffect.of_same {r : Ws τ × Option WsEnd} (hm : r.1.messages = ws.messages) (hc : r.1.con = ws.con)
    (hr : r.2 = none ∨ r.2 = some .fail) : FrameEffect cb ws r where
  messages := by rw [hm]
  closing := fun _ => hc
  ended := by rcases hr with h | h <;> simp [h]
  closes := by
    intro _ hopen hclosed
    rw [hc, hopen] at hclosed
    exact absurd hclosed Bool.false_ne_true

/-- A complete message. -/
theorem message_effect (h : ws'.con = ws.con) (hm : ws'.messages = ws.messages) (opcode : UInt8)
    (payload : List UInt8)
    (reset : Ws τ → Ws τ) (hreset : ∀ ws : Ws τ, ws.Still (reset ws))
    (hfrag : (reset (ws'.deliver cb opcode payload).1).frag = none) :
    FrameEffect cb ws
      (if opcode = WS_OP_TEXT ∧ wsValidateUtf8 payload = false then (reset ws'.closeInvalid, some .stop)
      else
        match ws'.deliver cb opcode payload with
        | (ws, true) => (reset ws, none)
        | (ws, false) => (ws, some .fail)) := by
  split_ifs with hbad
  · have hcon : (reset ws'.closeInvalid).con = (ws'.con.hsWsClose 1007 (HttpConnection.chars "invalid UTF-8")).1 :=
      (hreset _).con
    refine ⟨?_, fun ht => ?_, fun _ => ?_, nofun⟩
    · rw [(hreset _).messages, closeInvalid, hm]
    · rw [hcon, h, HttpConnection.hsWsClose_terminate ht]
    · rw [hcon]
      exact HttpConnection.terminate_hsWsClose ..
  · have hlen := length_messages_deliver cb ws' opcode payload
    have hcon : ws.con.terminate = true → (ws'.deliver cb opcode payload).1.con = ws.con := by
      intro ht
      rw [deliver_terminate (by rw [h]; exact ht), h]
    rcases hdel : ws'.deliver cb opcode payload with ⟨ws₁, ok⟩
    rw [hdel] at hlen hcon hfrag
    rw [hm] at hlen
    cases ok with
    | true =>
      refine ⟨?_, fun ht => ?_, nofun, fun _ hopen hclosed => ⟨hfrag, ?_⟩⟩
      · rw [(hreset ws₁).messages]
        exact hlen
      · rw [(hreset ws₁).con]
        exact hcon ht
      · cases cb with
        | none =>
          cases hdel
          rw [(hreset ws').con, h, hopen] at hclosed
          exact absurd hclosed Bool.false_ne_true
        | some c => rfl
    | false => exact ⟨hlen, hcon, nofun, nofun⟩

theorem dataFrame_effect : FrameEffect cb ws (ws.dataFrame cb f) := by
  unfold dataFrame
  by_cases hact : ws.fragActive = true
  · rw [if_pos hact]
    exact .of_same rfl rfl (.inr rfl)
  · rw [if_neg hact]
    by_cases hfin : f.fin = true
    · rw [if_pos hfin]
      refine message_effect rfl rfl f.opcode f.payload id Still.refl ?_
      rw [id, deliver_frag]
      exact frag_of_inactive (Bool.not_eq_true _ ▸ hact)
    · rw [if_neg hfin]
      dsimp only
      rcases wsAppendBuf [] f.payload with _ | buf
      · exact .of_same rfl rfl (.inr rfl)
      · exact .of_same rfl rfl (.inl rfl)

theorem contFrame_effect : FrameEffect cb ws (ws.contFrame cb f) := by
  unfold contFrame
  by_cases hact : ws.fragActive = false
  · rw [if_pos hact]
    exact .of_same rfl rfl (.inr rfl)
  · rw [if_neg hact]
    rcases wsAppendBuf ws.fragBuf f.payload with _ | buf
    · exact .of_same rfl rfl (.inr rfl)
    · dsimp only
      by_cases hfin : f.fin = true
      · rw [if_pos hfin]
        have hws : ({ ws with fragBuf := buf } : Ws τ).con = ws.con := rfl
        exact message_effect hws rfl ws.fragOpcode buf resetFrag (fun _ => ⟨rfl, rfl⟩) rfl
      · rw [if_neg hfin]
        exact .of_same rfl rfl (.inl rfl)

theorem pingFrame_effect : FrameEffect cb ws (ws.pingFrame f) := by
  unfold pingFrame
  rcases hsend : ws.con.wsSendFrame WS_OP_PONG f.payload with ⟨con, ok⟩
  have hclosing : ws.con.terminate = true → con = ws.con ∧ ok = false := by
    intro ht
    rw [HttpConnection.wsSendFrame_terminate ht] at hsend
    cases hsend
    exact ⟨rfl, rfl⟩
  cases ok with
  | true =>
    refine ⟨le_rfl, fun ht => (hclosing ht).1, nofun, fun _ hopen hclosed => ?_⟩
    rw [← HttpConnection.wsSendFrame_ok hsend] at hopen
    exact absurd (hopen.symm.trans hclosed) Bool.false_ne_true
  | false => exact ⟨le_rfl, fun ht => (hclosing ht).1, nofun, nofun⟩

theorem closeFrame_effect : FrameEffect cb ws (ws.closeFrame f) := by
  unfold closeFrame
  rcases hsend : ws.con.answerClose f.payload with ⟨con, ok⟩
  have hclosing : ws.con.terminate = true → con = ws.con := by
    intro ht
    rw [HttpConnection.answerClose_terminate ht] at hsend
    cases hsend
    rfl
  cases ok with
  | true =>
    have hterm : con.terminate = true := by
      rw [HttpConnection.answerClose] at hsend
      split at hsend <;> cases hsend
      rfl
    exact ⟨le_rfl, hclosing, fun _ => hterm, nofun⟩
  | false => exact ⟨le_rfl, hclosing, nofun, nofun⟩

theorem handleFrame_effect (cb : Option (MsgCb τ)) (ws : Ws τ) (f : ClientFrame) :
    FrameEffect cb ws (ws.handleFrame cb f) := by
  unfold handleFrame
  split_ifs with hdata hcont hping hpong hclose
  · exact dataFrame_effect
  · exact contFrame_effect
  · exact pingFrame_effect
  · exact .of_same rfl rfl (.inl rfl)
  · exact closeFrame_effect
  · exact .of_same rfl rfl (.inr rfl)

/-! ### The first close -/

/-- A frame is handled; that the application has closed the connection is an end as well (`none`). -/
def handleToClose (cb : Option (MsgCb τ)) (ws : Ws τ) (f : ClientFrame) : Ws τ × Option (Option WsEnd) :=
  match ws.handleFrame cb f with
  | (ws, some e) => (ws, some (some e))
  | (ws, none) => if ws.con.terminate then (ws, some none) else (ws, none)

/-- The message of a stream on which the application closes the connection: the size of its last frame, and what
follows it. -/
def closing (cb : Option (MsgCb τ)) (ws : Ws τ) (bs : List UInt8) : Option (Nat × List UInt8) :=
  match (drain nextFrame (handleToClose cb) (bs.length + 1) ws bs).2 with
  | .halt none xs rest => some (xs.length - rest.length, rest)
  | _ => none

/-- What follows a message on which the application closes the connection shows nothing, as far as the receive
buffer reaches. -/
def Undisturbed (cb : Option (MsgCb τ)) (ws : Ws τ) (bs : List UInt8) : Prop :=
  ∀ x ∈ closing cb ws bs, quiet (x.2.take (WS_MAX_PAYLOAD_SIZE * 2 - x.1)) = true

instance (bs : List UInt8) : Decidable (Undisturbed cb ws bs) := by unfold Undisturbed; infer_instance

/-- `ws_raw_data_cb` is content with the end of its loop. -/
def endOk : End UInt8 WsEnd → Bool
  | .bad | .halt .fail _ _ => false
  | _ => true

variable {e : End UInt8 WsEnd} {x : WsEnd} {at_ : List UInt8}

theorem handleToClose_go (h : ws.handleToClose cb f = (ws', none)) :
    ws.handleFrame cb f = (ws', none) ∧ ws'.con.terminate = false := by
  unfold handleToClose at h
  rcases hf : ws.handleFrame cb f with ⟨ws₁, _ | e⟩
  · rw [hf] at h
    dsimp only at h
    split_ifs at h with ht
    · cases h
    · cases h
      exact ⟨rfl, Bool.not_eq_true _ ▸ ht⟩
  · rw [hf] at h
    cases h

theorem handleToClose_end (h : ws.handleToClose cb f = (ws', some (some x))) :
    ws.handleFrame cb f = (ws', some x) := by
  unfold handleToClose at h
  rcases hf : ws.handleFrame cb f with ⟨ws₁, _ | e⟩
  · rw [hf] at h
    dsimp only at h
    split_ifs at h <;> cases h
  · rw [hf] at h
    cases h
    rfl

theorem handleToClose_closed (h : ws.handleToClose cb f = (ws', some none)) :
    ws.handleFrame cb f = (ws', none) ∧ ws'.con.terminate = true := by
  unfold handleToClose at h
  rcases hf : ws.handleFrame cb f with ⟨ws₁, _ | e⟩
  · rw [hf] at h
    dsimp only at h
    split_ifs at h with ht
    · cases h
      exact ⟨rfl, ht⟩
    · cases h
  · rw [hf] at h
    cases h

/-- Up to the first close. -/
abbrev ToClose (cb : Option (MsgCb τ)) := Drains nextFrame (handleToClose cb)

/-- All that is in the buffer. -/
abbrev All (cb : Option (MsgCb τ)) := Drains nextFrame (handleFrame cb)

theorem ToClose.more (h : ToClose cb ws xs ws' (.more rest)) : All cb ws xs ws' (.more rest) := by
  generalize he : End.more rest = e at h
  induction h with
  | more hp => cases he; exact .more hp
  | bad => cases he
  | go hp ha _ ih => exact .go hp (handleToClose_go ha).1 (ih he)
  | halt => cases he

theorem ToClose.bad (h : ToClose cb ws xs ws' .bad) : All cb ws xs ws' .bad := by
  generalize he : End.bad = e at h
  induction h with
  | more => cases he
  | bad hp => exact .bad hp
  | go hp ha _ ih => exact .go hp (handleToClose_go ha).1 (ih he)
  | halt => cases he

theorem ToClose.halt (h : ToClose cb ws xs ws' (.halt (some x) at_ rest)) :
    All cb ws xs ws' (.halt x at_ rest) := by
  generalize he : End.halt (some x) at_ rest = e at h
  induction h with
  | more => cases he
  | bad => cases he
  | go hp ha _ ih => exact .go hp (handleToClose_go ha).1 (ih he)
  | halt hp ha => cases he; exact .halt hp (handleToClose_end ha)

/-- Behind the close the loop goes on. -/
theorem ToClose.closed {ws'' : Ws τ} (h : ToClose cb ws xs ws' (.halt none at_ rest))
    (h' : All cb ws' rest ws'' e) :
    All cb ws xs ws'' e := by
  generalize he : End.halt none at_ rest = e₁ at h
  induction h with
  | more => cases he
  | bad => cases he
  | go hp ha _ ih => exact .go hp (handleToClose_go ha).1 (ih h' he)
  | halt hp ha => cases he; exact .go hp (handleToClose_closed ha).1 h'

/-- The connection is open until the close. -/
theorem ToClose.open (h : ToClose cb ws xs ws' (.more rest)) (ho : ws.con.terminate = false) :
    ws'.con.terminate = false := by
  generalize he : End.more rest = e at h
  induction h with
  | more => exact ho
  | bad => cases he
  | go _ ha _ ih => exact ih (handleToClose_go ha).2 he
  | halt => cases he

/-- What the application or the client has closed is closing. -/
theorem ToClose.ended (h : ToClose cb ws xs ws' (.halt y at_ rest)) (hy : y ≠ some .fail) :
    ws'.con.terminate = true := by
  obtain ⟨pre, f, ws₁, -, -, ha, -⟩ := h.before_halt nextFrame_stable
  cases y with
  | none => exact (handleToClose_closed ha).2
  | some x =>
    have heff := handleFrame_effect cb ws₁ f
    rw [handleToClose_end ha] at heff
    cases x with
    | fail => exact absurd rfl hy
    | stop => exact heff.ended (.inl rfl)
    | done => exact heff.ended (.inr rfl)

theorem effect_of {r : Option WsEnd} (ha : ws.handleFrame cb f = (ws', r)) : FrameEffect cb ws (ws', r) :=
  ha ▸ handleFrame_effect cb ws f

/-- It is a message of the application that closes, so no message is being put together. -/
theorem ToClose.closed_frag (h : ToClose cb ws xs ws' (.halt none at_ rest)) (ho : ws.con.terminate = false) :
    ws'.con.terminate = true ∧ ws'.frag = none ∧ cb.isSome := by
  obtain ⟨pre, f, ws₁, -, -, ha, hpre⟩ := h.before_halt nextFrame_stable
  obtain ⟨hf, hclosed⟩ := handleToClose_closed ha
  exact ⟨hclosed, (effect_of hf).closes rfl (ToClose.open hpre ho) hclosed⟩

theorem closing_eq (h : ToClose cb ws xs ws' (.halt none at_ rest)) :
    closing cb ws xs = some (at_.length - rest.length, rest) := by
  rw [closing, h.drain_eq nextFrame_stable (Nat.lt_succ_self _)]

theorem All.closing (h : All cb ws xs ws' e) (ht : ws.con.terminate = true) : ws'.con = ws.con := by
  induction h with
  | more => rfl
  | bad => rfl
  | go _ ha _ ih =>
    have hcon := (effect_of ha).closing ht
    exact (ih (hcon ▸ ht)).trans hcon
  | halt _ ha => exact (effect_of ha).closing ht

theorem All.messages (h : All cb ws xs ws' e) : ws.messages.length ≤ ws'.messages.length := by
  induction h with
  | more => exact le_rfl
  | bad => exact le_rfl
  | go _ ha _ ih => exact (effect_of ha).messages.trans ih
  | halt _ ha => exact (effect_of ha).messages

/-- Bytes behind a close are silent, or they show. -/
theorem shows_all {g g' : Frag} {e₀ : End UInt8 Bool} (h : Drains nextFrame silentFrame g xs g' e₀)
    (hg : ws.frag = g)
    (ht : ws.con.terminate = true) (h' : All (some c) ws xs ws' e) :
    if silentEnd e₀ then ws.Still ws' ∧ endOk e = true else endOk e = false ∨
      ws.messages.length < ws'.messages.length := by
  induction h generalizing ws with
  | more hp =>
    obtain ⟨rfl, rfl⟩ := h'.of_more hp
    exact ⟨.refl _, rfl⟩
  | bad hp =>
    obtain ⟨rfl, rfl⟩ := h'.of_bad hp
    exact .inl rfl
  | @go g xs f rest g₁ g' e₀ hp ha hd ih =>
    have hshows := handleFrame_shows (c := c) ht f
    rw [hg, ha] at hshows
    rcases hf : ws.handleFrame (some c) f with ⟨ws₁, r⟩
    rw [hf] at hshows
    obtain ⟨rfl, hfrag, hstill⟩ := hshows
    have hrest := ih hfrag (hstill.con ▸ ht) (h'.of_go hp hf)
    split_ifs at hrest ⊢
    · exact ⟨⟨hrest.1.con.trans hstill.con, hrest.1.messages.trans hstill.messages⟩, hrest.2⟩
    · rw [hstill.messages] at hrest
      exact hrest
  | @halt g xs f rest g₁ silent hp ha =>
    have hshows := handleFrame_shows (c := c) ht f
    rw [hg, ha] at hshows
    rcases hf : ws.handleFrame (some c) f with ⟨ws₁, r⟩
    rw [hf] at hshows
    cases silent with
    | true =>
      obtain ⟨rfl, hstill⟩ := hshows
      obtain ⟨rfl, rfl⟩ := h'.of_halt hp hf
      exact ⟨hstill, rfl⟩
    | false =>
      rcases hshows with rfl | hmore
      · obtain ⟨rfl, rfl⟩ := h'.of_halt hp hf
        exact .inl rfl
      · cases r with
        | none => exact .inr (lt_of_lt_of_le hmore (All.messages (h'.of_go hp hf)))
        | some x =>
          obtain ⟨rfl, rfl⟩ := h'.of_halt hp hf
          exact .inr hmore

/-- A prefix of what shows nothing shows nothing. -/
theorem quiet_append (h : quiet (xs ++ ys) = true) : quiet xs = true := by
  have hwhole := drains_drain nextFrame_stable silentFrame none (Nat.lt_succ_self (xs ++ ys).length)
  have hpart := drains_drain nextFrame_stable silentFrame none (Nat.lt_succ_self xs.length)
  rw [quiet] at h ⊢
  generalize (drain nextFrame silentFrame ((xs ++ ys).length + 1) none (xs ++ ys)).2 = e₁ at h hwhole
  generalize (drain nextFrame silentFrame (xs.length + 1) none xs).2 = e₂ at hpart ⊢
  cases e₂ with
  | more rest => rfl
  | bad =>
    obtain ⟨-, rfl⟩ := hwhole.det (hpart.bad_append nextFrame_stable ys)
    exact h
  | halt silent at_ rest =>
    obtain ⟨-, rfl⟩ := hwhole.det (hpart.halt_append nextFrame_stable ys)
    exact h

end Ws

/-! ### Chunks -/

namespace WsReader

open Ws

variable {r r' : WsReader τ} {c : List UInt8} {cs cs' : List (List UInt8)} {e : End UInt8 WsEnd}

/-- Each chunk is within the receive buffer's limit. -/
def Within (cb : Option (MsgCb τ)) : WsReader τ → List (List UInt8) → Prop
  | _, [] => True
  | r, c :: cs => r.ws.con.terminate = false →
      r.inbuf.length + c.length ≤ WS_MAX_PAYLOAD_SIZE * 2 ∧ ((r.rawDataCb cb c).2 = true →
        Within cb (r.rawDataCb cb c).1 cs)

/-- One chunk, by what its bytes do. -/
theorem rawDataCb_spec (hne : c ≠ []) (hlim : r.inbuf.length + c.length ≤ WS_MAX_PAYLOAD_SIZE * 2)
    (h : All cb r.ws (r.inbuf ++ c) ws e) : (r.rawDataCb cb c).1.ws = ws ∧ (r.rawDataCb cb c).2 = endOk e ∧
      ∀ rest, e = .more rest → (r.rawDataCb cb c).1.inbuf = rest := by
  have hloop : r.ws.parseLoop cb (r.inbuf ++ c) = (ws, e) := h.drain_eq nextFrame_stable (Nat.lt_succ_self _)
  rw [rawDataCb, if_neg hne, if_neg (Nat.not_lt.2 hlim)]
  simp only [hloop]
  cases e with
  | more rest => exact ⟨rfl, rfl, fun _ he => by cases he; rfl⟩
  | bad => exact ⟨rfl, rfl, nofun⟩
  | halt x at_ rest => cases x <;> exact ⟨rfl, rfl, nofun⟩

theorem recvChunks_closing (h : r.ws.con.terminate = true) (cs : List (List UInt8)) :
    r.recvChunks cb cs = (r, true) := by
  cases cs with
  | nil => rfl
  | cons c cs => rw [recvChunks, if_pos h]

theorem recvChunks_cons (h : r.ws.con.terminate = false) (c : List UInt8) (cs : List (List UInt8)) :
    r.recvChunks cb (c :: cs) =
      if (r.rawDataCb cb c).2 then (r.rawDataCb cb c).1.recvChunks cb cs else ((r.rawDataCb cb c).1, false) := by
  rw [recvChunks, if_neg (by simp [h])]
  rcases r.rawDataCb cb c with ⟨r', _ | _⟩ <;> rfl

/-- What comes of a stream, by what it does up to the first close. -/
def Received (cb : Option (MsgCb τ)) (ws : Ws τ) (res : WsReader τ × Bool) : End UInt8 (Option WsEnd) → Prop
  | .more rest => res = (⟨ws, rest⟩, true)
  | .bad => res.1.ws = ws ∧ res.2 = false
  | .halt (some x) _ _ => res.1.ws = ws ∧ res.2 = decide (x ≠ .fail)
  | .halt none at_ rest => ∃ k ws' e, k + (at_.length - rest.length) ≤ WS_MAX_PAYLOAD_SIZE * 2 ∧
      All cb ws (rest.take k) ws' e ∧ res.1.ws = ws' ∧ res.2 = endOk e

theorem recvChunks_received {e : End UInt8 (Option WsEnd)} (h : Within cb r cs) (ho : r.ws.con.terminate = false)
    (hm : nextFrame r.inbuf = .more) (hd : ToClose cb r.ws (r.inbuf ++ cs.flatten) ws e) :
    Received cb ws (r.recvChunks cb cs) e := by
  induction cs generalizing r with
  | nil =>
    rw [List.flatten_nil, List.append_nil] at hd
    obtain ⟨rfl, rfl⟩ := hd.of_more hm
    rfl
  | cons c cs ih =>
    obtain ⟨hlim, hrest⟩ := h ho
    rw [recvChunks_cons ho]
    by_cases hne : c = []
    · subst hne
      have hsame : r.rawDataCb cb [] = (r, true) := if_pos rfl
      rw [hsame] at hrest ⊢
      exact ih (hrest rfl) ho hm hd
    · rw [List.flatten_cons, ← List.append_assoc] at hd
      obtain ⟨ws₁, e₁, hpart⟩ : ∃ ws₁ e₁, ToClose cb r.ws (r.inbuf ++ c) ws₁ e₁ :=
        ⟨_, _, drains_drain nextFrame_stable _ _ (Nat.lt_succ_self _)⟩
      cases e₁ with
      | more rest₁ =>
        obtain ⟨hws, hok, hin⟩ := rawDataCb_spec hne hlim (ToClose.more hpart)
        have hin := hin rest₁ rfl
        have hok : (r.rawDataCb cb c).2 = true := hok
        obtain ⟨ws₂, e₂, hafter⟩ : ∃ ws₂ e₂, ToClose cb ws₁ (rest₁ ++ cs.flatten) ws₂ e₂ :=
          ⟨_, _, drains_drain nextFrame_stable _ _ (Nat.lt_succ_self _)⟩
        obtain ⟨rfl, rfl⟩ := hd.det (hpart.append nextFrame_stable hafter)
        rw [if_pos hok]
        refine ih (hrest hok) ?_ ?_ ?_
        · rw [hws]
          exact ToClose.open hpart ho
        · rw [hin]
          exact hpart.rest_more
        · rw [hws, hin]
          exact hafter
      | bad =>
        obtain ⟨hws, hok, -⟩ := rawDataCb_spec hne hlim (ToClose.bad hpart)
        obtain ⟨rfl, rfl⟩ := hd.det (hpart.bad_append nextFrame_stable _)
        rw [hok]
        exact ⟨hws, rfl⟩
      | halt y at₁ rest₁ =>
        obtain ⟨rfl, rfl⟩ := hd.det (hpart.halt_append nextFrame_stable _)
        cases y with
        | some x =>
          obtain ⟨hws, hok, -⟩ := rawDataCb_spec hne hlim (ToClose.halt hpart)
          cases x with
          | fail =>
            rw [if_neg (by simp [hok, endOk])]
            exact ⟨hws, rfl⟩
          | _ =>
            have hclosing : (r.rawDataCb cb c).1.ws.con.terminate = true := by
              rw [hws]
              exact ToClose.ended hpart (by simp)
            have hok : (r.rawDataCb cb c).2 = true := hok
            rw [if_pos hok, recvChunks_closing hclosing]
            exact ⟨hws, rfl⟩
        | none =>
          obtain ⟨ws₂, e₂, hafter⟩ : ∃ ws₂ e₂, All cb ws₁ rest₁ ws₂ e₂ :=
            ⟨_, _, drains_drain nextFrame_stable _ _ (Nat.lt_succ_self _)⟩
          obtain ⟨hws, hok, -⟩ := rawDataCb_spec hne hlim (ToClose.closed hpart hafter)
          have hclosing : (r.rawDataCb cb c).1.ws.con.terminate = true := by
            have hclosed : ws₁.con.terminate = true := ToClose.ended hpart nofun
            rw [hws, All.closing hafter hclosed, hclosed]
          have hres : (if (r.rawDataCb cb c).2 then (r.rawDataCb cb c).1.recvChunks cb cs else ((r.rawDataCb cb c).1, false)) =
              ((r.rawDataCb cb c).1, (r.rawDataCb cb c).2) := by
            split_ifs with hb
            · rw [recvChunks_closing hclosing, hb]
            · rw [Bool.not_eq_true] at hb
              rw [hb]
          refine ⟨rest₁.length, ws₂, e₂, ?_, ?_, ?_, ?_⟩
          · obtain ⟨pre, f, s₁, hbuf, hat, -, -⟩ := hpart.before_halt nextFrame_stable
            have hlen : pre.length + at₁.length = r.inbuf.length + c.length := by
              rw [← List.length_append, ← hbuf, List.length_append]
            have hshort := nextFrame_stable.shrinks hat
            simp only [List.length_append]
            omega
          · rw [List.take_left]
            exact hafter
          · rw [hres]
            exact hws
          · rw [hres]
            exact hok

/-- What is seen of the messages, the frames sent and the end. -/
structure Seen where
  messages : List (UInt8 × List UInt8)
  frames : List WsFrame
  closing : Bool
  ok : Bool
deriving DecidableEq

def seen (res : WsReader τ × Bool) : Seen := ⟨res.1.ws.messages, res.1.ws.con.frames, res.1.ws.con.terminate,
    res.2⟩

/-- Whether the end of a stream, up to the first close, is no error. -/
def closeOk : End UInt8 (Option WsEnd) → Bool
  | .bad | .halt (some .fail) _ _ => false
  | _ => true

/-- Where the stream isn't disturbed, what comes of it doesn't depend on the chunks. -/
theorem seen_of_undisturbed {bs : List UInt8} (hu : Undisturbed cb r.ws bs) (ho : r.ws.con.terminate = false)
    (hin : r.inbuf = []) (hcs : cs.flatten = bs) (h : Within cb r cs) {e : End UInt8 (Option WsEnd)}
    (hd : ToClose cb r.ws bs ws e) :
    seen (r.recvChunks cb cs) = ⟨ws.messages, ws.con.frames, ws.con.terminate, closeOk e⟩ := by
  have hrec := recvChunks_received h ho (by rw [hin]; rfl) (by rw [hin, hcs]; exact hd)
  cases e with
  | more rest =>
    rw [hrec]
    rfl
  | bad =>
    obtain ⟨hws, hok⟩ := hrec
    rw [seen, hws, hok]
    rfl
  | halt y at_ rest =>
    cases y with
    | some x =>
      obtain ⟨hws, hok⟩ := hrec
      rw [seen, hws, hok]
      cases x <;> rfl
    | none =>
      obtain ⟨k, ws', e', hk, hall, hws, hok⟩ := hrec
      obtain ⟨hclosed, hfrag, hcb⟩ := ToClose.closed_frag hd ho
      obtain ⟨c, rfl⟩ := Option.isSome_iff_exists.1 hcb
      have hquiet := hu _ (closing_eq hd)
      have hpre : rest.take k <+: rest.take (WS_MAX_PAYLOAD_SIZE * 2 - (at_.length - rest.length)) :=
        List.take_prefix_take_left (by omega)
      obtain ⟨t, ht⟩ := hpre
      rw [← ht] at hquiet
      have hsilent := quiet_append hquiet
      have hshows := shows_all (drains_drain nextFrame_stable silentFrame none (Nat.lt_succ_self _)) hfrag hclosed hall
      rw [quiet] at hsilent
      rw [if_pos hsilent] at hshows
      rw [seen, hws, hok, hshows.1.messages, hshows.1.con, hshows.2]
      rfl

/-! ### One byte at a time -/

/-- Every byte is a chunk. -/
def singles (xs : List UInt8) : List (List UInt8) := xs.map fun x => [x]

theorem flatten_singles (xs : List UInt8) : (singles xs).flatten = xs := by
  induction xs with
  | nil => rfl
  | cons x xs ih => exact congrArg (x :: ·) ih

/-- The buffer is short of a frame, or nothing is received any more. -/
def Settled (r : WsReader τ) : Prop := r.ws.con.terminate = false → nextFrame r.inbuf = .more

theorem rawDataCb_settled (hne : c ≠ []) (hlim : r.inbuf.length + c.length ≤ WS_MAX_PAYLOAD_SIZE * 2)
    (hok : (r.rawDataCb cb c).2 = true) : (r.rawDataCb cb c).1.Settled := by
  obtain ⟨ws, e, hall⟩ : ∃ ws e, All cb r.ws (r.inbuf ++ c) ws e :=
    ⟨_, _, drains_drain nextFrame_stable _ _ (Nat.lt_succ_self _)⟩
  obtain ⟨hws, hend, hin⟩ := rawDataCb_spec hne hlim hall
  intro ho
  rw [hok] at hend
  cases e with
  | more rest =>
    rw [hin rest rfl]
    exact hall.rest_more
  | bad => cases hend
  | halt x at_ rest =>
    obtain ⟨pre, f, ws₁, -, -, ha, -⟩ := hall.before_halt nextFrame_stable
    have hended : ws.con.terminate = true := by
      cases x with
      | fail => cases hend
      | stop => exact (effect_of ha).ended (.inl rfl)
      | done => exact (effect_of ha).ended (.inr rfl)
    rw [hws, hended] at ho
    cases ho

theorem Settled.within_singles (h : r.Settled) (xs : List UInt8) : Within cb r (singles xs) := by
  induction xs generalizing r with
  | nil => exact trivial
  | cons x xs ih =>
    intro ho
    have hshort := nextFrame_more (h ho)
    have hmax : WS_MAX_PAYLOAD_SIZE = 1024 * 1024 := rfl
    have hlim : r.inbuf.length + [x].length ≤ WS_MAX_PAYLOAD_SIZE * 2 := by
      rw [List.length_singleton]
      omega
    exact ⟨hlim, fun hok => ih (rawDataCb_settled (List.cons_ne_nil x []) hlim hok)⟩

theorem within_closing (h : r.ws.con.terminate = true) (cs : List (List UInt8)) : Within cb r cs := by
  cases cs with
  | nil => exact trivial
  | cons c cs =>
    intro ho
    rw [h] at ho
    cases ho

theorem recvChunks_append (as bs : List (List UInt8)) : r.recvChunks cb (as ++ bs) =
    if (r.recvChunks cb as).2 then (r.recvChunks cb as).1.recvChunks cb bs else ((r.recvChunks cb as).1,
      false) := by
  induction as generalizing r with
  | nil => rfl
  | cons c as ih =>
    rcases ht : r.ws.con.terminate with _ | _
    · rw [List.cons_append, recvChunks_cons ht, recvChunks_cons ht]
      by_cases hok : (r.rawDataCb cb c).2 = true
      · rw [if_pos hok, if_pos hok, ih]
      · rw [if_neg hok, if_neg hok, if_neg Bool.false_ne_true]
    · rw [recvChunks_closing ht, recvChunks_closing ht, if_pos rfl, recvChunks_closing ht]

theorem Within.append {as bs : List (List UInt8)} (h : Within cb r as)
    (h' : (r.recvChunks cb as).2 = true → Within cb (r.recvChunks cb as).1 bs) : Within cb r (as ++ bs) := by
  induction as generalizing r with
  | nil => exact h' rfl
  | cons c as ih =>
    intro ho
    obtain ⟨hlim, hrest⟩ := h ho
    refine ⟨hlim, fun hok => ih (hrest hok) fun hok' => ?_⟩
    rw [recvChunks_cons ho, if_pos hok] at h'
    exact h' hok'

/-- In single bytes, nothing behind the close is handled. -/
theorem seen_singles {bs at_ rest : List UInt8} (ho : r.ws.con.terminate = false) (hin : r.inbuf = [])
    (hd : ToClose cb r.ws bs ws (.halt none at_ rest)) :
    seen (r.recvChunks cb (singles bs)) = ⟨ws.messages, ws.con.frames, true, true⟩ := by
  obtain ⟨hclosed, -⟩ := ToClose.closed_frag hd ho
  obtain ⟨pre, f, ws₁, rfl, hat, ha, hpre⟩ := hd.before_halt nextFrame_stable
  obtain ⟨item, -, rfl, hitem⟩ := nextFrame_stable.tight hat
  have hsettled : r.Settled := fun _ => by rw [hin]; rfl
  have hd' : ToClose cb r.ws (r.inbuf ++ (singles (pre ++ item)).flatten) ws (.halt none item []) := by
    rw [hin, flatten_singles, List.nil_append]
    exact hpre.append nextFrame_stable (.halt hitem ha)
  obtain ⟨k, ws', e', -, hall, hws, hok⟩ := recvChunks_received (hsettled.within_singles _) ho (hsettled ho) hd'
  rw [List.take_nil] at hall
  obtain ⟨rfl, rfl⟩ := hall.of_more rfl
  have hclosing : (r.recvChunks cb (singles (pre ++ item))).1.ws.con.terminate = true := by rw [hws, hclosed]
  have hok : (r.recvChunks cb (singles (pre ++ item))).2 = true := hok
  have hsplit : singles (pre ++ (item ++ rest)) = singles (pre ++ item) ++ singles rest := by
    simp [singles]
  rw [hsplit, recvChunks_append, if_pos hok, recvChunks_closing hclosing, seen, hws, hclosed]

/-- Bytes behind the close that come with it and show are seen. -/
theorem exists_seen_ne {bs at_ rest : List UInt8} {k : Nat} (ho : r.ws.con.terminate = false) (hin : r.inbuf = [])
    (hd : ToClose cb r.ws bs ws (.halt none at_ rest)) (hk : k + (at_.length - rest.length) ≤ WS_MAX_PAYLOAD_SIZE * 2)
    (hloud : quiet (rest.take k) = false) :
    ∃ cs : List (List UInt8), cs.flatten = bs ∧ Within cb r cs ∧
      seen (r.recvChunks cb cs) ≠ ⟨ws.messages, ws.con.frames, true, true⟩ := by
  obtain ⟨hclosed, hfrag, hcb⟩ := ToClose.closed_frag hd ho
  obtain ⟨c, rfl⟩ := Option.isSome_iff_exists.1 hcb
  obtain ⟨pre, f, ws₁, rfl, hat, ha, hpre⟩ := hd.before_halt nextFrame_stable
  obtain ⟨item, hne, rfl, hitem⟩ := nextFrame_stable.tight hat
  obtain ⟨init, last, rfl⟩ : ∃ init last, item = init ++ [last] := ⟨_, _, (List.dropLast_concat_getLast hne).symm⟩
  -- all but the last byte of the frame, then that byte with what may come with it
  have hinit : nextFrame init = .more := by
    rcases hp : nextFrame init with _ | _ | ⟨f', rest'⟩
    · rfl
    · have hbad := nextFrame_stable.bad_append hp [last]
      rw [hitem] at hbad
      cases hbad
    · have hlong := nextFrame_stable.append hp [last]
      rw [hitem] at hlong
      simp at hlong
  have hsettled : r.Settled := fun _ => by rw [hin]; rfl
  have hd' : ToClose (some c) r.ws (r.inbuf ++ (singles (pre ++ init)).flatten) ws₁ (.more init) := by
    rw [hin, flatten_singles, List.nil_append]
    exact hpre.append nextFrame_stable (.more hinit)
  have hrec : r.recvChunks (some c) (singles (pre ++ init)) = (⟨ws₁, init⟩, true) :=
    recvChunks_received (hsettled.within_singles _) ho (hsettled ho) hd'
  obtain ⟨ws₂, e₂, hafter⟩ : ∃ ws₂ e₂, All (some c) ws (rest.take k) ws₂ e₂ :=
    ⟨_, _, drains_drain nextFrame_stable _ _ (Nat.lt_succ_self _)⟩
  have hall : All (some c) ws₁ (init ++ ([last] ++ rest.take k)) ws₂ e₂ := by
    rw [← List.append_assoc]
    exact .go (nextFrame_stable.append hitem _) (handleToClose_closed ha).1 hafter
  have hlim : init.length + ([last] ++ rest.take k).length ≤ WS_MAX_PAYLOAD_SIZE * 2 := by
    simp only [List.length_append, List.length_singleton, List.length_take] at hk ⊢
    omega
  have hshows := shows_all (drains_drain nextFrame_stable silentFrame none (Nat.lt_succ_self _)) hfrag hclosed hafter
  rw [quiet, ← Bool.not_eq_true] at hloud
  rw [if_neg hloud] at hshows
  have ho₁ : ws₁.con.terminate = false := ToClose.open hpre ho
  have hchunk : [last] ++ rest.take k ≠ [] := by simp
  obtain ⟨hws, hok, -⟩ := @rawDataCb_spec τ (some c) ws₂ ⟨ws₁, init⟩ _ e₂ hchunk hlim hall
  have hclosing : ((⟨ws₁, init⟩ : WsReader τ).rawDataCb (some c) ([last] ++ rest.take k)).1.ws.con.terminate =
    true := by
    rw [hws, All.closing hafter hclosed, hclosed]
  refine ⟨singles (pre ++ init) ++ (([last] ++ rest.take k) :: singles (rest.drop k)), ?_, ?_, ?_⟩
  · simp [flatten_singles]
  · refine (hsettled.within_singles _).append fun _ => ?_
    rw [hrec]
    exact fun _ => ⟨hlim, fun _ => within_closing hclosing _⟩
  · rw [recvChunks_append, hrec, if_pos rfl, recvChunks_cons ho₁]
    intro hsame
    rcases hshows with hbad | hlonger
    · rw [if_neg (by rw [hok, hbad]; exact Bool.false_ne_true)] at hsame
      exact absurd (congrArg Seen.ok hsame) Bool.false_ne_true
    · split_ifs at hsame
      · rw [recvChunks_closing hclosing] at hsame
        have hmsg : ws₂.messages = ws.messages := by
          rw [← hws]
          exact congrArg Seen.messages hsame
        rw [hmsg] at hlonger
        exact absurd hlonger (lt_irrefl _)
      · exact absurd (congrArg Seen.ok hsame) Bool.false_ne_true

/-! ### All chunks -/

theorem exists_toClose_of_closing {bs rest : List UInt8} {n : Nat} (h : closing cb ws bs = some (n, rest)) :
    ∃ ws' at_, ToClose cb ws bs ws' (.halt none at_ rest) ∧ n = at_.length - rest.length ∧
    n ≤ WS_MAX_PAYLOAD_SIZE * 2 := by
  have hd := drains_drain nextFrame_stable (handleToClose cb) ws (Nat.lt_succ_self bs.length)
  rw [closing] at h
  split at h
  · next at_ rest₁ heq =>
    cases h
    rw [heq] at hd
    refine ⟨_, at_, hd, rfl, ?_⟩
    obtain ⟨-, f, -, -, hat, -, -⟩ := hd.before_halt nextFrame_stable
    obtain ⟨item, -, rfl, hlen, -⟩ := nextFrame_own hat
    have hmax : WS_MAX_PAYLOAD_SIZE = 1024 * 1024 := rfl
    rw [List.length_append]
    omega
  · cases h

/-- What comes of a stream is the same for all chunks within the receive buffer's limit exactly if nothing that shows
follows a message on which the application closes the connection. -/
theorem ws_chunks_agree (cb : Option (MsgCb τ)) {con : HttpConnection} (hopen : con.terminate = false) (app : τ)
    (bs : List UInt8) :
    (∀ cs cs' : List (List UInt8), cs.flatten = bs → cs'.flatten = bs →
        Within cb ⟨Ws.upgraded con app, []⟩ cs → Within cb ⟨Ws.upgraded con app, []⟩ cs' →
        seen (recvChunks cb ⟨Ws.upgraded con app, []⟩ cs) = seen (recvChunks cb ⟨Ws.upgraded con app, []⟩ cs')) ↔
      Undisturbed cb (Ws.upgraded con app) bs := by
  obtain ⟨r, hr⟩ : ∃ r : WsReader τ, r = ⟨Ws.upgraded con app, []⟩ := ⟨_, rfl⟩
  have ho : r.ws.con.terminate = false := by rw [hr]; exact hopen
  have hin : r.inbuf = [] := by rw [hr]
  have hws : Ws.upgraded con app = r.ws := by rw [hr]
  rw [← hr, hws]
  constructor
  · intro hall x hx
    obtain ⟨n, rest⟩ := x
    obtain ⟨ws', at_, hd, rfl, hn⟩ := exists_toClose_of_closing hx
    by_contra hloud
    rw [Bool.not_eq_true] at hloud
    obtain ⟨cs, hcs, hwithin, hne⟩ := exists_seen_ne ho hin hd (Nat.le_of_eq (Nat.sub_add_cancel hn)) hloud
    have hsettled : r.Settled := fun _ => by rw [hin]; rfl
    have hsame := hall cs (singles bs) hcs (flatten_singles bs) hwithin (hsettled.within_singles bs)
    rw [seen_singles ho hin hd] at hsame
    exact hne hsame
  · intro hu cs cs' hcs hcs' hwithin hwithin'
    obtain ⟨ws', e, hd⟩ : ∃ ws' e, ToClose cb r.ws bs ws' e :=
      ⟨_, _, drains_drain nextFrame_stable _ _ (Nat.lt_succ_self _)⟩
    rw [seen_of_undisturbed hu ho hin hcs hwithin hd, seen_of_undisturbed hu ho hin hcs' hwithin' hd]

/-- An application that closes the connection on a message other than `{}`. -/
def closeUnlessObject : MsgCb Unit := fun _ _ payload =>
  if payload = HttpConnection.chars "\x7b\x7d" then .ret () true
  else .call (.close 1007 (HttpConnection.chars "invalid JSON")) fun _ => .ret () true

/-- A text frame of one byte, and one of an empty object. -/
def badText : List UInt8 := [0x81, 0x81, 0, 0, 0, 0, 0x78]

def goodText : List UInt8 := [0x81, 0x82, 0, 0, 0, 0, 0x7b, 0x7d]

theorem ws_chunks_agree_pong :
    seen (recvChunks (some closeUnlessObject) ⟨Ws.upgraded (.upgraded []) (), []⟩
        [goodText ++ badText ++ [0x8a, 0x80, 0, 0, 0, 0]]) =
      seen (recvChunks (some closeUnlessObject) ⟨Ws.upgraded (.upgraded []) (), []⟩
        [goodText, badText ++ [0x8a, 0x80, 0, 0, 0, 0]]) :=
  (ws_chunks_agree (some closeUnlessObject) rfl () (goodText ++ badText ++ [0x8a, 0x80, 0, 0, 0, 0])).2 (by decide)
    [goodText ++ badText ++ [0x8a, 0x80, 0, 0, 0, 0]] [goodText, badText ++ [0x8a, 0x80, 0, 0, 0, 0]] rfl rfl
    (fun _ => ⟨by decide, fun _ => trivial⟩) fun _ => ⟨by decide, fun _ _ => ⟨by decide, fun _ => trivial⟩⟩

/-- The message behind the close is delivered if it comes in the same chunk, and not if it comes in the next. -/
theorem ws_chunks_differ : [badText ++ goodText].flatten = [badText, goodText].flatten ∧
    Within (some closeUnlessObject) ⟨Ws.upgraded (.upgraded []) (), []⟩ [badText ++ goodText] ∧
    Within (some closeUnlessObject) ⟨Ws.upgraded (.upgraded []) (), []⟩ [badText, goodText] ∧
    (seen (recvChunks (some closeUnlessObject) ⟨Ws.upgraded (.upgraded []) (), []⟩
      [badText ++ goodText])).messages =
      [(WS_OP_TEXT, [0x78]), (WS_OP_TEXT, [0x7b, 0x7d])] ∧
    (seen (recvChunks (some closeUnlessObject) ⟨Ws.upgraded (.upgraded []) (), []⟩ [badText, goodText])).messages =
      [(WS_OP_TEXT, [0x78])] := by
  refine ⟨rfl, fun _ => ⟨by decide, fun _ => trivial⟩, fun _ => ⟨by decide, fun _ => ?_⟩, by decide, by decide⟩
  exact fun _ => ⟨by decide, fun _ => trivial⟩

end WsReader

end Mhuxd
