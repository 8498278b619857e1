import Mhuxd.HttpConnection
import Mhuxd.Lib.Framing

/-!
# Frames of a WebSocket client (`ws_raw_data_cb`)

The application's message callback is a parameter: what it does with the connection is a program of calls that
may depend on their results (`AppProg`). `messages` records the calls of the callback; no function reads it.
-/

namespace Mhuxd

open WebSocket Framing

/-- What the application can do with the connection. -/
inductive AppCall
  | sendText (data : List UInt8)
  | sendBinary (data : List UInt8)
  | sendPong (data : List UInt8)
  | close (code : UInt16) (reason : List UInt8)

/-- A run of the message callback: the application's state after it, and whether it returned 0. -/
inductive AppProg (τ : Type)
  | ret (app : τ) (ok : Bool)
  | call (c : AppCall) (k : Bool → AppProg τ)

/-- `hcon_ws_msg_cb`. -/
abbrev MsgCb (τ : Type) := τ → UInt8 → List UInt8 → AppProg τ

/-- A frame of the client, its payload unmasked. -/
structure ClientFrame where
  fin : Bool
  opcode : UInt8
  payload : List UInt8
deriving DecidableEq

/-- `struct http_connection`, the part about what was received, but for the buffer. -/
structure Ws (τ : Type) where
  con : HttpConnection
  fragActive : Bool
  fragOpcode : UInt8
  fragBuf : List UInt8
  waitingPong : Bool
  app : τ
  messages : List (UInt8 × List UInt8)

/-- The connection with `ws_inbuf`. -/
structure WsReader (τ : Type) where
  ws : Ws τ
  inbuf : List UInt8

/-- How `ws_raw_data_cb` leaves its loop: with -1, with 0 at once, by `goto done`. -/
inductive WsEnd
  | fail | stop | done
deriving DecidableEq

namespace HttpConnection

def appCall (con : HttpConnection) : AppCall → HttpConnection × Bool
  | .sendText data => con.wsSendFrame WS_OP_TEXT data
  | .sendBinary data => con.wsSendFrame WS_OP_BINARY data
  | .sendPong data => con.wsSendFrame WS_OP_PONG data
  | .close code reason => con.hsWsClose code reason

/-- The callback's calls. -/
def runApp {τ : Type} : HttpConnection → AppProg τ → HttpConnection × τ × Bool
  | con, .ret app ok => (con, app, ok)
  | con, .call c k =>
    let r := con.appCall c
    runApp r.1 (k r.2)

end HttpConnection

/-! ### UTF-8 -/

/-- `10xxxxxx`. -/
def utf8Cont (c : UInt8) : Bool := c &&& 0xc0 == 0x80

def utf8Cp2 (c c1 : UInt8) : UInt32 := (c &&& 0x1f).toUInt32 <<< 6 ||| (c1 &&& 0x3f).toUInt32

def utf8Cp3 (c c1 c2 : UInt8) : UInt32 :=
  (c &&& 0x0f).toUInt32 <<< 12 ||| (c1 &&& 0x3f).toUInt32 <<< 6 ||| (c2 &&& 0x3f).toUInt32

def utf8Cp4 (c c1 c2 c3 : UInt8) : UInt32 :=
  (c &&& 0x07).toUInt32 <<< 18 ||| (c1 &&& 0x3f).toUInt32 <<< 12 ||| (c2 &&& 0x3f).toUInt32 <<< 6 |||
    (c3 &&& 0x3f).toUInt32

/-- `ws_validate_utf8`. -/
def wsValidateUtf8 : List UInt8 → Bool
  | [] => true
  | c :: cs =>
    if c ≤ 0x7f then wsValidateUtf8 cs
    else if c &&& 0xe0 = 0xc0 then
      match cs with
      | c1 :: cs => utf8Cont c1 && !decide (utf8Cp2 c c1 < 0x80) && wsValidateUtf8 cs
      | _ => false
    else if c &&& 0xf0 = 0xe0 then
      match cs with
      | c1 :: c2 :: cs =>
        let cp := utf8Cp3 c c1 c2
        utf8Cont c1 && utf8Cont c2 && !decide (cp < 0x800) && !decide (0xd800 ≤ cp ∧ cp ≤ 0xdfff) && wsValidateUtf8 cs
      | _ => false
    else if c &&& 0xf8 = 0xf0 then
      match cs with
      | c1 :: c2 :: c3 :: cs =>
        let cp := utf8Cp4 c c1 c2 c3
        utf8Cont c1 && utf8Cont c2 && utf8Cont c3 && !decide (cp < 0x10000 ∨ 0x10ffff < cp) && wsValidateUtf8 cs
      | _ => false
    else false

/-! ### Frames -/

/-- `ws_append_buf`. -/
def wsAppendBuf (buf data : List UInt8) : Option (List UInt8) :=
  if data = [] then some buf
  else if WS_MAX_PAYLOAD_SIZE < buf.length + data.length then none
  else some (buf ++ data)

/-- A control frame. -/
def isControl (opcode : UInt8) : Bool := opcode &&& 0x08 != 0

/-- From the length on: the masking key and the payload. -/
def frameBody (fin : Bool) (opcode : UInt8) (masked : Bool) (payloadLen : Nat) (p : List UInt8) :
    Parsed UInt8 ClientFrame :=
  if masked = false then .bad
  else if WS_MAX_PAYLOAD_SIZE < payloadLen then .bad
  else if p.length < 4 + payloadLen then .more
  else if isControl opcode ∧ 125 < payloadLen then .bad
  else .item ⟨fin, opcode, mask (p.take 4) ((p.drop 4).take payloadLen)⟩ (p.drop (4 + payloadLen))

/-- The loop of `ws_raw_data_cb` up to the `switch`: the frame at the start of the buffer. -/
def nextFrame : List UInt8 → Parsed UInt8 ClientFrame
  | b0 :: b1 :: p =>
    let fin := b0 >>> 7 &&& 0x01 != 0
    let opcode := b0 &&& 0x0f
    let masked := b1 >>> 7 &&& 0x01 != 0
    if b0 &&& 0x70 ≠ 0 then .bad
    else if isControl opcode ∧ fin = false then .bad
    else
      match readLen (b1 &&& 0x7f).toNat p with
      | none => .more
      | some (payloadLen, p) => frameBody fin opcode masked payloadLen p
  | _ => .more

namespace Ws

variable {τ : Type}

/-- A connection that was just upgraded. -/
def upgraded (con : HttpConnection) (app : τ) : Ws τ where
  con := con
  fragActive := false
  fragOpcode := 0
  fragBuf := []
  waitingPong := false
  app := app
  messages := []

/-- `ws_reset_frag`. -/
def resetFrag (ws : Ws τ) : Ws τ := { ws with fragActive := false, fragOpcode := 0, fragBuf := [] }

/-- The call of `ws_msg_cb`, if there is one. -/
def deliver (cb : Option (MsgCb τ)) (ws : Ws τ) (opcode : UInt8) (payload : List UInt8) : Ws τ × Bool :=
  match cb with
  | none => (ws, true)
  | some cb =>
    let (con, app, ok) := ws.con.runApp (cb ws.app opcode payload)
    ({ ws with con := con, app := app, messages := ws.messages ++ [(opcode, payload)] }, ok)

/-- `hs_ws_close(hcon, 1007, "invalid UTF-8")`. -/
def closeInvalid (ws : Ws τ) : Ws τ :=
  { ws with con := (ws.con.hsWsClose 1007 (HttpConnection.chars "invalid UTF-8")).1 }

/-- `WS_OP_TEXT` and `WS_OP_BINARY`. -/
def dataFrame (cb : Option (MsgCb τ)) (ws : Ws τ) (f : ClientFrame) : Ws τ × Option WsEnd :=
  if ws.fragActive then (ws, some .fail)
  else if f.fin then
    if f.opcode = WS_OP_TEXT ∧ wsValidateUtf8 f.payload = false then (ws.closeInvalid, some .stop)
    else
      match ws.deliver cb f.opcode f.payload with
      | (ws, true) => (ws, none)
      | (ws, false) => (ws, some .fail)
  else
    let ws := { ws with fragActive := true, fragOpcode := f.opcode, fragBuf := [] }
    match wsAppendBuf ws.fragBuf f.payload with
    | none => (ws, some .fail)
    | some buf => ({ ws with fragBuf := buf }, none)

/-- `WS_OP_CONT`. -/
def contFrame (cb : Option (MsgCb τ)) (ws : Ws τ) (f : ClientFrame) : Ws τ × Option WsEnd :=
  if ws.fragActive = false then (ws, some .fail)
  else
    match wsAppendBuf ws.fragBuf f.payload with
    | none => (ws, some .fail)
    | some buf =>
      let ws := { ws with fragBuf := buf }
      if f.fin then
        if ws.fragOpcode = WS_OP_TEXT ∧ wsValidateUtf8 ws.fragBuf = false then (ws.closeInvalid.resetFrag, some .stop)
        else
          match ws.deliver cb ws.fragOpcode ws.fragBuf with
          | (ws, true) => (ws.resetFrag, none)
          | (ws, false) => (ws, some .fail)
      else (ws, none)

/-- `WS_OP_PING`. -/
def pingFrame (ws : Ws τ) (f : ClientFrame) : Ws τ × Option WsEnd :=
  match ws.con.wsSendFrame WS_OP_PONG f.payload with
  | (con, true) => ({ ws with con := con }, none)
  | (con, false) => ({ ws with con := con }, some .fail)

/-- `WS_OP_CLOSE`. -/
def closeFrame (ws : Ws τ) (f : ClientFrame) : Ws τ × Option WsEnd :=
  match ws.con.answerClose f.payload with
  | (con, true) => ({ ws with con := con }, some .done)
  | (con, false) => ({ ws with con := con }, some .fail)

/-- The `switch` of `ws_raw_data_cb`. -/
def handleFrame (cb : Option (MsgCb τ)) (ws : Ws τ) (f : ClientFrame) : Ws τ × Option WsEnd :=
  if f.opcode = WS_OP_TEXT ∨ f.opcode = WS_OP_BINARY then ws.dataFrame cb f
  else if f.opcode = WS_OP_CONT then ws.contFrame cb f
  else if f.opcode = WS_OP_PING then ws.pingFrame f
  else if f.opcode = WS_OP_PONG then ({ ws with waitingPong := false }, none)
  else if f.opcode = WS_OP_CLOSE then ws.closeFrame f
  else (ws, some .fail)

/-- The loop of `ws_raw_data_cb` over the buffer. -/
def parseLoop (cb : Option (MsgCb τ)) (ws : Ws τ) (buf : List UInt8) : Ws τ × End UInt8 WsEnd :=
  drain nextFrame (handleFrame cb) (buf.length + 1) ws buf

end Ws

namespace WsReader

variable {τ : Type}

/-- `ws_raw_data_cb`; false is -1. After an invalid text the buffer keeps what it has, the frames that were
handled as well (with their payloads unmasked, which is not modelled: no one reads them). -/
def rawDataCb (cb : Option (MsgCb τ)) (r : WsReader τ) (data : List UInt8) : WsReader τ × Bool :=
  if data = [] then (r, true)
  else if WS_MAX_PAYLOAD_SIZE * 2 < r.inbuf.length + data.length then (r, false)
  else
    let buf := r.inbuf ++ data
    match r.ws.parseLoop cb buf with
    | (ws, .more rest) => (⟨ws, rest⟩, true)
    | (ws, .bad) => (⟨ws, buf⟩, false)
    | (ws, .halt .fail _ _) => (⟨ws, buf⟩, false)
    | (ws, .halt .stop _ _) => (⟨ws, buf⟩, true)
    | (ws, .halt .done _ rest) => (⟨ws, rest⟩, true)

/-- Chunks are received, none after a close or an error. -/
def recvChunks (cb : Option (MsgCb τ)) : WsReader τ → List (List UInt8) → WsReader τ × Bool
  | r, [] => (r, true)
  | r, c :: cs =>
    if r.ws.con.terminate then (r, true)
    else
      match r.rawDataCb cb c with
      | (r, false) => (r, false)
      | (r, true) => recvChunks cb r cs

end WsReader

end Mhuxd
