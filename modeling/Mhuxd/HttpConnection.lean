import Mhuxd.Router
import Mhuxd.Lib.WebSocket

/-!
# The output of an HTTP connection and WebSocket frames (`http_server.c`, `ws.c`)

What is sent on a connection is queued; `hcon_out_cb` writes it when the socket takes it. A frame is two
entries of the queue, its header and its payload. `wire` is what was written, `frames` the frames that were
queued as a whole: no function reads them, and neither `first`, which says that an entry begins a frame.
-/

namespace Mhuxd

def OUTQ_HARD_LIMIT : Nat := 1024 * 1024
def WS_MAX_PAYLOAD_SIZE : Nat := 1024 * 1024

def WS_OP_CONT : UInt8 := 0x0
def WS_OP_TEXT : UInt8 := 0x1
def WS_OP_BINARY : UInt8 := 0x2
def WS_OP_CLOSE : UInt8 := 0x8
def WS_OP_PING : UInt8 := 0x9
def WS_OP_PONG : UInt8 := 0xa

/-- `struct http_response`. -/
structure HttpResponse where
  data : List UInt8
  sent : Nat
  first : Bool
deriving DecidableEq

/-- A frame of the server. -/
structure WsFrame where
  opcode : UInt8
  payload : List UInt8
  fits : payload.length ≤ WS_MAX_PAYLOAD_SIZE
deriving DecidableEq

/-- `struct http_connection`, the part about output and WebSocket frames. -/
structure HttpConnection where
  wsEnabled : Bool
  terminate : Bool
  wIn : Bool
  wOut : Bool
  responseList : List HttpResponse
  outqBytes : Nat
  removed : Bool
  wire : List UInt8
  frames : List WsFrame
deriving DecidableEq

namespace WsFrame

/-- `hdr` of `ws_send_frame`. -/
def header (opcode : UInt8) (payloadLen : Nat) : List UInt8 :=
  (0x80 ||| opcode &&& 0x0f) ::
    if payloadLen < 126 then [UInt8.ofNat payloadLen]
    else if payloadLen ≤ 0xffff then 126 :: [UInt8.ofNat (payloadLen >>> 8), UInt8.ofNat payloadLen]
    else 127 :: (List.range 8).reverse.map fun i => UInt8.ofNat (payloadLen >>> (i * 8))

def bytes (f : WsFrame) : List UInt8 := header f.opcode f.payload.length ++ f.payload

end WsFrame

namespace HttpConnection

/-- A connection that was just upgraded, with the response to the upgrade still to be written. -/
def upgraded (rsp : List UInt8) : HttpConnection where
  wsEnabled := true
  terminate := false
  wIn := true
  wOut := true
  responseList := [⟨rsp, 0, false⟩]
  outqBytes := rsp.length
  removed := false
  wire := []
  frames := []

/-- The bytes of a string literal. -/
def chars (s : String) : List UInt8 := s.toList.map fun c => UInt8.ofNat c.toNat

/-- `clear_response_queue`. -/
def clearResponseQueue (con : HttpConnection) : HttpConnection := { con with responseList := [], outqBytes := 0 }

/-- `hcon_mark_dropped`. The socket is shut down, and nothing is left to write. -/
def hconMarkDropped (con : HttpConnection) : HttpConnection :=
  if con.terminate then con
  else { con.clearResponseQueue with terminate := true, wIn := false, wOut := true }

/-- The end of `queue_response_data`. -/
def push (con : HttpConnection) (data : List UInt8) (first : Bool) : HttpConnection :=
  { con with
    responseList := con.responseList ++ [⟨data, 0, first⟩]
    outqBytes := con.outqBytes + data.length
    wOut := true }

/-- The queue function that `ws_send_frame` and `hs_ws_close` call; it succeeds or not. -/
abbrev Queue := HttpConnection → List UInt8 → Bool → HttpConnection × Bool

/-- `ws_send_frame`. -/
def sendFrameBy (queue : Queue) (con : HttpConnection) (opcode : UInt8) (payload : List UInt8) : HttpConnection × Bool :=
  if h : WS_MAX_PAYLOAD_SIZE < payload.length then (con, false)
  else
    match queue con (WsFrame.header opcode payload.length) true with
    | (con, false) => (con, false)
    | (con, true) =>
      match if payload = [] then (con, true) else queue con payload false with
      | (con, false) => (con, false)
      | (con, true) => ({ con with frames := con.frames ++ [⟨opcode, payload, Nat.not_lt.1 h⟩] }, true)

/-- `payload` of `hs_ws_close`. -/
def closePayload (code : UInt16) (reason : List UInt8) : List UInt8 :=
  (code >>> 8).toUInt8 :: code.toUInt8 :: reason.take 123

/-- `hs_ws_close`. -/
def closeBy (queue : Queue) (con : HttpConnection) (code : UInt16) (reason : List UInt8) : HttpConnection × Bool :=
  if con.terminate then (con, true)
  else
    let (con, ok) := sendFrameBy queue { con with wIn := false } WS_OP_CLOSE (closePayload code reason)
    ({ con with terminate := true }, ok)

/-- `queue_response_data`. Over the limit it sends a frame itself, so it calls itself: `n` bounds how deep. -/
def queueResponseData : Nat → Queue
  | 0, con, _, _ => (con, false)
  | n + 1, con, data, first =>
    if con.terminate then (con, false)
    else if data = [] then (con, true)
    else if OUTQ_HARD_LIMIT < con.outqBytes + data.length then
      if con.wsEnabled then
        match closeBy (queueResponseData n) con.clearResponseQueue 1013 (chars "backpressure") with
        | (con, true) => (con, false)
        | (con, false) => (con.hconMarkDropped, false)
      else (con.hconMarkDropped, false)
    else (con.push data first, true)

def wsSendFrame (con : HttpConnection) (opcode : UInt8) (payload : List UInt8) : HttpConnection × Bool :=
  con.sendFrameBy (queueResponseData 2) opcode payload

def hsWsClose (con : HttpConnection) (code : UInt16) (reason : List UInt8) : HttpConnection × Bool :=
  con.closeBy (queueResponseData 2) code reason

/-- The client's close frame is answered. -/
def answerClose (con : HttpConnection) (payload : List UInt8) : HttpConnection × Bool :=
  match con.wsSendFrame WS_OP_CLOSE payload with
  | (con, false) => (con, false)
  | (con, true) => ({ con with terminate := true, wIn := false }, true)

/-- `rem_connection`. -/
def remConnection (con : HttpConnection) : HttpConnection :=
  { con with wIn := false, wOut := false, responseList := [], outqBytes := 0, removed := true }

/-- The end of `hcon_out_cb`. -/
def outDone (con : HttpConnection) : HttpConnection :=
  if con.terminate then { con with wOut := false }.remConnection else { con with wOut := false }

/-- The loop of `hcon_out_cb`; `res` are the results of `write`, and after them the socket takes nothing. -/
def outLoop : List WriteRes → HttpConnection → HttpConnection
  | res, con =>
    match con.responseList with
    | [] => con.outDone
    | hr :: hrs =>
      match res with
      | [] | .again :: _ => con
      | .error :: _ => con.remConnection
      | .wrote n :: res =>
        let r := min n (hr.data.length - hr.sent)
        let con := { con with outqBytes := con.outqBytes - r, wire := con.wire ++ (hr.data.drop hr.sent).take r }
        if hr.sent + r = hr.data.length then outLoop res { con with responseList := hrs }
        else outLoop res { con with responseList := { hr with sent := hr.sent + r } :: hrs }

inductive Ev
  | send (opcode : UInt8) (payload : List UInt8)
  | close (code : UInt16) (reason : List UInt8)
  | answerClose (payload : List UInt8)
  | out (res : List WriteRes)
  | remove

def step (con : HttpConnection) (e : Ev) : HttpConnection :=
  if con.removed then con
  else
    match e with
    | .send opcode payload => (con.wsSendFrame opcode payload).1
    | .close code reason => (con.hsWsClose code reason).1
    | .answerClose payload => (con.answerClose payload).1
    | .out res => if con.wOut then con.outLoop res else con
    | .remove => con.remConnection

end HttpConnection

end Mhuxd
