import Mhuxd.HttpFiles
import Mhuxd.Lib.Clip

/-!
# How a request is put together (`http_server.c`)

The parser hands a request over in pieces, cut wherever a read of the socket ended. The callbacks collect them in
buffers of fixed size; `on_message_complete_cb` answers what they hold.
-/

namespace Mhuxd

open HttpConnection HttpServer

def MAX_URL_SIZE : Nat := 2048
def MAX_POST_SIZE : Nat := 1024 * 1024
def MAX_HEADER_NAME_SIZE : Nat := 256
def MAX_HEADER_VALUE_SIZE : Nat := 1024
def MAX_HEADERS : Nat := 30

inductive HeaderState
  | value | field
deriving DecidableEq

/-- `struct header`. `value` is the string in its array; an earlier request's stays there when `value_len` is cleared. -/
structure Header where
  name : List UInt8 := []
  value : List UInt8 := []
  valueLen : Nat := 0
deriving DecidableEq

/-- `struct http_connection`, the part about the request that comes in. -/
structure RequestBuffer where
  url : List UInt8 := []
  reqHeader : Nat → Header := fun _ => {}
  reqHeaderState : HeaderState := .value
  reqHeaderIdx : Nat := 0
  body : List UInt8 := []
  responseCode : Nat := 0

inductive ParserEv
  | messageBegin
  | url (buf : List UInt8)
  | field (buf : List UInt8)
  | value (buf : List UInt8)
  | body (buf : List UInt8)
  | messageComplete (method : HttpMethod)

namespace RequestBuffer

variable (con : RequestBuffer)

/-- `on_message_begin_cb`. -/
def onMessageBeginCb : RequestBuffer :=
  { con with
    responseCode := 200
    url := []
    reqHeaderIdx := 0
    reqHeaderState := .field
    reqHeader := Function.update con.reqHeader 0 { con.reqHeader 0 with name := [], valueLen := 0 }
    body := [] }

/-- `on_url_cb`. -/
def onUrlCb (buf : List UInt8) : RequestBuffer :=
  let (url, code) := Clip.push MAX_URL_SIZE 414 (con.url, con.responseCode) buf
  { con with url := url, responseCode := code }

/-- The end of `on_h_field_cb`. -/
def addName (buf : List UInt8) : RequestBuffer :=
  let h := con.reqHeader con.reqHeaderIdx
  let (name, code) := Clip.push MAX_HEADER_NAME_SIZE 400 (h.name, con.responseCode) buf
  { con with reqHeader := Function.update con.reqHeader con.reqHeaderIdx { h with name := name }, responseCode := code }

/-- The next header, with its lengths cleared. -/
def nextHeader : RequestBuffer :=
  let idx := con.reqHeaderIdx + 1
  { con with
    reqHeaderIdx := idx
    reqHeader := Function.update con.reqHeader idx { con.reqHeader idx with name := [], valueLen := 0 }
    reqHeaderState := .field }

/-- `on_h_field_cb`. -/
def onHFieldCb (buf : List UInt8) : RequestBuffer :=
  if MAX_HEADERS ≤ con.reqHeaderIdx then { con with responseCode := 400 }
  else
    match con.reqHeaderState with
    | .value =>
      if MAX_HEADERS ≤ con.reqHeaderIdx + 1 then
        { con with reqHeaderIdx := con.reqHeaderIdx + 1, responseCode := 400 }
      else con.nextHeader.addName buf
    | .field => con.addName buf

/-- `on_h_value_cb`. -/
def onHValueCb (buf : List UInt8) : RequestBuffer :=
  if MAX_HEADERS ≤ con.reqHeaderIdx then { con with responseCode := 400 }
  else
    let h := con.reqHeader con.reqHeaderIdx
    let (value, code) := Clip.push MAX_HEADER_VALUE_SIZE 400 (h.value.take h.valueLen, con.responseCode) buf
    { con with
      reqHeader := Function.update con.reqHeader con.reqHeaderIdx { h with value := value, valueLen := value.length }
      reqHeaderState := .value
      responseCode := code }

/-- `on_body_cb`. -/
def onBodyCb (buf : List UInt8) : RequestBuffer :=
  if buf = [] then con
  else
    let (body, code) := Clip.push MAX_POST_SIZE 413 (con.body, con.responseCode) buf
    { con with body := body, responseCode := code }

/-- `hs_get_req_header`. -/
def hsGetReqHeader (name : List UInt8) : Option (List UInt8) :=
  ((List.range (min (con.reqHeaderIdx + 1) MAX_HEADERS)).find? fun i =>
    let h := con.reqHeader i
    h.name ≠ [] && (HttpServer.cString h.name).map FileSystem.lower = name.map FileSystem.lower).map fun i =>
      HttpServer.cString (con.reqHeader i).value

end RequestBuffer

/-- What comes of a request: what a handler is given, or an answer without one. -/
inductive Outcome
  | handled (h : HttpHandler) (url body : List UInt8) (getReqHeader : List UInt8 → Option (List UInt8))
  | answered (a : HttpAnswer)

section Server

variable (srv : HttpServer) (fs : FileSystem) (parseUrl : UrlParser)

/-- The handler of `on_message_complete_cb` gets the buffers; the rest of it is in `HttpServer.onMessageCompleteCb`. -/
def Outcome.of (a : HttpAnswer) (url body : List UInt8) (getReqHeader : List UInt8 → Option (List UInt8)) : Outcome :=
  match a.reply with
  | .handler h => .handled h url body getReqHeader
  | _ => .answered a

/-- The parser's callbacks; a request that is complete has an outcome. -/
def RequestBuffer.step (con : RequestBuffer) : ParserEv → RequestBuffer × Option Outcome
  | .messageBegin => (con.onMessageBeginCb, none)
  | .url buf => (con.onUrlCb buf, none)
  | .field buf => (con.onHFieldCb buf, none)
  | .value buf => (con.onHValueCb buf, none)
  | .body buf => (con.onBodyCb buf, none)
  | .messageComplete method =>
    (con, some (.of (srv.onMessageCompleteCb fs parseUrl ⟨method, con.url, con.responseCode⟩) con.url con.body
      con.hsGetReqHeader))

end Server

/-! ### Requests as they are sent -/

/-- A request as the client sends it. Trailers come after a chunked body. -/
structure HttpMessage where
  method : HttpMethod
  url : List UInt8
  headers : List (List UInt8 × List UInt8)
  body : List UInt8
  trailers : List (List UInt8 × List UInt8)

/-- A header is handed over in pieces of its name and then of its value; both have at least one. -/
def HeaderPieces (h : List UInt8 × List UInt8) (evs : List ParserEv) : Prop :=
  ∃ names values : List (List UInt8), names ≠ [] ∧ values ≠ [] ∧ names.flatten = h.1 ∧ values.flatten = h.2 ∧
    evs = names.map .field ++ values.map .value

/-- The parser hands the request over like this, in whatever pieces. -/
def HttpMessage.Pieces (m : HttpMessage) (evs : List ParserEv) : Prop :=
  ∃ (urls bodies : List (List UInt8)) (headers trailers : List (List ParserEv)), urls.flatten = m.url ∧ bodies.flatten = m.body ∧
    List.Forall₂ HeaderPieces m.headers headers ∧ List.Forall₂ HeaderPieces m.trailers trailers ∧
    evs = .messageBegin :: (urls.map .url ++ (headers.flatten ++ (bodies.map .body ++ (trailers.flatten ++
      [.messageComplete m.method]))))

def tooLong (h : List UInt8 × List UInt8) : Bool :=
  MAX_HEADER_NAME_SIZE < h.1.length || MAX_HEADER_VALUE_SIZE < h.2.length

namespace HttpMessage

variable (m : HttpMessage)

/-- The request fits in the buffers. -/
def Fits : Prop :=
  m.url.length ≤ MAX_URL_SIZE ∧ m.body.length ≤ MAX_POST_SIZE ∧ (m.headers ++ m.trailers).length ≤ MAX_HEADERS ∧
    ∀ h ∈ m.headers ++ m.trailers, tooLong h = false

instance : Decidable m.Fits := inferInstanceAs (Decidable (_ ∧ _ ∧ _ ∧ _))

/-- The value of the first header with this name. -/
def header (name : List UInt8) : Option (List UInt8) :=
  ((m.headers ++ m.trailers).find? fun h =>
    h.1 ≠ [] && (HttpServer.cString h.1).map FileSystem.lower = name.map FileSystem.lower).map fun h =>
      HttpServer.cString h.2

/-- The page for a request that does not fit: the last part that was too long decides. -/
def refusal : Nat :=
  if (m.trailers ≠ [] ∧ MAX_HEADERS < (m.headers ++ m.trailers).length) ∨ m.trailers.any tooLong then 400
  else if MAX_POST_SIZE < m.body.length then 413
  else if MAX_HEADERS < m.headers.length ∨ m.headers.any tooLong then 400
  else 414

/-- What is to come of the request. -/
def outcome (srv : HttpServer) (fs : FileSystem) (parseUrl : UrlParser) : Outcome :=
  if m.Fits then .of (srv.onMessageCompleteCb fs parseUrl ⟨m.method, m.url, 200⟩) m.url m.body m.header
  else .answered ⟨.errorPage (if m.method = .other then 501 else m.refusal), none⟩

end HttpMessage

/-! ### What the callbacks collect -/

namespace RequestBuffer

section Server

variable {srv : HttpServer} {fs : FileSystem} {parseUrl : UrlParser} {con : RequestBuffer}

theorem next_urls (urls : List (List UInt8)) : Mealy.next (step srv fs parseUrl) con (urls.map .url) = con.onUrlCb urls.flatten :=
  Clip.next_push (f := fun p => { con with url := p.1, responseCode := p.2 }) (fun _ _ => rfl) (con.url, con.responseCode) urls

theorem next_bodies (bodies : List (List UInt8)) :
    Mealy.next (step srv fs parseUrl) con (bodies.map .body) = con.onBodyCb bodies.flatten := by
  have hput : ∀ (p : List UInt8 × Nat) (buf : List UInt8), (step srv fs parseUrl { con with body := p.1, responseCode := p.2 }
      (.body buf)).1 = { con with body := (Clip.push MAX_POST_SIZE 413 p buf).1
                                  responseCode := (Clip.push MAX_POST_SIZE 413 p buf).2 } := by
    intro p buf
    by_cases hbuf : buf = [] <;> simp [step, onBodyCb, hbuf]
  have hrun := Clip.next_push (f := fun p => { con with body := p.1, responseCode := p.2 }) (g := ParserEv.body) hput
    (con.body, con.responseCode) bodies
  rw [hrun]
  by_cases hbuf : bodies.flatten = [] <;> simp [onBodyCb, hbuf]

theorem code_of_tooLong (x : List UInt8 × List UInt8) (code : Nat) :
    (if MAX_HEADER_VALUE_SIZE < x.2.length then 400 else if MAX_HEADER_NAME_SIZE < x.1.length then 400 else code) =
      if tooLong x then 400 else code := by
  unfold tooLong
  by_cases hname : MAX_HEADER_NAME_SIZE < x.1.length <;> by_cases hvalue : MAX_HEADER_VALUE_SIZE < x.2.length <;>
    simp [hname, hvalue]

/-- The header that is collected, in its place. -/
def store (con : RequestBuffer) (x : List UInt8 × List UInt8) : RequestBuffer :=
  { con with
    reqHeader := Function.update con.reqHeader con.reqHeaderIdx
      ⟨x.1.take MAX_HEADER_NAME_SIZE, x.2.take MAX_HEADER_VALUE_SIZE, (x.2.take MAX_HEADER_VALUE_SIZE).length⟩
    reqHeaderState := .value
    responseCode := if tooLong x then 400 else con.responseCode }

/-- A header that the buffers are ready for. -/
structure Ready (con : RequestBuffer) : Prop where
  idx : con.reqHeaderIdx < MAX_HEADERS
  state : con.reqHeaderState = .field
  name : (con.reqHeader con.reqHeaderIdx).name = []
  value : (con.reqHeader con.reqHeaderIdx).valueLen = 0

variable (con) in
theorem onHFieldCb_of_field (hidx : con.reqHeaderIdx < MAX_HEADERS) (hstate : con.reqHeaderState = .field) (buf : List UInt8) :
    con.onHFieldCb buf = con.addName buf := by
  rw [onHFieldCb, if_neg hidx.not_ge, hstate]

theorem next_names (hidx : con.reqHeaderIdx < MAX_HEADERS) (hstate : con.reqHeaderState = .field)
    (names : List (List UInt8)) : Mealy.next (step srv fs parseUrl) con (names.map .field) = con.addName names.flatten := by
  let put (p : List UInt8 × Nat) : RequestBuffer :=
    { con with
      reqHeader := Function.update con.reqHeader con.reqHeaderIdx { con.reqHeader con.reqHeaderIdx with name := p.1 }
      responseCode := p.2 }
  have hput : ∀ (p : List UInt8 × Nat) (buf : List UInt8),
      (step srv fs parseUrl (put p) (.field buf)).1 = put (Clip.push MAX_HEADER_NAME_SIZE 400 p buf) := by
    intro p buf
    have hname : (put p).onHFieldCb buf = (put p).addName buf := onHFieldCb_of_field (put p) hidx hstate buf
    rw [step, hname]
    simp [addName, put]
  have hstart : put ((con.reqHeader con.reqHeaderIdx).name, con.responseCode) = con := by simp [put]
  have hrun := Clip.next_push (f := put) (g := ParserEv.field) hput ((con.reqHeader con.reqHeaderIdx).name, con.responseCode) names
  rw [hstart] at hrun
  exact hrun

theorem next_values (hidx : con.reqHeaderIdx < MAX_HEADERS) {values : List (List UInt8)} (hne : values ≠ []) :
    Mealy.next (step srv fs parseUrl) con (values.map .value) = con.onHValueCb values.flatten := by
  let put (p : List UInt8 × Nat) : RequestBuffer :=
    { con with
      reqHeader := Function.update con.reqHeader con.reqHeaderIdx
        { con.reqHeader con.reqHeaderIdx with value := p.1, valueLen := p.1.length }
      reqHeaderState := .value
      responseCode := p.2 }
  let h := con.reqHeader con.reqHeaderIdx
  have hput : ∀ (p : List UInt8 × Nat) (buf : List UInt8),
      (step srv fs parseUrl (put p) (.value buf)).1 = put (Clip.push MAX_HEADER_VALUE_SIZE 400 p buf) := by
    intro p buf
    simp [step, onHValueCb, put, hidx.not_ge]
  have hfirst : ∀ buf, con.onHValueCb buf =
      put (Clip.push MAX_HEADER_VALUE_SIZE 400 (h.value.take h.valueLen, con.responseCode) buf) := by
    intro buf
    simp [onHValueCb, put, hidx.not_ge, h]
  rcases values with _ | ⟨buf, values⟩
  · exact absurd rfl hne
  · have hrun := Clip.next_push (f := put) (g := ParserEv.value) hput
      (Clip.push MAX_HEADER_VALUE_SIZE 400 (h.value.take h.valueLen, con.responseCode) buf) values
    rw [List.map_cons, Mealy.next_cons, List.flatten_cons, hfirst, ← Clip.push_push, ← hrun, ← hfirst]
    rfl

theorem Ready.next_header (h : con.Ready) {x : List UInt8 × List UInt8} {evs : List ParserEv} (hx : HeaderPieces x evs) :
    Mealy.next (step srv fs parseUrl) con evs = con.store x := by
  obtain ⟨names, values, -, hvalues, hname, hvalue, rfl⟩ := hx
  have hidx : (con.addName names.flatten).reqHeaderIdx < MAX_HEADERS := h.idx
  rw [Mealy.next_append, next_names h.idx h.state, next_values hidx hvalues, hname, hvalue]
  simp only [onHValueCb, addName, store, h.idx.not_ge, if_false, h.name, h.value, Clip.push_nil_left, Function.update_self,
    Function.update_idem, List.take_zero, code_of_tooLong]

theorem next_header_of_field_eq {con' : RequestBuffer} (h : ∀ buf, con.onHFieldCb buf = con'.onHFieldCb buf)
    {x : List UInt8 × List UInt8} {evs : List ParserEv} (hx : HeaderPieces x evs) :
    Mealy.next (step srv fs parseUrl) con evs = Mealy.next (step srv fs parseUrl) con' evs := by
  obtain ⟨names, values, hnames, -, -, -, rfl⟩ := hx
  rcases names with _ | ⟨buf, names⟩
  · exact absurd rfl hnames
  · simp only [List.map_cons, List.cons_append, Mealy.next_cons, step, h]

/-- A header after another one. -/
theorem next_header_of_value (hidx : con.reqHeaderIdx + 1 < MAX_HEADERS) (hstate : con.reqHeaderState = .value)
    {x : List UInt8 × List UInt8} {evs : List ParserEv} (hx : HeaderPieces x evs) :
    Mealy.next (step srv fs parseUrl) con evs = con.nextHeader.store x := by
  have hready : con.nextHeader.Ready := ⟨hidx, rfl, by simp [nextHeader], by simp [nextHeader]⟩
  have hfield : ∀ buf, con.onHFieldCb buf = con.nextHeader.onHFieldCb buf := by
    intro buf
    rw [onHFieldCb_of_field _ hready.idx hready.state, onHFieldCb, if_neg (by omega), hstate]
    exact if_neg hidx.not_ge
  rw [next_header_of_field_eq hfield hx, hready.next_header hx]

/-- No room is left for a header. -/
theorem next_header_of_full (hidx : MAX_HEADERS ≤ con.reqHeaderIdx + 1) (hle : con.reqHeaderIdx ≤ MAX_HEADERS)
    (hstate : con.reqHeaderState = .value) {x : List UInt8 × List UInt8} {evs : List ParserEv} (hx : HeaderPieces x evs) :
    Mealy.next (step srv fs parseUrl) con evs = { con with reqHeaderIdx := MAX_HEADERS, responseCode := 400 } := by
  obtain ⟨names, values, hnames, -, -, -, rfl⟩ := hx
  let full : RequestBuffer := { con with reqHeaderIdx := MAX_HEADERS, responseCode := 400 }
  have hfull : ∀ evs : List ParserEv, (∀ e ∈ evs, ∃ buf, e = .field buf ∨ e = .value buf) →
      Mealy.next (step srv fs parseUrl) full evs = full := by
    intro evs hevs
    induction evs with
    | nil => rfl
    | cons e evs ih =>
      rw [Mealy.next_cons]
      obtain ⟨buf, rfl | rfl⟩ := hevs e List.mem_cons_self
      · exact ih fun e he => hevs e (List.mem_cons_of_mem _ he)
      · exact ih fun e he => hevs e (List.mem_cons_of_mem _ he)
  rcases names with _ | ⟨buf, names⟩
  · exact absurd rfl hnames
  · have hfirst : con.onHFieldCb buf = full := by
      by_cases hroom : MAX_HEADERS ≤ con.reqHeaderIdx
      · rw [onHFieldCb, if_pos hroom]
        exact congrArg (fun i => { con with reqHeaderIdx := i, responseCode := 400 }) (Nat.le_antisymm hle hroom)
      · rw [onHFieldCb, if_neg hroom]
        split
        · have hlast : con.reqHeaderIdx + 1 = MAX_HEADERS := by omega
          rw [if_pos hidx]
          exact congrArg (fun i => { con with reqHeaderIdx := i, responseCode := 400 }) hlast
        · rename_i hfield
          exact absurd (hstate.symm.trans hfield) (by decide)
    rw [List.map_cons, List.cons_append, Mealy.next_cons, show (step srv fs parseUrl con (.field buf)).1 = full from hfirst]
    apply hfull
    intro e he
    simp only [List.mem_append, List.mem_map] at he
    rcases he with ⟨b, -, rfl⟩ | ⟨b, -, rfl⟩
    · exact ⟨b, Or.inl rfl⟩
    · exact ⟨b, Or.inr rfl⟩

/-- The headers that were handed over are in their places, as many as there are places. -/
structure Holds (con : RequestBuffer) (hs : List (List UInt8 × List UInt8)) : Prop where
  idx : con.reqHeaderIdx = min (hs.length - 1) MAX_HEADERS
  ready : hs = [] → con.Ready
  state : hs ≠ [] → con.reqHeaderState = .value
  stored : ∀ i < MAX_HEADERS, ∀ x, hs[i]? = some x → con.reqHeader i =
    ⟨x.1.take MAX_HEADER_NAME_SIZE, x.2.take MAX_HEADER_VALUE_SIZE, (x.2.take MAX_HEADER_VALUE_SIZE).length⟩

namespace Holds

variable {hs : List (List UInt8 × List UInt8)}

theorem congr {con' : RequestBuffer} (h : con.Holds hs) (hidx : con'.reqHeaderIdx = con.reqHeaderIdx)
    (hstate : con'.reqHeaderState = con.reqHeaderState) (hheader : con'.reqHeader = con.reqHeader) : con'.Holds hs := by
  refine ⟨hidx ▸ h.idx, fun hnil => ?_, fun hne => hstate ▸ h.state hne, hheader ▸ h.stored⟩
  obtain ⟨hi, hs, hn, hv⟩ := h.ready hnil
  exact ⟨hidx ▸ hi, hstate ▸ hs, by rw [hheader, hidx, hn], by rw [hheader, hidx, hv]⟩

theorem begin (con : RequestBuffer) : con.onMessageBeginCb.Holds [] := by
  refine ⟨rfl, fun _ => ⟨(by decide : 0 < MAX_HEADERS), rfl, ?_, ?_⟩, fun hne => absurd rfl hne, fun i _ x hx => by simp at hx⟩ <;>
    simp [onMessageBeginCb]

theorem getElem?_concat {α : Type*} {xs : List α} {y x : α} {i : Nat} (h : (xs ++ [y])[i]? = some x) :
    xs[i]? = some x ∧ i ≠ xs.length ∨ i = xs.length ∧ x = y := by
  rcases Nat.lt_trichotomy i xs.length with hi | rfl | hi
  · rw [List.getElem?_append_left hi] at h
    exact Or.inl ⟨h, hi.ne⟩
  · simp only [List.getElem?_concat_length, Option.some.injEq] at h
    exact Or.inr ⟨rfl, h.symm⟩
  · have := (List.getElem?_eq_some_iff.mp h).1
    simp at this
    omega

/-- The next header goes to the next place. -/
theorem store {x : List UInt8 × List UInt8} {c : RequestBuffer} (h : con.Holds hs) (hlen : hs.length < MAX_HEADERS)
    (hidx : c.reqHeaderIdx = hs.length) (hheader : ∀ i, i ≠ hs.length → c.reqHeader i = con.reqHeader i) :
    (c.store x).Holds (hs ++ [x]) := by
  refine ⟨?_, fun hnil => by simp at hnil, fun _ => rfl, fun i hi y hy => ?_⟩
  · show c.reqHeaderIdx = _
    rw [hidx, List.length_append, List.length_singleton]
    omega
  · rcases getElem?_concat hy with ⟨hy, hne⟩ | ⟨rfl, rfl⟩
    · have hother : (c.store x).reqHeader i = c.reqHeader i := Function.update_of_ne (hidx ▸ hne) ..
      rw [hother, hheader i hne]
      exact h.stored i hi y hy
    · simp [RequestBuffer.store, hidx]

end Holds

/-- The parts of a request that a callback for a header leaves alone. -/
structure SameText (con con' : RequestBuffer) : Prop where
  url : con'.url = con.url
  body : con'.body = con.body

variable (srv fs parseUrl) in
theorem Holds.next_header {hs : List (List UInt8 × List UInt8)} (h : con.Holds hs) {x : List UInt8 × List UInt8}
    {evs : List ParserEv} (hx : HeaderPieces x evs) :
    (Mealy.next (step srv fs parseUrl) con evs).Holds (hs ++ [x]) ∧
      con.SameText (Mealy.next (step srv fs parseUrl) con evs) ∧
      (Mealy.next (step srv fs parseUrl) con evs).responseCode =
        if MAX_HEADERS ≤ hs.length ∨ tooLong x then 400 else con.responseCode := by
  have hidx := h.idx
  rcases hs.eq_nil_or_concat' with rfl | ⟨hs', y, rfl⟩
  · have hready := h.ready rfl
    rw [hready.next_header hx]
    refine ⟨h.store (by decide) hidx fun _ _ => rfl, ⟨rfl, rfl⟩, ?_⟩
    simp [RequestBuffer.store, MAX_HEADERS]
  · have hstate := h.state (by simp)
    simp only [List.length_append, List.length_singleton] at hidx ⊢
    rcases Nat.lt_or_ge (hs'.length + 1) MAX_HEADERS with hroom | hfull
    · have hlast : con.reqHeaderIdx + 1 = hs'.length + 1 := by omega
      rw [next_header_of_value (by omega) hstate hx]
      refine ⟨h.store (by simpa using hroom) (by simpa [nextHeader] using hlast) fun i hi => ?_, ⟨rfl, rfl⟩, ?_⟩
      · exact Function.update_of_ne (by simpa [hlast] using hi) ..
      · simp [RequestBuffer.store, nextHeader, hroom.not_ge]
    · rw [next_header_of_full (by omega) (by omega) hstate hx]
      refine ⟨⟨?_, fun hnil => by simp at hnil, fun _ => hstate, fun i hi z hz => ?_⟩, ⟨rfl, rfl⟩, ?_⟩
      · simp only [List.length_append, List.length_singleton]
        omega
      · rcases getElem?_concat hz with ⟨hz, -⟩ | ⟨rfl, -⟩
        · exact h.stored i hi z hz
        · simp at hi
          omega
      · simp [hfull]

variable (srv fs parseUrl) in
/-- The headers of a list, one after another. -/
theorem Holds.next_headers {hs : List (List UInt8 × List UInt8)} (h : con.Holds hs) {xs : List (List UInt8 × List UInt8)}
    {evss : List (List ParserEv)} (hxs : List.Forall₂ HeaderPieces xs evss) :
    (Mealy.next (step srv fs parseUrl) con evss.flatten).Holds (hs ++ xs) ∧
      con.SameText (Mealy.next (step srv fs parseUrl) con evss.flatten) ∧
      (Mealy.next (step srv fs parseUrl) con evss.flatten).responseCode =
        if (xs ≠ [] ∧ MAX_HEADERS < (hs ++ xs).length) ∨ xs.any tooLong then 400 else con.responseCode := by
  induction hxs generalizing hs con with
  | nil => simpa using ⟨h, ⟨rfl, rfl⟩⟩
  | @cons x evs xs evss hx hxs ih =>
    obtain ⟨hone, htext, hcode⟩ := h.next_header srv fs parseUrl hx
    obtain ⟨hall, htext', hcode'⟩ := ih hone
    rw [List.flatten_cons, Mealy.next_append]
    refine ⟨by simpa using hall, ⟨htext'.url.trans htext.url, htext'.body.trans htext.body⟩, ?_⟩
    rw [hcode', hcode, ← ite_or]
    refine if_congr ?_ rfl rfl
    simp only [List.length_append, List.length_cons, List.length_nil, List.any_cons, Bool.or_eq_true, ne_eq, reduceCtorEq,
      not_false_eq_true, true_and]
    rcases xs with _ | ⟨y, xs⟩
    · simp only [not_true_eq_false, false_and, List.any_nil, Bool.false_eq_true, false_or, or_false, List.length_nil]
      rw [Nat.zero_add, Nat.lt_succ_iff]
    · simp only [reduceCtorEq, not_false_eq_true, true_and, List.length_cons]
      have hlen : MAX_HEADERS < hs.length + (xs.length + 1 + 1) ↔
          MAX_HEADERS < hs.length + (0 + 1) + (xs.length + 1) ∨ MAX_HEADERS ≤ hs.length := by omega
      rw [hlen]
      tauto

/-! ### The request that is complete -/

theorem Holds.hsGetReqHeader_eq {hs : List (List UInt8 × List UInt8)} (h : con.Holds hs) (hlen : hs.length ≤ MAX_HEADERS)
    (hlong : ∀ x ∈ hs, tooLong x = false) (name : List UInt8) :
    con.hsGetReqHeader name = (hs.find? fun x =>
      x.1 ≠ [] && (HttpServer.cString x.1).map FileSystem.lower = name.map FileSystem.lower).map fun x =>
        HttpServer.cString x.2 := by
  rcases hs with _ | ⟨x, hs⟩
  · have hidx : con.reqHeaderIdx = 0 := h.idx
    have hname := (h.ready rfl).name
    rw [hidx] at hname
    simp [hsGetReqHeader, hidx, hname, MAX_HEADERS, List.range_succ]
  · have hidx := h.idx
    have hplaces : (List.range (x :: hs).length).map con.reqHeader = (x :: hs).map fun x => ⟨x.1, x.2, x.2.length⟩ := by
      refine List.ext_getElem (by simp) fun i hi hi' => ?_
      simp only [List.length_map, List.length_range] at hi
      have hfit := hlong (x :: hs)[i] (List.getElem_mem hi)
      simp only [tooLong, Bool.or_eq_false_iff, decide_eq_false_iff_not, not_lt] at hfit
      simp only [List.getElem_map, List.getElem_range]
      rw [h.stored i (by omega) _ (List.getElem?_eq_getElem hi), List.take_of_length_le hfit.1, List.take_of_length_le hfit.2]
    have hcount : min (con.reqHeaderIdx + 1) MAX_HEADERS = (x :: hs).length := by
      simp only [List.length_cons] at hidx hlen ⊢
      omega
    rw [hsGetReqHeader, hcount]
    let p (hd : Header) : Bool :=
      hd.name ≠ [] && (HttpServer.cString hd.name).map FileSystem.lower = name.map FileSystem.lower
    have hfind := congrArg (fun l => (l.find? p).map fun hd => HttpServer.cString hd.value) hplaces
    simpa only [List.find?_map, Option.map_map, Function.comp_def] using hfind

end Server

end RequestBuffer

namespace HttpMessage

variable {m : HttpMessage}

theorem fits_iff : m.Fits ↔
    ¬ ((m.trailers ≠ [] ∧ MAX_HEADERS < (m.headers ++ m.trailers).length) ∨ m.trailers.any tooLong) ∧
    ¬ MAX_POST_SIZE < m.body.length ∧ ¬ (MAX_HEADERS < m.headers.length ∨ m.headers.any tooLong) ∧
    ¬ MAX_URL_SIZE < m.url.length := by
  have hlong : (∀ h ∈ m.headers ++ m.trailers, tooLong h = false) ↔
      ¬ m.headers.any tooLong = true ∧ ¬ m.trailers.any tooLong = true := by
    simp only [List.mem_append, or_imp, forall_and, List.any_eq_true, not_exists, not_and, Bool.not_eq_true]
  have hlen : (m.headers ++ m.trailers).length ≤ MAX_HEADERS ↔ ¬ MAX_HEADERS < m.headers.length ∧
      ¬ (m.trailers ≠ [] ∧ MAX_HEADERS < (m.headers ++ m.trailers).length) := by
    rcases m.trailers with _ | ⟨t, ts⟩
    · simp
    · simp only [List.length_append, List.length_cons, ne_eq, reduceCtorEq, not_false_eq_true, true_and]
      omega
  unfold Fits
  rw [hlong, hlen, ← not_lt, ← not_lt]
  tauto

/-- The codes that the parts of a request leave, in their order. -/
theorem code_eq (m : HttpMessage) :
    (if (m.trailers ≠ [] ∧ MAX_HEADERS < (m.headers ++ m.trailers).length) ∨ m.trailers.any tooLong then 400
      else if MAX_POST_SIZE < m.body.length then 413
      else if (m.headers ≠ [] ∧ MAX_HEADERS < m.headers.length) ∨ m.headers.any tooLong then 400
      else if MAX_URL_SIZE < m.url.length then 414 else 200) = if m.Fits then 200 else m.refusal := by
  have hheaders : (m.headers ≠ [] ∧ MAX_HEADERS < m.headers.length) ↔ MAX_HEADERS < m.headers.length :=
    and_iff_right_of_imp fun hlt hnil => by simp [hnil] at hlt
  simp only [hheaders]
  by_cases hfits : m.Fits
  · obtain ⟨ht, hb, hh, hu⟩ := fits_iff.mp hfits
    rw [if_pos hfits, if_neg ht, if_neg hb, if_neg hh, if_neg hu]
  · rw [if_neg hfits, refusal]
    have hsome := mt fits_iff.mpr hfits
    split_ifs with ht hb hh hu
    · rfl
    · rfl
    · rfl
    · rfl
    · exact absurd ⟨ht, hb, hh, hu⟩ hsome

theorem refusal_ne (m : HttpMessage) : m.refusal ≠ 200 := by
  unfold refusal
  split_ifs <;> decide

end HttpMessage

namespace RequestBuffer

section Server

variable {srv : HttpServer} {fs : FileSystem} {parseUrl : UrlParser} {con : RequestBuffer}

/-- Only a request that is complete is answered. -/
theorem out_append_of_silent {evs : List ParserEv} (hevs : ∀ e ∈ evs, ∀ method, e ≠ .messageComplete method)
    (evs' : List ParserEv) : Mealy.out (step srv fs parseUrl) con (evs ++ evs') =
      Mealy.out (step srv fs parseUrl) (Mealy.next (step srv fs parseUrl) con evs) evs' := by
  induction evs generalizing con with
  | nil => rfl
  | cons e evs ih =>
    rw [List.cons_append, Mealy.out_cons, Mealy.next_cons, ih fun e he => hevs e (List.mem_cons_of_mem _ he)]
    have he := hevs e List.mem_cons_self
    cases e with
    | messageComplete method => exact absurd rfl (he method)
    | _ => rfl

theorem silent_of_headers {xs : List (List UInt8 × List UInt8)} {evss : List (List ParserEv)}
    (h : List.Forall₂ HeaderPieces xs evss) : ∀ e ∈ evss.flatten, ∀ method, e ≠ .messageComplete method := by
  induction h with
  | nil => simp
  | cons hx _ ih =>
    obtain ⟨names, values, -, -, -, -, rfl⟩ := hx
    intro e he method
    simp only [List.flatten_cons, List.mem_append, List.mem_map] at he
    rcases he with (⟨b, -, rfl⟩ | ⟨b, -, rfl⟩) | he
    · nofun
    · nofun
    · exact ih e he method

theorem silent_of_map {g : List UInt8 → ParserEv} (h : ∀ b method, g b ≠ .messageComplete method)
    (pieces : List (List UInt8)) : ∀ e ∈ pieces.map g, ∀ method, e ≠ .messageComplete method := by
  intro e he method
  obtain ⟨b, -, rfl⟩ := List.mem_map.mp he
  exact h b method

theorem onBodyCb_eq (hbody : con.body = []) (buf : List UInt8) : con.onBodyCb buf =
    { con with
      body := buf.take MAX_POST_SIZE
      responseCode := if MAX_POST_SIZE < buf.length then 413 else con.responseCode } := by
  by_cases hbuf : buf = []
  · rcases con
    subst hbody
    simp [onBodyCb, hbuf]
  · simp [onBodyCb, hbuf, hbody, Clip.push_nil_left]

/-- What the buffers hold when a request is complete. -/
theorem complete_eq {con : RequestBuffer} {m : HttpMessage} (hurl : con.url = m.url.take MAX_URL_SIZE)
    (hbody : con.body = m.body.take MAX_POST_SIZE) (hcode : con.responseCode = if m.Fits then 200 else m.refusal)
    (hholds : con.Holds (m.headers ++ m.trailers)) :
    (step srv fs parseUrl con (.messageComplete m.method)).2 = some (m.outcome srv fs parseUrl) := by
  simp only [step, Option.some.injEq, HttpMessage.outcome]
  by_cases hfits : m.Fits
  · obtain ⟨hu, hb, hlen, hlong⟩ := id hfits
    rw [if_pos hfits] at hcode ⊢
    rw [hcode, hurl, hbody, List.take_of_length_le hu, List.take_of_length_le hb]
    exact congrArg _ (funext fun name => hholds.hsGetReqHeader_eq hlen hlong name)
  · rw [if_neg hfits] at hcode ⊢
    rw [hcode, HttpServer.onMessageCompleteCb]
    by_cases hmethod : m.method = .other
    · rw [if_pos hmethod, if_pos hmethod]
      rfl
    · rw [if_neg hmethod, if_neg hmethod, if_pos m.refusal_ne]
      rfl

/-- A request has the same outcome in whatever pieces it comes, and whatever came before it. -/
theorem sync_of_pieces {m : HttpMessage} {evs : List ParserEv} (h : m.Pieces evs) :
    Mealy.Sync (step srv fs parseUrl) evs [m.outcome srv fs parseUrl] := by
  obtain ⟨urls, bodies, headers, trailers, hurl, hbody, hheaders, htrailers, rfl⟩ := h
  intro con
  let con₁ := con.onMessageBeginCb.onUrlCb m.url
  have hbegin : con₁.Holds [] := (Holds.begin con).congr rfl rfl rfl
  obtain ⟨hholds, htext, hcode⟩ := hbegin.next_headers srv fs parseUrl hheaders
  let con₂ := Mealy.next (step srv fs parseUrl) con₁ headers.flatten
  have hbody₂ : con₂.onBodyCb m.body = _ := onBodyCb_eq htext.body m.body
  have hholds₃ : (con₂.onBodyCb m.body).Holds m.headers := by
    rw [hbody₂]
    exact hholds.congr rfl rfl rfl
  obtain ⟨hholds₄, htext₄, hcode₄⟩ := hholds₃.next_headers srv fs parseUrl htrailers
  let con₄ := Mealy.next (step srv fs parseUrl) (con₂.onBodyCb m.body) trailers.flatten
  have hurl₄ : con₄.url = m.url.take MAX_URL_SIZE := by
    rw [htext₄.url, hbody₂]
    exact htext.url.trans (by simp [con₁, onUrlCb, onMessageBeginCb, Clip.push_nil_left])
  have hbody₄ : con₄.body = m.body.take MAX_POST_SIZE := by rw [htext₄.body, hbody₂]
  have hcode₄ : con₄.responseCode = if m.Fits then 200 else m.refusal := by
    rw [hcode₄, hbody₂, ← HttpMessage.code_eq m]
    dsimp only
    rw [hcode]
    simp [con₁, onUrlCb, onMessageBeginCb, Clip.push_nil_left]
  rw [Mealy.out_cons, out_append_of_silent (silent_of_map (g := ParserEv.url) nofun urls), next_urls, hurl,
    out_append_of_silent (silent_of_headers hheaders), out_append_of_silent (silent_of_map (g := ParserEv.body) nofun bodies),
    next_bodies, hbody, out_append_of_silent (silent_of_headers htrailers), Mealy.out_cons]
  exact congrArg (fun o => none.toList ++ (Option.toList o ++ [])) (complete_eq hurl₄ hbody₄ hcode₄ hholds₄)

end Server

end RequestBuffer

/-- On every connection, however the requests are cut into pieces: a handler gets the request as it was sent, whole,
and a file is looked for by the whole URL; a request that does not fit in the buffers gets an error page. -/
theorem requests_as_sent (srv : HttpServer) (fs : FileSystem) (parseUrl : UrlParser) (con : RequestBuffer)
    {ms : List HttpMessage} {evss : List (List ParserEv)} (h : List.Forall₂ HttpMessage.Pieces ms evss) :
    Mealy.out (RequestBuffer.step srv fs parseUrl) con evss.flatten = ms.map (HttpMessage.outcome · srv fs parseUrl) := by
  induction h generalizing con with
  | nil => rfl
  | cons hm _ ih =>
    rw [List.flatten_cons, Mealy.out_append, RequestBuffer.sync_of_pieces hm con, ih]
    rfl

/-- A request that comes in pieces. -/
def postRequest : HttpMessage := ⟨.post, chars "/x", [(chars "Host", chars "a"), (chars "Accept", [])], chars "\x7b\x7d", []⟩

def postPieces : List ParserEv :=
  [.messageBegin, .url (chars "/"), .url (chars "x"), .field (chars "Ho"), .field (chars "st"), .value (chars "a"),
    .field (chars "Accept"), .value [], .body (chars "\x7b"), .body (chars "\x7d"), .messageComplete .post]

theorem postRequest_pieces : postRequest.Pieces postPieces := by
  refine ⟨[chars "/", chars "x"], [chars "\x7b", chars "\x7d"],
    [[.field (chars "Ho"), .field (chars "st"), .value (chars "a")], [.field (chars "Accept"), .value []]], [], by decide,
    by decide, .cons ?_ (.cons ?_ .nil), .nil, rfl⟩
  · exact ⟨[chars "Ho", chars "st"], [chars "a"], by decide, by decide, by decide, by decide, rfl⟩
  · exact ⟨[chars "Accept"], [[]], by decide, by decide, by decide, by decide, rfl⟩

theorem requests_as_sent_post :
    Mealy.out (RequestBuffer.step webServer passwdSystem splitUrl) {} [postPieces, postPieces].flatten =
      [postRequest.outcome webServer passwdSystem splitUrl, postRequest.outcome webServer passwdSystem splitUrl] :=
  requests_as_sent webServer passwdSystem splitUrl {} (.cons postRequest_pieces (.cons postRequest_pieces .nil))

end Mhuxd
