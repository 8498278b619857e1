import Mhuxd.CatPublish
import Mhuxd.HttpConnection
import Mhuxd.Lib.Printf

/-!
# Trace lines (`cat_trace.c`)

The CAT monitor and the replay tool write a line for each frame of a decoder: the time, the source, the bytes, and as a
comment what the decoder made of them. `traceText` is such a line. `catTraceFrame` writes it in pieces to the buffer of
the caller, which is large enough for it (`catTraceFrame_eq`).
-/

namespace Mhuxd

open HttpConnection (chars)
open Printf (dec decPad hex2 snprintf Buf)

def CAT_TRACE_LINE_MAX : Nat := 512

/-- `cat_frame_kind_str`. -/
def FrameKind.str : FrameKind → String
  | .cmd => "cmd"
  | .echo => "echo"
  | .reply => "reply"
  | .ack => "ack"
  | .nak => "nak"
  | .unsolicited => "unsolicited"
  | .unmatched => "unmatched"
  | .foreign => "foreign"
  | .bad => "bad"
  | .jam => "jam"
  | .dropped => "dropped"
  | .error => "error"

/-- `cat_trace_keyer_str`. -/
def catTraceKeyerStr (keyerMode : Int) : String :=
  if keyerMode = MOD_CW then "CW"
  else if keyerMode = MOD_VOICE then "VOICE"
  else if keyerMode = MOD_FSK then "FSK"
  else if keyerMode = MOD_DIGITAL then "DIGITAL"
  else "?"

/-- `fmt_item` with its buffer of 16 bytes; an item's value is a `uint32_t`. -/
def fmtItem (valid : Bool) (val : Nat) : List UInt8 := snprintf 16 (if valid then dec (val % 2 ^ 32) else chars "?")

/-- `cat_trace_state`. -/
def catTraceState (sz : Nat) (st : CatState) : List UInt8 :=
  let sel := fmtItem st.sel.freq.valid st.sel.freq.val
  let unsel := fmtItem st.unsel.freq.valid st.unsel.freq.val
  let split := fmtItem st.split.valid st.split.val.toNat
  let m := st.mode .sel
  snprintf sz (chars "rx=" ++ sel ++ chars " unsel=" ++ unsel ++ chars " mode=" ++
    chars (if m = .none then "?" else m.token) ++ chars " split=" ++ split ++
    chars " keyer=" ++ chars (catTraceKeyerStr m.toKeyer))

namespace CatFrame

/-- `tag`, with `host_tag`. -/
def tag (f : CatFrame) : List UInt8 :=
  match f.dir with
  | .radio => chars "R"
  | .own => chars "M"
  | .host => snprintf 16 (chars "H" ++ dec (if 0 < f.client then f.client else 1))

end CatFrame

def quote : UInt8 := 34
def backslash : UInt8 := 92

/-- A byte of a frame of the ASCII protocols. -/
def escape (c : UInt8) : List UInt8 :=
  if c = quote ∨ c = backslash then [backslash, c]
  else if 0x20 ≤ c ∧ c < 0x7f then [c]
  else chars "\\x" ++ hex2 c

/-- `cat_trace_frame`, the field `text` of the frame apart: what it leaves in `buf`, and its `n`. -/
def catTraceFrame (sz : Nat) (time : List UInt8) (text : Bool) (f : CatFrame) (st : Option CatState) : Buf :=
  let b := (Buf.of []).append sz (time ++ chars " " ++ f.tag)
  let b :=
    if text then
      (f.buf.foldl (fun b c => b.append sz (escape c)) (b.append sz (chars " \""))).append sz (chars "\"")
    else f.buf.foldl (fun b c => b.append sz (chars " " ++ hex2 c)) b
  let b := b.append sz (chars "  # ")
  let b :=
    if f.dir = .radio ∧ f.own then b.append sz (chars "own ")
    else if f.dir = .radio ∧ f.client ≠ 0 then b.append sz (chars "H" ++ dec f.client ++ chars " ")
    else b
  let b := b.append sz (chars f.kind.str)
  match st with
  | none => b
  | some st => if f.applied then b.append sz (chars ", applied: " ++ catTraceState 128 st) else b

/-! ### Who writes lines -/

/-- `struct tm`. -/
structure Tm where
  hour : Fin 24
  min : Fin 60
  sec : Fin 61

/-- `catn_mon_time_ms`; `localtime` is the time of the day that the system makes of the seconds. -/
def catnMonTimeMs (localtime : Nat → Tm) (tMs : Nat) : List UInt8 :=
  let tMs := tMs % 2 ^ 64
  let tm := localtime (tMs / 1000)
  snprintf 32 (decPad 2 tm.hour ++ chars ":" ++ decPad 2 tm.min ++ chars ":" ++ decPad 2 tm.sec ++ chars "." ++
    decPad 3 (tMs % 1000))

/-- The time in `frame_cb` of the replay tool. -/
def replayTime (tMs : Nat) : List UInt8 :=
  let tMs := tMs % 2 ^ 64
  snprintf 32 (dec (tMs / 1000) ++ chars "." ++ decPad 3 (tMs % 1000))

/-- The CAT monitor, and the replay tool that shows what it does. -/
inductive TraceWriter
  | monitor (localtime : Nat → Tm)
  | replay

def TraceWriter.time : TraceWriter → Nat → List UInt8
  | monitor localtime => catnMonTimeMs localtime
  | replay => replayTime

/-! ### The line -/

/-- An item, whatever the room for it. -/
def itemText (valid : Bool) (val : Nat) : List UInt8 := if valid then dec (val % 2 ^ 32) else chars "?"

def stateText (st : CatState) : List UInt8 :=
  chars "rx=" ++ itemText st.sel.freq.valid st.sel.freq.val ++
    chars " unsel=" ++ itemText st.unsel.freq.valid st.unsel.freq.val ++
    chars " mode=" ++ chars (if st.mode .sel = .none then "?" else (st.mode .sel).token) ++
    chars " split=" ++ itemText st.split.valid st.split.val.toNat ++
    chars " keyer=" ++ chars (catTraceKeyerStr (st.mode .sel).toKeyer)

/-- The bytes of a frame, with a blank before each part. -/
def payloadText (text : Bool) (buf : List UInt8) : List UInt8 :=
  if text then chars " \"" ++ buf.flatMap escape ++ chars "\"" else buf.flatMap fun c => chars " " ++ hex2 c

namespace CatFrame

/-- Whose command a frame of the radio answers. -/
def ownerText (f : CatFrame) : List UInt8 :=
  if f.dir = .radio ∧ f.own then chars "own "
  else if f.dir = .radio ∧ f.client ≠ 0 then chars "H" ++ dec f.client ++ chars " "
  else []

def appliedText (f : CatFrame) (st : Option CatState) : List UInt8 :=
  match st with
  | none => []
  | some st => if f.applied then chars ", applied: " ++ stateText st else []

/-- The comment of a line. -/
def remark (f : CatFrame) (st : Option CatState) : List UInt8 := f.ownerText ++ chars f.kind.str ++ f.appliedText st

end CatFrame

/-- The line of a frame. -/
def traceText (time : List UInt8) (text : Bool) (f : CatFrame) (st : Option CatState) : List UInt8 :=
  time ++ chars " " ++ f.tag ++ payloadText text f.buf ++ chars "  # " ++ f.remark st

/-! ### Room for the line -/

variable {f : CatFrame} {st : CatState} {text : Bool} {buf time : List UInt8} {c : UInt8}

theorem length_itemText (valid : Bool) (val : Nat) : (itemText valid val).length ≤ 10 := by
  unfold itemText
  split_ifs
  · exact Printf.length_dec_le (by decide) (lt_of_lt_of_le (Nat.mod_lt _ (by decide)) (by decide))
  · decide

theorem fmtItem_eq (valid : Bool) (val : Nat) : fmtItem valid val = itemText valid val :=
  List.take_of_length_le (le_trans (length_itemText valid val) (by decide))

theorem length_modeText (m : CatMode) : (chars (if m = .none then "?" else m.token)).length ≤ 6 := by
  cases m <;> decide

theorem length_keyerText (m : CatMode) : (chars (catTraceKeyerStr m.toKeyer)).length ≤ 7 := by
  cases m <;> decide

theorem length_stateText (st : CatState) : (stateText st).length ≤ 73 := by
  have hsel := length_itemText st.sel.freq.valid st.sel.freq.val
  have hunsel := length_itemText st.unsel.freq.valid st.unsel.freq.val
  have hsplit := length_itemText st.split.valid st.split.val.toNat
  have hmode := length_modeText (st.mode .sel)
  have hkeyer := length_keyerText (st.mode .sel)
  have hrx : (chars "rx=").length = 3 := by decide
  have hun : (chars " unsel=").length = 7 := by decide
  have hmo : (chars " mode=").length = 6 := by decide
  have hsp : (chars " split=").length = 7 := by decide
  have hke : (chars " keyer=").length = 7 := by decide
  simp only [stateText, List.length_append]
  omega

theorem catTraceState_eq (st : CatState) : catTraceState 128 st = stateText st := by
  unfold catTraceState
  simp only [fmtItem_eq]
  exact List.take_of_length_le (le_trans (length_stateText st) (by decide))

theorem append_owner {sz : Nat} {s : List UInt8} (h : s.length + f.ownerText.length < sz) :
    (if f.dir = .radio ∧ f.own then (Buf.of s).append sz (chars "own ")
      else if f.dir = .radio ∧ f.client ≠ 0 then (Buf.of s).append sz (chars "H" ++ dec f.client ++ chars " ")
      else Buf.of s) = Buf.of (s ++ f.ownerText) := by
  unfold CatFrame.ownerText at h ⊢
  split_ifs at h ⊢
  · exact Buf.append_of h
  · exact Buf.append_of h
  · rw [List.append_nil]

theorem append_applied {sz : Nat} {s : List UInt8} (st : Option CatState) :
    s.length + (f.appliedText st).length < sz → (match st with
      | none => Buf.of s
      | some st => if f.applied then (Buf.of s).append sz (chars ", applied: " ++ catTraceState 128 st) else Buf.of s) =
    Buf.of (s ++ f.appliedText st) := by
  unfold CatFrame.appliedText
  intro h
  cases st with
  | none => rw [List.append_nil]
  | some st =>
    dsimp only at h ⊢
    rw [catTraceState_eq]
    split_ifs at h ⊢
    · exact Buf.append_of h
    · rw [List.append_nil]

/-- A buffer with room for the line gets the line. -/
theorem catTraceFrame_of_room {sz : Nat} {st : Option CatState} (h : (traceText time text f st).length < sz) :
    catTraceFrame sz time text f st = Buf.of (traceText time text f st) := by
  have hlen : (traceText time text f st).length = (time ++ chars " " ++ f.tag).length + (payloadText text f.buf).length +
      (chars "  # ").length + f.ownerText.length + (chars f.kind.str).length + (f.appliedText st).length := by
    simp only [traceText, CatFrame.remark, List.length_append]
    omega
  generalize hhead : time ++ chars " " ++ f.tag = head at hlen
  have hpayload : (if text then
      (f.buf.foldl (fun b c => b.append sz (escape c)) ((Buf.of head).append sz (chars " \""))).append sz (chars "\"")
      else f.buf.foldl (fun b c => b.append sz (chars " " ++ hex2 c)) (Buf.of head)) =
      Buf.of (head ++ payloadText text f.buf) := by
    unfold payloadText at hlen ⊢
    split_ifs at hlen ⊢
    · rw [List.length_append, List.length_append] at hlen
      rw [Buf.append_of (by omega), Buf.foldl_append_of (by rw [List.length_append]; omega),
        Buf.append_of (by rw [List.length_append, List.length_append]; omega)]
      simp only [List.append_assoc]
    · exact Buf.foldl_append_of (by omega)
  unfold catTraceFrame
  rw [hhead, Buf.append_of (by simp only [List.length_nil]; omega), List.nil_append]
  dsimp only
  rw [hpayload, Buf.append_of (by rw [List.length_append]; omega),
    append_owner (by simp only [List.length_append]; omega), Buf.append_of (by simp only [List.length_append]; omega),
    append_applied _ (by simp only [List.length_append]; omega), traceText, hhead, CatFrame.remark]
  simp only [List.append_assoc]

theorem length_escape (c : UInt8) : (escape c).length ≤ 4 := by
  unfold escape
  split_ifs
  · exact (by decide : 2 ≤ 4)
  · exact (by decide : 1 ≤ 4)
  · rw [List.length_append]
    exact (by decide : 4 ≤ 4)

theorem length_payloadText (text : Bool) (buf : List UInt8) :
    (payloadText text buf).length ≤ if text then 4 * buf.length + 3 else 3 * buf.length := by
  have hflat : ∀ {f : UInt8 → List UInt8} {n : Nat}, (∀ c, (f c).length ≤ n) → (buf.flatMap f).length ≤ n * buf.length := by
    intro f n hf
    induction buf with
    | nil => exact Nat.zero_le _
    | cons c buf ih =>
      have hc := hf c
      rw [List.flatMap_cons, List.length_append, List.length_cons, Nat.mul_succ]
      omega
  unfold payloadText
  split_ifs
  · have hbytes := hflat length_escape
    have hopen : (chars " \"").length = 2 := by decide
    have hclose : (chars "\"").length = 1 := by decide
    rw [List.length_append, List.length_append]
    omega
  · exact hflat fun c => le_of_eq rfl

/-- A frame that a decoder can have: its length, and the number of its client. -/
structure CatFrame.Fits (text : Bool) (f : CatFrame) : Prop where
  length : f.buf.length ≤ if text then ASCII_MAX_FRAME else YBIN_MAX_FRAME
  host : f.dir = .host → 1 ≤ f.client ∧ f.client ≤ CAT_MAX_CLIENTS
  radio : f.dir = .radio → f.client ≤ CAT_MAX_CLIENTS

theorem length_client {n : Nat} (hn : n ≤ CAT_MAX_CLIENTS) : (dec n).length ≤ 1 :=
  Printf.length_dec_le (by decide) (lt_of_le_of_lt hn (by decide))

theorem length_tag (hf : f.Fits text) : f.tag.length ≤ 2 := by
  have hH : (chars "H").length = 1 := by decide
  unfold CatFrame.tag
  rcases hdir : f.dir with _ | _ | _
  · have hpos : 0 < f.client := (hf.host hdir).1
    have hc := length_client (hf.host hdir).2
    dsimp only
    rw [if_pos hpos]
    refine le_trans (List.length_take_le' _ _) ?_
    rw [List.length_append]
    omega
  · exact (by decide : (chars "M").length ≤ 2)
  · exact (by decide : (chars "R").length ≤ 2)

theorem length_remark (hf : f.Fits text) (st : Option CatState) : (f.remark st).length ≤ 99 := by
  have howner : f.ownerText.length ≤ 4 := by
    have hH : (chars "H").length = 1 := by decide
    have hblank : (chars " ").length = 1 := by decide
    unfold CatFrame.ownerText
    split_ifs with _ hdir
    · decide
    · have hc := length_client (hf.radio hdir.1)
      rw [List.length_append, List.length_append]
      omega
    · decide
  have hkind : (chars f.kind.str).length ≤ 11 := by cases f.kind <;> decide
  have happlied : (f.appliedText st).length ≤ 84 := by
    unfold CatFrame.appliedText
    split
    · decide
    · split_ifs
      · have happ : (chars ", applied: ").length = 11 := by decide
        have hst := length_stateText ‹_›
        rw [List.length_append]
        omega
      · decide
  simp only [CatFrame.remark, List.length_append]
  omega

theorem length_traceText (hf : f.Fits text) (htime : time.length < 32) (st : Option CatState) :
    (traceText time text f st).length < CAT_TRACE_LINE_MAX := by
  have htag := length_tag hf
  have hremark := length_remark hf st
  have hpayload := length_payloadText text f.buf
  have hlen := hf.length
  have hblank : (chars " ").length = 1 := by decide
  have hhash : (chars "  # ").length = 4 := by decide
  simp only [traceText, List.length_append, CAT_TRACE_LINE_MAX]
  unfold ASCII_MAX_FRAME YBIN_MAX_FRAME at hlen
  cases text <;> simp only [if_true, if_false, Bool.false_eq_true] at hpayload hlen <;> omega

/-- The line of a frame is never cut, if the time has room in the 32 bytes that the callers have for it. -/
theorem catTraceFrame_eq (hf : f.Fits text) (htime : time.length < 32) (st : Option CatState) :
    catTraceFrame CAT_TRACE_LINE_MAX time text f st = Buf.of (traceText time text f st) :=
  catTraceFrame_of_room (length_traceText hf htime st)

end Mhuxd
