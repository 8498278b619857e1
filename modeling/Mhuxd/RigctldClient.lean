import Mhuxd.CatPublish
import Mhuxd.HttpConnection
import Mhuxd.KcfgTables
import Mhuxd.StationMaster

/-!
# The client of rigctld (`rigctld_client.c`)

A poll sends three commands, each after the reply to the one before it. The replies gather in one buffer; the `i`-th is
taken to be complete when `i` lines of the buffer begin with `RPRT `. What is read of the last such line then is left
to chance, and the rest of it is what the next poll reads first.

`log` records what the client does in a poll; no function reads it.
-/

namespace Mhuxd

open HttpConnection (chars)

/-- `sizeof(rx_buf) - 1`. -/
def RIGCL_RX_SIZE : Nat := 511

abbrev RIGCL_NUM_COMMANDS : Nat := 3

def newline : UInt8 := 10

def rigclCommands : Fin RIGCL_NUM_COMMANDS → List UInt8
  | 0 => chars "+\\get_vfo_info VFOA\n"
  | 1 => chars "+\\get_vfo_info VFOB\n"
  | 2 => chars "+\\get_vfo_info currVFO\n"

inductive RigclPhase
  | idle | connecting | writing | reading
deriving DecidableEq

/-- `struct mhc_radio_info`, its mode as rigctld names it. -/
structure RigInfo extends RadioInfo where
  mode : Int
  modeStr : List UInt8
deriving DecidableEq

/-! ### Numbers and modes -/

def isSpace (c : UInt8) : Bool := c == 32 || (9 ≤ c && c ≤ 13)

def isDigit (c : UInt8) : Bool := 48 ≤ c && c ≤ 57

/-- The digits at the start of a string. -/
def leadingNat (s : List UInt8) : Nat := (s.takeWhile isDigit).foldl (fun n c => 10 * n + (c.toNat - 48)) 0

/-- The sign and the number that `strtol` and `strtoul` read. -/
def signedNat (s : List UInt8) : Bool × Nat :=
  match s.dropWhile isSpace with
  | 45 :: s => (true, leadingNat s)
  | 43 :: s => (false, leadingNat s)
  | s => (false, leadingNat s)

/-- `(uint32_t)strtoul(s, NULL, 10)`. -/
def strtoulU32 (s : List UInt8) : UInt32 :=
  let (neg, n) := signedNat s
  if 2 ^ 64 ≤ n then UInt32.ofNat (2 ^ 64 - 1) else if neg then UInt32.ofNat (2 ^ 64 - n) else UInt32.ofNat n

/-- `atoi`: `strtol`, which saturates, cut to 32 bits. -/
def atoi (s : List UInt8) : Int :=
  let (neg, n) := signedNat s
  Int.bmod (if neg then max (-n) (-2 ^ 63) else min n (2 ^ 63 - 1)) (2 ^ 32)

namespace CatMode

/-- The modes that have a token of their own, in the order of `mode_tab`. -/
def named : List CatMode :=
  [lsb, usb, cw, cwr, rtty, rttyr, am, ams, fm, wfm, pktlsb, pktusb, pktam, pktfm, fax, psk, pskr]

/-- `cat_mode_from_token`. -/
def fromToken (token : List UInt8) : CatMode :=
  if token = [] then none
  else (named.find? fun m => (chars m.token).map lowerByte == token.map lowerByte).getD other

end CatMode

def modeFromRigctldToken (token : List UInt8) : Int := (CatMode.fromToken token).toKeyer

def isBlank (c : UInt8) : Bool := c == 32 || c == 9

/-- `parse_mode_token`; `token` has 32 bytes. -/
def parseModeToken (line : List UInt8) : Option (List UInt8) :=
  let token := ((line.dropWhile isBlank).takeWhile fun c => !(isBlank c || c == newline || c == 13)).take 31
  if token = [] then none else some token

/-! ### Replies -/

def isRprt (p : List UInt8) : Bool := (chars "RPRT ").isPrefixOf p

/-- `bol`: a line begins here. -/
def rprtLines : Bool → List UInt8 → Nat
  | _, [] => 0
  | bol, c :: cs => (if bol && isRprt (c :: cs) then 1 else 0) + rprtLines (c == newline) cs

/-- `count_rprt_lines`. -/
def countRprtLines (buf : List UInt8) : Nat := rprtLines true buf

inductive RigclSection
  | none | vfoa | vfob | currvfo
deriving DecidableEq

/-- `rigcl_detect_section`. -/
def rigclDetectSection (line : List UInt8) : RigclSection :=
  if (chars "get_vfo_info: ").isPrefixOf line then
    if (chars "VFOA").isPrefixOf (line.drop 14) then .vfoa
    else if (chars "VFOB").isPrefixOf (line.drop 14) then .vfob
    else .currvfo
  else .none

/-- What `rigcl_parse_response` keeps from line to line. -/
structure RigclParse where
  info : RigInfo
  split : Int
  sect : RigclSection
deriving DecidableEq

namespace RigclParse

def setFreq (st : RigclParse) (freq : UInt32) : RigclParse :=
  match st.sect with
  | .vfoa => { st with info.vfoAFreq := freq }
  | .vfob => { st with info.vfoBFreq := freq }
  | .currvfo => { st with info.rxFreq := freq, info.operFreq := freq }
  | .none => st

/-- A mode that the keyer has none for is shown, but leaves the keyer's. -/
def setMode (st : RigclParse) (line : List UInt8) : RigclParse :=
  match parseModeToken line with
  | none => st
  | some token =>
    let m := modeFromRigctldToken token
    { st with info.modeStr := token.take 7, info.mode := if 0 ≤ m then m else st.info.mode }

def stripCr (line : List UInt8) : List UInt8 := if line.getLast? = some 13 then line.dropLast else line

/-- The loop's body, but for the carriage return. -/
def parseLine (st : RigclParse) (line : List UInt8) : RigclParse :=
  if rigclDetectSection line ≠ .none then { st with sect := rigclDetectSection line }
  else if (chars "Freq: ").isPrefixOf line then st.setFreq (strtoulU32 (line.drop 6))
  else if (chars "Mode: ").isPrefixOf line ∧ st.sect = .currvfo then st.setMode (line.drop 6)
  else if (chars "Split: ").isPrefixOf line ∧ st.sect = .currvfo then { st with split := atoi (line.drop 7) }
  else if isRprt line then { st with sect := .none }
  else st

/-- The split's part in the transmit frequency. -/
def result (st : RigclParse) : RigInfo :=
  if 0 ≤ st.split then
    if st.split = 0 then { st.info with txFreq := st.info.rxFreq }
    else if st.info.rxFreq = st.info.vfoAFreq then { st.info with txFreq := st.info.vfoBFreq }
    else if st.info.rxFreq = st.info.vfoBFreq then { st.info with txFreq := st.info.vfoAFreq }
    else { st.info with txFreq := st.info.vfoBFreq }
  else st.info

end RigclParse

/-- What `strtok_r` takes off one after the other. -/
def tokens (s : List UInt8) : List (List UInt8) := (s.splitOn newline).filter (· ≠ [])

/-- `rigcl_parse_response`. -/
def rigclParseResponse (radio : UInt8) (last : RigInfo) (buf : List UInt8) : RigInfo :=
  let start : RigclParse := ⟨{ last with radio := radio }, -1, .none⟩
  ((tokens (cstr buf)).foldl (fun st line => st.parseLine (RigclParse.stripCr line)) start).result

/-! ### The client -/

/-- `rx_buf`. -/
structure RigclRx where
  bytes : List UInt8
  fits : bytes.length ≤ RIGCL_RX_SIZE

namespace RigclRx

def empty : RigclRx := ⟨[], Nat.zero_le _⟩

def room (rx : RigclRx) : Nat := RIGCL_RX_SIZE - rx.bytes.length

/-- What a `read` takes of `wire`, if `n` bytes of it have come. -/
def takes (rx : RigclRx) (wire : List UInt8) (n : Nat) : List UInt8 := wire.take (min n rx.room)

def append (rx : RigclRx) (wire : List UInt8) (n : Nat) : RigclRx where
  bytes := rx.bytes ++ rx.takes wire n
  fits := by
    have hfits := rx.fits
    simp only [takes, room, List.length_append, List.length_take]
    omega

end RigclRx

inductive RigNote
  | poll
  | command (i : Nat)
  | fail
  | info (i : RigInfo)
deriving DecidableEq

/-- `struct rigctld_client`, that runs. -/
structure RigctldClient where
  radio : UInt8
  connected : Bool
  phase : RigclPhase
  txBuf : List UInt8
  txOff : Nat
  cmdIdx : Fin RIGCL_NUM_COMMANDS
  rx : RigclRx
  lastInfo : RigInfo
  log : List RigNote

namespace RigctldClient

/-- `rigctld_client_create`. -/
def create (radio : UInt8) : RigctldClient where
  radio := radio
  connected := false
  phase := .idle
  txBuf := []
  txOff := 0
  cmdIdx := 0
  rx := .empty
  lastInfo := ⟨⟨radio, 0, 0, 0, 0, 0⟩, -1, []⟩
  log := []

def note (client : RigctldClient) (x : RigNote) : RigctldClient := { client with log := client.log ++ [x] }

/-- `rigcl_finish_request`. -/
def finishRequest (client : RigctldClient) : RigctldClient :=
  { client with phase := .idle, txOff := 0, cmdIdx := 0, rx := .empty }

/-- `rigcl_load_command`. -/
def loadCommand (client : RigctldClient) (idx : Fin RIGCL_NUM_COMMANDS) : RigctldClient :=
  { client with cmdIdx := idx, txBuf := rigclCommands idx, txOff := 0 }

/-- `rigcl_op_fail`, with `rigcl_reset_io`. -/
def opFail (client : RigctldClient) : RigctldClient :=
  { client.finishRequest with connected := false }.note .fail

/-- `rigcl_start_request`. `opens` says whether a socket can be opened if there is none. -/
def startRequest (client : RigctldClient) (opens : Bool) : RigctldClient :=
  if client.phase ≠ .idle then client
  else if client.connected then
    { { client with phase := .writing }.loadCommand 0 with rx := .empty }.note .poll
  else if opens then
    { { client with phase := .connecting, connected := true }.loadCommand 0 with rx := .empty }.note .poll
  else client

/-- `rigcl_io_cb` in `RIGCL_PHASE_WRITING`. -/
def ioWrite (client : RigctldClient) (res : WriteRes) : RigctldClient :=
  match res with
  | .again => client
  | .error => client.opFail
  | .wrote n =>
    if n = 0 then client.opFail
    else
      let client := { client with txOff := client.txOff + min n (client.txBuf.length - client.txOff) }
      if client.txOff < client.txBuf.length then client
      else { client with phase := .reading }.note (.command client.cmdIdx)

/-- `rigcl_io_cb` with `EV_WRITE`; `connects` is the outcome of a connect that was under way. -/
def ioWritable (client : RigctldClient) (connects : Bool) (res : WriteRes) : RigctldClient :=
  match client.phase with
  | .connecting => if connects then { client with phase := .writing }.ioWrite res else client.opFail
  | .writing => client.ioWrite res
  | _ => client

/-- The replies so far were enough for the command, or not. -/
def afterRead (client : RigctldClient) : RigctldClient :=
  if countRprtLines client.rx.bytes < client.cmdIdx + 1 then client
  else if h : (client.cmdIdx : Nat) + 1 < RIGCL_NUM_COMMANDS then
    { client.loadCommand ⟨client.cmdIdx + 1, h⟩ with phase := .writing }
  else
    let info := rigclParseResponse client.radio client.lastInfo client.rx.bytes
    ({ client with lastInfo := info }.note (.info info)).finishRequest

/-- `rigcl_io_cb` with `EV_READ`, if `n` bytes of `wire` have come. A read into a full buffer gets nothing, as at the end
of the file. -/
def ioReadable (client : RigctldClient) (wire : List UInt8) (n : Nat) : RigctldClient :=
  if client.phase ≠ .reading then client
  else if client.rx.takes wire n = [] then client.opFail
  else { client with rx := client.rx.append wire n }.afterRead

/-- The read fails, or rigctld has closed the connection. -/
def ioBroken (client : RigctldClient) : RigctldClient := if client.phase = .reading then client.opFail else client

/-- `rigcl_op_timeout_cb`; the timer runs while a request does. -/
def opTimeoutCb (client : RigctldClient) : RigctldClient := if client.phase = .idle then client else client.opFail

end RigctldClient

end Mhuxd
