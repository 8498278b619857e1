import Mhuxd.Control
import Mhuxd.Mcp
import Mhuxd.Processors

/-!
# Errors told to an MCP client (`proc_mcp.c`)

A client's bytes are collected in `cmd`. The end of a line runs the command in it, and the collecting starts over at the
front of the same array. A control command of the keyer completes later, and then it is `cmd` that names it.

`McpClient` is the processor with the client's side of it: the lines, and what each of them has been told.
-/

namespace Mhuxd

namespace Mcp

/-- A byte, as a `char`. -/
def ofByte (c : UInt8) : Char := Char.ofNat c.toNat

/-- The text before the first zero. -/
def cText (s : Text) : Text := s.takeWhile (· ≠ '\x00')

def isEol (c : Char) : Bool := c == '\r' || c == '\n'

end Mcp

/-! ### The processor -/

/-- `struct proc_mcp`: `cmd` keeps what the commands before have left behind the zero. -/
structure McpProc where
  mcp : Mcp
  cmd : Text
  cmdLen : Nat
  cmdOverflow : Bool
  size : cmd.length = MCP_MAX_CMD_SIZE + 1
  last : cmd[MCP_MAX_CMD_SIZE]? = some '\x00'
  le : cmdLen ≤ MCP_MAX_CMD_SIZE

/-- `struct mh_control`, what the commands of a client read and set of it. -/
structure McpKeyer where
  serial : Text
  verFwMajor : UInt8
  verFwMinor : UInt8
  online : Bool
  hfocus : List UInt8
  accOutputs : List UInt8

/-- What is sent to the client, and what is submitted to the keyer. -/
inductive McpOut
  | response (s : Text) | error (s : Text) | submit (cmd : Command)
deriving DecidableEq

namespace McpOut

def error? : McpOut → Option Text
  | error s => some s
  | _ => none

def command? : McpOut → Option Command
  | submit cmd => some cmd
  | _ => none

end McpOut

/-- What `process_cmd` leaves and returns; false for -1. -/
structure McpReturn where
  keyer : McpKeyer
  proc : McpProc
  out : List McpOut
  ok : Bool

def hostFocusControl (hfocus : List UInt8) : Command := ⟨0x31, hfocus, rfl⟩
def hostAccOutputsControl (accOutputs : List UInt8) : Command := ⟨0x35, accOutputs, rfl⟩
def applyScenario (idx : UInt8) : Command := ⟨0x34, [idx], rfl⟩
def recordMessage (idx : UInt8) : Command := ⟨0x0c, [idx - 1], rfl⟩
def stopRecording : Command := ⟨0x0c, [0xff], rfl⟩
def playMessage (idx : UInt8) : Command := ⟨0x0d, [idx - 1], rfl⟩
def abortMessage : Command := ⟨0x0e, [], rfl⟩

/-- The line of an error response. -/
def errLine (cmd : Text) : Text := 'E' :: cmd ++ ['\r']

def sendErrResponse (cmd : Text) : McpOut := .error (errLine cmd)

namespace McpProc

/-- `mcp_create`: what is not of `Mcp` is zero. -/
def create (mcp : Mcp) : McpProc where
  mcp
  cmd := List.replicate (MCP_MAX_CMD_SIZE + 1) '\x00'
  cmdLen := 0
  cmdOverflow := false
  size := List.length_replicate
  last := rfl
  le := Nat.zero_le _

/-- `mcp->cmd` as a string. -/
def text (m : McpProc) : Text := Mcp.cText m.cmd

/-- `mcp->cmd[mcp->cmd_len++] = c`. -/
def put (m : McpProc) (c : Char) (h : m.cmdLen < MCP_MAX_CMD_SIZE) : McpProc :=
  { m with
    cmd := m.cmd.set m.cmdLen c
    cmdLen := m.cmdLen + 1
    size := by rw [List.length_set, m.size]
    last := by rw [List.getElem?_set_ne (Nat.ne_of_lt h), m.last]
    le := h }

/-- `mcp->cmd[mcp->cmd_len] = 0`. -/
def terminate (m : McpProc) : McpProc :=
  { m with
    cmd := m.cmd.set m.cmdLen '\x00'
    size := by rw [List.length_set, m.size]
    last := by
      by_cases heq : m.cmdLen = MCP_MAX_CMD_SIZE
      · rw [heq, List.getElem?_set_self (by rw [m.size]; exact Nat.lt_succ_self _)]
      · rw [List.getElem?_set_ne heq, m.last] }

def restart (m : McpProc) : McpProc := { m with cmdLen := 0, cmdOverflow := false, le := Nat.zero_le _ }

def overflow (m : McpProc) : McpProc := { m with cmdOverflow := true }

/-- The end of `process_cmd` at `set_hfocus`. -/
def setHfocus (m : McpProc) (k : McpKeyer) (hfocus : List UInt8) : McpReturn :=
  ⟨{ k with hfocus }, m, [.submit (hostFocusControl hfocus)], true⟩

/-- `cmd_am` calls `mhc_mk2r_set_acc_outputs`. -/
def amSets (cmd : Text) : Bool := cmd.length == 19 && (amBits (cmd.drop 3)).isSome

def amReturn (m : McpProc) (k : McpKeyer) (cmd : Text) : McpReturn :=
  let (accOutputs, sent, ok) := cmdAm k.accOutputs cmd
  ⟨{ k with accOutputs }, m,
    sent.map .response ++ if amSets cmd then [.submit (hostAccOutputsControl accOutputs)] else [], ok⟩

/-- `%02d` -/
def twoDigits (n : Nat) : Text := if n < 10 then '0' :: Nat.toDigits 10 n else Nat.toDigits 10 n

def onlineResponse (k : McpKeyer) : McpOut := .response (sendResponse ['C'] [if k.online then '1' else '0'])

/-- `cmd_ver` -/
def cmdVer (k : McpKeyer) (cmd : Text) : List McpOut :=
  (if cmd[1]? = some 'S' ∨ cmd[1]? = none then [.response (sendResponse ['V', 'S'] k.serial)] else []) ++
  (if cmd[1]? = some 'F' ∨ cmd[1]? = none then
    [.response (sendResponse ['V', 'F'] (twoDigits k.verFwMajor.toNat ++ ['.'] ++ twoDigits k.verFwMinor.toNat))]
  else []) ++
  (if cmd[1]? = some 'R' ∨ cmd[1]? = none then [.response (sendResponse ['V', 'R'] "08.05.06".toList)] else []) ++
  (if cmd[1]? = none then [onlineResponse k] else [])

/-- The number of a command with one digit, from `lo` to `hi`. -/
def digitArg (cmd : Text) (name : Text) (lo hi : Char) : Option UInt8 :=
  if cmd.take 2 = name ∧ cmd.length = 3 then
    cmd[2]?.bind fun c => if lo ≤ c ∧ c ≤ hi then some (UInt8.ofNat (c.toNat - 48)) else none
  else none

/-- `process_cmd` -/
def processCmd (m : McpProc) (k : McpKeyer) : McpReturn :=
  let cmd := m.text
  if m.cmdLen < 1 then ⟨k, m, [], false⟩
  else if let some hfocus := focusCmd k.hfocus cmd then m.setHfocus k hfocus
  else if cmd.take 3 = ['A', 'M', '1'] ∨ cmd.take 3 = ['A', 'M', '2'] then m.amReturn k cmd
  else if cmd = ['V', 'S'] ∨ cmd = ['V', 'F'] ∨ cmd = ['V', 'R'] ∨ cmd = ['V'] then ⟨k, m, cmdVer k cmd, true⟩
  else if cmd = ['I', '0'] then ⟨k, { m with mcp.autoInfoOn := false }, [], true⟩
  else if cmd = ['I', '1'] then ⟨k, { m with mcp.autoInfoOn := true }, [], true⟩
  else if cmd = ['C'] then ⟨k, m, [onlineResponse k], true⟩
  else if let some idx := digitArg cmd ['S', 'A'] '0' '7' then ⟨k, m, [.submit (applyScenario idx)], true⟩
  else if let some idx := digitArg cmd ['M', 'R'] '1' '9' then ⟨k, m, [.submit (recordMessage idx)], true⟩
  else if let some idx := digitArg cmd ['M', 'P'] '1' '9' then ⟨k, m, [.submit (playMessage idx)], true⟩
  else if cmd = ['M', 'R', 'S'] then ⟨k, m, [.submit stopRecording], true⟩
  else if cmd = ['M', 'A'] then ⟨k, m, [.submit abortMessage], true⟩
  else ⟨k, m, [], false⟩

/-- A round of the loop of `mcp_cb`. -/
def getByte (m : McpProc) (k : McpKeyer) (c : Char) : McpKeyer × McpProc × List McpOut :=
  if m.cmdOverflow then
    if Mcp.isEol c then (k, m.restart, [sendErrResponse m.text]) else (k, m, [])
  else if Mcp.isEol c then
    if m.cmdLen = 0 then (k, m, [])
    else
      let r := m.terminate.processCmd k
      (r.keyer, r.proc.restart, r.out ++ if r.ok then [] else [sendErrResponse r.proc.text])
  else if h : m.cmdLen < MCP_MAX_CMD_SIZE then (k, m.put c h, [])
  else (k, m.overflow, [])

/-- `mcp_cb` with the bytes `data` in the buffer. -/
def mcpCb (m : McpProc) (k : McpKeyer) : List UInt8 → McpKeyer × McpProc × List McpOut
  | [] => (k, m, [])
  | c :: data =>
    let (k, m, out) := m.getByte k (Mcp.ofByte c)
    let (k, m, out') := m.mcpCb k data
    (k, m, out ++ out')

/-- `completion_cb` -/
def completionCb (m : McpProc) (result : CmdResult) : List McpOut :=
  if result ≠ .ok then [sendErrResponse m.text] else []

end McpProc
/-! ### What a client should be told -/

def IsBits (n : Nat) (t : Text) : Prop := t.length = n ∧ ∀ c ∈ t, c = '0' ∨ c = '1'

instance (n : Nat) (t : Text) : Decidable (IsBits n t) := inferInstanceAs (Decidable (_ ∧ _))

/-- `AM1` or `AM2` with outputs. -/
def SetsOutputs (t : Text) : Prop := (t.take 3 = ['A', 'M', '1'] ∨ t.take 3 = ['A', 'M', '2']) ∧
    IsBits 16 (t.drop 3)

instance (t : Text) : Decidable (SetsOutputs t) := inferInstanceAs (Decidable (_ ∧ _))

/-- The commands of one text. -/
def plainCommands : List Text :=
  [['F', 'T', '1'], ['F', 'T', '2'], ['F', 'R', '1'], ['F', 'R', '2'], ['F', 'R', 'S'], ['A', 'M', '1'],
    ['A', 'M', '2'],
    ['V', 'S'], ['V', 'F'], ['V', 'R'], ['V'], ['I', '0'], ['I', '1'], ['C'], ['M', 'R', 'S'], ['M', 'A']]

/-- The commands of the processor. -/
inductive McpCommand : Text → Prop
  | plain {t : Text} (h : t ∈ plainCommands) : McpCommand t
  | ears {bits : Text} (h : IsBits 12 bits) : McpCommand (['F', 'R', 'D'] ++ bits)
  | outputs {t : Text} (h : SetsOutputs t) : McpCommand t
  | scenario {c : Char} (h : '0' ≤ c ∧ c ≤ '7') : McpCommand ['S', 'A', c]
  | record {c : Char} (h : '1' ≤ c ∧ c ≤ '9') : McpCommand ['M', 'R', c]
  | play {c : Char} (h : '1' ≤ c ∧ c ≤ '9') : McpCommand ['M', 'P', c]

/-- A line with its end, whether its control command has failed, and the error responses it got. -/
structure McpLine where
  text : Text
  failed : Bool
  told : List Text
deriving DecidableEq

/-- A line gets one error response, with its first characters, if it is no command or fails, and else none. -/
def McpLine.Answered (l : McpLine) : Prop :=
  (¬ McpCommand l.text ∨ l.failed = true → l.told = [errLine (l.text.take MCP_MAX_CMD_SIZE)]) ∧
  (McpCommand l.text → l.failed = false → l.told = [])

/-- The processor and its client: `cur` has come since the last end of a line, `waiting` are the lines, by number, of the
control commands that have not completed, and `stray` the error responses that are no line's. -/
structure McpClient where
  keyer : McpKeyer
  proc : McpProc
  lines : List McpLine
  cur : Text
  waiting : List Nat
  stray : List Text

/-- What the processor is called for. -/
inductive McpCall
  | input (data : List UInt8) | complete (i : Nat) (result : CmdResult) | report (t : KeyerType) (e : McpEvent)
  | keyer (k : McpKeyer)

namespace McpClient

def start (k : McpKeyer) (mcp : Mcp) : McpClient := ⟨k, .create mcp, [], [], [], []⟩

/-- A byte. What its round sends and submits is the line's that it ends. -/
def byte (s : McpClient) (c : Char) : McpClient :=
  let (keyer, proc, out) := s.proc.getByte s.keyer c
  let told := out.filterMap McpOut.error?
  if Mcp.isEol c then
    if s.cur = [] then { s with keyer, proc, stray := s.stray ++ told }
    else { s with
      keyer, proc
      lines := s.lines ++ [⟨s.cur, false, told⟩]
      cur := []
      waiting := s.waiting ++ (out.filterMap McpOut.command?).map fun _ => s.lines.length }
  else { s with keyer, proc, cur := s.cur ++ [c], stray := s.stray ++ told }

/-- The completion of one of the commands. -/
def complete (s : McpClient) (i : Nat) (result : CmdResult) : McpClient :=
  match s.waiting[i]? with
  | none => s
  | some n => { s with
    lines := s.lines.modify n fun l => { l with
      failed := l.failed || result != .ok
      told := l.told ++ (s.proc.completionCb result).filterMap McpOut.error? }
    waiting := s.waiting.eraseIdx i }

def step (s : McpClient) : McpCall → McpClient
  | .input data => (data.map Mcp.ofByte).foldl byte s
  | .complete i result => s.complete i result
  | .report t e => { s with proc.mcp := (s.proc.mcp.step t e).1 }
  | .keyer keyer => { s with keyer }

/-- Every line is answered, and nothing else is. -/
def Answered (s : McpClient) : Prop := s.stray = [] ∧ ∀ l ∈ s.lines, l.Answered

end McpClient

/-- The lines that `t` completes behind `cur`. -/
def linesOf : Text → Text → List Text
  | _, [] => []
  | cur, c :: t =>
    if Mcp.isEol c then (if cur = [] then linesOf [] t else cur :: linesOf [] t) else linesOf (cur ++ [c]) t

/-- A line without a zero in its first characters that doesn't set outputs. -/
def Tellable (line : Text) : Prop := '\x00' ∉ line.take MCP_MAX_CMD_SIZE ∧ ¬ SetsOutputs line

/-- The input has tellable lines, and a command that fails is still the one that `cmd` has. -/
def McpClient.Names (s : McpClient) : McpCall → Prop
  | .input data => ∀ line ∈ linesOf s.cur (data.map Mcp.ofByte), Tellable line
  | .complete i result => result = .ok ∨ ∀ n ∈ s.waiting[i]?, ∀ l ∈ s.lines[n]?, s.proc.text = l.text
  | .report _ _ => True
  | .keyer _ => True

/-! ### Commands -/

section
variable {t : Text}

theorem amBits_isSome (arg : Text) : (amBits arg).isSome = true ↔ ∀ c ∈ arg, c = '0' ∨ c = '1' := by
  have hfold : ∀ (ci : List (Char × Nat)) (acc : Nat), (ci.foldlM (fun acc ci =>
      if ci.1 = '0' then some acc else if ci.1 = '1' then some (acc ||| 1 <<< (15 - ci.2)) else none) acc).isSome = true ↔
      ∀ c ∈ ci.map Prod.fst, c = '0' ∨ c = '1' := by
    intro ci
    induction ci with
    | nil => simp
    | cons c ci ih =>
      intro acc
      rw [List.foldlM_cons, List.map_cons, List.forall_mem_cons]
      by_cases h0 : c.1 = '0'
      · simp [h0, ih]
      · by_cases h1 : c.1 = '1'
        · simp [h1, ih]
        · simp [h0, h1]
  rw [amBits, hfold, List.zipIdx_map_fst]

theorem isBits_iff {n : Nat} {t : Text} :
    IsBits n t ↔ t.length = n ∧ t.all (fun c => c == '0' || c == '1') = true := by
  simp [IsBits, List.all_eq_true]

theorem focusCmd_isSome (hfocus : List UInt8) (t : Text) : (focusCmd hfocus t).isSome = true ↔
    t ∈ [['F', 'T', '1'], ['F', 'T', '2'], ['F', 'R', '1'], ['F', 'R', '2'], ['F', 'R', 'S']] ∨
      t.take 3 = ['F', 'R', 'D'] ∧ IsBits 12 (t.drop 3) := by
  unfold focusCmd
  dsimp only
  split_ifs with h1 h2 h3 h4 h5 h6
  · simp [h1]
  · simp [h2]
  · simp [h3]
  · simp [h4]
  · simp [h5]
  · rw [frdToHfocus, isBits_iff]
    split_ifs with hbits
    · simp [h6, hbits]
    · refine iff_of_false (by simp) ?_
      simp only [List.mem_cons, h1, h2, h3, h4, h5, List.not_mem_nil, or_false, false_or]
      exact fun h => hbits h.2
  · simp [h1, h2, h3, h4, h5, h6]

theorem digitArg_isSome {name : Text} {lo hi : Char} (hname : name.length = 2) :
    (McpProc.digitArg t name lo hi).isSome = true ↔ ∃ c, t = name ++ [c] ∧ lo ≤ c ∧ c ≤ hi := by
  unfold McpProc.digitArg
  split_ifs with h
  · obtain ⟨htake, hlen⟩ := h
    have ht : t = name ++ t.drop 2 := by rw [← htake, List.take_append_drop]
    obtain ⟨c, hc⟩ : ∃ c, t.drop 2 = [c] := List.length_eq_one_iff.1 (by rw [List.length_drop, hlen])
    have hget : t[2]? = some c := by rw [← List.head?_drop, hc]; rfl
    rw [hget, Option.bind_some]
    constructor
    · intro hsome
      split_ifs at hsome with hrange
      · exact ⟨c, by rw [ht, hc], hrange⟩
      · exact absurd hsome (by simp)
    · rintro ⟨d, hd, hrange⟩
      have hcd : [c] = [d] := by rw [← hc, hd, List.drop_left' hname]
      obtain rfl : c = d := by simpa using hcd
      rw [if_pos hrange]
      rfl
  · refine iff_of_false (by simp) ?_
    rintro ⟨c, rfl, -⟩
    exact h ⟨List.take_left' hname, by rw [List.length_append, hname]; rfl⟩

theorem amSets_iff (t : Text) : McpProc.amSets t = true ↔ IsBits 16 (t.drop 3) := by
  rw [McpProc.amSets, Bool.and_eq_true, beq_iff_eq, amBits_isSome, IsBits, List.length_drop]
  exact and_congr_left' (by omega)

/-- A command ends without an error exactly if it is a query. -/
theorem cmdAm_ok (outputs : List UInt8) (t : Text) : (cmdAm outputs t).2.2 = true ↔ t.length = 3 := by
  unfold cmdAm
  dsimp only
  by_cases h3 : t.length = 3
  · rw [if_pos h3]
    exact iff_of_true rfl h3
  · rw [if_neg h3]
    refine iff_of_false ?_ h3
    split
    · cases amBits (t.drop 3) <;> exact Bool.false_ne_true
    · exact Bool.false_ne_true

namespace McpCommand

theorem length_le (h : McpCommand t) : t.length ≤ 19 := by
  cases h with
  | plain h =>
    have hall : ∀ s ∈ plainCommands, s.length ≤ 19 := by decide
    exact hall t h
  | ears h => rw [List.length_append, h.1]; decide
  | outputs h =>
    have := h.2.1
    rw [List.length_drop] at this
    omega
  | scenario | record | play => exact Nat.le_of_ble_eq_true rfl

theorem no_zero (h : McpCommand t) : '\x00' ∉ t := by
  have hbits : ∀ {n : Nat} {s : Text}, IsBits n s → '\x00' ∉ s := fun hs hz => by
    rcases hs.2 _ hz with h | h <;> exact absurd h (by decide)
  have hrange : ∀ {c lo hi : Char}, '\x00' < lo → lo ≤ c ∧ c ≤ hi → '\x00' ≠ c := fun hlo hc heq =>
    absurd (lt_of_lt_of_le hlo hc.1) (by rw [heq]; exact lt_irrefl _)
  cases h with
  | plain h =>
    have hall : ∀ s ∈ plainCommands, '\x00' ∉ s := by decide
    exact hall t h
  | ears h => simpa using hbits h
  | outputs h =>
    rw [← List.take_append_drop 3 t, List.mem_append, not_or]
    exact ⟨by rcases h.1 with h | h <;> rw [h] <;> decide, hbits h.2⟩
  | scenario h => simpa using hrange (by decide) h
  | record h => simpa using hrange (by decide) h
  | play h => simpa using hrange (by decide) h

end McpCommand

/-- What `process_cmd` does with a text. -/
structure McpReturn.Runs (r : McpReturn) (m : McpProc) : Prop where
  cmd : r.proc.cmd = m.cmd
  quiet : r.out.filterMap McpOut.error? = []
  one : (r.out.filterMap McpOut.command?).length ≤ 1
  ok : r.ok = true ↔ McpCommand m.text ∧ ¬ SetsOutputs m.text
  submits : r.out.filterMap McpOut.command? ≠ [] → McpCommand m.text

theorem McpReturn.Runs.of_command {r : McpReturn} {m : McpProc} (h : McpCommand m.text)
    (hset : ¬ (m.text.take 3 = ['A', 'M', '1'] ∨ m.text.take 3 = ['A', 'M', '2'])) (hcmd : r.proc.cmd = m.cmd)
    (hquiet : r.out.filterMap McpOut.error? = []) (hone : (r.out.filterMap McpOut.command?).length ≤ 1)
    (hok : r.ok = true) : r.Runs m :=
  ⟨hcmd, hquiet, hone, iff_of_true hok ⟨h, fun hs => hset hs.1⟩, fun _ => h⟩

theorem filterMap_response (sent : List Text) {β : Type} (f : McpOut → Option β)
    (hf : ∀ t, f (.response t) = none) :
    (sent.map McpOut.response).filterMap f = [] := by
  rw [List.filterMap_map]
  exact List.filterMap_eq_nil_iff.2 fun t _ => hf t

theorem amReturn_out (m : McpProc) (k : McpKeyer) (t : Text) : (m.amReturn k t).out =
    (cmdAm k.accOutputs t).2.1.map .response ++
      if McpProc.amSets t then [.submit (hostAccOutputsControl (cmdAm k.accOutputs t).1)] else [] := rfl

theorem amReturn_runs (m : McpProc) (k : McpKeyer)
    (h : m.text.take 3 = ['A', 'M', '1'] ∨ m.text.take 3 = ['A', 'M', '2']) : (m.amReturn k m.text).Runs m where
  cmd := rfl
  quiet := by
    rw [amReturn_out, List.filterMap_append, filterMap_response _ _ fun _ => rfl]
    split <;> rfl
  one := by
    rw [amReturn_out, List.filterMap_append, filterMap_response _ _ fun _ => rfl]
    split <;> exact Nat.le_of_ble_eq_true rfl
  ok := by
    refine (cmdAm_ok k.accOutputs m.text).trans ?_
    constructor
    · intro h3
      have htake : m.text.take 3 = m.text := List.take_of_length_le h3.le
      rw [htake] at h
      refine ⟨.plain ?_, fun hset => ?_⟩
      · rcases h with h | h <;> rw [h] <;> decide
      · have := hset.2.1
        rw [List.length_drop, h3] at this
        exact absurd this (by decide)
    · rintro ⟨hcmd, hset⟩
      generalize m.text = t at h hcmd hset
      rcases hcmd with hplain | hbits | hout | - | - | -
      · have hall : ∀ s ∈ plainCommands, s.take 3 = ['A', 'M', '1'] ∨ s.take 3 = ['A', 'M', '2'] →
          s.length = 3 := by decide
        exact hall _ hplain h
      · exact absurd h (by simp)
      · exact absurd hout hset
      · exact absurd h (by simp)
      · exact absurd h (by simp)
      · exact absurd h (by simp)
  submits := by
    intro hne
    refine .outputs ⟨h, (amSets_iff _).1 ?_⟩
    by_contra hno
    refine hne ?_
    rw [amReturn_out, if_neg hno, List.append_nil]
    exact filterMap_response _ _ fun _ => rfl

theorem focusCmd_command {hfocus hf : List UInt8} (h : focusCmd hfocus t = some hf) :
    McpCommand t ∧ ¬ (t.take 3 = ['A', 'M', '1'] ∨ t.take 3 = ['A', 'M', '2']) := by
  have hsome := (focusCmd_isSome hfocus t).1 (by rw [h]; rfl)
  rcases hsome with hmem | ⟨htake, hbits⟩
  · have hall : ∀ s ∈ [['F', 'T', '1'], ['F', 'T', '2'], ['F', 'R', '1'], ['F', 'R', '2'], ['F', 'R', 'S']],
        s ∈ plainCommands ∧ ¬ (s.take 3 = ['A', 'M', '1'] ∨ s.take 3 = ['A', 'M', '2']) := by decide
    exact ⟨.plain (hall t hmem).1, (hall t hmem).2⟩
  · have hcmd := McpCommand.ears hbits
    rw [← htake, List.take_append_drop] at hcmd
    exact ⟨hcmd, by rw [htake]; decide⟩

theorem digitArg_command {name : Text} {lo hi : Char} {idx : UInt8} (hname : name.length = 2)
    (h : McpProc.digitArg t name lo hi = some idx) : ∃ c, t = name ++ [c] ∧ lo ≤ c ∧ c ≤ hi :=
  (digitArg_isSome hname).1 (by rw [h]; rfl)

theorem digitArg_none {name : Text} {lo hi : Char} {c : Char} (hname : name.length = 2)
    (h : ∀ idx, McpProc.digitArg t name lo hi = some idx → False) (hc : lo ≤ c ∧ c ≤ hi) : t ≠ name ++ [c] :=
    fun ht => by
  obtain ⟨idx, hidx⟩ := Option.isSome_iff_exists.1 ((digitArg_isSome hname).2 ⟨c, ht, hc⟩)
  exact h idx hidx

/-- The branches of `process_cmd` for the commands of one text. -/
theorem plainCommands_cases (h : t ∈ plainCommands) :
    t ∈ [['F', 'T', '1'], ['F', 'T', '2'], ['F', 'R', '1'], ['F', 'R', '2'], ['F', 'R', 'S']] ∨
    (t.take 3 = ['A', 'M', '1'] ∨ t.take 3 = ['A', 'M', '2']) ∨
    (t = ['V', 'S'] ∨ t = ['V', 'F'] ∨ t = ['V', 'R'] ∨ t = ['V']) ∨ t = ['I', '0'] ∨ t = ['I', '1'] ∨ t = ['C'] ∨
    t = ['M', 'R', 'S'] ∨ t = ['M', 'A'] := by
  have hall : ∀ s ∈ plainCommands,
      s ∈ [['F', 'T', '1'], ['F', 'T', '2'], ['F', 'R', '1'], ['F', 'R', '2'], ['F', 'R', 'S']] ∨
      (s.take 3 = ['A', 'M', '1'] ∨ s.take 3 = ['A', 'M', '2']) ∨
      (s = ['V', 'S'] ∨ s = ['V', 'F'] ∨ s = ['V', 'R'] ∨ s = ['V']) ∨ s = ['I', '0'] ∨ s = ['I', '1'] ∨
      s = ['C'] ∨
      s = ['M', 'R', 'S'] ∨ s = ['M', 'A'] := by decide
  exact hall t h

theorem cmdVer_responses (k : McpKeyer) (cmd : Text) {β : Type} (f : McpOut → Option β)
    (hf : ∀ t, f (.response t) = none) :
    (McpProc.cmdVer k cmd).filterMap f = [] := by
  rw [List.filterMap_eq_nil_iff]
  intro o ho
  obtain ⟨s, rfl⟩ : ∃ s, o = .response s := by
    unfold McpProc.cmdVer McpProc.onlineResponse at ho
    simp only [List.mem_append] at ho
    rcases ho with ((ho | ho) | ho) | ho <;> split at ho <;>
      first | exact ⟨_, List.mem_singleton.1 ho⟩ | exact absurd ho List.not_mem_nil
  exact hf s

theorem processCmd_runs {m : McpProc} (hlen : 0 < m.cmdLen) (k : McpKeyer) : (m.processCmd k).Runs m := by
  unfold McpProc.processCmd
  dsimp only
  rw [if_neg (Nat.not_lt.2 hlen)]
  split
  · rename_i hfocus
    exact .of_command (focusCmd_command hfocus).1 (focusCmd_command hfocus).2 rfl rfl le_rfl rfl
  rename_i hfocus
  split
  · rename_i ham
    exact amReturn_runs m k ham
  rename_i ham
  split
  · rename_i hver
    refine .of_command (.plain ?_) ham rfl (cmdVer_responses _ _ _ fun _ => rfl) ?_ rfl
    · rcases hver with h | h | h | h <;> rw [h] <;> decide
    · rw [cmdVer_responses _ _ _ fun _ => rfl]
      exact Nat.zero_le _
  rename_i hver
  split
  · rename_i hoff
    exact .of_command (.plain (by rw [hoff]; decide)) ham rfl rfl (Nat.zero_le _) rfl
  rename_i hoff
  split
  · rename_i hon
    exact .of_command (.plain (by rw [hon]; decide)) ham rfl rfl (Nat.zero_le _) rfl
  rename_i hon
  split
  · rename_i honline
    exact .of_command (.plain (by rw [honline]; decide)) ham rfl rfl (Nat.zero_le _) rfl
  rename_i honline
  split
  · rename_i hsa
    obtain ⟨c, hc, hrange⟩ := digitArg_command rfl hsa
    exact .of_command (by rw [hc]; exact .scenario hrange) ham rfl rfl le_rfl rfl
  rename_i hsa
  split
  · rename_i hmr
    obtain ⟨c, hc, hrange⟩ := digitArg_command rfl hmr
    exact .of_command (by rw [hc]; exact .record hrange) ham rfl rfl le_rfl rfl
  rename_i hmr
  split
  · rename_i hmp
    obtain ⟨c, hc, hrange⟩ := digitArg_command rfl hmp
    exact .of_command (by rw [hc]; exact .play hrange) ham rfl rfl le_rfl rfl
  rename_i hmp
  split
  · rename_i hstop
    exact .of_command (.plain (by rw [hstop]; decide)) ham rfl rfl le_rfl rfl
  rename_i hstop
  split
  · rename_i habort
    exact .of_command (.plain (by rw [habort]; decide)) ham rfl rfl le_rfl rfl
  rename_i habort
  refine ⟨rfl, rfl, Nat.zero_le _, iff_of_false Bool.false_ne_true ?_, fun hne => absurd rfl hne⟩
  -- what is none of the texts above is no command
  rintro ⟨hcmd, hset⟩
  have hnone : focusCmd k.hfocus m.text = none := Option.eq_none_iff_forall_not_mem.2 fun hf h => hfocus hf h
  have hno := mt (focusCmd_isSome k.hfocus m.text).2 (by rw [hnone]; decide)
  generalize ht : m.text = t at *
  rcases hcmd with hplain | hbits | hout | hrange | hrange | hrange
  · rcases plainCommands_cases hplain with h | h | h | h | h | h | h | h
    exacts [hno (.inl h), ham h, hver h, hoff h, hon h, honline h, hstop h, habort h]
  · exact hno (.inr ⟨rfl, hbits⟩)
  · exact hset hout
  · exact digitArg_none rfl hsa hrange rfl
  · exact digitArg_none rfl hmr hrange rfl
  · exact digitArg_none rfl hmp hrange rfl

end

/-! ### The line in `cmd` -/

theorem cText_append_zero (s rest : Text) : Mcp.cText (s ++ '\x00' :: rest) = Mcp.cText s := by
  induction s with
  | nil => rfl
  | cons c s ih =>
    unfold Mcp.cText at ih ⊢
    rw [List.cons_append, List.takeWhile_cons, List.takeWhile_cons, ih]

theorem cText_eq_self_iff (s : Text) : Mcp.cText s = s ↔ '\x00' ∉ s := by
  rw [Mcp.cText, List.takeWhile_eq_self_iff]
  constructor
  · intro h hz
    simpa using h _ hz
  · intro h c hc
    rw [decide_eq_true_eq]
    rintro rfl
    exact h hc

theorem text_of_take {m : McpProc} {n : Nat} (hn : m.cmd[n]? = some '\x00') :
    m.text = Mcp.cText (m.cmd.take n) := by
  obtain ⟨hlt, hget⟩ := List.getElem?_eq_some_iff.1 hn
  have hsplit : m.cmd = m.cmd.take n ++ '\x00' :: m.cmd.drop (n + 1) := by
    rw [← hget, ← List.drop_eq_getElem_cons hlt, List.take_append_drop]
  unfold McpProc.text
  rw [hsplit, cText_append_zero, List.take_left' (List.length_take_of_le hlt.le)]

/-- The processor has what has come since the last end of a line, as far as there is room. -/
structure McpProc.Collects (m : McpProc) (cur : Text) : Prop where
  taken : m.cmd.take m.cmdLen = cur.take MCP_MAX_CMD_SIZE
  len : m.cmdLen = min cur.length MCP_MAX_CMD_SIZE
  overflow : m.cmdOverflow = true ↔ MCP_MAX_CMD_SIZE < cur.length

namespace McpProc.Collects

variable {m : McpProc} {k : McpKeyer} {cur : Text} {c : Char}

theorem create (mcp : Mcp) : (McpProc.create mcp).Collects [] :=
  ⟨rfl, rfl, iff_of_false Bool.false_ne_true (by decide)⟩

theorem restart (m : McpProc) : m.restart.Collects [] := ⟨rfl, rfl, by simp [McpProc.restart]⟩

/-- A byte of a line. -/
theorem getByte (h : m.Collects cur) (hc : Mcp.isEol c = false) :
    ∃ m' : McpProc, m.getByte k c = (k, m', []) ∧ m'.Collects (cur ++ [c]) := by
  have hlen := h.len
  have heol : ¬ Mcp.isEol c = true := by rw [hc]; decide
  unfold McpProc.getByte
  simp only [if_neg heol]
  split
  · rename_i hover
    have hlong := h.overflow.1 hover
    refine ⟨m, rfl, ⟨?_, ?_, ?_⟩⟩
    · rw [List.take_append_of_le_length hlong.le]
      exact h.taken
    · rw [List.length_append]
      omega
    · rw [List.length_append]
      exact iff_of_true hover (by omega)
  rename_i hover
  have hshort : cur.length ≤ MCP_MAX_CMD_SIZE := Nat.not_lt.1 (mt h.overflow.2 hover)
  split
  · rename_i hroom
    refine ⟨_, rfl, ⟨?_, ?_, ?_⟩⟩
    · show (m.cmd.set m.cmdLen c).take (m.cmdLen + 1) = _
      rw [List.take_add_one, List.take_set_of_le le_rfl, h.taken,
        List.getElem?_set_self (by rw [m.size]; omega), List.take_of_length_le hshort,
        List.take_of_length_le (by rw [List.length_append, List.length_singleton]; omega)]
      rfl
    · show m.cmdLen + 1 = _
      rw [List.length_append, List.length_singleton]
      omega
    · refine iff_of_false hover ?_
      rw [List.length_append, List.length_singleton]
      omega
  · rename_i hfull
    refine ⟨_, rfl, ⟨?_, ?_, ?_⟩⟩
    · rw [List.take_append_of_le_length (by omega)]
      exact h.taken
    · show m.cmdLen = _
      rw [List.length_append]
      omega
    · refine iff_of_true rfl ?_
      rw [List.length_append, List.length_singleton]
      omega

theorem getByte_eol_nil (h : m.Collects []) (hc : Mcp.isEol c = true) : m.getByte k c = (k, m, []) := by
  have hover : ¬ m.cmdOverflow = true := mt h.overflow.1 (by decide)
  have hlen : m.cmdLen = 0 := h.len
  unfold McpProc.getByte
  rw [if_neg hover, if_pos hc, if_pos hlen]

/-- The end of a line: the command in it was too long. -/
theorem getByte_eol_long (h : m.Collects cur) (hc : Mcp.isEol c = true) (hlong : MCP_MAX_CMD_SIZE < cur.length) :
    m.getByte k c = (k, m.restart, [sendErrResponse (Mcp.cText (cur.take MCP_MAX_CMD_SIZE))]) := by
  have hlen : m.cmdLen = MCP_MAX_CMD_SIZE := by
    have := h.len
    omega
  have htext : m.text = Mcp.cText (cur.take MCP_MAX_CMD_SIZE) := by
    rw [text_of_take m.last, ← h.taken, hlen]
  unfold McpProc.getByte
  rw [if_pos (h.overflow.2 hlong), if_pos hc, htext]

/-- The end of a line: its command is run. -/
theorem getByte_eol (h : m.Collects cur) (hc : Mcp.isEol c = true) (hcur : cur ≠ [])
    (hshort : cur.length ≤ MCP_MAX_CMD_SIZE) :
    ∃ r : McpReturn, r.Runs m.terminate ∧ m.terminate.text = Mcp.cText cur ∧
      m.getByte k c = (r.keyer, r.proc.restart, r.out ++ if r.ok then [] else [sendErrResponse (Mcp.cText cur)]) := by
  have hlen : m.cmdLen = cur.length := by
    have := h.len
    omega
  have hpos : 0 < m.cmdLen := by
    rw [hlen]
    exact List.length_pos_iff.2 hcur
  have hzero : m.terminate.cmd[m.cmdLen]? = some '\x00' := by
    have hle := m.le
    exact List.getElem?_set_self (by rw [m.size]; omega)
  have htext : m.terminate.text = Mcp.cText cur := by
    rw [text_of_take hzero]
    show Mcp.cText ((m.cmd.set m.cmdLen '\x00').take m.cmdLen) = _
    rw [List.take_set_of_le le_rfl, h.taken, List.take_of_length_le hshort]
  have hruns := processCmd_runs (m := m.terminate) hpos k
  have hsame : (m.terminate.processCmd k).proc.text = Mcp.cText cur := by
    rw [← htext, McpProc.text, hruns.cmd]
    rfl
  refine ⟨_, hruns, htext, ?_⟩
  have hover : ¬ m.cmdOverflow = true := mt h.overflow.1 (Nat.not_lt.2 hshort)
  unfold McpProc.getByte
  rw [if_neg hover, if_pos hc, if_neg hpos.ne']
  dsimp only
  rw [hsame]

end McpProc.Collects

/-! ### What a line has been told -/

theorem errLine_inj {s t : Text} : errLine s = errLine t ↔ s = t := by
  simp [errLine]

namespace McpLine

variable {l : McpLine} {line : Text} {failed : Bool} {told : List Text}

theorem answered_command (h : McpCommand line) : (⟨line, false, told⟩ : McpLine).Answered ↔ told = [] :=
  ⟨fun ha => ha.2 h rfl, fun ht => ⟨fun hno => by simp [h] at hno, fun _ _ => ht⟩⟩

theorem answered_error (h : ¬ McpCommand line ∨ failed = true) :
    (⟨line, failed, told⟩ : McpLine).Answered ↔ told = [errLine (line.take MCP_MAX_CMD_SIZE)] :=
  ⟨fun ha => ha.1 h, fun ht => ⟨fun _ => ht, fun hcmd hok => by
    rcases h with hno | hfail
    · exact absurd hcmd hno
    · exact absurd hok (by simpa using hfail)⟩⟩

theorem not_command_of_long (h : MCP_MAX_CMD_SIZE < line.length) : ¬ McpCommand line := fun hcmd => by
  have hle := hcmd.length_le
  have hmax : MCP_MAX_CMD_SIZE = 32 := rfl
  omega

/-- A line that is too long. -/
theorem answered_long (h : MCP_MAX_CMD_SIZE < line.length) :
    (⟨line, false, [errLine (Mcp.cText (line.take MCP_MAX_CMD_SIZE))]⟩ : McpLine).Answered ↔ Tellable line := by
  have hno := not_command_of_long h
  rw [answered_error (.inl hno), List.singleton_inj, errLine_inj, cText_eq_self_iff]
  exact ⟨fun hz => ⟨hz, fun hset => hno (.outputs hset)⟩, fun ht => ht.1⟩

/-- A line whose command was run. -/
theorem answered_run {r : McpReturn} {m : McpProc} (h : r.Runs m) (htext : m.text = Mcp.cText line)
    (hshort : line.length ≤ MCP_MAX_CMD_SIZE) :
    (⟨line, false, if r.ok then [] else [errLine (Mcp.cText line)]⟩ : McpLine).Answered ↔ Tellable line := by
  have hok := h.ok
  rw [htext] at hok
  rw [Tellable, List.take_of_length_le hshort, ← cText_eq_self_iff]
  by_cases hzero : Mcp.cText line = line
  · rw [hzero] at hok ⊢
    by_cases hcmd : McpCommand line
    · rw [answered_command hcmd]
      by_cases hset : SetsOutputs line
      · rw [if_neg fun ht => (hok.1 ht).2 hset]
        exact iff_of_false (by simp) fun ht => ht.2 hset
      · rw [if_pos (hok.2 ⟨hcmd, hset⟩)]
        exact iff_of_true rfl ⟨rfl, hset⟩
    · rw [answered_error (.inl hcmd), if_neg fun ht => hcmd (hok.1 ht).1, List.take_of_length_le hshort]
      exact iff_of_true rfl ⟨rfl, fun hset => hcmd (.outputs hset)⟩
  · have hno : ¬ McpCommand line := fun hcmd => hzero ((cText_eq_self_iff line).2 hcmd.no_zero)
    rw [answered_error (.inl hno), List.take_of_length_le hshort]
    refine iff_of_false (fun htold => ?_) fun ht => hzero ht.1
    split at htold
    · exact absurd htold (by simp)
    · rw [List.singleton_inj, errLine_inj] at htold
      exact hzero htold

end McpLine

/-! ### Runs -/

theorem McpReturn.Runs.errors {r : McpReturn} {m : McpProc} (h : r.Runs m) (t : Text) :
    (r.out ++ if r.ok then [] else [sendErrResponse t]).filterMap McpOut.error? =
    if r.ok then [] else [errLine t] := by
  rw [List.filterMap_append, h.quiet, List.nil_append]
  split <;> rfl

theorem McpReturn.Runs.commands {r : McpReturn} {m : McpProc} (_ : r.Runs m) (t : Text) :
    (r.out ++ if r.ok then [] else [sendErrResponse t]).filterMap McpOut.command? =
    r.out.filterMap McpOut.command? := by
  rw [List.filterMap_append]
  split <;> exact List.append_nil _

namespace McpClient

variable {s : McpClient} {c : Char}

/-- The processor collects the line, and every command that waits is another line's, which has not failed. -/
structure Sound (s : McpClient) : Prop where
  collects : s.proc.Collects s.cur
  waits : ∀ n ∈ s.waiting, ∃ l, s.lines[n]? = some l ∧ l.failed = false ∧ (McpCommand l.text ∨ ¬ l.Answered)
  nodup : s.waiting.Nodup

theorem Sound.lt_length (h : s.Sound) {n : Nat} (hn : n ∈ s.waiting) : n < s.lines.length := by
  obtain ⟨l, hl, -⟩ := h.waits n hn
  exact (List.getElem?_eq_some_iff.1 hl).1

theorem linesOf_cons (cur t : Text) (c : Char) : linesOf cur (c :: t) =
    linesOf cur [c] ++ linesOf (if Mcp.isEol c then [] else cur ++ [c]) t := by
  simp only [linesOf]
  split
  · split
    · rfl
    · rfl
  · rfl

theorem answered_append {l : McpLine} {s' : McpClient} (hstray : s'.stray = s.stray)
    (hlines : s'.lines = s.lines ++ [l]) :
    s'.Answered ↔ s.Answered ∧ l.Answered := by
  rw [Answered, Answered, hstray, hlines, List.forall_mem_append, List.forall_mem_singleton, and_assoc]

/-- A line that ends is one more, and its command waits if it has one. -/
theorem Sound.ended (h : s.Sound) {k : McpKeyer} {m : McpProc} (hm : m.Collects [])
    {told : List Text} {cmds : List Command}
    (hone : cmds.length ≤ 1) (hcmd : cmds ≠ [] → McpCommand s.cur ∨ ¬ (⟨s.cur, false, told⟩ : McpLine).Answered) :
    Sound { s with
      keyer := k
      proc := m
      lines := s.lines ++ [⟨s.cur, false, told⟩]
      cur := []
      waiting := s.waiting ++ cmds.map fun _ => s.lines.length } where
  collects := hm
  waits n hn := by
    rcases List.mem_append.1 hn with hn | hn
    · obtain ⟨l, hl, hrest⟩ := h.waits n hn
      exact ⟨l, by rw [List.getElem?_append_left (h.lt_length hn), hl], hrest⟩
    · obtain ⟨cmd, hmem, rfl⟩ := List.mem_map.1 hn
      exact ⟨_, List.getElem?_concat_length, rfl, hcmd (List.ne_nil_of_mem hmem)⟩
  nodup := by
    rw [List.nodup_append]
    refine ⟨h.nodup, ?_, ?_⟩
    · rcases cmds with - | ⟨cmd, - | ⟨cmd', cmds⟩⟩
      · exact List.nodup_nil
      · exact List.nodup_singleton _
      · rw [List.length_cons, List.length_cons] at hone
        omega
    · rintro n hn n' hn' rfl
      obtain ⟨-, -, rfl⟩ := List.mem_map.1 hn'
      exact absurd (h.lt_length hn) (lt_irrefl _)

section
variable {k : McpKeyer} {m : McpProc} {out : List McpOut}

theorem byte_eol (heq : s.proc.getByte s.keyer c = (k, m, out)) (hc : Mcp.isEol c = true) (hcur : s.cur ≠ []) :
    s.byte c = { s with
      keyer := k
      proc := m
      lines := s.lines ++ [⟨s.cur, false, out.filterMap McpOut.error?⟩]
      cur := []
      waiting := s.waiting ++ (out.filterMap McpOut.command?).map fun _ => s.lines.length } := by
  unfold byte
  rw [heq]
  dsimp only
  rw [if_pos hc, if_neg hcur]

theorem byte_eol_nil (heq : s.proc.getByte s.keyer c = (k, m, [])) (hc : Mcp.isEol c = true) (hcur : s.cur = []) :
    s.byte c = { s with keyer := k, proc := m } := by
  unfold byte
  rw [heq]
  dsimp only
  rw [if_pos hc, if_pos hcur, List.filterMap_nil, List.append_nil]

theorem byte_char (heq : s.proc.getByte s.keyer c = (k, m, [])) (hc : ¬ Mcp.isEol c = true) :
    s.byte c = { s with keyer := k, proc := m, cur := s.cur ++ [c] } := by
  unfold byte
  rw [heq]
  dsimp only
  rw [if_neg hc, List.filterMap_nil, List.append_nil]

end

theorem byte_sound (h : s.Sound) (c : Char) : (s.byte c).Sound ∧
    ((s.byte c).Answered ↔ s.Answered ∧ ∀ line ∈ linesOf s.cur [c], Tellable line) ∧
    (s.byte c).cur = if Mcp.isEol c then [] else s.cur ++ [c] := by
  by_cases hc : Mcp.isEol c = true
  · by_cases hcur : s.cur = []
    · have hcol := h.collects
      rw [hcur] at hcol
      have hlines : linesOf s.cur [c] = [] := by simp [linesOf, hc, hcur]
      rw [byte_eol_nil (hcol.getByte_eol_nil hc) hc hcur, hlines, if_pos hc]
      exact ⟨⟨h.collects, h.waits, h.nodup⟩, by simp [Answered], hcur⟩
    · have hlines : linesOf s.cur [c] = [s.cur] := by simp [linesOf, hc, hcur]
      rw [hlines, List.forall_mem_singleton]
      by_cases hlong : MCP_MAX_CMD_SIZE < s.cur.length
      · have hans := McpLine.answered_long hlong
        rw [byte_eol (h.collects.getByte_eol_long hc hlong) hc hcur, if_pos hc]
        refine ⟨h.ended (.restart _) (Nat.zero_le _) fun hne => absurd rfl hne, ?_, rfl⟩
        rw [← hans]
        exact answered_append rfl rfl
      · have hshort := Nat.not_lt.1 hlong
        obtain ⟨r, hruns, htext, heq⟩ := h.collects.getByte_eol (k := s.keyer) hc hcur hshort
        have hans := McpLine.answered_run hruns htext hshort
        rw [byte_eol heq hc hcur, if_pos hc, hruns.errors, hruns.commands]
        refine ⟨h.ended (.restart _) hruns.one fun hne => ?_, ?_, rfl⟩
        · by_cases htell : Tellable s.cur
          · have hzero : Mcp.cText s.cur = s.cur :=
              (cText_eq_self_iff _).2 (by rw [← List.take_of_length_le hshort]; exact htell.1)
            have hcmd := hruns.submits hne
            rw [htext, hzero] at hcmd
            exact .inl hcmd
          · exact .inr (mt hans.1 htell)
        · rw [← hans]
          exact answered_append rfl rfl
  · have heol : Mcp.isEol c = false := Bool.eq_false_iff.2 hc
    obtain ⟨m, heq, hcol⟩ := h.collects.getByte (k := s.keyer) heol
    have hlines : linesOf s.cur [c] = [] := by simp [linesOf, hc]
    rw [byte_char heq hc, hlines, if_neg hc]
    exact ⟨⟨hcol, h.waits, h.nodup⟩, by simp [Answered], rfl⟩

theorem input_sound (h : s.Sound) (t : Text) : (t.foldl byte s).Sound ∧
    ((t.foldl byte s).Answered ↔ s.Answered ∧ ∀ line ∈ linesOf s.cur t, Tellable line) := by
  induction t generalizing s with
  | nil => exact ⟨h, by simp [linesOf]⟩
  | cons c t ih =>
    obtain ⟨hsound, hbyte, hcur⟩ := byte_sound h c
    obtain ⟨hrest, hans⟩ := ih hsound
    rw [List.foldl_cons]
    refine ⟨hrest, ?_⟩
    rw [hans, hbyte, hcur, linesOf_cons s.cur t c, List.forall_mem_append, and_assoc]

/-- Nothing that a round sends or submits is lost. -/
theorem byte_out (h : s.Sound) {k : McpKeyer} {m : McpProc} {out : List McpOut}
    (heq : s.proc.getByte s.keyer c = (k, m, out)) : (s.byte c).keyer = k ∧ (s.byte c).proc = m ∧
    (s.byte c).lines.flatMap McpLine.told = s.lines.flatMap McpLine.told ++ out.filterMap McpOut.error? ∧
    (s.byte c).waiting.length = s.waiting.length + (out.filterMap McpOut.command?).length := by
  by_cases hc : Mcp.isEol c = true
  · by_cases hcur : s.cur = []
    · have hcol := h.collects
      rw [hcur] at hcol
      obtain ⟨rfl, rfl, rfl⟩ : s.keyer = k ∧ s.proc = m ∧ [] = out := by
        simpa using (hcol.getByte_eol_nil hc).symm.trans heq
      rw [byte_eol_nil heq hc hcur]
      exact ⟨rfl, rfl, (List.append_nil _).symm, rfl⟩
    · rw [byte_eol heq hc hcur]
      refine ⟨rfl, rfl, ?_, ?_⟩
      · simp
      · simp
  · obtain ⟨m', heq', -⟩ := h.collects.getByte (k := s.keyer) (Bool.eq_false_iff.2 hc)
    obtain ⟨rfl, rfl, rfl⟩ : s.keyer = k ∧ m' = m ∧ [] = out := by simpa using heq'.symm.trans heq
    rw [byte_char heq hc]
    exact ⟨rfl, rfl, (List.append_nil _).symm, rfl⟩

/-- `mcp_cb`, with what it sends and submits. -/
theorem step_input (h : s.Sound) (data : List UInt8) :
    let (k, m, out) := s.proc.mcpCb s.keyer data
    (s.step (.input data)).keyer = k ∧ (s.step (.input data)).proc = m ∧
      (s.step (.input data)).lines.flatMap McpLine.told =
        s.lines.flatMap McpLine.told ++ out.filterMap McpOut.error? ∧
      (s.step (.input data)).waiting.length = s.waiting.length + (out.filterMap McpOut.command?).length := by
  induction data generalizing s with
  | nil => exact ⟨rfl, rfl, (List.append_nil _).symm, rfl⟩
  | cons c data ih =>
    obtain ⟨hk, hm, htold, hwait⟩ := byte_out h (c := Mcp.ofByte c) rfl
    have hrest := ih (byte_sound h (Mcp.ofByte c)).1
    rw [hk, hm] at hrest
    obtain ⟨hk', hm', htold', hwait'⟩ := hrest
    refine ⟨hk', hm', ?_, ?_⟩
    · rw [List.filterMap_append, ← List.append_assoc, ← htold]
      exact htold'
    · rw [List.filterMap_append, List.length_append, ← Nat.add_assoc, ← hwait]
      exact hwait'

theorem ne_of_mem_eraseIdx {l : List Nat} (h : l.Nodup) {i n n' : Nat} (hn : l[i]? = some n)
    (hn' : n' ∈ l.eraseIdx i) :
    n' ≠ n := by
  rintro rfl
  obtain ⟨j, hj, hget⟩ := List.mem_eraseIdx_iff_getElem?.1 hn'
  have hlt : j < l.length := (List.getElem?_eq_some_iff.1 hget).1
  exact hj ((List.getElem?_inj hlt h).1 (hget.trans hn.symm))

/-- With the other lines answered, it is up to the one that changes. -/
theorem answered_modify {n : Nat} {l : McpLine} (ha : s.Answered) (hl : s.lines[n]? = some l)
    (f : McpLine → McpLine)
    (waiting : List Nat) : Answered { s with lines := s.lines.modify n f, waiting } ↔ (f l).Answered := by
  rw [Answered, and_iff_right ha.1]
  dsimp only
  have hget : (s.lines.modify n f)[n]? = some (f l) := by rw [List.getElem?_modify_eq, hl]; rfl
  constructor
  · exact fun h => h _ (List.mem_of_getElem? hget)
  · intro hf l' hl'
    obtain ⟨j, hj⟩ := List.getElem?_of_mem hl'
    by_cases heq : n = j
    · rw [← heq, hget] at hj
      rwa [← Option.some.inj hj]
    · rw [List.getElem?_modify_ne f _ heq] at hj
      exact ha.2 _ (List.mem_of_getElem? hj)

/-- A command completes. -/
theorem complete_sound (h : s.Sound) (ha : s.Answered) (i : Nat) (result : CmdResult) :
    (s.complete i result).Sound ∧
    ((s.complete i result).Answered ↔ result = .ok ∨ ∀ n ∈ s.waiting[i]?, ∀ l ∈ s.lines[n]?,
      s.proc.text = l.text) := by
  unfold complete
  split
  · rename_i hnone
    exact ⟨h, iff_of_true ha (.inr fun n hn => absurd hn (by rw [hnone]; exact Option.not_mem_none n))⟩
  · rename_i n hn
    have hmem := List.mem_of_getElem? hn
    obtain ⟨⟨line, failed, told⟩, hl, rfl, hcmd⟩ := h.waits n hmem
    have hline := ha.2 _ (List.mem_of_getElem? hl)
    have hcommand : McpCommand line := hcmd.resolve_right (not_not_intro hline)
    obtain rfl : told = [] := (McpLine.answered_command hcommand).1 hline
    refine ⟨⟨h.collects, fun n' hn' => ?_, h.nodup.eraseIdx i⟩, ?_⟩
    · rw [List.getElem?_modify_ne _ _ (ne_of_mem_eraseIdx h.nodup hn hn').symm]
      exact h.waits n' (List.mem_of_mem_eraseIdx hn')
    · refine (answered_modify ha hl _ _).trans ?_
      by_cases hok : result = .ok
      · subst hok
        exact iff_of_true hline (.inl rfl)
      · have hfail : (result != .ok) = true := bne_iff_ne.2 hok
        have hle : line.take MCP_MAX_CMD_SIZE = line := by
          refine List.take_of_length_le (Nat.le_of_not_lt fun hlong => ?_)
          exact McpLine.not_command_of_long hlong hcommand
        have htold : ([] : List Text) ++ (s.proc.completionCb result).filterMap McpOut.error? =
          [errLine s.proc.text] := by
          rw [McpProc.completionCb, if_pos hok]
          rfl
        dsimp only
        rw [htold, hfail, Bool.or_true, McpLine.answered_error (.inr rfl), hle, List.singleton_inj, errLine_inj,
          or_iff_right hok]
        constructor
        · rintro heq n' hn' l' hl'
          obtain rfl : n = n' := Option.some.inj (hn.symm.trans hn')
          rw [hl] at hl'
          rw [heq, ← Option.some.inj hl']
        · exact fun hall => hall n hn _ hl

theorem step_sound (h : s.Sound) (ha : s.Answered) (e : McpCall) :
    (s.step e).Sound ∧ ((s.step e).Answered ↔ s.Names e) := by
  cases e with
  | input data =>
    obtain ⟨hsound, hans⟩ := input_sound h (data.map Mcp.ofByte)
    exact ⟨hsound, hans.trans (and_iff_right ha)⟩
  | complete i result => exact complete_sound h ha i result
  | report t e => exact ⟨⟨⟨h.collects.taken, h.collects.len, h.collects.overflow⟩, h.waits, h.nodup⟩,
      iff_of_true ha trivial⟩
  | keyer k => exact ⟨⟨h.collects, h.waits, h.nodup⟩, iff_of_true ha trivial⟩

end McpClient

/-- In every state of a run the lines are answered as they should be exactly if the input has tellable lines and the
commands that fail are still in `cmd`. -/
theorem mcp_errors_iff (k : McpKeyer) (mcp : Mcp) (calls : List McpCall) :
    (∀ before, before <+: calls → (Run.run McpClient.step (.start k mcp) before).Answered) ↔
      Run.StepsOk McpClient.step McpClient.Names (.start k mcp) calls := by
  have hsound : (McpClient.start k mcp).Sound :=
    ⟨.create mcp, fun _ hn => absurd hn List.not_mem_nil, List.nodup_nil⟩
  have hans : (McpClient.start k mcp).Answered := ⟨rfl, fun _ hl => absurd hl List.not_mem_nil⟩
  exact Run.forall_prefix_iff (I := McpClient.Sound) (P := McpClient.Answered)
    (fun _ e hs ha => McpClient.step_sound hs ha e) hsound hans calls

/-- `MA` fails after `C` was answered: the error response has `C`. -/
theorem mcp_error_misnamed : ¬ (Run.run McpClient.step
    (.start ⟨[], 0, 0, true, List.replicate 8 0, List.replicate 4 0⟩ .zero)
    [.input [0x4d, 0x41, 0x0d, 0x43, 0x0d], .complete 0 .error]).Answered := by
  intro h
  have hline := h.2 ⟨['M', 'A'], true, [['E', 'C', '\r']]⟩ (by decide)
  exact absurd (hline.1 (.inr rfl)) (by decide)

end Mhuxd
