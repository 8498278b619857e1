import Mhuxd.Channel
import Mhuxd.Lib.Run

/-!
# Processors and their callbacks (`proc_mcp.c`, `proc_rotator.c`, `conmgr.c`)

A connector of the MCP or of the rotator channel has a processor, which is called with what its clients
send. An MCP processor is also called for the keyer's flags and, by the control layer, for its states. The
entries at the router are removed by their function alone, those of the control layer by themselves. A
command that a processor submits is owed its completion, which the control layer calls when it likes.

An object's address is the number of its allocation: none is used twice.
-/

namespace Mhuxd

def MCP_MAX_CMD_SIZE : Nat := 32
def ROT_MAX_CMD_SIZE : Nat := 12

/-! ### Lines and commands -/

/-- The line a processor collects: `cmd`, `cmd_len` and `cmd_overflow`. -/
structure CmdLine where
  cmd : List UInt8
  cmdOverflow : Bool
deriving DecidableEq

namespace CmdLine

def isEol (c : UInt8) : Bool := c == 0x0d || c == 0x0a

/-- A round of `mcp_cb` and `rot_cb`, with the line it completes. -/
def next (max : Nat) (l : CmdLine) (c : UInt8) : CmdLine × Option (List UInt8) :=
  if l.cmdOverflow then (if isEol c then ⟨[], false⟩ else l, none)
  else if isEol c then
    if l.cmd = [] then (l, none) else (⟨[], false⟩, some l.cmd)
  else if max ≤ l.cmd.length then ({ l with cmdOverflow := true }, none)
  else ({ l with cmd := l.cmd ++ [c] }, none)

/-- `cmd` as a string. -/
def text (cmd : List UInt8) : List Char := (cmd.takeWhile (· ≠ 0)).map fun c => Char.ofNat c.toNat

end CmdLine

/-- `struct proc_mcp`. -/
structure ProcMcp where
  line : CmdLine
  mcb : Nat
  acccb : Nat
  mokcb : Nat
deriving DecidableEq

namespace ProcMcp

def areBits (t : List Char) : Bool := t.all fun c => c == '0' || c == '1'

/-- `cmd` with one letter more, from `lo` to `hi`. -/
def isWithArg (cmd : String) (lo hi : Char) (t : List Char) : Bool :=
  t.take 2 == cmd.toList && t.length == 3 && t[2]?.any fun c => lo ≤ c && c ≤ hi

/-- `process_cmd`: whether the line's command is submitted. -/
def processCmd (cmd : List UInt8) : Bool :=
  let t := CmdLine.text cmd
  if t ∈ ["FT1", "FT2", "FR1", "FR2", "FRS"].map String.toList then true
  else if t.take 3 = "FRD".toList ∧ (t.drop 3).length = 12 ∧ areBits (t.drop 3) then true
  else if t.take 3 = "AM1".toList ∨ t.take 3 = "AM2".toList then t.length == 19 && areBits (t.drop 3)
  else isWithArg "SA" '0' '7' t || isWithArg "MR" '1' '9' t || isWithArg "MP" '1' '9' t ||
    t == "MRS".toList || t == "MA".toList

/-- `mcp_cb`, with the number of commands it submits. -/
def mcpCb (m : ProcMcp) (p : List UInt8) : ProcMcp × Nat :=
  p.foldl (fun (m, n) c =>
    match m.line.next MCP_MAX_CMD_SIZE c with
    | (line, none) => ({ m with line }, n)
    | (line, some cmd) => ({ m with line }, if processCmd cmd then n + 1 else n)) (m, 0)

end ProcMcp

/-- `struct proc_rotator`. -/
structure ProcRotator where
  line : CmdLine
  bearing : Option Nat
deriving DecidableEq

namespace ProcRotator

def atoi (t : List Char) : Int :=
  let digits (t : List Char) : Nat := (t.takeWhile Char.isDigit).foldl (fun n c => 10 * n + (c.toNat - 48)) 0
  match t.dropWhile fun c => c == ' ' || (9 ≤ c.toNat && c.toNat ≤ 13) with
  | '-' :: t => -digits t
  | '+' :: t => digits t
  | t => digits t

/-- `process_cmd`: the bearing, and whether a command is submitted. -/
def processCmd (bearing : Option Nat) (cmd : List UInt8) : Option Nat × Bool :=
  let t := CmdLine.text cmd
  if cmd.length < 3 ∨ cmd.getLast? ≠ some 0x3b then (bearing, false)
  else if t.take 3 = "API".toList then
    if t.length ≠ 7 then (bearing, false)
    else if atoi (t.drop 3) < 0 ∨ 359 < atoi (t.drop 3) then (bearing, false)
    else (some (atoi (t.drop 3)).toNat, false)
  else if t = "AM 1;".toList then (bearing, bearing.isSome)
  else (bearing, false)

/-- `rot_cb`, with the number of commands it submits. -/
def rotCb (r : ProcRotator) (p : List UInt8) : ProcRotator × Nat :=
  p.foldl (fun (r, n) c =>
    match r.line.next ROT_MAX_CMD_SIZE c with
    | (line, none) => ({ r with line }, n)
    | (line, some cmd) =>
      let (bearing, submits) := processCmd r.bearing cmd
      (⟨line, bearing⟩, if submits then n + 1 else n)) (r, 0)

end ProcRotator

/-! ### Callbacks -/

inductive Obj
  | ctl
  | mcp (m : ProcMcp)
  | rot (r : ProcRotator)
deriving DecidableEq

inductive ProcessorFn
  | mcpCb | rotCb
deriving DecidableEq

inductive FlagsFn
  | ctlFlagsCb | mcpFlagsCb
deriving DecidableEq

/-- `struct ProcessorCb` and `struct ConsumerCb`. -/
structure Callback (φ : Type) where
  callback : φ
  userData : Nat
deriving DecidableEq

/-- `struct mhc_state_callback` and `struct mhc_mode_callback`, at `node`. -/
structure StateCallback where
  node : Nat
  userData : Nat
deriving DecidableEq

/-- A callback ran; `alive`: its data was not freed. -/
structure Ran where
  userData : Nat
  alive : Bool
deriving DecidableEq

/-- `struct connector`. -/
structure ProcCon where
  id : Int
  channel : Channel
  mcp : Option Nat
  rot : Option Nat
deriving DecidableEq

/-- A keyer's connectors, the objects they have, and the callbacks of the router and the control layer.
`owed` has the data of the completions to come. -/
structure Procs where
  hasFlagsChannel : Bool
  online : Bool
  idCnt : Int
  connectorList : List ProcCon
  heap : Nat → Option Obj
  brk : Nat
  processorCbs : Channel → List (Callback ProcessorFn)
  flagsCbs : List (Callback FlagsFn)
  mokCbs : List StateCallback
  accCbs : List StateCallback
  modeCbs : List StateCallback
  owed : List Nat
  log : List Ran

namespace Procs

/-- The address of the `struct mh_control`. -/
def ctlAddr : Nat := 0

/-- The keyer without connectors. -/
def init (hasFlagsChannel : Bool) : Procs where
  hasFlagsChannel
  online := false
  idCnt := 0
  connectorList := []
  heap := Function.update (fun _ => none) ctlAddr (some .ctl)
  brk := ctlAddr + 1
  processorCbs _ := []
  flagsCbs := if hasFlagsChannel then [⟨.ctlFlagsCb, ctlAddr⟩] else []
  mokCbs := []
  accCbs := []
  modeCbs := []
  owed := []
  log := []

/-- Callbacks run with the data `as`. -/
def ran (k : Procs) (as : List Nat) : Procs :=
  { k with log := k.log ++ as.map fun a => ⟨a, (k.heap a).isSome⟩ }

/-- `mhr_add_processor_cb`. -/
def mhrAddProcessorCb (k : Procs) (cb : ProcessorFn) (ch : Channel) (a : Nat) : Procs :=
  { k with processorCbs := upd k.processorCbs ch (k.processorCbs ch ++ [⟨cb, a⟩]) }

/-- `mhr_rem_processor_cb`. -/
def mhrRemProcessorCb (k : Procs) (cb : ProcessorFn) (ch : Channel) : Procs :=
  { k with processorCbs := upd k.processorCbs ch ((k.processorCbs ch).eraseP (·.callback == cb)) }

/-- `mhr_add_consumer_cb` on the flags channel. -/
def mhrAddConsumerCb (k : Procs) (cb : FlagsFn) (a : Nat) : Procs :=
  { k with flagsCbs := if k.hasFlagsChannel then k.flagsCbs ++ [⟨cb, a⟩] else k.flagsCbs }

/-- `mhr_rem_consumer_cb` on the flags channel. -/
def mhrRemConsumerCb (k : Procs) (cb : FlagsFn) : Procs :=
  { k with flagsCbs := k.flagsCbs.eraseP (·.callback == cb) }

/-- `PG_CheckedRemove`. -/
def pgCheckedRemove (l : List StateCallback) (node : Nat) : List StateCallback := l.eraseP (·.node == node)

/-- `mhc_add_mok_state_changed_cb`, with the entry at `node`. -/
def mhcAddMokStateChangedCb (k : Procs) (node a : Nat) : Procs :=
  let k : Procs := { k with mokCbs := k.mokCbs ++ [⟨node, a⟩] }
  if k.online then k.ran [a] else k

/-- `mhc_add_acc_state_changed_cb`. -/
def mhcAddAccStateChangedCb (k : Procs) (node a : Nat) : Procs :=
  let k : Procs := { k with accCbs := k.accCbs ++ [⟨node, a⟩] }
  if k.online then k.ran [a] else k

/-- `mhc_add_mode_changed_cb`. -/
def mhcAddModeChangedCb (k : Procs) (node a : Nat) : Procs :=
  { k with modeCbs := k.modeCbs ++ [⟨node, a⟩] }

/-- `mcp_create`: the processor is at `brk`, its entries come after it. -/
def mcpCreate (k : Procs) : Procs :=
  let a := k.brk
  let k := { k with
    heap := Function.update k.heap a (some (.mcp ⟨⟨[], false⟩, a + 3, a + 2, a + 1⟩)), brk := a + 4 }
  (((k.mhrAddConsumerCb .mcpFlagsCb a).mhcAddMokStateChangedCb (a + 1) a).mhcAddAccStateChangedCb (a + 2) a
    ).mhcAddModeChangedCb (a + 3) a

/-- `mcp_destroy`. -/
def mcpDestroy (k : Procs) (a : Nat) : Procs :=
  match k.heap a with
  | some (.mcp m) =>
    { (k.mhrRemConsumerCb .mcpFlagsCb) with
      modeCbs := pgCheckedRemove k.modeCbs m.mcb
      accCbs := pgCheckedRemove k.accCbs m.acccb
      mokCbs := pgCheckedRemove k.mokCbs m.mokcb
      heap := Function.update k.heap a none }
  | _ => k

/-- `rot_create`. -/
def rotCreate (k : Procs) : Procs :=
  { k with heap := Function.update k.heap k.brk (some (.rot ⟨⟨[], false⟩, none⟩)), brk := k.brk + 1 }

/-- `rot_destroy`. -/
def rotDestroy (k : Procs) (a : Nat) : Procs := { k with heap := Function.update k.heap a none }

/-- The last part of `conmgr_create_con_cfg`: the connector started. -/
def addCon (k : Procs) (ch : Channel) (id : Int) : Procs :=
  let c : ProcCon := ⟨id, ch, if ch = .mcp then some k.brk else none, if ch = .rotator then some k.brk else none⟩
  let k' := if ch = .mcp then k.mcpCreate.mhrAddProcessorCb .mcpCb .mcp k.brk else k
  let k'' := if ch = .rotator then k'.rotCreate.mhrAddProcessorCb .rotCb .rotator k'.brk else k'
  { k'' with connectorList := k''.connectorList ++ [c] }

/-- `conmgr_create_con_cfg`; `starts`: nothing in it fails. -/
def conmgrCreateConCfg (k : Procs) (ch : Channel) (id : Int) (starts : Bool) : Procs :=
  if 0 < id ∧ k.connectorList.any (·.id == id) then k
  else
    let k := { k with idCnt := max k.idCnt id }
    if starts = false then k
    else if 0 < id then k.addCon ch id
    else { k with idCnt := k.idCnt + 1 }.addCon ch (k.idCnt + 1)

/-- What `conmgr_destroy_con` does with the connector's `mcp`. -/
def destroyMcp (k : Procs) : Option Nat → Procs
  | some a => (k.mhrRemProcessorCb .mcpCb .mcp).mcpDestroy a
  | none => k

/-- And with its `rot`. -/
def destroyRot (k : Procs) : Option Nat → Procs
  | some a => (k.mhrRemProcessorCb .rotCb .rotator).rotDestroy a
  | none => k

/-- `conmgr_destroy_con`. -/
def conmgrDestroyCon (k : Procs) (id : Int) : Procs :=
  match k.connectorList.find? (·.id == id) with
  | none => k
  | some c =>
    { (k.destroyMcp c.mcp).destroyRot c.rot with connectorList := k.connectorList.eraseP (·.id == id) }

/-- A processor callback is called. What it does with freed memory is left out. -/
def runProcessor (k : Procs) (cb : Callback ProcessorFn) (p : List UInt8) : Procs :=
  let k := k.ran [cb.userData]
  match cb.callback, k.heap cb.userData with
  | .mcpCb, some (.mcp m) =>
    { k with
      heap := Function.update k.heap cb.userData (some (.mcp (m.mcpCb p).1))
      owed := k.owed ++ List.replicate (m.mcpCb p).2 cb.userData }
  | .rotCb, some (.rot r) =>
    { k with
      heap := Function.update k.heap cb.userData (some (.rot (r.rotCb p).1))
      owed := k.owed ++ List.replicate (r.rotCb p).2 cb.userData }
  | _, _ => k

/-- The processors run on what `producer_cb` has read. The first leaves the buffer empty. -/
def runProcessors : List (Callback ProcessorFn) → List UInt8 → Procs → Procs
  | [], _, k => k
  | cb :: cbs, p, k => runProcessors cbs [] (k.runProcessor cb p)

end Procs

inductive ProcEv
  | createCon (ch : Channel) (id : Int) (starts : Bool)
  | destroyCon (id : Int)
  | clientBytes (ch : Channel) (p : List UInt8)
  | flags | mokState | accState | keyerMode
  | setOnline (online : Bool)
  | complete (i : Nat)
deriving DecidableEq

namespace Procs

/-- What the world does; `complete i`: the control layer completes the command at place `i` of those owed. -/
def step (k : Procs) : ProcEv → Procs
  | .createCon ch id starts => k.conmgrCreateConCfg ch id starts
  | .destroyCon id => k.conmgrDestroyCon id
  | .clientBytes ch p => runProcessors (k.processorCbs ch) p k
  | .flags => k.ran (k.flagsCbs.map (·.userData))
  | .mokState => k.ran (k.mokCbs.map (·.userData))
  | .accState => k.ran (k.accCbs.map (·.userData))
  | .keyerMode => k.ran (k.modeCbs.map (·.userData))
  | .setOnline online => { k with online }
  | .complete i =>
    match k.owed[i]? with
    | none => k
    | some a => { k with owed := k.owed.eraseIdx i }.ran [a]

/-! ### What is registered -/

/-- The MCP processors of the connectors. -/
def mcps (k : Procs) : List Nat := k.connectorList.filterMap (·.mcp)

/-- Their rotator processors. -/
def rots (k : Procs) : List Nat := k.connectorList.filterMap (·.rot)

/-- With the MCP processors `ms` and the rotator processors `rs`: they are those that exist, each is
registered with its own data and nothing else is, and no callback ran with the data of another. -/
structure RegisteredFor (ms rs : List Nat) (k : Procs) : Prop where
  mcpLive : ∀ a, (∃ m, k.heap a = some (.mcp m)) ↔ a ∈ ms
  rotLive : ∀ a, (∃ r, k.heap a = some (.rot r)) ↔ a ∈ rs
  mcp : k.processorCbs .mcp = ms.map (⟨.mcpCb, ·⟩)
  rot : k.processorCbs .rotator = rs.map (⟨.rotCb, ·⟩)
  other : ∀ ch, ch ≠ .mcp → ch ≠ .rotator → k.processorCbs ch = []
  flags : k.flagsCbs =
    if k.hasFlagsChannel then ⟨.ctlFlagsCb, ctlAddr⟩ :: ms.map (⟨.mcpFlagsCb, ·⟩) else []
  mok : k.mokCbs.map (·.userData) = ms
  acc : k.accCbs.map (·.userData) = ms
  mode : k.modeCbs.map (·.userData) = ms
  alive : ∀ r ∈ k.log, r.alive = true

/-- With the processors of the connectors there are. -/
def Registered (k : Procs) : Prop := RegisteredFor k.mcps k.rots k

/-- It is, and remains so whichever command is completed next. -/
def Safe (k : Procs) : Prop := k.Registered ∧ ∀ i, (k.step (.complete i)).Registered

/-- Of the connectors' processors of one kind, `a` is the oldest, and no completion is owed to it. -/
def Oldest (k : Procs) (as : List Nat) (a : Nat) : Prop := as.head? = some a ∧ a ∉ k.owed

/-- A connector that is destroyed has the oldest processor of its kind, if any, with no completion to come. -/
def Removable (k : Procs) : ProcEv → Prop
  | .destroyCon id => ∀ c, k.connectorList.find? (·.id == id) = some c →
      (∀ a, c.mcp = some a → k.Oldest k.mcps a) ∧ ∀ a, c.rot = some a → k.Oldest k.rots a
  | _ => True

/-- What is kept for it: the entries of the control layer are known by their places, and commands are
submitted by processors that exist. -/
structure GoodFor (ms rs : List Nat) (k : Procs) : Prop extends RegisteredFor ms rs k where
  mokNode : k.mokCbs = ms.map fun a => ⟨a + 1, a⟩
  accNode : k.accCbs = ms.map fun a => ⟨a + 2, a⟩
  modeNode : k.modeCbs = ms.map fun a => ⟨a + 3, a⟩
  handles : ∀ a m, k.heap a = some (.mcp m) → m.mokcb = a + 1 ∧ m.acccb = a + 2 ∧ m.mcb = a + 3
  ctl : k.heap ctlAddr = some .ctl
  fresh : ∀ a, k.brk ≤ a → k.heap a = none
  mcpNodup : ms.Nodup
  rotNodup : rs.Nodup
  owed : ∀ a ∈ k.owed, a ∈ ms ∨ a ∈ rs

variable {k : Procs} {ms rs as : List Nat} {a : Nat}

namespace GoodFor

theorem live (h : GoodFor ms rs k) (ha : a ∈ ms ∨ a ∈ rs) : (k.heap a).isSome = true := by
  rcases ha with ha | ha
  · obtain ⟨m, hm⟩ := (h.mcpLive a).mpr ha
    simp [hm]
  · obtain ⟨r, hr⟩ := (h.rotLive a).mpr ha
    simp [hr]

theorem lt_brk (h : GoodFor ms rs k) (ha : a ∈ ms ∨ a ∈ rs) : a < k.brk := by
  by_contra hlt
  have hnone := h.fresh a (by omega)
  have hsome := h.live ha
  simp [hnone] at hsome

theorem brk_new (h : GoodFor ms rs k) : k.brk ∉ ms ∧ k.brk ∉ rs ∧ ctlAddr ≠ k.brk := by
  refine ⟨fun hm => Nat.lt_irrefl _ (h.lt_brk (.inl hm)), fun hr => Nat.lt_irrefl _ (h.lt_brk (.inr hr)), ?_⟩
  intro hc
  have hnone := h.fresh k.brk (Nat.le_refl _)
  simp [← hc, h.ctl] at hnone

theorem disjoint (h : GoodFor ms rs k) (ha : a ∈ ms) : a ∉ rs := by
  intro hr
  obtain ⟨m, hm⟩ := (h.mcpLive a).mpr ha
  obtain ⟨r, hr⟩ := (h.rotLive a).mpr hr
  simp [hm] at hr

theorem ran (h : GoodFor ms rs k) (has : ∀ a ∈ as, (k.heap a).isSome = true) : GoodFor ms rs (k.ran as) := by
  refine { h with alive := ?_ }
  intro r hr
  rcases List.mem_append.mp hr with hr | hr
  · exact h.alive r hr
  · obtain ⟨a, ha, rfl⟩ := List.mem_map.mp hr
    exact has a ha

theorem init (hasFlagsChannel : Bool) : GoodFor [] [] (Procs.init hasFlagsChannel) := by
  have hheap : ∀ a o, (Procs.init hasFlagsChannel).heap a = some o → a = ctlAddr ∧ o = .ctl := by
    intro a o ho
    by_cases ha : a = ctlAddr
    · subst ha
      exact ⟨rfl, by simpa [Procs.init] using ho.symm⟩
    · simp [Procs.init, ha] at ho
  refine {
    mcpLive := ?_
    rotLive := ?_
    mcp := rfl
    rot := rfl
    other := fun _ _ _ => rfl
    flags := rfl
    mok := rfl
    acc := rfl
    mode := rfl
    alive := fun r hr => absurd hr List.not_mem_nil
    mokNode := rfl
    accNode := rfl
    modeNode := rfl
    handles := ?_
    ctl := by simp [Procs.init]
    fresh := ?_
    mcpNodup := List.nodup_nil
    rotNodup := List.nodup_nil
    owed := fun a ha => absurd ha List.not_mem_nil }
  · intro a
    constructor
    · rintro ⟨m, hm⟩
      simpa using (hheap a _ hm).2
    · intro ha
      simp at ha
  · intro a
    constructor
    · rintro ⟨r, hr⟩
      simpa using (hheap a _ hr).2
    · intro ha
      simp at ha
  · intro a m hm
    simpa using (hheap a _ hm).2
  · intro a ha
    have hne : a ≠ ctlAddr := by
      have : (Procs.init hasFlagsChannel).brk = 1 := rfl
      simp only [ctlAddr]
      omega
    simp [Procs.init, hne]

/-! ### A connector comes -/

/-- Writing the object at one address leaves those at the others. -/
theorem live_update {β : Type} {f : β → Obj} {l l' : List Nat} {o : Option Obj}
    (hl : ∀ b, (∃ x, k.heap b = some (f x)) ↔ b ∈ l) (ha : (∃ x, o = some (f x)) ↔ a ∈ l')
    (hne : ∀ b, b ≠ a → (b ∈ l' ↔ b ∈ l)) (b : Nat) :
    (∃ x, Function.update k.heap a o b = some (f x)) ↔ b ∈ l' := by
  rcases eq_or_ne b a with rfl | hb
  · simpa using ha
  · rw [Function.update_of_ne hb, hl b, hne b hb]

theorem nodup_concat {l : List Nat} (hl : l.Nodup) (ha : a ∉ l) : (l ++ [a]).Nodup := by
  simpa [List.nodup_append] using ⟨hl, fun b hb hba => ha (hba ▸ hb)⟩

/-- What `mcp_create` and the registration after it do; the callbacks run at once when the keyer is online. -/
theorem mcpCreate_eq (k : Procs) :
    k.mcpCreate.mhrAddProcessorCb .mcpCb .mcp k.brk = { k with
      heap := Function.update k.heap k.brk (some (.mcp ⟨⟨[], false⟩, k.brk + 3, k.brk + 2, k.brk + 1⟩))
      brk := k.brk + 4
      processorCbs := upd k.processorCbs .mcp (k.processorCbs .mcp ++ [⟨.mcpCb, k.brk⟩])
      flagsCbs := if k.hasFlagsChannel then k.flagsCbs ++ [⟨.mcpFlagsCb, k.brk⟩] else k.flagsCbs
      mokCbs := k.mokCbs ++ [⟨k.brk + 1, k.brk⟩]
      accCbs := k.accCbs ++ [⟨k.brk + 2, k.brk⟩]
      modeCbs := k.modeCbs ++ [⟨k.brk + 3, k.brk⟩]
      log := k.log ++ if k.online then [⟨k.brk, true⟩, ⟨k.brk, true⟩] else [] } := by
  cases hon : k.online <;>
    simp [Procs.mcpCreate, mhrAddProcessorCb, mhrAddConsumerCb, mhcAddMokStateChangedCb, mhcAddAccStateChangedCb,
      mhcAddModeChangedCb, Procs.ran, hon]

theorem mcpCreate (h : GoodFor ms rs k) :
    GoodFor (ms ++ [k.brk]) rs (k.mcpCreate.mhrAddProcessorCb .mcpCb .mcp k.brk) := by
  obtain ⟨hm, hr, hctl⟩ := h.brk_new
  rw [mcpCreate_eq]
  refine {
    mcpLive := live_update h.mcpLive (by simp) fun b hb => by simp [hb]
    rotLive := live_update h.rotLive (by simpa using hr) fun _ _ => Iff.rfl
    mcp := by simp [h.mcp]
    rot := by simpa [upd] using h.rot
    other := ?_
    flags := ?_
    mok := by simp [h.mok]
    acc := by simp [h.acc]
    mode := by simp [h.mode]
    alive := ?_
    mokNode := by simp [h.mokNode]
    accNode := by simp [h.accNode]
    modeNode := by simp [h.modeNode]
    handles := ?_
    ctl := by simpa [hctl] using h.ctl
    fresh := ?_
    mcpNodup := nodup_concat h.mcpNodup hm
    rotNodup := h.rotNodup
    owed := ?_ }
  · intro ch hc hc'
    simpa [hc] using h.other ch hc hc'
  · show (if k.hasFlagsChannel then _ else _) = _
    rw [h.flags]
    by_cases hf : k.hasFlagsChannel = true <;> simp [hf]
  · intro r hr
    rcases List.mem_append.mp hr with hr | hr
    · exact h.alive r hr
    · split_ifs at hr <;> simp_all
  · intro a m ha
    rcases eq_or_ne a k.brk with rfl | hne
    · simp only [Function.update_self, Option.some.injEq, Obj.mcp.injEq] at ha
      subst ha
      exact ⟨rfl, rfl, rfl⟩
    · exact h.handles a m (by simpa [hne] using ha)
  · intro a ha
    have hlt : k.brk + 4 ≤ a := ha
    have hne : a ≠ k.brk := by omega
    simpa [hne] using h.fresh a (by omega)
  · intro a ha
    rcases h.owed a ha with hm | hr
    · exact .inl (List.mem_append_left _ hm)
    · exact .inr hr

theorem rotCreate (h : GoodFor ms rs k) :
    GoodFor ms (rs ++ [k.brk]) (k.rotCreate.mhrAddProcessorCb .rotCb .rotator k.brk) := by
  obtain ⟨hm, hr, hctl⟩ := h.brk_new
  refine { h with
    mcpLive := live_update h.mcpLive (by simpa using hm) fun _ _ => Iff.rfl
    rotLive := live_update h.rotLive (by simp) fun b hb => by simp [hb]
    mcp := h.mcp
    rot := ?_
    other := ?_
    handles := ?_
    ctl := ?_
    fresh := ?_
    rotNodup := nodup_concat h.rotNodup hr
    owed := ?_ }
  · simp [mhrAddProcessorCb, Procs.rotCreate, h.rot]
  · intro ch hc hc'
    simpa [mhrAddProcessorCb, Procs.rotCreate, upd, hc'] using h.other ch hc hc'
  · intro a m ha
    have hne : a ≠ k.brk := by
      rintro rfl
      simp [mhrAddProcessorCb, Procs.rotCreate] at ha
    exact h.handles a m (by simpa [mhrAddProcessorCb, Procs.rotCreate, hne] using ha)
  · simpa [mhrAddProcessorCb, Procs.rotCreate, hctl] using h.ctl
  · intro a ha
    have hlt : k.brk + 1 ≤ a := ha
    have hne : a ≠ k.brk := by omega
    simpa [mhrAddProcessorCb, Procs.rotCreate, hne] using h.fresh a (by omega)
  · intro a ha
    rcases h.owed a ha with hm | hr
    · exact .inl hm
    · exact .inr (List.mem_append_left _ hr)

/-! ### A connector goes -/

/-- The entry of the head goes, whatever is added to the addresses to get its place. -/
theorem pgCheckedRemove_head (d : Nat) (l : List Nat) :
    pgCheckedRemove ((a :: l).map fun a => ⟨a + d, a⟩) (a + d) = l.map fun a => ⟨a + d, a⟩ := by
  simp [pgCheckedRemove]

theorem mcpDestroy (h : GoodFor (a :: ms) rs k) (hidle : a ∉ k.owed) :
    GoodFor ms rs ((k.mhrRemProcessorCb .mcpCb .mcp).mcpDestroy a) := by
  obtain ⟨m, hm⟩ := (h.mcpLive a).mpr List.mem_cons_self
  obtain ⟨hmok, hacc, hmode⟩ := h.handles a m hm
  have hr : a ∉ rs := h.disjoint List.mem_cons_self
  have hctl : ctlAddr ≠ a := by
    rintro rfl
    simp [h.ctl] at hm
  have hmok : pgCheckedRemove k.mokCbs m.mokcb = ms.map fun a => ⟨a + 1, a⟩ := by
    rw [h.mokNode, hmok, pgCheckedRemove_head]
  have hacc : pgCheckedRemove k.accCbs m.acccb = ms.map fun a => ⟨a + 2, a⟩ := by
    rw [h.accNode, hacc, pgCheckedRemove_head]
  have hmode : pgCheckedRemove k.modeCbs m.mcb = ms.map fun a => ⟨a + 3, a⟩ := by
    rw [h.modeNode, hmode, pgCheckedRemove_head]
  have hnodup := List.nodup_cons.mp h.mcpNodup
  simp only [mhrRemProcessorCb, Procs.mcpDestroy, hm, hmok, hacc, hmode]
  refine {
    mcpLive := live_update h.mcpLive (by simpa using hnodup.1) fun b hb => by simp [hb]
    rotLive := live_update h.rotLive (by simpa using hr) fun _ _ => Iff.rfl
    mcp := by simp [mhrRemConsumerCb, h.mcp]
    rot := by simpa [mhrRemConsumerCb, upd] using h.rot
    other := ?_
    flags := ?_
    mok := by simp [Function.comp_def]
    acc := by simp [Function.comp_def]
    mode := by simp [Function.comp_def]
    alive := h.alive
    mokNode := rfl
    accNode := rfl
    modeNode := rfl
    handles := ?_
    ctl := by simpa [hctl] using h.ctl
    fresh := ?_
    mcpNodup := hnodup.2
    rotNodup := h.rotNodup
    owed := ?_ }
  · intro ch hc hc'
    simpa [mhrRemConsumerCb, hc] using h.other ch hc hc'
  · show k.flagsCbs.eraseP (·.callback == FlagsFn.mcpFlagsCb) = _
    rw [h.flags]
    by_cases hf : k.hasFlagsChannel = true <;> simp [mhrRemConsumerCb, hf]
  · intro b m' hb
    have hne : b ≠ a := by
      rintro rfl
      simp at hb
    exact h.handles b m' (by simpa [hne] using hb)
  · intro b hb
    rcases eq_or_ne b a with rfl | hne
    · simp
    · simpa [hne] using h.fresh b hb
  · intro b hb
    have hne : b ≠ a := fun hba => hidle (hba ▸ hb)
    simpa [hne] using h.owed b hb

theorem rotDestroy (h : GoodFor ms (a :: rs) k) (hidle : a ∉ k.owed) :
    GoodFor ms rs ((k.mhrRemProcessorCb .rotCb .rotator).rotDestroy a) := by
  have hm : a ∉ ms := fun hm => h.disjoint hm List.mem_cons_self
  have hctl : ctlAddr ≠ a := by
    rintro rfl
    obtain ⟨r, hr⟩ := (h.rotLive ctlAddr).mpr List.mem_cons_self
    simp [h.ctl] at hr
  refine { h with
    mcpLive := live_update h.mcpLive (by simpa using hm) fun _ _ => Iff.rfl
    rotLive := live_update h.rotLive (by simpa using (List.nodup_cons.mp h.rotNodup).1) fun b hb => by simp [hb]
    mcp := h.mcp
    rot := ?_
    other := ?_
    handles := ?_
    ctl := ?_
    fresh := ?_
    rotNodup := (List.nodup_cons.mp h.rotNodup).2
    owed := ?_ }
  · simp [mhrRemProcessorCb, Procs.rotDestroy, h.rot]
  · intro ch hc hc'
    simpa [mhrRemProcessorCb, Procs.rotDestroy, upd, hc'] using h.other ch hc hc'
  · intro b m hb
    have hne : b ≠ a := by
      rintro rfl
      simp [mhrRemProcessorCb, Procs.rotDestroy] at hb
    exact h.handles b m (by simpa [mhrRemProcessorCb, Procs.rotDestroy, hne] using hb)
  · simpa [mhrRemProcessorCb, Procs.rotDestroy, hctl] using h.ctl
  · intro b hb
    rcases eq_or_ne b a with rfl | hne
    · simp [mhrRemProcessorCb, Procs.rotDestroy]
    · simpa [mhrRemProcessorCb, Procs.rotDestroy, hne] using h.fresh b hb
  · intro b hb
    have hne : b ≠ a := fun hba => hidle (hba ▸ hb)
    simpa [hne] using h.owed b hb

/-! ### Callbacks run -/

/-- The entry is one of a processor's. -/
def Entry (ms rs : List Nat) (cb : Callback ProcessorFn) : Prop :=
  (cb.callback = .mcpCb ∧ cb.userData ∈ ms) ∨ (cb.callback = .rotCb ∧ cb.userData ∈ rs)

theorem entry (h : GoodFor ms rs k) (ch : Channel) : ∀ cb ∈ k.processorCbs ch, Entry ms rs cb := by
  intro cb hcb
  by_cases hm : ch = .mcp
  · rw [hm, h.mcp] at hcb
    obtain ⟨a, ha, rfl⟩ := List.mem_map.mp hcb
    exact .inl ⟨rfl, ha⟩
  · by_cases hr : ch = .rotator
    · rw [hr, h.rot] at hcb
      obtain ⟨a, ha, rfl⟩ := List.mem_map.mp hcb
      exact .inr ⟨rfl, ha⟩
    · rw [h.other ch hm hr] at hcb
      exact absurd hcb List.not_mem_nil

/-- A processor writes its own object and submits commands. -/
theorem write (h : GoodFor ms rs k) {o o' : Obj} (n : Nat) (ho : k.heap a = some o) (ha : a ∈ ms ∨ a ∈ rs)
    (hmcp : (∃ m, o = .mcp m) ↔ ∃ m, o' = .mcp m) (hrot : (∃ r, o = .rot r) ↔ ∃ r, o' = .rot r)
    (hh : ∀ m', o' = .mcp m' → ∃ m, o = .mcp m ∧ m'.mokcb = m.mokcb ∧ m'.acccb = m.acccb ∧ m'.mcb = m.mcb) :
    GoodFor ms rs { k with
      heap := Function.update k.heap a (some o')
      owed := k.owed ++ List.replicate n a } := by
  have hctl : ctlAddr ≠ a := by
    rintro rfl
    rcases ha with ha | ha
    · obtain ⟨m, hm⟩ := (h.mcpLive ctlAddr).mpr ha
      simp [h.ctl] at hm
    · obtain ⟨r, hr⟩ := (h.rotLive ctlAddr).mpr ha
      simp [h.ctl] at hr
  have hm := h.mcpLive a
  have hr := h.rotLive a
  simp only [ho, Option.some.injEq, hmcp, hrot] at hm hr
  refine { h with
    mcpLive := live_update h.mcpLive (by simpa using hm) fun _ _ => Iff.rfl
    rotLive := live_update h.rotLive (by simpa using hr) fun _ _ => Iff.rfl
    handles := ?_
    ctl := by simpa [hctl] using h.ctl
    fresh := ?_
    owed := ?_ }
  · intro b m' hb
    rcases eq_or_ne b a with rfl | hne
    · obtain ⟨m, hm, h1, h2, h3⟩ := hh m' (by simpa using hb)
      rw [h1, h2, h3]
      exact h.handles b m (hm ▸ ho)
    · exact h.handles b m' (by simpa [hne] using hb)
  · intro b hb
    have hne : b ≠ a := by
      rintro rfl
      simp [h.fresh b hb] at ho
    simpa [hne] using h.fresh b hb
  · intro b hb
    rcases List.mem_append.mp hb with hb | hb
    · exact h.owed b hb
    · rw [(List.mem_replicate.mp hb).2]
      exact ha

theorem mcpCb_handles (m : ProcMcp) (p : List UInt8) :
    (m.mcpCb p).1.mokcb = m.mokcb ∧ (m.mcpCb p).1.acccb = m.acccb ∧ (m.mcpCb p).1.mcb = m.mcb := by
  unfold ProcMcp.mcpCb
  generalize 0 = n
  induction p generalizing m n with
  | nil => exact ⟨rfl, rfl, rfl⟩
  | cons c p ih =>
    rw [List.foldl_cons]
    rcases hl : m.line.next MCP_MAX_CMD_SIZE c with ⟨line, cmd⟩
    cases cmd with
    | none => simpa only [hl] using ih { m with line } n
    | some cmd => simpa only [hl] using ih { m with line } _

theorem runProcessor (h : GoodFor ms rs k) {cb : Callback ProcessorFn} (hcb : Entry ms rs cb) (p : List UInt8) :
    GoodFor ms rs (k.runProcessor cb p) := by
  obtain ⟨f, a⟩ := cb
  have ha : a ∈ ms ∨ a ∈ rs := hcb.imp (·.2) (·.2)
  have hran : GoodFor ms rs (k.ran [a]) := h.ran fun b hb => by
    rw [List.mem_singleton.mp hb]
    exact h.live ha
  rcases hcb with ⟨hf, hm⟩ | ⟨hf, hr⟩
  · obtain ⟨m, hm⟩ := (h.mcpLive a).mpr hm
    have hm' : (k.ran [a]).heap a = some (.mcp m) := hm
    obtain rfl : f = .mcpCb := hf
    simp only [Procs.runProcessor, hm']
    refine hran.write _ hm' ha (by simp) (by simp) ?_
    rintro m' hm'
    obtain rfl : (m.mcpCb p).1 = m' := by simpa using hm'
    exact ⟨m, rfl, mcpCb_handles m p⟩
  · obtain ⟨r, hr⟩ := (h.rotLive a).mpr hr
    have hr' : (k.ran [a]).heap a = some (.rot r) := hr
    obtain rfl : f = .rotCb := hf
    simp only [Procs.runProcessor, hr']
    exact hran.write _ hr' ha (by simp) (by simp) (by simp)

theorem runProcessors (cbs : List (Callback ProcessorFn)) :
    ∀ (p : List UInt8) (k : Procs), GoodFor ms rs k → (∀ cb ∈ cbs, Entry ms rs cb) →
      GoodFor ms rs (Procs.runProcessors cbs p k) := by
  induction cbs with
  | nil => exact fun _ _ h _ => h
  | cons cb cbs ih =>
    intro p k h hcbs
    have hcb := hcbs cb List.mem_cons_self
    exact ih [] _ (h.runProcessor hcb p) fun cb' hcb' => hcbs cb' (List.mem_cons_of_mem _ hcb')

/-- The callbacks of a list that has the MCP processors' entries, among others that are there to stay. -/
theorem report (h : GoodFor ms rs k) (has : ∀ a ∈ as, a = ctlAddr ∨ a ∈ ms) : GoodFor ms rs (k.ran as) :=
  h.ran fun a ha => by
    rcases has a ha with rfl | hm
    · simp [h.ctl]
    · exact h.live (.inl hm)

theorem complete (h : GoodFor ms rs k) (i : Nat) : GoodFor ms rs (k.step (.complete i)) := by
  simp only [step]
  rcases ho : k.owed[i]? with _ | a
  · exact h
  · have ha := h.owed a (List.mem_of_getElem? ho)
    have hk : GoodFor ms rs { k with owed := k.owed.eraseIdx i } :=
      { h with owed := fun b hb => h.owed b (List.mem_of_mem_eraseIdx hb) }
    refine hk.ran fun b hb => ?_
    rw [List.mem_singleton.mp hb]
    exact h.live ha

end GoodFor

/-! ### Every step -/

/-- With the processors of the connectors. -/
def Good (k : Procs) : Prop := GoodFor k.mcps k.rots k

theorem runProcessor_connectorList (k : Procs) (cb : Callback ProcessorFn) (p : List UInt8) :
    (k.runProcessor cb p).connectorList = k.connectorList := by
  unfold runProcessor
  dsimp only
  split <;> rfl

theorem runProcessors_connectorList (cbs : List (Callback ProcessorFn)) :
    ∀ (p : List UInt8) (k : Procs), (runProcessors cbs p k).connectorList = k.connectorList := by
  induction cbs with
  | nil => exact fun _ _ => rfl
  | cons cb cbs ih => exact fun p k => (ih [] _).trans (k.runProcessor_connectorList cb p)

theorem complete_connectorList (k : Procs) (i : Nat) :
    (k.step (.complete i)).connectorList = k.connectorList := by
  simp only [step]
  split <;> rfl

/-- The processors are those of the list of connectors. -/
theorem GoodFor.good {k' : Procs} (h : GoodFor k.mcps k.rots k') (hl : k'.connectorList = k.connectorList) :
    k'.Good := by
  unfold Good mcps rots
  rw [hl]
  exact h

theorem Good.addCon (h : k.Good) (ch : Channel) (id : Int) : (k.addCon ch id).Good := by
  by_cases hm : ch = .mcp
  · subst hm
    have h' := GoodFor.mcpCreate h
    have hl : (k.mcpCreate.mhrAddProcessorCb .mcpCb .mcp k.brk).connectorList = k.connectorList := by
      rw [GoodFor.mcpCreate_eq]
    have hms : (k.addCon .mcp id).mcps = k.mcps ++ [k.brk] := by
      simp [Procs.addCon, mcps, hl]
    have hrs : (k.addCon .mcp id).rots = k.rots := by
      simp [Procs.addCon, rots, hl]
    unfold Good
    rw [hms, hrs]
    exact { h' with }
  · by_cases hr : ch = .rotator
    · subst hr
      have h' := GoodFor.rotCreate h
      have hms : (k.addCon .rotator id).mcps = k.mcps := by
        simp [Procs.addCon, mcps, rotCreate, mhrAddProcessorCb]
      have hrs : (k.addCon .rotator id).rots = k.rots ++ [k.brk] := by
        simp [Procs.addCon, rots, rotCreate, mhrAddProcessorCb]
      unfold Good
      rw [hms, hrs]
      exact { h' with }
    · have hms : (k.addCon ch id).mcps = k.mcps := by simp [Procs.addCon, mcps, hm, hr]
      have hrs : (k.addCon ch id).rots = k.rots := by simp [Procs.addCon, rots, hm, hr]
      unfold Good
      rw [hms, hrs]
      simp only [Procs.addCon, hm, hr, if_false]
      exact { h with }

theorem Good.createCon (h : k.Good) (ch : Channel) (id : Int) (starts : Bool) :
    (k.conmgrCreateConCfg ch id starts).Good := by
  have hcnt : ∀ n, Good { k with idCnt := n } := fun n => { h with }
  unfold conmgrCreateConCfg
  dsimp only
  split_ifs
  · exact h
  · exact hcnt _
  · exact (hcnt _).addCon ch id
  · exact (hcnt _).addCon ch _

/-- Removing the entry found takes its value out of the list of values. -/
theorem filterMap_eraseP {α : Type} {f : α → Option Nat} {p : α → Bool} {l : List α} {c : α}
    (hc : l.find? p = some c) (hn : (l.filterMap f).Nodup) :
    (l.eraseP p).filterMap f = (f c).elim (l.filterMap f) (l.filterMap f).erase := by
  obtain ⟨hp, as, bs, rfl, has⟩ := List.find?_eq_some_iff_append.mp hc
  have herase : (as ++ c :: bs).eraseP p = as ++ bs := by
    rw [List.eraseP_append_right _ (by simpa using has), List.eraseP_cons_of_pos hp]
  rw [herase]
  cases hf : f c with
  | none => simp [hf]
  | some a =>
    have ha : a ∉ as.filterMap f := by
      intro ha
      simp only [List.filterMap_append, List.filterMap_cons, hf] at hn
      exact (List.nodup_append.mp hn).2.2 a ha a List.mem_cons_self rfl
    simp [hf, List.erase_append_right _ ha]

theorem mcps_erase {id : Int} {c : ProcCon} (h : k.Good) (hc : k.connectorList.find? (·.id == id) = some c) :
    (k.conmgrDestroyCon id).mcps = c.mcp.elim k.mcps k.mcps.erase := by
  simp only [conmgrDestroyCon, hc]
  exact filterMap_eraseP (f := ProcCon.mcp) hc h.mcpNodup

theorem rots_erase {id : Int} {c : ProcCon} (h : k.Good) (hc : k.connectorList.find? (·.id == id) = some c) :
    (k.conmgrDestroyCon id).rots = c.rot.elim k.rots k.rots.erase := by
  simp only [conmgrDestroyCon, hc]
  exact filterMap_eraseP (f := ProcCon.rot) hc h.rotNodup

theorem owed_destroyMcp (k : Procs) (o : Option Nat) : (k.destroyMcp o).owed = k.owed := by
  cases o with
  | none => rfl
  | some a =>
    simp only [destroyMcp, mcpDestroy]
    split <;> rfl

theorem GoodFor.destroyMcp (h : GoodFor ms rs k) {o : Option Nat} (ho : ∀ a, o = some a → k.Oldest ms a) :
    GoodFor (o.elim ms ms.erase) rs (k.destroyMcp o) := by
  cases o with
  | none => exact h
  | some a =>
    obtain ⟨hhead, hidle⟩ := ho a rfl
    obtain ⟨ms', rfl⟩ := List.head?_eq_some_iff.mp hhead
    simpa [Procs.destroyMcp] using h.mcpDestroy hidle

theorem GoodFor.destroyRot (h : GoodFor ms rs k) {o : Option Nat} (ho : ∀ a, o = some a → k.Oldest rs a) :
    GoodFor ms (o.elim rs rs.erase) (k.destroyRot o) := by
  cases o with
  | none => exact h
  | some a =>
    obtain ⟨hhead, hidle⟩ := ho a rfl
    obtain ⟨rs', rfl⟩ := List.head?_eq_some_iff.mp hhead
    simpa [Procs.destroyRot] using h.rotDestroy hidle

theorem Good.destroyCon (h : k.Good) (id : Int) (hok : k.Removable (.destroyCon id)) :
    (k.conmgrDestroyCon id).Good := by
  rcases hc : k.connectorList.find? (·.id == id) with _ | c
  · have hk : k.conmgrDestroyCon id = k := by simp [conmgrDestroyCon, hc]
    rwa [hk]
  · obtain ⟨hmcp, hrot⟩ := hok c hc
    unfold Good
    rw [mcps_erase h hc, rots_erase h hc]
    have hm := GoodFor.destroyMcp h hmcp
    have hr := hm.destroyRot (o := c.rot) fun a ha => by
      simpa only [Oldest, owed_destroyMcp] using hrot a ha
    simp only [conmgrDestroyCon, hc]
    exact { hr with }

theorem Good.step (h : k.Good) (e : ProcEv) (hok : k.Removable e) : (k.step e).Good := by
  cases e with
  | createCon ch id starts => exact h.createCon ch id starts
  | destroyCon id => exact h.destroyCon id hok
  | clientBytes ch p =>
    exact (GoodFor.runProcessors _ p k h (GoodFor.entry h ch)).good (runProcessors_connectorList _ p k)
  | flags =>
    refine GoodFor.report h fun a ha => ?_
    rw [h.flags] at ha
    split_ifs at ha
    · simp at ha
      exact ha
    · exact absurd ha List.not_mem_nil
  | mokState => exact GoodFor.report h fun a ha => .inr (h.mok ▸ ha)
  | accState => exact GoodFor.report h fun a ha => .inr (h.acc ▸ ha)
  | keyerMode => exact GoodFor.report h fun a ha => .inr (h.mode ▸ ha)
  | setOnline online => exact { h with }
  | complete i => exact (GoodFor.complete h i).good (k.complete_connectorList i)

/-! ### What a removal that is not covered breaks -/

theorem destroyMcp_heap (h : GoodFor ms rs k) (ha : a ∈ ms) (b : Nat) :
    (k.destroyMcp (some a)).heap b = if b = a then none else k.heap b := by
  obtain ⟨m, hm⟩ := (h.mcpLive a).mpr ha
  simp [destroyMcp, mcpDestroy, mhrRemProcessorCb, hm, mhrRemConsumerCb, Function.update_apply]

theorem destroyMcp_processorCbs (h : GoodFor ms rs k) (ha : a ∈ ms) :
    (k.destroyMcp (some a)).processorCbs = upd k.processorCbs .mcp (ms.tail.map (⟨.mcpCb, ·⟩)) := by
  obtain ⟨m, hm⟩ := (h.mcpLive a).mpr ha
  have herase : (ms.map fun a => (⟨.mcpCb, a⟩ : Callback ProcessorFn)).eraseP (·.callback == .mcpCb) =
      ms.tail.map (⟨.mcpCb, ·⟩) := by
    cases ms <;> simp
  simp [destroyMcp, mcpDestroy, mhrRemProcessorCb, hm, mhrRemConsumerCb, h.mcp, herase]

/-- A list that loses its head and one that loses `a` agree only where `a` is the head. -/
theorem head?_of_tail_eq_erase {l : List Nat} (hn : l.Nodup) (ha : a ∈ l) (heq : l.tail = l.erase a) :
    l.head? = some a := by
  cases l with
  | nil => exact absurd ha List.not_mem_nil
  | cons b l =>
    rcases eq_or_ne b a with rfl | hne
    · rfl
    · have hb : b ∈ l := by
        have heq : l = b :: l.erase a := by simpa [hne] using heq
        rw [heq]
        exact List.mem_cons_self
      exact absurd hb (List.nodup_cons.mp hn).1

/-- A completion that is owed to freed data will run with it. -/
theorem Safe.not_owed (h : k.Safe) (hfree : k.heap a = none) : a ∉ k.owed := by
  intro ha
  obtain ⟨i, hi⟩ := List.mem_iff_getElem?.mp ha
  have hlog : (⟨a, false⟩ : Ran) ∈ (k.step (.complete i)).log := by
    simp [step, hi, ran, hfree]
  simpa using (h.2 i).alive _ hlog

theorem map_callback_inj {φ : Type} {f : φ} {l l' : List Nat}
    (h : l.map (fun a => (⟨f, a⟩ : Callback φ)) = l'.map (⟨f, ·⟩)) : l = l' := by
  have h := congrArg (List.map Callback.userData) h
  simpa [Function.comp_def] using h

theorem Good.removable (h : k.Good) {id : Int} (hs : (k.conmgrDestroyCon id).Safe) :
    k.Removable (.destroyCon id) := by
  intro c hc
  have hmem := List.mem_of_find?_eq_some hc
  have hms := mcps_erase h hc
  have hrs := rots_erase h hc
  have hreg := hs.1
  constructor
  · intro a ha
    have ham : a ∈ k.mcps := List.mem_filterMap.mpr ⟨c, hmem, ha⟩
    rw [ha] at hms
    constructor
    · refine head?_of_tail_eq_erase h.mcpNodup ham ?_
      have hcbs := hreg.mcp
      rw [hms] at hcbs
      refine map_callback_inj (f := ProcessorFn.mcpCb) (Eq.trans ?_ hcbs)
      simp only [conmgrDestroyCon, hc, ha]
      cases c.rot <;> simp [destroyRot, mhrRemProcessorCb, rotDestroy, destroyMcp_processorCbs h ham, upd]
    · have hfree : (k.conmgrDestroyCon id).heap a = none := by
        simp only [conmgrDestroyCon, hc, ha]
        cases c.rot <;>
          simp [destroyRot, mhrRemProcessorCb, rotDestroy, destroyMcp_heap h ham, Function.update_apply]
      have hidle := hs.not_owed hfree
      simp only [conmgrDestroyCon, hc] at hidle
      cases hr : c.rot <;> simpa [hr, destroyRot, mhrRemProcessorCb, rotDestroy, owed_destroyMcp] using hidle
  · intro a ha
    have har : a ∈ k.rots := List.mem_filterMap.mpr ⟨c, hmem, ha⟩
    rw [ha] at hrs
    have hrot : (k.destroyMcp c.mcp).processorCbs .rotator = k.rots.map (⟨.rotCb, ·⟩) := by
      cases hm : c.mcp with
      | none => exact h.rot
      | some b =>
        rw [destroyMcp_processorCbs h (List.mem_filterMap.mpr ⟨c, hmem, hm⟩)]
        exact h.rot
    constructor
    · refine head?_of_tail_eq_erase h.rotNodup har ?_
      have hcbs := hreg.rot
      rw [hrs] at hcbs
      refine map_callback_inj (f := ProcessorFn.rotCb) (Eq.trans ?_ hcbs)
      simp only [conmgrDestroyCon, hc, ha, destroyRot, mhrRemProcessorCb, rotDestroy, upd_self, hrot]
      cases k.rots <;> simp
    · have hfree : (k.conmgrDestroyCon id).heap a = none := by
        simp [conmgrDestroyCon, hc, ha, destroyRot, rotDestroy]
      have hidle := hs.not_owed hfree
      simp only [conmgrDestroyCon, hc] at hidle
      simpa [ha, destroyRot, mhrRemProcessorCb, rotDestroy, owed_destroyMcp] using hidle

theorem Good.safe (h : k.Good) : k.Safe :=
  ⟨h.toRegisteredFor, fun i => ((GoodFor.complete h i).good (k.complete_connectorList i)).toRegisteredFor⟩

theorem Good.step_iff (h : k.Good) (e : ProcEv) : (k.step e).Safe ↔ k.Removable e := by
  refine ⟨fun hs => ?_, fun hok => (h.step e hok).safe⟩
  cases e with
  | destroyCon id => exact h.removable hs
  | _ => trivial

/-- Whatever connectors come and go, and whatever reports, bytes and completions there are between: in every
state so far, and with whichever completion is next, the callbacks are those of the processors there are, if
and only if each connector that went had the oldest processor of its kind, with no completion to come. -/
theorem callbacks_registered (hasFlagsChannel : Bool) (evs : List ProcEv) :
    (∀ l, l <+: evs → (Run.run step (init hasFlagsChannel) l).Safe) ↔
      Run.StepsOk step Removable (init hasFlagsChannel) evs := by
  have hgood : (init hasFlagsChannel).Good := GoodFor.init hasFlagsChannel
  -- What a wrong removal breaks is broken at once, so where every state is safe every state is a good one.
  refine Run.forall_prefix_iff (I := fun k => k.Safe → k.Good) (P := Safe) (fun k e hI hs => ?_)
    (fun _ => hgood) hgood.safe evs
  have hiff := (hI hs).step_iff e
  exact ⟨fun hs' => (hI hs).step e (hiff.mp hs'), hiff⟩

/-- Two MCP connectors, of which the second goes: its processor stays registered, and runs. -/
def secondGoes : List ProcEv :=
  [.createCon .mcp 0 true, .createCon .mcp 0 true, .destroyCon 2, .clientBytes .mcp [0x56, 0x0d]]

theorem callbacks_not_registered :
    ¬ (Run.run step (init true) secondGoes).Registered ∧
      (Run.run step (init true) secondGoes).log = [⟨5, false⟩] := by
  have hlog : (Run.run step (init true) secondGoes).log = [⟨5, false⟩] := by decide +kernel
  refine ⟨fun h => ?_, hlog⟩
  have := h.alive ⟨5, false⟩ (by rw [hlog]; exact List.mem_cons_self)
  exact absurd this (by decide)

end Procs

end Mhuxd
