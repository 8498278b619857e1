import Mhuxd.Lib.Run

/-!
# Supervision of rigctld (`rigctld_proc.c`)

A `rigctld_proc` keeps a rigctld running while its keyer is online. A child that exits is respawned by a timer, with a
delay that doubles each time.

What the system calls of a spawn do is part of the event. `untold` (the children that were neither told to terminate nor
reaped) and `waits` (the delays the timer was started with) are read by no function. The child's log is left out.
-/

namespace Mhuxd

def RIGPR_RESPAWN_INITIAL_MS : Nat := 100
def RIGPR_RESPAWN_MAX_MS : Nat := 60000

/-- In microseconds, as all times here. -/
def RIGPR_STABLE_S : Int := 10 * 1000000

/-- `MHC_KEYER_STATE_*`. -/
inductive KeyerState
  | unknown | disabled | offline | disc | online
deriving DecidableEq

/-- A child as the system knows it: when it was forked, and whether it got through `execvp`. -/
structure RigctldChild where
  pid : Nat
  start : Int
  executed : Bool
deriving DecidableEq

/-- What happens in `rigpr_spawn`. The errno of a child that fails before or in `execvp` is read from the pipe. -/
inductive SpawnRes
  | logPipeFailed
  | errPipeFailed
  | forkFailed
  | forked (pid : Nat) (errno : Option ℕ+)

/-- `struct rigctld_proc`, with the loop's time. `childWatcher` is the process it watches, `respawnTimer` the delay of the
timer that is active. -/
structure RigctldProc where
  serial : String
  running : Bool
  childPid : Option Nat
  childStart : Int
  childWatcher : Option Nat
  respawnTimer : Option Nat
  respawnFails : Nat
  respawnDelayMs : Nat
  execErrno : Nat
  now : Int
  destroyed : Bool
  untold : List RigctldChild
  waits : List Nat

inductive RigprEv
  | keyerState (serial : Option String) (state : KeyerState) (res : SpawnRes)
  | childExit (pid : Nat)
  | respawn (res : SpawnRes)
  | time (now : Int)
  | destroy

namespace RigctldProc

/-- `rigpr_schedule_respawn`. -/
def rigprScheduleRespawn (proc : RigctldProc) : RigctldProc :=
  let delay := proc.respawnDelayMs <<< 1
  { proc with
    respawnTimer := some proc.respawnDelayMs
    waits := proc.waits ++ [proc.respawnDelayMs]
    respawnFails := proc.respawnFails + 1
    respawnDelayMs := if RIGPR_RESPAWN_MAX_MS < delay then RIGPR_RESPAWN_MAX_MS else delay }

/-- `rigpr_child_cb`. -/
def rigprChildCb (proc : RigctldProc) : RigctldProc :=
  let proc := { proc with childWatcher := none, childPid := none }
  if proc.running = false then proc
  else if proc.execErrno = 0 ∧ RIGPR_STABLE_S ≤ proc.now - proc.childStart then
    { proc with respawnFails := 0, respawnDelayMs := RIGPR_RESPAWN_INITIAL_MS }.rigprScheduleRespawn
  else proc.rigprScheduleRespawn

/-- `rigpr_spawn`, and whether it returned 0. -/
def rigprSpawn (proc : RigctldProc) (res : SpawnRes) : RigctldProc × Bool :=
  if proc.childPid.isSome then (proc, true)
  else
    match res with
    | .logPipeFailed | .errPipeFailed | .forkFailed => (proc, false)
    | .forked pid errno =>
      ({ proc with
          execErrno := errno.elim 0 PNat.val
          childPid := some pid
          childStart := proc.now
          childWatcher := some pid
          untold := ⟨pid, proc.now, errno.isNone⟩ :: proc.untold }, true)

/-- A spawn that fails is tried again later. -/
def spawnOrSchedule (proc : RigctldProc) (res : SpawnRes) : RigctldProc :=
  match proc.rigprSpawn res with
  | (proc, true) => proc
  | (proc, false) => proc.rigprScheduleRespawn

/-- `rigpr_respawn_cb`. -/
def rigprRespawnCb (proc : RigctldProc) (res : SpawnRes) : RigctldProc :=
  if proc.running = false then proc else proc.spawnOrSchedule res

/-- `rigpr_kill`. -/
def rigprKill (proc : RigctldProc) : RigctldProc :=
  match proc.childPid with
  | none => proc
  | some pid => { proc with childWatcher := none, childPid := none, untold := proc.untold.filter (·.pid ≠ pid) }

/-- `rigpr_start`. -/
def rigprStart (proc : RigctldProc) (res : SpawnRes) : RigctldProc :=
  if proc.running then proc
  else
    { proc with
      running := true
      respawnFails := 0
      respawnDelayMs := RIGPR_RESPAWN_INITIAL_MS
      execErrno := 0 }.spawnOrSchedule res

/-- `rigpr_stop`. -/
def rigprStop (proc : RigctldProc) : RigctldProc :=
  if proc.running = false then proc else { proc with running := false, respawnTimer := none }.rigprKill

/-- `rigpr_keyer_state_changed_cb`. -/
def rigprKeyerStateChangedCb (proc : RigctldProc) (serial : Option String) (state : KeyerState) (res : SpawnRes) :
    RigctldProc :=
  if serial.any (· ≠ proc.serial) then proc
  else if state = .online then proc.rigprStart res
  else proc.rigprStop

/-- `rigctld_proc_create`. -/
def rigctldProcCreate (serial : String) (online : Bool) (now : Int) (res : SpawnRes) : RigctldProc :=
  let proc : RigctldProc :=
    { serial := serial, running := false, childPid := none, childStart := 0, childWatcher := none, respawnTimer := none,
      respawnFails := 0, respawnDelayMs := RIGPR_RESPAWN_INITIAL_MS, execErrno := 0, now := now, destroyed := false,
      untold := [], waits := [] }
  if online then proc.rigprStart res else proc

/-- `rigctld_proc_destroy`. -/
def rigctldProcDestroy (proc : RigctldProc) : RigctldProc := { proc.rigprStop with destroyed := true }

/-- A child is reaped; its watcher is called back if there is one. -/
def childExit (proc : RigctldProc) (pid : Nat) : RigctldProc :=
  let proc := { proc with untold := proc.untold.filter (·.pid ≠ pid) }
  if proc.childWatcher = some pid then proc.rigprChildCb else proc

/-- The timer doesn't repeat: it isn't active any more when it calls back. -/
def respawn (proc : RigctldProc) (res : SpawnRes) : RigctldProc :=
  if proc.respawnTimer.isSome then { proc with respawnTimer := none }.rigprRespawnCb res else proc

def step (proc : RigctldProc) (e : RigprEv) : RigctldProc :=
  if proc.destroyed then proc
  else
    match e with
    | .keyerState serial state res => proc.rigprKeyerStateChangedCb serial state res
    | .childExit pid => proc.childExit pid
    | .respawn res => proc.respawn res
    | .time now => { proc with now := now }
    | .destroy => proc.rigctldProcDestroy

variable {proc : RigctldProc}

/-! ### The invariant -/

/-- The child of a `rigctld_proc`, as its fields say. -/
def child (proc : RigctldProc) : Option RigctldChild :=
  proc.childPid.map fun pid => ⟨pid, proc.childStart, proc.execErrno = 0⟩

/-- A process that is wanted has a child that is watched or a timer, never both, one that isn't has neither; no other
child was left untold. -/
structure Supervised (proc : RigctldProc) : Prop where
  watched : proc.childWatcher = proc.childPid
  one : proc.untold = proc.child.toList
  wanted : proc.running = true → proc.childPid.isSome = !proc.respawnTimer.isSome
  unwanted : proc.running = false → proc.childPid = none ∧ proc.respawnTimer = none
  delay : RIGPR_RESPAWN_INITIAL_MS ≤ proc.respawnDelayMs ∧ proc.respawnDelayMs ≤ RIGPR_RESPAWN_MAX_MS
  waits : ∀ ms ∈ proc.waits, RIGPR_RESPAWN_INITIAL_MS ≤ ms ∧ ms ≤ RIGPR_RESPAWN_MAX_MS
  timer : ∀ ms ∈ proc.respawnTimer, ms ∈ proc.waits
  gone : proc.destroyed = true → proc.running = false

/-- Neither a child nor a timer: where a spawn starts. -/
structure Idle (proc : RigctldProc) : Prop where
  child : proc.childPid = none
  watcher : proc.childWatcher = none
  timer : proc.respawnTimer = none
  untold : proc.untold = []
  delay : RIGPR_RESPAWN_INITIAL_MS ≤ proc.respawnDelayMs ∧ proc.respawnDelayMs ≤ RIGPR_RESPAWN_MAX_MS
  waits : ∀ ms ∈ proc.waits, RIGPR_RESPAWN_INITIAL_MS ≤ ms ∧ ms ≤ RIGPR_RESPAWN_MAX_MS

theorem initial_le_max : RIGPR_RESPAWN_INITIAL_MS ≤ RIGPR_RESPAWN_MAX_MS := by decide

theorem rigprScheduleRespawn_delay : (proc.rigprScheduleRespawn).respawnDelayMs =
    min (2 * proc.respawnDelayMs) RIGPR_RESPAWN_MAX_MS := by
  simp only [rigprScheduleRespawn, Nat.shiftLeft_eq]
  split_ifs <;> omega

theorem Idle.schedule (h : proc.Idle) (hrun : proc.running = true) (halive : proc.destroyed = false) :
    proc.rigprScheduleRespawn.Supervised where
  watched := h.watcher.trans h.child.symm
  one := by simpa [RigctldProc.child, rigprScheduleRespawn, h.child] using h.untold
  wanted _ := by simp [rigprScheduleRespawn, h.child]
  unwanted hno := absurd (hrun.symm.trans hno) Bool.noConfusion
  delay := by
    have := h.delay
    have := initial_le_max
    rw [rigprScheduleRespawn_delay]
    omega
  waits ms hms := by
    rcases List.mem_append.1 hms with hms | hms
    · exact h.waits ms hms
    · rw [List.mem_singleton.1 hms]
      exact h.delay
  timer ms hms := by simpa [rigprScheduleRespawn] using Or.inr hms.symm
  gone hd := absurd (halive.symm.trans hd) Bool.noConfusion

/-- A spawn forks a child, or the timer is started for the next one. -/
theorem spawnOrSchedule_eq (h : proc.childPid = none) (res : SpawnRes) :
    proc.spawnOrSchedule res = proc.rigprScheduleRespawn ∨ ∃ pid errno, proc.spawnOrSchedule res =
      { proc with
        execErrno := Option.elim errno 0 PNat.val
        childPid := some pid
        childStart := proc.now
        childWatcher := some pid
        untold := ⟨pid, proc.now, Option.isNone errno⟩ :: proc.untold } := by
  cases res with
  | forked pid errno => exact .inr ⟨pid, errno, by simp [spawnOrSchedule, rigprSpawn, h]⟩
  | _ => exact .inl (by simp [spawnOrSchedule, rigprSpawn, h])

theorem Idle.spawn (h : proc.Idle) (hrun : proc.running = true) (halive : proc.destroyed = false) (res : SpawnRes) :
    (proc.spawnOrSchedule res).Supervised := by
  rcases spawnOrSchedule_eq h.child res with heq | ⟨pid, errno, heq⟩ <;> rw [heq]
  · exact h.schedule hrun halive
  · exact {
      watched := rfl
      one := by rcases errno with _ | errno <;> simp [RigctldProc.child, h.untold]
      wanted := fun _ => by simp [h.timer]
      unwanted := fun hno => absurd (hrun.symm.trans hno) Bool.noConfusion
      delay := h.delay
      waits := h.waits
      timer := fun ms hms => by simp [h.timer] at hms
      gone := fun hd => absurd (halive.symm.trans hd) Bool.noConfusion }

/-- Without a child a process that isn't wanted is idle. -/
theorem Supervised.idle (h : proc.Supervised) (hchild : proc.childPid = none) (htimer : proc.respawnTimer = none) :
    proc.Idle where
  child := hchild
  watcher := h.watched.trans hchild
  timer := htimer
  untold := by simpa [RigctldProc.child, hchild] using h.one
  delay := h.delay
  waits := h.waits

theorem Idle.unwanted (h : proc.Idle) (hrun : proc.running = false) : proc.Supervised where
  watched := h.watcher.trans h.child.symm
  one := by simpa [RigctldProc.child, h.child] using h.untold
  wanted hyes := absurd (hrun.symm.trans hyes) Bool.noConfusion
  unwanted _ := ⟨h.child, h.timer⟩
  delay := h.delay
  waits := h.waits
  timer ms hms := by simp [h.timer] at hms
  gone _ := hrun

/-- The only child that is left untold is told, or reaped. -/
theorem Supervised.forgotten (h : proc.Supervised) {pid : Nat} (hpid : proc.childPid = some pid) :
    proc.untold.filter (·.pid ≠ pid) = [] := by
  simp [h.one, RigctldProc.child, hpid]

theorem Supervised.kept (h : proc.Supervised) {pid : Nat} (hpid : proc.childPid ≠ some pid) :
    proc.untold.filter (·.pid ≠ pid) = proc.untold := by
  rw [List.filter_eq_self]
  intro c hc
  rw [h.one, RigctldProc.child] at hc
  rcases hp : proc.childPid with _ | p
  · simp [hp] at hc
  · rw [hp] at hc hpid
    simp only [Option.map_some, Option.toList_some, List.mem_singleton] at hc
    rw [hc]
    simpa using hpid

/-! ### Steps -/

theorem Supervised.start (h : proc.Supervised) (halive : proc.destroyed = false) (res : SpawnRes) :
    (proc.rigprStart res).Supervised := by
  unfold rigprStart
  split_ifs with hrun
  · exact h
  · obtain ⟨hchild, htimer⟩ := h.unwanted (Bool.eq_false_iff.2 hrun)
    have hidle := h.idle hchild htimer
    apply Idle.spawn
    · exact { hidle with delay := ⟨le_rfl, initial_le_max⟩ }
    · rfl
    · exact halive

theorem Supervised.stop (h : proc.Supervised) : proc.rigprStop.Supervised ∧ proc.rigprStop.running = false := by
  unfold rigprStop
  split_ifs with hrun
  · exact ⟨h, hrun⟩
  · unfold rigprKill
    dsimp only
    split
    · next hpid =>
      have hidle : ({ proc with running := false, respawnTimer := none } : RigctldProc).Idle :=
        { child := hpid, watcher := h.watched.trans hpid, timer := rfl, delay := h.delay, waits := h.waits
          untold := by simpa [child, hpid] using h.one }
      exact ⟨hidle.unwanted rfl, rfl⟩
    · next pid hpid =>
      refine ⟨Idle.unwanted ?_ rfl, rfl⟩
      exact { child := rfl, watcher := rfl, timer := rfl, untold := h.forgotten hpid, delay := h.delay, waits := h.waits }

theorem Supervised.childExit (h : proc.Supervised) (halive : proc.destroyed = false) (pid : Nat) :
    (proc.childExit pid).Supervised := by
  unfold RigctldProc.childExit
  dsimp only
  split_ifs with hw
  · have hpid : proc.childPid = some pid := h.watched.symm.trans hw
    have hun := h.forgotten hpid
    unfold rigprChildCb
    dsimp only
    have hidle (htimer : proc.respawnTimer = none) : ({ proc with
        untold := proc.untold.filter (·.pid ≠ pid), childWatcher := none, childPid := none } : RigctldProc).Idle :=
      { child := rfl, watcher := rfl, timer := htimer, untold := hun, delay := h.delay, waits := h.waits }
    split_ifs with hrun hstable
    · exact (hidle (h.unwanted hrun).2).unwanted hrun
    all_goals
      have hrun := Bool.eq_true_of_not_eq_false hrun
      have htimer : proc.respawnTimer = none := by
        have := h.wanted hrun
        simpa [hpid] using this
      refine Idle.schedule ?_ hrun halive
    · exact { hidle htimer with delay := ⟨le_rfl, initial_le_max⟩ }
    · exact hidle htimer
  · have hkept : proc.untold.filter (·.pid ≠ pid) = proc.untold := h.kept (by rwa [← h.watched])
    rw [hkept]
    exact h

theorem Supervised.respawn (h : proc.Supervised) (halive : proc.destroyed = false) (res : SpawnRes) :
    (proc.respawn res).Supervised := by
  unfold RigctldProc.respawn
  split_ifs with htimer
  · unfold rigprRespawnCb
    dsimp only
    split_ifs with hrun
    · simp [(h.unwanted hrun).2] at htimer
    · have hrun := Bool.eq_true_of_not_eq_false hrun
      have hchild : proc.childPid = none := by
        have := h.wanted hrun
        simpa [htimer] using this
      have hidle : ({ proc with respawnTimer := none } : RigctldProc).Idle :=
        { child := hchild, watcher := h.watched.trans hchild, timer := rfl, delay := h.delay, waits := h.waits
          untold := by simpa [child, hchild] using h.one }
      exact hidle.spawn hrun halive res
  · exact h

theorem Supervised.step (h : proc.Supervised) (e : RigprEv) : (proc.step e).Supervised := by
  unfold RigctldProc.step
  split_ifs with hgone
  · exact h
  · have halive := Bool.eq_false_iff.2 hgone
    cases e with
    | keyerState serial state res =>
      dsimp only
      unfold rigprKeyerStateChangedCb
      split_ifs
      · exact h
      · exact h.start halive res
      · exact h.stop.1
    | childExit pid => exact h.childExit halive pid
    | respawn res => exact h.respawn halive res
    | time now => exact { h with }
    | destroy => exact { h.stop.1 with gone := fun _ => h.stop.2 }

/-! ### The delay -/

/-- Nothing is waited for, or the delay is, and doubled for the next time. -/
def Paced (proc proc' : RigctldProc) : Prop :=
  proc'.waits = proc.waits ∧ proc'.respawnDelayMs = proc.respawnDelayMs ∨
    proc'.waits = proc.waits ++ [proc.respawnDelayMs] ∧
      proc'.respawnDelayMs = min (2 * proc.respawnDelayMs) RIGPR_RESPAWN_MAX_MS

def rewound (proc : RigctldProc) : RigctldProc := { proc with respawnDelayMs := RIGPR_RESPAWN_INITIAL_MS }

/-- A start, or the exit of a child that executed and ran for the stable time. -/
def Resets (proc : RigctldProc) (e : RigprEv) : Prop :=
  proc.running = false ∧ (proc.step e).running = true ∨
    ∃ c ∈ proc.untold, e = .childExit c.pid ∧ c.executed = true ∧ RIGPR_STABLE_S ≤ proc.now - c.start

/-- The delay goes on from where it was unless the step resets it. -/
def DelayLaw (proc : RigctldProc) (e : RigprEv) : Prop :=
  proc.Paced (proc.step e) ∨ proc.Resets e ∧ proc.rewound.Paced (proc.step e)

theorem paced_schedule (proc : RigctldProc) : proc.Paced proc.rigprScheduleRespawn :=
  .inr ⟨rfl, rigprScheduleRespawn_delay⟩

theorem paced_spawn (h : proc.childPid = none) (res : SpawnRes) : proc.Paced (proc.spawnOrSchedule res) := by
  rcases spawnOrSchedule_eq h res with heq | ⟨pid, errno, heq⟩ <;> rw [heq]
  · exact paced_schedule proc
  · exact .inl ⟨rfl, rfl⟩

theorem running_spawn (h : proc.childPid = none) (res : SpawnRes) : (proc.spawnOrSchedule res).running = proc.running := by
  rcases spawnOrSchedule_eq h res with heq | ⟨pid, errno, heq⟩ <;> rw [heq]
  rfl

theorem paced_stop (proc : RigctldProc) : proc.Paced proc.rigprStop := by
  unfold rigprStop rigprKill
  split_ifs
  · exact .inl ⟨rfl, rfl⟩
  · dsimp only
    split <;> exact .inl ⟨rfl, rfl⟩

theorem step_eq (halive : proc.destroyed = false) (e : RigprEv) : proc.step e = match e with
    | .keyerState serial state res => proc.rigprKeyerStateChangedCb serial state res
    | .childExit pid => proc.childExit pid
    | .respawn res => proc.respawn res
    | .time now => { proc with now := now }
    | .destroy => proc.rigctldProcDestroy := by
  unfold RigctldProc.step
  rw [halive]
  rfl

theorem Supervised.delayLaw_start (h : proc.Supervised) (halive : proc.destroyed = false) {serial : Option String}
    (hserial : ¬ serial.any (· ≠ proc.serial) = true) (res : SpawnRes) :
    proc.DelayLaw (.keyerState serial .online res) := by
  have hstep : proc.step (.keyerState serial .online res) = proc.rigprStart res := by
    rw [step_eq halive]
    dsimp only
    rw [rigprKeyerStateChangedCb, if_neg hserial, if_pos rfl]
  rcases hrun : proc.running with _ | _
  · obtain ⟨hchild, -⟩ := h.unwanted hrun
    obtain ⟨fresh, hfresh⟩ : ∃ fresh : RigctldProc, fresh = { proc with
        running := true, respawnFails := 0, respawnDelayMs := RIGPR_RESPAWN_INITIAL_MS, execErrno := 0 } := ⟨_, rfl⟩
    have hnone : fresh.childPid = none := by rw [hfresh]; exact hchild
    have hstart : proc.rigprStart res = fresh.spawnOrSchedule res := by
      rw [rigprStart, hrun, hfresh]
      rfl
    refine .inr ⟨.inl ⟨hrun, ?_⟩, ?_⟩ <;> rw [hstep, hstart]
    · rw [running_spawn hnone, hfresh]
    · have hpaced := paced_spawn hnone res
      rw [Paced, hfresh] at hpaced
      rw [hfresh]
      exact hpaced
  · refine .inl (.inl ?_)
    rw [hstep, rigprStart, if_pos hrun]
    exact ⟨rfl, rfl⟩

theorem Supervised.delayLaw_childExit (h : proc.Supervised) (halive : proc.destroyed = false) (pid : Nat) :
    proc.DelayLaw (.childExit pid) := by
  have hstep : proc.step (.childExit pid) = proc.childExit pid := step_eq halive _
  rw [DelayLaw, hstep, RigctldProc.childExit]
  dsimp only
  split_ifs with hw
  · unfold rigprChildCb
    dsimp only
    split_ifs with hrun hstable
    · exact .inl (.inl ⟨rfl, rfl⟩)
    · refine .inr ⟨.inr ?_, ?_⟩
      · have hpid : proc.childPid = some pid := h.watched.symm.trans hw
        refine ⟨⟨pid, proc.childStart, proc.execErrno = 0⟩, ?_, rfl, decide_eq_true hstable.1, hstable.2⟩
        simp [h.one, child, hpid]
      · exact paced_schedule { proc with untold := proc.untold.filter (·.pid ≠ pid), childWatcher := none, childPid := none
                                         respawnFails := 0, respawnDelayMs := RIGPR_RESPAWN_INITIAL_MS }
    · exact .inl (paced_schedule { proc with
        untold := proc.untold.filter (·.pid ≠ pid), childWatcher := none, childPid := none })
  · exact .inl (.inl ⟨rfl, rfl⟩)

theorem Supervised.delayLaw_respawn (h : proc.Supervised) (halive : proc.destroyed = false) (res : SpawnRes) :
    proc.DelayLaw (.respawn res) := by
  have hstep : proc.step (.respawn res) = proc.respawn res := step_eq halive _
  refine .inl ?_
  rw [hstep, RigctldProc.respawn]
  split_ifs with htimer
  · unfold rigprRespawnCb
    dsimp only
    split_ifs with hrun
    · exact .inl ⟨rfl, rfl⟩
    · have hchild : proc.childPid = none := by
        have := h.wanted (Bool.eq_true_of_not_eq_false hrun)
        simpa [htimer] using this
      exact @paced_spawn { proc with respawnTimer := none } hchild res
  · exact .inl ⟨rfl, rfl⟩

theorem Supervised.delayLaw (h : proc.Supervised) (e : RigprEv) : proc.DelayLaw e := by
  by_cases hgone : proc.destroyed = true
  · refine .inl (.inl ?_)
    simp [RigctldProc.step, hgone]
  · have halive := Bool.eq_false_iff.2 hgone
    cases e with
    | keyerState serial state res =>
      by_cases hserial : serial.any (· ≠ proc.serial) = true
      · refine .inl (.inl ?_)
        rw [step_eq halive]
        dsimp only
        rw [rigprKeyerStateChangedCb, if_pos hserial]
        exact ⟨rfl, rfl⟩
      · by_cases hstate : state = .online
        · rw [hstate]
          exact h.delayLaw_start halive hserial res
        · refine .inl ?_
          rw [step_eq halive]
          dsimp only
          rw [rigprKeyerStateChangedCb, if_neg hserial, if_neg hstate]
          exact paced_stop proc
    | childExit pid => exact h.delayLaw_childExit halive pid
    | respawn res => exact h.delayLaw_respawn halive res
    | time now =>
      refine .inl (.inl ?_)
      rw [step_eq halive]
      exact ⟨rfl, rfl⟩
    | destroy =>
      refine .inl ?_
      rw [step_eq halive]
      exact paced_stop proc

/-- A rigctld is supervised over every order of events. -/
theorem rigctld_supervised (serial : String) (online : Bool) (now : Int) (res : SpawnRes) (evs : List RigprEv) :
    (Run.run RigctldProc.step (rigctldProcCreate serial online now res) evs).Supervised ∧
      ∀ e, (Run.run RigctldProc.step (rigctldProcCreate serial online now res) evs).DelayLaw e := by
  have hidle : (rigctldProcCreate serial false now res).Supervised := by
    refine Idle.unwanted ?_ rfl
    exact { child := rfl, watcher := rfl, timer := rfl, untold := rfl, delay := ⟨le_rfl, initial_le_max⟩
            waits := fun ms hms => by cases hms }
  have hcreated : (rigctldProcCreate serial online now res).Supervised := by
    cases online with
    | false => exact hidle
    | true => exact hidle.start rfl res
  have hrun := Run.run_inv (fun proc e (h : proc.Supervised) => h.step e) hcreated evs
  exact ⟨hrun, hrun.delayLaw⟩

end RigctldProc

end Mhuxd
