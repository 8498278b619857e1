import Mhuxd.Initializer

/-!
# Online only when complete

The initialization is a chain: one completion of `initializer_cb` is outstanding at a time, and each runs the
next step. What breaks the chain is named by `Orderly`: a restart notice or a new connect in the middle is
ignored, a second chain starts while completions of the first are outstanding, the keyer disconnects inside
the loop of `sm_get_antsw`, settings change for a channel that has been passed. After channel 7 the settings
block is sent without waiting for the channel's answer, and two completions are outstanding from there on.
`Good` is what holds at each stage of the chain.
-/

namespace Mhuxd

namespace Initializer

/-- The commands with `initializer_cb` in the queue. -/
def queuedOf (l : List PendCmd) : List InitCmd := l.filterMap fun c => if c.cb =
    .initializer then some c.what else none

/-- The commands that were refused with `initializer_cb` to be called yet. -/
def refusedOf (d : List LateCmd) : List InitCmd := d.filterMap fun t => if t.cb =
    .initializer then some t.what else none

def queued (s : Initializer) : List InitCmd := queuedOf s.cmdList

def refused (s : Initializer) : List InitCmd := refusedOf s.deferred

/-- The commands whose completion by `initializer_cb` is outstanding. -/
def outstanding (s : Initializer) : List InitCmd := s.queued ++ s.refused

/-- The message takes the first command off the queue. -/
def completes (s : Initializer) (m : KeyerMsg) : Bool :=
  match s.cmdList with
  | c :: _ => c.sent && (decide (m = .answer) || decide (m = .notSupported))
  | [] => false

/-- The command is one of `initializer_step`. -/
def firstOwn (s : Initializer) : Bool :=
  match s.cmdList with
  | c :: _ => decide (c.cb = .initializer)
  | [] => false

/-- What stays outstanding when the message has taken its command. -/
def left (s : Initializer) (m : KeyerMsg) : List InitCmd :=
  queuedOf (if s.completes m then s.cmdList.tail else s.cmdList) ++ s.refused

/-- No valid channel has been passed and no settings block acknowledged: a restart makes no difference. -/
def Harmless (s : Initializer) : Prop :=
  match s.state with
  | .setChannels => ∀ channel < s.speedIdx - 1, s.speedParams channel = none
  | .loadCfg => ∀ channel < MH_NUM_CHANNELS, s.speedParams channel = none
  | .onConnect => False
  | _ => True

instance (s : Initializer) : Decidable s.Harmless := by
  unfold Harmless
  split <;> infer_instance

/-- The channel has not been passed, or its settings stay the same. -/
def Settable (s : Initializer) (channel : Nat) (cfg : SpeedCfg) : Prop :=
  match s.state with
  | .setChannels => s.speedIdx ≤ channel ∨ s.speedParams channel = some cfg
  | .loadCfg | .onConnect => s.speedParams channel = some cfg
  | _ => True

instance (s : Initializer) (channel : Nat) (cfg : SpeedCfg) : Decidable (s.Settable channel cfg) := by
  unfold Settable
  split <;> infer_instance

/-- A message that starts the initialization, in the state OFF or by a failure, finds nothing outstanding. -/
def StartOk (s : Initializer) (m : KeyerMsg) : Prop :=
  s.state = .off ∨ (m = .notSupported ∧ s.completes m ∧ s.firstOwn ∧ s.state ≠ .disc) → s.left m = []

/-- A restart notice comes when the keyer is online and nothing is outstanding, or makes no difference. -/
def RestartOk (s : Initializer) : Prop := if s.state = .ok then s.outstanding = [] else s.Harmless

/-- Where two completions may be outstanding, an answer comes after those of refused commands, and the loop of
`sm_get_antsw` is not entered with one left. -/
def AnswerOk (s : Initializer) : Prop :=
  (s.state = .loadCfg ∨ s.state = .onConnect → s.refused = []) ∧
    (s.state = .onConnect → s.sm ∧ ¬s.bandplan ∧ ¬s.antswPending → s.left .answer = [])

/-- The message does not start a second chain, nor falls between two completions that are both due. -/
def MessageOk (s : Initializer) (m : KeyerMsg) : Prop :=
  s.StartOk m ∧ (m = .justRestarted → s.RestartOk) ∧ (m = .answer → s.completes m → s.firstOwn → s.AnswerOk)

instance (s : Initializer) (m : KeyerMsg) : Decidable (s.StartOk m) := by
  unfold StartOk
  infer_instance

instance (s : Initializer) : Decidable s.RestartOk := by
  unfold RestartOk
  split <;> infer_instance

instance (s : Initializer) : Decidable s.AnswerOk := by
  unfold AnswerOk
  infer_instance

instance (s : Initializer) (m : KeyerMsg) : Decidable (s.MessageOk m) := by
  unfold MessageOk
  infer_instance

/-- The event leaves the chain of the initialization whole. -/
def Orderly (s : Initializer) : InitEnv × InitEv → Prop
  | (_, .connect) => if s.state = .disc ∨ s.state = .off then s.outstanding = [] else s.Harmless
  | (_, .disconnect) => s.inAntsw = false
  | (_, .message m _) => s.MessageOk m
  | (_, .setSpeed channel cfg) => s.Settable channel cfg
  | (_, .setSpeedParams channel cfg) => s.Settable channel cfg ∧ ∀ old ∈ s.speedArgs channel, old = cfg
  | _ => True

instance (s : Initializer) : ∀ e, Decidable (s.Orderly e)
  | (_, .connect) => by unfold Orderly; split <;> infer_instance
  | (_, .disconnect) => by unfold Orderly; infer_instance
  | (_, .message ..) => by unfold Orderly; infer_instance
  | (_, .setSpeed ..) => by unfold Orderly; infer_instance
  | (_, .setSpeedParams ..) => by unfold Orderly; infer_instance
  | (_, .heartbeat) | (_, .cmdTimeout) | (_, .deferred _) | (_, .call _) | (_, .getAntsw) | (_, .antswReturn) =>
    isTrue trivial

/-! ### Where the commands are -/

variable {s s' : Initializer} {w : InitEnv} {what : InitCmd} {cb : InitCb}

@[simp] theorem queuedOf_nil : queuedOf [] = [] := rfl

@[simp] theorem refusedOf_nil : refusedOf [] = [] := rfl

@[simp] theorem queuedOf_append (l l' : List PendCmd) : queuedOf (l ++ l') = queuedOf l ++ queuedOf l' :=
  List.filterMap_append ..

@[simp] theorem refusedOf_append (d d' : List LateCmd) : refusedOf (d ++ d') = refusedOf d ++ refusedOf d' :=
  List.filterMap_append ..

/-- The command, if it is one of `initializer_step`. -/
def own (what : InitCmd) (cb : InitCb) : List InitCmd := if cb = .initializer then [what] else []

theorem queuedOf_cons (c : PendCmd) (l : List PendCmd) : queuedOf (c :: l) = own c.what c.cb ++ queuedOf l := by
  by_cases hc : c.cb = .initializer <;> simp [queuedOf, own, hc]

theorem refusedOf_cons (t : LateCmd) (d : List LateCmd) : refusedOf (t :: d) = own t.what t.cb ++ refusedOf d := by
  by_cases ht : t.cb = .initializer <;> simp [refusedOf, own, ht]

/-- No refused command completes with success. -/
def LateFail (d : List LateCmd) : Prop := ∀ t ∈ d, t.result ≠ .ok

/-- From the lists `l` and `d` to `l'` and `d'`: the commands `new` come on, and commands of the queue may have
been refused. -/
structure Toks (new : List InitCmd) (l : List PendCmd) (d : List LateCmd) (l' : List PendCmd) (d' : List LateCmd) :
    Prop where
  perm : (queuedOf l' ++ refusedOf d').Perm (queuedOf l ++ refusedOf d ++ new)
  queued : refusedOf d' = [] → refusedOf d = [] ∧ queuedOf l' = queuedOf l ++ new
  late : LateFail d → LateFail d'

theorem Toks.trans {new new' : List InitCmd} {l l' l'' : List PendCmd} {d d' d'' : List LateCmd}
    (h : Toks new l d l' d') (h' : Toks new' l' d' l'' d'') : Toks (new ++ new') l d l'' d'' where
  perm := by
    have hp := h'.perm.trans (h.perm.append_right new')
    rwa [List.append_assoc (_ ++ _)] at hp
  queued hr := by
    obtain ⟨hr', hq'⟩ := h'.queued hr
    obtain ⟨hr'', hq⟩ := h.queued hr'
    exact ⟨hr'', by rw [hq', hq, List.append_assoc]⟩
  late hl := h'.late (h.late hl)

theorem Toks.defer {l : List PendCmd} {d : List LateCmd} {r : CmdResult} (hr : r ≠ .ok) :
    Toks (own what cb) l d l (d ++ [⟨what, cb, r⟩]) where
  perm := by simp [refusedOf_cons]
  queued h := by
    simp only [refusedOf_append, refusedOf_cons, refusedOf_nil, List.append_nil, List.append_eq_nil_iff] at h
    simp [h]
  late hl t ht := by
    rcases List.mem_append.1 ht with ht | ht
    · exact hl t ht
    · rw [List.mem_singleton.1 ht]
      exact hr

/-- The first command of the queue is refused. -/
theorem Toks.drop {c : PendCmd} {l : List PendCmd} {d : List LateCmd} {r : CmdResult} (hr : r ≠ .ok) :
    Toks [] (c :: l) d l (d ++ [⟨c.what, c.cb, r⟩]) where
  perm := by
    simp only [refusedOf_append, refusedOf_cons, refusedOf_nil, List.append_nil, queuedOf_cons]
    rw [List.append_assoc, ← List.append_assoc (queuedOf l)]
    exact List.perm_append_comm
  queued h := by
    simp only [refusedOf_append, refusedOf_cons, refusedOf_nil, List.append_nil, List.append_eq_nil_iff] at h
    simp [h, queuedOf_cons]
  late := (Toks.defer (l := l) hr).late

theorem Toks.send {c : PendCmd} {l : List PendCmd} {d : List LateCmd} :
    Toks [] (c :: l) d ({ c with sent := true } :: l) d where
  perm := by simp [queuedOf_cons]
  queued h := by simp [h, queuedOf_cons]
  late := id

theorem Toks.refl {l : List PendCmd} {d : List LateCmd} : Toks [] l d l d where
  perm := by simp
  queued h := by simp [h]
  late := id

/-- Only the lists have changed, and what is known of the antenna switching settings. -/
def Adds (new : List InitCmd) (s s' : Initializer) : Prop :=
  ∃ l d n b p, s' = { s with cmdList := l, deferred := d, submits := n, bandplan := b, antswPending := p } ∧
    Toks new s.cmdList s.deferred l d

theorem Adds.refl : Adds [] s s := ⟨_, _, _, _, _, rfl, .refl⟩

theorem Adds.trans {s'' : Initializer} {new new' : List InitCmd} (h : Adds new s s') (h' : Adds new' s' s'') :
    Adds (new ++ new') s s'' := by
  obtain ⟨l, d, n, b, p, rfl, ht⟩ := h
  obtain ⟨l', d', n', b', p', rfl, ht'⟩ := h'
  exact ⟨_, _, _, _, _, rfl, ht.trans ht'⟩

theorem Adds.then_nil {s'' : Initializer} {new : List InitCmd} (h : Adds new s s') (h' : Adds [] s' s'') :
    Adds new s s'' := by
  have := h.trans h'
  rwa [List.append_nil] at this

theorem Adds.of_nil {s'' : Initializer} {new : List InitCmd} (h : Adds [] s s') (h' : Adds new s' s'') :
    Adds new s s'' := h.trans h'

theorem pushLoop_adds (cs : List PendCmd) (s : Initializer) :
    ∃ l d, pushLoop w cs s = { s with cmdList := l, deferred := d } ∧ Toks [] cs s.deferred l d := by
  induction cs generalizing s with
  | nil => exact ⟨_, _, rfl, .refl⟩
  | cons c cs ih =>
    rw [pushLoop]
    split
    · exact ⟨_, _, rfl, .refl⟩
    split
    · exact ⟨_, _, rfl, .send⟩
    · obtain ⟨l, d, he, ht⟩ := ih (s.deferCallback c.what c.cb .error)
      exact ⟨l, d, he, (Toks.drop (by decide)).trans ht⟩

theorem pushCmds_adds : Adds [] s (s.pushCmds w) := by
  obtain ⟨l, d, he, ht⟩ := pushLoop_adds (w := w) s.cmdList s
  exact ⟨l, d, _, _, _, he, ht⟩

theorem deferCallback_adds {r : CmdResult} (hr : r ≠ .ok) : Adds (own what cb) s (s.deferCallback what cb r) :=
  ⟨_, _, _, _, _, rfl, .defer hr⟩

theorem submitCmd_adds : Adds (own what cb) s (s.submitCmd w what cb) := by
  unfold submitCmd
  split
  · exact deferCallback_adds (by decide)
  split
  · exact deferCallback_adds (by decide)
  · refine Adds.then_nil ⟨_, _, _, _, _, rfl, ?_⟩ pushCmds_adds
    constructor
    · simp only [queuedOf_append, queuedOf_cons, queuedOf_nil, List.append_nil, List.append_assoc]
      exact List.perm_append_comm.append_left _
    · intro h
      simp [h, queuedOf_cons]
    · exact id

theorem submitSpeedCmd_adds {channel : Nat} {cfg : SpeedCfg} :
    Adds (own (.setChannel channel cfg) cb) s (s.submitSpeedCmd w channel cfg cb) := by
  unfold submitSpeedCmd
  split
  · exact submitCmd_adds
  · exact deferCallback_adds (by decide)

theorem callOthers_adds (cs : List OtherCmd) : Adds [] s (s.callOthers w cs) := by
  induction cs generalizing s with
  | nil => exact .refl
  | cons c cs ih => exact Adds.of_nil (show Adds (own _ .other) _ _ from submitCmd_adds) ih

theorem smGetAntsw_adds : Adds [] s (s.smGetAntsw w) := by
  unfold smGetAntsw
  split
  · exact .refl
  · exact Adds.of_nil ⟨_, _, _, _, _, rfl, .refl⟩ submitCmd_adds

theorem getAntswCompletionCb_adds {r : CmdResult} : Adds [] s (s.getAntswCompletionCb w r) := by
  unfold getAntswCompletionCb
  split
  · exact ⟨_, _, _, _, _, rfl, .refl⟩
  split
  · exact submitCmd_adds
  · exact ⟨_, _, _, _, _, rfl, .refl⟩
  · exact ⟨_, _, _, _, _, rfl, .refl⟩

/-! ### The stages of the chain -/

/-- `a` and `b` are outstanding, in this order if none is refused. -/
def Both (s : Initializer) (a b : InitCmd) : Prop :=
  s.outstanding.Perm [a, b] ∧ (s.refused = [] → s.queued = [a, b])

/-- One channel's command is outstanding, those before it are acknowledged. -/
def Setting (s : Initializer) : Prop :=
  ∃ channel cfg, s.speedIdx = channel + 1 ∧ channel + 1 < MH_NUM_CHANNELS ∧
    s.speedParams channel = some cfg ∧ s.outstanding = [.setChannel channel cfg] ∧ s.AckedBelow channel

/-- The settings block is outstanding, and channel 7's command may be. -/
def Loading (s : Initializer) : Prop :=
  (s.outstanding = [.setSettings] ∧ s.AckedBelow MH_NUM_CHANNELS) ∨
    ∃ cfg, s.speedParams 7 = some cfg ∧ s.Both (.setChannel 7 cfg) .setSettings ∧ s.AckedBelow 7

/-- All is acknowledged, but the settings block may be outstanding. -/
def Connecting (s : Initializer) : Prop :=
  s.AckedBelow MH_NUM_CHANNELS ∧
    (s.settingsAcked = true ∧ s.outstanding.length ≤ 1 ∨ s.Both .setSettings .onConnect)

def Stage (s : Initializer) : Prop :=
  match s.state with
  | .disc | .off | .disabled => True
  | .init | .getVersion => s.speedIdx = 0 ∧ s.outstanding.length ≤ 1
  | .setChannels => s.Setting
  | .loadCfg => s.speedIdx = 0 ∧ s.Loading
  | .onConnect => s.speedIdx = 0 ∧ s.Connecting
  | .ok => s.speedIdx = 0

/-- What holds at every stage. -/
structure Base (s : Initializer) : Prop where
  connected : s.state ≠ .disc → s.connected = true
  args : ∀ channel, ∀ cfg ∈ s.speedArgs channel, s.speedParams channel = some cfg
  late : LateFail s.deferred
  reports : ∀ r ∈ s.reports, r = true

structure Good (s : Initializer) : Prop extends Base s where
  inAntsw : s.inAntsw = true → s.state = .onConnect ∧ s.settingsAcked = true ∧ s.outstanding = []
  stage : s.Stage

/-- `Good`, and nothing is outstanding in the state OFF. -/
structure Fine (s : Initializer) : Prop extends Good s where
  off : s.state = .off → s.outstanding = []

theorem Adds.perm {new : List InitCmd} (h : Adds new s s') : s'.outstanding.Perm (s.outstanding ++ new) := by
  obtain ⟨l, d, n, b, p, rfl, ht⟩ := h
  exact ht.perm

theorem Adds.queued {new : List InitCmd} (h : Adds new s s') (hr : s'.refused = []) :
    s.refused = [] ∧ s'.queued = s.queued ++ new := by
  obtain ⟨l, d, n, b, p, rfl, ht⟩ := h
  exact ht.queued hr

theorem Adds.eq_nil (h : Adds [] s s') (hs : s.outstanding = []) : s'.outstanding = [] := by
  have := h.perm
  rwa [hs, List.append_nil, List.perm_nil] at this

theorem Adds.eq_single (h : Adds [what] s s') (hs : s.outstanding = []) : s'.outstanding = [what] := by
  have := h.perm
  rwa [hs, List.nil_append, List.perm_singleton] at this

theorem Adds.length (h : Adds [] s s') : s'.outstanding.length = s.outstanding.length := by
  simpa using h.perm.length_eq

theorem Both.adds {a b : InitCmd} (h : s.Both a b) (ha : Adds [] s s') : s'.Both a b := by
  constructor
  · exact (by simpa using ha.perm : s'.outstanding.Perm s.outstanding).trans h.1
  · intro hr
    obtain ⟨hr, hq⟩ := ha.queued hr
    rw [hq, List.append_nil, h.2 hr]

theorem Base.adds {new : List InitCmd} (h : Base s) (ha : Adds new s s') : Base s' := by
  obtain ⟨l, d, n, b, p, rfl, ht⟩ := ha
  exact ⟨h.connected, h.args, ht.late h.late, h.reports⟩

theorem Stage.adds (h : s.Stage) (ha : Adds [] s s') : s'.Stage := by
  have hlen := ha.length
  have hnil := ha.eq_nil
  have hone : ∀ x, s.outstanding = [x] → s'.outstanding = [x] := by
    intro x hx
    have := ha.perm
    rwa [hx, List.append_nil, List.perm_singleton] at this
  have hboth : ∀ a b, s.Both a b → s'.Both a b := fun a b hb => hb.adds ha
  obtain ⟨l, d, n, b, p, rfl, ht⟩ := ha
  unfold Stage at h ⊢
  cases hst : s.state with
  | disc | off | disabled => exact trivial
  | ok =>
    rw [hst] at h
    exact h
  | init | getVersion =>
    simp only [hst] at h ⊢
    exact ⟨h.1, hlen ▸ h.2⟩
  | setChannels =>
    simp only [hst] at h ⊢
    obtain ⟨channel, cfg, h1, h2, h3, h4, h5⟩ := h
    exact ⟨channel, cfg, h1, h2, h3, hone _ h4, h5⟩
  | loadCfg =>
    simp only [hst] at h ⊢
    obtain ⟨hi, ⟨h1, h2⟩ | ⟨cfg, h1, h2, h3⟩⟩ := h
    · exact ⟨hi, .inl ⟨hone _ h1, h2⟩⟩
    · exact ⟨hi, .inr ⟨cfg, h1, hboth _ _ h2, h3⟩⟩
  | onConnect =>
    simp only [hst] at h ⊢
    obtain ⟨hi, hb, ⟨h1, h2⟩ | h1⟩ := h
    · exact ⟨hi, hb, .inl ⟨h1, hlen ▸ h2⟩⟩
    · exact ⟨hi, hb, .inr (hboth _ _ h1)⟩

theorem Good.adds (h : Good s) (ha : Adds [] s s') : Good s' := by
  refine ⟨h.toBase.adds ha, fun hi => ?_, h.stage.adds ha⟩
  have hnil := ha.eq_nil
  obtain ⟨l, d, n, b, p, rfl, ht⟩ := ha
  obtain ⟨h1, h2, h3⟩ := h.inAntsw hi
  exact ⟨h1, h2, hnil h3⟩

theorem Fine.adds (h : Fine s) (ha : Adds [] s s') : Fine s' := by
  refine ⟨h.toGood.adds ha, fun ho => ha.eq_nil (h.off ?_)⟩
  obtain ⟨l, d, n, b, p, rfl, ht⟩ := ha
  exact ho

theorem Good.fine (h : Good s) (ho : s.state ≠ .off) : Fine s := ⟨h, fun h' => absurd h' ho⟩

theorem Adds.state {new : List InitCmd} (h : Adds new s s') : s'.state = s.state := by
  obtain ⟨l, d, n, b, p, rfl, -⟩ := h; rfl

theorem Adds.connected {new : List InitCmd} (h : Adds new s s') : s'.connected = s.connected := by
  obtain ⟨l, d, n, b, p, rfl, -⟩ := h; rfl

theorem Adds.inAntsw {new : List InitCmd} (h : Adds new s s') : s'.inAntsw = s.inAntsw := by
  obtain ⟨l, d, n, b, p, rfl, -⟩ := h; rfl

theorem Adds.speedIdx {new : List InitCmd} (h : Adds new s s') : s'.speedIdx = s.speedIdx := by
  obtain ⟨l, d, n, b, p, rfl, -⟩ := h; rfl

theorem Adds.speedParams {new : List InitCmd} (h : Adds new s s') : s'.speedParams = s.speedParams := by
  obtain ⟨l, d, n, b, p, rfl, -⟩ := h; rfl

theorem Adds.ackedBelow {new : List InitCmd} {n : Nat} (h : Adds new s s') (hb : s.AckedBelow n) :
    s'.AckedBelow n := by
  obtain ⟨l, d, n, b, p, rfl, -⟩ := h
  exact hb

/-! ### The steps -/

theorem setState_of_ne {st : CtlState} (h : st ≠ .ok) : s.setState st = { s with state := st } := by
  simp [setState, h]

/-- A state with no chain under way. -/
theorem Base.good (h : Base s) (hi : s.inAntsw = false) (hs : s.Stage) : Good s :=
  ⟨h, fun h' => (Bool.false_ne_true (hi.symm.trans h')).elim, hs⟩

/-- `initializer_step` has been run with nothing outstanding: `s` is the state it has set, `what` its command. -/
theorem Base.submitted (hb : Base s) (hi : s.inAntsw = false) (ho : s.outstanding = []) (hne : s.state ≠ .off)
    (ha : Adds [what] s s') (hs : s'.outstanding = [what] → s'.Stage) : Fine s' :=
  (hb.adds ha).good (ha.inAntsw.trans hi) (hs (ha.eq_single ho)) |>.fine (ha.state ▸ hne)

theorem offStep (hb : Base s) (hc : s.connected = true) (hi : s.inAntsw = false) (hst : s.state = .off)
    (ho : s.outstanding = []) : Fine (s.initializerStep w) := by
  simp only [initializerStep, hst]
  rw [setState_of_ne (by decide)]
  have hb' : Base { s with speedIdx := 0, state := .init } := ⟨fun _ => hc, hb.args, hb.late, hb.reports⟩
  refine hb'.submitted hi ho (by simp) submitCmd_adds fun ho' => ?_
  have ha : Adds [.areYouThere] { s with speedIdx := 0, state := .init }
      (Initializer.submitCmd w { s with speedIdx := 0, state := .init } .areYouThere .initializer) :=
      submitCmd_adds
  rw [Stage, ha.state]
  exact ⟨ha.speedIdx, by simp [ho']⟩

theorem versionStep_fine (hb : Base s) (hc : s.connected = true) (hi : s.inAntsw = false) (h0 : s.speedIdx = 0)
    (ho : s.outstanding = []) : Fine (s.versionStep w) := by
  rw [versionStep]
  have ha : Adds [] s (if s.hasDisplay then (s.submitCmd w .other .other).submitCmd w .other .other else s) := by
    split
    · exact Adds.of_nil (show Adds (own _ .other) _ _ from submitCmd_adds) submitCmd_adds
    · exact .refl
  generalize (if s.hasDisplay then (s.submitCmd w .other .other).submitCmd w .other .other else s) = s1 at ha ⊢
  rw [setState_of_ne (by decide)]
  have hb1 := hb.adds ha
  have hc1 : s1.connected = true := ha.connected.trans hc
  have hb' : Base { s1 with state := .getVersion } := ⟨fun _ => hc1, hb1.args, hb1.late, hb1.reports⟩
  refine hb'.submitted (ha.inAntsw.trans hi) (ha.eq_nil ho) (by simp) submitCmd_adds fun ho' => ?_
  have ha' : Adds [.getVersion] { s1 with state := .getVersion }
      (Initializer.submitCmd w { s1 with state := .getVersion } .getVersion .initializer) := submitCmd_adds
  rw [Stage, ha'.state]
  exact ⟨ha'.speedIdx.trans (ha.speedIdx.trans h0), by simp [ho']⟩

theorem Base.sendCfg (hb : Base s) (channel : Nat) : s.sendCfg channel = s.speedParams channel := by
  rw [Initializer.sendCfg]
  rcases ha : s.speedArgs channel with _ | cfg
  · rfl
  · rw [hb.args channel cfg ha, Option.some_or]

/-- The loop stops at the first valid channel, or behind the last one. -/
theorem speedLoop_spec (n : Nat) (s : Initializer) (hb : Base s) (hn : s.speedIdx + n = MH_NUM_CHANNELS) :
    (∃ channel cfg, s.speedIdx ≤ channel ∧ channel < MH_NUM_CHANNELS ∧
      (∀ j, s.speedIdx ≤ j → j < channel → s.speedParams j = none) ∧ s.speedParams channel = some cfg ∧
      speedLoop w n s = { ({ s with speedIdx := channel, state := .setChannels }.submitSpeedCmd w channel cfg
        .initializer) with speedIdx := channel + 1 }) ∨
    (∀ j, s.speedIdx ≤ j → j < MH_NUM_CHANNELS → s.speedParams j = none) ∧
      speedLoop w n s = { s with speedIdx := MH_NUM_CHANNELS } := by
  induction n generalizing s with
  | zero =>
    right
    constructor
    · intro j h1 h2
      omega
    · rw [speedLoop, ← hn, Nat.add_zero]
  | succ n ih =>
    rw [speedLoop, hb.sendCfg]
    rcases hp : s.speedParams s.speedIdx with _ | cfg
    · rcases ih { s with speedIdx := s.speedIdx + 1 } ⟨hb.connected, hb.args, hb.late, hb.reports⟩ (by grind) with
        ⟨channel, cfg, h1, h2, h3, h4, h5⟩ | ⟨h1, h2⟩
      · refine .inl ⟨channel, cfg, by grind, h2, fun j hj hj' => ?_, h4, h5⟩
        rcases Nat.eq_or_lt_of_le hj with rfl | hlt
        · exact hp
        · exact h3 j hlt hj'
      · refine .inr ⟨fun j hj hj' => ?_, h2⟩
        rcases Nat.eq_or_lt_of_le hj with rfl | hlt
        · exact hp
        · exact h1 j hlt hj'
    · refine .inl ⟨s.speedIdx, cfg, Nat.le_refl _, by omega, fun j hj hj' => by omega, hp, ?_⟩
      have ha : Adds [.setChannel s.speedIdx cfg] { s with state := .setChannels }
          (Initializer.submitSpeedCmd w { s with state := .setChannels } s.speedIdx cfg .initializer) :=
          submitSpeedCmd_adds
      simp only [setState_of_ne (show CtlState.setChannels ≠ .ok by decide), ha.speedIdx]

theorem AckedBelow.skip {m n : Nat} (h : s.AckedBelow m) (hn : ∀ j, m ≤ j → j < n → s.speedParams j = none) :
    s.AckedBelow n := by
  intro j hj cfg hcfg
  rcases Nat.lt_or_ge j m with hlt | hge
  · exact h j hlt cfg hcfg
  · rw [hn j hge hj] at hcfg
    cases hcfg

/-- The settings block follows the last channel, whose command may be outstanding. -/
theorem loadStep_fine (hb : Base s) (hc : s.connected = true) (hi : s.inAntsw = false) (h0 : s.speedIdx = 0)
    (hs : (s.outstanding = [] ∧ s.AckedBelow MH_NUM_CHANNELS) ∨
      ∃ cfg, s.speedParams 7 = some cfg ∧ s.outstanding = [.setChannel 7 cfg] ∧ s.AckedBelow 7) :
    Fine (if s.kcfg then (s.submitCmd w .setSettings .initializer).setState .loadCfg else s.setState .disabled) := by
  split
  · have ha : Adds [.setSettings] s (s.submitCmd w .setSettings .initializer) := submitCmd_adds
    have hc' : (s.submitCmd w .setSettings .initializer).connected = true := ha.connected.trans hc
    generalize s.submitCmd w .setSettings .initializer = s1 at ha hc'
    rw [setState_of_ne (by decide)]
    have hb1 := hb.adds ha
    have hb' : Base { s1 with state := .loadCfg } := ⟨fun _ => hc', hb1.args, hb1.late, hb1.reports⟩
    refine (hb'.good (ha.inAntsw.trans hi) ⟨ha.speedIdx.trans h0, ?_⟩).fine nofun
    rcases hs with ⟨ho, hbelow⟩ | ⟨cfg, hp, ho, hbelow⟩
    · exact .inl ⟨ha.eq_single ho, ha.ackedBelow hbelow⟩
    · refine .inr ⟨cfg, ha.speedParams ▸ hp, ⟨?_, fun hr => ?_⟩, ha.ackedBelow hbelow⟩
      · have hperm := ha.perm
        rwa [ho] at hperm
      · obtain ⟨hr1, hq⟩ := ha.queued hr
        rw [outstanding, hr1, List.append_nil] at ho
        rw [ho] at hq
        exact hq
  · rw [setState_of_ne (by decide)]
    have hb' : Base { s with state := .disabled } := ⟨fun _ => hc, hb.args, hb.late, hb.reports⟩
    exact (hb'.good hi trivial).fine nofun

theorem channelStep_fine (hb : Base s) (hc : s.connected = true) (hi : s.inAntsw = false)
    (hidx : s.speedIdx ≤ MH_NUM_CHANNELS) (ho : s.outstanding = []) (hbelow : s.AckedBelow s.speedIdx) :
    Fine (s.channelStep w) := by
  rcases speedLoop_spec (w := w) (MH_NUM_CHANNELS - s.speedIdx) s hb (by omega) with
    ⟨channel, cfg, h1, h2, h3, h4, heq⟩ | ⟨h1, heq⟩
  · have ha : Adds [.setChannel channel cfg] { s with speedIdx := channel, state := .setChannels }
      ({ s with speedIdx := channel, state := .setChannels }.submitSpeedCmd w channel cfg .initializer) :=
      submitSpeedCmd_adds
    simp only [channelStep, heq]
    generalize { s with speedIdx := channel, state := .setChannels }.submitSpeedCmd w channel cfg .initializer = s1
      at ha ⊢
    have hb1 : Base s1 := Base.adds (s := { s with speedIdx := channel, state := .setChannels })
      ⟨fun _ => hc, hb.args, hb.late, hb.reports⟩ ha
    have hc1 : s1.connected = true := ha.connected.trans hc
    have hi1 : s1.inAntsw = false := ha.inAntsw.trans hi
    have ho1 : s1.outstanding = [.setChannel channel cfg] := ha.eq_single ho
    have hp1 : s1.speedParams channel = some cfg := by
      rw [ha.speedParams]
      exact h4
    have hbelow1 : s1.AckedBelow channel := ha.ackedBelow (hbelow.skip h3)
    rcases Nat.lt_or_ge (channel + 1) MH_NUM_CHANNELS with hlt | hge
    · rw [if_pos hlt]
      have hst : s1.state = .setChannels := ha.state
      have hb' : Base { s1 with speedIdx := channel + 1 } := ⟨fun _ => hc1, hb1.args, hb1.late, hb1.reports⟩
      refine (hb'.good hi1 ?_).fine (by simp [hst])
      simp only [Stage, hst]
      exact ⟨channel, cfg, rfl, hlt, hp1, ho1, hbelow1⟩
    · -- channel 7: its command and the settings block are both outstanding
      obtain rfl : channel = 7 := by
        rw [MH_NUM_CHANNELS] at h2 hge
        omega
      rw [if_neg (by simp [MH_NUM_CHANNELS])]
      have hb' : Base { s1 with speedIdx := 0, kcfg := s1.kcfg || w.kcfgCreate } :=
        ⟨fun _ => hc1, hb1.args, hb1.late, hb1.reports⟩
      exact loadStep_fine hb' hc1 hi1 rfl (.inr ⟨cfg, hp1, ho1, hbelow1⟩)
  · simp only [channelStep, heq]
    rw [if_neg (Nat.lt_irrefl _)]
    have hb' : Base { s with speedIdx := 0, kcfg := s.kcfg || w.kcfgCreate } :=
      ⟨fun _ => hc, hb.args, hb.late, hb.reports⟩
    exact loadStep_fine hb' hc hi rfl (.inl ⟨ho, hbelow.skip h1⟩)

theorem Base.setState (hb : Base s) (st : CtlState) (hc : s.connected = true) :
    Base { s with state := st } := ⟨fun _ => hc, hb.args, hb.late, hb.reports⟩

/-- ON CONNECT follows the settings block, which is outstanding if channel 7's answer came first. -/
theorem connectStep_fine (hb : Base s) (hc : s.connected = true) (hi : s.inAntsw = false) (h0 : s.speedIdx = 0)
    (hbelow : s.AckedBelow MH_NUM_CHANNELS)
    (hs : s.settingsAcked = true ∧ s.outstanding = [] ∨ s.outstanding = [.setSettings]) :
    Fine ((s.submitCmd w .onConnect .initializer).setState .onConnect) := by
  have ha : Adds [.onConnect] s (s.submitCmd w .onConnect .initializer) := submitCmd_adds
  generalize s.submitCmd w .onConnect .initializer = s1 at ha
  rw [setState_of_ne (by decide)]
  have hb' := (hb.adds ha).setState .onConnect (ha.connected.trans hc)
  refine (hb'.good (ha.inAntsw.trans hi) ⟨ha.speedIdx.trans h0, ha.ackedBelow hbelow, ?_⟩).fine nofun
  rcases hs with ⟨hk, ho⟩ | ho
  · have ho1 : s1.outstanding = [.onConnect] := ha.eq_single ho
    refine .inl ⟨?_, Nat.le_of_eq (congrArg List.length ho1)⟩
    obtain ⟨l, d, n, b, p, rfl, -⟩ := ha
    exact hk
  · refine .inr ⟨?_, fun hr => ?_⟩
    · have hperm := ha.perm
      rwa [ho] at hperm
    · obtain ⟨hr1, hq⟩ := ha.queued hr
      rw [outstanding, hr1, List.append_nil] at ho
      rw [ho] at hq
      exact hq

theorem lastStep_fine (h : Base s) (hi : s.inAntsw = false) (hst : s.state = .onConnect)
    (h0 : s.speedIdx = 0) (hbelow : s.AckedBelow MH_NUM_CHANNELS) (hk : s.settingsAcked = true)
    (hload : s.sm ∧ ¬s.bandplan ∧ ¬s.antswPending → s.outstanding = []) : Fine (s.lastStep w) := by
  have hc : s.connected = true := h.connected (by simp [hst])
  unfold lastStep
  split
  · rename_i hd
    have ha : Adds [] s (s.smGetAntsw w) := smGetAntsw_adds
    generalize s.smGetAntsw w = s1 at ha
    have hb1 := h.adds ha
    have hst1 : s1.state = .onConnect := ha.state.trans hst
    have ho1 : s1.outstanding = [] := ha.eq_nil (hload hd)
    have hk1 : s1.settingsAcked = true := by
      obtain ⟨l, d, n, b, p, rfl, -⟩ := ha
      exact hk
    have hlen : s1.outstanding.length ≤ 1 := by simp [ho1]
    refine ⟨⟨⟨hb1.connected, hb1.args, hb1.late, hb1.reports⟩, fun _ => ⟨hst1, hk1, ho1⟩, ?_⟩, fun _ => ho1⟩
    simp only [Stage, hst1]
    exact ⟨ha.speedIdx.trans h0, ha.ackedBelow hbelow, .inl ⟨hk1, hlen⟩⟩
  · have hcomplete : s.Complete := ⟨hc, hbelow, hk⟩
    simp only [setState, if_pos, decide_eq_true hcomplete]
    refine ⟨⟨⟨fun _ => hc, h.args, h.late, fun r hr => ?_⟩, ?_, h0⟩, nofun⟩
    · rcases List.mem_append.1 hr with hr | hr
      · exact h.reports r hr
      · exact List.mem_singleton.1 hr
    · intro h'
      exact absurd (hi.symm.trans h') (by decide)

/-- The state is due for `initializer_step`. -/
def Due (s : Initializer) : Prop :=
  match s.state with
  | .off => s.outstanding = []
  | .init | .getVersion => s.speedIdx = 0 ∧ s.outstanding = []
  | .setChannels => s.speedIdx ≤ MH_NUM_CHANNELS ∧ s.outstanding = [] ∧ s.AckedBelow s.speedIdx
  | .loadCfg => s.speedIdx = 0 ∧ s.AckedBelow MH_NUM_CHANNELS ∧
      (s.settingsAcked = true ∧ s.outstanding = [] ∨ s.outstanding = [.setSettings])
  | .onConnect => s.speedIdx = 0 ∧ s.AckedBelow MH_NUM_CHANNELS ∧ s.settingsAcked = true ∧
      (s.sm ∧ ¬s.bandplan ∧ ¬s.antswPending → s.outstanding = [])
  | .ok => s.speedIdx = 0
  | .disc | .disabled => True

theorem Due.fine (h : s.Due) (hb : Base s) (hi : s.inAntsw = false) : Fine (s.initializerStep w) := by
  have hc := hb.connected
  unfold Due at h
  cases hst : s.state with
  | off =>
    simp only [hst] at h
    exact offStep hb (hc (by simp [hst])) hi hst h
  | init =>
    simp only [hst] at h
    simp only [initializerStep, hst]
    exact versionStep_fine hb (hc (by simp [hst])) hi h.1 h.2
  | getVersion =>
    simp only [hst] at h
    simp only [initializerStep, hst]
    exact channelStep_fine hb (hc (by simp [hst])) hi (by omega) h.2 (fun j hj => absurd hj (by omega))
  | setChannels =>
    simp only [hst] at h
    simp only [initializerStep, hst]
    exact channelStep_fine hb (hc (by simp [hst])) hi h.1 h.2.1 h.2.2
  | loadCfg =>
    simp only [hst] at h
    simp only [initializerStep, hst]
    exact connectStep_fine hb (hc (by simp [hst])) hi h.1 h.2.1 h.2.2
  | onConnect =>
    simp only [hst] at h
    simp only [initializerStep, hst]
    exact lastStep_fine hb hi hst h.1 h.2.1 h.2.2.1 h.2.2.2
  | ok | disc | disabled =>
    simp only [hst] at h
    simp only [initializerStep, hst]
    exact (hb.good hi (by simp only [Stage, hst, h])).fine (by simp [hst])

/-! ### Completions -/

theorem ack_eq (s : Initializer) (what : InitCmd) :
    ∃ a k, s.ack what = { s with acked := a, settingsAcked := k } ∧ s.acked ⊆ a ∧
      (s.settingsAcked = true → k = true) := by
  cases what with
  | setChannel channel cfg => exact ⟨_, _, rfl, by simp, id⟩
  | setSettings => exact ⟨_, _, rfl, List.Subset.refl _, fun _ => rfl⟩
  | _ => exact ⟨_, _, rfl, List.Subset.refl _, id⟩

theorem AckedBelow.ack {n : Nat} (h : s.AckedBelow n) : (s.ack what).AckedBelow n := by
  obtain ⟨a, k, he, ha, -⟩ := ack_eq s what
  rw [he]
  exact fun j hj cfg hcfg => ha (h j hj cfg hcfg)

/-- The channel after those acknowledged is acknowledged. -/
theorem AckedBelow.ack_succ {channel : Nat} {cfg : SpeedCfg} (h : s.AckedBelow channel)
    (hp : s.speedParams channel = some cfg) : (s.ack (.setChannel channel cfg)).AckedBelow (channel + 1) := by
  intro j hj cfg' hcfg'
  rcases Nat.lt_succ_iff_lt_or_eq.1 hj with hlt | rfl
  · exact List.mem_append_left _ (h j hlt cfg' hcfg')
  · have heq : some cfg = some cfg' := hp.symm.trans hcfg'
    cases heq
    exact List.mem_append_right _ List.mem_cons_self

theorem Stage.ack (h : s.Stage) : (s.ack what).Stage := by
  have hbelow : ∀ n, s.AckedBelow n → (s.ack what).AckedBelow n := fun _ => .ack
  obtain ⟨a, k, he, ha, hk⟩ := ack_eq s what
  rw [he] at hbelow ⊢
  unfold Stage at h ⊢
  cases hst : s.state with
  | disc | off | disabled => exact trivial
  | ok | init | getVersion =>
    rw [hst] at h
    exact h
  | setChannels =>
    simp only [hst] at h ⊢
    obtain ⟨channel, cfg, h1, h2, h3, h4, h5⟩ := h
    exact ⟨channel, cfg, h1, h2, h3, h4, hbelow _ h5⟩
  | loadCfg =>
    simp only [hst] at h ⊢
    obtain ⟨hi, ⟨h1, h2⟩ | ⟨cfg, h1, h2, h3⟩⟩ := h
    · exact ⟨hi, .inl ⟨h1, hbelow _ h2⟩⟩
    · exact ⟨hi, .inr ⟨cfg, h1, h2, hbelow _ h3⟩⟩
  | onConnect =>
    simp only [hst] at h ⊢
    obtain ⟨hi, hb, ⟨h1, h2⟩ | h1⟩ := h
    · exact ⟨hi, hbelow _ hb, .inl ⟨hk h1, h2⟩⟩
    · exact ⟨hi, hbelow _ hb, .inr h1⟩

theorem Good.ack (h : Good s) : Good (s.ack what) := by
  have hs : (s.ack what).Stage := h.stage.ack
  obtain ⟨a, k, he, ha, hk⟩ := ack_eq s what
  rw [he] at hs ⊢
  refine ⟨⟨h.connected, h.args, h.late, h.reports⟩, fun hi => ?_, hs⟩
  obtain ⟨h1, h2, h3⟩ := h.inAntsw hi
  exact ⟨h1, hk h2, h3⟩

theorem Fine.ack (h : Fine s) : Fine (s.ack what) := by
  refine ⟨h.toGood.ack, ?_⟩
  obtain ⟨a, k, he, -⟩ := ack_eq s what
  rw [he]
  exact h.off

/-- A command of `initializer_step` is taken from where it is. -/
structure Took (what : InitCmd) (s s1 : Initializer) : Prop where
  frame : ∃ l d, s1 = { s with cmdList := l, deferred := d }
  perm : s.outstanding.Perm (what :: s1.outstanding)
  late : LateFail s.deferred → LateFail s1.deferred

theorem Took.inAntsw {s1 : Initializer} (ht : Took what s s1) (h : Good s) : s1.inAntsw = false := by
  have hperm := ht.perm
  obtain ⟨l, d, rfl⟩ := ht.frame
  cases hi : s.inAntsw with
  | false => rfl
  | true =>
    rw [(h.inAntsw hi).2.2] at hperm
    exact absurd hperm.length_eq (by simp)

theorem Took.base {s1 : Initializer} (ht : Took what s s1) (h : Base s) : Base s1 := by
  have hl := ht.late h.late
  obtain ⟨l, d, rfl⟩ := ht.frame
  exact ⟨h.connected, h.args, hl, h.reports⟩

theorem Took.eq_nil {s1 : Initializer} (ht : Took what s s1) (h : s.outstanding.length ≤ 1) :
    s1.outstanding = [] := by
  have hlen := ht.perm.length_eq
  rw [List.length_cons] at hlen
  exact List.eq_nil_of_length_eq_zero (by omega)

theorem Took.eq_of_single {s1 : Initializer} {what' : InitCmd} (ht : Took what s s1)
    (h : s.outstanding = [what']) :
    what = what' ∧ s1.outstanding = [] := by
  have hperm := ht.perm
  rw [h, List.singleton_perm] at hperm
  obtain ⟨h1, h2⟩ := List.cons.inj hperm
  exact ⟨h1.symm, h2.symm⟩

/-- In the state SET CHANNELS the next channels follow, once this one's is acknowledged or skipped. -/
theorem Took.nextChannel {s1 : Initializer} (ht : Took what s s1) (h : Good s) (hst : s.state = .setChannels) :
    (s1.ack what).Due := by
  have hs := h.stage
  simp only [Stage, hst] at hs
  obtain ⟨channel, cfg, h1, h2, h3, h4, h5⟩ := hs
  obtain ⟨rfl, ho⟩ := ht.eq_of_single h4
  obtain ⟨l, d, rfl⟩ := ht.frame
  have hbelow : AckedBelow (ack { s with cmdList := l, deferred := d } (.setChannel channel cfg)) s.speedIdx := by
    rw [h1]
    exact AckedBelow.ack_succ (s := { s with cmdList := l, deferred := d }) h5 h3
  simp only [Due, ack, hst]
  exact ⟨Nat.le_of_lt (h1 ▸ h2), ho, hbelow⟩

theorem Base.ack (hb : Base s) : Base (s.ack what) := by
  obtain ⟨a, k, he, -⟩ := ack_eq s what
  rw [he]
  exact ⟨hb.connected, hb.args, hb.late, hb.reports⟩

theorem ack_inAntsw : (s.ack what).inAntsw = s.inAntsw := by
  obtain ⟨a, k, he, -⟩ := ack_eq s what
  rw [he]

/-- A command of `initializer_step` fails. -/
theorem Took.fail {s1 : Initializer} {r : CmdResult} (ht : Took what s s1) (h : Good s) (hr : r ≠ .ok) :
    Good (s1.initializerCb w what r) ∧ (s1.outstanding = [] → Fine (s1.initializerCb w what r)) := by
  have hi := ht.inAntsw h
  have hb := ht.base h.toBase
  have hst : s1.state = s.state := by
    obtain ⟨l, d, rfl⟩ := ht.frame
    rfl
  unfold initializerCb
  split
  · rename_i hd
    have hg : Good s1 := hb.good hi (by simp only [Stage, hd])
    exact ⟨hg, fun _ => hg.fine (by simp [hd])⟩
  rename_i hd
  split
  · rename_i hs
    have hf : Fine ((s1.ack what).initializerStep w) :=
      (ht.nextChannel h (hst ▸ hs.2)).fine hb.ack (ack_inAntsw.trans hi)
    exact ⟨hf.toGood, fun _ => hf⟩
  · rw [setState_of_ne (by decide)]
    have hg : Good { s1 with state := .off } :=
      (hb.setState .off (hb.connected hd)).good hi trivial
    exact ⟨hg, fun ho => ⟨hg, fun _ => ho⟩⟩

/-- The first command of the queue is taken. -/
theorem Took.first {c : PendCmd} {rest : List PendCmd} (hl : s.cmdList = c :: rest) (hcb : c.cb = .initializer) :
    Took c.what s { s with cmdList := rest } where
  frame := ⟨rest, s.deferred, rfl⟩
  perm := by
    rw [outstanding, queued, hl, queuedOf_cons, own, if_pos hcb]
    exact .refl _
  late := id

/-- Of two commands outstanding, with none refused, the first is taken. -/
theorem Took.of_both {c : PendCmd} {rest : List PendCmd} {a b : InitCmd} (hl : s.cmdList = c :: rest)
    (hcb : c.cb = .initializer) (hr : s.refused = []) (hb : s.Both a b) :
    c.what = a ∧ queuedOf rest ++ s.refused = [b] := by
  have hq := hb.2 hr
  rw [queued, hl, queuedOf_cons, own, if_pos hcb] at hq
  obtain ⟨h1, h2⟩ := List.cons.inj hq
  exact ⟨h1, by rw [hr, List.append_nil]; exact h2⟩

/-- The keyer's acknowledgement of a command of `initializer_step` makes the next step due. -/
theorem Due.of_ack {c : PendCmd} {rest : List PendCmd} (h : Good s) (hl : s.cmdList = c :: rest)
    (hcb : c.cb = .initializer) (hstart : s.state = .off → queuedOf rest ++ s.refused = [])
    (hlate : s.state = .loadCfg ∨ s.state = .onConnect → s.refused = [])
    (hload : s.state = .onConnect → s.sm ∧ ¬s.bandplan ∧ ¬s.antswPending → queuedOf rest ++ s.refused = []) :
    (({ s with cmdList := rest }).ack c.what).Due := by
  have ht := Took.first hl hcb
  have hs := h.stage
  have hnext := ht.nextChannel h
  have hnil : s.outstanding.length ≤ 1 → queuedOf rest ++ s.refused = [] := ht.eq_nil
  have hone : ∀ x, s.outstanding = [x] → c.what = x ∧ queuedOf rest ++ s.refused = [] := fun _ => ht.eq_of_single
  have hbelow : ∀ n, s.AckedBelow n → (({ s with cmdList := rest }).ack c.what).AckedBelow n := fun n hn =>
    AckedBelow.ack (s := { s with cmdList := rest }) hn
  have hsucc : ∀ channel cfg, c.what = .setChannel channel cfg → s.AckedBelow channel →
      s.speedParams channel = some cfg → (({ s with cmdList := rest }).ack c.what).AckedBelow (channel + 1) := by
    intro channel cfg hw hb hp
    rw [hw]
    exact AckedBelow.ack_succ (s := { s with cmdList := rest }) hb hp
  have hset : c.what = .setSettings → (({ s with cmdList := rest }).ack c.what).settingsAcked = true := by
    intro hw
    rw [hw]
    rfl
  obtain ⟨a, k, he, -, hk⟩ := ack_eq { s with cmdList := rest } c.what
  have hst2 : (({ s with cmdList := rest }).ack c.what).state = s.state := by rw [he]
  have hidx : (({ s with cmdList := rest }).ack c.what).speedIdx = s.speedIdx := by rw [he]
  have hout : (({ s with cmdList := rest }).ack c.what).outstanding = queuedOf rest ++ s.refused := by rw [he]; rfl
  have hload2 : (({ s with cmdList := rest }).ack c.what).sm = s.sm ∧
      (({ s with cmdList := rest }).ack c.what).bandplan = s.bandplan ∧
      (({ s with cmdList := rest }).ack c.what).antswPending = s.antswPending := by rw [he]; exact ⟨rfl, rfl, rfl⟩
  have hkeep : s.settingsAcked = true → (({ s with cmdList := rest }).ack c.what).settingsAcked = true := by
    rw [he]
    exact hk
  clear he
  generalize ({ s with cmdList := rest }).ack c.what = s2 at *
  unfold Due
  unfold Stage at hs
  rw [hst2]
  cases hst : s.state with
  | disc | disabled => exact trivial
  | ok =>
    simp only [hst] at hs ⊢
    exact hidx.trans hs
  | off => exact hout.trans (hstart hst)
  | init | getVersion =>
    simp only [hst] at hs ⊢
    exact ⟨hidx.trans hs.1, hout.trans (hnil hs.2)⟩
  | setChannels =>
    have hd := hnext hst
    rw [Due, hst2, hst] at hd
    exact hd
  | loadCfg =>
    simp only [hst] at hs ⊢
    obtain ⟨hi, ⟨h1, h2⟩ | ⟨cfg, h1, h2, h3⟩⟩ := hs
    · obtain ⟨hw, ho⟩ := hone _ h1
      exact ⟨hidx.trans hi, hbelow _ h2, .inl ⟨hset hw, hout.trans ho⟩⟩
    · obtain ⟨hw, ho⟩ := Took.of_both hl hcb (hlate (.inl hst)) h2
      exact ⟨hidx.trans hi, hsucc 7 cfg hw h3 h1, .inr (hout.trans ho)⟩
  | onConnect =>
    simp only [hst] at hs ⊢
    obtain ⟨hi, hb, ⟨h1, h2⟩ | h1⟩ := hs
    · exact ⟨hidx.trans hi, hbelow _ hb, hkeep h1, fun _ => hout.trans (hnil h2)⟩
    · obtain ⟨hw, -⟩ := Took.of_both hl hcb (hlate (.inr hst)) h1
      refine ⟨hidx.trans hi, hbelow _ hb, hset hw, fun hd => hout.trans (hload hst ?_)⟩
      rwa [hload2.1, hload2.2.1, hload2.2.2] at hd

theorem initializerCb_ok {s1 : Initializer} (hd : s1.Due) (hb : Base s1) (hi : s1.inAntsw = false) :
    Fine (s1.initializerCb w what .ok) := by
  unfold initializerCb
  split
  · rename_i hst
    exact (hb.good hi (by simp only [Stage, hst])).fine (by simp [hst])
  · exact hd.fine hb hi

theorem Good.not_inAntsw (h : Good s) (hst : s.state ≠ .onConnect) : s.inAntsw = false := by
  cases hi : s.inAntsw with
  | false => rfl
  | true => exact absurd (h.inAntsw hi).1 hst

theorem Fine.offStep (h : Fine s) (hst : s.state = .off) : Fine (s.initializerStep w) := by
  refine Due.fine ?_ h.toBase (h.not_inAntsw (by simp [hst]))
  rw [Due, hst]
  exact h.off hst

/-- Completions with other callbacks, but for a heartbeat's that timed out. -/
theorem Fine.complete {r : CmdResult} (h : Fine s) (hcb : cb ≠ .initializer) (hr : r ≠ .timeout) :
    Fine (s.complete w what cb r) := by
  cases cb with
  | initializer => exact absurd rfl hcb
  | heartbeat =>
    cases r with
    | timeout => exact absurd rfl hr
    | ok =>
      simp only [Initializer.complete, heartbeatCompletedCb]
      split
      · rename_i hst
        exact h.offStep hst
      · exact h
    | error | notSupported | offline => exact h
  | antsw => exact h.adds getAntswCompletionCb_adds
  | other => exact h

theorem Good.complete {r : CmdResult} (h : Good s) (hcb : cb ≠ .initializer) (hr : r ≠ .ok) :
    Good (s.complete w what cb r) := by
  cases cb with
  | initializer => exact absurd rfl hcb
  | heartbeat =>
    cases r with
    | ok => exact absurd rfl hr
    | timeout =>
      simp only [Initializer.complete, heartbeatCompletedCb]
      split
      · rename_i hst
        rw [setState_of_ne (by decide)]
        have hb := h.toBase.setState .off (h.connected (by simp [hst]))
        exact hb.good (h.not_inAntsw (by simp [hst])) trivial
      · exact h
    | error | notSupported | offline => exact h
  | antsw => exact h.adds getAntswCompletionCb_adds
  | other => exact h

/-- A command of another module leaves the queue. -/
theorem Adds.drop {c : PendCmd} {rest : List PendCmd} (hl : s.cmdList = c :: rest) (hcb : c.cb ≠ .initializer) :
    Adds [] s { s with cmdList := rest } := by
  refine ⟨rest, s.deferred, _, _, _, rfl, ?_⟩
  have hq : queuedOf s.cmdList = queuedOf rest := by rw [hl, queuedOf_cons, own, if_neg hcb, List.nil_append]
  constructor
  · rw [hq, List.append_nil]
  · intro hr
    rw [hq, List.append_nil]
    exact ⟨hr, rfl⟩
  · exact id

theorem Stage.forget (h : s.Stage) (hh : s.Harmless) : s.forget.Stage := by
  unfold Harmless at hh
  unfold Stage at h ⊢
  have hnone : ∀ {n}, (∀ j < n, s.speedParams j = none) → s.forget.AckedBelow n := by
    intro n hn j hj cfg hcfg
    cases (show s.speedParams j = some cfg from hcfg).symm.trans (hn j hj)
  rw [show s.forget.state = s.state from rfl]
  cases hst : s.state with
  | disc | off | disabled => exact trivial
  | ok | init | getVersion =>
    rw [hst] at h
    exact h
  | setChannels =>
    rw [hst] at h hh
    obtain ⟨channel, cfg, h1, h2, h3, h4, -⟩ := h
    refine ⟨channel, cfg, h1, h2, h3, h4, hnone fun j hj => hh j ?_⟩
    rw [h1]
    exact hj
  | loadCfg =>
    rw [hst] at h hh
    obtain ⟨hi, ⟨h1, -⟩ | ⟨cfg, h1, h2, -⟩⟩ := h
    · exact ⟨hi, .inl ⟨h1, hnone hh⟩⟩
    · exact ⟨hi, .inr ⟨cfg, h1, h2, hnone fun j hj => hh j (Nat.lt_succ_of_lt hj)⟩⟩
  | onConnect =>
    rw [hst] at hh
    exact hh.elim

theorem Good.forget (h : Good s) (hh : s.Harmless) : Good s.forget := by
  refine ⟨⟨h.connected, h.args, h.late, h.reports⟩, fun hi => ?_, h.stage.forget hh⟩
  unfold Harmless at hh
  rw [(h.inAntsw hi).1] at hh
  exact hh.elim

/-! ### Messages -/

theorem Took.of_completes {c : PendCmd} {rest : List PendCmd} {m : KeyerMsg} (hl : s.cmdList = c :: rest)
    (hsent : c.sent = true) (hm : m = .answer ∨ m = .notSupported) :
    s.completes m = true ∧ s.left m = queuedOf rest ++ s.refused := by
  have hc : s.completes m = true := by
    rw [completes, hl]
    rcases hm with rfl | rfl <;> simp [hsent]
  exact ⟨hc, by simp [left, hc, hl]⟩

theorem left_of_not {m : KeyerMsg} (hc : s.completes m = false) : s.left m = s.outstanding := by
  simp [left, hc, outstanding, queued]

/-- The message takes no command off the queue. -/
theorem Good.unanswered {m : KeyerMsg} (h : Good s) (hm : s.StartOk m) (hc : s.completes m = false) : Fine s := by
  refine ⟨h, fun ho => ?_⟩
  rw [← left_of_not hc]
  exact hm (.inl ho)

theorem restart_fine (h : Good s) (hm : s.MessageOk .justRestarted) (cs : List OtherCmd) :
    Fine (if s.state = .ok then ((s.forget.setState .setChannels).callOthers w cs).initializerStep w
      else s.forget.callOthers w cs) := by
  have hc : s.completes .justRestarted = false := by
    unfold completes
    split <;> simp
  have hr := hm.2.1 rfl
  unfold RestartOk at hr
  split
  · rename_i hst
    rw [if_pos hst] at hr
    rw [setState_of_ne (by decide)]
    have ha : Adds [] { s.forget with state := .setChannels } (callOthers w { s.forget with state := .setChannels } cs) :=
      callOthers_adds cs
    generalize callOthers w { s.forget with state := .setChannels } cs = s1 at ha
    have hs := h.stage
    rw [Stage, hst] at hs
    have hb : Base { s.forget with state := .setChannels } :=
      ⟨fun _ => h.connected (by simp [hst]), h.args, h.late, h.reports⟩
    refine Due.fine ?_ (hb.adds ha) (ha.inAntsw.trans (h.not_inAntsw (by simp [hst])))
    have hst1 : s1.state = .setChannels := ha.state
    have hidx : s1.speedIdx = 0 := ha.speedIdx.trans hs
    rw [Due, hst1]
    exact ⟨by omega, ha.eq_nil hr, fun j hj => absurd hj (by omega)⟩
  · rename_i hst
    rw [if_neg hst] at hr
    refine Fine.adds ⟨h.forget hr, fun ho => ?_⟩ (callOthers_adds cs)
    exact (h.unanswered hm.1 hc).off ho

theorem controlMessage_fine {m : KeyerMsg} (h : Good s) (hm : s.MessageOk m) (cs : List OtherCmd) :
    Fine (s.controlMessage w m cs) := by
  have hcalls : s.completes m = false → Fine (s.callOthers w cs) := fun hc =>
    (h.unanswered hm.1 hc).adds (callOthers_adds cs)
  cases m with
  | justRestarted =>
    have := restart_fine (w := w) h hm cs
    rcases hl : s.cmdList with _ | ⟨c, rest⟩ <;> simpa only [controlMessage, hl] using this
  | report =>
    have hc : s.completes .report = false := by
      unfold completes
      split <;> simp
    rcases hl : s.cmdList with _ | ⟨c, rest⟩ <;> simpa only [controlMessage, hl] using hcalls hc
  | answer =>
    rcases hl : s.cmdList with _ | ⟨c, rest⟩
    · simp only [controlMessage, hl]
      exact hcalls (by simp [completes, hl])
    simp only [controlMessage, hl]
    split
    · rename_i hsent
      obtain ⟨hc, hleft⟩ := Took.of_completes hl hsent (.inl rfl)
      refine Fine.adds ?_ (callOthers_adds cs)
      by_cases hcb : c.cb = .initializer
      · have hown : s.firstOwn = true := by simp [firstOwn, hl, hcb]
        obtain ⟨hlate, hload⟩ := hm.2.2 rfl hc hown
        have hd := Due.of_ack h hl hcb (fun ho => hleft ▸ hm.1 (.inl ho)) hlate (fun ho hl => hleft ▸ hload ho hl)
        have ht := Took.first hl hcb
        rw [hcb]
        exact initializerCb_ok hd (ht.base h.toBase).ack (ack_inAntsw.trans (ht.inAntsw h))
      · have hd := Adds.drop hl hcb
        refine Fine.complete (Fine.ack ⟨h.adds hd, fun ho => ?_⟩) hcb (by decide)
        exact hleft.symm.trans (hm.1 (.inl ho))
    · rename_i hsent
      exact hcalls (by simp [completes, hl, hsent])
  | notSupported =>
    rcases hl : s.cmdList with _ | ⟨c, rest⟩
    · simp only [controlMessage, hl]
      exact hcalls (by simp [completes, hl])
    simp only [controlMessage, hl]
    split
    · rename_i hsent
      obtain ⟨hc, hleft⟩ := Took.of_completes hl hsent (.inr rfl)
      refine Fine.adds ?_ (callOthers_adds cs)
      by_cases hcb : c.cb = .initializer
      · have hown : s.firstOwn = true := by simp [firstOwn, hl, hcb]
        have ht := Took.first hl hcb
        rw [hcb]
        by_cases hst : s.state = .disc
        · have hg := (ht.fail (w := w) h (show CmdResult.notSupported ≠ .ok by decide)).1
          exact hg.fine (by simp [initializerCb, hst])
        · refine (ht.fail h (by decide)).2 ?_
          exact hleft.symm.trans (hm.1 (.inr ⟨rfl, hc, hown, hst⟩))
      · have hd := Adds.drop hl hcb
        refine Fine.complete ⟨h.adds hd, fun ho => ?_⟩ hcb (by decide)
        exact hleft.symm.trans (hm.1 (.inl ho))
    · rename_i hsent
      exact hcalls (by simp [completes, hl, hsent])

theorem controlChannelCb_good {m : KeyerMsg} (h : Good s) (hm : s.MessageOk m) (cs : List OtherCmd) :
    Good (s.controlChannelCb w m cs) := by
  have hf := controlMessage_fine (w := w) h hm cs
  unfold controlChannelCb
  generalize s.controlMessage w m cs = s1 at hf
  refine Good.adds ?_ pushCmds_adds
  split
  · rename_i hst
    exact (hf.offStep hst).toGood
  · exact hf.toGood

/-! ### The other events -/

theorem statusConnected_good (h : Good s) (ho : if s.state = .disc ∨
    s.state = .off then s.outstanding = [] else s.Harmless) :
    Good (s.statusConnected w) := by
  unfold statusConnected
  dsimp only
  split
  · rename_i hst
    have hst' : s.state = .disc ∨ s.state = .off := hst
    rw [if_pos hst'] at ho
    rw [setState_of_ne (by decide)]
    have hi : s.inAntsw = false := h.not_inAntsw (by rcases hst' with hst' | hst' <;> simp [hst'])
    have hb : Base { s.forget with connected := true, state := .off } := ⟨fun _ => rfl, h.args, h.late, h.reports⟩
    exact (Due.fine (s := { s.forget with connected := true, state := .off }) ho hb hi).toGood
  · rename_i hst
    have hst' : ¬(s.state = .disc ∨ s.state = .off) := hst
    rw [if_neg hst'] at ho
    have hf := h.forget ho
    exact ⟨⟨fun _ => rfl, hf.args, hf.late, hf.reports⟩, hf.inAntsw, hf.stage⟩

/-- While the keyer is disconnected the completions only end a download of the antenna switching settings. -/
theorem complete_disc {r : CmdResult} (hst : s.state = .disc) (hr : r = .offline) :
    ∃ p, s.complete w what cb r = { s with antswPending := p } := by
  subst hr
  cases cb with
  | initializer => exact ⟨s.antswPending, if_pos hst⟩
  | antsw => exact ⟨false, rfl⟩
  | heartbeat | other => exact ⟨_, rfl⟩

theorem flush_disc (l : List PendCmd) (s : Initializer) (hst : s.state = .disc) :
    ∃ p, l.foldl (fun s c => s.complete w c.what c.cb .offline) s = { s with antswPending := p } := by
  induction l generalizing s with
  | nil => exact ⟨_, rfl⟩
  | cons c l ih =>
    obtain ⟨p, hp⟩ := complete_disc (w := w) hst rfl
    obtain ⟨p', hp'⟩ := ih { s with antswPending := p } hst
    exact ⟨p', by rw [List.foldl_cons, hp, hp']⟩

theorem statusDisconnected_good (h : Good s) (hi : s.inAntsw = false) : Good (s.statusDisconnected w) := by
  unfold statusDisconnected
  split
  · rw [setState_of_ne (by decide), flushCmds]
    obtain ⟨p, hp⟩ := flush_disc (w := w) s.cmdList
      { s with connected := false, state := .disc, cmdList := [] } rfl
    rw [hp]
    have hb : Base { s with connected := false, state := .disc, cmdList := [], antswPending := p } :=
      ⟨fun hn => absurd rfl hn, h.args, h.late, h.reports⟩
    exact hb.good hi trivial
  · exact h

theorem cmdTimeoutCb_good (h : Good s) : Good (s.cmdTimeoutCb w) := by
  unfold cmdTimeoutCb
  split
  · exact h
  rename_i c rest hl
  split
  · refine Good.adds ?_ pushCmds_adds
    by_cases hcb : c.cb = .initializer
    · rw [hcb]
      exact ((Took.first hl hcb).fail h (by decide)).1
    · exact (h.adds (Adds.drop hl hcb)).complete hcb (by decide)
  · exact h

/-- The `i`th element is taken out of the list. -/
theorem eraseIdx_split {α : Type*} {l : List α} {i : Nat} {x : α} (h : l[i]? = some x) :
    ∃ as bs, l = as ++ x :: bs ∧ l.eraseIdx i = as ++ bs := by
  induction l generalizing i with
  | nil => simp at h
  | cons y l ih =>
    cases i with
    | zero =>
      obtain rfl : y = x := by simpa using h
      exact ⟨[], l, rfl, rfl⟩
    | succ i =>
      obtain ⟨as, bs, h1, h2⟩ := ih (by simpa using h)
      exact ⟨y :: as, bs, by rw [h1, List.cons_append], by rw [List.eraseIdx_cons_succ, h2, List.cons_append]⟩

theorem handleDeferred_good (h : Good s) (i : Nat) : Good (s.handleDeferred w i) := by
  unfold handleDeferred
  split
  · exact h
  rename_i t ht
  obtain ⟨as, bs, hd, he⟩ := eraseIdx_split ht
  rw [he]
  have hr : s.refused = refusedOf as ++ (own t.what t.cb ++ refusedOf bs) := by
    rw [refused, hd, refusedOf_append, refusedOf_cons]
  have hlate : LateFail s.deferred → LateFail (as ++ bs) := by
    intro hl t' ht'
    refine hl t' ?_
    rw [hd]
    rcases List.mem_append.1 ht' with ht' | ht'
    · exact List.mem_append_left _ ht'
    · exact List.mem_append_right _ (List.mem_cons_of_mem _ ht')
  by_cases hcb : t.cb = .initializer
  · have htook : Took t.what s { s with deferred := as ++ bs } := by
      refine ⟨⟨s.cmdList, _, rfl⟩, ?_, hlate⟩
      rw [own, if_pos hcb] at hr
      have hmid : (s.queued ++ refusedOf as ++ t.what :: refusedOf bs).Perm
          (t.what :: (s.queued ++ refusedOf as ++ refusedOf bs)) := List.perm_middle
      rw [List.append_assoc, List.append_assoc, ← refusedOf_append] at hmid
      rw [outstanding, hr]
      exact hmid
    rw [hcb]
    exact (htook.fail h (h.late t (List.mem_of_getElem? ht))).1
  · rw [own, if_neg hcb, List.nil_append] at hr
    have ha : Adds [] s { s with deferred := as ++ bs } := by
      refine ⟨s.cmdList, _, _, _, _, rfl, ?_, fun hn => ?_, hlate⟩
      · rw [refusedOf_append, ← hr, List.append_nil]
        exact .refl _
      · rw [refusedOf_append, ← hr] at hn
        exact ⟨hn, by rw [List.append_nil]⟩
    exact (h.adds ha).complete hcb (h.late t (List.mem_of_getElem? ht))

/-- The settings of a channel change that has not been passed, or become what they are. -/
theorem Good.settings {channel : Nat} {cfg : SpeedCfg} {args : Nat → Option SpeedCfg} (h : Good s)
    (hs : s.Settable channel cfg)
    (hargs : ∀ j, ∀ c ∈ args j, Function.update s.speedParams channel (some cfg) j = some c) :
    Good { s with speedArgs := args, speedParams := Function.update s.speedParams channel (some cfg) } := by
  refine ⟨⟨h.connected, hargs, h.late, h.reports⟩, h.inAntsw, ?_⟩
  have hsame : s.speedParams channel = some cfg → Function.update s.speedParams channel (some cfg) =
    s.speedParams :=
    fun he => by rw [← he, Function.update_eq_self]
  have hst := h.stage
  unfold Settable at hs
  unfold Stage at hst ⊢
  generalize hu : Function.update s.speedParams channel (some cfg) = params at hsame
  cases hstate : s.state with
  | disc | off | disabled => exact trivial
  | ok | init | getVersion =>
    rw [hstate] at hst
    exact hst
  | loadCfg | onConnect =>
    rw [hstate] at hst hs
    rw [hsame hs]
    exact hst
  | setChannels =>
    rw [hstate] at hst hs
    rcases hs with hlt | heq
    · obtain ⟨ch, c, h1, h2, h3, h4, h5⟩ := hst
      have hne : ∀ j ≤ ch, params j = s.speedParams j := fun j hj => by
        rw [← hu]
        exact Function.update_of_ne (by omega) ..
      refine ⟨ch, c, h1, h2, (hne ch (Nat.le_refl _)).trans h3, h4, fun j hj c' hc' => ?_⟩
      exact h5 j hj c' ((hne j (Nat.le_of_lt hj)) ▸ hc')
    · rw [hsame heq]
      exact hst

theorem mhcSetSpeed_good {channel : Nat} {cfg : SpeedCfg} (h : Good s) (hs : s.Settable channel cfg) :
    Good (s.mhcSetSpeed w channel cfg) := by
  unfold mhcSetSpeed
  split
  · have hg : Good { s with
        speedArgs := Function.update s.speedArgs channel (some cfg)
        speedParams := Function.update s.speedParams channel (some cfg) } := h.settings hs fun j c hc => by
      by_cases hj : j = channel
      · subst hj
        rw [Function.update_self] at hc ⊢
        exact hc
      · rw [Function.update_of_ne hj] at hc ⊢
        exact h.args j c hc
    dsimp only
    split
    · exact hg.adds submitSpeedCmd_adds
    · exact hg
  · exact h

theorem mhcSetSpeedParams_good {channel : Nat} {cfg : SpeedCfg} (h : Good s) (hs : s.Settable channel cfg)
    (hold : ∀ old ∈ s.speedArgs channel, old = cfg) : Good (s.mhcSetSpeedParams w channel cfg) := by
  unfold mhcSetSpeedParams
  split
  · have hg := h.settings hs fun j c hc => by
      by_cases hj : j = channel
      · subst hj
        rw [Function.update_self, hold c hc]
      · rw [Function.update_of_ne hj]
        exact h.args j c hc
    dsimp only
    split
    · exact hg.adds submitSpeedCmd_adds
    · exact hg
  · exact h

theorem antswReturn_good (h : Good s) : Good (s.antswReturn w) := by
  unfold antswReturn
  split
  · rename_i hc
    obtain ⟨hst, hk, ho⟩ := h.inAntsw hc.1
    have hs := h.stage
    simp only [Stage, hst] at hs
    obtain ⟨hidx, hbelow, -⟩ := hs
    have hcomplete : Complete { s with inAntsw := false } := ⟨h.connected (by simp [hst]), hbelow, hk⟩
    refine Good.adds ?_ pushCmds_adds
    simp only [setState, if_pos, decide_eq_true hcomplete]
    refine ⟨⟨fun _ => h.connected (by simp [hst]), h.args, h.late, fun r hr => ?_⟩, nofun, hidx⟩
    rcases List.mem_append.1 hr with hr | hr
    · exact h.reports r hr
    · exact List.mem_singleton.1 hr
  · exact h

theorem Good.step (h : Good s) (e : InitEnv × InitEv) (ho : s.Orderly e) : Good (s.step e) := by
  obtain ⟨w, e⟩ := e
  cases e with
  | connect => exact statusConnected_good h ho
  | disconnect => exact statusDisconnected_good h ho
  | message m cs => exact controlChannelCb_good h ho cs
  | heartbeat =>
    unfold Initializer.step
    dsimp only
    split
    · exact h
    · exact h.adds submitCmd_adds
  | cmdTimeout => exact cmdTimeoutCb_good h
  | deferred i => exact handleDeferred_good h i
  | setSpeed channel cfg => exact mhcSetSpeed_good h ho
  | setSpeedParams channel cfg => exact mhcSetSpeedParams_good h ho.1 ho.2
  | call c => exact h.adds submitCmd_adds
  | getAntsw =>
    unfold Initializer.step
    dsimp only
    split
    · exact h.adds smGetAntsw_adds
    · exact h
  | antswReturn => exact antswReturn_good h

theorem good_mhcCreate (kcfg hasDisplay sm : Bool) : Good (mhcCreate kcfg hasDisplay sm) :=
  ⟨⟨fun h => absurd rfl h, fun _ _ h => (Option.not_mem_none _ h).elim, fun _ h => (List.not_mem_nil h).elim,
    fun _ h => (List.not_mem_nil h).elim⟩, fun h => (Bool.false_ne_true h).elim, trivial⟩

/-- While every event leaves the chain whole, the keyer is online only when it is connected and has acknowledged
the settings of every valid channel and the settings block. -/
theorem online_complete (kcfg hasDisplay sm : Bool) (evs : List (InitEnv × InitEv))
    (h : Run.StepsOk step Orderly (mhcCreate kcfg hasDisplay sm) evs) :
    ∀ r ∈ (runs kcfg hasDisplay sm evs).reports, r = true :=
  (Run.run_inv_of_ok (I := Good) (fun _ e hg ho => hg.step e ho) (good_mhcCreate kcfg hasDisplay sm) h).reports

/-- Every command fits, and the antenna switching settings are one block. -/
def allFits : InitEnv where
  fits := fun _ => true
  kcfgCreate := true
  block := .last

/-- 4800 baud, 8 data bits. -/
def radioCfg : SpeedCfg where
  baud := 4800
  stopbits := 1
  databits := 8
  rtscts := 0
  rigtype := 0
  icomaddress := 0
  icomsimulateautoinfo := 0
  digitalovervoicerule := 0
  usedecoderifconnected := 0
  dontinterfereusbcontrol := 0

def plain (evs : List InitEv) : List (InitEnv × InitEv) := evs.map fun e => (allFits, e)

def answers (n : Nat) : List InitEv := List.replicate n (.message .answer [])

/-- The settings of R1 and R2 FSK, and answers to ping, version, both channels, the settings block and ON CONNECT. -/
def undisturbed : List (InitEnv × InitEv) :=
  plain ([.setSpeedParams 4 radioCfg, .setSpeedParams 7 radioCfg, .connect] ++ answers 6)

theorem online_complete_undisturbed :
    (runs true false false undisturbed).reports = [true] ∧
      ∀ r ∈ (runs true false false undisturbed).reports, r = true :=
  ⟨by decide, online_complete true false false undisturbed (by decide)⟩

/-- The keyer restarts when it has acknowledged R1's settings. -/
def restartUnnoticed : List (InitEnv × InitEv) :=
  plain ([.setSpeedParams 4 radioCfg, .connect] ++ answers 3 ++ [.message .justRestarted []] ++ answers 2)

/-- The keyer is unplugged while the antenna switching settings are read. -/
def unpluggedInDownload : List (InitEnv × InitEv) :=
  plain ([.connect] ++ answers 4 ++ [.disconnect, .antswReturn])

theorem online_not_complete :
    (runs true false false restartUnnoticed).reports = [false] ∧
      (runs true false true unpluggedInDownload).reports = [false] ∧
      (runs true false true unpluggedInDownload).connected = false := by
  decide

end Initializer

end Mhuxd
