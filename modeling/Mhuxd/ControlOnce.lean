import Mhuxd.ControlWire

/-!
# Every command is completed once

Each submission is completed, waits for its deferred completion or is queued, and only one of these
(`Accounted`). Only the head of the queue is handed over, its timer runs, and commands are handed over in
the order of their submission: `Good n` has all those still queued from number `n` on.

A callback that runs the event loop itself ends, for the queue, where it does so: the events of its loop
come next, and what it does afterwards is a call of its own. The push that is left to do then finds the
head handed over or the queue empty.
-/

namespace Mhuxd

/-! ### What is queued for the control channel -/

namespace Link

/-- An act that neither feeds the control channel nor connects leaves what was queued for it. -/
theorem queued_act {r : Router} {e : RouterEv} {l : Link} {x : LinkAct} (hok : LinkOk r e l x)
    (hno : ∀ p, Queues e .control p → p = []) (hon : x ≠ .online) :
    (l.act x).wire.queued .control = l.wire.queued .control := by
  have hpush : ∀ l : Link, l.push.wire.queued .control = l.wire.queued .control := by
    intro l
    unfold push
    split_ifs
    · show upd l.wire.queued .flags (l.wire.queued .flags ++ [l.sync.wflag]) .control = _
      exact upd_of_ne _ _ (by decide)
    · rfl
  have hmasks : ∀ (ch : Channel) (i : Nat) (masks : List UInt8) (l : Link),
      (masks.foldl (setMask ch i) l).wire.queued .control = l.wire.queued .control := by
    intro ch i masks
    induction masks with
    | nil => exact fun _ => rfl
    | cons m masks ih => exact fun l => ih (setMask ch i l m)
  cases x with
  | queue ch p =>
    show upd l.wire.queued ch (l.wire.queued ch ++ p) .control = _
    rcases eq_or_ne ch .control with rfl | hne
    · rw [hno p hok.2.2.2, List.append_nil]
      exact upd_self ..
    · exact upd_of_ne _ _ hne.symm
  | take ch b => rfl
  | addProducer ch => rfl
  | remProducer ch i =>
    show (if _ then (l.erase ch i).push else l.erase ch i).wire.queued .control = _
    split_ifs
    · exact hpush _
    · rfl
  | holds ch i masks => exact (hpush _).trans (hmasks ch i masks l)
  | mux => rfl
  | write n => rfl
  | offline =>
    show l.drop.wire.queued .control = _
    unfold drop
    split_ifs <;> rfl
  | online => exact absurd rfl hon

end Link

namespace Router

theorem queued_of_linked {r a : Router} {e : RouterEv} (h : Linked r e r a) (hfeed : e.feeds = false)
    (hfd : ∀ fd, e ≠ .setKeyerFd (some fd)) : a.wire.queued .control = r.wire.queued .control := by
  obtain ⟨acts, hlink, hacts⟩ := h
  show a.link.wire.queued .control = r.link.wire.queued .control
  rw [hlink]
  refine Run.run_inv_of_ok (I := fun l => l.wire.queued .control = r.link.wire.queued .control) ?_ rfl hacts
  intro l x hl hx
  refine (Link.queued_act hx (fun _ hq => e.not_feeds hfeed hq) ?_).trans hl
  rintro rfl
  obtain ⟨-, fd, he, -⟩ := hx
  exact hfd fd he

end Router

namespace Control

/-! ### Accounts -/

/-- The submissions completed. -/
def completed (ctl : Control) : List Nat :=
  ctl.log.filterMap fun o =>
    match o with
    | .complete id _ => some id
    | _ => none

/-- What was queued for the control channel since the latest connect. -/
def queuedCtl (ctl : Control) : List UInt8 := ctl.router.wire.queued .control

/-- With the queue `q`: every submission is completed, deferred or queued, once. -/
structure Accounted (q : List QCmd) (ctl : Control) : Prop where
  once : (ctl.completed ++ ctl.deferred.map (·.1) ++ q.map (·.id)).Perm (List.range ctl.submits)
  order : q.Pairwise fun c d => c.id < d.id
  tail : ∀ c ∈ q.tail, c.sent = false

/-- With the queue `q`: the timer runs while the head is handed over, and the commands that are not are
those from number `n` on. -/
structure Good (n : Nat) (q : List QCmd) (ctl : Control) : Prop extends Accounted q ctl where
  timer : ctl.cmdTimer = busy q
  floor : n ≤ ctl.submits
  sent : ∀ c ∈ q, c.sent = true → c.id < n
  waits : ∀ c ∈ q, c.sent = false → n ≤ c.id

/-- The commands handed over, with the queue `qa` before. -/
inductive Handed (qa : List QCmd) (a b : Control) : List QCmd → Prop
  | none (hq : b.queuedCtl = a.queuedCtl) (hb : busy b.cmdList = busy qa)
    (hhead : busy qa = true → b.cmdList.head? = qa.head?) : Handed qa a b []
  | one {c : QCmd} (hq : b.queuedCtl = a.queuedCtl ++ c.cmd.bytes) (hidle : busy qa = false)
    (hhead : b.cmdList.head? = some c) (hs : c.sent = true) : Handed qa a b [c]

/-- The number from which on commands wait when those of `hs` are handed over. -/
def nextFloor (n : Nat) (hs : List QCmd) : Nat := hs.foldl (fun _ c => c.id + 1) n

/-- From `a` with the queue `qa` to `b`: the commands of `hs` are handed over, none is lost. -/
structure Pushes (n : Nat) (qa : List QCmd) (a : Control) (hs : List QCmd) (b : Control) : Prop where
  handed : Handed qa a b hs
  good : Good (nextFloor n hs) b.cmdList b
  above : ∀ c ∈ hs, n ≤ c.id
  offline : a.router.link.online = false → b.router.link.online = false ∧ hs = []

variable {ctl a b : Control} {n : Nat} {q qa hs hs' : List QCmd}

theorem Pushes.refl (h : Good n a.cmdList a) : Pushes n a.cmdList a [] a :=
  ⟨.none rfl rfl fun _ => rfl, h, fun _ hc => absurd hc List.not_mem_nil, fun ho => ⟨ho, rfl⟩⟩

theorem Pushes.trans {c : Control} (h : Pushes n qa a hs b) (h' : Pushes (nextFloor n hs) b.cmdList b hs' c) :
    Pushes n qa a (hs ++ hs') c := by
  have hoff : a.router.link.online = false → c.router.link.online = false ∧ hs ++ hs' = [] := fun ho => by
    obtain ⟨hb, rfl⟩ := h.offline ho
    obtain ⟨hc, rfl⟩ := h'.offline hb
    exact ⟨hc, rfl⟩
  have hgood := h'.good
  have habove := h'.above
  have hhanded := h.handed
  cases h'.handed with
  | none hq hb hhead =>
    rw [List.append_nil] at hoff ⊢
    refine ⟨?_, hgood, h.above, hoff⟩
    cases hhanded with
    | none hq' hb' hhead' =>
      refine .none (hq.trans hq') (hb.trans hb') fun hbusy => ?_
      exact (hhead (hb'.trans hbusy)).trans (hhead' hbusy)
    | one hq' hidle hhead' hs' =>
      refine .one (hq.trans hq') hidle ((hhead ?_).trans hhead') hs'
      rw [busy, hhead']
      exact hs'
  | one hq hidle hhead hs' =>
    cases hhanded with
    | none hq' hb' hhead' =>
      refine ⟨.one (hq.trans (by rw [hq'])) (hb'.symm.trans hidle) hhead hs', hgood, habove, hoff⟩
    | one hq' hidle' hhead' hs'' =>
      rw [busy, hhead', Option.any_some, hs''] at hidle
      exact absurd hidle (by decide)

/-! ### The push -/

/-- The head or all commands have been handed over or dropped. -/
def AtRest (q : List QCmd) : Prop := q = [] ∨ busy q = true

theorem completed_complete (ctl : Control) (id : Nat) (res : CmdResult) :
    (ctl.complete id res).completed = ctl.completed ++ [id] := by
  show (ctl.log ++ [CtlObs.complete id res]).filterMap _ = _
  rw [List.filterMap_append]
  rfl

theorem completed_note (ctl : Control) (cmd : Command) : (ctl.noteSubmit cmd).completed = ctl.completed := by
  show (ctl.log ++ [CtlObs.submit ctl.submits cmd]).filterMap _ = _
  rw [List.filterMap_append]
  exact List.append_nil _

theorem mhrSendIn_queued (r : Router) (p : List UInt8) :
    (r.mhrSendIn p .control).1.link.online = r.link.online ∧
      (r.mhrSendIn p .control).1.wire.queued .control =
        if r.canSend p .control then r.wire.queued .control ++ p else r.wire.queued .control := by
  have hlink := r.mhrSendIn_link p .control
  refine ⟨?_, ?_⟩
  · rw [hlink]
    split_ifs <;> rfl
  · show (r.mhrSendIn p .control).1.link.wire.queued .control = _
    rw [hlink]
    split_ifs
    · show upd r.wire.queued .control (r.wire.queued .control ++ p) .control = _
      exact upd_self ..
    · rfl

/-- The head is dropped. -/
theorem Good.drop {c : QCmd} (h : Good n (c :: q) ctl) (hc : c.sent = false) (r : Router) :
    Good n q ({ ctl with router := r }.deferCallback c.id .error) := by
  obtain ⟨-, hq⟩ := List.pairwise_cons.1 h.order
  have hrest : ∀ d ∈ q, d.sent = false := h.tail
  refine ⟨⟨?_, hq, fun d hd => hrest d (List.mem_of_mem_tail hd)⟩, ?_, h.floor,
    fun d hd => h.sent d (List.mem_cons_of_mem _ hd), fun d hd => h.waits d (List.mem_cons_of_mem _ hd)⟩
  · have heq : ctl.completed ++ (ctl.deferred ++ [(c.id, CmdResult.error)]).map (·.1) ++ q.map (·.id) =
        ctl.completed ++ ctl.deferred.map (·.1) ++ (c :: q).map (·.id) := by simp
    show (ctl.completed ++ (ctl.deferred ++ [(c.id, CmdResult.error)]).map (·.1) ++ q.map (·.id)).Perm _
    rw [heq]
    exact h.once
  · refine h.timer.trans ?_
    rw [busy, List.head?_cons, Option.any_some, hc]
    cases q with
    | nil => rfl
    | cons d q => exact (hrest d (List.mem_cons_self ..)).symm

/-- The head is handed over. -/
theorem Good.send {c : QCmd} (h : Good n (c :: q) ctl) (r : Router) :
    Good (c.id + 1) ({ c with sent := true } :: q)
      { ctl with router := r, cmdTimer := true, cmdList := { c with sent := true } :: q } := by
  obtain ⟨hlt, hq⟩ := List.pairwise_cons.1 h.order
  have hrest : ∀ d ∈ q, d.sent = false := h.tail
  have hmem : c.id ∈ List.range ctl.submits := h.once.subset (List.mem_append_right _ (List.mem_cons_self ..))
  refine ⟨⟨h.once, List.pairwise_cons.2 ⟨hlt, hq⟩, hrest⟩, rfl, List.mem_range.1 hmem, fun d hd hs => ?_,
    fun d hd hs => ?_⟩
  · rcases List.mem_cons.1 hd with rfl | hd
    · exact Nat.lt_succ_self _
    · exact absurd (hs.symm.trans (hrest d hd)) (by decide)
  · rcases List.mem_cons.1 hd with rfl | hd
    · exact absurd hs (by simp)
    · exact hlt d hd

theorem Good.pushLoop (h : Good n q ctl) : ∃ hs, Pushes n q ctl hs (pushLoop q ctl) ∧
    AtRest (pushLoop q ctl).cmdList := by
  induction q generalizing ctl with
  | nil =>
    have hgood : Good n [] { ctl with cmdList := [] } := ⟨⟨h.once, h.order, h.tail⟩, h.timer, h.floor, h.sent,
      h.waits⟩
    exact ⟨[], ⟨.none rfl rfl fun _ => rfl, hgood, fun _ hc => absurd hc List.not_mem_nil,
      fun ho => ⟨ho, rfl⟩⟩, .inl rfl⟩
  | cons c q ih =>
    unfold Control.pushLoop
    by_cases hc : c.sent = true
    · rw [if_pos hc]
      have hgood : Good n (c :: q) { ctl with cmdList := c :: q } :=
        ⟨⟨h.once, h.order, h.tail⟩, h.timer, h.floor, h.sent, h.waits⟩
      exact ⟨[], ⟨.none rfl rfl fun _ => rfl, hgood, fun _ hc => absurd hc List.not_mem_nil,
        fun ho => ⟨ho, rfl⟩⟩, .inr hc⟩
    rw [if_neg hc]
    have hc' : c.sent = false := Bool.eq_false_of_not_eq_true hc
    have hsent := ctl.router.mhrSendIn_sent c.cmd.bytes .control
    obtain ⟨hon, hqueued⟩ := mhrSendIn_queued ctl.router c.cmd.bytes
    dsimp only
    by_cases hcan : ctl.router.canSend c.cmd.bytes .control = true
    · rw [if_pos hcan] at hsent hqueued
      rw [if_pos hsent]
      refine ⟨[{ c with sent := true }], ⟨.one hqueued hc' rfl rfl, h.send _, fun d hd => ?_,
        fun ho => ?_⟩, .inr rfl⟩
      · rw [List.mem_singleton.1 hd]
        exact h.waits c (List.mem_cons_self ..) hc'
      · have hfd : ctl.router.fd.isSome = false := ho
        simp only [Router.canSend, Bool.and_eq_true, hfd] at hcan
        exact absurd hcan.1.2 Bool.false_ne_true
    · rw [if_neg hcan] at hsent hqueued
      rw [hsent, if_neg (by simp)]
      obtain ⟨hs, hp, hrest⟩ := ih (h.drop hc' _)
      refine ⟨hs, ⟨?_, hp.good, hp.above, fun ho => hp.offline (hon.trans ho)⟩, hrest⟩
      have hidle : busy q = busy (c :: q) := (h.drop hc' ctl.router).timer.symm.trans h.timer
      cases hp.handed with
      | none hq hb hhead =>
        refine .none (hq.trans hqueued) (hb.trans hidle) fun hbusy => absurd (hbusy.symm.trans hc') (by decide)
      | one hq _ hhead hs => exact .one (hq.trans (congrArg (· ++ _) hqueued)) hc' hhead hs

/-- A push. -/
theorem Good.pushCmds (h : Good n ctl.cmdList ctl) :
    ∃ hs, Pushes n ctl.cmdList ctl hs ctl.pushCmds ∧ AtRest ctl.pushCmds.cmdList := h.pushLoop

/-! ### Submissions and calls -/

/-- The submission gets its number. -/
theorem Good.note_defer (h : Good n ctl.cmdList ctl) (cmd : Command) (res : CmdResult) :
    Good n ctl.cmdList ((ctl.noteSubmit cmd).deferCallback ctl.submits res) := by
  refine ⟨⟨?_, h.order, h.tail⟩, h.timer, Nat.le_succ_of_le h.floor, h.sent, h.waits⟩
  show ((ctl.noteSubmit cmd).completed ++ (ctl.deferred ++ [(ctl.submits, res)]).map (·.1) ++
    ctl.cmdList.map (·.id)).Perm
    (List.range (ctl.submits + 1))
  rw [completed_note, List.range_succ, List.map_append, List.append_assoc, List.append_assoc]
  have hswap : ([ctl.submits] ++ ctl.cmdList.map (·.id)).Perm (ctl.cmdList.map (·.id) ++ [ctl.submits]) :=
    List.perm_append_comm
  refine ((hswap.append_left (ctl.deferred.map (·.1))).append_left ctl.completed).trans ?_
  rw [← List.append_assoc, ← List.append_assoc]
  exact h.once.append_right [ctl.submits]

theorem Good.note_queue (h : Good n ctl.cmdList ctl) (cmd : Command) :
    Good n (ctl.cmdList ++ [⟨ctl.submits, cmd, false⟩]) (ctl.noteSubmit cmd) := by
  have hlt : ∀ c ∈ ctl.cmdList, c.id < ctl.submits := fun c hc =>
    List.mem_range.1 (h.once.subset (List.mem_append_right _ (List.mem_map_of_mem hc)))
  refine ⟨⟨?_, ?_, ?_⟩, ?_, Nat.le_succ_of_le h.floor, fun c hc hs => ?_, fun c hc hs => ?_⟩
  · show ((ctl.noteSubmit cmd).completed ++ ctl.deferred.map (·.1) ++
      (ctl.cmdList ++ [(⟨ctl.submits, cmd, false⟩ : QCmd)]).map (·.id)).Perm (List.range (ctl.submits + 1))
    rw [completed_note, List.range_succ, List.map_append, ← List.append_assoc]
    exact h.once.append_right [ctl.submits]
  · refine List.pairwise_append.2 ⟨h.order, List.pairwise_singleton _ _, fun c hc d hd => ?_⟩
    rw [List.mem_singleton.1 hd]
    exact hlt c hc
  · intro c hc
    rcases hq : ctl.cmdList with _ | ⟨d, q⟩
    · rw [hq] at hc
      exact absurd hc List.not_mem_nil
    · rw [hq] at hc
      rcases List.mem_append.1 (show c ∈ q ++ [_] from hc) with hc | hc
      · exact h.tail c (by rw [hq]; exact hc)
      · rw [List.mem_singleton.1 hc]
  · refine h.timer.trans ?_
    rcases ctl.cmdList with _ | ⟨d, q⟩ <;> rfl
  · rcases List.mem_append.1 hc with hc | hc
    · exact h.sent c hc hs
    · rw [List.mem_singleton.1 hc] at hs
      exact absurd hs (by simp)
  · rcases List.mem_append.1 hc with hc | hc
    · exact h.waits c hc hs
    · rw [List.mem_singleton.1 hc]
      exact h.floor

theorem Good.setList (h : Good n q ctl) (l : List QCmd) : Good n q { ctl with cmdList := l } :=
  ⟨⟨h.once, h.order, h.tail⟩, h.timer, h.floor, h.sent, h.waits⟩

/-- Nothing is handed over but what the push at the end does. -/
theorem Pushes.of_queue {q' : List QCmd} {a' : Control} (h : Pushes n q' a' hs b) (hq : a'.queuedCtl = a.queuedCtl)
    (hoff : a.router.link.online = false → a'.router.link.online = false) (hb : busy q' = busy qa)
    (hhead : busy qa = true → q'.head? = qa.head?) :
    Pushes n qa a hs b := by
  refine ⟨?_, h.good, h.above, fun ho => h.offline (hoff ho)⟩
  cases h.handed with
  | none hq' hb' hhead' =>
    exact .none (hq'.trans hq) (hb'.trans hb) fun hbusy => (hhead' (hb.trans hbusy)).trans (hhead hbusy)
  | one hq' hidle hhead' hs => exact .one (hq'.trans (congrArg (· ++ _) hq)) (hb.symm.trans hidle) hhead' hs

theorem Good.submitCmd (h : Good n ctl.cmdList ctl) (cmd : Command) :
    ∃ hs, Pushes n ctl.cmdList ctl hs (ctl.submitCmd cmd) ∧ (AtRest ctl.cmdList →
      AtRest (ctl.submitCmd cmd).cmdList) := by
  have hdefer : ∀ res, ∃ hs, Pushes n ctl.cmdList ctl hs ((ctl.noteSubmit cmd).deferCallback ctl.submits res) ∧
      (AtRest ctl.cmdList → AtRest ((ctl.noteSubmit cmd).deferCallback ctl.submits res).cmdList) := fun res =>
    ⟨[], ⟨.none rfl rfl fun _ => rfl, h.note_defer cmd res, fun _ hc => absurd hc List.not_mem_nil, fun ho =>
      ⟨ho, rfl⟩⟩, id⟩
  unfold Control.submitCmd
  dsimp only
  split_ifs
  · exact hdefer _
  · exact hdefer _
  · exact hdefer _
  · obtain ⟨hs, hp, hrest⟩ := ((h.note_queue cmd).setList _).pushLoop
    have hqueued : (ctl.noteSubmit cmd).queuedCtl = ctl.queuedCtl := rfl
    have hhead : busy ctl.cmdList = true →
        (ctl.cmdList ++ [(⟨ctl.submits, cmd, false⟩ : QCmd)]).head? = ctl.cmdList.head? := by
      rcases ctl.cmdList with _ | ⟨d, q⟩
      · exact fun hb => absurd hb (by decide)
      · exact fun _ => rfl
    have hb : busy (ctl.cmdList ++ [(⟨ctl.submits, cmd, false⟩ : QCmd)]) = busy ctl.cmdList :=
      (h.note_queue cmd).timer.symm.trans h.timer
    exact ⟨hs, hp.of_queue hqueued id hb hhead, fun _ => hrest⟩

/-- Other modules' calls of the router. -/
theorem call_queued (ctl : Control) (e : RouterEv) :
    ∃ r, ctl.call (.router e) = { ctl with router := r } ∧ r.wire.queued .control =
    ctl.router.wire.queued .control ∧
      (ctl.router.link.online = false → r.link.online = false) := by
  obtain ⟨r, hr, hf⟩ := ctl.call_router e
  refine ⟨r, hr, ?_, hf.offline⟩
  have hrouter : (ctl.call (.router e)).router = r := by rw [hr]
  rw [← hrouter]
  unfold Control.call
  dsimp only
  by_cases h : e.isCall = true
  · rw [if_pos h]
    refine Router.queued_of_linked (Router.link_step _ e) ?_ ?_
    · cases e with
      | sendIn p ch =>
        cases ch with
        | control => exact absurd h (by simp [RouterEv.isCall])
        | _ => rfl
      | producer ch i res => exact absurd h Bool.false_ne_true
      | _ => rfl
    · rintro fd rfl
      exact absurd h Bool.false_ne_true
  · rw [if_neg h]

theorem Good.calls (h : Good n ctl.cmdList ctl) (cs : List CtlCall) :
    ∃ hs, Pushes n ctl.cmdList ctl hs (ctl.calls cs) ∧ (AtRest ctl.cmdList → AtRest (ctl.calls cs).cmdList) := by
  induction cs generalizing n ctl with
  | nil => exact ⟨[], .refl h, id⟩
  | cons c cs ih =>
    have hone : ∃ hs, Pushes n ctl.cmdList ctl hs (ctl.call c) ∧
      (AtRest ctl.cmdList → AtRest (ctl.call c).cmdList) := by
      cases c with
      | submit cmd => exact h.submitCmd cmd
      | setState s =>
        have hgood : Good n ctl.cmdList (ctl.setState s) := ⟨⟨h.once, h.order, h.tail⟩, h.timer, h.floor,
          h.sent, h.waits⟩
        exact ⟨[], ⟨.none rfl rfl fun _ => rfl, hgood, fun _ hc => absurd hc List.not_mem_nil, fun ho =>
          ⟨ho, rfl⟩⟩, id⟩
      | router e =>
        obtain ⟨r, hr, hq, hoff⟩ := ctl.call_queued e
        rw [hr]
        have hgood : Good n ctl.cmdList { ctl with router := r } :=
          ⟨⟨h.once, h.order, h.tail⟩, h.timer, h.floor, h.sent, h.waits⟩
        exact ⟨[], ⟨.none hq rfl fun _ => rfl, hgood, fun _ hc => absurd hc List.not_mem_nil, fun ho =>
          ⟨hoff ho, rfl⟩⟩, id⟩
    obtain ⟨hs, hp, hrest⟩ := hone
    obtain ⟨hs', hp', hrest'⟩ := ih hp.good
    exact ⟨hs ++ hs', hp.trans hp', fun hr => hrest' (hrest hr)⟩

/-! ### Completions -/

/-- The head is completed. -/
theorem Good.complete {c : QCmd} (h : Accounted (c :: q) ctl) (hn : n ≤ ctl.submits)
    (hw : ∀ d ∈ q, n ≤ d.id) (res : CmdResult) :
    Good n q ({ ctl with cmdTimer := false, cmdList := q }.complete c.id res) := by
  obtain ⟨-, hq⟩ := List.pairwise_cons.1 h.order
  have hrest : ∀ d ∈ q, d.sent = false := h.tail
  refine ⟨⟨?_, hq, fun d hd => hrest d (List.mem_of_mem_tail hd)⟩, ?_, hn, fun d hd hs => ?_, fun d hd _ =>
    hw d hd⟩
  · have hlog : ({ ctl with cmdTimer := false, cmdList := q }.complete c.id res).completed = ctl.completed ++
      [c.id] :=
      completed_complete { ctl with cmdTimer := false, cmdList := q } c.id res
    rw [hlog]
    show (ctl.completed ++ [c.id] ++ ctl.deferred.map (·.1) ++ q.map (·.id)).Perm _
    have hswap : ([c.id] ++ ctl.deferred.map (·.1)).Perm (ctl.deferred.map (·.1) ++ [c.id]) :=
      List.perm_append_comm
    rw [List.append_assoc ctl.completed]
    refine ((hswap.append_left ctl.completed).append_right (q.map (·.id))).trans ?_
    have heq : ctl.completed ++ (ctl.deferred.map (·.1) ++ [c.id]) ++ q.map (·.id) =
        ctl.completed ++ ctl.deferred.map (·.1) ++ (c :: q).map (·.id) := by simp
    rw [heq]
    exact h.once
  · show false = busy q
    rcases q with _ | ⟨d, q⟩
    · rfl
    · exact (hrest d (List.mem_cons_self ..)).symm
  · exact absurd (hs.symm.trans (hrest d hd)) (by decide)

/-- Without a keyer every command is taken off the queue, and none is handed over. -/
theorem flushLoop_good {k : Nat} {done : List (List CtlCall)} (h : Accounted ctl.cmdList ctl)
    (hn : n ≤ ctl.submits)
    (hsent : ∀ c ∈ ctl.cmdList, c.sent = false → n ≤ c.id) (ht : ctl.cmdTimer = false)
    (hoff : ctl.router.link.online = false) (hk : ctl.cmdList.length + (done.map List.length).sum ≤ k) :
    Good n [] (flushLoop k done ctl) ∧ (flushLoop k done ctl).cmdList = [] ∧
      (flushLoop k done ctl).queuedCtl = ctl.queuedCtl := by
  induction k generalizing ctl done with
  | zero =>
    have hnil : ctl.cmdList = [] := List.length_eq_zero_iff.1 (by omega)
    rw [hnil] at h
    exact ⟨⟨h, ht, hn, fun _ hc => absurd hc List.not_mem_nil, fun _ hc => absurd hc List.not_mem_nil⟩, hnil, rfl⟩
  | succ k ih =>
    unfold Control.flushLoop
    rcases hq : ctl.cmdList with _ | ⟨c, q⟩
    · rw [hq] at h
      exact ⟨⟨h, ht, hn, fun _ hc => absurd hc List.not_mem_nil, fun _ hc => absurd hc List.not_mem_nil⟩, hq, rfl⟩
    · rw [hq] at h hsent hk
      have hrest : ∀ d ∈ q, d.sent = false := h.tail
      have hgood := Good.complete h hn (fun d hd => hsent d (List.mem_cons_of_mem _ hd) (hrest d hd)) .offline
      have heq : ({ ctl with cmdList := q } : Control) = { ctl with cmdTimer := false, cmdList := q } := by rw [ht]
      dsimp only
      rw [heq]
      let done1 : Control := { ctl with cmdTimer := false, cmdList := q }.complete c.id .offline
      have hdone1 : Good n done1.cmdList done1 := hgood
      obtain ⟨hs, hp, -⟩ := hdone1.calls (done.headD [])
      obtain ⟨hoff', rfl⟩ := hp.offline hoff
      have hlen : (({ ctl with cmdTimer := false, cmdList := q } : Control).complete c.id .offline |>.calls
          (done.headD [])).cmdList.length ≤ q.length + (done.headD []).length := calls_length _ _
      have hsum : (done.map List.length).sum = (done.headD []).length + (done.tail.map List.length).sum := by
        cases done with
        | nil => rfl
        | cons d ds => rfl
      cases hp.handed with
      | none hqueued hbusy hhead =>
        have htimer := hp.good.timer.trans (hbusy.trans hgood.timer.symm)
        have hk' : q.length + (done.headD []).length + (done.tail.map List.length).sum ≤ k := by
          rw [List.length_cons] at hk
          omega
        obtain ⟨hg, hnil, hqueued'⟩ := ih hp.good.toAccounted hp.good.floor hp.good.waits htimer hoff'
          (Nat.le_trans (Nat.add_le_add_right hlen _) hk')
        exact ⟨hg, hnil, hqueued'.trans hqueued⟩

/-! ### The steps -/

/-- The command that is handed over in a step from `a` to `b`. -/
def newlySent (a b : Control) : List QCmd :=
  b.cmdList.head?.toList.filter fun c => c.sent && !(a.cmdList.head?.any fun d => d.sent && d.id == c.id)

theorem Handed.newly {a' : Control} (h : Handed a.cmdList a' b hs) : newlySent a b = hs := by
  unfold newlySent
  cases h with
  | none hq hb hhead =>
    rcases hbusy : busy a.cmdList with _ | _
    · rw [hbusy] at hb
      rcases hc : b.cmdList.head? with _ | c
      · rfl
      · rw [busy, hc, Option.any_some] at hb
        simp [hb]
    · rw [hhead hbusy]
      rcases hc : a.cmdList.head? with _ | c
      · rfl
      · rw [busy, hc, Option.any_some] at hbusy
        simp [hbusy]
  | one hq hidle hhead hs =>
    rw [hhead]
    rcases hc : a.cmdList.head? with _ | d
    · simp [hs]
    · rw [busy, hc, Option.any_some] at hidle
      simp [hs, hidle]

/-- The head of `a` has been completed. -/
theorem Pushes.newly_completed {a' : Control} {d : QCmd} (h : Pushes n q a' hs b) (ha : a.cmdList = d :: q)
    (hd : d.id < n) (hrest : ∀ c ∈ q, c.sent = false) : newlySent a b = hs := by
  have hidle : busy q = false := by
    rcases q with _ | ⟨c, q⟩
    · rfl
    · exact hrest c (List.mem_cons_self ..)
  unfold newlySent
  rw [ha]
  cases h.handed with
  | none hq hb hhead =>
    rw [hidle] at hb
    rcases hc : b.cmdList.head? with _ | c
    · rfl
    · rw [busy, hc, Option.any_some] at hb
      simp [hb]
  | @one c hq hidle hhead hs =>
    rw [hhead]
    have hne : d.id ≠ c.id := by
      have := h.above c (List.mem_singleton_self c)
      omega
    simp [hs, hne]

/-- What a step from `a`, at rest, to `b` does: the commands of `hs` are handed over. -/
structure Stepped (n : Nat) (a : Control) (hs : List QCmd) (b : Control) : Prop where
  good : Good (nextFloor n hs) b.cmdList b
  rest : AtRest b.cmdList
  above : ∀ c ∈ hs, n ≤ c.id
  newly : newlySent a b = hs

theorem Pushes.stepped {a' : Control} (h : Pushes n a.cmdList a' hs b) (hr : AtRest b.cmdList) :
    Stepped n a hs b :=
  ⟨h.good, hr, h.above, h.handed.newly⟩

/-- `b` has handed over the commands of `hs` behind what was queued since `was`. -/
theorem Handed.queued {a' : Control} (h : Handed qa a' b hs) :
    b.queuedCtl = a'.queuedCtl ++ hs.flatMap fun c => c.cmd.bytes := by
  cases h with
  | none hq hb hhead => exact hq.trans (List.append_nil _).symm
  | one hq hidle hhead hs => rw [hq, List.flatMap_singleton]

theorem Good.setRouter (h : Good n q ctl) (r : Router) : Good n q { ctl with router := r } :=
  ⟨⟨h.once, h.order, h.tail⟩, h.timer, h.floor, h.sent, h.waits⟩

theorem newlySent_nil (h : b.cmdList = []) : newlySent a b = [] := by
  rw [newlySent, h]
  rfl

/-- The queue is as it was. -/
theorem Good.stay (hb : Good n a.cmdList b) (hr : AtRest a.cmdList) (hq : b.cmdList = a.cmdList) :
    Stepped n a [] b := by
  have hnew : Handed a.cmdList b b [] := .none rfl (by rw [hq]) fun _ => by rw [hq]
  exact ⟨by rwa [hq], by rwa [hq], fun _ hc => absurd hc List.not_mem_nil, hnew.newly⟩

theorem Good.emptied (h : Good n [] b) (hnil : b.cmdList = []) : Stepped n a [] b :=
  ⟨by rwa [hnil], .inl hnil, fun _ hc => absurd hc List.not_mem_nil, newlySent_nil hnil⟩

/-- The router becomes another one that is no new connect. -/
theorem Good.routed (h : Good n ctl.cmdList ctl) (hr : AtRest ctl.cmdList) {r : Router}
    (hq : r.wire.queued .control = ctl.queuedCtl) (hfd : r.fd = ctl.router.fd ∨ r.fd = none) (seen : List CtlCall)
    (done : List (List CtlCall)) :
    Stepped n ctl [] (ctl.routed r seen done) ∧ (ctl.routed r seen done).queuedCtl = ctl.queuedCtl := by
  unfold Control.routed
  by_cases hsame : r.fd = ctl.router.fd
  · rw [if_pos hsame]
    exact ⟨(h.setRouter r).stay hr rfl, hq⟩
  · rw [if_neg hsame]
    have hnone : r.fd = none := hfd.resolve_left hsame
    have hoff : r.link.online = false := by
      show r.fd.isSome = false
      rw [hnone]
      rfl
    rw [hnone]
    let ctl' : Control := { ctl with router := r }.setState .disc
    have hgood : Good n ctl'.cmdList ctl' := ⟨⟨h.once, h.order, h.tail⟩, h.timer, h.floor, h.sent, h.waits⟩
    obtain ⟨hs, hp, -⟩ := hgood.calls seen
    obtain ⟨hoff', rfl⟩ := hp.offline hoff
    let stopped : Control := { ctl'.calls seen with cmdTimer := false }
    have hacc : Accounted stopped.cmdList stopped := ⟨hp.good.once, hp.good.order, hp.good.tail⟩
    have hk : stopped.cmdList.length + (done.map List.length).sum ≤ (ctl'.calls seen).cmdList.length + (done.map List.length).sum :=
      Nat.le_refl _
    obtain ⟨hg, hnil, hqueued⟩ := flushLoop_good hacc hp.good.floor hp.good.waits rfl hoff' hk
    refine ⟨hg.emptied hnil, ?_⟩
    exact (hqueued.trans hp.handed.queued).trans ((List.append_nil _).trans hq)

/-- A keyer connects. -/
theorem Good.connect (h : Good n ctl.cmdList ctl) (hr : AtRest ctl.cmdList)
    {fd : Nat} (hfd : ctl.router.fd ≠ some fd)
    (seen : List CtlCall) (done : List (List CtlCall)) :
    ∃ hs, Stepped n ctl hs (ctl.routed (ctl.router.mhrSetKeyerFd (some fd)) seen done) ∧
      (ctl.routed (ctl.router.mhrSetKeyerFd (some fd)) seen done).queuedCtl = hs.flatMap fun c => c.cmd.bytes := by
  have hfd' := ctl.router.mhrSetKeyerFd_fd (some fd)
  let ctl' : Control := { ctl with router := ctl.router.mhrSetKeyerFd (some fd), log := ctl.log ++ [.connect] }
  have hempty : ctl'.queuedCtl = [] := by
    show (ctl.router.mhrSetKeyerFd (some fd)).link.wire.queued .control = []
    rw [Router.link_online hfd]
    rfl
  have hcompleted : ctl'.completed = ctl.completed := by
    show (ctl.log ++ [CtlObs.connect]).filterMap _ = _
    rw [List.filterMap_append]
    exact List.append_nil _
  have hgood : Good n ctl'.cmdList ctl' := by
    refine ⟨⟨?_, h.order, h.tail⟩, h.timer, h.floor, h.sent, h.waits⟩
    rw [hcompleted]
    exact h.once
  have hrouted : ctl.routed (ctl.router.mhrSetKeyerFd (some fd)) seen done =
    ctl'.routerStatusCb true seen done := by
    unfold Control.routed
    rw [if_neg (by rw [hfd']; exact hfd.symm), hfd']
    rfl
  rw [hrouted]
  unfold Control.routerStatusCb
  rw [if_pos rfl]
  split_ifs
  · have hoff : Good n ctl'.cmdList (ctl'.setState .off) :=
      ⟨⟨hgood.once, h.order, h.tail⟩, h.timer, h.floor, h.sent, h.waits⟩
    have hoff' : Good n (ctl'.setState .off).cmdList (ctl'.setState .off) := hoff
    obtain ⟨hs, hp, hrest⟩ := hoff'.calls seen
    obtain ⟨hs', hp', hrest'⟩ := hp.good.calls kickOff
    have hp'' : Pushes n ctl.cmdList (ctl'.setState .off) (hs ++ hs')
      (((ctl'.setState .off).calls seen).calls kickOff) :=
      hp.trans hp'
    refine ⟨hs ++ hs', hp''.stepped (hrest' (hrest hr)), hp''.handed.queued.trans ?_⟩
    show ctl'.queuedCtl ++ _ = _
    rw [hempty]
    rfl
  · exact ⟨[], Good.stay (a := ctl) hgood hr rfl, hempty⟩

/-- The calls of a report's callbacks and the push behind them. -/
theorem Good.reported (h : Good n ctl.cmdList ctl) (cs : List CtlCall) :
    ∃ hs, Pushes n ctl.cmdList ctl hs
        (if (ctl.calls cs).state = .off then (ctl.calls cs).calls kickOff else ctl.calls cs).pushCmds ∧
      AtRest (if (ctl.calls cs).state = .off then (ctl.calls cs).calls kickOff else ctl.calls cs).pushCmds.cmdList := by
  obtain ⟨hs, hp, -⟩ := h.calls cs
  split_ifs
  · obtain ⟨hs', hp', -⟩ := hp.good.calls kickOff
    obtain ⟨hs'', hp'', hrest⟩ := hp'.good.pushCmds
    exact ⟨_, hp.trans (hp'.trans hp''), hrest⟩
  · obtain ⟨hs', hp', hrest⟩ := hp.good.pushCmds
    exact ⟨_, hp.trans hp', hrest⟩

/-- What a step that leaves the keyer connected does, from the queue as it is. -/
theorem Pushes.stepped_queued (h : Pushes n a.cmdList a hs b) (hr : AtRest b.cmdList) :
    Stepped n a hs b ∧ b.queuedCtl = a.queuedCtl ++ hs.flatMap fun c => c.cmd.bytes :=
  ⟨h.stepped hr, h.handed.queued⟩

/-- What a step does that completes the head. -/
theorem Pushes.stepped_completed {c : QCmd} {res : CmdResult} (ha : Good n a.cmdList a) (hq : a.cmdList = c :: q)
    (hc : c.sent = true) (h : Pushes n q ({ a with cmdTimer := false, cmdList := q }.complete c.id res) hs b)
    (hr : AtRest b.cmdList) :
    Stepped n a hs b ∧ b.queuedCtl = a.queuedCtl ++ hs.flatMap fun c => c.cmd.bytes := by
  have htail := ha.tail
  rw [hq] at htail
  have hid : c.id < n := ha.sent c (by rw [hq]; exact List.mem_cons_self ..) hc
  exact ⟨⟨h.good, hr, h.above, h.newly_completed hq hid htail⟩, h.handed.queued⟩

theorem Good.completeHead {c : QCmd} (h : Good n a.cmdList a) (hq : a.cmdList = c :: q) (res : CmdResult) :
    Good n q ({ a with cmdTimer := false, cmdList := q }.complete c.id res) := by
  have hacc := h.toAccounted
  have hwaits := h.waits
  rw [hq] at hacc hwaits
  have hrest : ∀ d ∈ q, d.sent = false := hacc.tail
  exact Good.complete hacc h.floor (fun d hd => hwaits d (List.mem_cons_of_mem _ hd) (hrest d hd)) res

theorem Good.controlChannelCb (h : Good n a.cmdList a) (data : List UInt8) (cs : List CtlCall) :
    ∃ hs, Stepped n a hs (a.controlChannelCb data cs) ∧
      (a.controlChannelCb data cs).queuedCtl = a.queuedCtl ++ hs.flatMap fun c => c.cmd.bytes := by
  have hkept : ∃ hs, Stepped n a hs
        (if (a.calls cs).state = .off then (a.calls cs).calls kickOff else a.calls cs).pushCmds ∧
      (if (a.calls cs).state = .off then (a.calls cs).calls kickOff else a.calls cs).pushCmds.queuedCtl =
        a.queuedCtl ++ hs.flatMap fun c => c.cmd.bytes := by
    obtain ⟨hs, hp, hr⟩ := h.reported cs
    exact ⟨hs, hp.stepped_queued hr⟩
  unfold Control.controlChannelCb Control.controlMessage
  rcases hq : a.cmdList with _ | ⟨c, q⟩
  · exact hkept
  · rcases hrep : replyTo c data with _ | res
    · simp only [hrep]
      exact hkept
    · simp only [hrep]
      have hc : c.sent = true := by
        by_contra hc
        rw [replyTo, if_pos (Bool.eq_false_of_not_eq_true hc)] at hrep
        exact absurd hrep (by simp)
      let a' : Control := { a with cmdTimer := false, cmdList := q }.complete c.id res
      have ha' : Good n a'.cmdList a' := h.completeHead hq res
      obtain ⟨hs, hp, hr⟩ := ha'.reported cs
      exact ⟨hs, Pushes.stepped_completed h hq hc hp hr⟩

theorem Good.cmdTimeout (h : Good n a.cmdList a) (hr : AtRest a.cmdList) (cs : List CtlCall) :
    ∃ hs, Stepped n a hs (a.step (.cmdTimeout cs)) ∧
      (a.step (.cmdTimeout cs)).queuedCtl = a.queuedCtl ++ hs.flatMap fun c => c.cmd.bytes := by
  have hidle : ∃ hs, Stepped n a hs a ∧ a.queuedCtl = a.queuedCtl ++ hs.flatMap fun c => c.cmd.bytes :=
    ⟨[], (Pushes.refl h).stepped_queued hr⟩
  show ∃ hs, Stepped n a hs (if a.cmdTimer then ({ a with cmdTimer := false } : Control).cmdTimeoutCb cs else a) ∧ _
  by_cases ht : a.cmdTimer = true
  · rw [step, if_pos ht]
    have hbusy := h.timer.symm.trans ht
    unfold Control.cmdTimeoutCb
    rcases hq : a.cmdList with _ | ⟨c, q⟩
    · rw [hq] at hbusy
      exact absurd hbusy (by decide)
    · rw [hq] at hbusy
      have hc : c.sent = true := hbusy
      dsimp only
      rw [if_pos hc]
      let a' : Control := { a with cmdTimer := false, cmdList := q }.complete c.id .timeout
      have ha' : Good n a'.cmdList a' := h.completeHead hq .timeout
      obtain ⟨hs, hp, -⟩ := ha'.calls cs
      obtain ⟨hs', hp', hr'⟩ := hp.good.pushCmds
      exact ⟨hs ++ hs', Pushes.stepped_completed h hq hc (hp.trans hp') hr'⟩
  · rw [step, if_neg ht]
    exact hidle

theorem Good.handleDeferred (h : Good n a.cmdList a) (hr : AtRest a.cmdList) (i : Nat) (cs : List CtlCall) :
    ∃ hs, Stepped n a hs (a.handleDeferred i cs) ∧
      (a.handleDeferred i cs).queuedCtl = a.queuedCtl ++ hs.flatMap fun c => c.cmd.bytes := by
  unfold Control.handleDeferred
  rcases hd : a.deferred[i]? with _ | ⟨id, res⟩
  · exact ⟨[], (Pushes.refl h).stepped_queued hr⟩
  · let a' : Control := { a with deferred := a.deferred.eraseIdx i }.complete id res
    have hperm : (id :: (a.deferred.eraseIdx i).map (·.1)).Perm (a.deferred.map (·.1)) := by
      obtain ⟨hi, hget⟩ := List.getElem?_eq_some_iff.1 hd
      have := (List.getElem_cons_eraseIdx_perm hi).map (·.1)
      rwa [List.map_cons, hget] at this
    have ha' : Good n a'.cmdList a' := by
      refine ⟨⟨?_, h.order, h.tail⟩, h.timer, h.floor, h.sent, h.waits⟩
      have hlog : a'.completed = a.completed ++ [id] :=
        completed_complete { a with deferred := a.deferred.eraseIdx i } id res
      rw [hlog, List.append_assoc a.completed]
      exact ((hperm.append_left a.completed).append_right (a.cmdList.map (·.id))).trans h.once
    obtain ⟨hs, hp, hrest⟩ := ha'.calls cs
    have hp' : Pushes n a.cmdList a hs (a'.calls cs) := hp.of_queue rfl (fun ho => ho) rfl fun _ => rfl
    exact ⟨hs, hp'.stepped_queued (hrest hr)⟩

end Control

/-- The event is no connector's write to the control channel. -/
def CtlEv.unfed : CtlEv → Bool
  | .router e => !e.feeds
  | _ => true

/-- A timeout or a deferred completion whose callback calls nothing. -/
def CtlEv.silent : CtlEv → Bool
  | .cmdTimeout cs | .deferred _ cs => cs.isEmpty
  | _ => false

namespace Control

variable {a : Control} {n : Nat}

/-- The event connects a keyer. -/
def connects (ctl : Control) : CtlEv → Bool
  | .setKeyerFd (some fd) _ _ => ctl.router.fd != some fd
  | _ => false

/-- What was queued for the control channel since the latest connect, just before the event's commands. -/
def queuedAt (ctl : Control) (e : CtlEv) : List UInt8 := if ctl.connects e then [] else ctl.queuedCtl

theorem Good.stepped (h : Good n a.cmdList a) (hr : AtRest a.cmdList) (e : CtlEv) :
    ∃ hs, Stepped n a hs (a.step e) ∧
      (e.unfed = true → (a.step e).queuedCtl = a.queuedAt e ++ hs.flatMap fun c => c.cmd.bytes) := by
  have hrouted : ∀ {re : RouterEv} {r : Router}, Linked a.router re a.router r → re.feeds = false →
      (∀ fd, re ≠ .setKeyerFd (some fd)) → (r.fd = a.router.fd ∨ r.fd = none) → ∀ seen done,
      ∃ hs, Stepped n a hs (a.routed r seen done) ∧
        (a.routed r seen done).queuedCtl = a.queuedCtl ++ hs.flatMap fun c => c.cmd.bytes := by
    intro re r hl hfeed hno hfd seen done
    obtain ⟨hs, hq⟩ := h.routed hr (Router.queued_of_linked hl hfeed hno) hfd seen done
    exact ⟨[], hs, hq.trans (List.append_nil _).symm⟩
  have hkept : ∃ hs, Stepped n a hs a ∧ a.queuedCtl = a.queuedCtl ++ hs.flatMap fun c => c.cmd.bytes :=
    ⟨[], (Pushes.refl h).stepped_queued hr⟩
  have hlift : ∀ {b : Control}, (∃ hs, Stepped n a hs b ∧ b.queuedCtl = a.queuedCtl ++ hs.flatMap fun c =>
    c.cmd.bytes) →
      a.queuedAt e = a.queuedCtl → ∃ hs, Stepped n a hs b ∧
        (e.unfed = true → b.queuedCtl = a.queuedAt e ++ hs.flatMap fun c => c.cmd.bytes) := by
    rintro b ⟨hs, hst, hq⟩ hat
    exact ⟨hs, hst, fun _ => by rw [hat]; exact hq⟩
  cases e with
  | router e =>
    show ∃ hs, Stepped n a hs (if e.isEndpoint then { a with router := a.router.step e } else a) ∧ _
    rw [step]
    split_ifs with hend
    · have hst : Stepped n a [] { a with router := a.router.step e } := (h.setRouter _).stay hr rfl
      refine ⟨[], hst, fun hun => ?_⟩
      have hfeed : e.feeds = false := by simpa [CtlEv.unfed] using hun
      refine (Router.queued_of_linked (Router.link_step _ e) hfeed ?_).trans (List.append_nil _).symm
      rintro fd rfl
      exact absurd hend Bool.false_ne_true
    · exact hlift hkept rfl
  | setKeyerFd fd seen done =>
    rcases fd with _ | fd
    · have hl : Linked a.router (.setKeyerFd none) a.router (a.router.mhrSetKeyerFd none) := Router.linked_offline
      exact hlift (hrouted hl rfl (by simp) (.inr (Router.mhrSetKeyerFd_fd _ _)) seen done) rfl
    · by_cases hfd : a.router.fd = some fd
      · have hsame : a.router.mhrSetKeyerFd (some fd) = a.router := by rw [Router.mhrSetKeyerFd, if_pos hfd.symm]
        have hat : a.queuedAt (.setKeyerFd (some fd) seen done) = a.queuedCtl := by simp [queuedAt, connects, hfd]
        show ∃ hs, Stepped n a hs (a.routed (a.router.mhrSetKeyerFd (some fd)) seen done) ∧ _
        rw [step, hsame]
        obtain ⟨hs, hq⟩ := h.routed hr rfl (.inl rfl) seen done
        exact hlift ⟨[], hs, hq.trans (List.append_nil _).symm⟩ hat
      · obtain ⟨hs, hst, hq⟩ := h.connect hr hfd seen done
        have hat : a.queuedAt (.setKeyerFd (some fd) seen done) = [] := by simp [queuedAt, connects, hfd]
        exact ⟨hs, hst, fun _ => by rw [hat]; exact hq⟩
  | keyerRead res seen done =>
    rw [step]
    split_ifs
    · have hl : Linked a.router (.keyerIn res) a.router (a.router.keyerRead res) := Router.linked_keyerRead res
      exact hlift (hrouted hl rfl (by simp) (Router.keyerRead_fd _ _) seen done) rfl
    · exact hlift hkept rfl
  | keyerByte cs =>
    let a' : Control := { a with router := a.router.keyerByte.1 }
    have ha' : Good n a'.cmdList a' := h.setRouter _
    have hqueued : a'.queuedCtl = a.queuedCtl := by
      show a.router.keyerByte.1.link.wire.queued .control = a.router.link.wire.queued .control
      rw [Router.link_keyerByte]
    have hfrom : ∀ {b : Control}, (∃ hs, Stepped n a' hs b ∧
      b.queuedCtl = a'.queuedCtl ++ hs.flatMap fun c => c.cmd.bytes) →
        ∃ hs, Stepped n a hs b ∧ b.queuedCtl = a.queuedCtl ++ hs.flatMap fun c => c.cmd.bytes := by
      rintro b ⟨hs, hst, hq⟩
      exact ⟨hs, ⟨hst.good, hst.rest, hst.above, hst.newly⟩, hq.trans (by rw [hqueued])⟩
    have hcalls : ∃ hs, Stepped n a' hs (a'.calls cs) ∧
        (a'.calls cs).queuedCtl = a'.queuedCtl ++ hs.flatMap fun c => c.cmd.bytes := by
      obtain ⟨hs, hp, hrest⟩ := ha'.calls cs
      exact ⟨hs, hp.stepped_queued (hrest hr)⟩
    refine hlift (hfrom ?_) rfl
    show ∃ hs, Stepped n a' hs (a.keyerByte cs) ∧ _
    rw [step]
    unfold Control.keyerByte
    dsimp only
    rcases hrep : a.router.keyerByte.2 with _ | ⟨ch, data⟩
    · exact ⟨[], (Pushes.refl ha').stepped_queued hr⟩
    · cases ch with
      | control => exact ha'.controlChannelCb data cs
      | _ => exact hcalls
  | keyerOut res seen done =>
    rw [step]
    split_ifs
    · have hl := @Router.linked_keyerOutCb a.router res
      exact hlift (hrouted hl rfl (by simp) (Router.keyerOutCb_fd _ _) seen done) rfl
    · exact hlift hkept rfl
  | calls cs =>
    obtain ⟨hs, hp, hrest⟩ := h.calls cs
    exact hlift ⟨hs, hp.stepped_queued (hrest hr)⟩ rfl
  | heartbeat =>
    rw [step]
    split_ifs
    · obtain ⟨hs, hp, hrest⟩ := h.submitCmd areYouThere
      exact hlift ⟨hs, hp.stepped_queued (hrest hr)⟩ rfl
    · exact hlift hkept rfl
  | cmdTimeout cs => exact hlift (h.cmdTimeout hr cs) rfl
  | deferred i cs => exact hlift (h.handleDeferred hr i cs) rfl

/-! ### Runs -/

/-- The commands handed over in a run, in order. -/
def handed (ctl : Control) : List CtlEv → List QCmd
  | [] => []
  | e :: evs => newlySent ctl (ctl.step e) ++ handed (ctl.step e) evs

theorem newlySent_one (a b : Control) : newlySent a b = [] ∨ ∃ c, newlySent a b = [c] := by
  unfold newlySent
  rcases b.cmdList.head? with _ | c
  · exact .inl rfl
  · rw [Option.toList_some, List.filter_singleton]
    cases c.sent && !a.cmdList.head?.any fun d => d.sent && d.id == c.id with
    | true => exact .inr ⟨c, rfl⟩
    | false => exact .inl rfl

theorem Good.run (h : Good n a.cmdList a) (hr : AtRest a.cmdList) (evs : List CtlEv) :
    (∃ m, Good m (Run.run step a evs).cmdList (Run.run step a evs)) ∧ AtRest (Run.run step a evs).cmdList ∧
      (a.handed evs).Pairwise (fun c d => c.id < d.id) ∧ ∀ c ∈ a.handed evs, n ≤ c.id := by
  induction evs generalizing n a with
  | nil => exact ⟨⟨n, h⟩, hr, List.Pairwise.nil, fun c hc => absurd hc List.not_mem_nil⟩
  | cons e evs ih =>
    obtain ⟨hs, hst, -⟩ := h.stepped hr e
    obtain ⟨hgood, hrest, horder, habove⟩ := ih hst.good hst.rest
    refine ⟨hgood, hrest, ?_⟩
    show (newlySent a (a.step e) ++ (a.step e).handed evs).Pairwise _ ∧
      ∀ c ∈ newlySent a (a.step e) ++ (a.step e).handed evs, n ≤ c.id
    have hfirst := hst.above
    rcases newlySent_one a (a.step e) with hnil | ⟨c, hone⟩
    · obtain rfl : hs = [] := hst.newly.symm.trans hnil
      rw [hnil]
      exact ⟨horder, habove⟩
    · obtain rfl : hs = [c] := hst.newly.symm.trans hone
      rw [hone]
      have hc : n ≤ c.id := hfirst c (List.mem_singleton_self c)
      refine ⟨List.pairwise_cons.2 ⟨habove, horder⟩, fun d hd => ?_⟩
      rcases List.mem_cons.1 hd with rfl | hd
      · exact hc
      · have : c.id + 1 ≤ d.id := habove d hd
        omega

theorem good_create (hasFlags : Bool) : Good 0 (mhcCreate hasFlags).cmdList (mhcCreate hasFlags) :=
  ⟨⟨List.Perm.refl _, List.Pairwise.nil, fun _ hc => absurd hc List.not_mem_nil⟩, rfl, Nat.le_refl _,
    fun _ hc => absurd hc List.not_mem_nil, fun _ hc => absurd hc List.not_mem_nil⟩

/-! ### Nothing stays queued for ever -/

theorem pushLoop_submits (q : List QCmd) (ctl : Control) : (pushLoop q ctl).submits = ctl.submits := by
  induction q generalizing ctl with
  | nil => rfl
  | cons c q ih =>
    unfold pushLoop
    dsimp only
    split_ifs
    · rfl
    · rfl
    · exact ih _

/-- Each timeout takes a command off the queue. -/
theorem Good.timeouts (h : Good n a.cmdList a) (hr : AtRest a.cmdList) :
    ∃ evs : List CtlEv, (∀ e ∈ evs, e.silent = true) ∧ (Run.run step a evs).cmdList = [] ∧
      (Run.run step a evs).submits = a.submits := by
  generalize hk : a.cmdList.length = k
  induction k using Nat.strongRecOn generalizing n a with
  | ind k ih =>
    rcases hq : a.cmdList with _ | ⟨c, q⟩
    · exact ⟨[], fun _ he => absurd he List.not_mem_nil, hq, rfl⟩
    · have hc : c.sent = true := by
        rw [AtRest, hq] at hr
        exact hr.resolve_left (List.cons_ne_nil _ _)
      have ht : a.cmdTimer = true := by
        rw [h.timer, hq]
        exact hc
      have hstep : a.step (.cmdTimeout []) =
          ({ a with cmdTimer := false, cmdList := q }.complete c.id .timeout).pushCmds := by
        rw [step, if_pos ht, Control.cmdTimeoutCb]
        simp only [hq, hc, if_true]
        rfl
      obtain ⟨hs, hst, -⟩ := h.cmdTimeout hr []
      have hlen : (a.step (.cmdTimeout [])).cmdList.length < k := by
        have : (a.step (.cmdTimeout [])).cmdList.length ≤ q.length := by
          rw [hstep]
          exact pushLoop_length _ _
        rw [← hk, hq, List.length_cons]
        omega
      obtain ⟨evs, hsil, hnil, hsub⟩ := ih _ hlen hst.good hst.rest rfl
      refine ⟨.cmdTimeout [] :: evs, ?_, hnil, hsub.trans ?_⟩
      · rintro e (_ | ⟨_, he⟩)
        · rfl
        · exact hsil e he
      · rw [hstep]
        exact pushLoop_submits _ _

/-- The deferred completions are called. -/
theorem deferred_run (ctl : Control) : ∃ evs : List CtlEv, (∀ e ∈ evs, e.silent = true) ∧
    (Run.run step ctl evs).deferred = [] ∧ (Run.run step ctl evs).cmdList = ctl.cmdList ∧
      (Run.run step ctl evs).submits = ctl.submits := by
  generalize hk : ctl.deferred.length = k
  induction k generalizing ctl with
  | zero => exact ⟨[], fun _ he => absurd he List.not_mem_nil, List.length_eq_zero_iff.1 hk, rfl, rfl⟩
  | succ k ih =>
    rcases hd : ctl.deferred with _ | ⟨⟨id, res⟩, ds⟩
    · rw [hd] at hk
      exact absurd hk (by simp)
    · have hstep : ctl.step (.deferred 0 []) = { ctl with deferred := ds }.complete id res := by
        show ctl.handleDeferred 0 [] = _
        simp only [handleDeferred, hd, List.getElem?_cons_zero, List.eraseIdx_cons_zero]
        rfl
      have hlen : ({ ctl with deferred := ds }.complete id res).deferred.length = k := by
        rw [hd, List.length_cons] at hk
        exact Nat.succ.inj hk
      obtain ⟨evs, hsil, hnil, hq, hsub⟩ := ih ({ ctl with deferred := ds }.complete id res) hlen
      rw [← hstep] at hnil hq hsub
      refine ⟨.deferred 0 [] :: evs, ?_, hnil, hq.trans ?_, hsub.trans ?_⟩
      · rintro e (_ | ⟨_, he⟩)
        · rfl
        · exact hsil e he
      · rw [hstep]
        rfl
      · rw [hstep]
        rfl

/-- The command queue after a run. -/
structure ExactlyOnce (hasFlags : Bool) (evs : List CtlEv) : Prop where
  /-- Every submission has been completed, or its completion is deferred, or it is queued, and once. -/
  once : ((runs hasFlags evs).completed ++ (runs hasFlags evs).deferred.map (·.1) ++
    (runs hasFlags evs).cmdList.map (·.id)).Perm (List.range (runs hasFlags evs).submits)
  /-- Only the head is handed over, and it is if there is one. -/
  head : ∀ c ∈ (runs hasFlags evs).cmdList.tail, c.sent = false
  rest : (runs hasFlags evs).cmdList = [] ∨ busy (runs hasFlags evs).cmdList = true
  timer : (runs hasFlags evs).cmdTimer = busy (runs hasFlags evs).cmdList
  /-- Commands are handed over in the order of their submission, and each once. -/
  order : ((mhcCreate hasFlags).handed evs).Pairwise fun c d => c.id < d.id
  /-- Their bytes, and no others, are queued for the control channel when they are handed over. -/
  queued : ∀ before e after, evs = before ++ e :: after → e.unfed = true →
    (runs hasFlags (before ++ [e])).queuedCtl = (runs hasFlags before).queuedAt e ++
      (newlySent (runs hasFlags before) (runs hasFlags (before ++ [e]))).flatMap fun c => c.cmd.bytes
  /-- The timeouts and the deferred completions complete all there is. -/
  drains : ∃ evs' : List CtlEv, (∀ e ∈ evs', e.silent = true) ∧
    (runs hasFlags (evs ++ evs')).completed.Perm (List.range (runs hasFlags evs).submits)

theorem exactly_once (hasFlags : Bool) (evs : List CtlEv) : ExactlyOnce hasFlags evs := by
  have hrun : ∀ evs, (∃ m, Good m (runs hasFlags evs).cmdList (runs hasFlags evs)) ∧
    AtRest (runs hasFlags evs).cmdList :=
    fun evs => ⟨((good_create hasFlags).run (.inl rfl) evs).1, ((good_create hasFlags).run (.inl rfl) evs).2.1⟩
  obtain ⟨⟨m, hgood⟩, hrest⟩ := hrun evs
  refine ⟨hgood.once, hgood.tail, hrest, hgood.timer, ((good_create hasFlags).run (.inl rfl) evs).2.2.1, ?_, ?_⟩
  · intro before e after _ hun
    obtain ⟨⟨k, hb⟩, hbr⟩ := hrun before
    obtain ⟨hs, hst, hq⟩ := hb.stepped hbr e
    have hsnoc : runs hasFlags (before ++ [e]) = (runs hasFlags before).step e := Run.run_append ..
    rw [hsnoc, hst.newly]
    exact hq hun
  · obtain ⟨evs₁, hsil₁, hnil, hsub⟩ := hgood.timeouts hrest
    obtain ⟨evs₂, hsil₂, hdef, hnil', hsub'⟩ := deferred_run (Run.run step (runs hasFlags evs) evs₁)
    rw [← Run.run_append] at hdef hnil' hsub'
    have heq : runs hasFlags (evs ++ (evs₁ ++ evs₂)) = Run.run step (runs hasFlags evs) (evs₁ ++ evs₂) :=
      Run.run_append ..
    refine ⟨evs₁ ++ evs₂, fun e he => ?_, ?_⟩
    · rcases List.mem_append.1 he with he | he
      · exact hsil₁ e he
      · exact hsil₂ e he
    · obtain ⟨⟨k, hend⟩, -⟩ := hrun (evs ++ (evs₁ ++ evs₂))
      have honce := hend.once
      rw [heq, hdef, hnil', hnil, hsub', hsub] at honce
      rw [heq]
      simpa using honce

end Control

end Mhuxd
