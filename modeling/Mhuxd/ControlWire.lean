import Mhuxd.Control
import Mhuxd.Weave

/-!
# Control commands reach the keyer whole

What the keyer has read of the control channel since the connect, with what is still on its way, is
the link's control stream. The router only adds idle slots to it (`CtlFrame`); a command handed over
while the CONTROL buffer is empty adds its slots. So the stream stays a weave of the commands handed
over, as long as none is handed over behind another (`CommandsApart`).
-/

namespace Mhuxd

/-! ### The control stream of a link -/

namespace Link

variable {l : Link}

/-- The control slots on their way to the keyer. -/
def ctlPending (l : Link) : List (Bool × UInt8) :=
  ctlSlots (l.wire.dec.slots l.bufOut.unread) ++ (l.chanOut .control).cmdSlots

/-- Those the keyer has read since the connect, and those on their way. -/
def ctlStream (l : Link) : List (Bool × UInt8) := ctlSlots l.wire.slots ++ l.ctlPending

/-- `b` is what `a` becomes when no command is handed over and no keyer connects. -/
structure CtlFrame (a b : Link) : Prop where
  stream : ∃ k, b.ctlStream = a.ctlStream ++ List.replicate k idleSlot
  empty : (a.chanOut .control).unread = [] → (b.chanOut .control).unread = []
  offline : a.online = false → b.online = false

namespace CtlFrame

variable {a b c : Link}

theorem refl : CtlFrame a a := ⟨⟨0, (List.append_nil _).symm⟩, id, id⟩

theorem trans (h : CtlFrame a b) (h' : CtlFrame b c) : CtlFrame a c := by
  obtain ⟨k, hk⟩ := h.stream
  obtain ⟨j, hj⟩ := h'.stream
  refine ⟨⟨k + j, ?_⟩, fun he => h'.empty (h.empty he), fun ho => h'.offline (h.offline ho)⟩
  rw [hj, hk, List.append_assoc, List.replicate_append_replicate]

theorem of_eq (hs : b.ctlStream = a.ctlStream) (hc : b.chanOut .control = a.chanOut .control)
    (ho : a.online = false → b.online = false) : CtlFrame a b :=
  ⟨⟨0, by rw [hs, List.replicate_zero, List.append_nil]⟩, fun h => by rw [hc]; exact h, ho⟩

theorem queue {ch : Channel} {p : List UInt8} (h : ch = .control → p = []) : CtlFrame a (a.queue ch p) := by
  have hc : (a.queue ch p).chanOut .control = a.chanOut .control := by
    by_cases hch : Channel.control = ch
    · obtain rfl := h hch.symm
      subst hch
      show upd a.chanOut .control ((a.chanOut .control).append []) .control = _
      rw [upd_self, Buffer.append_nil]
    · exact upd_of_ne _ _ hch
  refine of_eq ?_ hc id
  show _ ++ (_ ++ ((a.queue ch p).chanOut .control).cmdSlots) = _
  rw [hc]
  rfl

theorem sync : CtlFrame a a.sync := of_eq rfl rfl id

theorem push : CtlFrame a a.push := by
  unfold Link.push
  split_ifs
  · exact sync.trans (queue fun h => absurd h (by decide))
  · exact sync

theorem setMasks (ch : Channel) (i : Nat) (masks : List UInt8) : CtlFrame a (masks.foldl (setMask ch i) a) := by
  induction masks generalizing a with
  | nil => exact refl
  | cons m masks ih =>
    have hone : CtlFrame a (a.setMask ch i m) := of_eq rfl rfl id
    exact hone.trans ih

theorem drop : CtlFrame a a.drop := by
  unfold Link.drop
  split_ifs
  · exact of_eq rfl rfl id
  · exact refl

theorem mux : CtlFrame a (a.act .mux) := by
  obtain ⟨w, hw, -⟩ := mxMux_out a.bufOut a.chanOut
  obtain ⟨taken, k, hs, hb, hk⟩ := hw.muxed.ctl (a.wire.dec.after a.bufOut.unread)
  refine ⟨⟨k, ?_⟩, fun he => ?_, id⟩
  · show ctlSlots a.wire.slots ++ (ctlSlots (a.wire.dec.slots (mxMux a.bufOut a.chanOut).1.unread) ++
      ((mxMux a.bufOut a.chanOut).2.1 .control).cmdSlots) = ctlSlots a.wire.slots ++
        (ctlSlots (a.wire.dec.slots a.bufOut.unread) ++ (a.chanOut .control).cmdSlots) ++ _
    rw [hw.unread, RefDec.slots, Mealy.out_append, ctlSlots_append, hb, hs]
    rcases hk with rfl | hnil
    · simp
    · simp [hnil]
  · have hnil : taken ++ ((mxMux a.bufOut a.chanOut).2.1 .control).cmdSlots = [] := by
      rw [← hb]
      exact Buffer.cmdSlots_nil he
    exact Buffer.cmdSlots_eq_nil.1 (List.append_eq_nil_iff.1 hnil).2

theorem write (n : Nat) : CtlFrame a (a.act (.write n)) := by
  refine of_eq ?_ rfl id
  have hlen := Buffer.unread_consume_take a.bufOut n
  show ctlSlots (a.wire.slots ++ a.wire.dec.slots (a.bufOut.unread.take n)) ++
    (ctlSlots ((a.wire.dec.after (a.bufOut.unread.take n)).slots
      (a.bufOut.consume (a.bufOut.unread.take n).length).unread) ++ (a.chanOut .control).cmdSlots) = _
  have hslots : ctlSlots (a.wire.dec.slots (a.bufOut.unread.take n)) ++
      ctlSlots ((a.wire.dec.after (a.bufOut.unread.take n)).slots (a.bufOut.unread.drop n)) =
        ctlSlots (a.wire.dec.slots a.bufOut.unread) := by
    rw [← ctlSlots_append, RefDec.slots, RefDec.slots, ← Mealy.out_append, List.take_append_drop]
  rw [hlen, ctlSlots_append, List.append_assoc, ← List.append_assoc (ctlSlots (a.wire.dec.slots _)), hslots]
  rfl

/-- An act of a step that feeds the control channel nothing and connects no keyer. -/
theorem act {r : Router} {e : RouterEv} {x : LinkAct} (hok : LinkOk r e a x)
    (hfeed : ∀ p, Queues e .control p → p = []) (hfd : ∀ fd, e = .setKeyerFd (some fd) → r.fd = some fd) :
    CtlFrame a (a.act x) := by
  cases x with
  | queue ch p =>
    refine queue ?_
    rintro rfl
    exact hfeed p hok.2.2.2
  | take ch b =>
    have hne : Channel.control ≠ ch := by
      rintro rfl
      have hmh : Channel.isMh .control = false := hok
      exact absurd hmh (by decide)
    refine of_eq ?_ (upd_of_ne _ _ hne) id
    show _ ++ (_ ++ (upd a.chanOut ch b .control).cmdSlots) = _
    rw [upd_of_ne _ _ hne]
    rfl
  | addProducer ch => exact of_eq rfl rfl id
  | remProducer ch i =>
    have herase : CtlFrame a (a.erase ch i) := of_eq rfl rfl id
    show CtlFrame a (if _ then _ else _)
    split_ifs
    · exact herase.trans push
    · exact herase
  | holds ch i masks => exact (setMasks ch i masks).trans push
  | mux => exact mux
  | write n => exact write n
  | offline =>
    have hoff : CtlFrame a.drop (a.act .offline) := of_eq rfl rfl fun _ => rfl
    exact drop.trans hoff
  | online =>
    obtain ⟨-, fd, he, hne⟩ := hok
    exact absurd (hfd fd he) hne

end CtlFrame

/-- A command handed over while the buffer is empty adds its slots to the stream. -/
theorem ctlStream_queue {c : Command} (he : (l.chanOut .control).unread = []) (hfit : c.bytes.length ≤ BUFFER_CAPACITY) :
    (l.queue .control c.bytes).ctlStream = l.ctlStream ++ c.slots := by
  have hb : ((l.queue .control c.bytes).chanOut .control).cmdSlots = c.slots := by
    show (upd l.chanOut .control ((l.chanOut .control).append c.bytes) .control).cmdSlots = _
    rw [upd_self, Buffer.eq_empty_of_unread he]
    refine Command.cmdSlots_of_data rfl ?_
    rw [Buffer.data_append_of_le _ hfit]
    rfl
  show ctlSlots l.wire.slots ++ (_ ++ ((l.queue .control c.bytes).chanOut .control).cmdSlots) = _
  rw [hb, ctlStream, ctlPending, Buffer.cmdSlots_nil he, List.append_nil, List.append_assoc]
  rfl

/-- What is left over at a connect is all there is on the stream. -/
theorem ctlStream_online (l : Link) : (l.act .online).ctlStream = l.ctlPending := by
  show [] ++ (ctlSlots (l.wire.dec.slots l.drop.bufOut.unread) ++ (l.drop.chanOut .control).cmdSlots) = _
  rw [drop_chanOut, drop_bufOut, List.nil_append]
  rfl

end Link

/-! ### The router -/

/-- A connector of the control channel sends bytes, or another module does. -/
def RouterEv.feeds : RouterEv → Bool
  | .producer .control _ (.data (_ :: _)) => true
  | .sendIn _ .control => true
  | _ => false

theorem RouterEv.not_feeds {e : RouterEv} (h : e.feeds = false) {p : List UInt8} (hq : Queues e .control p) :
    p = [] := by
  cases hq with
  | @read _ i p d hp =>
    cases d with
    | nil => exact List.prefix_nil.1 hp
    | cons x xs => exact absurd h Bool.true_eq_false_eq_False
  | send hp => exact absurd h Bool.true_eq_false_eq_False

namespace Router

variable {r : Router}

theorem ctlFrame_of_linked {a : Router} {e : RouterEv} (h : Linked r e r a) (hfeed : e.feeds = false)
    (hfd : ∀ fd, e = .setKeyerFd (some fd) → r.fd = some fd) : r.link.CtlFrame a.link := by
  obtain ⟨acts, hlink, hacts⟩ := h
  rw [hlink]
  refine Run.run_inv_of_ok ?_ Link.CtlFrame.refl hacts
  intro l a hl ha
  exact hl.trans (.act ha (fun _ hq => e.not_feeds hfeed hq) hfd)

theorem mhrSendIn_sent (r : Router) (p : List UInt8) (ch : Channel) :
    (r.mhrSendIn p ch).2 = if r.canSend p ch then some p.length else none := by
  have havail : (r.chanOut ch).avail ≤ BUFFER_CAPACITY := Nat.sub_le _ _
  unfold mhrSendIn
  split_ifs with hf hl hfd hroom hc <;> try rfl
  all_goals simp_all [canSend]
  · omega
  · omega

end Router

/-! ### The queue -/

namespace Control

/-- The commands not handed over yet. -/
def waiting (q : List QCmd) : List Command := (q.filter (!·.sent)).map (·.cmd)

/-- The commands handed over since the connect are on the control stream, in order, and those that wait
come behind them among the commands `subs` submitted. -/
def Order (q : List QCmd) (l : Link) (subs : List Command) : Prop :=
  ∃ sent, Weave sent l.ctlStream ∧ (sent ++ waiting q).Sublist subs ∧
    ∀ c ∈ sent ++ waiting q, c.bytes.length ≤ MAX_CMD_LEN

/-- The head of the queue has been handed over. -/
def busy (q : List QCmd) : Bool := q.head?.any (·.sent)

/-- Nothing is handed over behind bytes of another command: the head is out already, or the CONTROL
buffer is empty, or there is no keyer. -/
def Gate (q : List QCmd) (l : Link) : Prop :=
  busy q = true ∨ (l.chanOut .control).unread = [] ∨ l.online = false

theorem waiting_sent {c : QCmd} (h : c.sent = true) (q : List QCmd) : waiting (c :: q) = waiting q := by
  rw [waiting, List.filter_cons_of_neg (by simp [h])]
  rfl

theorem waiting_queued {c : QCmd} (h : c.sent = false) (q : List QCmd) :
    waiting (c :: q) = c.cmd :: waiting q := by
  rw [waiting, List.filter_cons_of_pos (by simp [h])]
  rfl

theorem waiting_append (q q' : List QCmd) : waiting (q ++ q') = waiting q ++ waiting q' := by
  rw [waiting, List.filter_append, List.map_append]
  rfl

theorem waiting_tail (c : QCmd) (q : List QCmd) : (waiting q).Sublist (waiting (c :: q)) :=
  ((List.sublist_cons_self c q).filter _).map _

namespace Order

variable {q q' : List QCmd} {l l' : Link} {subs : List Command}

theorem frame (h : Order q l subs) (hf : l.CtlFrame l') : Order q l' subs := by
  obtain ⟨sent, hw, hs, hlen⟩ := h
  obtain ⟨k, hk⟩ := hf.stream
  exact ⟨sent, hk ▸ hw.idles k, hs, hlen⟩

/-- Commands may leave the queue. -/
theorem sub (h : Order q l subs) (hq : (waiting q').Sublist (waiting q)) : Order q' l subs := by
  obtain ⟨sent, hw, hs, hlen⟩ := h
  have hsub := (List.Sublist.refl sent).append hq
  exact ⟨sent, hw, hsub.trans hs, fun c hc => hlen c (hsub.subset hc)⟩

theorem submit (h : Order q l subs) (cmd : Command) : Order q l (subs ++ [cmd]) := by
  obtain ⟨sent, hw, hs, hlen⟩ := h
  exact ⟨sent, hw, hs.trans (List.sublist_append_left ..), hlen⟩

theorem append (h : Order q l subs) {c : QCmd} (hc : c.sent = false) (hlen : c.cmd.bytes.length ≤ MAX_CMD_LEN) :
    Order (q ++ [c]) l (subs ++ [c.cmd]) := by
  obtain ⟨sent, hw, hs, hfit⟩ := h
  have hq : sent ++ waiting (q ++ [c]) = (sent ++ waiting q) ++ [c.cmd] := by
    rw [waiting_append, waiting_queued hc, List.append_assoc]
    rfl
  refine ⟨sent, hw, ?_, fun d hd => ?_⟩
  · rw [hq]
    exact hs.append (List.Sublist.refl _)
  · rw [hq] at hd
    rcases List.mem_append.1 hd with hd | hd
    · exact hfit d hd
    · rw [List.mem_singleton.1 hd]
      exact hlen

/-- The head is handed over while the CONTROL buffer is empty. -/
theorem send {c : QCmd} (h : Order (c :: q) l subs) (hc : c.sent = false)
    (he : (l.chanOut .control).unread = []) :
    Order ({ c with sent := true } :: q) (l.queue .control c.cmd.bytes) subs := by
  obtain ⟨sent, hw, hs, hfit⟩ := h
  rw [waiting_queued hc] at hs hfit
  have hlen : c.cmd.bytes.length ≤ MAX_CMD_LEN :=
    hfit _ (List.mem_append_right _ (List.mem_cons_self ..))
  have hmax : MAX_CMD_LEN ≤ BUFFER_CAPACITY := by decide
  have happ : sent ++ [c.cmd] ++ waiting q = sent ++ c.cmd :: waiting q := by
    rw [List.append_assoc]
    rfl
  refine ⟨sent ++ [c.cmd], ?_, ?_, ?_⟩
  · rw [Link.ctlStream_queue he (hlen.trans hmax)]
    exact hw.cmd c.cmd
  · rw [waiting_sent rfl, happ]
    exact hs
  · rw [waiting_sent rfl, happ]
    exact hfit

end Order

/-- What holds between two events: the order, and a queue whose head is out. -/
structure Settled (ctl : Control) : Prop where
  order : Order ctl.cmdList ctl.router.link ctl.submitted
  head : ctl.cmdList = [] ∨ busy ctl.cmdList = true

/-- What holds inside an event that may hand over a command. -/
structure Open (ctl : Control) : Prop where
  order : Order ctl.cmdList ctl.router.link ctl.submitted
  gate : Gate ctl.cmdList ctl.router.link

theorem Gate.frame {q : List QCmd} {l l' : Link} (h : Gate q l) (hf : l.CtlFrame l') : Gate q l' := by
  rcases h with h | h | h
  · exact .inl h
  · exact .inr (.inl (hf.empty h))
  · exact .inr (.inr (hf.offline h))

/-- The loop hands over the first command the router takes; behind it nothing is. -/
theorem pushLoop_settled (q : List QCmd) (ctl : Control) (h : Order q ctl.router.link ctl.submitted)
    (hg : Gate q ctl.router.link) : (pushLoop q ctl).Settled ∧ (pushLoop q ctl).Open := by
  induction q generalizing ctl with
  | nil => exact ⟨⟨h, .inl rfl⟩, h, hg⟩
  | cons c q ih =>
    unfold pushLoop
    by_cases hc : c.sent = true
    · rw [if_pos hc]
      exact ⟨⟨h, .inr hc⟩, h, .inl hc⟩
    rw [if_neg hc]
    have hc' : c.sent = false := Bool.eq_false_of_not_eq_true hc
    have hsent := ctl.router.mhrSendIn_sent c.cmd.bytes .control
    have hlink := ctl.router.mhrSendIn_link c.cmd.bytes .control
    have hgate : (ctl.router.link.chanOut .control).unread = [] ∨ ctl.router.link.online = false := by
      rcases hg with hb | hg
      · exact absurd hb hc
      · exact hg
    by_cases hcan : ctl.router.canSend c.cmd.bytes .control = true
    · rw [if_pos hcan] at hsent hlink
      dsimp only
      rw [if_pos hsent]
      have he : (ctl.router.link.chanOut .control).unread = [] := by
        rcases hgate with he | hoff
        · exact he
        · simp only [Router.canSend, Bool.and_eq_true] at hcan
          have hon : ctl.router.fd.isSome = false := hoff
          rw [hon] at hcan
          exact absurd hcan.1.2 Bool.false_ne_true
      have ho := h.send hc' he
      rw [← hlink] at ho
      exact ⟨⟨ho, .inr rfl⟩, ho, .inl rfl⟩
    · rw [if_neg hcan] at hsent hlink
      dsimp only
      rw [hsent, if_neg (by simp)]
      refine ih _ ?_ ?_
      · show Order q (ctl.router.mhrSendIn c.cmd.bytes .control).1.link ctl.submitted
        rw [hlink]
        exact h.sub (waiting_tail c q)
      · show Gate q (ctl.router.mhrSendIn c.cmd.bytes .control).1.link
        rw [hlink]
        exact .inr hgate

theorem Open.pushCmds {ctl : Control} (h : ctl.Open) : ctl.pushCmds.Settled ∧ ctl.pushCmds.Open :=
  pushLoop_settled _ _ h.order h.gate

/-! ### Calls -/

/-- `submit_cmd` takes the command, unless the queue is full. -/
def accepted (s : CtlState) (cmd : Command) : Bool :=
  (cmd.code == MHCMD_ARE_YOU_THERE || isConnected s) && decide (cmd.bytes.length ≤ MAX_CMD_LEN)

/-- Some submission among the calls is taken. -/
def accepts : CtlState → List CtlCall → Bool
  | _, [] => false
  | s, .submit cmd :: cs => accepted s cmd || accepts s cs
  | _, .setState s :: cs => accepts s cs
  | s, .router _ :: cs => accepts s cs

/-- The state the calls end in. -/
def finalState : CtlState → List CtlCall → CtlState
  | s, [] => s
  | s, .submit _ :: cs => finalState s cs
  | _, .setState s :: cs => finalState s cs
  | s, .router _ :: cs => finalState s cs

theorem submitted_note (ctl : Control) (cmd : Command) : (ctl.noteSubmit cmd).submitted = ctl.submitted ++ [cmd] := by
  show (ctl.log ++ [CtlObs.submit ctl.submits cmd]).foldl _ [] = _
  rw [List.foldl_append]
  rfl

theorem submitted_complete (ctl : Control) (id : Nat) (res : CmdResult) :
    (ctl.complete id res).submitted = ctl.submitted := by
  show (ctl.log ++ [CtlObs.complete id res]).foldl _ [] = _
  rw [List.foldl_append]
  rfl

theorem submitCmd_refused {ctl : Control} {cmd : Command} (h : accepted ctl.state cmd = false) :
    ∃ res, ctl.submitCmd cmd = (ctl.noteSubmit cmd).deferCallback ctl.submits res := by
  unfold submitCmd
  dsimp only
  by_cases hc : cmd.code ≠ MHCMD_ARE_YOU_THERE ∧ isConnected (ctl.noteSubmit cmd).state = false
  · exact ⟨_, if_pos hc⟩
  rw [if_neg hc]
  by_cases hlen : MAX_CMD_LEN < cmd.bytes.length
  · exact ⟨_, if_pos hlen⟩
  · have hconn : isConnected ctl.state = true ∨ cmd.code = MHCMD_ARE_YOU_THERE := by
      rw [not_and_or, not_not, Bool.not_eq_false] at hc
      exact hc.symm
    have hfit : decide (cmd.bytes.length ≤ MAX_CMD_LEN) = true := decide_eq_true (Nat.le_of_not_lt hlen)
    have hacc : accepted ctl.state cmd = true := by
      rw [accepted, hfit, Bool.and_true, Bool.or_eq_true]
      rcases hconn with hconn | hcode
      · exact .inr hconn
      · exact .inl (beq_iff_eq.2 hcode)
    rw [h] at hacc
    exact absurd hacc Bool.false_ne_true

/-- A call that isn't a submission leaves the queue and the control stream. -/
theorem call_router (ctl : Control) (e : RouterEv) :
    ∃ r, ctl.call (.router e) = { ctl with router := r } ∧ ctl.router.link.CtlFrame r.link := by
  unfold call
  dsimp only
  by_cases h : e.isCall = true
  · rw [if_pos h]
    refine ⟨_, rfl, Router.ctlFrame_of_linked (Router.link_step _ e) ?_ ?_⟩
    · cases e with
      | sendIn p ch =>
        cases ch with
        | control => exact absurd h (by simp [RouterEv.isCall])
        | _ => rfl
      | producer ch i res => exact absurd h Bool.false_ne_true
      | _ => rfl
    · rintro fd rfl
      exact absurd h Bool.false_ne_true
  · rw [if_neg h]
    exact ⟨_, rfl, .refl⟩

theorem Open.submitCmd {ctl : Control} (h : ctl.Open) (cmd : Command) :
    (ctl.submitCmd cmd).Open ∧ (ctl.Settled → (ctl.submitCmd cmd).Settled) := by
  have hnote : Order ctl.cmdList ctl.router.link (ctl.noteSubmit cmd).submitted := by
    rw [submitted_note]
    exact h.order.submit cmd
  unfold Control.submitCmd
  dsimp only
  split_ifs with hc hlen hfull
  · exact ⟨⟨hnote, h.gate⟩, fun hs => ⟨hnote, hs.head⟩⟩
  · exact ⟨⟨hnote, h.gate⟩, fun hs => ⟨hnote, hs.head⟩⟩
  · exact ⟨⟨hnote, h.gate⟩, fun hs => ⟨hnote, hs.head⟩⟩
  · let c : QCmd := ⟨ctl.submits, cmd, false⟩
    let ctl' : Control := { ctl.noteSubmit cmd with cmdList := ctl.cmdList ++ [c] }
    have hopen : ctl'.Open := by
      refine ⟨?_, ?_⟩
      · show Order (ctl.cmdList ++ [c]) ctl.router.link (ctl.noteSubmit cmd).submitted
        rw [submitted_note]
        exact h.order.append rfl (Nat.le_of_not_lt hlen)
      · rcases h.gate with hb | hg
        · refine .inl ?_
          show busy (ctl.cmdList ++ [c]) = true
          cases hq : ctl.cmdList with
          | nil => rw [hq] at hb; exact absurd hb Bool.false_ne_true
          | cons d q => rw [hq] at hb; exact hb
        · exact .inr hg
    exact ⟨hopen.pushCmds.2, fun _ => hopen.pushCmds.1⟩

theorem Open.calls {ctl : Control} (h : ctl.Open) (cs : List CtlCall) :
    (ctl.calls cs).Open ∧ (ctl.Settled → (ctl.calls cs).Settled) := by
  induction cs generalizing ctl with
  | nil => exact ⟨h, id⟩
  | cons c cs ih =>
    have hone : (ctl.call c).Open ∧ (ctl.Settled → (ctl.call c).Settled) := by
      cases c with
      | submit cmd => exact h.submitCmd cmd
      | setState s => exact ⟨⟨h.order, h.gate⟩, fun hs => ⟨hs.order, hs.head⟩⟩
      | router e =>
        obtain ⟨r, hr, hf⟩ := ctl.call_router e
        rw [hr]
        exact ⟨⟨h.order.frame hf, h.gate.frame hf⟩, fun hs => ⟨hs.order.frame hf, hs.head⟩⟩
    obtain ⟨ho, hs⟩ := ih hone.1
    exact ⟨ho, fun hset => hs (hone.2 hset)⟩

/-- Calls with no submission taken leave the queue as it is. -/
theorem calls_refused {ctl : Control} {cs : List CtlCall} (ha : accepts ctl.state cs = false)
    (h : Order ctl.cmdList ctl.router.link ctl.submitted) :
    (ctl.calls cs).cmdList = ctl.cmdList ∧
      Order ctl.cmdList (ctl.calls cs).router.link (ctl.calls cs).submitted := by
  induction cs generalizing ctl with
  | nil => exact ⟨rfl, h⟩
  | cons c cs ih =>
    cases c with
    | submit cmd =>
      rw [accepts, Bool.or_eq_false_iff] at ha
      obtain ⟨res, hres⟩ := submitCmd_refused ha.1
      have hcall : ctl.calls (.submit cmd :: cs) = ((ctl.noteSubmit cmd).deferCallback ctl.submits res).calls cs := by
        rw [← hres]
        rfl
      rw [hcall]
      refine ih ha.2 ?_
      show Order ctl.cmdList ctl.router.link (ctl.noteSubmit cmd).submitted
      rw [submitted_note]
      exact h.submit cmd
    | setState s => exact @ih (ctl.setState s) ha h
    | router e =>
      obtain ⟨r, hr, hf⟩ := ctl.call_router e
      have hcall : ctl.calls (.router e :: cs) = ({ ctl with router := r } : Control).calls cs := by
        rw [← hr]
        rfl
      rw [hcall]
      exact ih ha (h.frame hf)

/-- From a queue `q` the calls `cs` make the control layer hand over a command, if they find a keyer. -/
def handsFrom (q : List QCmd) (s : CtlState) (cs : List CtlCall) : Bool :=
  match q with
  | [] => accepts s cs
  | c :: _ => !c.sent

/-- Calls, then a push. -/
theorem pushed_calls {ctl : Control} (h : Order ctl.cmdList ctl.router.link ctl.submitted) (cs : List CtlCall)
    (hg : handsFrom ctl.cmdList ctl.state cs = true → Gate ctl.cmdList ctl.router.link) :
    (ctl.calls cs).pushCmds.Settled := by
  by_cases hh : handsFrom ctl.cmdList ctl.state cs = true
  · exact (Open.calls ⟨h, hg hh⟩ cs).1.pushCmds.1
  rw [Bool.not_eq_true] at hh
  cases hq : ctl.cmdList with
  | nil =>
    rw [hq] at hh
    obtain ⟨hl, ho⟩ := calls_refused hh h
    have hnil : (ctl.calls cs).cmdList = [] := by rw [hl, hq]
    have hpush : (ctl.calls cs).pushCmds = { ctl.calls cs with cmdList := [] } := by
      rw [Control.pushCmds, hnil]
      rfl
    rw [hpush]
    rw [hq] at ho
    exact ⟨ho, .inl rfl⟩
  | cons c q =>
    have hb : busy ctl.cmdList = true := by
      rw [hq] at hh ⊢
      have hc : c.sent = true := by simpa [handsFrom] using hh
      exact hc
    exact (Open.calls ⟨h, .inl hb⟩ cs).1.pushCmds.1

/-- Calls with nothing taken off the queue. -/
theorem Settled.calls {ctl : Control} (h : ctl.Settled) (cs : List CtlCall)
    (hg : handsFrom ctl.cmdList ctl.state cs = true → Gate ctl.cmdList ctl.router.link) :
    (ctl.calls cs).Settled := by
  by_cases hh : handsFrom ctl.cmdList ctl.state cs = true
  · exact (Open.calls ⟨h.order, hg hh⟩ cs).2 h
  rw [Bool.not_eq_true] at hh
  rcases h.head with hq | hb
  · rw [hq] at hh
    obtain ⟨hl, ho⟩ := calls_refused hh h.order
    rw [hq] at hl ho
    exact ⟨hl ▸ ho, .inl hl⟩
  · exact (Open.calls ⟨h.order, .inl hb⟩ cs).2 h

theorem pushLoop_state (q : List QCmd) (ctl : Control) : (pushLoop q ctl).state = ctl.state := by
  induction q generalizing ctl with
  | nil => rfl
  | cons c q ih =>
    unfold pushLoop
    dsimp only
    split_ifs
    · rfl
    · rfl
    · exact ih _

theorem calls_state (ctl : Control) (cs : List CtlCall) : (ctl.calls cs).state = finalState ctl.state cs := by
  induction cs generalizing ctl with
  | nil => rfl
  | cons c cs ih =>
    refine (ih (ctl.call c)).trans ?_
    cases c with
    | submit cmd =>
      have hs : (ctl.submitCmd cmd).state = ctl.state := by
        unfold submitCmd
        dsimp only
        split_ifs
        · rfl
        · rfl
        · rfl
        · exact pushLoop_state _ _
      exact congrArg (finalState · cs) hs
    | setState s => rfl
    | router e =>
      obtain ⟨r, hr, -⟩ := ctl.call_router e
      rw [hr]
      rfl

/-! ### A disconnect -/

theorem pushLoop_length (q : List QCmd) (ctl : Control) : (pushLoop q ctl).cmdList.length ≤ q.length := by
  induction q generalizing ctl with
  | nil => exact Nat.le_refl _
  | cons c q ih =>
    unfold pushLoop
    dsimp only
    split_ifs
    · exact Nat.le_refl _
    · exact Nat.le_refl _
    · exact (ih _).trans (Nat.le_succ _)

theorem calls_length (ctl : Control) (cs : List CtlCall) :
    (ctl.calls cs).cmdList.length ≤ ctl.cmdList.length + cs.length := by
  induction cs generalizing ctl with
  | nil => exact Nat.le_refl _
  | cons c cs ih =>
    have hone : (ctl.call c).cmdList.length ≤ ctl.cmdList.length + 1 := by
      cases c with
      | submit cmd =>
        show (ctl.submitCmd cmd).cmdList.length ≤ _
        unfold submitCmd
        dsimp only
        split_ifs
        · exact Nat.le_succ _
        · exact Nat.le_succ _
        · exact Nat.le_succ _
        · refine (pushLoop_length _ _).trans ?_
          rw [List.length_append]
          exact Nat.le_refl _
      | setState s => exact Nat.le_succ _
      | router e =>
        obtain ⟨r, hr, -⟩ := ctl.call_router e
        rw [hr]
        exact Nat.le_succ _
    have hrest : (ctl.calls (c :: cs)).cmdList.length ≤ (ctl.call c).cmdList.length + cs.length := ih (ctl.call c)
    rw [List.length_cons]
    omega

theorem pushLoop_online (q : List QCmd) (ctl : Control) :
    (pushLoop q ctl).router.link.online = ctl.router.link.online := by
  induction q generalizing ctl with
  | nil => rfl
  | cons c q ih =>
    have hsend : (ctl.router.mhrSendIn c.cmd.bytes .control).1.link.online = ctl.router.link.online := by
      rw [Router.mhrSendIn_link]
      split_ifs <;> rfl
    unfold pushLoop
    dsimp only
    split_ifs
    · rfl
    · exact hsend
    · exact (ih _).trans hsend

theorem calls_offline {ctl : Control} (h : ctl.router.link.online = false) (cs : List CtlCall) :
    (ctl.calls cs).router.link.online = false := by
  induction cs generalizing ctl with
  | nil => exact h
  | cons c cs ih =>
    refine @ih (ctl.call c) ?_
    cases c with
    | submit cmd =>
      show (ctl.submitCmd cmd).router.link.online = false
      unfold submitCmd
      dsimp only
      split_ifs
      · exact h
      · exact h
      · exact h
      · exact (pushLoop_online _ _).trans h
    | setState s => exact h
    | router e =>
      obtain ⟨r, hr, hf⟩ := ctl.call_router e
      rw [hr]
      exact hf.offline h

/-- Without a keyer every command is taken off the queue, those submitted meanwhile as well. -/
theorem flushLoop_settled {n : Nat} {done : List (List CtlCall)} {ctl : Control}
    (h : Order ctl.cmdList ctl.router.link ctl.submitted) (hoff : ctl.router.link.online = false)
    (hn : ctl.cmdList.length + (done.map List.length).sum ≤ n) :
    (flushLoop n done ctl).Settled := by
  induction n generalizing ctl done with
  | zero =>
    have hnil : ctl.cmdList = [] := List.length_eq_zero_iff.1 (by omega)
    exact ⟨h, .inl hnil⟩
  | succ n ih =>
    unfold flushLoop
    cases hq : ctl.cmdList with
    | nil => exact ⟨h, .inl hq⟩
    | cons c q =>
      rw [hq] at h hn
      let ctl' : Control := { ctl with cmdList := q }.complete c.id .offline
      have hopen : ctl'.Open := by
        refine ⟨?_, .inr (.inr hoff)⟩
        rw [submitted_complete]
        exact h.sub (waiting_tail c q)
      have hlen : (ctl'.calls (done.headD [])).cmdList.length ≤ q.length + (done.headD []).length := calls_length _ _
      refine ih (hopen.calls _).1.order ?_ ?_
      · exact @calls_offline ctl' hoff _
      · have hsum : (done.map List.length).sum = (done.headD []).length + (done.tail.map List.length).sum := by
          cases done with
          | nil => rfl
          | cons d ds => rfl
        show (ctl'.calls (done.headD [])).cmdList.length + _ ≤ n
        rw [List.length_cons] at hn
        omega

/-! ### The steps -/

/-- The event takes the command handed over off the queue. -/
def frees (ctl : Control) : CtlEv → Bool
  | .cmdTimeout _ => ctl.cmdTimer
  | .keyerByte _ =>
    match ctl.router.keyerByte.2 with
    | some (.control, data) => ctl.cmdList.head?.any fun c => (replyTo c data).isSome
    | _ => false
  | _ => false

/-- The calls the event makes, but for those of a keyer that connects or disconnects. -/
def script (ctl : Control) : CtlEv → List CtlCall
  | .calls cs => cs
  | .heartbeat => if ctl.heartbeatTimer then [.submit areYouThere] else []
  | .cmdTimeout cs => if ctl.cmdTimer then cs else []
  | .deferred i cs => if i < ctl.deferred.length then cs else []
  | .keyerByte cs =>
    match ctl.router.keyerByte.2 with
    | none => []
    | some (.control, _) => cs ++ if finalState ctl.state cs = .off then kickOff else []
    | some _ => cs
  | _ => []

/-- The event makes the control layer hand over a command, if there is a keyer: none handed over is left
at the head of the queue, and another waits or is taken. -/
def hands (ctl : Control) (e : CtlEv) : Bool :=
  handsFrom (if ctl.frees e then ctl.cmdList.tail else ctl.cmdList) ctl.state (ctl.script e)

/-- At a connect no command waits, and none is left in the CONTROL buffer or the output buffer; a command
is handed over only while the CONTROL buffer is empty; connectors of the control channel send nothing. -/
def CommandsApart (ctl : Control) (e : CtlEv) : Prop :=
  (match e with
    | .setKeyerFd (some fd) _ _ => ctl.router.fd = some fd ∨
      ((ctl.router.chanOut .control).unread = [] ∧
        (∀ s ∈ ctlSlots (ctl.router.wire.dec.slots ctl.router.bufOut.unread), s = idleSlot) ∧
        waiting ctl.cmdList = [])
    | .router e => e.feeds = false
    | _ => True) ∧
  (ctl.hands e = true → ctl.router.fd = none ∨ (ctl.router.chanOut .control).unread = [])

instance (ctl : Control) (e : CtlEv) : Decidable (ctl.CommandsApart e) := by
  unfold CommandsApart
  refine @instDecidableAnd _ _ ?_ inferInstance
  split <;> infer_instance

theorem gate_of_hands {ctl : Control} {e : CtlEv} {q : List QCmd} (hok : ctl.CommandsApart e)
    (h : ctl.hands e = true) : Gate q ctl.router.link := by
  rcases hok.2 h with hfd | he
  · refine .inr (.inr ?_)
    show ctl.router.fd.isSome = false
    rw [hfd]
    rfl
  · exact .inr (.inl he)

/-- The router becomes another one that is no new connect. -/
theorem Settled.routed {ctl : Control} (h : ctl.Settled) {r : Router} (hf : ctl.router.link.CtlFrame r.link)
    (hfd : r.fd = ctl.router.fd ∨ r.fd = none) (seen : List CtlCall) (done : List (List CtlCall)) :
    (ctl.routed r seen done).Settled := by
  unfold Control.routed
  by_cases hsame : r.fd = ctl.router.fd
  · rw [if_pos hsame]
    exact ⟨h.order.frame hf, h.head⟩
  rw [if_neg hsame]
  have hnone : r.fd = none := hfd.resolve_left hsame
  have hoff : r.link.online = false := by
    show r.fd.isSome = false
    rw [hnone]
    rfl
  rw [hnone]
  let ctl' : Control := { ctl with router := r }.setState .disc
  have hopen : ctl'.Open := ⟨h.order.frame hf, .inr (.inr hoff)⟩
  have hcalls := (hopen.calls seen).1
  show (flushLoop _ done { ctl'.calls seen with cmdTimer := false }).Settled
  exact flushLoop_settled hcalls.order (@calls_offline ctl' hoff seen) (Nat.le_refl _)

/-- A keyer connects: nothing is left over, so the control stream starts anew. -/
theorem Settled.connect {ctl : Control} (h : ctl.Settled) {fd : Nat} (hfd : ctl.router.fd ≠ some fd)
    (he : (ctl.router.chanOut .control).unread = [])
    (hidle : ∀ s ∈ ctlSlots (ctl.router.wire.dec.slots ctl.router.bufOut.unread), s = idleSlot)
    (hwait : waiting ctl.cmdList = []) (seen : List CtlCall) (done : List (List CtlCall)) :
    (ctl.routed (ctl.router.mhrSetKeyerFd (some fd)) seen done).Settled := by
  have hfd' := ctl.router.mhrSetKeyerFd_fd (some fd)
  let ctl' : Control := { ctl with router := ctl.router.mhrSetKeyerFd (some fd), log := ctl.log ++ [.connect] }
  have hlink : ctl'.router.link = ctl.router.link.act .online := Router.link_online hfd
  have hctl : (ctl'.router.link.chanOut .control).unread = [] := by
    rw [hlink]
    show (ctl.router.link.drop.chanOut .control).unread = []
    rw [Link.drop_chanOut]
    exact he
  have hsub : ctl'.submitted = [] := by
    show (ctl.log ++ [CtlObs.connect]).foldl _ [] = _
    rw [List.foldl_append]
    rfl
  have horder : Order ctl.cmdList ctl'.router.link ctl'.submitted := by
    refine ⟨[], ?_, ?_, ?_⟩
    · have hnil : (ctl.router.link.chanOut .control).cmdSlots = [] := Buffer.cmdSlots_nil he
      rw [hlink, Link.ctlStream_online, Link.ctlPending, hnil, List.append_nil]
      exact .of_idles hidle
    · rw [hwait, hsub]
      exact List.Sublist.refl _
    · rw [hwait]
      exact fun c hc => absurd hc List.not_mem_nil
  have hopen : ctl'.Open := ⟨horder, .inr (.inl hctl)⟩
  have hset : ctl'.Settled := ⟨horder, h.head⟩
  have hrouted : ctl.routed (ctl.router.mhrSetKeyerFd (some fd)) seen done = ctl'.routerStatusCb true seen done := by
    unfold Control.routed
    rw [if_neg (by rw [hfd']; exact hfd.symm), hfd']
    rfl
  rw [hrouted]
  unfold routerStatusCb
  rw [if_pos rfl]
  split_ifs
  · have hoff : (ctl'.setState .off).Open := ⟨hopen.order, hopen.gate⟩
    obtain ⟨ho, hs⟩ := hoff.calls seen
    exact (ho.calls kickOff).2 (hs ⟨hset.order, hset.head⟩)
  · exact hset

/-- The keyer's message and the push behind it, as calls from what is left of the queue. -/
theorem Settled.controlMessage {ctl : Control} (h : ctl.Settled) {data : List UInt8} {cs : List CtlCall}
    (hg : handsFrom (if ctl.cmdList.head?.any fun c => (replyTo c data).isSome then ctl.cmdList.tail else ctl.cmdList)
      ctl.state (cs ++ if finalState ctl.state cs = .off then kickOff else []) = true →
        ∀ q, Gate q ctl.router.link) : (ctl.controlChannelCb data cs).Settled := by
  have hcalls : ∀ (a : Control) (xs ys : List CtlCall), (a.calls xs).calls ys = a.calls (xs ++ ys) :=
    fun a xs ys => (List.foldl_append ..).symm
  -- `a` is the control layer when the calls start
  have hpush : ∀ a : Control, a.state = ctl.state → Order a.cmdList a.router.link a.submitted →
      (handsFrom a.cmdList a.state (cs ++ if finalState a.state cs = .off then kickOff else []) = true →
        Gate a.cmdList a.router.link) →
      (if (a.calls cs).state = .off then (a.calls cs).calls kickOff else a.calls cs).pushCmds.Settled := by
    intro a _ ho hga
    rw [calls_state]
    split_ifs with hoff
    · rw [hcalls]
      rw [if_pos hoff] at hga
      exact pushed_calls ho _ hga
    · rw [if_neg hoff, List.append_nil] at hga
      exact pushed_calls ho _ hga
  unfold Control.controlChannelCb Control.controlMessage
  cases hq : ctl.cmdList with
  | nil =>
    rw [hq] at hg
    refine hpush ctl rfl h.order fun hh => ?_
    rw [hq] at hh
    exact hg hh _
  | cons c q =>
    rw [hq] at hg
    cases hrep : replyTo c data with
    | none =>
      have hany : ((c :: q).head?.any fun c => (replyTo c data).isSome) = false := by simp [hrep]
      rw [hany] at hg
      simp only [hrep]
      refine hpush ctl rfl h.order fun hh => ?_
      rw [hq] at hh
      exact hg hh _
    | some res =>
      have hany : ((c :: q).head?.any fun c => (replyTo c data).isSome) = true := by simp [hrep]
      rw [hany] at hg
      let a : Control := { ctl with cmdTimer := false, cmdList := q }.complete c.id res
      simp only [hrep]
      refine hpush a rfl ?_ fun hh => hg hh _
      rw [submitted_complete]
      have ho := h.order
      rw [hq] at ho
      exact ho.sub (waiting_tail c q)

theorem Settled.cmdTimeoutCb {ctl : Control} (h : ctl.Settled) {cs : List CtlCall}
    (hg : handsFrom ctl.cmdList.tail ctl.state cs = true → ∀ q, Gate q ctl.router.link) :
    (ctl.cmdTimeoutCb cs).Settled := by
  have ho := h.order
  have hhead := h.head
  unfold Control.cmdTimeoutCb
  cases hq : ctl.cmdList with
  | nil => exact h
  | cons c q =>
    rw [hq] at hg ho hhead
    have hc : c.sent = true := hhead.resolve_left (List.cons_ne_nil _ _)
    dsimp only
    rw [if_pos hc]
    refine pushed_calls ?_ cs fun hh => hg hh _
    rw [submitted_complete]
    exact ho.sub (waiting_tail c q)

/-- Every step that meets the condition keeps the queue and the stream settled. -/
theorem Settled.step {ctl : Control} (h : ctl.Settled) {e : CtlEv} (hok : ctl.CommandsApart e) :
    (ctl.step e).Settled := by
  have hgate : ctl.hands e = true → ∀ q, Gate q ctl.router.link := fun hh q => gate_of_hands hok hh
  cases e with
  | router e =>
    show (if e.isEndpoint then { ctl with router := ctl.router.step e } else ctl).Settled
    split_ifs with hend
    · have hf : ctl.router.link.CtlFrame (ctl.router.step e).link := by
        refine Router.ctlFrame_of_linked (Router.link_step _ e) hok.1 ?_
        rintro fd rfl
        exact absurd hend Bool.false_ne_true
      exact ⟨h.order.frame hf, h.head⟩
    · exact h
  | setKeyerFd fd seen done =>
    cases fd with
    | none =>
      have hl : Linked ctl.router (.setKeyerFd none) ctl.router (ctl.router.mhrSetKeyerFd none) := Router.linked_offline
      exact h.routed (Router.ctlFrame_of_linked hl rfl (by simp)) (.inr (Router.mhrSetKeyerFd_fd _ _)) seen done
    | some fd =>
      by_cases hfd : ctl.router.fd = some fd
      · have hsame : ctl.router.mhrSetKeyerFd (some fd) = ctl.router := by rw [Router.mhrSetKeyerFd, if_pos hfd.symm]
        show (ctl.routed (ctl.router.mhrSetKeyerFd (some fd)) seen done).Settled
        rw [hsame]
        exact h.routed .refl (.inl rfl) seen done
      · obtain ⟨he, hidle, hwait⟩ := hok.1.resolve_left hfd
        exact h.connect hfd he hidle hwait seen done
  | keyerRead res seen done =>
    show (if _ then ctl.routed (ctl.router.keyerRead res) seen done else ctl).Settled
    split_ifs
    · have hl : Linked ctl.router (.keyerIn res) ctl.router (ctl.router.keyerRead res) := Router.linked_keyerRead res
      exact h.routed (Router.ctlFrame_of_linked hl rfl (by simp)) (Router.keyerRead_fd _ _) seen done
    · exact h
  | keyerByte cs =>
    have hlink : ctl.router.keyerByte.1.link = ctl.router.link := Router.link_keyerByte _
    let a : Control := { ctl with router := ctl.router.keyerByte.1 }
    have ha : a.Settled := by
      refine ⟨?_, h.head⟩
      show Order ctl.cmdList ctl.router.keyerByte.1.link ctl.submitted
      rw [hlink]
      exact h.order
    have hga : ctl.hands (.keyerByte cs) = true → ∀ q, Gate q a.router.link := by
      intro hh q
      show Gate q ctl.router.keyerByte.1.link
      rw [hlink]
      exact hgate hh q
    unfold hands frees script at hga
    show (ctl.keyerByte cs).Settled
    unfold Control.keyerByte
    dsimp only
    cases hrep : ctl.router.keyerByte.2 with
    | none => exact ha
    | some rep =>
      obtain ⟨ch, data⟩ := rep
      rw [hrep] at hga
      cases ch with
      | control => exact ha.controlMessage hga
      | _ => exact ha.calls cs fun hh => hga hh _
  | keyerOut res seen done =>
    show (if _ then ctl.routed (ctl.router.keyerOutCb res) seen done else ctl).Settled
    split_ifs
    · have hl := @Router.linked_keyerOutCb ctl.router res
      exact h.routed (Router.ctlFrame_of_linked hl rfl (by simp)) (Router.keyerOutCb_fd _ _) seen done
    · exact h
  | calls cs => exact h.calls cs fun hh => hgate hh _
  | heartbeat =>
    show (if ctl.heartbeatTimer then ctl.calls [.submit areYouThere] else ctl).Settled
    unfold hands frees script at hgate
    split_ifs with hb
    · rw [if_pos hb] at hgate
      exact h.calls _ fun hh => hgate hh _
    · exact h
  | cmdTimeout cs =>
    show (if ctl.cmdTimer then ({ ctl with cmdTimer := false } : Control).cmdTimeoutCb cs else ctl).Settled
    unfold hands frees script at hgate
    split_ifs with ht
    · simp only [ht, if_true] at hgate
      let a : Control := { ctl with cmdTimer := false }
      have ha : a.Settled := ⟨h.order, h.head⟩
      exact ha.cmdTimeoutCb hgate
    · exact h
  | deferred i cs =>
    show (ctl.handleDeferred i cs).Settled
    unfold hands frees script at hgate
    unfold handleDeferred
    cases hd : ctl.deferred[i]? with
    | none => exact h
    | some task =>
      have hi : i < ctl.deferred.length := (List.getElem?_eq_some_iff.1 hd).1
      simp only [hi, if_true] at hgate
      let a : Control := { ctl with deferred := ctl.deferred.eraseIdx i }.complete task.1 task.2
      have ha : a.Settled := by
        refine ⟨?_, h.head⟩
        rw [submitted_complete]
        exact h.order
      exact ha.calls cs fun hh => hgate hh _

/-! ### The commands on the wire -/

/-- The slots are those of whole commands among `subs`, in their order, with idle slots between them and
only the last cut off; the keyer reads those that are not. -/
def WholeCommands (subs : List Command) (sl : List (Bool × UInt8)) : Prop :=
  ∃ cmds all, all.Sublist subs ∧ Cut cmds sl all ∧
    ∀ rd : CmdRd, Mealy.out CmdRd.step rd sl = cmds.map Command.bytes

theorem runs_settled {hasFlags : Bool} {evs : List CtlEv}
    (hok : Run.StepsOk step CommandsApart (mhcCreate hasFlags) evs) : (runs hasFlags evs).Settled := by
  refine Run.run_inv_of_ok (fun _ _ h hok => h.step hok) ?_ hok
  refine ⟨⟨[], .nil, List.Sublist.refl _, ?_⟩, .inl rfl⟩
  exact fun c hc => absurd hc List.not_mem_nil

/-- In a run that keeps the commands apart the keyer gets whole commands submitted since the connect. -/
theorem control_commands_whole (hasFlags : Bool) (evs : List CtlEv)
    (hok : Run.StepsOk step CommandsApart (mhcCreate hasFlags) evs) :
    WholeCommands (runs hasFlags evs).submitted (runs hasFlags evs).ctlWritten := by
  obtain ⟨sent, hw, hs, hlen⟩ := (runs_settled hok).order
  have hpre : (runs hasFlags evs).ctlWritten <+: (runs hasFlags evs).router.link.ctlStream := List.prefix_append ..
  obtain ⟨cmds, hcut⟩ := hw.cut hpre
  have hmax : MAX_CMD_LEN ≤ MHDMX_CMD_BUFFER_SIZE := by decide
  refine ⟨cmds, sent, (List.sublist_append_left ..).trans hs, hcut, hcut.read fun c hc => ?_⟩
  exact (hlen c (List.mem_append_left _ hc)).trans hmax

/-- The initial ping is written and answered, then the version is asked for. -/
def pingRun : List CtlEv :=
  [.setKeyerFd (some 3) [] [], .keyerOut (.wrote 100) [] [],
    .keyerRead (.data [0x00, 0x80, 0x80, 0x80, 0x40, 0x80, 0x80, 0xfe, 0x00, 0x80, 0x80, 0x80, 0x41, 0x80, 0x80, 0xfe])
      [] [],
    .keyerByte [], .keyerByte [], .keyerByte [], .keyerByte [], .keyerByte [], .keyerByte [], .keyerByte [],
    .keyerByte [], .keyerByte [], .keyerByte [], .keyerByte [], .keyerByte [], .keyerByte [], .keyerByte [],
    .keyerByte [], .keyerByte [.setState .getVersion, .submit ⟨0x05, [], rfl⟩],
    .keyerOut (.wrote 100) [] []]

theorem control_commands_whole_ping :
    (runs true pingRun).submitted = [areYouThere, ⟨0x05, [], rfl⟩] ∧
      WholeCommands (runs true pingRun).submitted (runs true pingRun).ctlWritten :=
  ⟨by decide +kernel, control_commands_whole true pingRun (by decide +kernel)⟩

/-- The ping waits at a stalled keyer; it times out, the heartbeat queues another behind it, and then
the keyer takes all. -/
def stalledRun : List CtlEv :=
  [.setKeyerFd (some 3) [] [], .cmdTimeout [.setState .off], .heartbeat, .keyerOut (.wrote 100) [] []]

/-- The two pings are read as one command nobody submitted. -/
theorem control_commands_merged :
    ¬ ∀ (hasFlags : Bool) (evs : List CtlEv),
      WholeCommands (runs hasFlags evs).submitted (runs hasFlags evs).ctlWritten := by
  intro h
  obtain ⟨cmds, all, hall, hcut, hread⟩ := h true stalledRun
  have hsub : (runs true stalledRun).submitted = [areYouThere, areYouThere] := by decide
  have hslots : Mealy.out CmdRd.step ⟨none, [], Nat.zero_le _⟩ (runs true stalledRun).ctlWritten =
      [[0x7e, 0xfe, 0x7e, 0xfe]] := by decide
  have hmap : cmds.map Command.bytes = [[0x7e, 0xfe, 0x7e, 0xfe]] := by rw [← hread, hslots]
  have hmem : ∀ c ∈ cmds, c = areYouThere := by
    intro c hc
    have := hall.subset (hcut.among.subset hc)
    rw [hsub] at this
    simpa using this
  obtain ⟨c, hc, hbytes⟩ : ∃ c ∈ cmds, c.bytes = [0x7e, 0xfe, 0x7e, 0xfe] :=
    List.mem_map.1 (by rw [hmap]; exact List.mem_singleton_self _)
  rw [hmem c hc] at hbytes
  exact absurd hbytes (by decide)

end Control

end Mhuxd
