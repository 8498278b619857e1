import Mhuxd.VspStream

/-!
# No byte of a virtual serial port is lost or doubled

On both ways the bytes that came out and those still inside are the bytes that went in (`Intact`). An interrupt
breaks this: it answers a request with an error that has taken bytes already.
-/

namespace Mhuxd

namespace VspPort

variable {p q : VspPort} {vs vs' : VspSession}

/-! ### What a log says -/

/-- The bytes of successful reads. -/
def returned (log : List PortObs) : List UInt8 := log.flatMap fun | .readReply p => p | _ => []

/-- The bytes the router delivered, less those counted as overruns, and how many these are. -/
def kept (log : List PortObs) : List UInt8 := log.flatMap fun | .delivered p lost => p.take (p.length - lost) | _ => []

def overruns (log : List PortObs) : Nat := (log.map fun | .delivered _ lost => lost | _ => 0).sum

/-- The bytes the router's data socket received. -/
def received (log : List PortObs) : List UInt8 := log.flatMap fun | .toRouter p => p | _ => []

/-- The bytes that writes were told were accepted. -/
def told (log : List PortObs) : List UInt8 := log.flatMap fun | .writeReply p => p | _ => []

/-- A request is answered as interrupted, having taken `held`. -/
def Interrupted (o : PortObs) (held : List UInt8) : Prop := o = .readErr .eintr held ∨ o = .writeErr .eintr held

/-- The streams of a session. -/
structure Streams (p : VspPort) (vs : VspSession) : Prop where
  /-- What was read, what a held read has and what is in the buffer is what the router delivered. -/
  read : returned p.log ++ p.collected ++ p.bufOut.unread = kept p.log
  lost : p.overrun = overruns p.log
  /-- What the router has and what is in the buffer is what was accepted. -/
  write : received p.log ++ vs.bufIn.unread = told p.log ++ p.accepted vs

/-- While the port is open the streams of its session are whole, and no request was interrupted that had taken
bytes. -/
structure Intact (p : VspPort) : Prop where
  streams : ∀ vs ∈ p.vsp.sessionList, p.Streams vs
  interrupted : ∀ o ∈ p.log, ∀ held, Interrupted o held → held = []

/-- The rest of a write that is held is the end of it. -/
structure Held (p : VspPort) : Prop where
  single : p.vsp.Single
  rest : ∀ vs ∈ p.vsp.sessionList, ∀ rest ∈ vs.pendingIn, rest <:+ p.heldBuf

/-! ### The conditions -/

/-- No request of the session has taken bytes. -/
def Untouched (p : VspPort) (vs : VspSession) : Prop := p.collected = [] ∧ p.accepted vs = []

/-- What has to hold for a step to keep the streams whole. A request that has taken bytes isn't answered as
interrupted, as interrupts and the ends of a session do; and no byte for the PTT channel goes to the data
socket. -/
def Keeps (p : VspPort) : PortEv → Prop
  | .interrupt id | .dvRelease id _ =>
    p.vsp.wChanIn = true → p.vsp.isTerminal = false → ∀ vs ∈ p.vsp.findVs id, p.Untouched vs
  | .destroy _ => p.vsp.state ≠ .closed → ∀ vs ∈ p.vsp.sessionList, p.Untouched vs
  | .setBits id _ _ taken =>
    p.vsp.wChanIn = true → p.vsp.isTerminal = false → (p.vsp.findVs id).isSome →
      ¬(p.vsp.fdPtt = .data ∧ (p.vsp.rtsIsPtt = true ∨ p.vsp.dtrIsPtt = true) ∧ taken = true)
  | _ => True

/-! ### Logs grow -/

section
variable (l l' : List PortObs)

@[simp] theorem returned_append : returned (l ++ l') = returned l ++ returned l' := List.flatMap_append
@[simp] theorem kept_append : kept (l ++ l') = kept l ++ kept l' := List.flatMap_append
@[simp] theorem received_append : received (l ++ l') = received l ++ received l' := List.flatMap_append
@[simp] theorem told_append : told (l ++ l') = told l ++ told l' := List.flatMap_append
@[simp] theorem overruns_append : overruns (l ++ l') = overruns l + overruns l' := by simp [overruns]

end

@[simp] theorem obs_log (o : List PortObs) : (p.obs o).log = p.log ++ o := rfl

/-! ### The way to the router -/

theorem vspStep_log {e : VspEv} {new : List VspObs} (h : (p.vsp.step e).log = p.vsp.log ++ new) :
    (p.vspStep e).log = p.log ++ new.flatMap (sent p.vsp.fdPtt) := by
  simp only [vspStep, h, List.drop_left]

/-- Only bytes for the router are noted on the way there. -/
theorem sent_toRouter {fd : PttFd} {l : List VspObs} {o : PortObs} (h : o ∈ l.flatMap (sent fd)) : ∃ b, o = .toRouter b := by
  obtain ⟨x, -, hx⟩ := List.mem_flatMap.1 h
  cases x with
  | data b => exact ⟨b, List.mem_singleton.1 hx⟩
  | ptt b =>
    unfold sent at hx
    split_ifs at hx
    · exact ⟨[b], List.mem_singleton.1 hx⟩
    · exact nomatch hx
  | opened id => exact nomatch hx
  | ended id => exact nomatch hx

theorem interrupted_toRouter {b held : List UInt8} (h : Interrupted (.toRouter b) held) : held = [] := by
  rcases h with h | h
  · exact nomatch h
  · exact nomatch h

/-- The session of a port that has one is the first one. -/
structure Whole (p : VspPort) : Prop where
  held : p.Held
  intact : p.Intact

/-- A request is that of the only session. -/
theorem request_ind {P : VspPort → Prop} {id : Nat} {f : VspSession → VspPort} (h : p.Held) (hp : P p)
    (hf : ∀ vs, p.vsp.sessionList = [vs] → p.vsp.findVs id = some vs → p.vsp.wChanIn = true → p.vsp.isTerminal = false →
      P (f vs)) : P (p.request id f) := by
  unfold request
  cases hfind : p.vsp.findVs id with
  | none => exact hp
  | some vs =>
    obtain ⟨hs, -⟩ := Vsp.find_eq hfind h.single.one
    dsimp only
    split_ifs with hc
    · exact hf vs hs hfind hc.1 hc.2
    · exact hp

/-- A session changes. -/
theorem Whole.of_one (hs : q.vsp.sessionList = [vs]) (hc : q.vsp.openCnt = 1) (hheld : vs.pendingIn ≠ some [])
    (hrest : ∀ rest ∈ vs.pendingIn, rest <:+ q.heldBuf) (hstreams : q.Streams vs)
    (hint : ∀ o ∈ q.log, ∀ held, Interrupted o held → held = []) : q.Whole where
  held := ⟨.of_one hs hc hheld, by simpa [hs] using hrest⟩
  intact := ⟨by simpa [hs] using hstreams, hint⟩

/-- Without a session only the answers count. -/
theorem Whole.of_nil (hs : q.vsp.sessionList = []) (hc : q.vsp.openCnt = 0)
    (hint : ∀ o ∈ q.log, ∀ held, Interrupted o held → held = []) : q.Whole where
  held := ⟨.of_nil hs hc, by rw [hs]; exact nofun⟩
  intact := ⟨by rw [hs]; exact nofun, hint⟩

/-! ### The way back -/

/-- The streams of a session to its application. -/
def ReadOk (p : VspPort) : Prop :=
  returned p.log ++ p.collected ++ p.bufOut.unread = kept p.log ∧ p.overrun = overruns p.log

/-- An answer that says nothing of them. -/
theorem readOk_obs (h : ReadOk p) {o : List PortObs} (hr : returned o = []) (hk : kept o = []) (ho : overruns o = 0) :
    ReadOk (p.obs o) := by
  refine ⟨?_, ?_⟩
  · show returned (p.log ++ o) ++ p.collected ++ p.bufOut.unread = kept (p.log ++ o)
    rw [returned_append, kept_append, hr, hk, List.append_nil, List.append_nil]
    exact h.1
  · show p.overrun = overruns (p.log ++ o)
    rw [overruns_append, ho]
    exact h.2

/-- A change of the way back alone. -/
structure ReadSide (p q : VspPort) : Prop where
  vsp : q.vsp = p.vsp
  heldBuf : q.heldBuf = p.heldBuf
  received : received q.log = received p.log
  told : told q.log = told p.log
  interrupted : ∀ o ∈ q.log, ∀ held, Interrupted o held → o ∈ p.log
  read : ReadOk p → ReadOk q

theorem ReadSide.refl : ReadSide p p := ⟨rfl, rfl, rfl, rfl, fun _ ho _ _ => ho, id⟩

theorem ReadSide.trans {r : VspPort} (h : ReadSide p q) (h' : ReadSide q r) : ReadSide p r where
  vsp := h'.vsp.trans h.vsp
  heldBuf := h'.heldBuf.trans h.heldBuf
  received := h'.received.trans h.received
  told := h'.told.trans h.told
  interrupted o ho held hi := h.interrupted o (h'.interrupted o ho held hi) held hi
  read hp := h'.read (h.read hp)

theorem Whole.readSide (h : p.Whole) (hq : ReadSide p q) : q.Whole := by
  have hstreams : ∀ vs ∈ q.vsp.sessionList, q.Streams vs := by
    intro vs hvs
    rw [hq.vsp] at hvs
    have hp := h.intact.streams vs hvs
    obtain ⟨hread, hlost⟩ := hq.read ⟨hp.read, hp.lost⟩
    refine ⟨hread, hlost, ?_⟩
    have hacc : q.accepted vs = p.accepted vs := by rw [accepted, accepted, hq.heldBuf]
    rw [hq.received, hq.told, hacc]
    exact hp.write
  refine ⟨⟨by rw [hq.vsp]; exact h.held.single, ?_⟩, hstreams, ?_⟩
  · rw [hq.vsp, hq.heldBuf]
    exact h.held.rest
  · intro o ho held hi
    exact h.intact.interrupted o (hq.interrupted o ho held hi) held hi

/-- Only the way back changes, and an answer is noted that's none of an interrupt. -/
theorem ReadSide.of_obs {o : List PortObs} (hvsp : q.vsp = p.vsp) (hheld : q.heldBuf = p.heldBuf) (hlog : q.log = p.log ++ o)
    (hrec : VspPort.received o = []) (htold : VspPort.told o = []) (hint : ∀ x ∈ o, ∀ held, ¬Interrupted x held)
    (hread : ReadOk p → ReadOk q) : ReadSide p q where
  vsp := hvsp
  heldBuf := hheld
  received := by rw [hlog, received_append, hrec, List.append_nil]
  told := by rw [hlog, told_append, htold, List.append_nil]
  interrupted x hx held hi := by
    rw [hlog] at hx
    exact (List.mem_append.1 hx).resolve_right fun hx => hint x hx held hi
  read := hread

theorem readSide_timer (b : Bool) : ReadSide p { p with timer := b } := ⟨rfl, rfl, rfl, rfl, fun _ ho _ _ => ho, id⟩

theorem readSide_replyPendingRead {h : HeldRead} (hp : p.pendingOut = some h) : ReadSide p (p.replyPendingRead h) := by
  refine .of_obs (o := [.readReply h.got]) rfl rfl rfl rfl rfl (by simp [Interrupted]) fun ⟨hread, hlost⟩ => ⟨?_, ?_⟩
  · have hgot : p.collected = h.got := by rw [collected, hp]; rfl
    rw [hgot] at hread
    show returned (p.log ++ [.readReply h.got]) ++ [] ++ p.bufOut.unread = kept (p.log ++ [.readReply h.got])
    rw [returned_append, kept_append, List.append_nil]
    simpa [returned, kept] using hread
  · show p.overrun = overruns (p.log ++ [.readReply h.got])
    rw [overruns_append]
    exact hlost

theorem readSide_readTimerCb : ReadSide p p.readTimerCb := by
  unfold readTimerCb
  cases hp : p.pendingOut with
  | none =>
    refine .of_obs (o := []) rfl rfl (List.append_nil _).symm rfl rfl nofun fun ⟨hread, hlost⟩ => ⟨?_, hlost⟩
    simpa [collected, hp] using hread
  | some h => exact readSide_replyPendingRead hp

/-- An error that has taken nothing. -/
theorem readSide_readErr {e : Errno} (he : e ≠ .eintr) : ReadSide p (p.obs [.readErr e []]) := by
  exact .of_obs (o := [.readErr e []]) rfl rfl rfl rfl rfl (by simp [Interrupted, he]) fun h => readOk_obs h rfl rfl rfl

theorem readSide_dvRead (size : Nat) (nonblock : Bool) : ReadSide p (p.dvRead size nonblock) := by
  unfold dvRead
  by_cases hp : p.pendingOut.isSome = true
  · rw [if_pos hp]
    exact readSide_readErr (by decide)
  · have hnone : p.pendingOut = none := by simpa using hp
    have hcol : p.collected = [] := by rw [collected, hnone]; rfl
    rw [if_neg hp]
    dsimp only
    split_ifs
    · -- the first bytes of the buffer are the answer
      refine .of_obs (o := [.readReply (p.bufOut.unread.take size)]) rfl rfl rfl rfl rfl (by simp [Interrupted])
        fun ⟨hread, hlost⟩ => ⟨?_, ?_⟩
      · show returned (p.log ++ [.readReply (p.bufOut.unread.take size)]) ++ p.collected ++
          (p.bufOut.consume (p.bufOut.unread.take size).length).unread = kept (p.log ++ [.readReply _])
        rw [hcol] at hread
        rw [returned_append, kept_append, hcol, Buffer.unread_consume_take]
        simpa [returned, kept] using hread
      · show p.overrun = overruns (p.log ++ [.readReply (p.bufOut.unread.take size)])
        rw [overruns_append]
        exact hlost
    · exact readSide_readErr (by decide)
    · -- the buffer goes to the read that is held
      have hhold : ∀ b : Bool, ReadSide p { p with
          pendingOut := some ⟨p.bufOut.unread, size, p.wantOf size nonblock⟩
          bufOut := .empty
          timer := b } := by
        intro b
        refine .of_obs (o := []) rfl rfl (List.append_nil _).symm rfl rfl nofun fun ⟨hread, hlost⟩ => ⟨?_, hlost⟩
        rw [hcol] at hread
        simpa [collected] using hread
      exact hhold _
    · refine .of_obs (o := []) rfl rfl (List.append_nil _).symm rfl rfl nofun fun ⟨hread, hlost⟩ => ⟨?_, hlost⟩
      rw [hcol] at hread
      simpa [collected] using hread

theorem readSide_serveRead : ReadSide p p.serveRead := by
  unfold serveRead
  cases hp : p.pendingOut with
  | none => exact .refl
  | some h =>
    dsimp only
    obtain ⟨q, hq⟩ : ∃ q, q = p.bufOut.unread.take (h.size - h.got.length) := ⟨_, rfl⟩
    have hmoved : ReadSide p { p with
        pendingOut := some { h with got := h.got ++ q }
        bufOut := p.bufOut.consume q.length } := by
      refine .of_obs (o := []) rfl rfl (List.append_nil _).symm rfl rfl nofun fun ⟨hread, hlost⟩ => ⟨?_, hlost⟩
      have hgot : p.collected = h.got := by rw [collected, hp]; rfl
      rw [hgot] at hread
      rw [← hread]
      show returned p.log ++ (h.got ++ q) ++ (p.bufOut.consume q.length).unread = _
      rw [hq, Buffer.unread_consume_take]
      simp
    rw [← hq]
    split_ifs
    · exact hmoved.trans (readSide_replyPendingRead rfl)
    · exact hmoved.trans (readSide_timer _)
    · exact hmoved

theorem readSide_dataInChunk (chunk : List UInt8) : ReadSide p (p.dataInChunk chunk) := by
  unfold dataInChunk
  split_ifs
  · exact .refl
  · refine ReadSide.trans ?_ readSide_serveRead
    have hkept : kept [.delivered chunk (chunk.length - p.bufOut.avail)] = chunk.take p.bufOut.avail := by
      simp only [kept, List.flatMap_cons, List.flatMap_nil, List.append_nil]
      rcases Nat.le_total chunk.length p.bufOut.avail with hle | hle
      · rw [List.take_of_length_le (by omega), List.take_of_length_le hle]
      · rw [show chunk.length - (chunk.length - p.bufOut.avail) = p.bufOut.avail by omega]
    refine .of_obs (o := [.delivered chunk (chunk.length - p.bufOut.avail)]) rfl rfl rfl rfl rfl (by simp [Interrupted])
      fun ⟨hread, hlost⟩ => ⟨?_, ?_⟩
    · show returned (p.log ++ [.delivered _ _]) ++ p.collected ++ (p.bufOut.append chunk).unread = kept (p.log ++ _)
      rw [returned_append, kept_append, hkept, Buffer.unread_append, ← hread]
      simp [returned]
    · show p.overrun + _ = overruns (p.log ++ [.delivered chunk (chunk.length - p.bufOut.avail)])
      rw [overruns_append, hlost]
      simp [overruns]

theorem readSide_dataInLoop (res : List ReadRes) (p : VspPort) : ReadSide p (dataInLoop res p) := by
  induction res generalizing p with
  | nil => exact .refl
  | cons r res ih =>
    cases r with
    | again => exact .refl
    | error => exact .refl
    | data chunk =>
      cases chunk with
      | nil => exact .refl
      | cons c chunk =>
        rw [dataInLoop]
        split_ifs
        · exact ih p
        · exact (readSide_dataInChunk _).trans (ih _)

/-! ### The way to the router -/

/-- A step on the way to the router adds bytes for it to the log, and no answers. -/
theorem vspStep_interrupted {e : VspEv} (h : ∀ o ∈ p.log, ∀ held, Interrupted o held → held = []) :
    ∀ o ∈ (p.vspStep e).log, ∀ held, Interrupted o held → held = [] := by
  intro o ho held hi
  rcases List.mem_append.1 ho with ho | ho
  · exact h o ho held hi
  · obtain ⟨b, rfl⟩ := sent_toRouter ho
    exact interrupted_toRouter hi

/-- The session is kept as it was for the streams. -/
theorem Whole.quiet (h : p.Whole) (hs : p.vsp.sessionList = [vs]) (hq : q.vsp.sessionList = [vs'])
    (hc : q.vsp.openCnt = p.vsp.openCnt) (hb : vs'.bufIn = vs.bufIn) (hp : vs'.pendingIn = vs.pendingIn)
    (hread : ReadSide { p with vsp := q.vsp } q) : q.Whole := by
  have hstreams := h.intact.streams vs (by simp [hs])
  have hmid : ({ p with vsp := q.vsp } : VspPort).Whole := by
    refine .of_one hq (hc.trans (h.held.single.cnt_one hs)) ?_ ?_ ⟨hstreams.read, hstreams.lost, ?_⟩ h.intact.interrupted
    · rw [hp]
      exact h.held.single.held vs (by simp [hs])
    · rw [hp]
      exact h.held.rest vs (by simp [hs])
    · have hacc : ({ p with vsp := q.vsp } : VspPort).accepted vs' = p.accepted vs := by rw [accepted, accepted, hp]
      rw [hb, hacc]
      exact hstreams.write
  exact hmid.readSide hread

/-- A step that writes nothing. -/
theorem vspStep_quiet {e : VspEv} (he : (p.vsp.step e).log = p.vsp.log) : p.vspStep e = { p with vsp := p.vsp.step e } := by
  unfold vspStep
  rw [he, List.drop_length, List.flatMap_nil, List.append_nil]

theorem vspStep_same {e : VspEv} (he : p.vsp.step e = p.vsp) : p.vspStep e = p := by
  rw [vspStep_quiet (congrArg Vsp.log he), he]

/-- A write that is refused. -/
theorem readSide_writeErr {e : Errno} (he : e ≠ .eintr) : ReadSide p (p.obs [.writeErr e []]) := by
  exact .of_obs (o := [.writeErr e []]) rfl rfl rfl rfl rfl (by simp [Interrupted, he]) fun h => readOk_obs h rfl rfl rfl

theorem interrupted_append {l o : List PortObs} (h : ∀ x ∈ l, ∀ held, Interrupted x held → held = [])
    (ho : ∀ x ∈ o, ∀ held, Interrupted x held → held = []) : ∀ x ∈ l ++ o, ∀ held, Interrupted x held → held = [] := by
  intro x hx
  rcases List.mem_append.1 hx with hx | hx
  · exact h x hx
  · exact ho x hx

theorem Whole.dvWrite (h : p.Whole) (hs : p.vsp.sessionList = [vs]) (hfind : p.vsp.findVs vs.id = some vs)
    (hw : p.vsp.wChanIn = true) (ht : p.vsp.isTerminal = false) (buf : List UInt8) (nonblock : Bool) :
    (p.dvWrite vs buf nonblock).Whole := by
  have hstep : p.vsp.step (.dvWrite vs.id buf nonblock) = p.vsp.dvWrite vs buf nonblock := by
    rw [Vsp.step, Vsp.request, hfind]
    exact if_pos ⟨hw, ht⟩
  have hstreams := h.intact.streams vs (by simp [hs])
  have hone := h.held.single.cnt_one hs
  unfold VspPort.dvWrite
  dsimp only
  by_cases hpend : vs.pendingIn.isSome = true
  · have hsame : p.vspStep (.dvWrite vs.id buf nonblock) = p := by
      refine vspStep_same ?_
      rw [hstep, Vsp.dvWrite, if_pos hpend]
    rw [if_pos hpend, hsame]
    exact h.readSide (readSide_writeErr (by decide))
  have hnone : vs.pendingIn = none := by simpa using hpend
  have hwrite := hstreams.write
  rw [accepted, hnone, List.append_nil] at hwrite
  rw [if_neg hpend]
  by_cases hfull : nonblock = true ∧ vs.bufIn.avail = 0 ∧ buf ≠ []
  · have hsame : p.vspStep (.dvWrite vs.id buf nonblock) = p := by
      refine vspStep_same ?_
      rw [hstep, Vsp.dvWrite, if_neg hpend, if_pos hfull]
    rw [if_pos hfull, hsame]
    exact h.readSide (readSide_writeErr (by decide))
  rw [if_neg hfull]
  by_cases hblock : nonblock = false ∧ vs.bufIn.avail < buf.length
  · -- the request is held with what doesn't fit
    obtain ⟨vs', hvs'⟩ : ∃ vs', vs' = { vs with
        bufIn := vs.bufIn.append buf
        pendingIn := some (buf.drop vs.bufIn.avail) } := ⟨_, rfl⟩
    obtain ⟨b, hb⟩ : ∃ b, b = p.vsp.step (.dvWrite vs.id buf nonblock) := ⟨_, rfl⟩
    have hheld : b = { p.vsp.put vs' with wDataOut := p.vsp.watchStart p.vsp.wDataOut } := by
      rw [hb, hstep, Vsp.dvWrite, if_neg hpend, if_neg hfull, if_pos hblock, hvs']
    have hlist : b.sessionList = [vs'] := by
      rw [hheld]
      exact Vsp.put_one hs (by rw [hvs'])
    have hcnt : b.openCnt = 1 := by
      rw [hheld]
      exact hone
    have hlog : b.log = p.vsp.log := by rw [hheld]; rfl
    have hdrop : buf.drop vs.bufIn.avail ≠ [] := by
      intro hnil
      have hle := List.drop_eq_nil_iff.1 hnil
      omega
    rw [if_pos hblock, vspStep_quiet (hb ▸ hlog), ← hb]
    refine .of_one hlist hcnt ?_ ?_ ⟨hstreams.read, hstreams.lost, ?_⟩ h.intact.interrupted
    · rw [hvs']
      exact fun hnil => hdrop (Option.some.inj hnil)
    · rw [hvs']
      rintro rest hrest
      rw [← Option.some.inj hrest]
      exact List.drop_suffix _ _
    · have hacc : buf.take (buf.length - (buf.drop vs.bufIn.avail).length) = buf.take vs.bufIn.avail := by
        rw [List.length_drop, show buf.length - (buf.length - vs.bufIn.avail) = vs.bufIn.avail by omega]
      rw [hvs', accepted, Buffer.unread_append]
      dsimp only
      rw [hacc, ← hwrite, List.append_assoc]
  · -- what fits is taken, and the answer says how much
    obtain ⟨vs', hvs'⟩ : ∃ vs', vs' = { vs with bufIn := vs.bufIn.append buf } := ⟨_, rfl⟩
    obtain ⟨b, hb⟩ : ∃ b, b = p.vsp.step (.dvWrite vs.id buf nonblock) := ⟨_, rfl⟩
    have htaken : b = { p.vsp.put vs' with wDataOut := p.vsp.watchStart p.vsp.wDataOut } := by
      rw [hb, hstep, Vsp.dvWrite, if_neg hpend, if_neg hfull, if_neg hblock, hvs']
    have hlist : b.sessionList = [vs'] := by
      rw [htaken]
      exact Vsp.put_one hs (by rw [hvs'])
    have hcnt : b.openCnt = 1 := by
      rw [htaken]
      exact hone
    have hlog : b.log = p.vsp.log := by rw [htaken]; rfl
    have hnone' : vs'.pendingIn = none := by rw [hvs', hnone]
    have hread : ReadOk { p with vsp := b } := ⟨hstreams.read, hstreams.lost⟩
    obtain ⟨hread, hlost⟩ := readOk_obs hread (o := [.writeReply (buf.take vs.bufIn.avail)]) rfl rfl rfl
    rw [if_neg hblock, vspStep_quiet (hb ▸ hlog), ← hb]
    refine .of_one hlist hcnt ?_ ?_ ⟨hread, hlost, ?_⟩ ?_
    · simp [hnone']
    · simp [hnone']
    · rw [obs_log, received_append, told_append, accepted, hnone', hvs', Buffer.unread_append]
      dsimp only
      rw [show received [.writeReply (buf.take vs.bufIn.avail)] = [] from rfl,
        show told [.writeReply (buf.take vs.bufIn.avail)] = buf.take vs.bufIn.avail from List.append_nil _, List.append_nil,
        List.append_nil, ← hwrite, List.append_assoc]
    · rw [obs_log]
      exact interrupted_append h.intact.interrupted (by simp [Interrupted])

/-! ### Lines -/

theorem sent_ptt {fd : PttFd} {terminal taken : Bool} {ptt : Prop} [Decidable ptt] {b : UInt8} (ht : terminal = false) :
    (if terminal = false ∧ ptt ∧ taken = true ∧ fd ≠ .none then [VspObs.ptt b] else []).flatMap (sent fd) =
      if fd = .data ∧ ptt ∧ taken = true then [.toRouter [b]] else [] := by
  cases fd with
  | none => simp
  | data => simp [ht, apply_ite (List.flatMap (sent .data)), sent]
  | own => simp [apply_ite (List.flatMap (sent .own)), sent]

/-- A byte for the PTT channel on the data socket is one that nobody wrote. -/
theorem Whole.setBits (h : p.Whole) (id : Nat) (op : BitsOp) (bits : ModemBits) (taken : Bool) :
    (p.step (.setBits id op bits taken)).Held ∧
      ((p.step (.setBits id op bits taken)).Intact ↔ p.Keeps (.setBits id op bits taken)) := by
  have hsame : p.vsp.step (.setBits id op bits taken) = p.vsp → p.Keeps (.setBits id op bits taken) →
      (p.step (.setBits id op bits taken)).Held ∧
        ((p.step (.setBits id op bits taken)).Intact ↔ p.Keeps (.setBits id op bits taken)) := by
    intro he hk
    rw [step, vspStep_same he]
    exact ⟨h.held, fun _ => hk, fun _ => h.intact⟩
  cases hfind : p.vsp.findVs id with
  | none =>
    refine hsame ?_ (by simp [Keeps, hfind])
    rw [Vsp.step, Vsp.request, hfind]
  | some vs =>
    by_cases hc : p.vsp.wChanIn = true ∧ p.vsp.isTerminal = false
    swap
    · refine hsame ?_ fun hw ht => absurd ⟨hw, ht⟩ hc
      rw [Vsp.step, Vsp.request, hfind]
      exact if_neg hc
    obtain ⟨hs, -⟩ := Vsp.find_eq hfind h.held.single.one
    have hstreams := h.intact.streams vs (by simp [hs])
    have hstep : p.vsp.step (.setBits id op bits taken) = p.vsp.setBits vs (op.apply p.vsp.mbits bits) taken := by
      rw [Vsp.step, Vsp.request, hfind]
      exact if_pos hc
    obtain ⟨st, hlist, hcnt, -, b, hlog⟩ := Vsp.setBits_spec hs (op.apply p.vsp.mbits bits) taken
    rw [← hstep] at hlist hcnt hlog
    have hkeeps : p.Keeps (.setBits id op bits taken) ↔
        ¬(p.vsp.fdPtt = .data ∧ (p.vsp.rtsIsPtt = true ∨ p.vsp.dtrIsPtt = true) ∧ taken = true) := by
      simp [Keeps, hc.1, hc.2, hfind]
    rw [hkeeps, step]
    obtain ⟨q, hq⟩ : ∃ q, q = p.vspStep (.setBits id op bits taken) := ⟨_, rfl⟩
    have hqs : q.vsp.sessionList = [{ vs with pttStatus := st }] := by rw [hq]; exact hlist
    have hqlog : q.log = p.log ++ if p.vsp.fdPtt = .data ∧ (p.vsp.rtsIsPtt = true ∨ p.vsp.dtrIsPtt = true) ∧ taken = true then
        [.toRouter [b]] else [] := by
      rw [hq, vspStep_log hlog]
      rw [sent_ptt hc.2]
    rw [← hq]
    have hheld : q.Held := by
      refine ⟨.of_one hqs (by rw [hq]; exact hcnt.trans (h.held.single.cnt_one hs)) (h.held.single.held vs (by simp [hs])), ?_⟩
      rw [hqs, hq]
      intro vs' hvs'
      obtain rfl := List.mem_singleton.1 hvs'
      exact h.held.rest vs (by simp [hs])
    have hread : returned q.log ++ q.collected ++ q.bufOut.unread = kept q.log ∧ q.overrun = overruns q.log := by
      have hr := readOk_obs (p := p) ⟨hstreams.read, hstreams.lost⟩ (o := if p.vsp.fdPtt = .data ∧
        (p.vsp.rtsIsPtt = true ∨ p.vsp.dtrIsPtt = true) ∧ taken = true then [.toRouter [b]] else [])
        (by split_ifs <;> rfl) (by split_ifs <;> rfl) (by split_ifs <;> rfl)
      rw [hqlog, hq]
      exact hr
    refine ⟨hheld, fun hint hdata => ?_, fun hno => ?_⟩
    · have hwrite := (hint.streams _ (by rw [hqs]; exact List.mem_singleton_self _)).write
      rw [hqlog, if_pos hdata, received_append, told_append] at hwrite
      have hacc : q.accepted { vs with pttStatus := st } = p.accepted vs := by rw [hq]; rfl
      rw [hacc] at hwrite
      have hlen := congrArg List.length hwrite
      have hlen' := congrArg List.length hstreams.write
      simp only [List.length_append] at hlen hlen'
      have hone : (received [.toRouter [b]]).length = 1 := rfl
      have hzero : (told [.toRouter [b]]).length = 0 := rfl
      omega
    · rw [if_neg hno, List.append_nil] at hqlog
      refine ⟨?_, by rw [hqlog]; exact h.intact.interrupted⟩
      rw [hqs]
      intro vs' hvs'
      obtain rfl := List.mem_singleton.1 hvs'
      refine ⟨hread.1, hread.2, ?_⟩
      have hacc : q.accepted { vs with pttStatus := st } = p.accepted vs := by rw [hq]; rfl
      rw [hqlog, hacc]
      exact hstreams.write

/-! ### Interrupts and ends -/

/-- The answers to the requests that are held have taken nothing if and only if the session is untouched. -/
theorem interrupted_answerHeld (h : ∀ o ∈ p.log, ∀ held, Interrupted o held → held = []) :
    (∀ o ∈ (p.answerHeld vs .eintr).log, ∀ held, Interrupted o held → held = []) ↔ p.Untouched vs := by
  constructor
  · intro hall
    constructor
    · cases hp : p.pendingOut with
      | none => rw [collected, hp]; rfl
      | some x =>
        refine hall (.readErr .eintr p.collected) ?_ _ (.inl rfl)
        simp [answerHeld, hp]
    · cases hp : vs.pendingIn with
      | none => rw [accepted, hp]
      | some rest =>
        refine hall (.writeErr .eintr (p.accepted vs)) ?_ _ (.inr rfl)
        simp [answerHeld, hp]
  · rintro ⟨hcol, hacc⟩
    refine interrupted_append h (interrupted_append ?_ ?_)
    · intro o ho held hi
      split_ifs at ho
      · obtain rfl := List.mem_singleton.1 ho
        rcases hi with hi | hi
        · exact nomatch hi
        · obtain ⟨-, rfl⟩ := PortObs.writeErr.inj hi
          exact hacc
      · exact nomatch ho
    · intro o ho held hi
      split_ifs at ho
      · obtain rfl := List.mem_singleton.1 ho
        rcases hi with hi | hi
        · obtain ⟨-, rfl⟩ := PortObs.readErr.inj hi
          exact hcol
        · exact nomatch hi
      · exact nomatch ho

/-- Other errors are no interrupts. -/
theorem interrupted_answerHeld_eio (h : ∀ o ∈ p.log, ∀ held, Interrupted o held → held = []) :
    ∀ o ∈ (p.answerHeld vs .eio).log, ∀ held, Interrupted o held → held = [] := by
  refine interrupted_append h (interrupted_append ?_ ?_)
  · intro o ho held hi
    split_ifs at ho
    · obtain rfl := List.mem_singleton.1 ho
      simp [Interrupted] at hi
    · exact nomatch ho
  · intro o ho held hi
    split_ifs at ho
    · obtain rfl := List.mem_singleton.1 ho
      simp [Interrupted] at hi
    · exact nomatch ho

theorem vspStep_interrupted_iff {e : VspEv} : (∀ o ∈ (p.vspStep e).log, ∀ held, Interrupted o held → held = []) ↔
    ∀ o ∈ p.log, ∀ held, Interrupted o held → held = [] :=
  ⟨fun h o ho => h o (List.mem_append_left _ ho), vspStep_interrupted⟩

/-- The session ends. -/
theorem Whole.ended {e : VspEv} (hs : p.vsp.sessionList = [vs]) (hl : (p.vsp.step e).sessionList = [])
    (hc : (p.vsp.step e).openCnt = 0) (errno : Errno) : (p.ending e errno).Held ∧ ((p.ending e errno).Intact ↔
      ∀ o ∈ (p.answerHeld vs errno).log, ∀ held, Interrupted o held → held = []) := by
  have hend : p.ending e errno = (p.answerHeld vs errno).vspStep e := by
    unfold ending
    rw [hs]
    exact if_pos hl
  rw [hend]
  refine ⟨⟨.of_nil hl hc, ?_⟩, fun hint => vspStep_interrupted_iff.1 hint.interrupted,
    fun hint => (Whole.of_nil hl hc (vspStep_interrupted hint)).intact⟩
  show ∀ vs' ∈ (p.vsp.step e).sessionList, _
  rw [hl]
  exact nofun

theorem ending_same {e : VspEv} (he : p.vsp.step e = p.vsp) (errno : Errno) : p.ending e errno = p := by
  unfold ending
  rw [vspStep_same he, he]
  split
  · rfl
  · next hs =>
    rw [if_neg]
    rw [hs]
    exact List.cons_ne_nil _ _

theorem ending_nil {e : VspEv} (hs : p.vsp.sessionList = []) (errno : Errno) : p.ending e errno = p.vspStep e := by
  unfold ending
  rw [hs]

/-- A step that ends the session, if it has one, or does nothing. -/
theorem Whole.ending_eio (h : p.Whole) {e : VspEv}
    (hor : p.vsp.step e = p.vsp ∨ ((p.vsp.step e).sessionList = [] ∧ (p.vsp.step e).openCnt = 0)) : (p.ending e .eio).Whole := by
  rcases hor with hsame | ⟨hl, hc⟩
  · rw [ending_same hsame]
    exact h
  · rcases h.held.single.one with hs | ⟨vs, hs⟩
    · rw [ending_nil hs]
      exact .of_nil hl hc (vspStep_interrupted h.intact.interrupted)
    · obtain ⟨hheld, hiff⟩ := ended hs hl hc .eio
      exact ⟨hheld, hiff.2 (interrupted_answerHeld_eio h.intact.interrupted)⟩

/-- A step that ends the session with an interrupt. -/
theorem Whole.ending_eintr (h : p.Whole) {e : VspEv} (hs : p.vsp.sessionList = [vs]) (hl : (p.vsp.step e).sessionList = [])
    (hc : (p.vsp.step e).openCnt = 0) : (p.ending e .eintr).Held ∧ ((p.ending e .eintr).Intact ↔ p.Untouched vs) := by
  obtain ⟨hheld, hiff⟩ := ended hs hl hc .eintr
  exact ⟨hheld, hiff.trans (interrupted_answerHeld h.intact.interrupted)⟩

theorem Whole.interrupt (h : p.Whole) (id : Nat) :
    (p.step (.interrupt id)).Held ∧ ((p.step (.interrupt id)).Intact ↔ p.Keeps (.interrupt id)) := by
  rw [step, request]
  cases hfind : p.vsp.findVs id with
  | none => exact ⟨h.held, fun _ _ _ => by simp [hfind], fun _ => h.intact⟩
  | some vs =>
    dsimp only
    by_cases hc : p.vsp.wChanIn = true ∧ p.vsp.isTerminal = false
    swap
    · rw [if_neg hc]
      exact ⟨h.held, fun _ hw ht => absurd ⟨hw, ht⟩ hc, fun _ => h.intact⟩
    rw [if_pos hc]
    obtain ⟨hs, rfl⟩ := Vsp.find_eq hfind h.held.single.one
    have hkeeps : p.Keeps (.interrupt vs.id) ↔ p.Untouched vs := by simp [Keeps, hc.1, hc.2, hfind]
    rw [hkeeps]
    have hstreams := h.intact.streams vs (by simp [hs])
    obtain ⟨b, hb⟩ : ∃ b, b = p.vsp.step (.interrupt vs.id) := ⟨_, rfl⟩
    have hput : b = p.vsp.put { vs with pendingIn := none } := by
      rw [hb, Vsp.step, Vsp.request, hfind]
      exact if_pos hc
    have hlist : b.sessionList = [{ vs with pendingIn := none }] := by
      rw [hput]
      exact Vsp.put_one hs rfl
    have hcnt : b.openCnt = 1 := by
      rw [hput]
      exact h.held.single.cnt_one hs
    have hlog : b.log = p.vsp.log := by rw [hput]; rfl
    have hquiet : p.interruptFunc vs = { p.answerHeld vs .eintr with timer := p.timer && p.pendingOut.isNone, vsp := b } := by
      rw [interruptFunc, vspStep_quiet (p := { p.answerHeld vs .eintr with timer := _ }) (hb ▸ hlog), hb]
      rfl
    rw [hquiet, ← interrupted_answerHeld h.intact.interrupted]
    refine ⟨⟨.of_one hlist hcnt fun hsome => ?_, ?_⟩, fun hint => hint.interrupted, fun hint => ⟨?_, hint⟩⟩
    · cases hsome
    · show ∀ vs' ∈ b.sessionList, _
      rw [hlist]
      intro vs' hvs' rest hrest
      obtain rfl := List.mem_singleton.1 hvs'
      cases hrest
    · obtain ⟨hcol, hacc⟩ := (interrupted_answerHeld h.intact.interrupted).1 hint
      show ∀ vs' ∈ b.sessionList, _
      rw [hlist]
      intro vs' hvs'
      obtain rfl := List.mem_singleton.1 hvs'
      have hwrite := hstreams.write
      have hread := hstreams.read
      have hlost := hstreams.lost
      rw [hacc, List.append_nil] at hwrite
      rw [hcol, List.append_nil] at hread
      have hans : (p.answerHeld vs .eintr).log = p.log ++ ((if vs.pendingIn.isSome then [.writeErr .eintr (p.accepted vs)] else []) ++
          if p.pendingOut.isSome then [.readErr .eintr p.collected] else []) := rfl
      have hsilent : ∀ {α : Type} (f : List PortObs → List α), (∀ l l', f (l ++ l') = f l ++ f l') →
          f [.writeErr .eintr (p.accepted vs)] = [] → f [.readErr .eintr p.collected] = [] → f [] = [] →
          f (p.answerHeld vs .eintr).log = f p.log := by
        intro α f happ h1 h2 h3
        rw [hans, happ, happ]
        split_ifs <;> simp [h1, h2, h3]
      refine ⟨?_, ?_, ?_⟩
      · show returned (p.answerHeld vs .eintr).log ++ [] ++ p.bufOut.unread = kept (p.answerHeld vs .eintr).log
        rw [hsilent returned returned_append rfl rfl rfl, hsilent kept kept_append rfl rfl rfl, List.append_nil]
        exact hread
      · show p.overrun = overruns (p.answerHeld vs .eintr).log
        rw [hans, overruns_append, overruns_append, hlost]
        split_ifs <;> rfl
      · show received (p.answerHeld vs .eintr).log ++ vs.bufIn.unread = told (p.answerHeld vs .eintr).log ++ []
        rw [hsilent received received_append rfl rfl rfl, hsilent told told_append rfl rfl rfl, List.append_nil]
        exact hwrite

/-! ### What the router takes -/

theorem replyWrite_same {before : List VspSession} (h : p.vsp.sessionList = before) : p.replyWrite before = p := by
  unfold replyWrite
  rw [h]
  cases before with
  | nil => rfl
  | cons vs rest =>
    refine if_neg ?_
    rintro ⟨hsome, hnone⟩
    rw [hnone] at hsome
    exact nomatch hsome

theorem replyWrite_nil {before : List VspSession} (h : p.vsp.sessionList = []) : p.replyWrite before = p := by
  unfold replyWrite
  rw [h]
  cases before <;> rfl

/-- The bytes that went into the buffer of a write that is held are those ahead of the rest. -/
theorem accepted_append {rest : List UInt8} (h : rest <:+ p.heldBuf) :
    p.heldBuf.take (p.heldBuf.length - rest.length) ++ rest = p.heldBuf := List.suffix_iff_eq_append.1 h

theorem accepted_more {rest q : List UInt8} (h : rest <:+ p.heldBuf) (hq : q <+: rest) :
    p.heldBuf.take (p.heldBuf.length - (rest.drop q.length).length) =
      p.heldBuf.take (p.heldBuf.length - rest.length) ++ q := by
  obtain ⟨rem, rfl⟩ := hq
  have hrem : rem <:+ p.heldBuf := (List.suffix_append q rem).trans h
  rw [List.drop_left]
  refine (List.append_left_inj rem).1 ?_
  rw [accepted_append hrem, List.append_assoc, accepted_append h]

/-- The router takes the first bytes of the buffer. -/
theorem Whole.drained (h : p.Whole) (hs : p.vsp.sessionList = [vs]) {e : VspEv} {n : Nat}
    (hlist : (p.vsp.step e).sessionList = [p.vsp.drained vs (vs.bufIn.unread.take n)])
    (hcnt : (p.vsp.step e).openCnt = p.vsp.openCnt)
    (hlog : (p.vsp.step e).log = p.vsp.log ++ [.data (vs.bufIn.unread.take n)]) :
    ((p.vspStep e).replyWrite [vs]).Whole := by
  obtain ⟨out, hout⟩ : ∃ out, out = vs.bufIn.unread.take n := ⟨_, rfl⟩
  have hleft := vs.bufIn.unread_consume_take n
  rw [← hout] at hlist hlog hleft
  have hsplit : vs.bufIn.unread = out ++ vs.bufIn.unread.drop n := by rw [hout, List.take_append_drop]
  have hstreams := h.intact.streams vs (by simp [hs])
  have hwrite := hstreams.write
  rw [hsplit, ← List.append_assoc] at hwrite
  obtain ⟨q, hq⟩ : ∃ q, q = p.vspStep e := ⟨_, rfl⟩
  have hqlog : q.log = p.log ++ [.toRouter out] := by rw [hq, vspStep_log hlog]; rfl
  have hqlist : q.vsp.sessionList = [p.vsp.drained vs out] := by rw [hq]; exact hlist
  have hqcnt : q.vsp.openCnt = 1 := by rw [hq]; exact hcnt.trans (h.held.single.cnt_one hs)
  have hread : ReadOk q := by
    have hr := readOk_obs (p := p) ⟨hstreams.read, hstreams.lost⟩ (o := [.toRouter out]) rfl rfl rfl
    rw [ReadOk, hqlog, hq]
    exact hr
  have hint : ∀ o ∈ q.log, ∀ held, Interrupted o held → held = [] := by
    rw [hqlog]
    exact interrupted_append h.intact.interrupted (by simp [Interrupted])
  have hbuf : q.heldBuf = p.heldBuf := by rw [hq]; rfl
  rw [← hq]
  unfold replyWrite
  rw [hqlist]
  dsimp only
  cases hp : vs.pendingIn with
  | none =>
    have hdr : (p.vsp.drained vs out).pendingIn = none ∧ (p.vsp.drained vs out).bufIn = vs.bufIn.consume out.length := by
      simp [Vsp.drained, Vsp.refill, hp]
    rw [if_neg (by simp)]
    refine .of_one hqlist hqcnt (by simp [hdr.1]) (by simp [hdr.1]) ⟨hread.1, hread.2, ?_⟩ hint
    rw [accepted, hp, List.append_nil] at hwrite
    rw [hqlog, received_append, told_append, accepted, hdr.1, hdr.2, hleft]
    show received p.log ++ (out ++ []) ++ _ = told p.log ++ [] ++ []
    rw [List.append_nil, List.append_nil, List.append_nil, hwrite]
  | some rest =>
    obtain ⟨b, hb⟩ : ∃ b, b = vs.bufIn.consume out.length := ⟨_, rfl⟩
    obtain ⟨moved, hmoved⟩ : ∃ moved, moved = rest.take (min (rest.length % 65536) b.avail) := ⟨_, rfl⟩
    have hdr : (p.vsp.drained vs out).pendingIn = (if rest.drop moved.length = [] then none else some (rest.drop moved.length)) ∧
        (p.vsp.drained vs out).bufIn = b.append moved := by
      rw [Vsp.drained, Vsp.refill, hp, hb, hmoved, hb]
      exact ⟨rfl, rfl⟩
    have hroom : moved.length ≤ b.avail := by
      rw [hmoved, List.length_take]
      omega
    have hunread : (p.vsp.drained vs out).bufIn.unread = vs.bufIn.unread.drop n ++ moved := by
      rw [hdr.2, Buffer.unread_append_of_le _ hroom, hb, hleft]
    have hrest : rest <:+ p.heldBuf := h.held.rest vs (by simp [hs]) rest hp
    have hprefix : moved <+: rest := hmoved ▸ List.take_prefix _ _
    rw [accepted, hp] at hwrite
    by_cases hall : rest.drop moved.length = []
    · -- the last of it: the write is answered
      have hnone : (p.vsp.drained vs out).pendingIn = none := by rw [hdr.1, if_pos hall]
      have hmovedAll : moved = rest := by
        refine hprefix.eq_of_length_le ?_
        exact List.drop_eq_nil_iff.1 hall
      obtain ⟨hread, hlost⟩ := readOk_obs hread (o := [.writeReply q.heldBuf]) rfl rfl rfl
      rw [if_pos ⟨rfl, hnone⟩]
      refine .of_one hqlist hqcnt (by simp [hnone]) (by simp [hnone]) ⟨hread, hlost, ?_⟩ ?_
      · rw [obs_log, hqlog, received_append, received_append, told_append, told_append, accepted, hnone, hunread, hmovedAll, hbuf]
        show received p.log ++ (out ++ []) ++ [] ++ _ = told p.log ++ [] ++ (p.heldBuf ++ []) ++ []
        rw [List.append_nil, List.append_nil, List.append_nil, List.append_nil, List.append_nil, ← List.append_assoc, hwrite,
          List.append_assoc, accepted_append hrest]
      · rw [obs_log]
        exact interrupted_append hint (by simp [Interrupted])
    · have hsome : (p.vsp.drained vs out).pendingIn = some (rest.drop moved.length) := by rw [hdr.1, if_neg hall]
      rw [if_neg (by simp [hsome])]
      refine .of_one hqlist hqcnt (by simpa [hsome] using hall) ?_ ⟨hread.1, hread.2, ?_⟩ hint
      · rw [hsome, hbuf]
        rintro rest' hrest'
        rw [← Option.some.inj hrest']
        exact (List.drop_suffix _ _).trans hrest
      · rw [hqlog, received_append, told_append, accepted, hsome, hunread, hbuf]
        show received p.log ++ (out ++ []) ++ _ = told p.log ++ [] ++ _
        rw [List.append_nil, List.append_nil, ← List.append_assoc, hwrite, List.append_assoc]
        exact congrArg (told p.log ++ ·) (accepted_more hrest hprefix).symm

/-- Only the watcher changes. -/
theorem Whole.watch (h : p.Whole) {e : VspEv} {w : Bool} (he : p.vsp.step e = { p.vsp with wDataOut := w }) :
    ((p.ending e .eio).replyWrite p.vsp.sessionList).Whole := by
  have hlist : (p.vspStep e).vsp.sessionList = p.vsp.sessionList := by
    show (p.vsp.step e).sessionList = _
    rw [he]
  have hend : p.ending e .eio = p.vspStep e := by
    unfold ending
    split
    · rfl
    · next hs =>
      rw [if_neg]
      show (p.vspStep e).vsp.sessionList ≠ []
      rw [hlist, hs]
      exact List.cons_ne_nil _ _
  rw [hend, replyWrite_same hlist, vspStep_quiet (by rw [he]), he]
  rcases h.held.single.one with hs | ⟨vs, hs⟩
  · exact .of_nil hs (by rw [← List.length_eq_zero_iff.2 hs]; exact h.held.single.cnt) h.intact.interrupted
  · exact h.quiet hs hs rfl rfl rfl .refl

theorem Whole.dataOut (h : p.Whole) (res : Nat → WriteRes) (taken : Nat → Bool) : (p.step (.dataOut res taken)).Whole := by
  rw [step]
  obtain ⟨e, he⟩ : ∃ e, e = VspEv.dataOut res taken := ⟨_, rfl⟩
  rw [← he]
  by_cases hw : p.vsp.wDataOut = true
  swap
  · exact h.watch (w := p.vsp.wDataOut) (by rw [he, Vsp.step, if_neg hw])
  have hcb : p.vsp.step e = p.vsp.dataOutCb res taken := by rw [he, Vsp.step, if_pos hw]
  cases ht : p.vsp.isTerminal with
  | true => exact h.watch (w := p.vsp.wDataOut) (by rw [hcb, Vsp.dataOutCb, if_pos ht])
  | false =>
    by_cases hidle : p.vsp.sessionList = [] ∨ ∃ vs, p.vsp.sessionList = [vs] ∧ vs.bufIn.unread = []
    · exact h.watch (hcb.trans (Vsp.dataOutCb_idle hidle ht res taken))
    · obtain ⟨vs, hs⟩ := h.held.single.one.resolve_left fun hs => hidle (.inl hs)
      have hu : vs.bufIn.unread ≠ [] := fun hu => hidle (.inr ⟨vs, hs, hu⟩)
      rw [Vsp.dataOutCb_one hs ht hu] at hcb
      cases hres : res vs.id with
      | again =>
        rw [hres] at hcb
        exact h.watch (w := p.vsp.wDataOut) hcb
      | error =>
        rw [hres] at hcb
        obtain ⟨hl, hc⟩ := h.held.single.fail ht taken
        have hwhole := h.ending_eio (e := e) (.inr (by rw [hcb]; exact ⟨hl, hc⟩))
        have hnil : (p.ending e .eio).vsp.sessionList = [] := by
          unfold ending
          rw [hs]
          dsimp only
          split_ifs
          · show (p.vsp.step e).sessionList = []
            rw [hcb]
            exact hl
          · show (p.vsp.step e).sessionList = []
            rw [hcb]
            exact hl
        rw [replyWrite_nil hnil]
        exact hwhole
      | wrote n =>
        rw [hres] at hcb
        cases n with
        | zero => exact h.watch hcb
        | succ n =>
          have hlist : (p.vsp.step e).sessionList = [p.vsp.drained vs (vs.bufIn.unread.take (n + 1))] := congrArg Vsp.sessionList hcb
          have hend : p.ending e .eio = p.vspStep e := by
            unfold ending
            rw [hs]
            exact if_neg (by rw [hlist]; exact List.cons_ne_nil _ _)
          rw [hend, hs]
          exact h.drained hs hlist (by rw [hcb]; rfl) (by rw [hcb]; rfl)

/-! ### Runs -/

theorem Whole.open (h : p.Whole) (readable : Bool) : (p.dvOpen readable).Whole := by
  unfold VspPort.dvOpen
  dsimp only
  rcases h.held.single.open with hsame | ⟨hnil, id, hlist, hcnt⟩
  · rw [vspStep_same hsame, if_neg fun hx => hx.2 hx.1]
    exact h
  · have hopened : p.vsp.sessionList = [] ∧ (p.vspStep .dvOpen).vsp.sessionList ≠ [] := by
      refine ⟨hnil, ?_⟩
      show (p.vsp.step .dvOpen).sessionList ≠ []
      rw [hlist]
      exact List.cons_ne_nil _ _
    rw [if_pos hopened]
    exact .of_one hlist hcnt nofun nofun ⟨rfl, rfl, rfl⟩ nofun

/-- A step keeps the streams whole if and only if it meets its condition. -/
theorem Whole.step_iff (h : p.Whole) (e : PortEv) : (p.step e).Held ∧ ((p.step e).Intact ↔ p.Keeps e) := by
  have hgood : (p.step e).Whole → p.Keeps e → (p.step e).Held ∧ ((p.step e).Intact ↔ p.Keeps e) :=
    fun hw hk => ⟨hw.held, fun _ => hk, fun _ => hw.intact⟩
  cases e with
  | dvOpen readable => exact hgood (h.open readable) trivial
  | dvRead id size nonblock =>
    exact hgood (request_ind h.held h fun _ _ _ _ _ => h.readSide (readSide_dvRead size nonblock)) trivial
  | dvWrite id buf nonblock =>
    refine hgood (request_ind h.held h fun vs hs hfind hw ht => h.dvWrite hs ?_ hw ht buf nonblock) trivial
    rw [(Vsp.find_eq hfind h.held.single.one).2]
    exact hfind
  | interrupt id => exact h.interrupt id
  | readTimer =>
    refine hgood ?_ trivial
    rw [step]
    split_ifs
    · exact h.readSide readSide_readTimerCb
    · exact h
  | tcSets id vmin vtime =>
    exact hgood (request_ind h.held h fun _ _ _ _ _ =>
      h.readSide ⟨rfl, rfl, rfl, rfl, fun _ ho _ _ => ho, fun hr => hr⟩) trivial
  | setBits id op bits taken => exact h.setBits id op bits taken
  | dataIn res taken =>
    refine hgood ?_ trivial
    rw [step]
    split_ifs
    · have hread := readSide_dataInLoop res p
      refine (h.readSide hread).ending_eio ?_
      rw [hread.vsp]
      exact h.held.single.dataIn res taken
    · exact h
  | dataOut res taken => exact hgood (h.dataOut res taken) trivial
  | dvRelease id taken =>
    rw [step, request]
    cases hfind : p.vsp.findVs id with
    | none => exact ⟨h.held, fun _ _ _ => by simp [hfind], fun _ => h.intact⟩
    | some vs =>
      dsimp only
      by_cases hc : p.vsp.wChanIn = true ∧ p.vsp.isTerminal = false
      swap
      · rw [if_neg hc]
        exact ⟨h.held, fun _ hw ht => absurd ⟨hw, ht⟩ hc, fun _ => h.intact⟩
      obtain ⟨hs, rfl⟩ := Vsp.find_eq hfind h.held.single.one
      have hstep : p.vsp.step (.dvRelease vs.id taken) = p.vsp.dvRelease vs taken := by
        rw [Vsp.step, Vsp.request, hfind]
        exact if_pos hc
      obtain ⟨hl, hcnt⟩ := h.held.single.release hs taken
      rw [← hstep] at hl hcnt
      have hkeeps : p.Keeps (.dvRelease vs.id taken) ↔ p.Untouched vs := by simp [Keeps, hc.1, hc.2, hfind]
      rw [if_pos hc, hkeeps]
      exact h.ending_eintr hs hl hcnt
  | chanFails taken => exact hgood (h.ending_eio (h.held.single.chanFails taken)) trivial
  | destroy taken =>
    rw [step]
    by_cases hc : p.vsp.state = .closed
    · have hsame : p.vsp.step (.destroy taken) = p.vsp := if_pos hc
      rw [ending_same hsame]
      exact ⟨h.held, fun _ hne => absurd hc hne, fun _ => h.intact⟩
    · obtain ⟨hl, hcnt⟩ := h.held.single.destroy taken hc
      rcases h.held.single.one with hs | ⟨vs, hs⟩
      · have hw : (p.vspStep (.destroy taken)).Whole := .of_nil hl hcnt (vspStep_interrupted h.intact.interrupted)
        rw [ending_nil hs]
        refine ⟨hw.held, fun _ _ => ?_, fun _ => hw.intact⟩
        rw [hs]
        intro vs hvs
        cases hvs
      · have hkeeps : p.Keeps (.destroy taken) ↔ p.Untouched vs := by simp [Keeps, hc, hs]
        rw [hkeeps]
        exact h.ending_eintr hs hl hcnt

theorem Whole.created {ch : Channel} {pttRts pttDtr : Bool} (hc : create ch pttRts pttDtr = some p) : p.Whole := by
  obtain ⟨vsp, hvsp, rfl⟩ := Option.map_eq_some_iff.1 hc
  obtain ⟨hs, hcnt⟩ := Vsp.created hvsp
  exact .of_nil hs hcnt nofun

/-- In all states of a run the streams of the open session are whole and no request was interrupted that had taken
bytes, if and only if every step meets its condition. -/
theorem vsp_streams_intact {ch : Channel} {pttRts pttDtr : Bool} {port : VspPort} (hc : create ch pttRts pttDtr = some port)
    (evs : List PortEv) :
    (∀ as, as <+: evs → (Run.run step port as).Intact) ↔ Run.StepsOk step Keeps port evs := by
  have hwhole := Whole.created hc
  exact Run.forall_prefix_iff (I := Held) (P := Intact) (fun p e hI hP => Whole.step_iff ⟨hI, hP⟩ e) hwhole.held hwhole.intact evs

/-- A port without PTT. -/
def plain : VspPort := ⟨Vsp.plainPort, 1, 0, false, .empty, none, 0, false, [], []⟩

theorem vsp_streams_intact_plain :
    (Run.run step plain [.dvOpen true, .dataIn [.data [1, 2, 3], .again] fun _ => true, .dvRead 0 2 false,
      .dvWrite 0 [4] false, .dataOut (fun _ => .wrote 1) fun _ => true]).Intact :=
  (@vsp_streams_intact .r1 false false plain rfl [.dvOpen true, .dataIn [.data [1, 2, 3], .again] fun _ => true,
    .dvRead 0 2 false, .dvWrite 0 [4] false, .dataOut (fun _ => .wrote 1) fun _ => true]).2
    ⟨trivial, trivial, trivial, trivial, trivial, trivial⟩ _ (List.prefix_refl _)

/-- A read for five bytes that has three is interrupted: they are lost. -/
theorem vsp_read_lost :
    ¬ ∀ (ch : Channel) (pttRts pttDtr : Bool) (port : VspPort), create ch pttRts pttDtr = some port →
      ∀ evs, (Run.run step port evs).Intact := by
  intro h
  have hint := h .r1 false false plain rfl
    [.dvOpen true, .tcSets 0 5 0, .dataIn [.data [1, 2, 3], .again] fun _ => true, .dvRead 0 10 false, .interrupt 0]
  have hmem : PortObs.readErr .eintr [1, 2, 3] ∈ (Run.run step plain
      [.dvOpen true, .tcSets 0 5 0, .dataIn [.data [1, 2, 3], .again] fun _ => true, .dvRead 0 10 false, .interrupt 0]).log := by
    decide +kernel
  exact absurd (hint.interrupted _ hmem [1, 2, 3] (.inl rfl)) (by decide)

end VspPort

end Mhuxd
