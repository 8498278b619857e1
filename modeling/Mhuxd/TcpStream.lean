import Mhuxd.ConTcp

/-!
# The streams of a TCP connector

The accounts of a session (`Account`): what its client sent is what the router got, what is in the buffer
and what is not read yet; what was passed to the client is what it got and what is in the buffer, up to
reported overflows. A session that ends drops what is still on its way to the router, and a full buffer
ends it: `PassesOn` says that neither happens.
-/

namespace Mhuxd

/-! ### The log of a session -/

namespace TcpObs

def id : TcpObs → Option Nat
  | .sent id _ | .closed id | .error id | .toRouter id _ | .passed id _ _ | .toClient id _ | .ended id _ => some id
  | .release _ => none

/-- What the client `i` sends. -/
def sentOf (i : Nat) : TcpObs → List UInt8
  | .sent id p => if id = i then p else []
  | _ => []

def routedOf (i : Nat) : TcpObs → List UInt8
  | .toRouter id p => if id = i then p else []
  | _ => []

def gotOf (i : Nat) : TcpObs → List UInt8
  | .toClient id p => if id = i then p else []
  | _ => []

/-- What is passed to client `i`, with whether all fits. -/
def passedOf (i : Nat) : TcpObs → List (List UInt8 × Bool)
  | .passed id p fits => if id = i then [(p, fits)] else []
  | _ => []

end TcpObs

/-- The bytes that client `i` sent. -/
def sentBy (i : Nat) (log : List TcpObs) : List UInt8 := log.flatMap (TcpObs.sentOf i)

/-- Those of them that reached the router. -/
def routed (i : Nat) (log : List TcpObs) : List UInt8 := log.flatMap (TcpObs.routedOf i)

/-- The bytes that reached client `i`. -/
def got (i : Nat) (log : List TcpObs) : List UInt8 := log.flatMap (TcpObs.gotOf i)

/-- What the router passed to client `i`, by reads, with whether it fit the buffer. -/
def passed (i : Nat) (log : List TcpObs) : List (List UInt8 × Bool) := log.flatMap (TcpObs.passedOf i)

/-- `bs` are the bytes of all reads, but for an end of each of which an overflow was reported. -/
def Took (reads : List (List UInt8 × Bool)) (bs : List UInt8) : Prop :=
  ∃ takes : List (List UInt8), List.Forall₂ (fun r p => p <+: r.1 ∧ (r.2 = true → p = r.1)) reads takes ∧
    takes.flatten = bs

theorem Took.snoc {reads : List (List UInt8 × Bool)} {bs p q : List UInt8} (h : Took reads bs) (fits : Bool)
    (hp : q <+: p) (hfits : fits = true → q = p) : Took (reads ++ [(p, fits)]) (bs ++ q) := by
  obtain ⟨takes, hall, rfl⟩ := h
  refine ⟨takes ++ [q], List.rel_append hall ?_, by simp⟩
  exact .cons ⟨hp, hfits⟩ .nil

section Append
variable {i : Nat} {log l : List TcpObs}

@[simp] theorem sentBy_nil : sentBy i [] = [] := rfl
@[simp] theorem routed_nil : routed i [] = [] := rfl
@[simp] theorem got_nil : got i [] = [] := rfl
@[simp] theorem passed_nil : passed i [] = [] := rfl
@[simp] theorem sentBy_cons (o : TcpObs) : sentBy i (o :: log) = o.sentOf i ++ sentBy i log := List.flatMap_cons
@[simp] theorem routed_cons (o : TcpObs) : routed i (o :: log) = o.routedOf i ++ routed i log := List.flatMap_cons
@[simp] theorem got_cons (o : TcpObs) : got i (o :: log) = o.gotOf i ++ got i log := List.flatMap_cons
@[simp] theorem passed_cons (o : TcpObs) : passed i (o :: log) = o.passedOf i ++ passed i log := List.flatMap_cons

@[simp] theorem sentBy_append : sentBy i (log ++ l) = sentBy i log ++ sentBy i l := List.flatMap_append
@[simp] theorem routed_append : routed i (log ++ l) = routed i log ++ routed i l := List.flatMap_append
@[simp] theorem got_append : got i (log ++ l) = got i log ++ got i l := List.flatMap_append
@[simp] theorem passed_append : passed i (log ++ l) = passed i log ++ passed i l := List.flatMap_append

/-- Nothing in the log is about session `i`. -/
def Silent (i : Nat) (log : List TcpObs) : Prop := ∀ o ∈ log, o.id ≠ some i

theorem Silent.flatMap {α : Type} {f : TcpObs → List α} (h : Silent i log) (hf : ∀ o, o.id ≠ some i → f o = []) :
    log.flatMap f = [] := by
  rw [List.flatMap_eq_nil_iff]
  exact fun o ho => hf o (h o ho)

theorem Silent.sentBy (h : Silent i log) : sentBy i log = [] := by
  refine h.flatMap fun o ho => ?_
  cases o <;> simp_all [TcpObs.id, TcpObs.sentOf]

theorem Silent.routed (h : Silent i log) : routed i log = [] := by
  refine h.flatMap fun o ho => ?_
  cases o <;> simp_all [TcpObs.id, TcpObs.routedOf]

theorem Silent.got (h : Silent i log) : got i log = [] := by
  refine h.flatMap fun o ho => ?_
  cases o <;> simp_all [TcpObs.id, TcpObs.gotOf]

theorem Silent.passed (h : Silent i log) : passed i log = [] := by
  refine h.flatMap fun o ho => ?_
  cases o <;> simp_all [TcpObs.id, TcpObs.passedOf]

theorem Silent.ended (h : Silent i log) {st : IoState} : .ended i st ∉ log := fun hm => h _ hm rfl

end Append

/-! ### Accounts -/

/-- Session `i`, live or not: the log says how it ended and what it got. -/
structure Past (i : Nat) (log : List TcpObs) : Prop where
  /-- All its client sent reached the router, unless the connector was destroyed. -/
  up : ∀ st, .ended i st ∈ log → st ≠ .closed → routed i log = sentBy i log
  routed_le : routed i log <+: sentBy i log
  down : ∃ bs, Took (passed i log) bs ∧ got i log <+: bs
  cause : ∀ st, .ended i st ∈ log → .closed i ∈ log ∨ .error i ∈ log ∨ st = .closed

/-- A session that lives. -/
structure CtcpSession.Account (cs : CtcpSession) (log : List TcpObs) : Prop where
  up : sentBy cs.id log = routed cs.id log ++ cs.bufIn.unread ++ cs.sock.pending
  down : Took (passed cs.id log) (got cs.id log ++ cs.bufOut.unread)
  live : ∀ st, .ended cs.id st ∉ log
  closed : cs.sock.closed = true → .closed cs.id ∈ log
  reading : cs.wIn = true
  writing : cs.wOut = true → cs.bufOut.unread ≠ []

theorem CtcpSession.Account.past {cs : CtcpSession} {log : List TcpObs} (h : cs.Account log) : Past cs.id log where
  up st hst := absurd hst (h.live st)
  routed_le := by
    rw [h.up, List.append_assoc]
    exact List.prefix_append ..
  down := ⟨_, h.down, List.prefix_append ..⟩
  cause st hst := absurd hst (h.live st)

theorem Past.append {i : Nat} {log l : List TcpObs} (h : Past i log) (hs : Silent i l) : Past i (log ++ l) := by
  have hmem : ∀ st, .ended i st ∈ log ++ l → .ended i st ∈ log := fun st hst =>
    (List.mem_append.1 hst).resolve_right hs.ended
  refine ⟨fun st hst hne => ?_, ?_, ?_, fun st hst => ?_⟩
  · simpa [hs.routed, hs.sentBy] using h.up st (hmem st hst) hne
  · simpa [hs.routed, hs.sentBy] using h.routed_le
  · simpa [hs.passed, hs.got] using h.down
  · rcases h.cause st (hmem st hst) with hc | hc | hc
    · exact .inl (List.mem_append_left _ hc)
    · exact .inr (.inl (List.mem_append_left _ hc))
    · exact .inr (.inr hc)

/-- All the client sent has been passed on. -/
def CtcpSession.Flushed (cs : CtcpSession) : Prop := cs.bufIn.unread = [] ∧ cs.sock.pending = []

namespace Ctcp

/-- The books of a connector. -/
structure Books (ctcp : Ctcp) : Prop where
  one : ctcp.sessionList = [] ∨ ∃ cs, ctcp.sessionList = [cs]
  cnt : ctcp.openCnt = ctcp.sessionList.length
  ids : ∀ cs ∈ ctcp.sessionList, cs.id < ctcp.accepts
  fresh : ∀ i, ctcp.accepts ≤ i → Silent i ctcp.log
  live : ∀ cs ∈ ctcp.sessionList, cs.Account ctcp.log
  past : ∀ i, Past i ctcp.log
  /-- What waits for the router or the client has its watcher started. -/
  dataOut : ctcp.state = .ioOpen → ∀ cs ∈ ctcp.sessionList, cs.bufIn.unread ≠ [] → ctcp.wDataOut = true
  clientOut : ctcp.state = .ioOpen → ∀ cs ∈ ctcp.sessionList, cs.bufOut.unread ≠ [] → cs.wOut = true
  dataIn : ctcp.state = .ioOpen → ctcp.wDataIn = true
  lsnr : ctcp.wLsnr = true → ctcp.state = .ioOpen

variable {a b : Ctcp} {cs cs' : CtcpSession} {l : List TcpObs}

theorem Books.create (isPtt : Bool) : (ctcpCreate isPtt).Books := by
  refine ⟨.inl rfl, rfl, ?_, ?_, ?_, fun i => ⟨?_, ?_, ⟨[], ⟨[], .nil, rfl⟩, ?_⟩, ?_⟩, ?_, ?_, fun _ => rfl,
    fun _ => rfl⟩
  all_goals simp [ctcpCreate, Silent, routed, sentBy, got]

/-- Nothing but the connector's own watchers and state changes. -/
theorem Books.same (h : a.Books) (hl : b.sessionList = a.sessionList) (hc : b.openCnt = a.openCnt)
    (ha : b.accepts = a.accepts) (hlog : b.log = a.log) (hst : b.state = .ioOpen → a.state = .ioOpen)
    (hin : b.state = .ioOpen → b.wDataIn = a.wDataIn) (hls : b.wLsnr = true → b.state = .ioOpen)
    (hout : b.state = .ioOpen → ∀ cs ∈ a.sessionList, cs.bufIn.unread ≠ [] → b.wDataOut = true) : b.Books where
  one := by rw [hl]; exact h.one
  cnt := by rw [hl, hc]; exact h.cnt
  ids := by rw [hl, ha]; exact h.ids
  fresh := by rw [ha, hlog]; exact h.fresh
  live := by rw [hl, hlog]; exact h.live
  past := by rw [hlog]; exact h.past
  dataOut ho := by rw [hl]; exact hout ho
  clientOut ho := by rw [hl]; exact h.clientOut (hst ho)
  dataIn ho := (hin ho).trans (h.dataIn (hst ho))
  lsnr := hls

/-- The only session changes, and the log is about it. -/
theorem Books.update (h : a.Books) (hs : a.sessionList = [cs]) (hb : b.sessionList = [cs']) (hid : cs'.id = cs.id)
    (hc : b.openCnt = a.openCnt) (ha : b.accepts = a.accepts) (hlog : b.log = a.log ++ l)
    (hnew : ∀ i, i ≠ cs.id → Silent i l) (hacc : cs'.Account (a.log ++ l))
    (hst : b.state = .ioOpen → a.state = .ioOpen) (hin : b.state = .ioOpen → b.wDataIn = a.wDataIn)
    (hls : b.wLsnr = true → b.state = .ioOpen)
    (hdat : b.state = .ioOpen → cs'.bufIn.unread ≠ [] → b.wDataOut = true)
    (hcli : b.state = .ioOpen → cs'.bufOut.unread ≠ [] → cs'.wOut = true) : b.Books where
  one := .inr ⟨cs', hb⟩
  cnt := by rw [hb, hc, h.cnt, hs]; rfl
  ids := by
    have := h.ids cs (by simp [hs])
    simp [hb, hid, ha, this]
  fresh i hi := by
    have hlt := h.ids cs (by simp [hs])
    rw [hlog]
    rw [ha] at hi
    intro o ho
    rcases List.mem_append.1 ho with ho | ho
    · exact h.fresh i hi o ho
    · exact hnew i (by omega) o ho
  live := by simpa [hb, hlog] using hacc
  past i := by
    rw [hlog]
    rcases eq_or_ne i cs.id with rfl | hne
    · rw [← hid]
      exact hacc.past
    · exact (h.past i).append (hnew i hne)
  dataOut ho := by simpa [hb] using hdat ho
  clientOut ho := by simpa [hb] using hcli ho
  dataIn ho := (hin ho).trans (h.dataIn (hst ho))
  lsnr := hls

/-- The only session ends. -/
theorem Books.remove (h : a.Books) (hs : a.sessionList = [cs]) (hb : b.sessionList = []) (hc : b.openCnt = 0)
    (ha : b.accepts = a.accepts) {st : IoState} (hlog : b.log = a.log ++ (l ++ [.ended cs.id st]))
    (hnew : ∀ o ∈ l, o = .error cs.id ∨ ∃ t, o = .release t)
    (hcause : .closed cs.id ∈ a.log ∨ .error cs.id ∈ l ∨ st = .closed)
    (hdone : st ≠ .closed → cs.bufIn.unread = [] ∧ cs.sock.pending = [])
    (hst : b.state = .ioOpen → a.state = .ioOpen) (hin : b.state = .ioOpen → b.wDataIn = a.wDataIn)
    (hls : b.wLsnr = true → b.state = .ioOpen) : b.Books := by
  have hacc := h.live cs (by simp [hs])
  have hsilent : ∀ i, i ≠ cs.id → Silent i (l ++ [.ended cs.id st]) := by
    intro i hne o ho
    rcases List.mem_append.1 ho with ho | ho
    · rcases hnew o ho with rfl | ⟨t, rfl⟩
      · simpa [TcpObs.id] using hne.symm
      · simp [TcpObs.id]
    · rw [List.mem_singleton.1 ho]
      simpa [TcpObs.id] using hne.symm
  have hnil : ∀ {α : Type} (f : TcpObs → List α), (∀ t, f (.release t) = []) → f (.error cs.id) = [] →
      f (.ended cs.id st) = [] → (l ++ [TcpObs.ended cs.id st]).flatMap f = [] := by
    intro α f hr he hen
    rw [List.flatMap_eq_nil_iff]
    intro o ho
    rcases List.mem_append.1 ho with ho | ho
    · rcases hnew o ho with rfl | ⟨t, rfl⟩
      · exact he
      · exact hr t
    · rw [List.mem_singleton.1 ho]
      exact hen
  have hsent : sentBy cs.id (l ++ [.ended cs.id st]) = [] := hnil _ (fun _ => rfl) rfl rfl
  have hrouted : routed cs.id (l ++ [.ended cs.id st]) = [] := hnil _ (fun _ => rfl) rfl rfl
  have hgot : got cs.id (l ++ [.ended cs.id st]) = [] := hnil _ (fun _ => rfl) rfl rfl
  have hpassed : passed cs.id (l ++ [.ended cs.id st]) = [] := hnil _ (fun _ => rfl) rfl rfl
  have hend : ∀ st', .ended cs.id st' ∈ a.log ++ (l ++ [.ended cs.id st]) → st' = st := by
    intro st' hm
    rcases List.mem_append.1 hm with hm | hm
    · exact absurd hm (hacc.live st')
    · rcases List.mem_append.1 hm with hm | hm
      · rcases hnew _ hm with heq | ⟨t, heq⟩ <;> simp at heq
      · simpa using hm
  refine ⟨.inl hb, by simp [hb, hc], by simp [hb], fun i hi => ?_, by simp [hb], fun i => ?_, ?_, ?_, ?_, hls⟩
  · have hlt := h.ids cs (by simp [hs])
    rw [hlog]
    rw [ha] at hi
    intro o ho
    rcases List.mem_append.1 ho with ho | ho
    · exact h.fresh i hi o ho
    · exact hsilent i (by omega) o ho
  · rw [hlog]
    rcases eq_or_ne i cs.id with rfl | hne
    · refine ⟨fun st' hst' hne => ?_, ?_, ?_, fun st' hst' => ?_⟩
      · rw [hend st' hst'] at hne
        obtain ⟨hu, hp⟩ := hdone hne
        simp [hsent, hrouted, hacc.up, hu, hp]
      · simpa [hsent, hrouted] using hacc.past.routed_le
      · simpa [hgot, hpassed] using hacc.past.down
      · rw [hend st' hst']
        rcases hcause with hc | hc | hc
        · exact .inl (List.mem_append_left _ hc)
        · exact .inr (.inl (by simp [hc]))
        · exact .inr (.inr hc)
    · exact (h.past i).append (hsilent i hne)
  · simp [hb]
  · simp [hb]
  · exact fun ho => (hin ho).trans (h.dataIn (hst ho))

/-! ### Steps -/

/-- A client is not read while its buffer is full, and a session that is about to end has passed on all
its client sent. -/
def PassesOn (ctcp : Ctcp) : TcpEv → Prop
  | .clientIn id n _ => ∀ cs ∈ ctcp.find id, cs.wIn = true → ctcp.isTerminal = false →
      0 < cs.bufIn.avail ∧ (n = none ∨ cs.sock.pending = [] ∧ cs.sock.closed = true → cs.Flushed)
  | .clientOut id .error _ => ∀ cs ∈ ctcp.find id, cs.wOut = true → ctcp.isTerminal = false → cs.Flushed
  | _ => True

theorem ctcpFail_state (a : Ctcp) : a.ctcpFail.state ≠ .ioOpen := by
  show a.state.transition .failed ≠ .ioOpen
  cases a.state <;> decide

theorem Books.fail (h : a.Books) : a.ctcpFail.Books :=
  h.same rfl rfl rfl rfl (fun ho => absurd ho a.ctcpFail_state) (fun ho => absurd ho a.ctcpFail_state)
  (by simp [ctcpFail])
    fun ho => absurd ho a.ctcpFail_state

/-- The session ends with all its client sent passed on, or with the connector. -/
theorem Books.remSession (h : a.Books) (hs : a.sessionList = [cs]) (rel : Bool) {log : List TcpObs}
    (hlog : log = [] ∨ log = [.error cs.id]) (hcause : .closed cs.id ∈ a.log ∨ log = [.error cs.id] ∨
      a.state = .closed)
    (hdone : a.state ≠ .closed → cs.Flushed) : ((a.obs log).remSession cs rel).Books := by
  rw [remSession_eq]
  have hcnt : a.openCnt - 1 = 0 := by rw [h.cnt, hs]; rfl
  refine h.remove (l := log ++ if a.isPttChannel ∧ cs.pttStatus = true then [.release rel] else []) hs ?_ hcnt rfl ?_
    ?_ ?_ hdone id (fun _ => rfl) h.lsnr
  · simp [obs, hs]
  · simp only [obs, List.append_assoc]
    rfl
  · intro o ho
    rcases List.mem_append.1 ho with ho | ho
    · rcases hlog with rfl | rfl
      · simp at ho
      · exact .inl (List.mem_singleton.1 ho)
    · split_ifs at ho
      · exact .inr ⟨rel, List.mem_singleton.1 ho⟩
      · simp at ho
  · rcases hcause with hc | hc | hc
    · exact .inl hc
    · exact .inr (.inl (by simp [hc]))
    · exact .inr (.inr hc)

theorem Books.connect (h : a.Books) : (a.step .connect).Books := by
  rw [step, lsnrCb]
  split_ifs with hw ht ho
  · exact h
  · exact h
  · have hopen := h.lsnr hw
    have hnil : a.sessionList = [] := by simpa [h.cnt] using ho
    have hquiet := h.fresh a.accepts (Nat.le_refl _)
    refine ⟨.inr ⟨_, by rw [hnil]; rfl⟩, by simp [h.cnt], ?_, fun i hi => h.fresh i (Nat.le_of_succ_le hi), ?_,
      h.past, ?_, ?_, h.dataIn,
      h.lsnr⟩
    · simp [hnil]
    · simp only [hnil, List.nil_append, List.mem_singleton, forall_eq]
      refine ⟨by simp [hquiet.sentBy, hquiet.routed], ?_, fun st => hquiet.ended, by simp,
        by simp [watchStart, hopen], by simp⟩
      exact ⟨[], by rw [hquiet.passed]; exact .nil, by simp [hquiet.got]⟩
    · simp [hnil]
    · simp [hnil]
  · exact h

theorem Books.clientSend (h : a.Books) (i : Nat) (p : List UInt8) : (a.step (.clientSend i p)).Books := by
  rw [step]
  rcases hf : a.find i with _ | cs
  · exact h
  obtain ⟨hs, rfl⟩ := find_eq hf h.one
  have hacc := h.live cs (by simp [hs])
  dsimp only
  split_ifs
  · exact h
  refine h.update (l := [.sent cs.id p]) hs (put_one hs rfl) rfl rfl rfl rfl ?_ ?_ id (fun _ => rfl) h.lsnr
    (fun ho => h.dataOut ho cs (by simp [hs])) fun ho => h.clientOut ho cs (by simp [hs])
  · intro i hne o ho
    simpa [List.mem_singleton.1 ho, TcpObs.id] using hne.symm
  · refine ⟨?_, ?_, ?_, ?_, hacc.reading, hacc.writing⟩
    · simp [hacc.up, TcpObs.sentOf, TcpObs.routedOf]
    · simpa [TcpObs.passedOf, TcpObs.gotOf] using hacc.down
    · simpa using hacc.live
    · simpa using hacc.closed

theorem Books.clientClose (h : a.Books) (i : Nat) : (a.step (.clientClose i)).Books := by
  rw [step]
  rcases hf : a.find i with _ | cs
  · exact h
  obtain ⟨hs, rfl⟩ := find_eq hf h.one
  have hacc := h.live cs (by simp [hs])
  refine h.update (l := [.closed cs.id]) hs (put_one hs rfl) rfl rfl rfl rfl ?_ ?_ id (fun _ => rfl) h.lsnr
    (fun ho => h.dataOut ho cs (by simp [hs])) fun ho => h.clientOut ho cs (by simp [hs])
  · intro i hne o ho
    simpa [List.mem_singleton.1 ho, TcpObs.id] using hne.symm
  · refine ⟨?_, ?_, ?_, ?_, hacc.reading, hacc.writing⟩
    · simp [hacc.up, TcpObs.sentOf, TcpObs.routedOf]
    · simpa [TcpObs.passedOf, TcpObs.gotOf] using hacc.down
    · simpa using hacc.live
    · simp

theorem Books.clientIn (h : a.Books) {i : Nat} {n : Option Nat} {rel : Bool} (hok : a.PassesOn (.clientIn i n rel)) :
    (a.step (.clientIn i n rel)).Books := by
  rw [step]
  rcases hf : a.find i with _ | cs
  · exact h
  obtain ⟨hs, rfl⟩ := find_eq hf h.one
  have hacc := h.live cs (by simp [hs])
  dsimp only
  rw [if_pos hacc.reading]
  unfold clientInCb
  split_ifs with ht
  · exact h
  obtain ⟨hroom, hdone⟩ := hok cs hf hacc.reading (by simpa using ht)
  rcases n with _ | n
  · exact h.remSession hs rel (.inr rfl) (.inr (.inl rfl)) fun _ => hdone (.inl rfl)
  dsimp only [ClientSock.read]
  rw [if_neg (by omega)]
  rcases hp : cs.sock.pending.take (min (n + 1) cs.bufIn.avail) with _ | ⟨c, p⟩
  · have hnil : cs.sock.pending = [] := by
      rcases hpe : cs.sock.pending with _ | ⟨c, q⟩
      · rfl
      · rw [hpe, List.take_eq_nil_iff] at hp
        simp at hp
        omega
    dsimp only
    split_ifs with hc
    · have := h.remSession hs rel (.inl rfl) (.inl (hacc.closed hc)) fun _ => hdone (.inr ⟨hnil, hc⟩)
      simpa [obs] using this
    · exact h
  · dsimp only
    obtain ⟨p', hp'⟩ : ∃ p', p' = c :: p := ⟨_, rfl⟩
    rw [← hp'] at hp ⊢
    have hfit : p'.length ≤ cs.bufIn.avail := by
      rw [← hp, List.length_take]
      omega
    have hsplit : p' ++ cs.sock.pending.drop p'.length = cs.sock.pending := by
      rw [← hp, drop_length_take, List.take_append_drop]
    refine h.update (l := []) hs (put_one hs rfl) rfl rfl rfl (List.append_nil _).symm ?_ ?_ id (fun _ =>
      rfl) h.lsnr
      (fun ho _ => ?_) fun ho => h.clientOut ho cs (by simp [hs])
    · intro i hne o ho
      exact absurd ho List.not_mem_nil
    · refine ⟨?_, ?_, ?_, ?_, hacc.reading, hacc.writing⟩
      · simp [hacc.up, Buffer.unread_append_of_le _ hfit, hsplit]
      · simpa using hacc.down
      · simpa using hacc.live
      · simpa using hacc.closed
    · have hopen : a.state = .ioOpen := ho
      show a.watchStart a.wDataOut = true
      simp [watchStart, hopen]

theorem Books.clientOut_step (h : a.Books) {i : Nat} {res : WriteRes} {rel : Bool}
    (hok : a.PassesOn (.clientOut i res rel)) : (a.step (.clientOut i res rel)).Books := by
  rw [step]
  rcases hf : a.find i with _ | cs
  · exact h
  obtain ⟨hs, rfl⟩ := find_eq hf h.one
  have hacc := h.live cs (by simp [hs])
  dsimp only
  split_ifs with hw
  swap
  · exact h
  unfold clientOutCb
  split_ifs with ht
  · exact h
  cases res with
  | again => exact h
  | error => exact h.remSession hs rel (.inr rfl) (.inr (.inl rfl)) fun _ => hok cs hf hw (by simpa using ht)
  | wrote n =>
    dsimp only
    rcases hp : cs.bufOut.unread.take (n + 1) with _ | ⟨c, p⟩
    · -- a watcher that is started has something to write
      exact absurd ((List.take_eq_nil_iff.1 hp).resolve_left (by simp)) (hacc.writing hw)
    · obtain ⟨q, hq⟩ : ∃ q, q = c :: p := ⟨_, rfl⟩
      dsimp only
      rw [← hq] at hp ⊢
      have hunread : (cs.bufOut.consume q.length).unread = cs.bufOut.unread.drop (n + 1) := by
        rw [← hp, Buffer.unread_consume_take]
      have hsplit : q ++ (cs.bufOut.consume q.length).unread = cs.bufOut.unread := by
        rw [hunread, ← hp, List.take_append_drop]
      refine h.update (l := [.toClient cs.id q]) hs (put_one hs rfl) rfl rfl rfl rfl ?_ ?_ id (fun _ => rfl) h.lsnr
        (fun ho => h.dataOut ho cs (by simp [hs])) fun ho hne => ?_
      · intro i hne o ho
        simpa [List.mem_singleton.1 ho, TcpObs.id] using hne.symm
      · refine ⟨?_, ?_, ?_, ?_, hacc.reading, fun hw' => ?_⟩
        · simp [hacc.up, TcpObs.sentOf, TcpObs.routedOf]
        · simpa [TcpObs.passedOf, TcpObs.gotOf, hsplit] using hacc.down
        · simpa using hacc.live
        · simpa using hacc.closed
        · have hsize : (cs.bufOut.consume q.length).size ≠ 0 := by simpa using (Bool.and_eq_true_iff.1 hw').2
          exact Buffer.unread_ne_nil hsize
      · have hsize : (cs.bufOut.consume q.length).size ≠ 0 := Buffer.size_ne_zero hne
        show (cs.wOut && _) = true
        simp [hw, hsize]

theorem Books.dataIn_step (h : a.Books) (res : ReadRes) : (a.step (.dataIn res)).Books := by
  rw [step]
  split_ifs with hw
  swap
  · exact h
  unfold dataInCb
  split_ifs with ht
  · exact h
  cases res with
  | again => exact h
  | error => exact h.fail
  | data data =>
    dsimp only
    rcases hp : data.take 1024 with _ | ⟨c, p⟩
    · exact h.fail
    obtain ⟨q, hq⟩ : ∃ q, q = c :: p := ⟨_, rfl⟩
    dsimp only
    rw [← hq]
    rcases h.one with hs | ⟨cs, hs⟩
    · simp only [hs, dataInLoop, obs, List.append_nil]
      exact h.same (by simp [hs]) rfl rfl rfl id (fun _ => rfl) h.lsnr h.dataOut
    · have hacc := h.live cs (by simp [hs])
      have hne : (cs.bufOut.append q).unread ≠ [] := by
        rw [hq]
        exact Buffer.unread_append_ne_nil _
      rw [hs]
      refine h.update (l := [.passed cs.id q (q.length ≤ cs.bufOut.avail)])
        hs (show _ = [{ cs with bufOut := cs.bufOut.append q, wOut := a.watchStart cs.wOut }] from rfl) rfl rfl rfl rfl
        ?_ ?_ id (fun _ => rfl) h.lsnr (fun ho => h.dataOut ho cs (by simp [hs])) fun ho _ => ?_
      · intro i hne o ho
        simpa [List.mem_singleton.1 ho, TcpObs.id] using hne.symm
      · refine ⟨?_, ?_, ?_, ?_, hacc.reading, fun _ => hne⟩
        · simp [hacc.up, TcpObs.sentOf, TcpObs.routedOf]
        · have := hacc.down.snoc (decide (q.length ≤ cs.bufOut.avail))
            (List.take_prefix cs.bufOut.avail q) fun hfit => List.take_of_length_le (by simpa using hfit)
          simpa [TcpObs.passedOf, TcpObs.gotOf, Buffer.unread_append] using this
        · simpa using hacc.live
        · simpa using hacc.closed
      · have hopen : a.state = .ioOpen := ho
        show a.watchStart cs.wOut = true
        simp [watchStart, hopen]

theorem Books.dataOut_step (h : a.Books) (res : Nat → WriteRes) : (a.step (.dataOut res)).Books := by
  rw [step]
  split_ifs with hw
  swap
  · exact h
  unfold dataOutCb
  split_ifs with ht
  · exact h
  rcases h.one with hs | ⟨cs, hs⟩
  · simp only [hs, dataOutLoop, obs, List.append_nil, Bool.and_false]
    exact h.same (by simp [hs]) rfl rfl rfl id (fun _ => rfl) h.lsnr fun _ cs hcs => by simp [hs] at hcs
  have hacc := h.live cs (by simp [hs])
  rw [hs, dataOutLoop]
  by_cases hu : cs.bufIn.unread = []
  · simp only [hu, if_true, dataOutLoop, obs, List.append_nil, Bool.and_false]
    refine h.same (by simp [hs]) rfl rfl rfl id (fun _ => rfl) h.lsnr fun _ cs' hcs' hne => ?_
    rw [hs, List.mem_singleton] at hcs'
    exact absurd (hcs' ▸ hu) hne
  rw [if_neg hu]
  cases hres : res cs.id with
  | again =>
    simp only [dataOutLoop, obs, List.append_nil, Option.map_some, Bool.and_true]
    exact h.same (by simp [hs]) rfl rfl rfl id (fun _ => rfl) h.lsnr fun _ _ _ _ => hw
  | error =>
    simp only [obs, List.append_nil]
    rw [← hs]
    exact h.fail
  | wrote n =>
    simp only [dataOutLoop, obs, Option.map_some, Bool.false_or]
    refine h.update (l := [.toRouter cs.id (cs.bufIn.unread.take (n + 1))]) hs rfl rfl rfl rfl rfl ?_ ?_ id
      (fun _ => rfl) h.lsnr (fun _ hne => ?_) fun ho => h.clientOut ho cs (by simp [hs])
    · intro i hne o ho
      simpa [List.mem_singleton.1 ho, TcpObs.id] using hne.symm
    · have hsplit := List.take_append_drop (n + 1) cs.bufIn.unread
      rw [← Buffer.unread_consume_take] at hsplit
      refine ⟨?_, ?_, ?_, ?_, hacc.reading, hacc.writing⟩
      · rw [sentBy_append, routed_append, hacc.up]
        simp only [sentBy_cons, routed_cons, TcpObs.sentOf, TcpObs.routedOf, if_true, sentBy_nil, routed_nil,
          List.append_nil,
          List.append_assoc]
        rw [← List.append_assoc (cs.bufIn.unread.take (n + 1)), hsplit]
      · simpa [TcpObs.passedOf, TcpObs.gotOf] using hacc.down
      · simpa using hacc.live
      · simpa using hacc.closed
    · show (a.wDataOut && _) = true
      rw [hw, Bool.true_and]
      exact bne_iff_ne.2 hne

theorem Books.destroy (h : a.Books) (rel : Nat → Bool) : (a.step (.destroy rel)).Books := by
  rw [step]
  split_ifs with hc
  · exact h
  have hclosed : a.state.transition .closed = .closed := by cases a.state <;> rfl
  unfold ctcpDestroy
  rw [hclosed]
  have hb : ({ a with state := .closed, wDataIn := false, wDataOut := false, wLsnr := false } : Ctcp).Books :=
    h.same rfl rfl rfl rfl (by simp) (by simp) (by simp) (by simp)
  rcases h.one with hs | ⟨cs, hs⟩
  · simp only [hs, remSessions]
    simpa only [hs] using hb
  · have := hb.remSession (show _ = [cs] from hs) (rel cs.id) (.inl rfl) (.inr (.inr rfl)) (by simp)
    simp only [hs, remSessions]
    simpa [obs, hs] using this

theorem Books.after (h : a.Books) {e : TcpEv} (hok : a.PassesOn e) : (a.step e).Books := by
  cases e with
  | connect => exact h.connect
  | clientSend i p => exact h.clientSend i p
  | clientClose i => exact h.clientClose i
  | clientIn i n rel => exact h.clientIn hok
  | clientOut i res rel => exact h.clientOut_step hok
  | dataIn res => exact h.dataIn_step res
  | dataOut res => exact h.dataOut_step res
  | destroy rel => exact h.destroy rel

/-! ### Nothing waits for ever -/

end Ctcp

/-- The client is read, or its bytes are written to the router. -/
def TcpEv.carries : TcpEv → Bool
  | .clientIn .. | .dataOut _ => true
  | _ => false

namespace Ctcp

variable {a b : Ctcp} {cs cs' : CtcpSession}

/-- The router takes all there is in the buffer. -/
theorem dataOut_all (h : a.Books) (ho : a.state = .ioOpen) (hs : a.sessionList = [cs]) :
    ∃ cs', (a.step (.dataOut fun _ => .wrote BUFFER_CAPACITY)).sessionList = [cs'] ∧ cs'.bufIn.unread = [] ∧
      cs'.sock = cs.sock ∧ (a.step (.dataOut fun _ => .wrote BUFFER_CAPACITY)).state = .ioOpen ∧
      ∀ i, sentBy i (a.step (.dataOut fun _ => .wrote BUFFER_CAPACITY)).log = sentBy i a.log := by
  have hterm : a.isTerminal = false := by simp [isTerminal, ho]
  by_cases hw : a.wDataOut = true
  · rw [step, if_pos hw]
    unfold dataOutCb
    rw [if_neg (by simp [hterm]), hs, dataOutLoop]
    by_cases hu : cs.bufIn.unread = []
    · rw [if_pos hu]
      exact ⟨cs, rfl, hu, rfl, ho, fun i => by simp [dataOutLoop, obs]⟩
    · rw [if_neg hu]
      refine ⟨_, rfl, ?_, rfl, ho, fun i => by simp [dataOutLoop, obs, TcpObs.sentOf]⟩
      rw [Buffer.unread_consume_take, List.drop_eq_nil_iff]
      have := cs.bufIn.size_le
      simp only [Buffer.unread, List.length_drop]
      omega
  · rw [step, if_neg hw]
    refine ⟨cs, hs, ?_, rfl, ho, fun _ => rfl⟩
    by_contra hne
    exact hw (h.dataOut ho cs (by simp [hs]) hne)

/-- With an empty buffer some of what the client sent is read. -/
theorem clientIn_some (h : a.Books) (ho : a.state = .ioOpen) (hs : a.sessionList = [cs])
    (hu : cs.bufIn.unread = [])
    (hp : cs.sock.pending ≠ []) : a.PassesOn (.clientIn cs.id (some 0) false) ∧
      (∃ cs', (a.step (.clientIn cs.id (some 0) false)).sessionList = [cs'] ∧
        cs'.sock.pending.length < cs.sock.pending.length) ∧
      (a.step (.clientIn cs.id (some 0) false)).state = .ioOpen ∧
      ∀ i, sentBy i (a.step (.clientIn cs.id (some 0) false)).log = sentBy i a.log := by
  have hterm : a.isTerminal = false := by simp [isTerminal, ho]
  have hfind : a.find cs.id = some cs := by simp [find, hs]
  have hroom : cs.bufIn.avail = BUFFER_CAPACITY := by rw [Buffer.eq_empty_of_unread hu]; rfl
  have hpos : 0 < cs.bufIn.avail := by rw [hroom]; decide
  refine ⟨fun cs' hcs' _ _ => ?_, ?_⟩
  · obtain rfl : cs = cs' := by simpa [hfind] using hcs'
    exact ⟨hpos, by simp [hp]⟩
  obtain ⟨c, q, hq⟩ := List.exists_cons_of_ne_nil hp
  have hread : cs.sock.read cs.bufIn.avail 0 = (.data [c], { cs.sock with pending := q }) := by
    have hmin : min (0 + 1) cs.bufIn.avail = 1 := by omega
    rw [ClientSock.read, if_neg (by omega), hmin, hq]
    rfl
  have hreading := (h.live cs (by simp [hs])).reading
  have hstep : a.step (.clientIn cs.id (some 0) false) =
      { a.put { cs with sock := { cs.sock with pending := q }, bufIn := cs.bufIn.append [c] } with
        wDataOut := a.watchStart a.wDataOut } := by
    simp only [step, hfind, hreading, if_true, clientInCb, hterm, hread]
    rfl
  rw [hstep]
  exact ⟨⟨_, put_one hs rfl, by simp [hq]⟩, ho, fun _ => rfl⟩

/-- All that was sent reaches the router if it takes it. -/
theorem Books.drains (h : a.Books) (ho : a.state = .ioOpen) : ∃ evs : List TcpEv, (∀ e ∈ evs, e.carries = true) ∧
    Run.StepsOk step PassesOn a evs ∧ (∀ i, sentBy i (Run.run step a evs).log = sentBy i a.log) ∧
      ∀ cs ∈ (Run.run step a evs).sessionList, routed cs.id (Run.run step a evs).log =
      sentBy cs.id (Run.run step a evs).log := by
  rcases h.one with hs | ⟨cs, hs⟩
  · exact ⟨[], by simp, trivial, fun _ => rfl, by simp [hs]⟩
  generalize hk : cs.sock.pending.length = k
  induction k using Nat.strongRecOn generalizing a cs with
  | ind k ih =>
    obtain ⟨cs₁, hs₁, hu₁, hsock, ho₁, hsent₁⟩ := dataOut_all h ho hs
    have h₁ := h.dataOut_step fun _ => .wrote BUFFER_CAPACITY
    by_cases hp : cs₁.sock.pending = []
    · refine ⟨[.dataOut fun _ => .wrote BUFFER_CAPACITY], by simp [TcpEv.carries], ⟨trivial, trivial⟩, hsent₁,
        fun cs' hcs' => ?_⟩
      rw [Run.run_cons, Run.run_nil, hs₁, List.mem_singleton] at hcs'
      have hup := (h₁.live cs₁ (by simp [hs₁])).up
      rw [hcs']
      simpa [hu₁, hp] using hup.symm
    · obtain ⟨hok, ⟨cs₂, hs₂, hlt⟩, ho₂, hsent₂⟩ := clientIn_some h₁ ho₁ hs₁ hu₁ hp
      rw [hsock, hk] at hlt
      obtain ⟨evs, hcar, hsteps, hsent, hdone⟩ := ih _ hlt (h₁.clientIn hok) ho₂ cs₂ hs₂ rfl
      refine ⟨.dataOut (fun _ => .wrote BUFFER_CAPACITY) :: .clientIn cs₁.id (some 0) false :: evs, ?_,
        ⟨trivial, hok, hsteps⟩, fun i => (hsent i).trans ((hsent₂ i).trans (hsent₁ i)), hdone⟩
      rintro e (_ | ⟨_, _ | ⟨_, he⟩⟩)
      · rfl
      · rfl
      · exact hcar e he

/-! ### Runs -/

/-- Both streams of every session are intact. -/
structure Intact (ctcp : Ctcp) : Prop where
  /-- What the router has not got of what a client sent is on its way. -/
  live : ∀ cs ∈ ctcp.sessionList, sentBy cs.id ctcp.log = routed cs.id ctcp.log ++ cs.bufIn.unread ++
  cs.sock.pending
  routed_le : ∀ i, routed i ctcp.log <+: sentBy i ctcp.log
  /-- After the session the router has got all, unless the connector was destroyed. -/
  ended : ∀ i st, .ended i st ∈ ctcp.log → st ≠ .closed → routed i ctcp.log = sentBy i ctcp.log
  arrives : ctcp.state = .ioOpen → ∃ evs : List TcpEv, (∀ e ∈ evs, e.carries = true) ∧
    (∀ i, sentBy i (Run.run step ctcp evs).log = sentBy i ctcp.log) ∧
    ∀ cs ∈ (Run.run step ctcp evs).sessionList,
      routed cs.id (Run.run step ctcp evs).log = sentBy cs.id (Run.run step ctcp evs).log
  /-- What the client has not got of what was passed to it is in the buffer, up to reported overflows. -/
  down : ∀ cs ∈ ctcp.sessionList, Took (passed cs.id ctcp.log) (got cs.id ctcp.log ++ cs.bufOut.unread) ∧
    (ctcp.state = .ioOpen → cs.bufOut.unread ≠ [] → cs.wOut = true)
  got_le : ∀ i, ∃ bs, Took (passed i ctcp.log) bs ∧ got i ctcp.log <+: bs
  /-- The client closed, its socket had an error or the connector was destroyed. -/
  cause : ∀ i st, .ended i st ∈ ctcp.log → .closed i ∈ ctcp.log ∨ .error i ∈ ctcp.log ∨ st = .closed

theorem Books.intact (h : a.Books) : a.Intact where
  live cs hcs := (h.live cs hcs).up
  routed_le i := (h.past i).routed_le
  ended i := (h.past i).up
  arrives ho := by
    obtain ⟨evs, hcar, -, hsent, hdone⟩ := h.drains ho
    exact ⟨evs, hcar, hsent, hdone⟩
  down cs hcs := ⟨(h.live cs hcs).down, fun ho => h.clientOut ho cs hcs⟩
  got_le i := (h.past i).down
  cause i := (h.past i).cause

theorem streams_intact (isPtt : Bool) (evs : List TcpEv) (hok : Run.StepsOk step PassesOn (ctcpCreate isPtt) evs) :
    (runs isPtt evs).Intact := by
  have hbooks : (runs isPtt evs).Books := Run.run_inv_of_ok (fun _ _ h hok => h.after hok) (.create isPtt) hok
  exact hbooks.intact

instance (cs : CtcpSession) : Decidable cs.Flushed := by unfold CtcpSession.Flushed; infer_instance

instance (ctcp : Ctcp) (e : TcpEv) : Decidable (ctcp.PassesOn e) := by
  unfold PassesOn
  split <;> infer_instance

/-- A client sends and closes once its bytes are written. -/
def politeRun : List TcpEv :=
  [.connect, .clientSend 0 [0x46, 0x41, 0x3b], .clientIn 0 (some 2) false, .dataIn (.data [0x46]),
    .dataOut fun _ => .wrote 0, .clientClose 0, .dataOut fun _ => .wrote 9, .clientOut 0 (.wrote 0) false,
    .clientIn 0 (some 2) false]

theorem streams_intact_polite : (runs false politeRun).log.length = 7 ∧ (runs false politeRun).Intact :=
  ⟨by decide, streams_intact false politeRun (by decide)⟩

/-- A client sends more than its buffer holds while the router takes nothing: the read of no bytes is taken
for the end of the connection. -/
def floodRun : List TcpEv :=
  [.connect, .clientSend 0 (List.replicate 5000 0x46), .clientIn 0 (some 4999) false,
    .clientIn 0 (some 4999) false]

theorem streams_cut_off : ¬ ∀ (isPtt : Bool) (evs : List TcpEv), (runs isPtt evs).Intact := by
  intro h
  have hcause := (h false floodRun).cause 0 .ioOpen (by decide +kernel)
  exact absurd hcause (by decide +kernel)

end Ctcp

end Mhuxd
