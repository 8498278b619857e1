import Mhuxd.PttRelease

/-!
# Writes held by a virtual serial port

A write request that doesn't fit is held, and `data_out_cb` answers it when the router has taken enough of
what the buffer holds. It runs only for a buffer with something in it, so a request held with an empty buffer,
or without the watcher, is never answered.
-/

namespace Mhuxd

namespace Vsp

variable {a b : Vsp} {vs vs' : VspSession}

/-! ### The session of a port -/

/-- One application at a time, and what is left of a write that is held is not nothing. -/
structure Single (a : Vsp) : Prop where
  one : a.sessionList = [] ∨ ∃ vs, a.sessionList = [vs]
  cnt : a.openCnt = a.sessionList.length
  held : ∀ vs ∈ a.sessionList, vs.pendingIn ≠ some []

/-- Every write that is held has bytes ahead of it in the buffer, and the watcher to send them. -/
def Served (a : Vsp) : Prop :=
  ∀ vs ∈ a.sessionList, vs.pendingIn.isSome → vs.bufIn.unread ≠ [] ∧ a.wDataOut = true

theorem Single.of_nil (hs : a.sessionList = []) (hc : a.openCnt = 0) : a.Single where
  one := .inl hs
  cnt := by rw [hs, hc]; rfl
  held := by rw [hs]; exact nofun

theorem Single.of_one (hs : a.sessionList = [vs]) (hc : a.openCnt = 1) (hheld : vs.pendingIn ≠ some []) :
    a.Single where
  one := .inr ⟨vs, hs⟩
  cnt := by rw [hs, hc]; rfl
  held := by simpa [hs] using hheld

theorem served_of_nil (hs : a.sessionList = []) : a.Served := by
  rw [Served, hs]
  exact nofun

theorem served_one (hs : a.sessionList = [vs]) :
    a.Served ↔ (vs.pendingIn.isSome → vs.bufIn.unread ≠ [] ∧ a.wDataOut = true) := by simp [Served, hs]

theorem Single.cnt_one (h : a.Single) (hs : a.sessionList = [vs]) : a.openCnt = 1 := by
  rw [h.cnt, hs]
  rfl

/-- The session changes. -/
theorem Single.update (h : a.Single) (hs : a.sessionList = [vs]) (hb : b.sessionList = [vs'])
    (hc : b.openCnt = a.openCnt)
    (hheld : vs'.pendingIn ≠ some []) : b.Single := .of_one hb (hc.trans (h.cnt_one hs)) hheld

/-! ### The end of a session -/

theorem endSession_list (hs : a.sessionList = [vs]) (taken : Bool) : (a.endSession vs taken).sessionList = [] ∧
    (a.endSession vs taken).openCnt = a.openCnt - 1 := by
  unfold endSession
  rw [writePtt_eq]
  split_ifs
  · exact ⟨by simp [obs, hs], rfl⟩
  · exact ⟨by simp [obs, hs], rfl⟩
  · exact ⟨by simp [obs, hs], rfl⟩

theorem Single.endSessions (h : a.Single) (taken : Nat → Bool) : (a.endSessions taken).sessionList = [] ∧
    (a.endSessions taken).openCnt = 0 := by
  unfold Vsp.endSessions
  rcases h.one with hs | ⟨vs, hs⟩
  · rw [hs]
    exact ⟨hs, by rw [endLoop, h.cnt, hs]; rfl⟩
  · rw [hs]
    obtain ⟨hl, hc⟩ := endSession_list hs (taken vs.id)
    exact ⟨hl, by rw [endLoop, endLoop, hc, h.cnt_one hs]⟩

theorem Single.fail (h : a.Single) (ht : a.isTerminal = false) (taken : Nat → Bool) :
    (a.fail taken).sessionList = [] ∧
    (a.fail taken).openCnt = 0 := by
  have hstopped : ({ a with state := a.state.transition .failed, wChanIn := false, wDataIn := false, wDataOut := false } :
      Vsp).Single := ⟨h.one, h.cnt, h.held⟩
  rw [Vsp.fail, if_neg (by simp [ht])]
  exact hstopped.endSessions taken

/-! ### Steps -/

/-- What has to hold for a step to leave no write without an answer: it doesn't empty the buffer under a write
that is held. `data_out_cb` does so when the router takes the whole buffer and what is left of the write is a
multiple of 65536, which `buf_append` takes for nothing; and it stops its watcher when the router takes
nothing. -/
def Spares (a : Vsp) : VspEv → Prop
  | .flushIn id => a.wChanIn = true → a.isTerminal = false → ∀ vs ∈ a.findVs id, vs.pendingIn = none
  | .dataOut res _ => a.wDataOut = true → a.isTerminal = false → ∀ vs ∈ a.sessionList, ∀ rest ∈ vs.pendingIn,
      ∀ n, res vs.id = .wrote n → n ≠ 0 ∧ ¬(vs.bufIn.unread.length ≤ n ∧ rest.length % 65536 = 0)
  | _ => True

/-- A request of the only session. -/
theorem Single.request {P : Vsp → Prop} (h : a.Single) {i : Nat} {f : VspSession → Vsp} (ha : P a)
    (hf : ∀ vs, a.sessionList = [vs] → a.findVs i = some vs → a.wChanIn = true → a.isTerminal = false → P (f vs)) :
    P (a.request i f) := by
  unfold Vsp.request
  rcases hfind : a.findVs i with _ | vs
  · exact ha
  obtain ⟨hs, -⟩ := find_eq hfind h.one
  dsimp only
  split_ifs with hc
  · exact hf vs hs hfind hc.1 hc.2
  · exact ha

/-- Both are kept by a request that is no flush. -/
def Good (a : Vsp) : Prop := a.Single ∧ a.Served

/-- The session changes. -/
theorem Good.of_one (h : a.Good) (hs : a.sessionList = [vs]) (hb : b.sessionList = [vs'])
    (hc : b.openCnt = a.openCnt)
    (hheld : vs'.pendingIn ≠ some []) (hserved : vs'.pendingIn.isSome → vs'.bufIn.unread ≠ [] ∧
      b.wDataOut = true) : b.Good :=
  ⟨h.1.update hs hb hc hheld, (served_one hb).2 hserved⟩

theorem Good.write (h : a.Good) (hs : a.sessionList = [vs]) (ht : a.isTerminal = false) (buf : List UInt8)
    (nonblock : Bool) :
    (a.dvWrite vs buf nonblock).Good := by
  have hstart : a.watchStart a.wDataOut = true := by rw [watchStart, if_neg (by simp [ht])]
  unfold Vsp.dvWrite
  split_ifs with hpend hfull hblock
  · exact h
  · exact h
  · -- what doesn't fit is held, and the buffer is full
    obtain ⟨-, hlong⟩ := hblock
    refine h.of_one hs (b := { a.put _ with wDataOut := _ }) (put_one hs rfl) rfl ?_ fun _ => ⟨?_, hstart⟩
    · intro hnil
      have hlen := List.drop_eq_nil_iff.1 (Option.some.inj hnil)
      omega
    · cases buf with
      | nil => simp at hlong
      | cons c p => exact Buffer.unread_append_ne_nil _
  · have hheld := h.1.held vs (by simp [hs])
    exact h.of_one hs (b := { a.put _ with wDataOut := _ }) (put_one hs rfl) rfl hheld fun hsome =>
      absurd hsome hpend

/-- The lines change the PTT status of the session only, and write a byte if one of them is for PTT. -/
theorem setBits_spec (hs : a.sessionList = [vs]) (bits : ModemBits) (taken : Bool) : ∃ st,
    (a.setBits vs bits taken).sessionList = [{ vs with pttStatus := st }] ∧
      (a.setBits vs bits taken).openCnt = a.openCnt ∧ (a.setBits vs bits taken).wDataOut = a.wDataOut ∧
      ∃ b, (a.setBits vs bits taken).log = a.log ++
        if a.isTerminal = false ∧ (a.rtsIsPtt = true ∨ a.dtrIsPtt = true) ∧ taken = true ∧
          a.fdPtt ≠ .none then [.ptt b] else [] := by
  unfold Vsp.setBits
  by_cases ht : a.isTerminal = true
  · rw [if_pos ht]
    exact ⟨vs.pttStatus, hs, rfl, rfl, 0, by simp [ht]⟩
  · rw [if_neg ht]
    dsimp only
    by_cases hn : a.rtsIsPtt = false ∧ a.dtrIsPtt = false
    · rw [if_pos hn]
      exact ⟨vs.pttStatus, hs, rfl, rfl, 0, by simp [hn]⟩
    · rw [if_neg hn, writePtt_eq]
      have hptt : a.rtsIsPtt = true ∨ a.dtrIsPtt = true := by
        by_contra hno
        exact hn (by simpa using hno)
      generalize (if (bits.rts && a.rtsIsPtt) || (bits.dtr && a.dtrIsPtt) then PTT_ON_BYTE else PTT_OFF_BYTE) = st
      by_cases hw : taken = true ∧ a.fdPtt ≠ .none
      · rw [if_pos hw, if_pos rfl]
        refine ⟨st, put_one hs rfl, rfl, rfl, st, ?_⟩
        rw [if_pos ⟨by simpa using ht, hptt, hw⟩]
        rfl
      · rw [if_neg hw]
        have hno : ¬(a.isTerminal = false ∧ (a.rtsIsPtt = true ∨ a.dtrIsPtt = true) ∧ taken = true ∧
          a.fdPtt ≠ .none) :=
          fun h => hw h.2.2
        refine ⟨vs.pttStatus, hs, rfl, rfl, st, ?_⟩
        rw [if_neg hno]
        exact (List.append_nil _).symm

theorem Good.setBits (h : a.Good) (hs : a.sessionList = [vs]) (bits : ModemBits) (taken : Bool) :
    (a.setBits vs bits taken).Good := by
  obtain ⟨st, hb, hc, hw, -⟩ := setBits_spec hs bits taken
  exact h.of_one hs hb hc (h.1.held vs (by simp [hs])) (by rw [hw]; exact (served_one hs).1 h.2)

/-- A port is opened, or stays as it was. -/
theorem Single.open (h : a.Single) : a.step .dvOpen = a ∨
    (a.sessionList = [] ∧ ∃ id, (a.step .dvOpen).sessionList = [⟨id, .empty, none, 0⟩] ∧
      (a.step .dvOpen).openCnt = 1) := by
  rw [step]
  split_ifs
  · unfold Vsp.dvOpen
    cases a.getFreeSessionId with
    | none => exact .inl rfl
    | some id =>
      dsimp only
      split_ifs with ho
      · exact .inl rfl
      · have hcnt : a.openCnt = 0 := by omega
        have hnil : a.sessionList = [] := List.length_eq_zero_iff.1 (h.cnt.symm.trans hcnt)
        exact .inr ⟨hnil, id, by simp [obs, hnil], by simp [obs, hcnt]⟩
  · exact .inl rfl

theorem Good.open (h : a.Good) : (a.step .dvOpen).Good := by
  rcases h.1.open with hsame | ⟨-, id, hone, hc⟩
  · rw [hsame]
    exact h
  · exact ⟨.of_one hone hc nofun, (served_one hone).2 nofun⟩

theorem Good.ended (hs : b.sessionList = []) (hc : b.openCnt = 0) : b.Good := ⟨.of_nil hs hc, served_of_nil hs⟩

/-- What ends the session leaves none; otherwise nothing happens. -/
theorem Single.fail_or (h : a.Single) (taken : Nat → Bool) : a.fail taken = a ∨
    ((a.fail taken).sessionList = [] ∧ (a.fail taken).openCnt = 0) := by
  cases ht : a.isTerminal with
  | true => exact .inl (if_pos ht)
  | false => exact .inr (h.fail ht taken)

theorem Single.chanFails (h : a.Single) (taken : Nat → Bool) : a.step (.chanFails taken) = a ∨
    ((a.step (.chanFails taken)).sessionList = [] ∧ (a.step (.chanFails taken)).openCnt = 0) := by
  rw [step]
  split_ifs
  · exact h.fail_or taken
  · exact .inl rfl

theorem Single.dataIn (h : a.Single) (res : List ReadRes) (taken : Nat → Bool) : a.step (.dataIn res taken) = a ∨
    ((a.step (.dataIn res taken)).sessionList = [] ∧ (a.step (.dataIn res taken)).openCnt = 0) := by
  rw [step, dataInCb]
  split_ifs
  · exact .inl rfl
  · exact h.fail_or taken
  · exact .inl rfl
  · exact .inl rfl

theorem Single.destroy (h : a.Single) (taken : Nat → Bool) (hc : a.state ≠ .closed) :
    (a.step (.destroy taken)).sessionList = [] ∧ (a.step (.destroy taken)).openCnt = 0 := by
  have hclosed : ({ a with state := a.state.transition .closed } : Vsp).Single := ⟨h.one, h.cnt, h.held⟩
  rw [step, if_neg hc]
  exact hclosed.endSessions taken

theorem Single.release (h : a.Single) (hs : a.sessionList = [vs]) (taken : Bool) :
    (a.dvRelease vs taken).sessionList = [] ∧ (a.dvRelease vs taken).openCnt = 0 := by
  obtain ⟨hl, hc⟩ := endSession_list hs taken
  have hzero : (a.endSession vs taken).openCnt = 0 := by rw [hc, h.cnt_one hs]
  unfold Vsp.dvRelease
  dsimp only
  rw [if_pos hzero]
  exact ⟨hl, hzero⟩

theorem Good.ended_or (h : a.Good) (hb : b = a ∨ (b.sessionList = [] ∧ b.openCnt = 0)) : b.Good := by
  rcases hb with rfl | ⟨hl, hc⟩
  · exact h
  · exact .ended hl hc

/-! ### What the router takes -/

/-- What `data_out_cb` makes of a session of which the router takes `p`. -/
def drained (a : Vsp) (vs : VspSession) (p : List UInt8) : VspSession :=
  refill { vs with
    pttStatus := if a.fdPtt = .data then track vs.pttStatus p else vs.pttStatus
    bufIn := vs.bufIn.consume p.length }

/-- `data_out_cb` for the only session. -/
theorem dataOutCb_one (hs : a.sessionList = [vs]) (ht : a.isTerminal = false) (hu : vs.bufIn.unread ≠ [])
    (res : Nat → WriteRes) (taken : Nat → Bool) : a.dataOutCb res taken =
      match res vs.id with
      | .again => a
      | .error => a.fail taken
      | .wrote 0 => { a with wDataOut := false }
      | .wrote (n + 1) =>
        { { a with sessionList := [a.drained vs (vs.bufIn.unread.take (n + 1))] }.obs [.data (vs.bufIn.unread.take (n + 1))] with
          wDataOut := a.wDataOut && (a.drained vs (vs.bufIn.unread.take (n + 1))).bufIn.unread != [] } := by
  obtain ⟨state, wIn, wOut, wChan, ptt, rts, dtr, cnt, list, mbits, log⟩ := a
  obtain rfl : list = [vs] := hs
  unfold dataOutCb
  rw [if_neg (by simp [ht]), dataOutLoop, if_neg hu]
  cases res vs.id with
  | again => simp [dataOutLoop, obs]
  | error => simp [obs]
  | wrote n =>
    cases n with
    | zero => simp [dataOutLoop, obs]
    | succ n => simp [dataOutLoop, obs, drained]

/-- A session whose buffer is empty isn't written. -/
theorem dataOutCb_idle (h : a.sessionList = [] ∨ ∃ vs, a.sessionList = [vs] ∧ vs.bufIn.unread = [])
    (ht : a.isTerminal = false) (res : Nat → WriteRes) (taken : Nat → Bool) :
    a.dataOutCb res taken = { a with wDataOut := false } := by
  obtain ⟨state, wIn, wOut, wChan, ptt, rts, dtr, cnt, list, mbits, log⟩ := a
  unfold dataOutCb
  rw [if_neg (by simp [ht])]
  rcases h with hs | ⟨vs, hs, hu⟩
  · obtain rfl : list = [] := hs
    simp [dataOutLoop, obs]
  · obtain rfl : list = [vs] := hs
    simp [dataOutLoop, obs, hu]

theorem refill_pending : (refill vs).pendingIn ≠ some [] := by
  unfold refill
  cases hp : vs.pendingIn with
  | none => simp [hp]
  | some rest =>
    dsimp only
    split_ifs with hnil
    · exact nofun
    · exact fun h => hnil (Option.some.inj h)

/-- A write that is still held is held behind something in the buffer, unless the router took all of it and
`buf_append` nothing. -/
theorem drained_served {n : Nat} {rest : List UInt8} (hp : vs.pendingIn = some rest) (hrest : rest ≠ []) :
    ((a.drained vs (vs.bufIn.unread.take (n + 1))).pendingIn.isSome →
      (a.drained vs (vs.bufIn.unread.take (n + 1))).bufIn.unread ≠ []) ↔
    ¬(vs.bufIn.unread.length ≤ n + 1 ∧ rest.length % 65536 = 0) := by
  have hleft := vs.bufIn.unread_consume_take (n + 1)
  obtain ⟨b, hb⟩ : ∃ b, b = vs.bufIn.consume (vs.bufIn.unread.take (n + 1)).length := ⟨_, rfl⟩
  rw [← hb] at hleft
  have hsome : a.drained vs (vs.bufIn.unread.take (n + 1)) = { vs with
      pttStatus := if a.fdPtt = .data then track vs.pttStatus (vs.bufIn.unread.take (n + 1)) else vs.pttStatus
      bufIn := b.append (rest.take (min (rest.length % 65536) b.avail))
      pendingIn := if rest.drop (rest.take (min (rest.length % 65536) b.avail)).length = [] then none
        else some (rest.drop (rest.take (min (rest.length % 65536) b.avail)).length) } := by
    rw [drained, refill, hp, hb]
  rw [hsome]
  dsimp only
  by_cases hall : vs.bufIn.unread.length ≤ n + 1
  · -- the buffer is empty now, and takes as much as it is told
    have hnil : b.unread = [] := by rw [hleft, List.drop_eq_nil_of_le hall]
    obtain rfl : b = .empty := Buffer.eq_empty_of_unread hnil
    by_cases hmod : rest.length % 65536 = 0
    · simp [hall, hmod, hrest, Buffer.append_nil]
    · have hlen : 0 < rest.length := List.length_pos_iff.2 hrest
      have hroom : 0 < Buffer.empty.avail := by decide
      have htake : rest.take (min (rest.length % 65536) Buffer.empty.avail) ≠ [] := by
        intro htake
        have hzero := congrArg List.length htake
        rw [List.length_take, List.length_nil] at hzero
        omega
      obtain ⟨c, p, hcp⟩ := List.exists_cons_of_ne_nil htake
      refine ⟨fun _ h => hmod h.2, fun _ _ => ?_⟩
      rw [hcp]
      exact Buffer.unread_append_ne_nil _
  · refine ⟨fun _ h => hall h.1, fun _ _ => ?_⟩
    rw [Buffer.unread_append, hleft]
    intro hnil
    exact hall (List.drop_eq_nil_iff.1 (List.append_eq_nil_iff.1 hnil).1)

/-! ### Runs -/

/-- Without a write that is held all steps of `data_out_cb` are alike. -/
theorem Good.drain (h : a.Good) (hs : a.sessionList = [vs]) (ht : a.isTerminal = false) (hu : vs.bufIn.unread ≠ [])
    (hw : a.wDataOut = true) (res : Nat → WriteRes) (taken : Nat → Bool) :
    (a.dataOutCb res taken).Single ∧ ((a.dataOutCb res taken).Served ↔ ∀ rest ∈ vs.pendingIn,
      ∀ n, res vs.id = .wrote n → n ≠ 0 ∧ ¬(vs.bufIn.unread.length ≤ n ∧ rest.length % 65536 = 0)) := by
  have hheld := h.1.held vs (by simp [hs])
  rw [dataOutCb_one hs ht hu]
  cases hres : res vs.id with
  | again => exact ⟨h.1, fun _ _ _ _ hn => (nomatch hn), fun _ => h.2⟩
  | error =>
    obtain ⟨hl, hc⟩ := h.1.fail ht taken
    exact ⟨.of_nil hl hc, fun _ _ _ _ hn => (nomatch hn), fun _ => served_of_nil hl⟩
  | wrote n =>
    cases n with
    | zero =>
      dsimp only
      refine ⟨⟨h.1.one, h.1.cnt, h.1.held⟩, (served_one (a := { a with wDataOut := false }) hs).trans
        ⟨fun hserved rest hp => ?_, fun hno hp => ?_⟩⟩
      · exact absurd (hserved (Option.isSome_of_mem hp)).2 Bool.false_ne_true
      · obtain ⟨rest, hrest⟩ := Option.isSome_iff_exists.1 hp
        exact absurd rfl (hno rest hrest 0 rfl).1
    | succ n =>
      dsimp only
      refine ⟨.of_one rfl (h.1.cnt_one hs) refill_pending, (served_one rfl).trans ?_⟩
      cases hp : vs.pendingIn with
      | none =>
        have hnone : (a.drained vs (vs.bufIn.unread.take (n + 1))).pendingIn = none := by
          simp [drained, refill, hp]
        rw [hnone]
        exact ⟨fun _ => nofun, fun _ => nofun⟩
      | some rest =>
        have hrest : rest ≠ [] := fun hnil => hheld (hp.trans (congrArg some hnil))
        have hiff := drained_served (a := a) (n := n) hp hrest
        constructor
        · rintro hserved rest' hrest' m hm
          obtain rfl := Option.some.inj hrest'
          obtain rfl : n + 1 = m := by simpa using hm
          exact ⟨Nat.succ_ne_zero n, hiff.1 fun hsome => (hserved hsome).1⟩
        · intro hno hsome
          have hne := hiff.2 (hno rest rfl (n + 1) rfl).2 hsome
          refine ⟨hne, ?_⟩
          rw [obs, hw, Bool.true_and]
          simpa using hne

theorem Good.dataOut (h : a.Good) (res : Nat → WriteRes) (taken : Nat → Bool) :
    (a.step (.dataOut res taken)).Single ∧ ((a.step (.dataOut res taken)).Served ↔
      a.Spares (.dataOut res taken)) := by
  rw [step]
  by_cases hw : a.wDataOut = true
  swap
  · rw [if_neg hw]
    exact ⟨h.1, fun _ hw' => absurd hw' hw, fun _ => h.2⟩
  rw [if_pos hw]
  by_cases ht : a.isTerminal = true
  · rw [dataOutCb, if_pos ht]
    exact ⟨h.1, fun _ _ hf => absurd (ht.symm.trans hf) (by decide), fun _ => h.2⟩
  have ht : a.isTerminal = false := by simpa using ht
  rcases h.1.one with hs | ⟨vs, hs⟩
  · rw [dataOutCb_idle (.inl hs) ht]
    refine ⟨⟨h.1.one, h.1.cnt, h.1.held⟩, fun _ _ _ => ?_, fun _ => served_of_nil hs⟩
    rw [hs]
    intro vs hvs
    cases hvs
  have hspares : a.Spares (.dataOut res taken) ↔ ∀ rest ∈ vs.pendingIn,
      ∀ n, res vs.id = .wrote n → n ≠ 0 ∧ ¬(vs.bufIn.unread.length ≤ n ∧ rest.length % 65536 = 0) := by
    simp [Spares, hw, ht, hs]
  rw [hspares]
  by_cases hu : vs.bufIn.unread = []
  · -- with an empty buffer nothing is held
    have hnone : vs.pendingIn = none := by
      by_contra hne
      exact ((served_one hs).1 h.2 (Option.isSome_iff_ne_none.2 hne)).1 hu
    rw [dataOutCb_idle (.inr ⟨vs, hs, hu⟩) ht, hnone]
    refine ⟨⟨h.1.one, h.1.cnt, h.1.held⟩, fun _ rest hrest => ?_, fun _ => ?_⟩
    · cases hrest
    · refine (served_one (a := { a with wDataOut := false }) hs).2 ?_
      rw [hnone]
      intro hsome
      cases hsome
  · exact h.drain hs ht hu hw res taken

theorem Good.flush (h : a.Good) (id : Nat) :
    (a.step (.flushIn id)).Single ∧ ((a.step (.flushIn id)).Served ↔ a.Spares (.flushIn id)) := by
  rw [step, Vsp.request]
  cases hfind : a.findVs id with
  | none => exact ⟨h.1, fun _ _ _ => by simp [hfind], fun _ => h.2⟩
  | some vs =>
    obtain ⟨hs, -⟩ := find_eq hfind h.1.one
    dsimp only
    by_cases hc : a.wChanIn = true ∧ a.isTerminal = false
    · rw [if_pos hc]
      have hput : (a.put { vs with bufIn := .empty }).sessionList = [{ vs with bufIn := .empty }] := put_one hs rfl
      refine ⟨h.1.update hs hput rfl (h.1.held vs (by simp [hs])), (served_one hput).trans ?_⟩
      simp [Spares, hc.1, hc.2, hfind, Buffer.unread_empty]
    · rw [if_neg hc]
      exact ⟨h.1, fun _ hw ht => absurd ⟨hw, ht⟩ hc, fun _ => h.2⟩

/-- A step leaves no write without an answer if and only if it spares it. -/
theorem Good.step_iff (h : a.Good) (e : VspEv) : (a.step e).Single ∧ ((a.step e).Served ↔ a.Spares e) := by
  have hgood : (a.step e).Good → a.Spares e → (a.step e).Single ∧ ((a.step e).Served ↔ a.Spares e) :=
    fun hg hs => ⟨hg.1, fun _ => hs, fun _ => hg.2⟩
  cases e with
  | flushIn id => exact h.flush id
  | dataOut res taken => exact h.dataOut res taken
  | dvOpen => exact hgood h.open trivial
  | dvWrite i buf nonblock => exact hgood (h.1.request h fun vs hs _ _ ht => h.write hs ht buf nonblock) trivial
  | setBits i op bits taken => exact hgood (h.1.request h fun vs hs _ _ _ => h.setBits hs _ taken) trivial
  | interrupt i =>
    exact hgood (h.1.request h fun vs hs _ _ _ => h.of_one hs (put_one hs rfl) rfl nofun nofun) trivial
  | dvRelease i taken =>
    exact hgood (h.1.request h fun vs hs _ _ _ => h.ended_or (.inr (h.1.release hs taken))) trivial
  | chanFails taken => exact hgood (h.ended_or (h.1.chanFails taken)) trivial
  | dataIn res taken => exact hgood (h.ended_or (h.1.dataIn res taken)) trivial
  | destroy taken =>
    refine hgood (h.ended_or ?_) trivial
    by_cases hc : a.state = .closed
    · exact .inl (if_pos hc)
    · exact .inr (h.1.destroy taken hc)

theorem created {ch : Channel} {pttRts pttDtr : Bool} (hc : vspCreate ch pttRts pttDtr = some a) :
    a.sessionList = [] ∧ a.openCnt = 0 := by
  unfold vspCreate at hc
  split_ifs at hc
  · obtain rfl := Option.some.inj hc
    exact ⟨rfl, rfl⟩
  · split at hc
    · exact nomatch hc
    · obtain rfl := Option.some.inj hc
      exact ⟨rfl, rfl⟩

/-- In all states of a run every write that is held is still to be answered, if and only if every step spares
it. -/
theorem vsp_writes_served {ch : Channel} {pttRts pttDtr : Bool} {vsp : Vsp} (hc : vspCreate ch pttRts pttDtr = some vsp)
    (evs : List VspEv) :
    (∀ as, as <+: evs → (Run.run step vsp as).Served) ↔ Run.StepsOk step Spares vsp evs := by
  have hgood : vsp.Good := .ended (created hc).1 (created hc).2
  exact Run.forall_prefix_iff (I := Single) (P := Served) (fun s e hI hP =>
    Good.step_iff ⟨hI, hP⟩ e) hgood.1 hgood.2 evs

/-- A port without PTT. -/
def plainPort : Vsp := ⟨.ioOpen, true, false, true, .none, false, false, 0, [], ⟨false, false⟩, []⟩

theorem vsp_writes_served_held :
    (Run.run step plainPort [.dvOpen, .dvWrite 0 (List.replicate 5000 0x41) false, .interrupt 0]).Served :=
  (@vsp_writes_served .r1 false false plainPort rfl
    [.dvOpen, .dvWrite 0 (List.replicate 5000 0x41) false, .interrupt 0]).2
    ⟨trivial, trivial, trivial, trivial⟩ _ (List.prefix_refl _)

/-- A flush under a write that is held. -/
theorem vsp_write_hangs :
    ¬ ∀ (ch : Channel) (pttRts pttDtr : Bool) (vsp : Vsp), vspCreate ch pttRts pttDtr = some vsp →
      ∀ evs, (Run.run step vsp evs).Served := by
  intro h
  have hserved := h .r1 false false plainPort rfl
    [.dvOpen, .dvWrite 0 (List.replicate 5000 0x41) false, .flushIn 0]
  have hpending : ∃ vs ∈ (Run.run step plainPort [.dvOpen, .dvWrite 0 (List.replicate 5000 0x41) false, .flushIn 0]).sessionList,
      vs.pendingIn.isSome = true ∧ vs.bufIn.unread = [] := by decide +kernel
  obtain ⟨vs, hvs, hp, hu⟩ := hpending
  exact (hserved vs hvs hp).1 hu

end Vsp

end Mhuxd
