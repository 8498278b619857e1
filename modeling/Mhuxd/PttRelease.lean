import Mhuxd.ConVsp
import Mhuxd.Link

/-!
# PTT when a session ends

A session that keyed writes PTT off when it ends. Its status is what it wrote last, where it is tracked:
a virtual port on a PTT channel tracks its data only if its RTS or DTR keys as well. The release is one
write that is not repeated: `Releases` says that the socket takes it.
-/

namespace Mhuxd

/-- The last PTT byte, on or off. -/
def lastPttByte (bs : List UInt8) : Option UInt8 := (bs.filter Router.isPttByte).getLast?

theorem lastPttByte_append (as bs : List UInt8) : lastPttByte (as ++ bs) =
    (lastPttByte bs).or (lastPttByte as) := by
  rw [lastPttByte, List.filter_append, List.getLast?_append]
  rfl

/-- The status of the connectors is the last PTT byte. -/
theorem track_eq (st : UInt8) (p : List UInt8) : Vsp.track st p = (lastPttByte p).getD st := by
  induction p using List.reverseRecOn with
  | nil => rfl
  | append_singleton p c ih =>
    rw [Vsp.track, List.foldl_append, lastPttByte_append]
    show (if c = PTT_ON_BYTE ∨ c = PTT_OFF_BYTE then c else Vsp.track st p) = _
    rw [ih]
    split_ifs with hc
    · simp [lastPttByte, Router.isPttByte, hc]
    · simp [lastPttByte, Router.isPttByte, hc]

theorem pttTrack_eq (st : Bool) (p : List UInt8) : pttTrack st p =
    ((lastPttByte p).map (· == PTT_ON_BYTE)).getD st := by
  induction p using List.reverseRecOn with
  | nil => rfl
  | append_singleton p c ih =>
    rw [pttTrack, List.foldl_append, lastPttByte_append]
    show (if c = PTT_ON_BYTE ∨ c = PTT_OFF_BYTE then c == PTT_ON_BYTE else pttTrack st p) = _
    rw [ih]
    split_ifs with hc
    · simp [lastPttByte, Router.isPttByte, hc]
    · simp [lastPttByte, Router.isPttByte, hc]

namespace Ctcp

/-! ### TCP connectors -/

/-- What is written to a PTT channel of the router. -/
def pttOut (log : List TcpObs) : List UInt8 :=
  log.flatMap fun o =>
    match o with
    | .toRouter _ p => p
    | .release true => [PTT_OFF_BYTE]
    | _ => []

/-- The PTT byte written last is PTT on. -/
def keyed (ctcp : Ctcp) : Bool := lastPttByte (pttOut ctcp.log) == some PTT_ON_BYTE

/-- The sessions that the event ends, with whether the router's socket takes the PTT off of each. -/
def ends (ctcp : Ctcp) : TcpEv → List (CtcpSession × Bool)
  | .clientIn id n rel =>
    ((ctcp.find id).toList.filter fun cs => cs.wIn && !ctcp.isTerminal &&
      (n.isNone || cs.bufIn.avail == 0 || cs.sock.pending.isEmpty && cs.sock.closed)).map (·, rel)
  | .clientOut id res rel =>
    ((ctcp.find id).toList.filter fun cs => cs.wOut && !ctcp.isTerminal &&
      (res == .error || cs.bufOut.unread.isEmpty)).map (·, rel)
  | .destroy rel => ctcp.sessionList.map fun cs => (cs, rel cs.id)
  | _ => []

/-- If PTT is on when a session ends, the router's socket takes the PTT off. -/
def Releases (ctcp : Ctcp) (e : TcpEv) : Prop := ∀ x ∈ ctcp.ends e, ctcp.keyed = true → x.2 = true

/-- The only session's PTT status is the byte written last; without a session PTT is not on. -/
structure Tracked (ctcp : Ctcp) : Prop where
  one : ctcp.sessionList = [] ∨ ∃ cs, ctcp.sessionList = [cs]
  cnt : ctcp.openCnt = ctcp.sessionList.length
  ptt : ctcp.isPttChannel = true
  off : ctcp.sessionList = [] → ctcp.keyed = false
  on : ∀ cs ∈ ctcp.sessionList, cs.pttStatus = ctcp.keyed

variable {a b : Ctcp} {cs cs' : CtcpSession}

theorem keyed_append {l : List TcpObs} (h : b.log = a.log ++ l) :
    b.keyed = ((lastPttByte (pttOut l)).map (· == PTT_ON_BYTE)).getD a.keyed := by
  have hout : pttOut b.log = pttOut a.log ++ pttOut l := by rw [h, pttOut, List.flatMap_append]; rfl
  rw [keyed, hout, lastPttByte_append, keyed]
  cases lastPttByte (pttOut l) <;> simp

theorem Tracked.update (h : a.Tracked) (hb : b.sessionList = [cs']) (hc : b.openCnt = 1)
    (hp : b.isPttChannel = a.isPttChannel) (hs : cs'.pttStatus = b.keyed) : b.Tracked :=
  ⟨.inr ⟨cs', hb⟩, by simp [hb, hc], hp.trans h.ptt, by simp [hb], by simpa [hb] using hs⟩

theorem Tracked.same (h : a.Tracked) (hb : b.sessionList = a.sessionList) (hc : b.openCnt = a.openCnt)
    (hp : b.isPttChannel = a.isPttChannel) (hk : b.keyed = a.keyed) : b.Tracked :=
  ⟨by rw [hb]; exact h.one, by rw [hb, hc]; exact h.cnt, hp.trans h.ptt, by rw [hb, hk]; exact h.off,
    by rw [hb, hk]; exact h.on⟩

theorem pttOut_append (log new : List TcpObs) : pttOut (log ++ new) = pttOut log ++ pttOut new :=
  List.flatMap_append

/-- The session's end: PTT is released if it was on. -/
theorem Tracked.remSession (h : a.Tracked) (hs : a.sessionList = [cs]) {r : Bool} {l : List TcpObs}
    (hlog : pttOut l = []) (hrel : a.keyed = true → r = true) : ((a.obs l).remSession cs r).Tracked := by
  have hstatus := h.on cs (by simp [hs])
  have hcnt : a.openCnt = 1 := by rw [h.cnt, hs]; rfl
  rw [remSession_eq]
  refine ⟨.inl (by simp [obs, hs]), by simp [obs, hs, hcnt], h.ptt, fun _ => ?_, by simp [obs, hs]⟩
  rcases hk : a.keyed with _ | _
  · have hst : ¬((a.obs l).isPttChannel = true ∧ cs.pttStatus = true) := by simp [hstatus, hk]
    rw [if_neg hst, keyed_append (a := a) (l := l ++ [.ended cs.id a.state]) (by simp [obs]), pttOut_append, hlog,
      hk]
    rfl
  · have hst : (a.obs l).isPttChannel = true ∧ cs.pttStatus = true := ⟨h.ptt, hstatus.trans hk⟩
    rw [if_pos hst, hrel hk,
      keyed_append (a := a) (l := l ++ [.release true, .ended cs.id a.state]) (by simp [obs]), pttOut_append, hlog]
    rfl

theorem Tracked.connect (h : a.Tracked) : (a.step .connect).Tracked := by
  rw [step, lsnrCb]
  split_ifs with hw ht ho
  · exact h
  · exact h
  · have hnil : a.sessionList = [] := by simpa [h.cnt] using ho
    refine h.update (by rw [hnil]; rfl) (by simp [h.cnt, hnil]) rfl ?_
    exact (h.off hnil).symm
  · exact h

/-- The session changes but for its status, and no PTT byte is written. -/
theorem Tracked.quiet (h : a.Tracked) (hs : a.sessionList = [cs]) (hb : b.sessionList = [cs'])
    (hc : b.openCnt = a.openCnt)
    (hp : b.isPttChannel = a.isPttChannel) (hst : cs'.pttStatus = cs.pttStatus) (hk : b.keyed = a.keyed) :
    b.Tracked := by
  have hcnt : a.openCnt = 1 := by rw [h.cnt, hs]; rfl
  refine h.update hb (hc.trans hcnt) hp ?_
  rw [hst, hk]
  exact h.on cs (by simp [hs])

theorem Tracked.fail (h : a.Tracked) : a.ctcpFail.Tracked := h.same rfl rfl rfl rfl

theorem Tracked.clientIn (h : a.Tracked) {i : Nat} {n : Option Nat} {rel : Bool}
    (hok : a.Releases (.clientIn i n rel)) : (a.step (.clientIn i n rel)).Tracked := by
  rw [step]
  rcases hf : a.find i with _ | cs
  · exact h
  obtain ⟨hs, rfl⟩ := find_eq hf h.one
  dsimp only
  split_ifs with hw
  swap
  · exact h
  unfold clientInCb
  split_ifs with ht
  · exact h
  have hends : (n = none ∨ cs.bufIn.avail = 0 ∨ cs.sock.pending = [] ∧ cs.sock.closed = true) → a.keyed = true →
    rel = true := by
    intro hend
    refine hok (cs, rel) ?_
    simp only [ends, hf, Option.toList_some, List.filter_singleton, List.mem_map, Prod.mk.injEq, and_true,
      exists_eq_right]
    have : (cs.wIn && !a.isTerminal && (n.isNone || cs.bufIn.avail == 0 || cs.sock.pending.isEmpty && cs.sock.closed)) = true := by
      rcases hend with rfl | he | ⟨he, hc⟩
      · simp [hw, ht]
      · simp [hw, ht, he]
      · simp [hw, ht, he, hc]
    simp [this]
  rcases n with _ | n
  · exact h.remSession hs rfl (hends (.inl rfl))
  have hnolog : ∀ rel, a.remSession cs rel = (a.obs []).remSession cs rel := fun rel => by simp [obs]
  dsimp only [ClientSock.read]
  by_cases ha : cs.bufIn.avail = 0
  · rw [if_pos ha, hnolog]
    exact h.remSession hs rfl (hends (.inr (.inl ha)))
  rw [if_neg ha]
  rcases hp : cs.sock.pending.take (min (n + 1) cs.bufIn.avail) with _ | ⟨c, p⟩
  · have hnil : cs.sock.pending = [] := by
      rcases List.take_eq_nil_iff.1 hp with hmin | hnil
      · omega
      · exact hnil
    dsimp only
    split_ifs with hc
    · rw [hnolog]
      exact h.remSession hs rfl (hends (.inr (.inr ⟨hnil, hc⟩)))
    · exact h
  · exact h.quiet hs (put_one hs rfl) rfl rfl rfl rfl

theorem Tracked.clientOut (h : a.Tracked) {i : Nat} {res : WriteRes} {rel : Bool}
    (hok : a.Releases (.clientOut i res rel)) : (a.step (.clientOut i res rel)).Tracked := by
  rw [step]
  rcases hf : a.find i with _ | cs
  · exact h
  obtain ⟨hs, rfl⟩ := find_eq hf h.one
  dsimp only
  split_ifs with hw
  swap
  · exact h
  unfold clientOutCb
  split_ifs with ht
  · exact h
  have hends : (res = .error ∨ cs.bufOut.unread = []) → a.keyed = true → rel = true := by
    intro hend
    refine hok (cs, rel) ?_
    simp only [ends, hf, Option.toList_some, List.filter_singleton, List.mem_map, Prod.mk.injEq, and_true,
      exists_eq_right]
    have : (cs.wOut && !a.isTerminal && (res == .error || cs.bufOut.unread.isEmpty)) = true := by
      rcases hend with rfl | he
      · simp [hw, ht]
      · simp [hw, ht, he]
    simp [this]
  cases res with
  | again => exact h
  | error => exact h.remSession hs rfl (hends (.inl rfl))
  | wrote n =>
    dsimp only
    rcases hp : cs.bufOut.unread.take (n + 1) with _ | ⟨c, p⟩
    · have hnil : cs.bufOut.unread = [] := (List.take_eq_nil_iff.1 hp).resolve_left (by simp)
      have := h.remSession hs (r := rel) (l := []) rfl (hends (.inr hnil))
      simpa [obs] using this
    · refine h.quiet hs (put_one hs rfl) rfl rfl rfl ?_
      rw [keyed_append (a := a) (l := [.toClient cs.id (c :: p)]) rfl]
      rfl

theorem Tracked.dataIn (h : a.Tracked) (res : ReadRes) : (a.step (.dataIn res)).Tracked := by
  rw [step]
  split_ifs with hw
  swap
  · exact h
  unfold dataInCb
  split_ifs with ht
  · exact h
  cases res with
  | again => exact h
  | error => exact h.fail
  | data data =>
    dsimp only
    rcases hp : data.take 1024 with _ | ⟨c, p⟩
    · exact h.fail
    dsimp only
    rcases h.one with hs | ⟨cs, hs⟩
    · rw [hs]
      exact h.same (by simp [dataInLoop, obs, hs]) rfl rfl (by simp [dataInLoop, obs, keyed])
    · rw [hs]
      refine h.quiet hs rfl rfl rfl rfl ?_
      rw [keyed_append (a := a) (l := [.passed cs.id (c :: p) ((c :: p).length ≤ cs.bufOut.avail)]) rfl]
      rfl

theorem Tracked.dataOut (h : a.Tracked) (res : Nat → WriteRes) : (a.step (.dataOut res)).Tracked := by
  rw [step]
  split_ifs with hw
  swap
  · exact h
  unfold dataOutCb
  split_ifs with ht
  · exact h
  rcases h.one with hs | ⟨cs, hs⟩
  · rw [hs]
    exact h.same (by simp [dataOutLoop, obs, hs]) rfl rfl (by simp [dataOutLoop, obs, keyed])
  rw [hs, dataOutLoop]
  by_cases hu : cs.bufIn.unread = []
  · rw [if_pos hu]
    exact h.same (by simp [dataOutLoop, obs, hs]) rfl rfl (by simp [dataOutLoop, obs, keyed])
  rw [if_neg hu]
  cases res cs.id with
  | again => exact h.same (by simp [dataOutLoop, obs, hs]) rfl rfl (by simp [dataOutLoop, obs, keyed])
  | error => exact h.same (by simp [obs, ctcpFail, hs]) rfl rfl (by simp [obs, ctcpFail, keyed])
  | wrote n =>
    have hcnt : a.openCnt = 1 := by rw [h.cnt, hs]; rfl
    refine h.update rfl hcnt rfl ?_
    rw [keyed_append (a := a) (l := [.toRouter cs.id (cs.bufIn.unread.take (n + 1))]) rfl]
    show (if a.isPttChannel then pttTrack cs.pttStatus _ else _) = _
    rw [if_pos h.ptt, pttTrack_eq, h.on cs (by simp [hs])]
    simp [pttOut]

theorem Tracked.destroy (h : a.Tracked) {rel : Nat → Bool} (hok : a.Releases (.destroy rel)) :
    (a.step (.destroy rel)).Tracked := by
  rw [step]
  split_ifs with hc
  · exact h
  unfold ctcpDestroy
  let b : Ctcp := { a with state := a.state.transition .closed, wDataIn := false, wDataOut := false, wLsnr := false }
  have hb : b.Tracked := h.same rfl rfl rfl rfl
  show (remSessions rel b.sessionList b).Tracked
  rcases h.one with hs | ⟨cs, hs⟩
  · rw [show b.sessionList = [] from hs]
    exact hb
  · rw [show b.sessionList = [cs] from hs]
    have hrel : b.keyed = true → rel cs.id = true := hok (cs, rel cs.id) (by simp [ends, hs])
    have := hb.remSession (l := []) (show _ = [cs] from hs) rfl hrel
    simpa [remSessions, obs] using this

theorem Tracked.after (h : a.Tracked) {e : TcpEv} (hok : a.Releases e) : (a.step e).Tracked := by
  cases e with
  | connect => exact h.connect
  | clientSend i p =>
    rw [step]
    rcases hf : a.find i with _ | cs
    · exact h
    obtain ⟨hs, rfl⟩ := find_eq hf h.one
    dsimp only
    split_ifs
    · exact h
    · refine h.quiet hs (put_one hs rfl) rfl rfl rfl ?_
      rw [keyed_append (a := a) (l := [.sent cs.id p]) rfl]
      rfl
  | clientClose i =>
    rw [step]
    rcases hf : a.find i with _ | cs
    · exact h
    obtain ⟨hs, rfl⟩ := find_eq hf h.one
    refine h.quiet hs (put_one hs rfl) rfl rfl rfl ?_
    rw [keyed_append (a := a) (l := [.closed cs.id]) rfl]
    rfl
  | clientIn i n rel => exact h.clientIn hok
  | clientOut i res rel => exact h.clientOut hok
  | dataIn res => exact h.dataIn res
  | dataOut res => exact h.dataOut res
  | destroy rel => exact h.destroy hok

end Ctcp

namespace Vsp

/-! ### Virtual serial ports -/

/-- What is written to PTT channels of the router; `isPtt` says whether the data goes to one. -/
def pttOut (isPtt : Bool) (log : List VspObs) : List UInt8 :=
  log.flatMap fun o =>
    match o with
    | .data p => if isPtt then p else []
    | .ptt b => [b]
    | _ => []

/-- The PTT byte written last is PTT on. -/
def keyed (isPtt : Bool) (vsp : Vsp) : Bool := lastPttByte (pttOut isPtt vsp.log) == some PTT_ON_BYTE

/-- The event ends the sessions. -/
def endsAll (vsp : Vsp) : VspEv → Bool
  | .chanFails _ => vsp.wChanIn && !vsp.isTerminal
  | .dataIn res _ => vsp.wDataIn && !vsp.isTerminal && readFails res
  | .dataOut res _ => vsp.wDataOut && !vsp.isTerminal &&
      vsp.sessionList.any fun vs => vs.bufIn.unread != [] && res vs.id == .error
  | .destroy _ => vsp.state != .closed
  | _ => false

/-- The sessions that the event ends, with whether the PTT socket takes the PTT off of each. -/
def ends (vsp : Vsp) : VspEv → List (VspSession × Bool)
  | .dvRelease id taken => if vsp.wChanIn ∧ vsp.isTerminal =
      false then (vsp.findVs id).toList.map (·, taken) else []
  | e@(.chanFails taken) | e@(.dataIn _ taken) | e@(.dataOut _ taken) | e@(.destroy taken) =>
    if vsp.endsAll e then vsp.sessionList.map fun vs => (vs, taken vs.id) else []
  | _ => []

/-- If PTT is on when a session ends, there is a socket for PTT bytes and it takes the PTT off. -/
def Releases (isPtt : Bool) (vsp : Vsp) (e : VspEv) : Prop :=
  ∀ x ∈ vsp.ends e, vsp.keyed isPtt = true → vsp.fdPtt ≠ .none ∧ x.2 = true

/-- The only session's PTT status is the byte written last, where there is a socket for it; without a
session PTT is not on. -/
structure Tracked (isPtt : Bool) (vsp : Vsp) : Prop where
  one : vsp.sessionList = [] ∨ ∃ vs, vsp.sessionList = [vs]
  cnt : vsp.openCnt = vsp.sessionList.length
  data : vsp.fdPtt = .data → isPtt = true
  own : vsp.fdPtt = .own → isPtt = false
  off : vsp.sessionList = [] → vsp.keyed isPtt = false
  on : vsp.fdPtt ≠ .none → ∀ vs ∈ vsp.sessionList, (vs.pttStatus == PTT_ON_BYTE) = vsp.keyed isPtt

variable {isPtt : Bool} {a b : Vsp} {vs vs' : VspSession}

theorem find_eq {id : Nat} (h : a.findVs id = some vs) (hone : a.sessionList = [] ∨ ∃ vs, a.sessionList = [vs]) :
    a.sessionList = [vs] ∧ vs.id = id := by
  have hid : vs.id = id := by simpa using List.find?_some h
  refine ⟨?_, hid⟩
  have hm := List.mem_of_find?_eq_some h
  rcases hone with hn | ⟨vs', hs⟩
  · simp [hn] at hm
  · rw [hs, List.mem_singleton] at hm
    rw [hs, hm]

theorem put_one (hs : a.sessionList = [vs]) (hid : vs'.id = vs.id) : (a.put vs').sessionList = [vs'] := by
  simp [put, hs, hid]

theorem keyed_append {l : List VspObs} (h : b.log = a.log ++ l) :
    b.keyed isPtt = ((lastPttByte (pttOut isPtt l)).map (· == PTT_ON_BYTE)).getD (a.keyed isPtt) := by
  have hout : pttOut isPtt b.log = pttOut isPtt a.log ++ pttOut isPtt l := by
    rw [h, pttOut, List.flatMap_append]
    rfl
  rw [keyed, hout, lastPttByte_append, keyed]
  cases lastPttByte (pttOut isPtt l) <;> simp

theorem keyed_of_log (h : b.log = a.log) : b.keyed isPtt = a.keyed isPtt := by rw [keyed, h, keyed]

theorem Tracked.same (h : a.Tracked isPtt) (hb : b.sessionList = a.sessionList) (hc : b.openCnt = a.openCnt)
    (hf : b.fdPtt = a.fdPtt) (hl : b.log = a.log) : b.Tracked isPtt := by
  have hk : b.keyed isPtt = a.keyed isPtt := keyed_of_log hl
  refine ⟨?_, ?_, ?_, ?_, ?_, ?_⟩ <;> simp only [hb, hc, hf, hk]
  exacts [h.one, h.cnt, h.data, h.own, h.off, h.on]

/-- The session changes. -/
theorem Tracked.update (h : a.Tracked isPtt) (hb : b.sessionList = [vs']) (hc : b.openCnt = 1)
    (hf : b.fdPtt = a.fdPtt)
    (hs : b.fdPtt ≠ .none → (vs'.pttStatus == PTT_ON_BYTE) = b.keyed isPtt) : b.Tracked isPtt where
  one := .inr ⟨vs', hb⟩
  cnt := by simp [hb, hc]
  data := by rw [hf]; exact h.data
  own := by rw [hf]; exact h.own
  off := by simp [hb]
  on hn := by simpa [hb] using hs hn

theorem Tracked.quiet (h : a.Tracked isPtt) (hs : a.sessionList = [vs]) (hb : b.sessionList = [vs'])
    (hc : b.openCnt = a.openCnt)
    (hf : b.fdPtt = a.fdPtt) (hl : b.log = a.log) (hst : vs'.pttStatus = vs.pttStatus) : b.Tracked isPtt := by
  have hcnt : a.openCnt = 1 := by rw [h.cnt, hs]; rfl
  refine h.update hb (hc.trans hcnt) hf fun hn => ?_
  rw [hst, keyed_of_log hl]
  exact h.on (by rwa [hf] at hn) vs (by simp [hs])

theorem writePtt_eq (a : Vsp) (c : UInt8) (taken : Bool) :
    a.writePtt c taken = if taken = true ∧ a.fdPtt ≠ .none then (a.obs [.ptt c], true) else (a, false) := rfl

/-- The session's end: PTT is released if it was on. -/
theorem Tracked.endSession (h : a.Tracked isPtt) (hs : a.sessionList = [vs]) (taken : Bool)
    (hrel : a.keyed isPtt = true → a.fdPtt ≠ .none ∧ taken = true) : (a.endSession vs taken).Tracked isPtt := by
  have hcnt : a.openCnt = 1 := by rw [h.cnt, hs]; rfl
  let gone : Vsp → Vsp := fun v =>
    { v with openCnt := v.openCnt - 1, sessionList := v.sessionList.filter (·.id != vs.id) }.obs [.ended vs.id]
  have hgone : ∀ v : Vsp, v.sessionList = [vs] → v.openCnt = 1 → v.fdPtt = a.fdPtt → v.keyed isPtt = false →
      (gone v).Tracked isPtt := by
    intro v hv hc hf hk
    refine ⟨.inl (by simp [gone, obs, hv]), by simp [gone, obs, hv, hc], ?_, ?_, fun _ => ?_,
      by simp [gone, obs, hv]⟩
    · show v.fdPtt = _ → _
      rw [hf]
      exact h.data
    · show v.fdPtt = _ → _
      rw [hf]
      exact h.own
    · rw [keyed_append (a := v) (l := [.ended vs.id]) rfl]
      exact hk
  show (gone (if vs.pttStatus = PTT_ON_BYTE then (a.writePtt PTT_OFF_BYTE taken).1 else a)).Tracked isPtt
  rw [writePtt_eq]
  rcases hk : a.keyed isPtt with _ | _
  · by_cases hon : vs.pttStatus = PTT_ON_BYTE
    · -- a status that nothing was written for has no socket
      have hnone : a.fdPtt = .none := by
        by_contra hn
        have := h.on hn vs (by simp [hs])
        simp [hon, hk] at this
      rw [if_pos hon, if_neg (by simp [hnone])]
      exact hgone a hs hcnt rfl hk
    · rw [if_neg hon]
      exact hgone a hs hcnt rfl hk
  · obtain ⟨hn, ht⟩ := hrel hk
    have hon : vs.pttStatus = PTT_ON_BYTE := by simpa [hk] using h.on hn vs (by simp [hs])
    rw [if_pos hon, if_pos ⟨ht, hn⟩]
    refine hgone _ hs hcnt rfl ?_
    rw [keyed_append (a := a) (l := [.ptt PTT_OFF_BYTE]) rfl]
    rfl

theorem Tracked.endSessions (h : a.Tracked isPtt) (taken : Nat → Bool)
    (hrel : ∀ vs ∈ a.sessionList, a.keyed isPtt = true → a.fdPtt ≠ .none ∧ taken vs.id = true) :
    (a.endSessions taken).Tracked isPtt := by
  unfold Vsp.endSessions
  rcases h.one with hs | ⟨vs, hs⟩
  · rw [hs]
    exact h.same rfl rfl rfl rfl
  · rw [hs]
    exact (h.endSession hs _ (hrel vs (by simp [hs]))).same rfl rfl rfl rfl

theorem Tracked.fail (h : a.Tracked isPtt) {taken : Nat → Bool}
    (hrel : a.isTerminal = false → ∀ vs ∈ a.sessionList, a.keyed isPtt = true → a.fdPtt ≠ .none ∧
      taken vs.id = true) :
    (a.fail taken).Tracked isPtt := by
  unfold Vsp.fail
  split_ifs with ht
  · exact h
  · have hb : ({ a with state := a.state.transition .failed, wChanIn := false, wDataIn := false, wDataOut := false } : Vsp).Tracked
        isPtt := h.same rfl rfl rfl rfl
    exact hb.endSessions taken (hrel (by simpa using ht))

theorem Tracked.setBits (h : a.Tracked isPtt) (hs : a.sessionList = [vs]) (bits : ModemBits) (taken : Bool) :
    (a.setBits vs bits taken).Tracked isPtt := by
  have hcnt : a.openCnt = 1 := by rw [h.cnt, hs]; rfl
  unfold Vsp.setBits
  by_cases ht : a.isTerminal = true
  · rw [if_pos ht]
    exact h
  rw [if_neg ht]
  dsimp only
  by_cases hoff : a.rtsIsPtt = false ∧ a.dtrIsPtt = false
  · rw [if_pos hoff]
    exact h.same rfl rfl rfl rfl
  · rw [if_neg hoff, writePtt_eq]
    generalize hst : (if (bits.rts && a.rtsIsPtt) || (bits.dtr && a.dtrIsPtt) then PTT_ON_BYTE else PTT_OFF_BYTE) = st
    by_cases hok : taken = true ∧ a.fdPtt ≠ .none
    · dsimp only
      rw [if_pos hok, if_pos rfl]
      refine h.update (put_one hs rfl) hcnt rfl fun _ => ?_
      rw [keyed_append (a := a) (l := [.ptt st]) rfl]
      have hbyte : Router.isPttByte st = true := by
        rw [← hst]
        split_ifs <;> decide
      have hlast : lastPttByte (pttOut isPtt [.ptt st]) = some st := by simp [pttOut, lastPttByte, hbyte]
      simp [hlast]
    · dsimp only
      rw [if_neg hok]
      exact h.same rfl rfl rfl rfl

theorem refill_status (vs : VspSession) : (refill vs).pttStatus = vs.pttStatus := by
  unfold refill
  rcases vs.pendingIn with _ | rest <;> rfl

theorem Tracked.dataOut (h : a.Tracked isPtt) {res : Nat → WriteRes} {taken : Nat → Bool}
    (hok : a.Releases isPtt (.dataOut res taken)) : (a.step (.dataOut res taken)).Tracked isPtt := by
  rw [step]
  split_ifs with hw
  swap
  · exact h
  unfold dataOutCb
  split_ifs with ht
  · exact h
  rcases h.one with hs | ⟨vs, hs⟩
  · rw [hs]
    exact h.same (by simp [dataOutLoop, obs, hs]) rfl rfl (by simp [dataOutLoop, obs])
  have hcnt : a.openCnt = 1 := by rw [h.cnt, hs]; rfl
  rw [hs, dataOutLoop]
  by_cases hu : vs.bufIn.unread = []
  · rw [if_pos hu]
    exact h.same (by simp [dataOutLoop, obs, hs]) rfl rfl (by simp [dataOutLoop, obs])
  rw [if_neg hu]
  rcases hres : res vs.id with n | _ | _
  · rcases n with _ | n
    · exact h.same (by simp [dataOutLoop, obs, hs]) rfl rfl (by simp [dataOutLoop, obs])
    · refine h.update rfl hcnt rfl fun hn => ?_
      rw [refill_status, keyed_append (a := a) (l := [.data (vs.bufIn.unread.take (n + 1))]) rfl]
      have hst := h.on hn vs (by simp [hs])
      rcases hfd : a.fdPtt with _ | _ | _
      · exact absurd hfd hn
      · have hptt := h.data hfd
        subst hptt
        simp only [if_true, track_eq, pttOut, List.flatMap_cons, List.flatMap_nil, List.append_nil]
        rcases lastPttByte (vs.bufIn.unread.take (n + 1)) with _ | b
        · simpa using hst
        · simp
      · simpa [pttOut, h.own hfd, lastPttByte] using hst
  · exact h.same (by simp [dataOutLoop, obs, hs]) rfl rfl (by simp [dataOutLoop, obs])
  · have hb : ({ a with sessionList := [vs] }.obs []).Tracked isPtt := h.same hs.symm rfl rfl (by simp [obs])
    refine hb.fail fun _ vs' hvs' => ?_
    have hmem : (vs', taken vs'.id) ∈ a.ends (.dataOut res taken) := by
      rw [List.mem_singleton.1 hvs']
      simp [ends, endsAll, hw, ht, hs, hu, hres]
    have := hok _ hmem
    rw [keyed_of_log (a := a) (by simp [obs])]
    exact this

theorem Tracked.request (h : a.Tracked isPtt) {i : Nat} {f : VspSession → Vsp}
    (hf : ∀ vs, a.findVs i = some vs → a.sessionList = [vs] → vs.id = i → a.wChanIn = true → a.isTerminal = false →
      (f vs).Tracked isPtt) : (a.request i f).Tracked isPtt := by
  unfold Vsp.request
  rcases hfind : a.findVs i with _ | vs
  · exact h
  obtain ⟨hs, hid⟩ := find_eq hfind h.one
  dsimp only
  split_ifs with hc
  · exact hf vs hfind hs hid hc.1 hc.2
  · exact h

theorem Tracked.open (h : a.Tracked isPtt) : a.dvOpen.Tracked isPtt := by
  unfold Vsp.dvOpen
  rcases a.getFreeSessionId with _ | id
  · exact h
  · dsimp only
    split_ifs with ho
    · exact h
    · have hnil : a.sessionList = [] := by
        have : a.openCnt = 0 := by omega
        rw [h.cnt] at this
        exact List.length_eq_zero_iff.1 this
      have hb : a.sessionList ++ [⟨id, .empty, none, 0⟩] = [⟨id, .empty, none, 0⟩] := by simp [hnil]
      refine h.update hb (by simp [obs, h.cnt, hnil]) rfl fun _ => ?_
      rw [keyed_append (a := a) (l := [.opened id]) rfl]
      exact (h.off hnil).symm

theorem Tracked.after (h : a.Tracked isPtt) {e : VspEv} (hok : a.Releases isPtt e) : (a.step e).Tracked isPtt := by
  cases e with
  | dvOpen =>
    rw [step]
    split_ifs
    · exact h.open
    · exact h
  | dvWrite i buf nonblock =>
    refine h.request fun vs _ hs _ _ _ => ?_
    unfold Vsp.dvWrite
    split_ifs
    · exact h
    · exact h
    · exact h.quiet hs (put_one hs rfl) rfl rfl rfl rfl
    · exact h.quiet hs (put_one hs rfl) rfl rfl rfl rfl
  | setBits i op bits taken => exact h.request fun vs _ hs _ _ _ => h.setBits hs _ taken
  | flushIn i => exact h.request fun vs _ hs _ _ _ => h.quiet hs (put_one hs rfl) rfl rfl rfl rfl
  | interrupt i => exact h.request fun vs _ hs _ _ _ => h.quiet hs (put_one hs rfl) rfl rfl rfl rfl
  | dvRelease i taken =>
    refine h.request fun vs hfind hs hid hw ht => ?_
    have hend := h.endSession hs taken (hok (vs, taken) (by simp [ends, hw, ht, hfind]))
    unfold Vsp.dvRelease
    dsimp only
    split_ifs
    · exact hend.same rfl rfl rfl rfl
    · exact hend
  | chanFails taken =>
    rw [step]
    split_ifs with hw
    · exact h.fail fun ht vs hvs => hok (vs, taken vs.id) (by simp [ends, endsAll, hw, ht, hvs])
    · exact h
  | dataIn res taken =>
    rw [step]
    split_ifs with hw
    · unfold dataInCb
      split_ifs with ht hf
      · exact h
      · exact h.fail fun ht vs hvs => hok (vs, taken vs.id) (by simp [ends, endsAll, hw, ht, hf, hvs])
      · exact h
    · exact h
  | dataOut res taken => exact h.dataOut hok
  | destroy taken =>
    rw [step]
    split_ifs with hc
    · exact h
    · have hb : ({ a with state := a.state.transition .closed } : Vsp).Tracked isPtt := h.same rfl rfl rfl rfl
      have hend := hb.endSessions taken fun vs hvs => hok (vs, taken vs.id) (by simp [ends, endsAll, hc, hvs])
      exact hend.same rfl rfl rfl rfl

end Vsp

/-! ### Runs -/

/-- After a session and before the next one, PTT is not what a connector wrote last. -/
theorem ptt_released (tcp : List TcpEv) (ch : Channel) (pttRts pttDtr : Bool) (evs : List VspEv) :
    (Run.StepsOk Ctcp.step Ctcp.Releases (Ctcp.ctcpCreate true) tcp → (Ctcp.runs true tcp).sessionList = [] →
      lastPttByte (Ctcp.pttOut (Ctcp.runs true tcp).log) ≠ some PTT_ON_BYTE) ∧
    ∀ vsp, Vsp.vspCreate ch pttRts pttDtr = some vsp → Run.StepsOk Vsp.step (Vsp.Releases ch.isPtt) vsp evs →
      (Run.run Vsp.step vsp evs).sessionList = [] →
        lastPttByte (Vsp.pttOut ch.isPtt (Run.run Vsp.step vsp evs).log) ≠ some PTT_ON_BYTE := by
  refine ⟨fun hok hnil => ?_, fun vsp hvsp hok hnil => ?_⟩
  · have hinit : (Ctcp.ctcpCreate true).Tracked := ⟨.inl rfl, rfl, rfl, fun _ => rfl, by simp [Ctcp.ctcpCreate]⟩
    have htr : (Ctcp.runs true tcp).Tracked := Run.run_inv_of_ok (fun _ _ h hok => h.after hok) hinit hok
    simpa [Ctcp.keyed] using htr.off hnil
  · have hinit : vsp.Tracked ch.isPtt := by
      unfold Vsp.vspCreate at hvsp
      dsimp only at hvsp
      split_ifs at hvsp with hkeys
      · obtain rfl := Option.some.inj hvsp
        exact ⟨.inl rfl, rfl, by simp, by simp, fun _ => rfl, by simp⟩
      · rcases hptt : ch.pttChannel with _ | ptt
        · simp [hptt] at hvsp
        · rw [hptt] at hvsp
          obtain rfl := Option.some.inj hvsp
          refine ⟨.inl rfl, rfl, ?_, ?_, fun _ => rfl, by simp⟩
          · intro hfd
            have hsame : ptt = ch := by
              by_contra hne
              simp [hne] at hfd
            subst hsame
            cases ptt <;> simp_all [Channel.pttChannel, Channel.isPtt]
          · cases ch <;> simp_all [Channel.pttChannel, Channel.isPtt]
    have htr : (Run.run Vsp.step vsp evs).Tracked ch.isPtt :=
      Run.run_inv_of_ok (fun _ _ h hok => h.after hok) hinit hok
    simpa [Vsp.keyed] using htr.off hnil

instance (ctcp : Ctcp) (e : TcpEv) : Decidable (ctcp.Releases e) := by unfold Ctcp.Releases; infer_instance

instance (isPtt : Bool) (vsp : Vsp) (e : VspEv) : Decidable (Vsp.Releases isPtt vsp e) := by
  unfold Vsp.Releases
  infer_instance

/-- A client keys and closes. -/
def keyingRun : List TcpEv :=
  [.connect, .clientSend 0 [PTT_ON_BYTE], .clientIn 0 (some 0) false, .dataOut fun _ => .wrote 0, .clientClose 0,
    .clientIn 0 (some 0) true]

/-- An application raises RTS and closes. -/
def rtsRun : List VspEv := [.dvOpen, .setBits 0 .raise ⟨true, false⟩ true, .dvRelease 0 true]

theorem ptt_released_keying :
    lastPttByte (Ctcp.pttOut (Ctcp.runs true keyingRun).log) ≠ some PTT_ON_BYTE ∧
      ∃ vsp, Vsp.vspCreate .r1 true false = some vsp ∧
        lastPttByte (Vsp.pttOut false (Run.run Vsp.step vsp rtsRun).log) ≠ some PTT_ON_BYTE :=
  ⟨(ptt_released keyingRun .r1 true false rtsRun).1 (by decide) (by decide),
    _, rfl, (ptt_released keyingRun .r1 true false rtsRun).2 _ rfl (by decide) (by decide)⟩

/-- A virtual port on a PTT channel that neither RTS nor DTR keys: the PTT on written to it stays. -/
def unkeyedRun : List VspEv := [.dvOpen, .dvWrite 0 [PTT_ON_BYTE] false, .dataOut (fun _ => .wrote 1) fun _ =>
    true, .dvRelease 0 true]

theorem ptt_not_released :
    ¬ ((∀ evs, (Ctcp.runs true evs).sessionList = [] →
        lastPttByte (Ctcp.pttOut (Ctcp.runs true evs).log) ≠ some PTT_ON_BYTE) ∧
      ∀ (ch : Channel) (pttRts pttDtr : Bool) (vsp : Vsp), Vsp.vspCreate ch pttRts pttDtr = some vsp →
        ∀ evs, (Run.run Vsp.step vsp evs).sessionList = [] →
          lastPttByte (Vsp.pttOut ch.isPtt (Run.run Vsp.step vsp evs).log) ≠ some PTT_ON_BYTE) := by
  rintro ⟨-, h⟩
  exact h .ptt1 false false _ rfl unkeyedRun (by decide) (by decide)

end Mhuxd
