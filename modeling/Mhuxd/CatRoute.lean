import Mhuxd.CatOwn

/-!
# Where the radio's data goes

The log of a run is a `Routed` one: every byte waits until it is passed on or dropped, in the order the
bytes came, and where it goes was decided by a frame completed since the last byte was held, or is the
default. While the connectors have room, what they are given is what the log says (`deliveries`).
-/

namespace Mhuxd

open Catn (isJam defaultOf)

/-- Entries about the radio's data. -/
def CatnObs.isData : CatnObs → Bool
  | .came _ | .held | .frame .. | .passed .. => true
  | _ => false

def CatnObs.isPassed : CatnObs → Bool
  | .passed .. => true
  | _ => false

/-- What a frame of the radio says about the data held with it. -/
inductive CatnObs.Decides : CatnObs → RouteDest → Prop
  /-- It belongs to an own query. -/
  | own {e : Emit} {owner turn : Option Nat} (h : e.frame.own = true) : Decides (.frame e owner turn) .drop
  /-- The debris of a collision that destroyed a command. -/
  | debris {e : Emit} {owner turn : Option Nat} (hj : isJam e.frame = true) (hl : e.lost ≠ 0) :
    Decides (.frame e owner turn) .drop
  | owner {e : Emit} {fd : Nat} {turn : Option Nat} (h : e.frame.own = false) :
    Decides (.frame e (some fd) turn) (.dest (.fd fd))
  | unsolicited {e : Emit} {turn : Option Nat} (h : e.frame.own = false) (hk : e.frame.kind = .unsolicited) :
    Decides (.frame e none turn) (.dest .unsolicited)
  | default {e : Emit} {turn : Option Nat} (h : e.frame.own = false) (hk : e.frame.kind ≠ .unsolicited) :
    Decides (.frame e none turn) (.dest (defaultOf turn))

/-- A destination that frames since the last byte held decided, or the default. -/
def Decided (frames : List CatnObs) (turn : Option Nat) (d : RouteDest) : Prop :=
  d = .dest .all ∨ d = .dest (defaultOf turn) ∨ ∃ o ∈ frames, o.Decides d

/-- The connectors are of the destination. -/
def RouteDest.Has (d : RouteDest) (fds : List Nat) : Prop :=
  match d with
  | .dest (.fd n) => ∀ fd ∈ fds, fd = n
  | .dest _ => True
  | _ => fds = []

/-- The log of a CAT layer, with the frames since the last byte held and the bytes that wait. -/
inductive Routed : List CatnObs → List UInt8 → List CatnObs → Prop
  | nil : Routed [] [] []
  | note {frames log : List CatnObs} {wait : List UInt8} {o : CatnObs} (h : Routed frames wait log)
    (ho : o.isData = false) : Routed frames wait (log ++ [o])
  | came {frames log : List CatnObs} {wait : List UInt8} (b : UInt8) (h : Routed frames wait log) :
    Routed frames (wait ++ [b]) (log ++ [.came b])
  | held {frames log : List CatnObs} {wait : List UInt8} (h : Routed frames wait log) :
    Routed [] wait (log ++ [.held])
  | frame {frames log : List CatnObs} {wait : List UInt8} (e : Emit) (owner turn : Option Nat)
    (h : Routed frames wait log) : Routed (frames ++ [.frame e owner turn]) wait (log ++ [.frame e owner turn])
  | passed {frames log : List CatnObs} {p rest : List UInt8} {d : RouteDest} {turn : Option Nat} {fds : List Nat}
    (h : Routed frames (p ++ rest) log) (hd : Decided frames turn d) (hf : d.Has fds) :
    Routed frames rest (log ++ [.passed p d turn fds])

/-- The bytes that came. -/
def cameBytes (log : List CatnObs) : List UInt8 :=
  log.flatMap fun
    | .came b => [b]
    | _ => []

/-- The bytes passed on or dropped. -/
def passedBytes (log : List CatnObs) : List UInt8 :=
  log.flatMap fun
    | .passed p .. => p
    | _ => []

/-- What the connectors are given if they have room. -/
def deliveries (ch : Channel) (log : List CatnObs) : List Obs :=
  log.flatMap fun
    | .passed p _ _ fds => fds.map fun fd => .deliver fd ch p
    | _ => []

/-- The bytes a connector was given. -/
def bytesFor (fd : Nat) (log : List Obs) : List UInt8 :=
  log.flatMap fun
    | .deliver n _ p => if n = fd then p else []
    | _ => []

@[simp] theorem cameBytes_append (log log' : List CatnObs) :
    cameBytes (log ++ log') = cameBytes log ++ cameBytes log' :=
  List.flatMap_append

@[simp] theorem passedBytes_append (log log' : List CatnObs) :
    passedBytes (log ++ log') = passedBytes log ++ passedBytes log' := List.flatMap_append

@[simp] theorem deliveries_append (ch : Channel) (log log' : List CatnObs) :
    deliveries ch (log ++ log') = deliveries ch log ++ deliveries ch log' := List.flatMap_append

@[simp] theorem bytesFor_append (fd : Nat) (log log' : List Obs) :
    bytesFor fd (log ++ log') = bytesFor fd log ++ bytesFor fd log' := List.flatMap_append

@[simp] theorem deliveries_passed (ch : Channel) (p : List UInt8) (d : RouteDest) (turn : Option Nat)
    (fds : List Nat) :
    deliveries ch [.passed p d turn fds] = fds.map fun fd => .deliver fd ch p := by
  simp [deliveries]

theorem isData_one {o : CatnObs} (h : o.isData = false) : ∀ o' ∈ [o], o'.isData = false := by
  intro o' ho'
  rw [List.mem_singleton.1 ho']
  exact h

theorem deliveries_notes {ch : Channel} {os : List CatnObs} (h : ∀ o ∈ os, o.isData = false) :
    deliveries ch os = [] := by
  refine List.flatMap_eq_nil_iff.2 fun o ho => ?_
  have := h o ho
  cases o with
  | passed => exact Bool.noConfusion this
  | _ => rfl

/-- A connector that takes a chunk once gets it once. -/
theorem bytesFor_chunk (fd : Nat) (ch : Channel) (p : List UInt8) {fds : List Nat} (h : fds.Nodup) :
    bytesFor fd (fds.map fun fd => .deliver fd ch p) = if fd ∈ fds then p else [] := by
  induction fds with
  | nil => rfl
  | cons x fds ih =>
    obtain ⟨hx, hnd⟩ := List.nodup_cons.1 h
    have hcons : bytesFor fd ((x :: fds).map fun fd => .deliver fd ch p) =
        (if x = fd then p else []) ++ bytesFor fd (fds.map fun fd => .deliver fd ch p) := rfl
    rw [hcons, ih hnd]
    by_cases hfd : x = fd
    · subst hfd
      simp [hx]
    · have hne : fd ≠ x := fun h => hfd h.symm
      simp [hfd, hne]

/-- A connector gets some of the chunks, in their order. -/
theorem bytesFor_deliveries (fd : Nat) (ch : Channel) {log : List CatnObs}
    (h : ∀ p d turn fds, CatnObs.passed p d turn fds ∈ log → fds.Nodup) :
    (bytesFor fd (deliveries ch log)).Sublist (passedBytes log) := by
  induction log with
  | nil => exact List.Sublist.refl _
  | cons o log ih =>
    have hrest := ih fun p d turn fds ho => h p d turn fds (List.mem_cons_of_mem _ ho)
    rw [show o :: log = [o] ++ log from rfl, deliveries_append, bytesFor_append, passedBytes_append]
    refine List.Sublist.append ?_ hrest
    cases o with
    | passed p d turn fds =>
      have hnd := h p d turn fds List.mem_cons_self
      rw [deliveries_passed, bytesFor_chunk fd ch p hnd, show passedBytes [.passed p d turn fds] = p by simp [passedBytes]]
      split_ifs
      · exact List.Sublist.refl _
      · exact List.nil_sublist _
    | _ => exact List.nil_sublist _

namespace Routed

variable {frames log : List CatnObs} {wait : List UInt8}

theorem notes (h : Routed frames wait log) {os : List CatnObs} (ho : ∀ o ∈ os, o.isData = false) :
    Routed frames wait (log ++ os) := by
  induction os using List.reverseRecOn with
  | nil => simpa using h
  | append_singleton os o ih =>
    rw [← List.append_assoc]
    exact (ih fun x hx => ho x (List.mem_append_left _ hx)).note (ho o (List.mem_append_right _ (List.mem_singleton_self o)))

/-- No byte is lost, doubled or out of order: those that came are those passed on or dropped and those
that wait. -/
theorem bytes (h : Routed frames wait log) : cameBytes log = passedBytes log ++ wait := by
  induction h with
  | nil => rfl
  | @note _ _ _ o _ ho ih =>
    rw [cameBytes_append, passedBytes_append, ih]
    cases o with
    | came | passed => exact Bool.noConfusion ho
    | _ => simp [cameBytes, passedBytes]
  | came b _ ih =>
    rw [cameBytes_append, passedBytes_append, ih]
    simp [cameBytes, passedBytes]
  | held _ ih | frame _ _ _ _ ih =>
    rw [cameBytes_append, passedBytes_append, ih]
    simp [cameBytes, passedBytes]
  | passed _ _ _ ih =>
    rw [cameBytes_append, passedBytes_append, ih]
    simp [cameBytes, passedBytes]

end Routed

namespace Router

variable {ch : Channel} {p : List UInt8}

/-- Connectors with room are given the data as it is. -/
theorem sendConsumers_room {sel : Consumer → Bool} (cns : List Consumer)
    (h : ∀ fd, Obs.overflow fd ch ∉ (sendConsumers sel p ch cns).2) :
    (sendConsumers sel p ch cns).2 = ((cns.filter sel).map (·.fd)).map fun fd => .deliver fd ch p := by
  induction cns with
  | nil => rfl
  | cons x cns ih =>
    unfold sendConsumers at h ⊢
    dsimp only at h ⊢
    by_cases hs : sel x = true
    · rw [if_pos hs] at h ⊢
      by_cases hr : p.length ≤ x.buf.avail
      · rw [if_pos hr] at h ⊢
        rw [List.filter_cons_of_pos hs, List.map_cons, List.map_cons]
        exact congrArg (List.cons _) (ih fun fd hfd => h fd (List.mem_cons_of_mem _ hfd))
      · rw [if_neg hr] at h
        exact absurd List.mem_cons_self (h x.fd)
    · rw [if_neg hs] at h ⊢
      rw [List.filter_cons_of_neg hs]
      exact ih h

theorem keyerDeliver_room (cns : List Consumer) (h : ∀ fd, Obs.overflow fd ch ∉ (keyerDeliver p ch cns).2) :
    (keyerDeliver p ch cns).2 = (cns.map (·.fd)).map fun fd => .deliver fd ch p := by
  induction cns with
  | nil => rfl
  | cons x cns ih =>
    unfold keyerDeliver at h ⊢
    dsimp only at h ⊢
    by_cases hr : (p.take x.buf.avail).length < p.length
    · rw [if_pos hr] at h
      exact absurd (by simp) (h x.fd)
    · rw [if_neg hr] at h ⊢
      have htake : p.take x.buf.avail = p := by
        rw [List.length_take] at hr
        exact List.take_of_length_le (by omega)
      rw [htake, List.map_cons, List.map_cons]
      refine congrArg (List.cons _) (ih fun fd hfd => h fd ?_)
      exact List.mem_cons_of_mem _ (List.mem_append_right _ hfd)

end Router

namespace Catn

variable {cn cn' : Catn}

/-- Without an overflow the connectors were given what the log says. -/
def Given (cn : Catn) : Prop :=
  (∀ fd, Obs.overflow fd cn.channel ∉ cn.router.outLog cn.channel) →
    cn.router.outLog cn.channel = deliveries cn.channel cn.log

theorem Given.of_eq (h : Given cn) (ho : cn'.router.outLog cn.channel = cn.router.outLog cn.channel)
    (h2 : cn'.radio2 = cn.radio2) (hl : deliveries cn.channel cn'.log = deliveries cn.channel cn.log) :
    Given cn' := by
  intro hroom
  rw [channel_eq h2, ho] at hroom ⊢
  rw [hl]
  exact h hroom

/-- Something more is passed on. -/
theorem Given.more (h : Given cn) {out given : List Obs}
    (ho : cn'.router.outLog cn.channel = cn.router.outLog cn.channel ++ out) (h2 : cn'.radio2 = cn.radio2)
    (hl : deliveries cn.channel cn'.log = deliveries cn.channel cn.log ++ given)
    (hout : (∀ fd, Obs.overflow fd cn.channel ∉ out) → out = given) : Given cn' := by
  intro hroom
  rw [channel_eq h2, ho] at hroom ⊢
  have hold : ∀ fd, Obs.overflow fd cn.channel ∉ cn.router.outLog cn.channel :=
    fun fd hfd => hroom fd (List.mem_append_left _ hfd)
  have hnew : ∀ fd, Obs.overflow fd cn.channel ∉ out := fun fd hfd => hroom fd (List.mem_append_right _ hfd)
  rw [hl, h hold, hout hnew]

/-- Every byte that came was passed on, dropped or waits, and where the held ones go is decided. -/
structure RouteInv (cn : Catn) : Prop where
  routed : ∃ frames, Routed frames cn.routeBuf cn.log ∧
    (cn.routeDest ≠ .none → ∃ o ∈ frames, o.Decides cn.routeDest)
  given : Given cn

namespace RouteInv

/-- Nothing about the radio's data changes. -/
theorem of_notes (h : RouteInv cn) (ho : cn'.router.outLog cn.channel = cn.router.outLog cn.channel)
    (h2 : cn'.radio2 = cn.radio2) (hb : cn'.routeBuf = cn.routeBuf) (hd : cn'.routeDest = cn.routeDest)
    {os : List CatnObs} (hl : cn'.log = cn.log ++ os) (hos : ∀ o ∈ os, o.isData = false) : RouteInv cn' := by
  obtain ⟨frames, hr, hdec⟩ := h.routed
  refine ⟨⟨frames, ?_, ?_⟩, h.given.of_eq ho h2 ?_⟩
  · rw [hb, hl]
    exact hr.notes hos
  · rwa [hd]
  · rw [hl, deliveries_append, deliveries_notes hos, List.append_nil]

theorem takers_has (cn : Catn) (d : RouteDest) : d.Has (cn.takers d) := by
  cases d with
  | none | drop => rfl
  | dest d =>
    cases d with
    | all | unsolicited => trivial
    | fd n =>
      intro fd hfd
      obtain ⟨x, hx, rfl⟩ := List.mem_map.1 hfd
      simpa [Dest.takes] using (List.mem_filter.1 hx).2

/-- What `routeFlush` keeps: the byte `b` that came since, if one did, waits. -/
theorem routeFlush (h : RouteInv cn) {d : RouteDest}
    (hd : d = .dest .all ∨ d = .dest cn.routeDefault ∨ (d ≠ .none ∧ d = cn.routeDest)) :
    RouteInv (cn.routeFlush d) := by
  by_cases hb : cn.routeBuf = []
  · rw [routeFlush_empty hb]
    exact ⟨h.routed, h.given⟩
  · have hf : Flushed d _ cn _ := routeFlush_flushed hb
    obtain ⟨frames, hr, hdec⟩ := h.routed
    have hdd : Decided frames cn.turnFd d := by
      rcases hd with hd | hd | ⟨hne, hd⟩
      · exact .inl hd
      · exact .inr (.inl hd)
      · exact .inr (.inr (hd ▸ hdec (hd ▸ hne)))
    refine ⟨⟨frames, ?_, ?_⟩, ?_⟩
    · rw [hf.routeBuf, hf.log]
      exact .passed (by rwa [List.append_nil]) hdd (takers_has cn d)
    · rwa [hf.routeDest]
    · refine h.given.more hf.out hf.radio2 (by rw [hf.log, deliveries_append, deliveries_passed]) fun hroom => ?_
      cases d with
      | none | drop => rfl
      | dest d => exact Router.sendConsumers_room _ hroom

/-- A byte is put into the route buffer, after what was held if the buffer is full. -/
theorem hold_byte (h : RouteInv cn) (b : UInt8) : RouteInv ((cn.obs (.came b)).routeRoom.routeHold b) := by
  obtain ⟨frames, hr, -⟩ := h.routed
  have hcame : Given (cn.obs (.came b)) := h.given.of_eq rfl rfl (by simp [obs, deliveries])
  unfold routeRoom
  split_ifs with hfull
  · have hb : (cn.obs (.came b)).routeBuf ≠ [] := by
      intro hnil
      rw [hnil] at hfull
      exact absurd hfull (by decide)
    have hf : Flushed (.dest (cn.obs (.came b)).routeDefault) _ (cn.obs (.came b)) _ := routeFlush_flushed hb
    have hheld : ((cn.obs (.came b)).routeFlush (.dest (cn.obs (.came b)).routeDefault)).routeHold b =
        { ((cn.obs (.came b)).routeFlush (.dest (cn.obs (.came b)).routeDefault)).obs .held with
          routeBuf := [b]
          routeDest := .none
          radioFrameDone := false } := by
      rw [routeHold, hf.routeBuf]
      rfl
    rw [hheld]
    refine ⟨⟨[], ?_, fun hne => absurd rfl hne⟩, ?_⟩
    · show Routed [] [b] (_ ++ [.held])
      rw [hf.log]
      exact .held (.passed (hr.came b) (.inr (.inl rfl)) (takers_has _ _))
    · refine hcame.more hf.out hf.radio2 ?_ fun hroom => Router.sendConsumers_room _ hroom
      show deliveries _ (_ ++ [.held]) = _
      rw [hf.log, deliveries_append, deliveries_append, deliveries_passed]
      exact List.append_nil _
  · refine ⟨⟨[], ?_, fun hne => absurd rfl hne⟩, hcame.of_eq rfl rfl ?_⟩
    · exact (hr.came b).held
    · show deliveries _ (_ ++ [.held]) = _
      rw [deliveries_append]
      exact List.append_nil _

theorem frameDest_decides {e : Emit} (hown : e.frame.own = false) :
    (CatnObs.frame e (cn.fdOf e.frame.client) cn.turnFd).Decides (cn.frameDest e) := by
  unfold frameDest
  dsimp only
  split_ifs with hjam hk
  · exact .debris hjam.1 hjam.2.2.2
  · cases cn.fdOf e.frame.client with
    | none => exact .unsolicited hown hk
    | some fd => exact .owner hown
  · cases cn.fdOf e.frame.client with
    | none => exact .default hown hk
    | some fd => exact .owner hown

theorem frameCb (h : RouteInv cn) (e : Emit) : RouteInv (cn.frameCb e) := by
  rcases cn.frameCb_cases e with hf | hf
  · rwa [hf]
  · obtain ⟨frames, hr, hdec⟩ := h.routed
    obtain ⟨os, hos, hl⟩ : ∃ os, (∀ o ∈ os, CatnObs.isData o = false) ∧
        (cn.frameCb e).log = cn.log ++ [.frame e (cn.fdOf e.frame.client) cn.turnFd] ++ os := by
      rcases hf.own with ⟨-, -, -, hl⟩ | ⟨-, -, -, -, -, hl⟩
      · exact ⟨[], by simp, by rw [hl, List.append_nil]⟩
      · exact ⟨[.ended], isData_one rfl, by rw [hl, List.append_assoc]; rfl⟩
    refine ⟨⟨frames ++ [.frame e (cn.fdOf e.frame.client) cn.turnFd], ?_, fun hne => ?_⟩, ?_⟩
    · rw [hf.routeBuf, hl]
      exact (hr.frame _ _ _).notes hos
    · rcases hf.routeDest with hd | ⟨hown, hd⟩ | ⟨hown, hd⟩
      · rw [hd] at hne ⊢
        obtain ⟨o, ho, hdo⟩ := hdec hne
        exact ⟨o, List.mem_append_left _ ho, hdo⟩
      · rw [hd]
        exact ⟨_, List.mem_append_right _ (List.mem_singleton_self _), .own hown⟩
      · rw [hd]
        refine ⟨_, List.mem_append_right _ (List.mem_singleton_self _), ?_⟩
        exact frameDest_decides hown
    · refine h.given.of_eq hf.out hf.radio2 ?_
      rw [hl, deliveries_append, deliveries_append, deliveries_notes hos, List.append_nil]
      exact List.append_nil _

theorem ownEnd (h : RouteInv cn) {o : CatnObs} (ho : o.isData = false) : RouteInv (cn.obs o).ownEnd := by
  have h0 : RouteInv (cn.obs o) := h.of_notes rfl rfl rfl rfl rfl (by simpa using ho)
  by_cases hact : (cn.obs o).ownActive = true
  · have he := ownEnd_active hact
    exact h0.of_notes (congrArg (List.filter _) he.out) he.radio2 he.routeBuf he.routeDest he.log
      (isData_one rfl)
  · rwa [ownEnd_idle (by simpa using hact)]

theorem act (h : RouteInv cn) (hg : Gate cn) (ha : Act cn cn') : RouteInv cn' := by
  cases ha with
  | hold b hr => exact h.hold_byte b
  | aside ha =>
    exact h.of_notes ha.router.out ha.radio2 ha.routeBuf ha.routeDest (ha.log.trans (List.append_nil _).symm)
      (by simp)
  | frame e => exact h.frameCb e
  | flush hd =>
    rcases hd with rfl | rfl
    · exact h.routeFlush (.inl rfl)
    · exact h.routeFlush (.inr (.inl rfl))
  | flushDone hne => exact h.routeFlush (.inr (.inr ⟨hne, rfl⟩))
  | start =>
    unfold routeStart
    split_ifs with hr
    · exact h
    · have hb : cn.routeBuf = [] := hg.buf (by simpa using hr)
      rw [intercept_channel, ← hb]
      exact ⟨h.routed, h.given⟩
  | stop hb =>
    rw [intercept_channel]
    exact ⟨h.routed, h.given⟩
  | timeout => exact h.ownEnd rfl
  | reset => exact h.ownEnd rfl
  | query hq =>
    obtain ⟨p, turn, fresh, hl, -⟩ := hq.log
    exact h.of_notes hq.out hq.radio2 hq.routeBuf hq.routeDest hl (isData_one rfl)
  | catOn p hidle ht => exact h.of_notes rfl rfl rfl rfl rfl (isData_one rfl)
  | again p pending hact hl => exact h.of_notes rfl rfl rfl rfl rfl (isData_one rfl)
  | unsent hidle =>
    have hl : ((cn.holdProducers true).holdProducers false).router.log = cn.router.log :=
      ((cn.holdProducers true).holdProducers_router false).2.2.trans (cn.holdProducers_router true).2.2
    exact h.of_notes (congrArg (List.filter _) hl) rfl rfl rfl (List.append_nil _).symm (by simp)

/-- A byte that the router passes on itself: nothing was held. -/
theorem direct (h : RouteInv cn) (hg : Gate cn) {b : UInt8} (hd : Direct b cn cn') : RouteInv cn' := by
  have hb : cn.routeBuf = [] := hg.buf (hg.intercept.symm.trans hd.open_)
  obtain ⟨frames, hr, hdec⟩ := h.routed
  rw [hb] at hr
  refine ⟨⟨frames, ?_, ?_⟩, ?_⟩
  · rw [hd.routeBuf, hb, hd.log, show ∀ o o' : CatnObs, cn.log ++ [o, o'] = cn.log ++ [o] ++ [o'] by simp]
    exact .passed (hr.came b) (.inl rfl) (takers_has cn _)
  · rwa [hd.routeDest]
  · have hl : deliveries cn.channel cn'.log = deliveries cn.channel cn.log ++
        (cn.takers (.dest .all)).map fun fd => .deliver fd cn.channel [b] := by
      rw [hd.log, deliveries_append]
      exact congrArg (_ ++ ·) (deliveries_passed _ [b] (.dest .all) cn.turnFd _)
    refine h.given.more hd.out hd.radio2 hl fun hroom => ?_
    rw [takers_all]
    exact Router.keyerDeliver_room _ hroom

theorem move (h : RouteInv cn) (hq : Quiet cn) (hm : Move cn cn') : RouteInv cn' := by
  cases hm with
  | acts ha hev =>
    have hinv : Gate cn' ∧ RouteInv cn' :=
      hev.inv (I := fun cn => Gate cn ∧ RouteInv cn) (fun ha hI => ⟨hI.1.act ha, hI.2.act hI.1 ha⟩) ⟨hq.toGate, h⟩
    exact hinv.2
  | aside ha => exact h.act hq.toGate (.aside ha)
  | direct b hd => exact h.direct hq.toGate hd
  | fresh cfg hr ha =>
    obtain ⟨frames, hrt, -⟩ := h.routed
    refine ⟨⟨frames, ?_, fun hne => absurd rfl hne⟩, h.given⟩
    rw [hq.buf hr] at hrt
    exact hrt
  | die hr ha => exact ⟨h.routed, h.given⟩

theorem withConsumer (h : RouteInv cn) (fd : Nat) : RouteInv (cn.withConsumer fd) := by
  obtain ⟨-, -, hl⟩ := @Router.addConsumer_rest cn.router fd cn.channel
  exact h.of_notes (congrArg (List.filter _) hl) rfl rfl rfl (List.append_nil _).symm (by simp)

end RouteInv

/-! ### Connectors are given a chunk once -/

/-- The connectors are distinct, and were so when something was passed on. -/
structure Distinct (cn : Catn) : Prop where
  now : (cn.router.consumerFds cn.channel).Nodup
  passed : ∀ p d turn fds, CatnObs.passed p d turn fds ∈ cn.log → fds.Nodup

namespace Distinct

/-- A step that passes nothing on. -/
theorem of_notes (h : Distinct cn) (h2 : cn'.radio2 = cn.radio2)
    (hc : (cn'.router.consumerFds cn.channel).Sublist (cn.router.consumerFds cn.channel)) {os : List CatnObs}
    (hl : cn'.log = cn.log ++ os) (hos : ∀ o ∈ os, o.isPassed = false) : Distinct cn' := by
  refine ⟨by rw [channel_eq h2]; exact h.now.sublist hc, fun p d turn fds hp => ?_⟩
  rw [hl] at hp
  rcases List.mem_append.1 hp with hp | hp
  · exact h.passed p d turn fds hp
  · exact Bool.noConfusion (hos _ hp)

theorem takers (h : Distinct cn) (d : RouteDest) : (cn.takers d).Nodup := by
  cases d with
  | none | drop => exact List.nodup_nil
  | dest d => exact h.now.sublist (List.filter_sublist.map _)

/-- A step that passes something on to the connectors there are. -/
theorem of_passed (h : Distinct cn) (h2 : cn'.radio2 = cn.radio2)
    (hc : cn'.router.consumerFds cn.channel = cn.router.consumerFds cn.channel) {os : List CatnObs} {p : List UInt8}
    {d : RouteDest} {turn : Option Nat} (hl : cn'.log = cn.log ++ os ++ [.passed p d turn (cn.takers d)])
    (hos : ∀ o ∈ os, o.isPassed = false) : Distinct cn' := by
  refine ⟨by rw [channel_eq h2, hc]; exact h.now, fun p' d' turn' fds hp => ?_⟩
  rw [hl] at hp
  rcases List.mem_append.1 hp with hp | hp
  · rcases List.mem_append.1 hp with hp | hp
    · exact h.passed p' d' turn' fds hp
    · exact Bool.noConfusion (hos _ hp)
  · obtain ⟨-, -, -, rfl⟩ := CatnObs.passed.inj (List.mem_singleton.1 hp)
    exact h.takers d

theorem routeFlush (h : Distinct cn) (d : RouteDest) : Distinct (cn.routeFlush d) := by
  by_cases hb : cn.routeBuf = []
  · rw [routeFlush_empty hb]
    exact ⟨h.now, h.passed⟩
  · have hf : Flushed d _ cn _ := routeFlush_flushed hb
    have hl : (cn.routeFlush d).log = cn.log ++ [] ++ [.passed cn.routeBuf d cn.turnFd (cn.takers d)] := by
      rw [hf.log, List.append_nil]
    exact h.of_passed hf.radio2 hf.consumers hl (by simp)

theorem obs (h : Distinct cn) {o : CatnObs} (ho : o.isPassed = false) : Distinct (cn.obs o) :=
  h.of_notes rfl (.refl _) rfl (by simpa using ho)

theorem ownEnd (h : Distinct cn) : Distinct cn.ownEnd := by
  by_cases hact : cn.ownActive = true
  · have he := ownEnd_active hact
    refine h.of_notes he.radio2 ?_ he.log (by simp [CatnObs.isPassed])
    rw [Router.consumerFds, he.consumers]
    exact .refl _
  · rwa [ownEnd_idle (by simpa using hact)]

theorem frameCb (h : Distinct cn) (e : Emit) : Distinct (cn.frameCb e) := by
  rcases cn.frameCb_cases e with hf | hf
  · rwa [hf]
  · have hc : ((cn.frameCb e).router.consumerFds cn.channel).Sublist (cn.router.consumerFds cn.channel) := by
      rw [Router.consumerFds, hf.consumers]
      exact .refl _
    rcases hf.own with ⟨-, -, -, hl⟩ | ⟨-, -, -, -, -, hl⟩
    · exact h.of_notes hf.radio2 hc hl (by simp [CatnObs.isPassed])
    · exact h.of_notes hf.radio2 hc hl (by simp [CatnObs.isPassed])

theorem act (h : Distinct cn) (ha : Act cn cn') : Distinct cn' := by
  cases ha with
  | hold b hr =>
    have hroom : Distinct (cn.obs (.came b)).routeRoom := by
      unfold routeRoom
      split_ifs
      · exact (h.obs rfl).routeFlush _
      · exact h.obs rfl
    exact hroom.of_notes rfl (.refl _) rfl (by simp [CatnObs.isPassed])
  | aside ha => exact h.of_notes ha.radio2 ha.router.consumers (ha.log.trans (List.append_nil _).symm) (by simp)
  | frame e => exact h.frameCb e
  | flush => exact h.routeFlush _
  | flushDone => exact h.routeFlush _
  | start =>
    unfold routeStart
    split_ifs
    · exact h
    · rw [intercept_channel]
      exact ⟨h.now, h.passed⟩
  | stop hb =>
    rw [intercept_channel]
    exact ⟨h.now, h.passed⟩
  | timeout => exact (h.obs rfl).ownEnd
  | reset => exact (h.obs rfl).ownEnd
  | query hq =>
    obtain ⟨p, turn, fresh, hl, -⟩ := hq.log
    exact h.of_notes hq.radio2 hq.consumers hl (by simp [CatnObs.isPassed])
  | catOn => exact h.obs rfl
  | again => exact h.obs rfl
  | unsent =>
    have hc : ((cn.holdProducers true).holdProducers false).router.consumers = cn.router.consumers :=
      (holdProducers_consumers _ _).trans (holdProducers_consumers _ _)
    refine h.of_notes rfl ?_ (List.append_nil _).symm (by simp)
    rw [Router.consumerFds, hc]
    exact .refl _

theorem move (h : Distinct cn) (hm : Move cn cn') : Distinct cn' := by
  cases hm with
  | acts _ hev => exact hev.inv (fun ha hd => hd.act ha) h
  | aside ha => exact h.act (.aside ha)
  | direct b hd =>
    have hl : cn'.log = cn.log ++ [.came b] ++ [.passed [b] (.dest .all) cn.turnFd (cn.takers (.dest .all))] := by
      rw [hd.log, List.append_assoc]
      rfl
    exact h.of_passed hd.radio2 hd.consumers hl (by simp [CatnObs.isPassed])
  | fresh => exact ⟨h.now, h.passed⟩
  | die => exact ⟨h.now, h.passed⟩

theorem withConsumer (h : Distinct cn) {fd : Nat} (hfd : fd ∉ cn.router.consumerFds cn.channel) :
    Distinct (cn.withConsumer fd) := by
  refine ⟨List.Nodup.sublist (Router.addConsumer_fds fd) ?_, h.passed⟩
  rw [List.nodup_append]
  refine ⟨h.now, List.nodup_singleton fd, fun x hx y hy => ?_⟩
  rw [List.mem_singleton.1 hy]
  exact ne_of_mem_of_not_mem hx hfd

end Distinct

/-- A connector that is added to the radio's channel isn't there. -/
def NewConsumer (cn : Catn) : CatnEv → Prop
  | .router (.addConsumer fd ch) => ch = cn.channel → fd ∉ cn.router.consumerFds ch
  | _ => True

instance (cn : Catn) (e : CatnEv) : Decidable (cn.NewConsumer e) := by
  unfold NewConsumer
  split <;> infer_instance

theorem distinct_run {hasFlags radio2 : Bool} {evs : List CatnEv}
    (hok : Run.StepsOk step NewConsumer (init hasFlags radio2) evs) : Distinct (runs hasFlags radio2 evs) := by
  have hstep : ∀ (cn : Catn) e, (Quiet cn ∧ Distinct cn) → cn.NewConsumer e →
      Quiet (cn.step e) ∧ Distinct (cn.step e) := by
    rintro cn e ⟨hq, h⟩ hnew
    refine step_inv (fun _ hm hd => hd.move hm) hq h fun fd he => h.withConsumer ?_
    rw [he] at hnew
    exact hnew rfl
  exact (Run.run_inv_of_ok hstep ⟨quiet_init hasFlags radio2, List.nodup_nil, nofun⟩ hok).2

theorem overflow_out (r : Router) (fd : Nat) (ch : Channel) :
    Obs.overflow fd ch ∈ r.outLog ch ↔ Obs.overflow fd ch ∈ r.log := by
  simp [Router.outLog, Obs.isOut]

/-- In every run each byte that came on the radio's channel was passed on or dropped once, or waits, in
the order they came; where held bytes go was decided by a frame that ends with the last of them, or is the
default. While the connectors' buffers aren't full they are given just that, each a part of the radio's
data in its order if it is given a chunk once; and it is if no connector is added that is there. -/
theorem radio_bytes_routed (hasFlags radio2 : Bool) (evs : List CatnEv) :
    let cn := runs hasFlags radio2 evs
    (∃ frames, Routed frames cn.routeBuf cn.log) ∧ cameBytes cn.log = passedBytes cn.log ++ cn.routeBuf ∧
      ((∀ fd, Obs.overflow fd cn.channel ∉ cn.router.log) →
        cn.router.outLog cn.channel = deliveries cn.channel cn.log ∧
        ((∀ p d turn fds, CatnObs.passed p d turn fds ∈ cn.log → fds.Nodup) →
          ∀ fd, (bytesFor fd (cn.router.outLog cn.channel)).Sublist (cameBytes cn.log))) ∧
      (Run.StepsOk step NewConsumer (init hasFlags radio2) evs →
        ∀ p d turn fds, CatnObs.passed p d turn fds ∈ cn.log → fds.Nodup) := by
  have h0 : RouteInv (init hasFlags radio2) := ⟨⟨[], .nil, fun hne => absurd rfl hne⟩, fun _ => rfl⟩
  obtain ⟨-, h⟩ := runs_inv (fun hq hm h => h.move hq hm) (fun fd h => h.withConsumer fd) h0 evs
  obtain ⟨frames, hr, -⟩ := h.routed
  refine ⟨⟨frames, hr⟩, hr.bytes, fun hroom => ?_, fun hok => (distinct_run hok).passed⟩
  have hgiven := h.given fun fd hfd => hroom fd ((overflow_out _ _ _).1 hfd)
  refine ⟨hgiven, fun hnd fd => ?_⟩
  rw [hgiven, hr.bytes]
  exact (bytesFor_deliveries fd _ hnd).trans (List.sublist_append_left _ _)

/-- An IC-7300 with two connectors answers mhuxd's query, and sends its frequency to all. -/
def twoRun : List CatnEv :=
  [.router (.setKeyerFd (some 3)), .router (.addConsumer 10 .r1), .router (.addConsumer 12 .r1),
    .speed (some (0x88, 0x94)), .keyerState true, .wait 20000000, .create ⟨.auto, 0, true, true⟩, .wait 200000, .tick] ++
    radioData ([0xfe, 0xfe, 0x94, 0xe5, 0x03, 0xfd] ++ [0xfe, 0xfe, 0xe5, 0x94, 0x03, 0x00, 0x40, 0x07, 0x14, 0x00, 0xfd] ++
      [0xfe, 0xfe, 0x00, 0x94, 0x00, 0x00, 0x50, 0x07, 0x14, 0x00, 0xfd])

/-- Only the last frame is for the connectors. -/
theorem radio_bytes_routed_two :
    bytesFor 12 ((runs false false twoRun).router.outLog .r1) =
        [0xfe, 0xfe, 0x00, 0x94, 0x00, 0x00, 0x50, 0x07, 0x14, 0x00, 0xfd] ∧
      (runs false false twoRun).router.outLog .r1 = deliveries .r1 (runs false false twoRun).log ∧
      ∀ fd, (bytesFor fd ((runs false false twoRun).router.outLog .r1)).Sublist (cameBytes (runs false false twoRun).log) := by
  have hroom : ((runs false false twoRun).router.log.all fun | .overflow .. => false | _ => true) = true := by
    decide +kernel
  rw [List.all_eq_true] at hroom
  obtain ⟨-, -, hgives, hdistinct⟩ := radio_bytes_routed false false twoRun
  obtain ⟨hgiven, hparts⟩ := hgives fun fd hfd => by simpa using hroom _ hfd
  have hch : (runs false false twoRun).channel = .r1 := by decide +kernel
  rw [hch] at hgiven hparts
  exact ⟨by decide +kernel, hgiven, hparts (hdistinct (by decide +kernel))⟩

/-- An IC-7300 is asked for its frequency by mhuxd itself, and the bus echoes the query. -/
def echoRun : List CatnEv :=
  [.router (.setKeyerFd (some 3)), .speed (some (0x88, 0x94)), .keyerState true, .wait 20000000,
    .create ⟨.auto, 0, true, true⟩, .wait 200000, .tick] ++ radioData [0xfe, 0xfe, 0x94, 0xe5, 0x03, 0xfd]

/-- What is dropped after a frame is not only answers to own queries and debris: the echo of the query is
dropped too. -/
theorem echo_dropped :
    ¬ ∀ (hasFlags radio2 : Bool) (evs : List CatnEv) (log : List CatnObs) (e : Emit)
    (owner turn turn' : Option Nat)
      (p : List UInt8) (fds : List Nat),
      (runs hasFlags radio2 evs).log = log ++ [.held, .frame e owner turn, .passed p .drop turn' fds] →
      (e.frame.own = true ∧ e.frame.kind ≠ .echo) ∨ (isJam e.frame = true ∧ e.lost ≠ 0) := by
  intro h
  have hlog : (runs false false echoRun).log = (runs false false echoRun).log.take 13 ++
      [.held, .frame ⟨⟨.echo, .radio, 20200, [0xfe, 0xfe, 0x94, 0xe5, 0x03, 0xfd], false, true, 0⟩, 0⟩ none none,
        .passed [0xfe, 0xfe, 0x94, 0xe5, 0x03, 0xfd] .drop none []] := by
    decide +kernel
  exact absurd (h false false echoRun _ _ _ _ _ _ _ hlog) (by simp [isJam])

end Catn

end Mhuxd
