import Mhuxd.CatActs

/-!
# The own query in flight

At most one own query is in flight, the channel is held exactly while one is, and its timer runs. What
the log says of it is an `OwnRun`: it was sent when nothing was pending and nobody had the line, is
repeated only when commands were lost in a collision, and ends with a frame of its own, its timeout or a
reset.
-/

namespace Mhuxd

/-- Entries about sending own commands and the end of a query. -/
def CatnObs.isOwn : CatnObs → Bool
  | .query .. | .catOn .. | .again .. | .ended => true
  | _ => false

/-- An own command is sent, for the first time or again, only with nothing pending. -/
def CatnObs.sentAlone : CatnObs → Prop
  | .query _ pending .. | .catOn _ pending .. | .again _ _ pending => pending = (false, false)
  | _ => True

/-- The log of a CAT layer with a query in flight, or none. -/
inductive OwnRun : Bool → List CatnObs → Prop
  | nil : OwnRun false []
  | note {active : Bool} {log : List CatnObs} {o : CatnObs} (h : OwnRun active log) (ho : o.isOwn = false) :
    OwnRun active (log ++ [o])
  | query {log : List CatnObs} {p : List UInt8} {turn : Option Nat} {fresh : Bool} (h : OwnRun false log)
    (ht : turn = none ∨ fresh = true) : OwnRun true (log ++ [.query p (false, false) turn fresh])
  | catOn {log : List CatnObs} {p : List UInt8} {turn : Option Nat} {fresh : Bool} (h : OwnRun false log)
    (ht : turn = none ∨ fresh = true) : OwnRun false (log ++ [.catOn p (false, false) turn fresh])
  | again {log : List CatnObs} {p : List UInt8} {lost : Nat} {pending : Bool × Bool} (h : OwnRun true log)
    (hl : lost ≠ 0) : OwnRun true (log ++ [.again p lost pending])
  | answered {log : List CatnObs} {e : Emit} {owner turn : Option Nat} (h : OwnRun true log)
    (hown : e.frame.own = true) (hk : e.frame.kind ≠ .echo) : OwnRun false (log ++ [.frame e owner turn, .ended])
  | timeout {log : List CatnObs} (h : OwnRun true log) : OwnRun false (log ++ [.timeout, .ended])
  | reset {log : List CatnObs} (h : OwnRun true log) : OwnRun false (log ++ [.reset, .ended])

namespace OwnRun

variable {active : Bool} {log : List CatnObs}

theorem notes (h : OwnRun active log) {os : List CatnObs} (ho : ∀ o ∈ os, o.isOwn = false) :
    OwnRun active (log ++ os) := by
  induction os using List.reverseRecOn with
  | nil => simpa using h
  | append_singleton os o ih =>
    rw [← List.append_assoc]
    exact (ih fun x hx => ho x (List.mem_append_left _ hx)).note (ho o (List.mem_append_right _ (List.mem_singleton_self o)))

end OwnRun

namespace Catn

variable {cn cn' : Catn}

/-- The channel is held exactly while a query is in flight, and its timer runs. -/
structure OwnInv (cn : Catn) : Prop where
  hold : cn.router.hold cn.channel = cn.ownActive
  timer : cn.ownActive = true → cn.ownTimer.isSome = true
  run : OwnRun cn.ownActive cn.log

namespace OwnInv

/-- Nothing about the own query changes but entries of the log. -/
theorem of_notes (h : OwnInv cn) (hh : cn'.router.hold cn.channel = cn.router.hold cn.channel)
    (h2 : cn'.radio2 = cn.radio2) (ha : cn'.ownActive = cn.ownActive)
    (ht : cn.ownActive = true → cn.ownTimer.isSome = true → cn'.ownTimer.isSome = true) {os : List CatnObs}
    (hl : cn'.log = cn.log ++ os) (ho : ∀ o ∈ os, o.isOwn = false) : OwnInv cn' where
  hold := by rw [channel_eq h2, hh, ha, h.hold]
  timer := fun hact => ht (ha.symm.trans hact) (h.timer (ha.symm.trans hact))
  run := by
    rw [ha, hl]
    exact h.run.notes ho

theorem routeFlush (h : OwnInv cn) (dest : RouteDest) : OwnInv (cn.routeFlush dest) := by
  by_cases hb : cn.routeBuf = []
  · rw [routeFlush_empty hb]
    exact ⟨h.hold, h.timer, h.run⟩
  · have hf : Flushed dest _ cn _ := routeFlush_flushed hb
    exact h.of_notes (congrFun hf.hold _) hf.radio2 hf.ownActive (fun _ ht => by rwa [hf.ownTimer]) hf.log
      (by simp [CatnObs.isOwn])

theorem frameCb (h : OwnInv cn) (e : Emit) : OwnInv (cn.frameCb e) := by
  rcases cn.frameCb_cases e with hf | hf
  · rwa [hf]
  · rcases hf.own with ⟨ha, hh, ht, hl⟩ | ⟨hown, hk, hact, ha, hh, hl⟩
    · exact h.of_notes hh hf.radio2 ha (fun _ h => by rwa [ht]) hl (by simp [CatnObs.isOwn])
    · refine ⟨?_, fun hact' => absurd (ha.symm.trans hact') (by decide), ?_⟩
      · rw [channel_eq hf.radio2, hh, ha]
      · rw [ha, hl]
        exact (hact ▸ h.run).answered hown hk

/-- The query in flight ends; `o` says why. -/
theorem ownEnd (h : OwnInv cn) {o : CatnObs} (ho : o.isOwn = false)
    (hrun : OwnRun true cn.log → OwnRun false (cn.log ++ [o, .ended])) : OwnInv (cn.obs o).ownEnd := by
  by_cases hact : cn.ownActive = true
  · have he := ownEnd_active (show (cn.obs o).ownActive = true from hact)
    refine ⟨?_, fun h' => absurd (he.active.symm.trans h') (by decide), ?_⟩
    · rw [channel_eq he.radio2, he.active]
      exact he.hold
    · rw [he.active, he.log]
      exact (List.append_assoc cn.log [o] [.ended]) ▸ hrun (hact ▸ h.run)
  · have hidle : cn.ownActive = false := by simpa using hact
    rw [ownEnd_idle (show (cn.obs o).ownActive = false from hidle)]
    exact h.of_notes rfl rfl rfl (fun _ ht => ht) rfl (by simpa using ho)

theorem hold_byte (h : OwnInv cn) (b : UInt8) : OwnInv ((cn.obs (.came b)).routeRoom.routeHold b) := by
  have h0 : OwnInv (cn.obs (.came b)) := h.of_notes rfl rfl rfl (fun _ ht => ht) rfl (by simp [CatnObs.isOwn])
  have h1 : OwnInv (cn.obs (.came b)).routeRoom := by
    unfold routeRoom
    split_ifs
    · exact h0.routeFlush _
    · exact h0
  exact h1.of_notes rfl rfl rfl (fun _ ht => ht) rfl (by simp [CatnObs.isOwn])

theorem act (h : OwnInv cn) (ha : Act cn cn') : OwnInv cn' := by
  cases ha with
  | hold b hr => exact h.hold_byte b
  | aside ha =>
    exact h.of_notes ha.router.hold ha.radio2 ha.ownActive ha.ownTimer (ha.log.trans (List.append_nil _).symm) (by simp)
  | frame e => exact h.frameCb e
  | flush => exact h.routeFlush _
  | flushDone => exact h.routeFlush _
  | start =>
    unfold routeStart
    split_ifs
    · exact h
    · rw [intercept_channel]
      exact ⟨h.hold, h.timer, h.run⟩
  | stop hb =>
    rw [intercept_channel]
    exact ⟨h.hold, h.timer, h.run⟩
  | timeout => exact h.ownEnd rfl OwnRun.timeout
  | reset => exact h.ownEnd rfl OwnRun.reset
  | query hq =>
    obtain ⟨p, turn, fresh, hl, ht⟩ := hq.log
    refine ⟨?_, fun _ => hq.timer, ?_⟩
    · rw [channel_eq hq.radio2, hq.hold, hq.active]
    · rw [hq.active, hl]
      exact (hq.idle ▸ h.run).query ht
  | catOn p hidle ht =>
    refine ⟨h.hold, h.timer, ?_⟩
    show OwnRun cn.ownActive _
    rw [hidle]
    exact (hidle ▸ h.run).catOn ht
  | again p pending hact hl =>
    refine ⟨h.hold, h.timer, ?_⟩
    show OwnRun cn.ownActive _
    rw [hact]
    exact (hact ▸ h.run).again hl
  | unsent hidle =>
    have hh := ((cn.holdProducers true).holdProducers_router false).1
    exact ⟨hh.trans hidle.symm, h.timer, h.run⟩

theorem move (h : OwnInv cn) (hm : Move cn cn') : OwnInv cn' := by
  cases hm with
  | acts ha hev => exact hev.inv (fun ha hg => hg.act ha) h
  | aside ha => exact h.act (.aside ha)
  | direct b hd =>
    exact h.of_notes hd.hold hd.radio2 hd.ownActive (fun _ ht => by rwa [hd.ownTimer]) hd.log (by simp [CatnObs.isOwn])
  | fresh cfg hr ha =>
    refine ⟨h.hold.trans ha, fun hact => absurd hact (by simp [Catn.fresh]), ?_⟩
    show OwnRun false cn.log
    rw [← ha]
    exact h.run
  | die hr ha => exact ⟨h.hold, h.timer, h.run⟩

theorem withConsumer (h : OwnInv cn) (fd : Nat) : OwnInv (cn.withConsumer fd) :=
  ⟨(congrFun (Router.addConsumer_rest fd cn.channel).1 _).trans h.hold, h.timer, h.run⟩

end OwnInv

/-- In every reachable state the channel is held exactly while an own query is in flight, its timer runs,
and the own queries were sent and ended as `OwnRun` says. -/
theorem own_query_held (hasFlags radio2 : Bool) (evs : List CatnEv) : OwnInv (runs hasFlags radio2 evs) :=
  (runs_inv (fun _ hm h => h.move hm) (fun fd h => h.withConsumer fd) ⟨rfl, fun h => absurd h (by simp [init]), .nil⟩ evs).2

/-- The keyer frames `p` for R1: two bytes each. -/
def radioData (p : List UInt8) : List CatnEv :=
  let frames : List UInt8 := p.flatMap fun b => [(0x20 : UInt8) ||| ((b >>> (7 : UInt8)) <<< (2 : UInt8)), b ||| 0x80]
  .keyerRead (.data frames) :: List.replicate frames.length .keyerByte

/-- An IC-7300 is set up, its frequency is asked for, and the query collides on the bus with a command
that another controller sends. -/
def busRun : List CatnEv :=
  [.router (.setKeyerFd (some 3)), .speed (some (0x88, 0x94)), .keyerState true, .wait 20000000,
    .create ⟨.auto, 0, true, true⟩, .wait 200000, .tick] ++ radioData [0xfc, 0xfe, 0xfe, 0x94, 0xe1, 0x03, 0xfd]

/-- The query that is lost in the collision goes out again while it and the other controller's command
are pending. -/
theorem own_query_again_pending :
    ¬ ∀ (hasFlags radio2 : Bool) (evs : List CatnEv), ∀ o ∈ (runs hasFlags radio2 evs).log, CatnObs.sentAlone o := by
  intro h
  have hagain : CatnObs.again [0xfe, 0xfe, 0x94, 0xe5, 0x03, 0xfd] 1 (true, true) ∈ (runs false false busRun).log := by
    decide +kernel
  exact absurd (h false false busRun _ hagain) (by simp [CatnObs.sentAlone])

end Catn

end Mhuxd
