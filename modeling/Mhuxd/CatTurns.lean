import Mhuxd.CatActs
import Mhuxd.Lib.Potential
import Mhuxd.Lib.RoundRobin

/-!
# Whose turn it is

`Turns` is what decides on the turns of the applications, and `TurnStep` what a callback can do to it while the decoder
is not reset: at most one change of the turn. The distance to a producer that waits bounds the changes until its own.
-/

namespace Mhuxd

/-! ### The next producer -/

namespace Router

variable {r : Router} {ch : Channel} {fd : Option Nat} {waiting : List Nat}

/-- The producers of a channel, by their descriptors. -/
def fds (r : Router) (ch : Channel) : List Nat := (r.producers ch).map (·.fd)

/-- What is before `fd` counts only if nothing behind it waits. -/
theorem next_go_before {as : List Producer} (has : ∀ prd ∈ as, some prd.fd ≠ fd) (rest : List Producer)
    (first : Option Nat) :
    mhrNextWaitingProducer.go fd waiting (as ++ rest) false first =
      mhrNextWaitingProducer.go fd waiting rest false (first.or ((as.map (·.fd)).find? (· ∈ waiting))) := by
  induction as generalizing first with
  | nil => rw [List.nil_append, List.map_nil, List.find?_nil, Option.or_none]
  | cons prd as ih =>
    obtain ⟨hprd, has⟩ := List.forall_mem_cons.1 has
    rw [List.cons_append, mhrNextWaitingProducer.go, if_neg hprd, List.map_cons, List.find?_cons]
    by_cases hw : prd.fd ∈ waiting
    · rw [if_pos hw, if_neg Bool.false_ne_true, ih has, decide_eq_true hw, Option.or_assoc, Option.some_or]
    · rw [if_neg hw, ih has, decide_eq_false hw]

theorem next_go_after {bs : List Producer} (hbs : ∀ prd ∈ bs, some prd.fd ≠ fd) (first : Option Nat) :
    mhrNextWaitingProducer.go fd waiting bs true first = ((bs.map (·.fd)).find? (· ∈ waiting)).or first := by
  induction bs with
  | nil => rfl
  | cons prd bs ih =>
    obtain ⟨hprd, hbs⟩ := List.forall_mem_cons.1 hbs
    rw [mhrNextWaitingProducer.go, if_neg hprd, List.map_cons, List.find?_cons]
    by_cases hw : prd.fd ∈ waiting
    · rw [if_pos hw, if_pos rfl, decide_eq_true hw, Option.some_or]
    · rw [if_neg hw, ih hbs, decide_eq_false hw]

theorem next_of_mem {as bs : List Nat} {x : Nat} (hl : (r.fds ch).Nodup) (h : r.fds ch = as ++ x :: bs) :
    r.mhrNextWaitingProducer ch (some x) waiting = (bs ++ as).find? (· ∈ waiting) := by
  rw [h] at hl
  obtain ⟨us, ws, hprds, rfl, hws⟩ := List.map_eq_append_iff.1 h
  obtain ⟨prd, vs, rfl, rfl, rfl⟩ := List.map_eq_cons_iff.1 hws
  have hus : ∀ p ∈ us, some p.fd ≠ some prd.fd := fun p hp heq =>
    (List.nodup_append.1 hl).2.2 _ (List.mem_map_of_mem hp) _ List.mem_cons_self (Option.some.inj heq)
  have hvs : ∀ p ∈ vs, some p.fd ≠ some prd.fd := fun p hp heq =>
    (List.nodup_cons.1 (List.nodup_append.1 hl).2.1).1 (Option.some.inj heq ▸ List.mem_map_of_mem hp)
  rw [mhrNextWaitingProducer, hprds, next_go_before hus, mhrNextWaitingProducer.go, if_pos rfl, next_go_after hvs,
    Option.none_or, List.find?_append]

theorem next_of_not_mem (h : ∀ x ∈ r.fds ch, some x ≠ fd) :
    r.mhrNextWaitingProducer ch fd waiting = (r.fds ch).find? (· ∈ waiting) := by
  have hprds : ∀ prd ∈ r.producers ch, some prd.fd ≠ fd := fun prd hprd => h _ (List.mem_map_of_mem hprd)
  have hgo : mhrNextWaitingProducer.go fd waiting _ false none = _ := next_go_before hprds [] none
  rw [List.append_nil] at hgo
  rw [mhrNextWaitingProducer, hgo, Option.none_or]
  rfl

/-- `mhr_next_waiting_producer` takes the next one round robin. -/
theorem next_eq (hl : (r.fds ch).Nodup) (x : Nat) :
    r.mhrNextWaitingProducer ch (some x) waiting = RoundRobin.next (fun y => decide (y ∈ waiting))
    (r.fds ch) x := by
  by_cases hx : x ∈ r.fds ch
  · obtain ⟨as, bs, heq, hnot⟩ := List.eq_append_cons_of_mem hx
    rw [next_of_mem hl heq, RoundRobin.next, heq, RoundRobin.order_append hnot]
  · have hne : ∀ y ∈ r.fds ch, some y ≠ some x := fun y hy heq => by
      rw [Option.some.inj heq] at hy
      exact hx hy
    rw [next_of_not_mem hne, RoundRobin.next, RoundRobin.order_of_not_mem hx]

end Router

/-! ### The state of the turns -/

/-- What the turns depend on, and how often the decoder was reset. -/
structure Turns where
  radio2 : Bool
  fds : List Nat
  waiting : List Nat
  turn : Option Nat
  multi : Bool
  decoder : Bool
  resets : Nat
deriving DecidableEq

namespace Catn

variable {cn cn' a b : Catn} {v : Turns}

def turns (cn : Catn) : Turns where
  radio2 := cn.radio2
  fds := cn.router.fds cn.channel
  waiting := cn.waiting
  turn := cn.turnFd
  multi := cn.multi
  decoder := cn.dec.isSome
  resets := cn.log.count .reset

theorem turns_ite {p : Prop} [Decidable p] (ha : a.turns = v) (hb : b.turns = v) :
    (if p then a else b).turns = v := by
  split_ifs
  · exact ha
  · exact hb

theorem turns_router {r : Router} (h : r.fds cn.channel = cn.router.fds cn.channel) :
    ({ cn with router := r } : Catn).turns = cn.turns := by
  show Turns.mk .. = Turns.mk ..
  rw [← h]
  rfl

theorem turns_obs {o : CatnObs} (h : o ≠ .reset) : (cn.obs o).turns = cn.turns := by
  show Turns.mk .. = Turns.mk ..
  have hcount : (cn.log ++ [o]).count .reset = cn.log.count .reset := by
    rw [List.count_append, List.count_singleton, if_neg (by simpa using h), Nat.add_zero]
  rw [← hcount]
  rfl

/-! ### The router -/

theorem fds_updateProducers (r : Router) (ch c : Channel) : (r.updateProducers ch).fds c = r.fds c := by
  unfold Router.updateProducers Router.fds
  dsimp only
  by_cases hc : c = ch
  · subst hc
    rw [upd_self]
    exact map_map_of_same fun _ => rfl
  · rw [upd_of_ne _ _ hc]

theorem fds_setProducerTurn (r : Router) (ch c : Channel) (fd : Option Nat) :
    (r.mhrSetProducerTurn ch fd).fds c = r.fds c := by
  unfold Router.mhrSetProducerTurn
  split_ifs
  · rfl
  · exact fds_updateProducers _ _ _

theorem fds_holdProducers (r : Router) (ch c : Channel) (b : Bool) :
    (r.mhrHoldProducers ch b).fds c = r.fds c := by
  unfold Router.mhrHoldProducers
  split_ifs
  · rfl
  · exact fds_updateProducers _ _ _

theorem fds_sendIn (r : Router) (p : List UInt8) (ch c : Channel) : (r.mhrSendIn p ch).1.fds c = r.fds c := by
  unfold Router.mhrSendIn
  split_ifs <;> rfl

theorem fds_passOut (r : Router) (p : List UInt8) (ch c : Channel) (d : Dest) :
    (r.mhrPassOut p ch d).fds c = r.fds c := by
  unfold Router.mhrPassOut
  split_ifs <;> rfl

theorem fds_intercept (r : Router) (ch c : Channel) (b : Bool) :
    (r.mhrInterceptConsumers ch b).fds c = r.fds c := by
  unfold Router.mhrInterceptConsumers
  split_ifs <;> rfl

theorem fds_upd (r : Router) (ch c : Channel) (l : List Producer) (h : l.map (·.fd) = r.fds ch) :
    ({ r with producers := upd r.producers ch l } : Router).fds c = r.fds c := by
  unfold Router.fds at h ⊢
  dsimp only
  by_cases hc : c = ch
  · subst hc
    rw [upd_self, h]
  · rw [upd_of_ne _ _ hc]

theorem fds_pushPtt (r : Router) (c : Channel) : r.pushPtt.fds c = r.fds c := by
  unfold Router.pushPtt
  dsimp only
  split_ifs
  · rfl
  · exact fds_sendIn ..

theorem fds_pttBytes (ch c : Channel) (i : Nat) (cs : List UInt8) (r : Router) (push : Bool) :
    (Router.pttBytes ch i cs r push).1.fds c = r.fds c := by
  induction cs generalizing r push with
  | nil => rfl
  | cons b cs ih =>
    unfold Router.pttBytes
    split
    · exact ih r push
    · split
      · exact ih r push
      · exact (ih _ _).trans (fds_upd r ch c _ (map_modify_of_same fun _ => by rfl))

theorem fds_processPtt (r : Router) (ch c : Channel) (i : Nat) : (r.processPttProducer ch i).fds c = r.fds c := by
  have hbytes := fds_pttBytes ch c i (r.chanOut ch).unread r false
  unfold Router.processPttProducer
  dsimp only
  split_ifs
  · exact (fds_pushPtt _ c).trans hbytes
  · exact hbytes

theorem fds_producerData (r : Router) (ch c : Channel) (i : Nat) (p : List UInt8) :
    (r.producerData ch i p).fds c = r.fds c := by
  unfold Router.producerData
  by_cases hptt : ch.isPtt = true
  · simp only [if_pos hptt]
    exact fds_processPtt _ ch c i
  · simp only [if_neg hptt]
    rfl

theorem fds_startReaders (r : Router) (ch : Channel) : (r.startReaders ch).map (·.fd) = r.fds ch :=
  map_map_of_same fun p => by split_ifs <;> rfl

theorem fds_switchProducerEvents (r : Router) (b : Bool) (c : Channel) :
    (r.switchProducerEvents b).fds c = r.fds c := by
  unfold Router.switchProducerEvents
  unfold Router.fds
  dsimp only
  split_ifs
  · exact fds_startReaders r c
  · exact map_map_of_same fun _ => rfl

theorem fds_setKeyerFd (r : Router) (fd : Option Nat) (c : Channel) : (r.mhrSetKeyerFd fd).fds c = r.fds c := by
  have hdrop : ∀ r : Router, r.dropPtt.fds c = r.fds c := fun r => map_map_of_same fun _ => rfl
  unfold Router.mhrSetKeyerFd
  split_ifs
  · rfl
  · refine (fds_switchProducerEvents ..).trans ?_
    cases fd <;> cases r.fd <;> first | rfl | exact hdrop _

theorem fds_remConsumer (r : Router) (fd : Nat) (ch c : Channel) : (r.mhrRemConsumer fd ch).fds c = r.fds c := by
  unfold Router.mhrRemConsumer
  dsimp only
  split_ifs <;> rfl

theorem fds_remProducer (r : Router) (fd : Nat) (ch c : Channel) :
    (r.mhrRemProducer fd ch).fds c = if c = ch then (r.fds c).erase fd else r.fds c := by
  have herase : ∀ l : List Producer, (l.eraseP (·.fd == fd)).map (·.fd) = (l.map (·.fd)).erase fd := by
    intro l
    rw [List.erase_eq_eraseP', List.eraseP_map]
    rfl
  unfold Router.mhrRemProducer
  split
  · rename_i hnone
    rw [List.find?_eq_none] at hnone
    split_ifs with hc
    · subst hc
      refine (List.erase_of_not_mem fun hmem => ?_).symm
      obtain ⟨prd, hprd, rfl⟩ := List.mem_map.1 hmem
      exact hnone prd hprd (beq_self_eq_true _)
    · rfl
  · rename_i prd hsome
    have hrem : ({ r with producers := upd r.producers ch ((r.producers ch).eraseP (·.fd == fd)) } : Router).fds c =
        if c = ch then (r.fds c).erase fd else r.fds c := by
      split_ifs with hc
      · subst hc
        unfold Router.fds
        dsimp only
        rw [upd_self, herase]
      · unfold Router.fds
        dsimp only
        rw [upd_of_ne _ _ hc]
    dsimp only
    split_ifs at hrem ⊢ <;> first | exact hrem | exact (fds_pushPtt _ c).trans hrem

theorem fds_producerCb (r : Router) (ch c : Channel) (i : Nat) (res : ReadRes) :
    ((r.producerCb ch i res).2 = none ∧ ∃ fd, (r.producerCb ch i res).1.fds c = (r.fds c).erase fd) ∨
      (r.producerCb ch i res).1.fds c = r.fds c := by
  have hrem : ∀ fd, ∃ fd', ((r.mhrRemConsumer fd ch).mhrRemProducer fd ch).fds c = (r.fds c).erase fd' ∨
      ((r.mhrRemConsumer fd ch).mhrRemProducer fd ch).fds c = r.fds c := by
    intro fd
    rw [fds_remProducer, fds_remConsumer]
    refine ⟨fd, ?_⟩
    split_ifs
    · exact .inl rfl
    · exact .inr rfl
  have hstop : (r.stopProducer ch i).fds c = r.fds c := fds_upd _ _ _ _ (map_modify_of_same fun _ => by rfl)
  have hend : ∀ fd, (none : Option (Nat × List UInt8)) = none ∧
      (∃ fd', ((r.mhrRemConsumer fd ch).mhrRemProducer fd ch).fds c = (r.fds c).erase fd') ∨
      ((r.mhrRemConsumer fd ch).mhrRemProducer fd ch).fds c = r.fds c := by
    intro fd
    obtain ⟨fd', h | h⟩ := hrem fd
    · exact .inl ⟨rfl, fd', h⟩
    · exact .inr h
  unfold Router.producerCb
  split
  · exact .inr rfl
  · split
    · exact .inr hstop
    · split
      · exact .inr rfl
      · split
        · exact .inr hstop
        · split
          · exact .inr rfl
          · exact hend _
          · split
            · exact hend _
            · exact .inr (fds_producerData ..)

theorem producerCb_tap {r : Router} {ch : Channel} {i : Nat} {res : ReadRes} {fd : Nat} {data : List UInt8}
    (h : (r.producerCb ch i res).2 = some (fd, data)) : fd ∈ r.fds ch := by
  unfold Router.producerCb at h
  split at h
  · exact absurd h (by simp)
  · rename_i prd hprd
    have hmem : prd.fd ∈ r.fds ch := List.mem_map_of_mem (List.mem_of_getElem? hprd)
    split_ifs at h
    split at h
    · exact absurd h (by simp)
    · exact absurd h (by simp)
    · split at h
      · exact absurd h (by simp)
      · obtain ⟨rfl, -⟩ := Prod.mk.inj (Option.some.inj h)
        exact hmem

/-- What an event of the router does to the producers of a channel. -/
def FdsStep (ch : Channel) (e : RouterEv) (fds fds' : List Nat) : Prop :=
  fds' = fds ∨ (∃ fd, fds' = fds.erase fd) ∨ ∃ fd, e = .addProducer fd ch ∧ fds' = fds ++ [fd]

theorem fds_consumerCb (r : Router) (ch c : Channel) (i : Nat) (res : WriteRes) :
    (r.consumerCb ch i res).fds c = r.fds c ∨ ∃ fd, (r.consumerCb ch i res).fds c = (r.fds c).erase fd := by
  unfold Router.consumerCb
  split
  · exact .inl rfl
  · split
    · rw [fds_remConsumer, fds_remProducer]
      split_ifs
      · exact .inr ⟨_, rfl⟩
      · exact .inl rfl
    · split <;> exact .inl rfl
    · exact .inl rfl

theorem fds_keyerRead (r : Router) (res : ReadRes) (c : Channel) : (r.keyerRead res).fds c = r.fds c := by
  unfold Router.keyerRead
  split
  · rfl
  · exact fds_setKeyerFd ..
  · split
    · exact fds_setKeyerFd ..
    · rfl

theorem fds_keyerByte (r : Router) (c : Channel) : r.keyerByte.1.fds c = r.fds c := by
  unfold Router.keyerByte
  split
  · rfl
  · dsimp only
    split
    · rfl
    · split <;> rfl

theorem fds_keyerInCb (r : Router) (res : ReadRes) (c : Channel) : (r.keyerInCb res).fds c = r.fds c := by
  have hbytes : ∀ (n : Nat) (r : Router), (Router.keyerBytes n r).fds c = r.fds c := by
    intro n
    induction n with
    | zero => exact fun _ => rfl
    | succ n ih => exact fun r => (ih _).trans (fds_keyerByte r c)
  unfold Router.keyerInCb
  split_ifs
  · rfl
  · exact (hbytes _ _).trans (fds_keyerRead ..)

theorem fds_keyerOutCb (r : Router) (res : WriteRes) (c : Channel) : (r.keyerOutCb res).fds c = r.fds c := by
  have hstop : ∀ r : Router, r.keyerOutStop.fds c = r.fds c := fun r => by
    unfold Router.keyerOutStop
    split_ifs <;> rfl
  unfold Router.keyerOutCb
  split_ifs
  · rfl
  · dsimp only
    split
    · exact fds_setKeyerFd _ none c
    · exact hstop _
    · split
      · exact hstop _
      · exact (hstop _).trans (fds_switchProducerEvents _ true c)

theorem fds_step (r : Router) (e : RouterEv) (ch : Channel) : FdsStep ch e (r.fds ch) ((r.step e).fds ch) := by
  have hrem : ∀ (r : Router) (fd : Nat) (c : Channel) (e : RouterEv),
    FdsStep ch e (r.fds ch) ((r.mhrRemProducer fd c).fds ch) := by
    intro r fd c e
    rw [fds_remProducer]
    split_ifs
    · exact .inr (.inl ⟨fd, rfl⟩)
    · exact .inl rfl
  cases e with
  | setKeyerFd fd => exact .inl (fds_setKeyerFd ..)
  | addConsumer fd c =>
    refine .inl ?_
    show (r.mhrAddConsumer fd c).fds ch = _
    unfold Router.mhrAddConsumer
    split_ifs <;> rfl
  | addProducer fd c =>
    show FdsStep ch _ _ ((r.mhrAddProducer fd c).fds ch)
    unfold Router.mhrAddProducer
    split_ifs
    · exact .inl rfl
    · by_cases hc : ch = c
      · subst hc
        refine .inr (.inr ⟨fd, rfl, ?_⟩)
        unfold Router.fds
        dsimp only
        rw [upd_self, List.map_append]
        rfl
      · refine .inl ?_
        unfold Router.fds
        dsimp only
        rw [upd_of_ne _ _ hc]
  | remConsumer fd c => exact .inl (fds_remConsumer ..)
  | remProducer fd c => exact hrem r fd c _
  | sendIn data c =>
    refine .inl ?_
    show (if c = .flags then r else (r.mhrSendIn data c).1).fds ch = _
    split_ifs
    · rfl
    · exact fds_sendIn ..
  | sendOut data c => exact .inl rfl
  | passOut data c dest => exact .inl (fds_passOut ..)
  | process c n =>
    refine .inl ?_
    unfold Router.step
    dsimp only
    split_ifs <;> rfl
  | holdProducers c hold => exact .inl (fds_holdProducers ..)
  | setProducerTurn c fd => exact .inl (fds_setProducerTurn ..)
  | setConsumerFlags fd c flags => exact .inl rfl
  | intercept c b => exact .inl (fds_intercept ..)
  | setBpsLimit c bps =>
    refine .inl ?_
    show (r.mhrSetBpsLimit c bps).fds ch = _
    unfold Router.mhrSetBpsLimit
    split_ifs <;> rfl
  | setWkTxFocus focus => exact .inl rfl
  | lbTimer c =>
    have hlb : (r.lbCb c).fds ch = r.fds ch := by
      unfold Router.lbCb
      dsimp only
      split
      · rfl
      · exact fds_upd r c ch _ (fds_startReaders r c)
    refine .inl ?_
    unfold Router.step
    dsimp only
    split_ifs
    · exact hlb
    · rfl
  | producer c i res =>
    show FdsStep ch _ _ ((if r.producerActive c i then (r.producerCb c i res).1 else r).fds ch)
    split_ifs
    · rcases fds_producerCb r c ch i res with ⟨-, fd, h⟩ | h
      · exact .inr (.inl ⟨fd, h⟩)
      · exact .inl h
    · exact .inl rfl
  | consumer c i res =>
    show FdsStep ch _ _ ((if r.consumerActive c i then r.consumerCb c i res else r).fds ch)
    split_ifs
    · rcases fds_consumerCb r c ch i res with h | h
      · exact .inl h
      · exact .inr (.inl h)
    · exact .inl rfl
  | keyerIn res =>
    refine .inl ?_
    show (if r.wIn then r.keyerInCb res else r).fds ch = _
    split_ifs
    · exact fds_keyerInCb ..
    · rfl
  | keyerOut res =>
    refine .inl ?_
    show (if r.wOut then r.keyerOutCb res else r).fds ch = _
    split_ifs
    · exact fds_keyerOutCb ..
    · rfl

/-! ### What leaves the turns alone -/

theorem turns_holdProducers (b : Bool) : (cn.holdProducers b).turns = cn.turns :=
  turns_router (fds_holdProducers _ _ _ _)

theorem turns_routeFlush (dest : RouteDest) : (cn.routeFlush dest).turns = cn.turns := by
  unfold routeFlush
  dsimp only
  split_ifs
  · rfl
  · have hobs : ∀ o : CatnObs, o ≠ .reset → (({ cn with routeTimer := none } : Catn).obs o).turns = cn.turns :=
      fun o ho => turns_obs ho
    cases dest with
    | none => exact hobs _ (by simp)
    | drop => exact hobs _ (by simp)
    | dest d => exact (turns_router (fds_passOut ..)).trans (hobs _ (by simp))

theorem turns_routeStart : cn.routeStart.turns = cn.turns := by
  unfold routeStart
  split_ifs
  · rfl
  · exact turns_router (fds_intercept ..)

theorem turns_routeStop : cn.routeStop.turns = cn.turns := by
  unfold routeStop
  split_ifs
  · exact (turns_router (fds_intercept ..)).trans (turns_routeFlush (.dest .all))
  · rfl

theorem turns_routeCheck : cn.routeCheck.turns = cn.turns := turns_ite turns_routeStop rfl

theorem turns_routeUpdate : cn.routeUpdate.turns = cn.turns := turns_ite turns_routeStart turns_routeCheck

theorem turns_ownEnd : cn.ownEnd.turns = cn.turns := by
  unfold ownEnd
  split_ifs
  · exact (turns_obs (by simp)).trans (turns_holdProducers false)
  · exact (turns_obs (by simp)).trans (turns_holdProducers false)
  · rfl

theorem turns_ownRejected (slot : Query) : (cn.ownRejected slot).turns = cn.turns := by
  unfold ownRejected
  dsimp only
  split_ifs <;> rfl

theorem turns_ownAnswered (f : CatFrame) : (cn.ownAnswered f).turns = cn.turns := by
  unfold ownAnswered
  dsimp only
  split_ifs
  · exact (turns_ownRejected _).trans turns_ownEnd
  · exact turns_ownEnd

theorem turns_frameCb (e : Emit) : (cn.frameCb e).turns = cn.turns := by
  have hobs : (cn.obs (.frame e (cn.fdOf e.frame.client) cn.turnFd)).turns = cn.turns := turns_obs (by simp)
  have hnote : (cn.frameNote e).turns = cn.turns := hobs
  have hdrop : ∀ a : Catn, a.routeDrop.turns = a.turns := fun a => turns_ite rfl rfl
  have hother : ∀ a : Catn, (a.frameOther e).turns = a.turns := fun a => turns_ite rfl rfl
  have hown : ∀ a : Catn, (a.frameOwn e.frame).turns = a.turns := fun a =>
    (hdrop _).trans (turns_ite (turns_ownAnswered _) rfl)
  exact turns_ite rfl (turns_ite ((hown _).trans hnote) ((hother _).trans hnote))

theorem turns_decoded (h : cn.dec.isSome = true) (d : Dec) : (cn.decoded d).turns = cn.turns := by
  have hdec : ({ cn with dec := some d.drain.1 } : Catn).turns = cn.turns := by
    show Turns.mk .. = Turns.mk ..
    rw [h]
    rfl
  have hfold : ∀ (es : List Emit) (a : Catn), (es.foldl frameCb a).turns = a.turns := by
    intro es
    induction es with
    | nil => exact fun _ => rfl
    | cons e es ih => exact fun a => (ih _).trans (turns_frameCb e)
  exact (hfold _ _).trans hdec

theorem turns_decoderFeed (dir : CatDir) (client : Nat) (data : List UInt8) :
    (cn.decoderFeed dir client data).turns = cn.turns := by
  unfold decoderFeed
  split
  · rfl
  · rename_i hd
    exact turns_decoded (by rw [hd]; rfl) _

theorem turns_clientDiscard (client : Nat) : (cn.clientDiscard client).turns = cn.turns := by
  unfold clientDiscard
  split
  · rfl
  · rename_i hd
    exact turns_decoded (by rw [hd]; rfl) _

theorem turns_decoderExpire : cn.decoderExpire.turns = cn.turns := by
  unfold decoderExpire
  split
  · rfl
  · rename_i hd
    exact turns_decoded (by rw [hd]; rfl) _

theorem turns_clientOf (fd : Nat) : (cn.clientOf fd).1.turns = cn.turns := by
  unfold clientOf
  split <;> rfl

/-! ### Own queries -/

theorem turns_send {p : List UInt8} (h : cn.send p = some cn') : cn'.turns = cn.turns := by
  rw [send_kept h]
  exact turns_router (fds_sendIn ..)

theorem turns_ownQuery (slot : Query) (p : List UInt8) (answer : Nat) :
    (cn.ownQuery slot p answer).turns = cn.turns := by
  unfold ownQuery
  dsimp only
  split
  · exact (turns_holdProducers false).trans (turns_holdProducers true)
  · rename_i cn₁ hs
    have hobs : (cn₁.obs (.query p cn₁.pending cn₁.turnFd cn₁.turnFresh)).turns = cn₁.turns := turns_obs (by simp)
    refine (turns_decoderFeed ..).trans ?_
    rw [ownStart_eq]
    exact turns_routeStart.trans (hobs.trans ((turns_send hs).trans (turns_holdProducers true)))

theorem turns_ownSend (slot : Query) : (cn.ownSend slot).turns = cn.turns := by
  unfold ownSend
  dsimp only
  exact turns_ite rfl (turns_ownQuery ..)

theorem turns_ownCatOnSend (p : List UInt8) : (cn.ownCatOnSend p).turns = cn.turns := by
  have hon : ({ cn with ownCatOn := cn.now } : Catn).turns = cn.turns := rfl
  unfold ownCatOnSend
  dsimp only
  split
  · exact hon
  · rename_i hs
    exact (turns_decoderFeed ..).trans ((turns_obs (by simp)).trans ((turns_send hs).trans hon))

theorem turns_ownTry : cn.ownTry.turns = cn.turns := by
  unfold ownTry
  refine turns_ite rfl (turns_ite rfl ?_)
  split
  · rfl
  · split
    · exact turns_ownCatOnSend _
    · exact turns_ownSend _

theorem turns_ownIdle : cn.ownIdle.turns = cn.turns := turns_ite rfl turns_ownTry

theorem turns_resendCmd (lost : Nat) (p : CivPending) : (cn.resendCmd lost p).turns = cn.turns := by
  unfold resendCmd
  refine turns_ite rfl ?_
  split
  · rfl
  · rename_i cn₁ hs
    have hobs : (cn₁.obs (.again p.buf lost cn₁.pending)).turns = cn₁.turns := turns_obs (by simp)
    have hres : (cn₁.resent lost p).turns = cn₁.turns := turns_ite hobs (turns_ite rfl rfl)
    have hlater : ∀ a : Catn, (a.resendLater lost).turns = a.turns := fun a => turns_ite rfl rfl
    exact (hlater _).trans (hres.trans (turns_send hs))

theorem turns_civResend : cn.civResend.turns = cn.turns := by
  unfold civResend
  dsimp only
  split
  · rfl
  · rename_i d hd
    have hdec : ∀ d' : Dec, ({ cn with resendTimer := none, dec := some d' } : Catn).turns = cn.turns := by
      intro d'
      show Turns.mk .. = Turns.mk ..
      have hsome : cn.dec.isSome = true := by rw [hd]; rfl
      rw [hsome]
      rfl
    refine turns_ite rfl ?_
    split
    · exact hdec _
    · exact (turns_resendCmd _ _).trans (hdec _)

/-! ### Data of the radio -/

theorem turns_ownTimeoutCb : cn.ownTimeoutCb.turns = cn.turns := by
  unfold ownTimeoutCb
  dsimp only
  refine turns_ite rfl ?_
  exact turns_ownEnd.trans (turns_obs (by simp))

theorem turns_routeDone : cn.routeDone.turns = cn.turns := turns_ite (turns_routeFlush _) rfl

theorem turns_resendCheck : cn.resendCheck.turns = cn.turns := turns_ite (turns_ite turns_civResend rfl) rfl

theorem turns_routeRoom : cn.routeRoom.turns = cn.turns := turns_ite (turns_routeFlush _) rfl

theorem turns_routeHold (b : UInt8) : (cn.routeHold b).turns = cn.turns := by
  have hobs : (cn.obs .held).turns = cn.turns := turns_obs (by simp)
  exact hobs

theorem turns_ownAfter : cn.ownAfter.turns = cn.turns := turns_ite turns_ownTry rfl

theorem turns_passDirect (b : UInt8) : (cn.passDirect b).turns = cn.turns := turns_ite rfl (turns_obs (by simp))

end Catn

/-! ### What a callback does to the turns -/

namespace Turns

/-- The application next in turn. -/
def next (v : Turns) (fd : Nat) : Option Nat :=
  if v.multi then RoundRobin.next (fun x => decide (x ∈ v.waiting)) v.fds fd else none

/-- Turns are taken by more than one application and with a decoder; without one a turn ends with them. -/
def update (v : Turns) : Turns :=
  { v with
    multi := decide (1 < v.fds.length) && v.decoder
    turn := if v.multi = true ∧ v.decoder = false then none else v.turn }

/-- The decoder was reset, and the line is free. -/
def IsReset (v v' : Turns) : Prop := v.resets < v'.resets ∧ v'.turn = none

end Turns

/-- What a callback can do to the turns. -/
inductive TurnStep (v : Turns) : Turns → Prop
  | stay : TurnStep v v
  | update : TurnStep v v.update
  | waits (fds : List Nat) : TurnStep v { v with waiting := fds }
  | remove (fd : Nat) : TurnStep v { v with fds := v.fds.erase fd }
  /-- The turn of `fd` ends. -/
  | next {fd : Nat} {succ : Option Nat} (h : v.turn = some fd) (hsucc : v.fds.Nodup → succ = v.next fd) :
    TurnStep v { v with turn := succ }
  /-- The line is free, and `fd` sends. -/
  | first {fd : Nat} (hfd : fd ∈ v.fds) (h : v.turn = none) (hm : v.update.multi = true) :
    TurnStep v { v.update with turn := some fd }
  | reset {v' : Turns} (h : v.IsReset v') : TurnStep v v'

namespace Catn

variable {cn cn' a b : Catn} {v : Turns}

theorem turns_turnGive (fd : Option Nat) (fresh : Bool) : (cn.turnGive fd fresh).turns =
    { cn.turns with turn := fd } := by
  have hclient : (({ cn with turnFd := fd } : Catn).turnClientOf fd).1.turns = { cn.turns with turn := fd } := by
    cases fd with
    | none => rfl
    | some fd => exact turns_clientOf fd
  unfold turnGive
  dsimp only
  rw [← hclient]
  exact turns_router (fds_setProducerTurn ..)

theorem turns_turnNext {fd : Nat} (h : cn.turnFd = some fd) : ∃ succ,
    cn.turnNext.turns = { cn.turns with turn := succ } ∧ (cn.turns.fds.Nodup → succ = cn.turns.next fd) := by
  refine ⟨_, turns_turnGive _ _, fun hl => ?_⟩
  rw [h]
  exact ite_congr rfl (fun _ => Router.next_eq hl fd) fun _ => rfl

theorem turns_turnCheck : TurnStep cn.turns cn.turnCheck.turns ∧ (cn.turnFd = none → cn.turnCheck = cn) := by
  unfold turnCheck
  split
  · exact ⟨.stay, fun _ => rfl⟩
  · rename_i fd hfd
    refine ⟨?_, fun hnone => absurd (hfd.symm.trans hnone) (by simp)⟩
    have hagain : ∀ b : Bool, (cn.turnAgain b).turns = cn.turns := fun _ => turns_ite rfl rfl
    have hdiscard : ∀ (a : Catn) (b : Bool), (a.turnDiscard b).turns = a.turns :=
      fun a b => turns_ite (turns_clientDiscard _) rfl
    unfold turnHeld
    dsimp only
    split_ifs
    · rw [hagain]
      exact .stay
    · have hsame : ∀ b b' : Bool, ((cn.turnAgain b).turnDiscard b').turns = cn.turns :=
        fun b b' => (hdiscard _ _).trans (hagain _)
      have hturn : ∀ b b' : Bool, ((cn.turnAgain b).turnDiscard b').turnFd = some fd :=
        fun b b' => (congrArg Turns.turn (hsame b b')).trans hfd
      obtain ⟨succ, heq, hsucc⟩ := turns_turnNext (hturn _ _)
      rw [heq]
      rw [hsame] at hsucc ⊢
      exact .next hfd hsucc

theorem turns_multiSet (multi : Bool) : (cn.multiSet multi).turns = { cn.turns with
    multi := multi
    turn := if multi ≠ cn.multi ∧ multi = false ∧ cn.dec.isNone = true then none else cn.turnFd } := by
  unfold multiSet
  dsimp only
  by_cases hsame : multi = cn.multi
  · rw [if_pos hsame, if_neg fun h => h.1 hsame, hsame]
    rfl
  · rw [if_neg hsame]
    by_cases hend : multi = false ∧ cn.dec.isNone = true
    · rw [if_pos hend, if_pos ⟨hsame, hend⟩]
      exact turns_turnGive none false
    · rw [if_neg hend, if_neg fun h => hend h.2]
      rfl

theorem turns_multiUpdate : cn.multiUpdate.turns = cn.turns.update := by
  have hfilter : cn.filterUpdate.turns = cn.turns := rfl
  have hcount : cn.router.mhrCountProducers cn.channel = cn.turns.fds.length := (List.length_map _).symm
  unfold multiUpdate
  dsimp only
  rw [turns_routeUpdate, turns_multiSet, hfilter, hcount, Turns.update]
  have hturn : (decide (1 < cn.turns.fds.length) && cn.dec.isSome) ≠ cn.filterUpdate.multi ∧
      (decide (1 < cn.turns.fds.length) && cn.dec.isSome) = false ∧ cn.filterUpdate.dec.isNone = true ↔
      cn.turns.multi = true ∧ cn.turns.decoder = false := by
    show _ ≠ cn.multi ∧ _ ∧ cn.dec.isNone = true ↔ cn.multi = true ∧ cn.dec.isSome = false
    cases cn.dec <;> cases cn.multi <;> simp
  simp only [hturn]
  rfl

/-! ### Set-up -/

theorem turns_ownReset : cn.ownReset.turns = { cn.turns with resets := cn.turns.resets + 1 } := by
  have hobs : (cn.obs .reset).turns = { cn.turns with resets := cn.turns.resets + 1 } := by
    have hcount : (cn.log ++ [CatnObs.reset]).count .reset = cn.log.count .reset + 1 := by
      rw [List.count_append, List.count_singleton_self]
    show Turns.mk _ _ _ _ _ _ ((cn.log ++ [CatnObs.reset]).count .reset) = _
    rw [hcount]
    rfl
  have hrelease : (cn.obs .reset).ownEnd.routeRelease.turns = (cn.obs .reset).turns :=
    (turns_ite rfl turns_routeStop).trans turns_ownEnd
  exact hrelease.trans hobs

theorem turns_reset : cn.reset.turns = { cn.turns with resets := cn.turns.resets + 1, turn := none } := by
  have hreset : ({ cn with resendTimer := none } : Catn).ownReset.turns =
    { cn.turns with resets := cn.turns.resets + 1 } :=
    turns_ownReset
  unfold reset
  rw [turns_turnGive, hreset]

theorem isReset_update {v v' : Turns} (h : v.IsReset v') : v.IsReset v'.update :=
  ⟨h.1, by rw [Turns.update, h.2]; exact ite_self _⟩

theorem isReset_setDecoder {v : Turns} (h : v.IsReset cn.turns) (rig addr : Nat) :
    v.IsReset (cn.setDecoder rig addr).turns := by
  unfold setDecoder
  dsimp only
  split
  · exact h
  · exact h

theorem isReset_setupDecoder (rigtype : Option Nat) (addr : Nat) :
    cn.turns.IsReset (cn.setupDecoder rigtype addr).turns := by
  have hreset : cn.turns.IsReset (({ cn with rigtype := rigtype, civAddr := some addr } : Catn).destroyDecoder.reset).turns := by
    rw [turns_reset]
    exact ⟨Nat.lt_succ_self _, rfl⟩
  unfold setupDecoder
  cases rigtype with
  | none => exact hreset
  | some rig => exact isReset_setDecoder hreset rig addr

theorem turns_setup (force : Bool) : (cn.setup force).turns = cn.turns ∨
    cn.turns.IsReset (cn.setup force).turns := by
  unfold setup
  split
  · exact .inl rfl
  · dsimp only
    split
    · exact .inl rfl
    · rw [turns_multiUpdate]
      exact .inr (isReset_update (@isReset_setupDecoder { cn with cfgChecked := cn.now } _ _))

theorem turns_feed (dir : CatDir) (client : Nat) (data : List UInt8) :
    (cn.feed dir client data).turns = cn.turns ∨ cn.turns.IsReset (cn.feed dir client data).turns := by
  unfold feed
  rw [turns_decoderFeed]
  exact turns_setup false

/-! ### Callbacks -/

theorem turnStep_radioNext (h : a.turns = v ∨ v.IsReset a.turns) : TurnStep v a.radioNext.turns := by
  unfold radioNext
  rw [turns_ownAfter]
  rcases h with rfl | h
  · exact turns_turnCheck.1
  · rw [turns_turnCheck.2 h.2]
    exact .reset h

theorem turnStep_radioCb (b : UInt8) : TurnStep cn.turns (cn.radioCb b).turns := by
  have hmark : cn.radioMark.turns = cn.turns := rfl
  unfold radioCb
  split
  · have hhold : (cn.radioMark.routeRoom.routeHold b).turns = cn.turns :=
      (turns_routeHold b).trans (turns_routeRoom.trans hmark)
    have hfeed := @turns_feed (cn.radioMark.routeRoom.routeHold b) .radio 0 [b]
    have hnext : ∀ a : Catn, a.routeDone.resendCheck.turns = a.turns :=
      fun a => turns_resendCheck.trans turns_routeDone
    unfold radioRouted
    rw [turns_routeCheck]
    refine turnStep_radioNext ?_
    rw [hnext]
    rwa [hhold] at hfeed
  · exact turnStep_radioNext (hmark ▸ turns_feed ..)

theorem turnStep_keyerByte : TurnStep cn.turns cn.keyerByte.turns := by
  have hrouter : ({ cn with router := cn.router.keyerByte.1 } : Catn).turns = cn.turns :=
    turns_router (fds_keyerByte ..)
  have hcame : ∀ (a : Catn) (b : UInt8), TurnStep a.turns (a.came b).turns := by
    intro a b
    have hpass : ((a.obs (.came b)).passDirect b).turns = a.turns :=
      (turns_passDirect b).trans (turns_obs (by simp))
    unfold came
    dsimp only
    split
    · rw [← hpass]
      exact turnStep_radioCb b
    · rw [hpass]
      exact .stay
  unfold keyerByte
  dsimp only
  rw [← hrouter]
  split
  · split
    · exact hcame _ _
    · exact .stay
  · exact .stay

theorem turnStep_hostCb (data : List UInt8) {fd : Nat} (hfd : fd ∈ cn.turns.fds) :
    TurnStep cn.turns (cn.hostCb data fd).turns := by
  have hmark : ({ cn with lastHost := cn.now } : Catn).multiUpdate.turns = cn.turns.update := turns_multiUpdate
  have hread : ∀ a : Catn, (a.hostRead fd).turns = a.turns := fun a => turns_ite rfl rfl
  unfold hostCb
  dsimp only
  generalize hg : ({ cn with lastHost := cn.now } : Catn).multiUpdate = m at hmark ⊢
  have hstep : TurnStep cn.turns (m.hostTurn fd).turns ∧ cn.turns.resets ≤ (m.hostTurn fd).turns.resets := by
    unfold hostTurn
    split
    · rename_i hfree
      have hmulti : cn.turns.update.multi = true := (congrArg Turns.multi hmark).symm.trans hfree.1
      have hturn : cn.turns.update.turn = none := (congrArg Turns.turn hmark).symm.trans hfree.2
      have hdec : ¬ (cn.turns.multi = true ∧ cn.turns.decoder = false) := fun h => by
        simp [Turns.update, h.2] at hmulti
      rw [turns_turnGive, hmark]
      rw [Turns.update, if_neg hdec] at hturn
      exact ⟨.first hfd hturn hmulti, le_rfl⟩
    · rw [hmark]
      exact ⟨.update, le_rfl⟩
  have hfeed : ∀ client, (((m.hostTurn fd).hostRead fd).clientOf fd).1.turns = (m.hostTurn fd).turns →
      TurnStep cn.turns ((((m.hostTurn fd).hostRead fd).clientOf fd).1.feed .host client data).turns := by
    intro client hsame
    rcases @turns_feed (((m.hostTurn fd).hostRead fd).clientOf fd).1 .host client data with h | h
    · rw [h, hsame]
      exact hstep.1
    · rw [hsame] at h
      exact .reset ⟨lt_of_le_of_lt hstep.2 h.1, h.2⟩
  exact hfeed _ ((turns_clientOf fd).trans (hread _))

theorem turnStep_producer (i : Nat) (res : ReadRes) : TurnStep cn.turns (cn.producer i res).turns := by
  rcases fds_producerCb cn.router cn.channel cn.channel i res with ⟨htap, fd, hfds⟩ | hfds
  · unfold producer
    dsimp only
    rw [htap]
    have heq : ({ cn with router := (cn.router.producerCb cn.channel i res).1 } : Catn).turns =
        { cn.turns with fds := cn.turns.fds.erase fd } := by
      show Turns.mk _ (Router.fds _ cn.channel) _ _ _ _ _ = _
      rw [hfds]
      rfl
    rw [heq]
    exact .remove fd
  · have heq : ({ cn with router := (cn.router.producerCb cn.channel i res).1 } : Catn).turns = cn.turns :=
      turns_router hfds
    unfold producer
    dsimp only
    split
    · rw [heq]
      exact .stay
    · rename_i fd data htap
      split
      · have hmem : fd ∈ ({ cn with router := (cn.router.producerCb cn.channel i res).1 } : Catn).turns.fds := by
          rw [heq]
          exact producerCb_tap htap
        rw [← heq]
        exact turnStep_hostCb data hmem
      · rw [heq]
        exact .stay

theorem turnStep_tickCb : TurnStep cn.turns cn.tickCb.turns := by
  have hupdate : cn.decoderExpire.multiUpdate.routeCheck.turns = cn.turns.update := by
    rw [turns_routeCheck, turns_multiUpdate, turns_decoderExpire]
  unfold tickCb
  dsimp only
  split
  · rw [hupdate]
    exact .update
  · rw [turns_ownIdle]
    rcases @turns_setup cn.decoderExpire.multiUpdate.routeCheck false with h | h
    · rw [h, hupdate]
      exact .update
    · rw [hupdate] at h
      exact .reset h

theorem isReset_setup {v : Turns} (h : v.IsReset cn.turns) (force : Bool) : v.IsReset (cn.setup force).turns := by
  rcases @turns_setup cn force with heq | hreset
  · rwa [heq]
  · exact ⟨h.1.trans hreset.1, hreset.2⟩

theorem isReset_keyerStateCb : cn.turns.IsReset cn.keyerStateCb.turns := by
  have hreset : cn.turns.IsReset
      ({ cn.destroyDecoder with rigtype := none, civAddr := none } : Catn).reset.multiUpdate.turns := by
    rw [turns_multiUpdate, turns_reset]
    exact isReset_update ⟨Nat.lt_succ_self _, rfl⟩
  unfold keyerStateCb
  dsimp only
  split
  · exact isReset_setup hreset true
  · exact hreset

theorem isReset_create (cfg : CatnCfg) : cn.turns.IsReset (cn.create cfg).turns := by
  unfold create setup
  rw [if_neg (by simp)]
  dsimp only
  rw [if_neg (by simp [fresh]), turns_multiUpdate]
  exact isReset_update (@isReset_setupDecoder { cn.fresh cfg with cfgChecked := (cn.fresh cfg).now } _ _)

theorem isReset_destroy : cn.turns.IsReset cn.destroy.turns := by
  have hgive : cn.turns.IsReset ((cn.ownReset.turnGive none false).routeStop).turns := by
    rw [turns_routeStop, turns_turnGive, turns_ownReset]
    exact ⟨Nat.lt_succ_self _, rfl⟩
  exact hgive

/-- An event changes the turn at most once, or adds a producer. -/
theorem turnStep_step (e : CatnEv) : TurnStep cn.turns (cn.step e).turns ∨
    ∃ fd, e = .router (.addProducer fd cn.channel) ∧
      (cn.step e).turns = { cn.turns with fds := cn.turns.fds ++ [fd] } := by
  have hsame : ∀ {c : Catn}, c.turns = cn.turns → TurnStep cn.turns c.turns ∨
      ∃ fd, e = .router (.addProducer fd cn.channel) ∧ c.turns = { cn.turns with fds := cn.turns.fds ++ [fd] } :=
    fun h => .inl (by rw [h]; exact .stay)
  cases e with
  | wait dt => exact .inl .stay
  | router e =>
    unfold step
    dsimp only
    split
    · have hturns : ∀ {r : Router} {fds : List Nat}, r.fds cn.channel = fds →
          ({ cn with router := r } : Catn).turns = { cn.turns with fds := fds } := by
        rintro r fds rfl
        rfl
      rcases fds_step cn.router e cn.channel with h | ⟨fd, h⟩ | ⟨fd, rfl, h⟩
      · exact .inl (by rw [turns_router h]; exact .stay)
      · exact .inl (by rw [hturns h]; exact .remove fd)
      · exact .inr ⟨fd, rfl, hturns h⟩
    · exact .inl .stay
  | keyerRead res =>
    unfold step
    dsimp only
    split
    · exact hsame (turns_router (fds_keyerRead ..))
    · exact hsame rfl
  | keyerByte => exact .inl turnStep_keyerByte
  | producer i res =>
    unfold step
    dsimp only
    split
    · exact .inl (turnStep_producer i res)
    · exact hsame rfl
  | tick =>
    unfold step
    dsimp only
    split
    · exact .inl (@turnStep_tickCb { cn with tick := max (cn.tick + CATN_TICK) cn.now })
    · exact hsame rfl
  | ownTimeout =>
    unfold step
    dsimp only
    split
    · exact hsame (@turns_ownTimeoutCb { cn with ownTimer := none })
    · exact hsame rfl
  | turnTimer =>
    unfold step
    dsimp only
    split
    · exact .inl (@turns_turnCheck { cn with turnTimer := cn.again cn.turnTimer CATN_TURN_TICK }).1
    · exact hsame rfl
  | routeTimer =>
    unfold step
    dsimp only
    split
    · exact hsame (turns_routeFlush _)
    · exact hsame rfl
  | resendTimer =>
    unfold step
    dsimp only
    split
    · exact hsame turns_civResend
    · exact hsame rfl
  | keyerState online =>
    unfold step
    dsimp only
    split
    · exact .inl (.reset (@isReset_keyerStateCb { cn with online := online }))
    · exact hsame rfl
  | speed p => exact hsame rfl
  | waiting fds => exact .inl (.waits fds)
  | create cfg =>
    unfold step
    dsimp only
    split
    · exact hsame rfl
    · exact .inl (.reset (isReset_create cfg))
  | destroy =>
    unfold step
    dsimp only
    split
    · exact .inl (.reset isReset_destroy)
    · exact hsame rfl

end Catn

/-! ### How long a producer waits -/

namespace Turns

variable {v v' : Turns} {t : Nat}

/-- Without a decoder no application has the turn. -/
def Owned (v : Turns) : Prop := v.decoder = false → v.turn = none

/-- How many changes of the turn can come before that of `t`; those that free the line count `free`. -/
def ahead (free : Nat) (v : Turns) (t : Nat) : Nat :=
  match v.turn with
  | none => v.fds.length - 1
  | some x => if v.multi = true ∧ 1 < v.fds.length then RoundRobin.dist v.fds x t else v.fds.length - 1 + free

/-- A change of the turn. -/
def changed (free : Nat) (v v' : Turns) : Nat :=
  if v'.turn = v.turn then 0 else if v'.turn = none then free else 1

/-- `t` waits, and it isn't its turn. -/
structure Waiting (t : Nat) (v : Turns) : Prop where
  producer : t ∈ v.fds
  waiting : t ∈ v.waiting
  turn : v.turn ≠ some t

theorem owned_step (h : v.Owned) (hs : TurnStep v v') : v'.Owned := by
  cases hs with
  | stay => exact h
  | update =>
    intro hdec
    rw [update, h hdec]
    exact ite_self _
  | waits fds => exact h
  | remove fd => exact h
  | next hturn _ => exact fun hdec => absurd ((h hdec).symm.trans hturn) (by simp)
  | first hfd hturn hm =>
    intro hdec
    have hdec : v.decoder = false := hdec
    simp [update, hdec] at hm
  | reset hr => exact fun _ => hr.2

theorem ahead_none {free : Nat} (h : v.turn = none) : v.ahead free t = v.fds.length - 1 := by rw [ahead, h]

theorem ahead_some {free x : Nat} (h : v.turn = some x) : v.ahead free t =
    if v.multi = true ∧ 1 < v.fds.length then RoundRobin.dist v.fds x t else v.fds.length - 1 + free := by
  rw [ahead, h]

theorem ahead_le (hl : v.fds.Nodup) (ht : t ∈ v.fds) (hturn : v.turn ≠ some t) (free : Nat) :
    v.ahead free t ≤ v.fds.length - 1 + free := by
  unfold ahead
  split
  · exact Nat.le_add_right _ _
  · rename_i x hx
    have hne : t ≠ x := fun heq => hturn (by rw [hx, heq])
    split_ifs
    · have := RoundRobin.dist_lt_length hl ht hne
      omega
    · exact le_rfl

theorem one_lt_length {l : List Nat} {x y : Nat} (hx : x ∈ l) (hy : y ∈ l) (hne : x ≠ y) : 1 < l.length := by
  rcases l with - | ⟨a, - | ⟨b, l⟩⟩
  · exact absurd hx List.not_mem_nil
  · exact absurd ((List.mem_singleton.1 hx).trans (List.mem_singleton.1 hy).symm) hne
  · exact Nat.one_lt_succ_succ _

/-- The turn passes on, or the line becomes free. -/
theorem ahead_next {x : Nat} {free : Nat} (hl : v.fds.Nodup) (hw : v.Waiting t) (hx : v.turn = some x)
    (hturn : v.next x ≠ some t) : ahead free { v with turn := v.next x } t + changed free v { v with turn := v.next x } ≤
      v.ahead free t := by
  have hne : t ≠ x := fun heq => hw.turn (by rw [hx, heq])
  have hp : decide (t ∈ v.waiting) = true := decide_eq_true hw.waiting
  by_cases hm : v.multi = true
  · have hsome : v.next x = RoundRobin.next (fun y => decide (y ∈ v.waiting)) v.fds x := if_pos hm
    cases hnext : RoundRobin.next (fun y => decide (y ∈ v.waiting)) v.fds x with
    | none =>
      rw [RoundRobin.next_eq_none_iff hl] at hnext
      exact absurd (hnext t hw.producer hne) (by rw [hp]; decide)
    | some y =>
      rw [hsome, hnext] at hturn ⊢
      have hyt : y ≠ t := fun heq => hturn (by rw [heq])
      obtain ⟨hy, hyx⟩ := RoundRobin.mem_of_next hl hnext
      have hlen := one_lt_length hy hw.producer hyt
      have hlt := RoundRobin.dist_next_lt hl hw.producer hne hp hnext hyt
      have hchange : changed free v { v with turn := some y } = 1 := by
        unfold changed
        rw [if_neg (by rw [hx]; simpa using hyx), if_neg (by simp)]
      rw [hchange]
      rw [ahead_some rfl, ahead_some hx, if_pos ⟨hm, hlen⟩, if_pos ⟨hm, hlen⟩]
      exact hlt
  · have hnone : v.next x = none := if_neg hm
    rw [hnone]
    have hchange : changed free v { v with turn := none } = free := by
      unfold changed
      rw [if_neg (by rw [hx]; simp), if_pos rfl]
    rw [hchange, ahead_none rfl, ahead_some hx, if_neg fun h => hm h.1]

theorem turn_update (ho : v.Owned) : v.update.turn = v.turn := by
  show (if v.multi = true ∧ v.decoder = false then none else v.turn) = v.turn
  split_ifs with h
  · exact (ho h.2).symm
  · rfl

theorem ahead_update (free : Nat) (hl : v.fds.Nodup) (ho : v.Owned) (hw : v.Waiting t) :
    v.update.ahead free t ≤ v.ahead free t := by
  have hturn := turn_update ho
  cases hx : v.turn with
  | none => exact (ahead_none (hturn.trans hx)).trans_le (ahead_none hx).ge
  | some x =>
    have hdec : v.decoder = true := by
      by_contra hno
      exact absurd ((ho (Bool.eq_false_iff.2 hno)).symm.trans hx) (by simp)
    by_cases hlen : 1 < v.fds.length
    · have hmulti : v.update.multi = true := by simp [update, hlen, hdec]
      rw [ahead_some (hturn.trans hx), if_pos ⟨hmulti, hlen⟩]
      refine le_trans ?_ (ahead_some hx).ge
      split_ifs
      · exact le_rfl
      · have hdist := RoundRobin.dist_lt_length hl hw.producer (fun heq : t = x => hw.turn (by rw [hx, heq]))
        show RoundRobin.dist v.fds x t ≤ _
        omega
    · have hlen' : ¬ 1 < v.update.fds.length := hlen
      rw [ahead_some (hturn.trans hx), ahead_some hx, if_neg fun h => hlen' h.2, if_neg fun h => hlen h.2]
      exact le_rfl

/-- The line was free, and another takes it. -/
theorem ahead_first {x free : Nat} (hl : v.fds.Nodup) (hw : v.Waiting t) (hx : x ∈ v.fds) (hnone : v.turn = none)
    (hm : v.update.multi = true) (hne : x ≠ t) :
    ahead free { v.update with turn := some x } t + changed free v { v.update with turn := some x } ≤ v.ahead free t := by
  have hchange : changed free v { v.update with turn := some x } = 1 := by
    unfold changed
    rw [if_neg (by rw [hnone]; simp), if_neg (by simp)]
  have hdist := RoundRobin.dist_le_pred hl hx hw.producer hne.symm
  have hlen : 1 < v.fds.length := one_lt_length hx hw.producer hne
  rw [hchange, ahead_some rfl, if_pos ⟨hm, hlen⟩, ahead_none hnone]
  show RoundRobin.dist v.fds x t + 1 ≤ _
  omega

/-- A producer is removed: then everything may start over. -/
theorem ahead_remove {x free : Nat} (hfree : free ≤ 1) (hl : v.fds.Nodup)
    (hw' : Waiting t { v with fds := v.fds.erase x }) :
    ahead free { v with fds := v.fds.erase x } t ≤
      v.ahead free t + v.fds.length * (v.fds.length - (v.fds.erase x).length) := by
  by_cases hx : x ∈ v.fds
  · have hle := ahead_le (v := { v with fds := v.fds.erase x }) (hl.erase x) hw'.producer hw'.turn free
    have hlen : (v.fds.erase x).length = v.fds.length - 1 := List.length_erase_of_mem hx
    have hpos : 0 < v.fds.length := List.length_pos_of_mem hx
    have hone : v.fds.length - (v.fds.erase x).length = 1 := by omega
    rw [hone, Nat.mul_one]
    refine hle.trans ?_
    show (v.fds.erase x).length - 1 + free ≤ _
    omega
  · rw [List.erase_of_not_mem hx]
    exact Nat.le_add_right _ _

/-- Unless a producer is removed, a change of the turn is one less ahead. -/
theorem ahead_step {free : Nat} (hfree : free ≤ 1) (hl : v.fds.Nodup) (ho : v.Owned) (hw : v.Waiting t)
    (hw' : v'.Waiting t)
    (hs : TurnStep v v') (hreset : v'.resets = v.resets) :
    v'.fds.Nodup ∧ v'.fds.length ≤ v.fds.length ∧
      v'.ahead free t + changed free v v' ≤ v.ahead free t + v.fds.length * (v.fds.length - v'.fds.length) := by
  have hsame : ∀ {w : Turns}, w.turn = v.turn → changed free v w = 0 := fun h => if_pos h
  cases hs with
  | stay => exact ⟨hl, le_rfl, by rw [hsame rfl]; exact Nat.le_add_right _ _⟩
  | update =>
    rw [hsame (turn_update ho)]
    exact ⟨hl, le_rfl, Nat.le_add_right_of_le (ahead_update free hl ho hw)⟩
  | waits fds =>
    have hturn : changed free v { v with waiting := fds } = 0 := hsame rfl
    rw [hturn]
    exact ⟨hl, le_rfl, Nat.le_add_right _ _⟩
  | remove fd =>
    have hturn : changed free v { v with fds := v.fds.erase fd } = 0 := hsame rfl
    rw [hturn]
    exact ⟨hl.erase fd, List.erase_sublist.length_le, ahead_remove hfree hl hw'⟩
  | next hx hsucc =>
    obtain rfl := hsucc hl
    exact ⟨hl, le_rfl, Nat.le_add_right_of_le (ahead_next hl hw hx hw'.turn)⟩
  | @first x hfd hx hm =>
    have hne : x ≠ t := fun heq => hw'.turn (congrArg some heq)
    exact ⟨hl, le_rfl, Nat.le_add_right_of_le (ahead_first hl hw hfd hx hm hne)⟩
  | reset hr => exact absurd hreset hr.1.ne'

end Turns

namespace Catn

variable {cn : Catn}

/-- The descriptor is a producer's of the radio's channel that has data waiting. -/
def Wants (cn : Catn) (fd : Nat) : Prop := fd ∈ cn.router.fds cn.channel ∧ fd ∈ cn.waiting

instance (cn : Catn) (fd : Nat) : Decidable (cn.Wants fd) := inferInstanceAs (Decidable (_ ∧ _))

/-- No producer is added, and the decoder is not reset. -/
def Undisturbed (cn : Catn) (e : CatnEv) : Prop :=
  (∀ fd, e ≠ .router (.addProducer fd cn.channel)) ∧ (cn.step e).log.count .reset = cn.log.count .reset

/-- The turn changes. -/
def turnChanges (cn : Catn) (e : CatnEv) : Nat := if (cn.step e).turnFd = cn.turnFd then 0 else 1

/-- The turn changes to an application. -/
def turnsGiven (cn : Catn) (e : CatnEv) : Nat :=
  if (cn.step e).turnFd = cn.turnFd then 0 else if (cn.step e).turnFd = none then 0 else 1

def producersRemoved (cn : Catn) (e : CatnEv) : Nat :=
  (cn.router.fds cn.channel).length - ((cn.step e).router.fds (cn.step e).channel).length

theorem owned_runs (hasFlagsChannel radio2 : Bool) (evs : List CatnEv) :
    (runs hasFlagsChannel radio2 evs).turns.Owned := by
  have hstep : ∀ (cn : Catn) (e : CatnEv), cn.turns.Owned → (cn.step e).turns.Owned := by
    intro cn e h
    rcases @turnStep_step cn e with hs | ⟨fd, -, hs⟩
    · exact Turns.owned_step h hs
    · rw [hs]
      exact h
  exact Run.run_inv hstep (fun _ => rfl) evs

/-- The changes of the turn while a producer waits for it. -/
theorem changes_le {evs : List CatnEv} {fd free : Nat} (hfree : free ≤ 1) (hl : (cn.router.fds cn.channel).Nodup)
    (ho : cn.turns.Owned) (hw : ∀ as, as <+: evs → (Run.run step cn as).turns.Waiting fd)
    (hu : Run.StepsOk step Undisturbed cn evs) :
    Run.total step (fun cn e => Turns.changed free cn.turns (cn.step e).turns) cn evs + 1 ≤
      (Run.total step producersRemoved cn evs + 1) * (cn.router.fds cn.channel).length + free := by
  have hok := (Run.stepsOk_of_prefix (P := fun c : Catn => c.turns.Waiting fd) hw).and hu
  have hstep : ∀ (c : Catn) (e : CatnEv),
      (c.turns.fds.Nodup ∧ c.turns.Owned ∧ c.turns.fds.length ≤ (cn.router.fds cn.channel).length) →
      ((c.turns.Waiting fd ∧ (c.step e).turns.Waiting fd) ∧ c.Undisturbed e) →
      ((c.step e).turns.fds.Nodup ∧ (c.step e).turns.Owned ∧
        (c.step e).turns.fds.length ≤ (cn.router.fds cn.channel).length) ∧
      (((c.step e).turns.ahead free fd : Nat) : Int) + (Turns.changed free c.turns (c.step e).turns : Nat) ≤
        ((c.turns.ahead free fd : Nat) : Int) + ((cn.router.fds cn.channel).length * c.producersRemoved e : Nat) := by
    rintro c e ⟨hn, howned, hle⟩ ⟨⟨hbefore, hafter⟩, hadd, hreset⟩
    rcases @turnStep_step c e with hs | ⟨x, heq, -⟩
    · obtain ⟨hn', hle', hahead⟩ := Turns.ahead_step hfree hn howned hbefore hafter hs hreset
      refine ⟨⟨hn', Turns.owned_step howned hs, hle'.trans hle⟩, ?_⟩
      have hmul := Nat.mul_le_mul_right (c.turns.fds.length - (c.step e).turns.fds.length) hle
      have hput : c.producersRemoved e = c.turns.fds.length - (c.step e).turns.fds.length := rfl
      rw [hput]
      omega
    · exact absurd heq (hadd x)
  have hsum := Run.level_add_total_le hstep ⟨hl, ho, le_rfl⟩ hok
  rw [Run.total_mul] at hsum
  have hwait := hw [] List.nil_prefix
  have hpos : 0 < (cn.router.fds cn.channel).length := List.length_pos_of_mem hwait.producer
  have hstart : cn.turns.ahead free fd ≤ (cn.router.fds cn.channel).length - 1 + free :=
    Turns.ahead_le hl hwait.producer hwait.turn free
  have hcomm := Nat.mul_comm (cn.router.fds cn.channel).length (Run.total step producersRemoved cn evs)
  rw [Nat.add_mul, Nat.one_mul]
  omega

end Catn

/-- The next producer is the cyclically next one that waits. A producer that keeps waiting has the turn once others had
it as often as there are producers, and as often again for each producer that is removed. With the changes to free for
all counted, one change more may be needed. -/
theorem fair_turns :
    (∀ (r : Router) (ch : Channel) (waiting : List Nat) (fd : Nat), (r.fds ch).Nodup →
      (∀ as bs, r.fds ch = as ++ fd :: bs →
        r.mhrNextWaitingProducer ch (some fd) waiting = (bs ++ as).find? (· ∈ waiting)) ∧
      (fd ∉ r.fds ch → r.mhrNextWaitingProducer ch (some fd) waiting = (r.fds ch).find? (· ∈ waiting)) ∧
      (r.mhrNextWaitingProducer ch (some fd) waiting = none ↔ ∀ x ∈ r.fds ch, x ≠ fd → x ∉ waiting)) ∧
    ∀ (hasFlagsChannel radio2 : Bool) (before evs : List CatnEv) (fd : Nat),
      let cn := Catn.runs hasFlagsChannel radio2 before
      let n := (cn.router.fds cn.channel).length
      let r := Run.total Catn.step Catn.producersRemoved cn evs
      (cn.router.fds cn.channel).Nodup → Run.StepsOk Catn.step Catn.Undisturbed cn evs →
      (∀ as, as <+: evs → (Run.run Catn.step cn as).Wants fd) →
      ((r + 1) * n < Run.total Catn.step Catn.turnChanges cn evs ∨
        (r + 1) * n ≤ Run.total Catn.step Catn.turnsGiven cn evs) →
      ∃ as, as <+: evs ∧ (Run.run Catn.step cn as).turnFd = some fd := by
  constructor
  · intro r ch waiting fd hl
    refine ⟨fun as bs h => Router.next_of_mem hl h, fun hfd => Router.next_of_not_mem fun x hx heq => ?_, ?_⟩
    · rw [Option.some.inj heq] at hx
      exact hfd hx
    · rw [Router.next_eq hl, RoundRobin.next_eq_none_iff hl]
      simp only [decide_eq_false_iff_not]
  · intro hasFlagsChannel radio2 before evs fd cn n r hl hu hw hmany
    by_contra hnever
    have hwait : ∀ as, as <+: evs → (Run.run Catn.step cn as).turns.Waiting fd := fun as has =>
      ⟨(hw as has).1, (hw as has).2, fun hturn => hnever ⟨as, has, hturn⟩⟩
    have ho : cn.turns.Owned := Catn.owned_runs _ _ _
    rcases hmany with hmany | hmany
    · have hchanges : (fun (c : Catn) e => Turns.changed 1 c.turns (c.step e).turns) = Catn.turnChanges := by
        funext c e
        exact if_congr Iff.rfl rfl (ite_self 1)
      have hle := Catn.changes_le le_rfl hl ho hwait hu
      rw [hchanges] at hle
      exact absurd (Nat.le_of_succ_le_succ hle) (Nat.not_le.2 hmany)
    · have hle := Catn.changes_le (Nat.zero_le 1) hl ho hwait hu
      exact absurd hle (Nat.not_le.2 (Nat.lt_succ_of_le hmany))

/-- A radio with a CAT protocol, and no own queries. -/
def turnStart : List CatnEv :=
  [.speed (some (0x4C, 0)), .create ⟨.auto, 0, false, false⟩, .router (.setKeyerFd (some 3)),
    .router (.addProducer 10 .r1)]

/-- Two producers have data waiting, and the first one has the turn. -/
def turnBefore : List CatnEv :=
  turnStart ++ [.router (.addProducer 12 .r1), .producer 0 (.data [0x3b]), .waiting [10, 12], .wait CATN_TURN_TICK]

def turnRun : List CatnEv := [.turnTimer, .wait CATN_TURN_TIMEOUT, .turnTimer]

/-- The second one is next, and has the turn in a run with two turns. -/
theorem fair_turns_two :
    (Catn.runs true false turnBefore).router.mhrNextWaitingProducer .r1 (some 10) [10, 12] = some 12 ∧
      ∃ as, as <+: turnRun ∧ (Run.run Catn.step (Catn.runs true false turnBefore) as).turnFd = some 12 := by
  have hwants : ∀ as ∈ turnRun.inits, (Run.run Catn.step (Catn.runs true false turnBefore) as).Wants 12 := by
    decide +kernel
  constructor
  · rw [(fair_turns.1 (Catn.runs true false turnBefore).router .r1 [10, 12] 10 (by decide +kernel)).1 [] [12]
      (by decide +kernel)]
    decide
  · exact fair_turns.2 true false turnBefore turnRun 12 (by decide +kernel)
      ⟨⟨nofun, by decide +kernel⟩, ⟨nofun, by decide +kernel⟩, ⟨nofun, by decide +kernel⟩, trivial⟩
      (fun as has => hwants as ((List.mem_inits _ _).2 has)) (.inr (by decide +kernel))

/-- A producer is removed and so taking turns ends; another one comes while the first one still has the turn. -/
def lateBefore : List CatnEv :=
  turnStart ++ [.router (.addProducer 11 .r1), .producer 0 (.data [0x3b]), .router (.remProducer 11 .r1), .wait CATN_TICK,
    .tick, .router (.addProducer 12 .r1), .waiting [12]]

/-- The turn ends with nobody next, and the first one sends again. -/
def lateRun : List CatnEv := [.turnTimer, .producer 0 (.data [0x3b])]

theorem fair_turns_late : ¬ ∀ (hasFlagsChannel radio2 : Bool) (before evs : List CatnEv) (fd : Nat),
    let cn := Catn.runs hasFlagsChannel radio2 before
    let n := (cn.router.fds cn.channel).length
    let r := Run.total Catn.step Catn.producersRemoved cn evs
    (cn.router.fds cn.channel).Nodup → Run.StepsOk Catn.step Catn.Undisturbed cn evs →
    (∀ as, as <+: evs → (Run.run Catn.step cn as).Wants fd) →
    (r + 1) * n ≤ Run.total Catn.step Catn.turnChanges cn evs →
    ∃ as, as <+: evs ∧ (Run.run Catn.step cn as).turnFd = some fd := by
  intro h
  have hwants : ∀ as ∈ lateRun.inits, (Run.run Catn.step (Catn.runs true false lateBefore) as).Wants 12 := by
    decide +kernel
  have hnever : ∀ as ∈ lateRun.inits, (Run.run Catn.step (Catn.runs true false lateBefore) as).turnFd ≠ some 12 := by
    decide +kernel
  obtain ⟨as, has, hturn⟩ := h true false lateBefore lateRun 12 (by decide +kernel)
    ⟨⟨nofun, by decide +kernel⟩, ⟨nofun, by decide +kernel⟩, trivial⟩ (fun as has => hwants as ((List.mem_inits _ _).2 has))
    (by decide +kernel)
  exact hnever as ((List.mem_inits _ _).2 has) hturn

end Mhuxd
