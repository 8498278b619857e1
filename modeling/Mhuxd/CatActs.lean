import Mhuxd.RouterGate

/-!
# What the CAT layer can do

`Act` lists the things the CAT layer does to the radio's data, the hold and the own query in flight, one
at a time. Every function of the layer is a chain of acts (`Evolves`), so an invariant of the acts is one
of every callback. `Aside` is everything else.
-/

namespace Mhuxd

namespace Catn

variable {cn cn' : Catn}

/-- Nothing happens to the radio's data and the own query in flight; the router may change its watchers
and send. -/
structure Aside (cn cn' : Catn) : Prop where
  router : Router.Kept cn.channel cn.router cn'.router
  radio2 : cn'.radio2 = cn.radio2
  alive : cn'.alive = cn.alive
  routing : cn'.routing = cn.routing
  routeBuf : cn'.routeBuf = cn.routeBuf
  routeDest : cn'.routeDest = cn.routeDest
  ownActive : cn'.ownActive = cn.ownActive
  ownTimer : cn.ownActive = true → cn.ownTimer.isSome = true → cn'.ownTimer.isSome = true
  log : cn'.log = cn.log

/-- An own query is sent: the channel is held, the timer runs, and nothing was pending. -/
structure Queried (cn cn' : Catn) : Prop where
  idle : cn.ownActive = false
  active : cn'.ownActive = true
  hold : cn'.router.hold cn.channel = true
  intercept : cn'.router.intercept cn.channel = cn.router.intercept cn.channel
  out : cn'.router.outLog cn.channel = cn.router.outLog cn.channel
  consumers : (cn'.router.consumerFds cn.channel).Sublist (cn.router.consumerFds cn.channel)
  timer : cn'.ownTimer.isSome = true
  radio2 : cn'.radio2 = cn.radio2
  alive : cn'.alive = cn.alive
  routing : cn'.routing = cn.routing
  routeBuf : cn'.routeBuf = cn.routeBuf
  routeDest : cn'.routeDest = cn.routeDest
  log : ∃ p turn fresh, cn'.log = cn.log ++ [.query p (false, false) turn fresh] ∧ (turn = none ∨ fresh = true)

/-- A byte that the router passes on itself. -/
structure Direct (b : UInt8) (cn cn' : Catn) : Prop where
  open_ : cn.router.intercept cn.channel = false
  hold : cn'.router.hold cn.channel = cn.router.hold cn.channel
  intercept : cn'.router.intercept cn.channel = cn.router.intercept cn.channel
  out : cn'.router.outLog cn.channel =
    cn.router.outLog cn.channel ++ (Router.keyerDeliver [b] cn.channel (cn.router.consumers cn.channel)).2
  consumers : cn'.router.consumerFds cn.channel = cn.router.consumerFds cn.channel
  radio2 : cn'.radio2 = cn.radio2
  alive : cn'.alive = cn.alive
  routing : cn'.routing = cn.routing
  routeBuf : cn'.routeBuf = cn.routeBuf
  routeDest : cn'.routeDest = cn.routeDest
  ownActive : cn'.ownActive = cn.ownActive
  ownTimer : cn'.ownTimer = cn.ownTimer
  log : cn'.log = cn.log ++ [.came b, .passed [b] (.dest .all) cn.turnFd (cn.takers (.dest .all))]

inductive Act : Catn → Catn → Prop
  | hold {cn : Catn} (b : UInt8) (h : cn.routing = true) : Act cn ((cn.obs (.came b)).routeRoom.routeHold b)
  | aside {cn cn' : Catn} (h : Aside cn cn') : Act cn cn'
  | frame (cn : Catn) (e : Emit) : Act cn (cn.frameCb e)
  /-- The data held is passed on to all or to the application whose turn it is. -/
  | flush {cn : Catn} {dest : Dest} (h : dest = .all ∨ dest = cn.routeDefault) :
  Act cn (cn.routeFlush (.dest dest))
  /-- The data held goes where the frames said. -/
  | flushDone {cn : Catn} (h : cn.routeDest ≠ .none) : Act cn (cn.routeFlush cn.routeDest)
  | start (cn : Catn) : Act cn cn.routeStart
  | stop {cn : Catn} (h : cn.routeBuf = []) :
    Act cn { cn with routing := false, router := cn.router.mhrInterceptConsumers cn.channel false }
  | timeout (cn : Catn) : Act cn (cn.obs .timeout).ownEnd
  | reset (cn : Catn) : Act cn (cn.obs .reset).ownEnd
  | query {cn cn' : Catn} (h : Queried cn cn') : Act cn cn'
  | catOn {cn : Catn} {turn : Option Nat} {fresh : Bool} (p : List UInt8) (h : cn.ownActive = false)
    (ht : turn = none ∨ fresh = true) : Act cn (cn.obs (.catOn p (false, false) turn fresh))
  | again {cn : Catn} {lost : Nat} (p : List UInt8) (pending : Bool × Bool) (h : cn.ownActive = true)
    (hl : lost ≠ 0) : Act cn (cn.obs (.again p lost pending))
  /-- The channel is held for a query that the router then doesn't take. -/
  | unsent {cn : Catn} (h : cn.ownActive = false) : Act cn ((cn.holdProducers true).holdProducers false)

/-- A chain of acts. -/
def Evolves : Catn → Catn → Prop := Relation.ReflTransGen Act

namespace Evolves

theorem refl : Evolves cn cn := Relation.ReflTransGen.refl

theorem one (h : Act cn cn') : Evolves cn cn' := Relation.ReflTransGen.single h

theorem trans {a b c : Catn} (h : Evolves a b) (h' : Evolves b c) : Evolves a c := Relation.ReflTransGen.trans h h'

/-- What every act keeps, a chain keeps. -/
theorem inv {I : Catn → Prop} (hact : ∀ {a b}, Act a b → I a → I b) (h : Evolves cn cn') (hI : I cn) : I cn' := by
  induction h with
  | refl => exact hI
  | tail _ hab ih => exact hact hab ih

end Evolves

theorem Aside.refl : Aside cn cn := ⟨.refl, rfl, rfl, rfl, rfl, rfl, rfl, fun _ h => h, rfl⟩

/-- Only the router changes. -/
theorem Aside.of_router {r : Router} (h : Router.Kept cn.channel cn.router r) : Aside cn { cn with router := r } :=
  ⟨h, rfl, rfl, rfl, rfl, rfl, rfl, fun _ h => h, rfl⟩

namespace Evolves

theorem aside (h : Aside cn cn') : Evolves cn cn' := .one (.aside h)

/-- First something aside. -/
theorem after {a : Catn} (h : Evolves a cn') (ha : Aside cn a) : Evolves cn cn' := (aside ha).trans h

theorem ite {a b : Catn} {p : Prop} [Decidable p] (ha : Evolves cn a) (hb : Evolves cn b) :
    Evolves cn (if p then a else b) := by
  split_ifs
  · exact ha
  · exact hb

end Evolves

/-! ### Routing and turns -/

theorem evolves_routeStop (cn : Catn) : Evolves cn cn.routeStop := by
  unfold routeStop
  split_ifs
  · refine Evolves.trans (.one (.flush (.inl rfl))) (.one (.stop ?_))
    unfold routeFlush
    dsimp only
    split_ifs with h
    · exact h
    · rfl
  · exact .refl

theorem evolves_routeCheck (cn : Catn) : Evolves cn cn.routeCheck := by
  unfold routeCheck
  split_ifs
  · exact evolves_routeStop cn
  · exact .refl

theorem aside_clientOf (cn : Catn) (fd : Nat) : Aside cn (cn.clientOf fd).1 := by
  unfold clientOf
  split
  · exact .refl
  · exact ⟨.refl, rfl, rfl, rfl, rfl, rfl, rfl, fun _ h => h, rfl⟩

theorem aside_turnClientOf (cn : Catn) (fd : Option Nat) : Aside cn (cn.turnClientOf fd).1 := by
  cases fd with
  | none => exact .refl
  | some fd => exact aside_clientOf cn fd

theorem aside_turnGive (cn : Catn) (fd : Option Nat) (fresh : Bool) : Aside cn (cn.turnGive fd fresh) := by
  obtain ⟨hr, h2, ha, h3, h4, h5, h6, h7, h8⟩ := aside_turnClientOf { cn with turnFd := fd } fd
  unfold turnGive
  dsimp only
  have hch : (({ cn with turnFd := fd } : Catn).turnClientOf fd).1.channel = cn.channel := by
    rw [channel, h2]
    rfl
  refine ⟨?_, h2, ha, h3, h4, h5, h6, h7, h8⟩
  show Router.Kept cn.channel cn.router (Router.mhrSetProducerTurn _ _ fd)
  rw [hch]
  exact hr.trans (Router.kept_setProducerTurn fd)

/-! ### The decoder -/

theorem evolves_frames (es : List Emit) (cn : Catn) : Evolves cn (es.foldl frameCb cn) := by
  induction es generalizing cn with
  | nil => exact .refl
  | cons e es ih => exact Evolves.trans (.one (.frame cn e)) (ih _)

theorem evolves_decoded (cn : Catn) (d : Dec) : Evolves cn (cn.decoded d) :=
  (evolves_frames d.drain.2 { cn with dec := some d.drain.1 }).after ⟨.refl, rfl, rfl, rfl, rfl, rfl, rfl,
    fun _ h => h, rfl⟩

theorem evolves_decoderFeed (cn : Catn) (dir : CatDir) (client : Nat) (data : List UInt8) :
    Evolves cn (cn.decoderFeed dir client data) := by
  unfold decoderFeed
  split
  · exact .refl
  · exact evolves_decoded _ _

theorem evolves_clientDiscard (cn : Catn) (client : Nat) : Evolves cn (cn.clientDiscard client) := by
  unfold clientDiscard
  split
  · exact .refl
  · exact evolves_decoded _ _

theorem evolves_decoderExpire (cn : Catn) : Evolves cn cn.decoderExpire := by
  unfold decoderExpire
  split
  · exact .refl
  · exact evolves_decoded _ _

/-! ### Turns -/

theorem evolves_turnNext (cn : Catn) : Evolves cn cn.turnNext := .aside (aside_turnGive _ _ _)

theorem evolves_turnHeld (cn : Catn) (fresh : Bool) : Evolves cn (cn.turnHeld fresh) := by
  have hagain : ∀ b, Evolves cn (cn.turnAgain b) :=
    fun b => .ite (.aside ⟨.refl, rfl, rfl, rfl, rfl, rfl, rfl, fun _ h => h, rfl⟩) .refl
  unfold turnHeld
  dsimp only
  refine (hagain _).trans (.ite .refl ?_)
  exact Evolves.trans (.ite (evolves_clientDiscard _ _) .refl) (evolves_turnNext _)

theorem evolves_turnCheck (cn : Catn) : Evolves cn cn.turnCheck := by
  unfold turnCheck
  split
  · exact .refl
  · exact evolves_turnHeld _ _

theorem evolves_multiSet (cn : Catn) (multi : Bool) : Evolves cn (cn.multiSet multi) := by
  have h : Aside cn { cn with multi := multi } := ⟨.refl, rfl, rfl, rfl, rfl, rfl, rfl, fun _ h => h, rfl⟩
  refine .ite .refl (.ite ?_ (.aside h))
  exact Evolves.after (.aside (aside_turnGive _ _ _)) h

theorem evolves_multiUpdate (cn : Catn) : Evolves cn cn.multiUpdate := by
  have hroute : ∀ a : Catn, Evolves a a.routeUpdate := fun a => .ite (.one (.start _)) (evolves_routeCheck _)
  have hfilter : Aside cn cn.filterUpdate := ⟨.refl, rfl, rfl, rfl, rfl, rfl, rfl, fun _ h => h, rfl⟩
  exact ((evolves_multiSet _ _).trans (hroute _)).after hfilter

/-! ### Set-up -/

theorem evolves_ownReset (cn : Catn) : Evolves cn cn.ownReset := by
  have hrel : Evolves cn (cn.obs .reset).ownEnd.routeRelease :=
    Evolves.trans (.one (.reset cn)) (.ite .refl (evolves_routeStop _))
  exact hrel.trans (.aside ⟨.refl, rfl, rfl, rfl, rfl, rfl, rfl, fun _ h => h, rfl⟩)

theorem evolves_reset (cn : Catn) : Evolves cn cn.reset := by
  refine Evolves.after ((evolves_ownReset { cn with resendTimer := none }).trans (.aside (aside_turnGive _ _ _))) ?_
  exact ⟨.refl, rfl, rfl, rfl, rfl, rfl, rfl, fun _ h => h, rfl⟩

theorem evolves_setDecoder (cn : Catn) (rig addr : Nat) : Evolves cn (cn.setDecoder rig addr) := by
  unfold setDecoder
  dsimp only
  split
  · exact .refl
  · exact .aside ⟨.refl, rfl, rfl, rfl, rfl, rfl, rfl, fun _ h => h, rfl⟩

theorem evolves_setupDecoder (cn : Catn) (rigtype : Option Nat) (addr : Nat) :
    Evolves cn (cn.setupDecoder rigtype addr) := by
  have h : Evolves cn ({ cn with rigtype := rigtype, civAddr := some addr } : Catn).destroyDecoder.reset :=
    Evolves.after (evolves_reset _) ⟨.refl, rfl, rfl, rfl, rfl, rfl, rfl, fun _ h => h, rfl⟩
  unfold setupDecoder
  cases rigtype with
  | none => exact h
  | some rig => exact h.trans (evolves_setDecoder _ _ _)

theorem evolves_setup (cn : Catn) (force : Bool) : Evolves cn (cn.setup force) := by
  have h : Aside cn { cn with cfgChecked := cn.now } := ⟨.refl, rfl, rfl, rfl, rfl, rfl, rfl, fun _ h => h, rfl⟩
  refine .ite .refl (.ite (.aside h) ?_)
  exact Evolves.after ((evolves_setupDecoder _ _ _).trans (evolves_multiUpdate _)) h

theorem evolves_feed (cn : Catn) (dir : CatDir) (client : Nat) (data : List UInt8) :
    Evolves cn (cn.feed dir client data) :=
  (evolves_setup cn false).trans (evolves_decoderFeed _ _ _ _)

/-! ### Own queries -/

theorem send_kept {p : List UInt8} (h : cn.send p = some cn') :
    cn' = { cn with router := (cn.router.mhrSendIn p cn.channel).1 } := by
  unfold send at h
  dsimp only at h
  split_ifs at h
  exact (Option.some.inj h).symm

theorem aside_send {p : List UInt8} (h : cn.send p = some cn') : Aside cn cn' := by
  rw [send_kept h]
  exact .of_router (Router.spared_sendIn p cn.channel).toKept

theorem ownFree_active (h : cn.ownFree = true) : cn.ownActive = false := by
  simp only [ownFree, Bool.and_eq_true, Bool.not_eq_true'] at h
  exact h.1.1.1

theorem ownFree_pending (h : cn.ownFree = true) : cn.pending = (false, false) := by
  simp only [ownFree, Bool.and_eq_true, beq_iff_eq] at h
  exact h.1.2

theorem ownFree_turn (h : cn.ownFree = true) : cn.turnFd = none ∨ cn.turnFresh = true := by
  simp only [ownFree, Bool.and_eq_true, Bool.or_eq_true, Option.isNone_iff_eq_none] at h
  exact h.2

/-- The start of routing has no part in the query. -/
theorem ownStart_eq (cn : Catn) (slot : Query) (answer : Nat) :
    cn.ownStart slot answer =
      ({ cn with ownActive := true, ownSlot := slot, ownTimeout := CATN_OWN_TIMEOUT + answer * CATN_OWN_BYTE_TIME
                 ownTimer := some (cn.now + (CATN_OWN_TIMEOUT + answer * CATN_OWN_BYTE_TIME)) } :
                 Catn).routeStart := by
  unfold ownStart routeStart
  dsimp only
  split_ifs <;> rfl

theorem holdProducers_router (cn : Catn) (b : Bool) :
    (cn.holdProducers b).router.hold cn.channel = b ∧
      (cn.holdProducers b).router.intercept = cn.router.intercept ∧
      (cn.holdProducers b).router.log = cn.router.log := by
  unfold holdProducers Router.mhrHoldProducers
  split_ifs with h
  · exact ⟨h, rfl, rfl⟩
  · exact ⟨upd_self _ _ _, rfl, rfl⟩

theorem holdProducers_consumers (cn : Catn) (b : Bool) : (cn.holdProducers b).router.consumers = cn.router.consumers := by
  unfold holdProducers Router.mhrHoldProducers
  split_ifs <;> rfl

theorem evolves_ownQuery {slot : Query} {p : List UInt8} {answer : Nat} (h : cn.ownFree = true) :
    Evolves cn (cn.ownQuery slot p answer) := by
  unfold ownQuery
  dsimp only
  split
  · exact .one (.unsent (ownFree_active h))
  · next cn₁ hs =>
    obtain rfl := send_kept hs
    obtain ⟨hh, hi, hl⟩ := cn.holdProducers_router true
    have hk : Router.Kept cn.channel (cn.holdProducers true).router
        ((cn.holdProducers true).router.mhrSendIn p cn.channel).1 := (Router.spared_sendIn p cn.channel).toKept
    rw [ownStart_eq]
    refine Evolves.trans (.one (.query ?_)) (Evolves.trans (.one (.start _)) (evolves_decoderFeed _ _ _ _))
    exact
      { idle := ownFree_active h
        active := rfl
        hold := hk.hold.trans hh
        intercept := hk.intercept.trans (congrFun hi _)
        out := hk.out.trans (congrArg _ hl)
        consumers := hk.consumers.trans (by rw [Router.consumerFds, holdProducers_consumers]; exact .refl _)
        timer := rfl
        radio2 := rfl
        alive := rfl
        routing := rfl
        routeBuf := rfl
        routeDest := rfl
        log := ⟨p, cn.turnFd, cn.turnFresh, congrArg (fun x => cn.log ++
          [CatnObs.query p x cn.turnFd cn.turnFresh])
          (ownFree_pending h), ownFree_turn h⟩ }

theorem evolves_ownSend {slot : Query} (h : cn.ownFree = true) : Evolves cn (cn.ownSend slot) := by
  have hmark : Aside cn (cn.ownMark slot) := ⟨.refl, rfl, rfl, rfl, rfl, rfl, rfl, fun _ h => h, rfl⟩
  unfold ownSend
  dsimp only
  refine .ite (.aside ⟨.refl, rfl, rfl, rfl, rfl, rfl, rfl, fun _ h => h, rfl⟩) ?_
  exact (@evolves_ownQuery (cn.ownMark slot) _ _ _ h).after hmark

theorem evolves_ownCatOnSend {p : List UInt8} (h : cn.ownFree = true) : Evolves cn (cn.ownCatOnSend p) := by
  have hon : Aside cn { cn with ownCatOn := cn.now } := ⟨.refl, rfl, rfl, rfl, rfl, rfl, rfl, fun _ h => h, rfl⟩
  unfold ownCatOnSend
  dsimp only
  split
  · exact .aside hon
  · next cn₁ hs =>
    have hp : cn₁.pending = (false, false) := by
      rw [send_kept hs]
      exact ownFree_pending h
    have ht : cn₁.turnFd = none ∨ cn₁.turnFresh = true := by
      rw [send_kept hs]
      exact ownFree_turn h
    have ha : cn₁.ownActive = false := by
      rw [send_kept hs]
      exact ownFree_active h
    rw [hp]
    refine Evolves.after (Evolves.after ?_ (aside_send hs)) hon
    exact Evolves.trans (.one (.catOn p ha ht)) (evolves_decoderFeed _ _ _ _)

theorem evolves_ownTry (cn : Catn) : Evolves cn cn.ownTry := by
  unfold ownTry
  split_ifs with h
  · exact .refl
  · exact .refl
  · have hfree : cn.ownFree = true := by simpa using h
    split
    · exact .refl
    · split
      · exact evolves_ownCatOnSend hfree
      · exact evolves_ownSend hfree

theorem evolves_resent {lost : Nat} {p : CivPending} (hown : p.own = true → cn.ownActive = true) (hl : lost ≠ 0) :
    Evolves cn (cn.resent lost p) := by
  unfold resent
  split_ifs with h
  · refine Evolves.trans (.one (.again p.buf cn.pending (hown h) hl)) (.aside ?_)
    exact ⟨.refl, rfl, rfl, rfl, rfl, rfl, rfl, fun _ _ => rfl, rfl⟩
  · exact .aside ⟨.refl, rfl, rfl, rfl, rfl, rfl, rfl, fun _ h => h, rfl⟩
  · exact .refl

theorem evolves_resendCmd {lost : Nat} (p : CivPending) (hl : lost ≠ 0) : Evolves cn (cn.resendCmd lost p) := by
  have hlater : ∀ a : Catn, Evolves a (a.resendLater lost) :=
    fun a => .ite (.aside ⟨.refl, rfl, rfl, rfl, rfl, rfl, rfl, fun _ h => h, rfl⟩) .refl
  unfold resendCmd
  split_ifs with h
  · exact .refl
  · split
    · exact .refl
    · next cn₁ hs =>
      refine Evolves.after (Evolves.trans (evolves_resent ?_ hl) (hlater _)) (aside_send hs)
      intro hown
      rw [send_kept hs]
      simpa [hown] using h

theorem evolves_civResend (cn : Catn) : Evolves cn cn.civResend := by
  have hdec : ∀ d : Option Dec, Aside cn { cn with resendTimer := none, dec := d } :=
    fun _ => ⟨.refl, rfl, rfl, rfl, rfl, rfl, rfl, fun _ h => h, rfl⟩
  unfold civResend
  dsimp only
  split
  · next hnone => exact .aside (hnone ▸ hdec none)
  · next d hd =>
    split_ifs with hl
    · exact .aside ⟨.refl, rfl, rfl, rfl, rfl, rfl, rfl, fun _ h => h, rfl⟩
    · split
      · exact .aside (hdec _)
      · exact (evolves_resendCmd _ hl).after (hdec _)

/-! ### Callbacks -/

theorem evolves_ownTimeoutCb (cn : Catn) : Evolves cn ({ cn with ownTimer := none } : Catn).ownTimeoutCb := by
  unfold ownTimeoutCb
  refine .ite (.aside ⟨.refl, rfl, rfl, rfl, rfl, rfl, rfl, fun _ _ => rfl, rfl⟩) ?_
  refine Evolves.trans (.one (.timeout cn)) (.aside ?_)
  by_cases h : cn.ownActive = true
  · simp only [ownEnd, obs, h, if_true]
    exact ⟨.refl, rfl, rfl, rfl, rfl, rfl, rfl, fun h _ => absurd h Bool.false_ne_true, rfl⟩
  · unfold ownEnd obs
    dsimp only
    rw [if_neg h, if_neg h]
    exact ⟨.refl, rfl, rfl, rfl, rfl, rfl, rfl, fun h' _ => absurd h' h, rfl⟩

theorem evolves_tickCb (cn : Catn) : Evolves cn cn.tickCb := by
  have hidle : ∀ a : Catn, Evolves a a.ownIdle := fun a => .ite .refl (evolves_ownTry a)
  have h : Evolves cn cn.decoderExpire.multiUpdate.routeCheck :=
    ((evolves_decoderExpire cn).trans (evolves_multiUpdate _)).trans (evolves_routeCheck _)
  unfold tickCb
  dsimp only
  exact h.trans (.ite .refl ((evolves_setup _ false).trans (hidle _)))

theorem evolves_radioNext (cn : Catn) : Evolves cn cn.radioNext :=
  (evolves_turnCheck cn).trans (.ite (evolves_ownTry _) .refl)

theorem evolves_routeDone (cn : Catn) : Evolves cn cn.routeDone := by
  unfold routeDone
  split_ifs with h
  · exact .one (.flushDone h)
  · exact .aside ⟨.refl, rfl, rfl, rfl, rfl, rfl, rfl, fun _ h => h, rfl⟩

theorem evolves_resendCheck (cn : Catn) : Evolves cn cn.resendCheck :=
  .ite (.ite (evolves_civResend cn) (.aside ⟨.refl, rfl, rfl, rfl, rfl, rfl, rfl, fun _ h => h, rfl⟩)) .refl

theorem evolves_hostTurn (cn : Catn) (fd : Nat) : Evolves cn (cn.hostTurn fd) :=
  .ite (.aside (aside_turnGive _ _ _)) .refl

theorem evolves_hostCb (cn : Catn) (data : List UInt8) (fd : Nat) : Evolves cn (cn.hostCb data fd) := by
  have hread : ∀ a : Catn, Evolves a (a.hostRead fd) :=
    fun a => .ite (.aside ⟨.refl, rfl, rfl, rfl, rfl, rfl, rfl, fun _ h => h, rfl⟩) .refl
  have hupdate : Evolves cn ({ cn with lastHost := cn.now } : Catn).multiUpdate :=
    (evolves_multiUpdate _).after ⟨.refl, rfl, rfl, rfl, rfl, rfl, rfl, fun _ h => h, rfl⟩
  have hturn := hupdate.trans ((evolves_hostTurn _ fd).trans (hread _))
  exact hturn.trans ((evolves_feed _ _ _ _).after (aside_clientOf _ _))

theorem evolves_keyerStateCb (cn : Catn) : Evolves cn cn.keyerStateCb := by
  have h : Evolves cn ({ cn.destroyDecoder with rigtype := none, civAddr := none } : Catn).reset.multiUpdate := by
    refine Evolves.after ((evolves_reset _).trans (evolves_multiUpdate _)) ?_
    exact ⟨.refl, rfl, rfl, rfl, rfl, rfl, rfl, fun _ h => h, rfl⟩
  exact h.trans (.ite (evolves_setup _ true) .refl)

/-! ### What a frame does -/

/-- The frame is noted; it may end the own query in flight. -/
structure Framed (e : Emit) (cn cn' : Catn) : Prop where
  intercept : cn'.router.intercept cn.channel = cn.router.intercept cn.channel
  out : cn'.router.outLog cn.channel = cn.router.outLog cn.channel
  consumers : cn'.router.consumers = cn.router.consumers
  radio2 : cn'.radio2 = cn.radio2
  alive : cn'.alive = cn.alive
  routing : cn'.routing = cn.routing
  routeBuf : cn'.routeBuf = cn.routeBuf
  routeDest : cn'.routeDest = cn.routeDest ∨ (e.frame.own = true ∧ cn'.routeDest = .drop) ∨
    (e.frame.own = false ∧ cn'.routeDest = cn.frameDest e)
  own : (cn'.ownActive = cn.ownActive ∧ cn'.router.hold cn.channel = cn.router.hold cn.channel ∧
      cn'.ownTimer = cn.ownTimer ∧ cn'.log = cn.log ++ [.frame e (cn.fdOf e.frame.client) cn.turnFd]) ∨
    (e.frame.own = true ∧ e.frame.kind ≠ .echo ∧ cn.ownActive = true ∧ cn'.ownActive = false ∧
      cn'.router.hold cn.channel = false ∧
      cn'.log = cn.log ++ [.frame e (cn.fdOf e.frame.client) cn.turnFd, .ended])

theorem ownEnd_idle (h : cn.ownActive = false) : cn.ownEnd = cn := by
  rw [ownEnd, if_neg (by simp [h])]

/-- The query in flight ends: the channel is released. -/
structure Ended (cn cn' : Catn) : Prop where
  active : cn'.ownActive = false
  hold : cn'.router.hold cn.channel = false
  intercept : cn'.router.intercept = cn.router.intercept
  out : cn'.router.log = cn.router.log
  consumers : cn'.router.consumers = cn.router.consumers
  radio2 : cn'.radio2 = cn.radio2
  alive : cn'.alive = cn.alive
  routing : cn'.routing = cn.routing
  routeBuf : cn'.routeBuf = cn.routeBuf
  routeDest : cn'.routeDest = cn.routeDest
  log : cn'.log = cn.log ++ [.ended]

theorem ownEnd_active (h : cn.ownActive = true) : Ended cn cn.ownEnd := by
  obtain ⟨hh, hi, hl⟩ := cn.holdProducers_router false
  rw [ownEnd, if_pos h]
  exact ⟨rfl, hh, hi, hl, cn.holdProducers_consumers false, rfl, rfl, rfl, rfl, rfl, rfl⟩

theorem ownRejected_ended {a : Catn} (h : Ended cn a) (slot : Query) : Ended cn (a.ownRejected slot) := by
  unfold ownRejected
  dsimp only
  split_ifs <;> exact ⟨h.active, h.hold, h.intercept, h.out, h.consumers, h.radio2, h.alive, h.routing,
    h.routeBuf, h.routeDest, h.log⟩

theorem ownAnswered_ended (f : CatFrame) (h : cn.ownActive = true) : Ended cn (cn.ownAnswered f) := by
  have he := ownEnd_active h
  have h0 : Ended cn { cn.ownEnd with ownTimeouts := 0 } :=
    ⟨he.active, he.hold, he.intercept, he.out, he.consumers, he.radio2, he.alive, he.routing, he.routeBuf, he.routeDest,
      he.log⟩
  unfold ownAnswered
  dsimp only
  split_ifs
  · exact ownRejected_ended h0 _
  · exact ⟨he.active, he.hold, he.intercept, he.out, he.consumers, he.radio2, he.alive, he.routing, he.routeBuf,
      he.routeDest, he.log⟩

theorem routeDrop_dest (cn : Catn) :
    ∃ d, cn.routeDrop = { cn with routeDest := d } ∧ (d = cn.routeDest ∨ d = .drop) := by
  unfold routeDrop
  split_ifs
  · exact ⟨.drop, rfl, .inr rfl⟩
  · exact ⟨cn.routeDest, rfl, .inl rfl⟩

theorem frameCb_other {e : Emit} (h : e.frame.dir ≠ .radio) : cn.frameCb e = cn := by
  rw [frameCb, if_pos h]

theorem frameOwn_framed {e : Emit} (hown : e.frame.own = true) :
    Framed e cn ((cn.frameNote e).frameOwn e.frame) := by
  have hdest : ∀ a : Catn, a.routeDest = cn.routeDest →
      a.routeDrop.routeDest = cn.routeDest ∨ (e.frame.own = true ∧ a.routeDrop.routeDest = .drop) ∨
        (e.frame.own = false ∧ a.routeDrop.routeDest = cn.frameDest e) := by
    intro a ha
    obtain ⟨d, hd, rfl | rfl⟩ := a.routeDrop_dest
    · exact .inl (by rw [hd]; exact ha)
    · exact .inr (.inl ⟨hown, by rw [hd]⟩)
  unfold frameOwn
  split_ifs with hans
  · have he := ownAnswered_ended e.frame hans.1
    have hrd := hdest _ he.routeDest
    obtain ⟨d, hd, -⟩ := routeDrop_dest ((cn.frameNote e).ownAnswered e.frame)
    rw [hd] at hrd ⊢
    refine ⟨congrFun he.intercept _, ?_, he.consumers, he.radio2, he.alive, he.routing, he.routeBuf, hrd, .inr ?_⟩
    · exact congrArg (List.filter _) he.out
    · exact ⟨hown, hans.2, hans.1, he.active, he.hold, he.log.trans (List.append_assoc ..)⟩
  · have hrd := hdest (cn.frameNote e) rfl
    obtain ⟨d, hd, -⟩ := routeDrop_dest (cn.frameNote e)
    rw [hd] at hrd ⊢
    exact ⟨rfl, rfl, rfl, rfl, rfl, rfl, rfl, hrd, .inl ⟨rfl, rfl, rfl, rfl⟩⟩

theorem frameOther_framed {e : Emit} (hown : e.frame.own = false) :
    Framed e cn ((cn.frameNote e).frameOther e) := by
  unfold frameOther
  dsimp only
  split_ifs
  all_goals exact ⟨rfl, rfl, rfl, rfl, rfl, rfl, rfl, .inr (.inr ⟨hown, rfl⟩), .inl ⟨rfl, rfl, rfl, rfl⟩⟩

/-- What a frame of the radio does. -/
theorem frameCb_framed {e : Emit} (h : e.frame.dir = .radio) : Framed e cn (cn.frameCb e) := by
  unfold frameCb
  rw [if_neg (by simp [h])]
  split_ifs with hown
  · exact frameOwn_framed hown
  · exact frameOther_framed (by simpa using hown)

/-! ### Flushes and the interception -/

/-- The data held is passed on; `given` is what the connectors get. -/
structure Flushed (dest : RouteDest) (given : List Obs) (cn cn' : Catn) : Prop where
  hold : cn'.router.hold = cn.router.hold
  intercept : cn'.router.intercept = cn.router.intercept
  out : cn'.router.outLog cn.channel = cn.router.outLog cn.channel ++ given
  consumers : cn'.router.consumerFds cn.channel = cn.router.consumerFds cn.channel
  radio2 : cn'.radio2 = cn.radio2
  alive : cn'.alive = cn.alive
  routing : cn'.routing = cn.routing
  routeBuf : cn'.routeBuf = []
  routeDest : cn'.routeDest = cn.routeDest
  ownActive : cn'.ownActive = cn.ownActive
  ownTimer : cn'.ownTimer = cn.ownTimer
  log : cn'.log = cn.log ++ [.passed cn.routeBuf dest cn.turnFd (cn.takers dest)]

/-- What the connectors of a destination get. -/
def givenTo (cn : Catn) : RouteDest → List Obs
  | .dest d => (Router.sendConsumers d.takes cn.routeBuf cn.channel (cn.router.consumers cn.channel)).2
  | _ => []

theorem routeFlush_empty {dest : RouteDest} (h : cn.routeBuf = []) :
    cn.routeFlush dest = { cn with routeTimer := none } := by
  unfold routeFlush
  dsimp only
  rw [if_pos h]

theorem sendConsumers_isOut {sel : Consumer → Bool} {p : List UInt8} {ch : Channel} (cns : List Consumer) :
    ∀ o ∈ (Router.sendConsumers sel p ch cns).2, o.isOut ch = true := by
  induction cns with
  | nil => simp [Router.sendConsumers]
  | cons x cns ih =>
    unfold Router.sendConsumers
    dsimp only
    split_ifs
    · simpa [Obs.isOut] using ih
    · simpa [Obs.isOut] using ih
    · exact ih

theorem routeFlush_flushed {dest : RouteDest} (h : cn.routeBuf ≠ []) :
    Flushed dest (cn.givenTo dest) cn (cn.routeFlush dest) := by
  unfold routeFlush
  dsimp only
  rw [if_neg h]
  cases dest with
  | none => exact ⟨rfl, rfl, (List.append_nil _).symm, rfl, rfl, rfl, rfl, rfl, rfl, rfl, rfl, rfl⟩
  | drop => exact ⟨rfl, rfl, (List.append_nil _).symm, rfl, rfl, rfl, rfl, rfl, rfl, rfl, rfl, rfl⟩
  | dest d =>
    have hpass : ∀ r : Router, r.mhrPassOut cn.routeBuf cn.channel d =
        { r with consumers := upd r.consumers cn.channel
                   (Router.sendConsumers d.takes cn.routeBuf cn.channel (r.consumers cn.channel)).1
                 log := r.log ++
                   (Router.sendConsumers d.takes cn.routeBuf cn.channel (r.consumers cn.channel)).2 } := by
      intro r
      rw [Router.mhrPassOut, if_neg h]
    have hout : (cn.router.mhrPassOut cn.routeBuf cn.channel d).outLog cn.channel =
        cn.router.outLog cn.channel ++ cn.givenTo (.dest d) := by
      rw [hpass]
      unfold Router.outLog givenTo
      dsimp only
      rw [List.filter_append, List.filter_eq_self.2 (sendConsumers_isOut _)]
    refine ⟨?_, ?_, hout, ?_, rfl, rfl, rfl, rfl, rfl, rfl, rfl, rfl⟩
    · show (cn.router.mhrPassOut cn.routeBuf cn.channel d).hold = _
      rw [hpass]
    · show (cn.router.mhrPassOut cn.routeBuf cn.channel d).intercept = _
      rw [hpass]
    · show (cn.router.mhrPassOut cn.routeBuf cn.channel d).consumerFds cn.channel = _
      rw [hpass, Router.consumerFds]
      dsimp only
      rw [upd_self, Router.sendConsumers_fds]
      rfl

theorem intercept_channel (cn : Catn) (b : Bool) (r : Router) :
    r.mhrInterceptConsumers cn.channel b = { r with intercept := upd r.intercept cn.channel b } := by
  unfold Router.mhrInterceptConsumers channel
  split_ifs <;> simp_all [Channel.isMh]

/-- The interception follows the routing, and nothing is held without it. -/
structure Gate (cn : Catn) : Prop where
  intercept : cn.router.intercept cn.channel = cn.routing
  buf : cn.routing = false → cn.routeBuf = []

theorem channel_eq (h : cn'.radio2 = cn.radio2) : cn'.channel = cn.channel := by
  rw [channel, channel, h]

theorem routeFlush_same (cn : Catn) (dest : RouteDest) :
    (cn.routeFlush dest).radio2 = cn.radio2 ∧ (cn.routeFlush dest).alive = cn.alive ∧
      (cn.routeFlush dest).routing = cn.routing ∧
      (cn.routeFlush dest).router.intercept = cn.router.intercept ∧ (cn.routeFlush dest).routeBuf = [] := by
  by_cases h : cn.routeBuf = []
  · rw [routeFlush_empty h]
    exact ⟨rfl, rfl, rfl, rfl, h⟩
  · have hf : Flushed dest _ cn _ := routeFlush_flushed h
    exact ⟨hf.radio2, hf.alive, hf.routing, hf.intercept, hf.routeBuf⟩

theorem routeRoom_same (cn : Catn) :
    cn.routeRoom.radio2 = cn.radio2 ∧ cn.routeRoom.alive = cn.alive ∧ cn.routeRoom.routing = cn.routing ∧
      cn.routeRoom.router.intercept = cn.router.intercept := by
  unfold routeRoom
  split_ifs
  · obtain ⟨h2, ha, hr, hi, -⟩ := cn.routeFlush_same (.dest cn.routeDefault)
    exact ⟨h2, ha, hr, hi⟩
  · exact ⟨rfl, rfl, rfl, rfl⟩

theorem ownEnd_same (cn : Catn) :
    cn.ownEnd.radio2 = cn.radio2 ∧ cn.ownEnd.alive = cn.alive ∧ cn.ownEnd.routing = cn.routing ∧
      cn.ownEnd.router.intercept = cn.router.intercept ∧ cn.ownEnd.routeBuf = cn.routeBuf := by
  by_cases h : cn.ownActive = true
  · have he := ownEnd_active h
    exact ⟨he.radio2, he.alive, he.routing, he.intercept, he.routeBuf⟩
  · rw [ownEnd_idle (by simpa using h)]
    exact ⟨rfl, rfl, rfl, rfl, rfl⟩

theorem frameCb_cases (cn : Catn) (e : Emit) : cn.frameCb e = cn ∨ Framed e cn (cn.frameCb e) := by
  by_cases h : e.frame.dir = .radio
  · exact .inr (frameCb_framed h)
  · exact .inl (frameCb_other h)

theorem routeStart_same (cn : Catn) : cn.routeStart.radio2 = cn.radio2 ∧ cn.routeStart.alive = cn.alive := by
  unfold routeStart
  split_ifs <;> exact ⟨rfl, rfl⟩

theorem Act.same (h : Act cn cn') : cn'.radio2 = cn.radio2 ∧ cn'.alive = cn.alive := by
  cases h with
  | hold b h => exact ⟨(routeRoom_same _).1, (routeRoom_same _).2.1⟩
  | aside h => exact ⟨h.radio2, h.alive⟩
  | frame e =>
    rcases cn.frameCb_cases e with h | h
    · rw [h]
      exact ⟨rfl, rfl⟩
    · exact ⟨h.radio2, h.alive⟩
  | flush h => exact ⟨(routeFlush_same _ _).1, (routeFlush_same _ _).2.1⟩
  | flushDone h => exact ⟨(routeFlush_same _ _).1, (routeFlush_same _ _).2.1⟩
  | start => exact routeStart_same cn
  | timeout => exact ⟨(ownEnd_same _).1, (ownEnd_same _).2.1⟩
  | reset => exact ⟨(ownEnd_same _).1, (ownEnd_same _).2.1⟩
  | query h => exact ⟨h.radio2, h.alive⟩
  | stop | catOn | again | unsent => exact ⟨rfl, rfl⟩

theorem Evolves.alive (h : Evolves cn cn') : cn'.alive = cn.alive :=
  h.inv (fun ha hb => ha.same.2.trans hb) rfl

theorem Gate.of_eq (h : Gate cn) (hi : cn'.router.intercept cn.channel = cn.router.intercept cn.channel)
    (h2 : cn'.radio2 = cn.radio2) (hr : cn'.routing = cn.routing)
    (hb : cn.routing = false → cn'.routeBuf = cn.routeBuf ∨ cn'.routeBuf = []) : Gate cn' := by
  refine ⟨by rw [channel_eq h2, hi, h.intercept, hr], fun hr' => ?_⟩
  rw [hr] at hr'
  rcases hb hr' with hb | hb
  · exact hb.trans (h.buf hr')
  · exact hb

theorem Gate.ownEnd (h : Gate cn) (o : CatnObs) : Gate (cn.obs o).ownEnd := by
  obtain ⟨h2, -, hr, hi, hb⟩ := (cn.obs o).ownEnd_same
  exact h.of_eq (congrFun hi _) h2 hr fun _ => .inl hb

theorem Gate.routeFlush (h : Gate cn) (dest : RouteDest) : Gate (cn.routeFlush dest) := by
  obtain ⟨h2, -, hr, hi, hb⟩ := cn.routeFlush_same dest
  exact h.of_eq (congrFun hi _) h2 hr fun _ => .inr hb

theorem Gate.act (h : Gate cn) (ha : Act cn cn') : Gate cn' := by
  cases ha with
  | hold b hr =>
    obtain ⟨h2, -, hr', hi⟩ := (cn.obs (.came b)).routeRoom_same
    exact h.of_eq (congrFun hi _) h2 hr' fun hf => absurd hf (by simp [hr])
  | aside ha => exact h.of_eq ha.router.intercept ha.radio2 ha.routing fun _ => .inl ha.routeBuf
  | frame e =>
    rcases cn.frameCb_cases e with hf | hf
    · rw [hf]
      exact h
    · exact h.of_eq hf.intercept hf.radio2 hf.routing fun _ => .inl hf.routeBuf
  | flush => exact h.routeFlush _
  | flushDone => exact h.routeFlush _
  | start =>
    unfold routeStart
    split_ifs
    · exact h
    · refine ⟨?_, fun _ => rfl⟩
      rw [intercept_channel]
      exact upd_self _ _ _
  | stop hb =>
    refine ⟨?_, fun _ => hb⟩
    rw [intercept_channel]
    exact upd_self _ _ _
  | timeout => exact h.ownEnd _
  | reset => exact h.ownEnd _
  | query ha => exact h.of_eq ha.intercept ha.radio2 ha.routing fun _ => .inl ha.routeBuf
  | catOn | again => exact ⟨h.intercept, h.buf⟩
  | unsent =>
    have hi := ((cn.holdProducers true).holdProducers_router false).2.1.trans (cn.holdProducers_router true).2.1
    exact h.of_eq (congrFun hi _) rfl rfl fun _ => .inl rfl

/-! ### Events -/

/-- What an event does: acts of the layer, something aside, a byte that the router passes on itself, and
the layer's creation and destruction. -/
inductive Move : Catn → Catn → Prop
  | acts {cn cn' : Catn} (ha : cn.alive = true) (h : Evolves cn cn') : Move cn cn'
  | aside {cn cn' : Catn} (h : Aside cn cn') : Move cn cn'
  | direct {cn cn' : Catn} (b : UInt8) (h : Direct b cn cn') : Move cn cn'
  | fresh {cn : Catn} (cfg : CatnCfg) (hr : cn.routing = false) (ha : cn.ownActive = false) :
  Move cn (cn.fresh cfg)
  | die {cn : Catn} (hr : cn.routing = false) (ha : cn.ownActive = false) :
    Move cn { cn.destroyDecoder with resendTimer := none, alive := false }

def Moves : Catn → Catn → Prop := Relation.ReflTransGen Move

namespace Moves

theorem one (h : Move cn cn') : Moves cn cn' := Relation.ReflTransGen.single h

theorem trans {a b c : Catn} (h : Moves a b) (h' : Moves b c) : Moves a c := Relation.ReflTransGen.trans h h'

theorem acts (ha : cn.alive = true) (h : Evolves cn cn') : Moves cn cn' := one (.acts ha h)

theorem inv {I : Catn → Prop} (hmove : ∀ {a b}, Move a b → I a → I b) (h : Moves cn cn') (hI : I cn) : I cn' := by
  induction h with
  | refl => exact hI
  | tail _ hab ih => exact hmove hab ih

end Moves

/-- Without a CAT layer nothing is routed and no query is in flight. -/
structure Quiet (cn : Catn) : Prop extends Gate cn where
  dead : cn.alive = false → cn.routing = false ∧ cn.ownActive = false

theorem Quiet.move (h : Quiet cn) (hm : Move cn cn') : Quiet cn' := by
  cases hm with
  | acts ha hev =>
    refine ⟨hev.inv (fun ha hg => hg.act ha) h.toGate, fun hd => ?_⟩
    rw [hev.alive, ha] at hd
    exact absurd hd (by decide)
  | aside ha =>
    refine ⟨h.toGate.act (.aside ha), fun hd => ?_⟩
    rw [ha.routing, ha.ownActive]
    exact h.dead (ha.alive.symm.trans hd)
  | direct b hd =>
    refine ⟨h.toGate.of_eq hd.intercept hd.radio2 hd.routing fun _ => .inl hd.routeBuf, fun hdead => ?_⟩
    rw [hd.routing, hd.ownActive]
    exact h.dead (hd.alive.symm.trans hdead)
  | fresh cfg hr ha => exact ⟨⟨h.intercept.trans hr, fun _ => rfl⟩, fun hd => absurd hd (by simp [fresh])⟩
  | die hr ha => exact ⟨⟨h.intercept, h.buf⟩, fun _ => ⟨hr, ha⟩⟩

theorem channel_ne (cn : Catn) : cn.channel ≠ .control := by
  unfold channel
  split_ifs <;> decide

/-- What follows a byte put into the route buffer. -/
theorem evolves_routed (cn : Catn) (b : UInt8) :
    Evolves cn ((cn.feed .radio 0 [b]).routeDone.resendCheck).radioNext.routeCheck :=
  ((((evolves_feed cn _ _ _).trans (evolves_routeDone _)).trans (evolves_resendCheck _)).trans
    (evolves_radioNext _)).trans (evolves_routeCheck _)

theorem aside_radioMark (cn : Catn) : Aside cn cn.radioMark :=
  ⟨.refl, rfl, rfl, rfl, rfl, rfl, rfl, fun _ h => h, rfl⟩

/-- A byte that goes into the route buffer. -/
theorem evolves_came_held (b : UInt8) (h : cn.routing = true) : Evolves cn ((cn.obs (.came b)).radioCb b) := by
  have hhold : Evolves cn.radioMark ((cn.radioMark.obs (.came b)).routeRoom.routeHold b) := .one (.hold b h)
  unfold radioCb
  split_ifs with hr
  · exact (hhold.trans (evolves_routed _ b)).after cn.aside_radioMark
  · exact absurd h hr

/-- A byte that the router has passed on. -/
theorem evolves_came_direct (b : UInt8) (h : cn.routing = false) : Evolves cn (cn.radioCb b) := by
  unfold radioCb
  rw [if_neg (by simp [h])]
  exact ((evolves_feed _ _ _ _).trans (evolves_radioNext _)).after cn.aside_radioMark

theorem moves_came_held {b : UInt8} (h : Quiet cn) (hi : cn.router.intercept cn.channel = true) :
    Moves cn (({ cn with router := cn.router.keyerByte.1 } : Catn).came b) := by
  have hr : cn.routing = true := h.intercept.symm.trans hi
  have halive : cn.alive = true := by
    by_contra ha
    have := (h.dead (by simpa using ha)).1
    rw [hr] at this
    exact absurd this (by decide)
  have hs : Router.Spared cn.channel cn.router cn.router.keyerByte.1 := Router.spared_keyerByte (.inl hi)
  have hpass : (({ cn with router := cn.router.keyerByte.1 } : Catn).obs (.came b)).passDirect b =
      ({ cn with router := cn.router.keyerByte.1 } : Catn).obs (.came b) := if_pos (hs.intercept.trans hi)
  unfold came
  dsimp only
  rw [hpass]
  split_ifs with ha
  · have haside : Aside cn { cn with router := cn.router.keyerByte.1 } := .of_router hs.toKept
    exact .acts halive (Evolves.after (evolves_came_held b hr) haside)
  · exact absurd halive ha

theorem takers_all (cn : Catn) : cn.takers (.dest .all) = cn.router.consumerFds cn.channel := by
  unfold takers
  exact congrArg (List.map _) (List.filter_eq_self.2 fun _ _ => rfl)

theorem moves_came_direct {b : UInt8} (h : Quiet cn) (hrep : cn.router.keyerByte.2 = some (cn.channel, [b]))
    (hi : cn.router.intercept cn.channel = false) :
    Moves cn (({ cn with router := cn.router.keyerByte.1 } : Catn).came b) := by
  have hr : cn.routing = false := h.intercept.symm.trans hi
  obtain ⟨hh, -, hint, hcns, hout⟩ := Router.direct_keyerByte hrep hi
  have hfds : cn.router.keyerByte.1.consumerFds cn.channel = cn.router.consumerFds cn.channel :=
    (congrArg _ hcns).trans (Router.keyerDeliver_fds _ _ _)
  have htakers : ({ cn with router := cn.router.keyerByte.1 } : Catn).takers (.dest .all) =
    cn.takers (.dest .all) := by
    rw [takers_all, takers_all]
    exact hfds
  have hd : Direct b cn ((({ cn with router := cn.router.keyerByte.1 } : Catn).obs (.came b)).passDirect b) := by
    unfold passDirect
    split_ifs with hi'
    · have : cn.router.keyerByte.1.intercept cn.channel = true := hi'
      rw [hint, hi] at this
      exact absurd this (by decide)
    · refine ⟨hi, congrFun hh _, congrFun hint _, hout, hfds, rfl, rfl, rfl, rfl, rfl, rfl, rfl, ?_⟩
      refine (List.append_assoc cn.log [_] [_]).trans ?_
      exact congrArg (fun fds => cn.log ++ [.came b, .passed [b] (.dest .all) cn.turnFd fds]) htakers
  unfold came
  dsimp only
  split_ifs with ha
  · refine (Moves.one (.direct b hd)).trans (.acts ha (evolves_came_direct b ?_))
    exact hd.routing.trans hr
  · exact .one (.direct b hd)

theorem moves_came {b : UInt8} (h : Quiet cn) (hrep : cn.router.keyerByte.2 = some (cn.channel, [b])) :
    Moves cn (({ cn with router := cn.router.keyerByte.1 } : Catn).came b) := by
  by_cases hi : cn.router.intercept cn.channel = true
  · exact moves_came_held h hi
  · exact moves_came_direct h hrep (by simpa using hi)

theorem moves_keyerByte (h : Quiet cn) : Moves cn cn.keyerByte := by
  have haside : (∀ d, cn.router.keyerByte.2 ≠ some (cn.channel, d)) →
      Aside cn { cn with router := cn.router.keyerByte.1 } :=
    fun hne => .of_router (Router.spared_keyerByte (.inr hne)).toKept
  unfold keyerByte
  dsimp only
  split
  · next ch b hrep =>
    split_ifs with hch
    · subst hch
      exact moves_came h hrep
    · refine .one (.aside (haside fun d hd => hch ?_))
      rw [hrep] at hd
      exact (Prod.mk.inj (Option.some.inj hd)).1
  · next hno =>
    refine .one (.aside (haside fun d hd => ?_))
    obtain ⟨b, rfl⟩ := Router.keyerByte_single hd cn.channel_ne
    exact hno _ _ hd

theorem moves_producer (i : Nat) (res : ReadRes) : Moves cn (cn.producer i res) := by
  have hs : Aside cn { cn with router := (cn.router.producerCb cn.channel i res).1 } :=
    .of_router (Router.spared_producerCb _ i res).toKept
  unfold producer
  dsimp only
  split
  · exact .one (.aside hs)
  · split_ifs with ha
    · exact .acts ha ((evolves_hostCb _ _ _).after hs)
    · exact .one (.aside hs)

theorem routeStop_idle (cn : Catn) : cn.routeStop.routing = false ∧ cn.routeStop.ownActive = cn.ownActive := by
  unfold routeStop
  split_ifs with h
  · refine ⟨rfl, ?_⟩
    by_cases hb : cn.routeBuf = []
    · rw [routeFlush_empty hb]
    · exact (routeFlush_flushed hb).ownActive
  · exact ⟨by simpa using h, rfl⟩

theorem ownEnd_ends (cn : Catn) : cn.ownEnd.ownActive = false := by
  by_cases h : cn.ownActive = true
  · exact (ownEnd_active h).active
  · have h : cn.ownActive = false := by simpa using h
    rw [ownEnd_idle h, h]

theorem ownReset_ends (cn : Catn) : cn.ownReset.ownActive = false := by
  show (cn.obs .reset).ownEnd.routeRelease.ownActive = false
  unfold routeRelease
  split_ifs
  · exact ownEnd_ends _
  · exact (routeStop_idle _).2.trans (ownEnd_ends _)

theorem moves_destroy (ha : cn.alive = true) : Moves cn cn.destroy := by
  have hev : Evolves cn (cn.ownReset.turnGive none false).routeStop :=
    ((evolves_ownReset cn).trans (.aside (aside_turnGive _ _ _))).trans (evolves_routeStop _)
  refine (Moves.acts ha hev).trans (.one (.die (routeStop_idle _).1 ?_))
  rw [(routeStop_idle _).2, (aside_turnGive _ _ _).ownActive]
  exact ownReset_ends cn

theorem moves_due {a : Catn} {t : Option Nat} (h : Evolves cn a) : Moves cn (if cn.due t then a else cn) := by
  split_ifs with hd
  · simp only [due, Bool.and_eq_true] at hd
    exact .acts hd.1 h
  · exact Relation.ReflTransGen.refl

/-- A connector is added for the radio's data. -/
def withConsumer (cn : Catn) (fd : Nat) : Catn := { cn with router := cn.router.mhrAddConsumer fd cn.channel }

theorem Quiet.withConsumer (h : Quiet cn) (fd : Nat) : Quiet (cn.withConsumer fd) := by
  obtain ⟨-, hi, -⟩ := @Router.addConsumer_rest cn.router fd cn.channel
  exact ⟨⟨(congrFun hi _).trans h.intercept, h.buf⟩, h.dead⟩

/-- Every other event is a chain of moves. -/
theorem step_moves (h : Quiet cn) {e : CatnEv} (hadd : ∀ fd, e ≠ .router (.addConsumer fd cn.channel)) :
    Moves cn (cn.step e) := by
  have hrefl : Moves cn cn := Relation.ReflTransGen.refl
  cases e with
  | wait dt => exact .one (.aside ⟨.refl, rfl, rfl, rfl, rfl, rfl, rfl, fun _ h => h, rfl⟩)
  | router e =>
    show Moves cn (if _ then _ else _)
    split_ifs with he
    · have hs : Router.Spared cn.channel cn.router (cn.router.step e) :=
        Router.spared_step _ he fun fd hfd => hadd fd (congrArg _ hfd)
      exact .one (.aside (.of_router hs.toKept))
    · exact hrefl
  | keyerRead res =>
    show Moves cn (if _ then _ else _)
    split_ifs
    · exact .one (.aside (.of_router (Router.spared_keyerRead res).toKept))
    · exact hrefl
  | keyerByte => exact moves_keyerByte h
  | producer i res =>
    show Moves cn (if _ then _ else _)
    split_ifs
    · exact moves_producer i res
    · exact hrefl
  | tick => exact moves_due ((evolves_tickCb _).after ⟨.refl, rfl, rfl, rfl, rfl, rfl, rfl, fun _ h => h, rfl⟩)
  | ownTimeout => exact moves_due (evolves_ownTimeoutCb cn)
  | turnTimer => exact moves_due ((evolves_turnCheck _).after ⟨.refl, rfl, rfl, rfl, rfl, rfl, rfl, fun _ h =>
    h, rfl⟩)
  | routeTimer => exact moves_due (.one (.flush (.inr rfl)))
  | resendTimer => exact moves_due (evolves_civResend cn)
  | keyerState online =>
    have hs : Aside cn { cn with online := online } := ⟨.refl, rfl, rfl, rfl, rfl, rfl, rfl, fun _ h => h, rfl⟩
    show Moves cn (if _ then _ else _)
    split_ifs with ha
    · exact .acts ha ((evolves_keyerStateCb _).after hs)
    · exact .one (.aside hs)
  | speed p => exact .one (.aside ⟨.refl, rfl, rfl, rfl, rfl, rfl, rfl, fun _ h => h, rfl⟩)
  | waiting fds => exact .one (.aside ⟨.refl, rfl, rfl, rfl, rfl, rfl, rfl, fun _ h => h, rfl⟩)
  | create cfg =>
    show Moves cn (if _ then _ else _)
    split_ifs with ha
    · exact hrefl
    · obtain ⟨hr, hown⟩ := h.dead (by simpa using ha)
      exact (Moves.one (.fresh cfg hr hown)).trans (.acts rfl (evolves_setup _ true))
  | destroy =>
    show Moves cn (if _ then _ else _)
    split_ifs with ha
    · exact moves_destroy ha
    · exact hrefl

/-- What every move keeps, and a connector that is added, an event keeps. -/
theorem step_inv {I : Catn → Prop} (hmove : ∀ {a b}, Quiet a → Move a b → I a → I b) (hq : Quiet cn) (hI : I cn)
    {e : CatnEv} (hadd : ∀ fd, e = .router (.addConsumer fd cn.channel) → I (cn.withConsumer fd)) :
    Quiet (cn.step e) ∧ I (cn.step e) := by
  by_cases h : ∃ fd, e = .router (.addConsumer fd cn.channel)
  · obtain ⟨fd, rfl⟩ := h
    exact ⟨hq.withConsumer fd, hadd fd rfl⟩
  · have hstep := step_moves hq fun fd hfd => h ⟨fd, hfd⟩
    exact hstep.inv (I := fun cn => Quiet cn ∧ I cn) (fun hm hab => ⟨hab.1.move hm, hmove hab.1 hm hab.2⟩) ⟨hq, hI⟩

theorem quiet_init (hasFlags radio2 : Bool) : Quiet (init hasFlags radio2) := ⟨⟨rfl, fun _ => rfl⟩, fun _ => ⟨rfl, rfl⟩⟩

/-- What holds of a router without a CAT layer and is kept by every move, and by connectors that are added, holds in
every run. -/
theorem runs_inv {I : Catn → Prop} (hmove : ∀ {a b}, Quiet a → Move a b → I a → I b)
    (hadd : ∀ {a} fd, I a → I (a.withConsumer fd)) {hasFlags radio2 : Bool} (h : I (init hasFlags radio2))
    (evs : List CatnEv) : Quiet (runs hasFlags radio2 evs) ∧ I (runs hasFlags radio2 evs) := by
  refine Run.run_inv (I := fun cn => Quiet cn ∧ I cn) ?_ ⟨quiet_init hasFlags radio2, h⟩ evs
  rintro cn e ⟨hq, hI⟩
  exact step_inv hmove hq hI fun fd _ => hadd fd hI

end Catn

end Mhuxd
