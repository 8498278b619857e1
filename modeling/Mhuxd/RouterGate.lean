import Mhuxd.CatNative

/-!
# What the router leaves to the CAT layer of a channel

The hold, the turn and the interception of a channel, and what its connectors are given, change by the
CAT layer's calls and the keyer's bytes only (`spared_step`).
-/

namespace Mhuxd

/-- Data for a connector of the channel, or data it has no room for. -/
def Obs.isOut (ch : Channel) : Obs → Bool
  | .deliver _ c _ => c == ch
  | .overflow _ c => c == ch
  | _ => false

section lists
variable {α β : Type} {l : List α} {f : α → β} {g : α → α}

theorem map_map_of_same (h : ∀ x, f (g x) = f x) : (l.map g).map f = l.map f := by
  rw [List.map_map]
  exact congrArg (List.map · l) (funext h)

theorem map_modify_of_same (h : ∀ x, f (g x) = f x) {i : Nat} : (l.modify i g).map f = l.map f := by
  induction l generalizing i with
  | nil => cases i <;> rfl
  | cons x l ih =>
    cases i with
    | zero => exact congrArg (· :: _) (h x)
    | succ i => exact congrArg (_ :: ·) ih

end lists

namespace Router

/-- What the connectors of the channel were given, in order. -/
def outLog (r : Router) (ch : Channel) : List Obs := r.log.filter (Obs.isOut ch)

/-- The connectors that take the keyer's data of the channel. -/
def consumerFds (r : Router) (ch : Channel) : List Nat := (r.consumers ch).map (·.fd)

/-- The hold, the interception and the connectors' data of the channel are kept, and no connector is added. -/
structure Kept (ch : Channel) (r r' : Router) : Prop where
  hold : r'.hold ch = r.hold ch
  intercept : r'.intercept ch = r.intercept ch
  out : r'.outLog ch = r.outLog ch
  consumers : (r'.consumerFds ch).Sublist (r.consumerFds ch)

/-- So is the turn. -/
structure Spared (ch : Channel) (r r' : Router) : Prop extends Kept ch r r' where
  turn : r'.turn ch = r.turn ch

variable {ch : Channel} {a b c : Router}

theorem Kept.refl : Kept ch a a := ⟨rfl, rfl, rfl, .refl _⟩

theorem Kept.trans (h : Kept ch a b) (h' : Kept ch b c) : Kept ch a c :=
  ⟨h'.hold.trans h.hold, h'.intercept.trans h.intercept, h'.out.trans h.out, h'.consumers.trans h.consumers⟩

namespace Spared

theorem refl : Spared ch a a := ⟨.refl, rfl⟩

theorem trans (h : Spared ch a b) (h' : Spared ch b c) : Spared ch a c :=
  ⟨h.toKept.trans h'.toKept, h'.turn.trans h.turn⟩

theorem of_eq (hh : b.hold = a.hold) (ht : b.turn = a.turn) (hi : b.intercept = a.intercept) (hl : b.log = a.log)
    (hc : (b.consumerFds ch).Sublist (a.consumerFds ch)) : Spared ch a b :=
  ⟨⟨congrFun hh ch, congrFun hi ch, by rw [outLog, outLog, hl], hc⟩, congrFun ht ch⟩

/-- The router changed before in nothing that counts. -/
theorem since (h : Spared ch b c) (hh : b.hold = a.hold) (ht : b.turn = a.turn) (hi : b.intercept = a.intercept)
    (hl : b.log = a.log) (hc : (b.consumerFds ch).Sublist (a.consumerFds ch)) : Spared ch a c :=
  (of_eq hh ht hi hl hc).trans h

theorem logged (log : List Obs) (hh : b.hold = a.hold) (ht : b.turn = a.turn) (hi : b.intercept = a.intercept)
    (hl : b.log = a.log ++ log) (hc : (b.consumerFds ch).Sublist (a.consumerFds ch)) (h : ∀ o ∈ log, o.isOut ch = false) :
    Spared ch a b := by
  refine ⟨⟨congrFun hh ch, congrFun hi ch, ?_, hc⟩, congrFun ht ch⟩
  have hnil : log.filter (Obs.isOut ch) = [] := List.filter_eq_nil_iff.2 fun o ho => by simp [h o ho]
  rw [outLog, hl, List.filter_append, hnil, List.append_nil]
  rfl

theorem obs {o : Obs} (h : o.isOut ch = false) : Spared ch a (a.obs o) :=
  .logged [o] rfl rfl rfl rfl (.refl _) (by simpa using h)

end Spared

/-! ### The connectors of a channel -/

theorem consumers_upd {d : Channel} {l : List Consumer} (hb : b.consumers = upd a.consumers d l)
    (h : (l.map (·.fd)).Sublist (a.consumerFds d)) : (b.consumerFds ch).Sublist (a.consumerFds ch) := by
  unfold consumerFds at h ⊢
  rw [hb]
  by_cases hd : ch = d
  · subst hd
    rwa [upd_self]
  · rw [upd_of_ne _ _ hd]

theorem consumers_same {d : Channel} {l : List Consumer} (hb : b.consumers = upd a.consumers d l)
    (h : l.map (·.fd) = (a.consumers d).map (·.fd)) : (b.consumerFds ch).Sublist (a.consumerFds ch) :=
  consumers_upd hb (h ▸ .refl _)

theorem sendConsumers_fds {sel : Consumer → Bool} {p : List UInt8} {d : Channel} (cns : List Consumer) :
    (sendConsumers sel p d cns).1.map (·.fd) = cns.map (·.fd) := by
  induction cns with
  | nil => rfl
  | cons x cns ih =>
    unfold sendConsumers
    dsimp only
    split_ifs
    · exact congrArg (x.fd :: ·) ih
    · exact congrArg (x.fd :: ·) ih
    · exact congrArg (x.fd :: ·) ih

theorem keyerDeliver_fds (p : List UInt8) (c : Channel) (cns : List Consumer) :
    (keyerDeliver p c cns).1.map (·.fd) = cns.map (·.fd) := by
  induction cns with
  | nil => rfl
  | cons x cns ih =>
    unfold keyerDeliver
    exact congrArg (x.fd :: ·) ih

/-! ### The functions of the router -/

theorem kept_setProducerTurn (fd : Option Nat) : Kept ch a (a.mhrSetProducerTurn ch fd) := by
  unfold mhrSetProducerTurn
  split_ifs
  · exact .refl
  · exact ⟨rfl, rfl, rfl, .refl _⟩

theorem spared_sendIn (p : List UInt8) (c : Channel) : Spared ch a (a.mhrSendIn p c).1 := by
  unfold mhrSendIn
  split_ifs
  · exact .refl
  · exact .refl
  · exact .refl
  · exact .refl
  · exact .logged [.queue c p] rfl rfl rfl rfl (.refl _) (by simp [Obs.isOut])

theorem spared_pushPtt : Spared ch a a.pushPtt := by
  unfold pushPtt
  dsimp only
  split_ifs
  · exact .of_eq rfl rfl rfl rfl (.refl _)
  · exact (spared_sendIn _ _).since rfl rfl rfl rfl (.refl _)

theorem spared_closed (fd : Nat) {p : Prop} [Decidable p] (h : Spared ch a b) :
    Spared ch a (if p then b else b.obs (.close fd)) := by
  split_ifs
  · exact h
  · exact h.trans (.obs rfl)

theorem spared_remConsumer (fd : Nat) (c : Channel) : Spared ch a (a.mhrRemConsumer fd c) := by
  unfold mhrRemConsumer
  split_ifs
  · exact spared_closed fd (.of_eq rfl rfl rfl rfl (consumers_upd rfl (List.eraseP_sublist.map _)))
  · exact .refl

theorem spared_remProducer (fd : Nat) (c : Channel) : Spared ch a (a.mhrRemProducer fd c) := by
  unfold mhrRemProducer
  split
  · exact .refl
  · refine spared_closed fd ?_
    split_ifs
    · exact spared_pushPtt.since rfl rfl rfl rfl (.refl _)
    · exact .of_eq rfl rfl rfl rfl (.refl _)

theorem spared_setPttMask (c : Channel) (i : Nat) (mask : UInt8) : Spared ch a (a.setPttMask c i mask) :=
  .logged [.hold mask] rfl rfl rfl rfl (.refl _) (by simp [Obs.isOut])

theorem spared_pttBytes (c : Channel) (i : Nat) (cs : List UInt8) (push : Bool) :
    Spared ch a (pttBytes c i cs a push).1 := by
  induction cs generalizing a push with
  | nil => exact .refl
  | cons x cs ih =>
    unfold pttBytes
    split_ifs
    · exact ih _
    all_goals
      split
      · exact ih _
      · exact (spared_setPttMask c i _).trans (ih _)

theorem spared_processPtt (c : Channel) (i : Nat) : Spared ch a (a.processPttProducer c i) := by
  have h : Spared ch a (pttBytes c i (a.chanOut c).unread a false).1 :=
    spared_pttBytes c i (a.chanOut c).unread false
  unfold processPttProducer
  dsimp only
  split_ifs
  · exact h.trans (spared_pushPtt.since rfl rfl rfl rfl (.refl _))
  · exact h.trans (.of_eq rfl rfl rfl rfl (.refl _))

theorem spared_producerData (c : Channel) (i : Nat) (p : List UInt8) : Spared ch a (a.producerData c i p) := by
  have h : ∀ b : Router, b.hold = a.hold → b.turn = a.turn → b.intercept = a.intercept →
      b.log = a.log ++ [.queue c p] → b.consumers = a.consumers → Spared ch a b :=
    fun b h1 h2 h3 h4 h5 =>
      .logged [.queue c p] h1 h2 h3 h4 (by rw [consumerFds, h5]; exact .refl _) (by simp [Obs.isOut])
  unfold producerData
  dsimp only
  by_cases hptt : c.isPtt = true
  · rw [if_pos hptt]
    refine Spared.trans ?_ ((spared_processPtt c i).trans (.of_eq rfl rfl rfl rfl (.refl _)))
    exact h _ rfl rfl rfl rfl rfl
  · rw [if_neg hptt]
    exact h _ rfl rfl rfl rfl rfl

theorem spared_producerCb (c : Channel) (i : Nat) (res : ReadRes) : Spared ch a (a.producerCb c i res).1 := by
  have hrem : ∀ fd, Spared ch a ((a.mhrRemConsumer fd c).mhrRemProducer fd c) :=
    fun fd => (spared_remConsumer fd c).trans (spared_remProducer fd c)
  unfold producerCb
  split
  · exact .refl
  · split_ifs
    · exact .of_eq rfl rfl rfl rfl (.refl _)
    · exact .refl
    · exact .of_eq rfl rfl rfl rfl (.refl _)
    · cases res with
      | again => exact .refl
      | error => exact hrem _
      | data d =>
        dsimp only
        split
        · exact hrem _
        · exact spared_producerData _ _ _

theorem spared_consumerCb (c : Channel) (i : Nat) (res : WriteRes) : Spared ch a (a.consumerCb c i res) := by
  have hmodify : ∀ g : Consumer → Consumer, (∀ x, (g x).fd = x.fd) →
      Spared ch a { a with consumers := upd a.consumers c ((a.consumers c).modify i g) } := by
    intro g hg
    exact .of_eq rfl rfl rfl rfl (consumers_same rfl (map_modify_of_same hg))
  unfold consumerCb
  split
  · exact .refl
  · cases res with
    | error => exact (spared_remProducer _ _).trans (spared_remConsumer _ _)
    | again =>
      dsimp only
      split_ifs
      · exact hmodify _ fun _ => rfl
      · exact .refl
    | wrote n => exact hmodify _ fun _ => rfl

theorem spared_setKeyerFd (fd : Option Nat) : Spared ch a (a.mhrSetKeyerFd fd) := by
  unfold mhrSetKeyerFd
  split_ifs
  · exact .refl
  · have hclose : ∀ old, Spared ch a (({ a with wIn := false, wOut := false }.dropPtt).obs (.close old)) :=
      fun _ => .logged [.close _] rfl rfl rfl rfl (.refl _) (by simp [Obs.isOut])
    cases a.fd with
    | none =>
      cases fd with
      | none => exact .logged [.disconnect] rfl rfl rfl rfl (.refl _) (by simp [Obs.isOut])
      | some new => exact .logged [.connect new] rfl rfl rfl rfl (.refl _) (by simp [Obs.isOut])
    | some old =>
      cases fd with
      | none => exact (hclose old).trans (.logged [.disconnect] rfl rfl rfl rfl (.refl _) (by simp [Obs.isOut]))
      | some new => exact (hclose old).trans (.logged [.connect new] rfl rfl rfl rfl (.refl _) (by simp [Obs.isOut]))

theorem spared_keyerRead (res : ReadRes) : Spared ch a (a.keyerRead res) := by
  unfold keyerRead
  cases res with
  | again => exact .refl
  | error => exact spared_setKeyerFd _
  | data d =>
    dsimp only
    split
    · exact spared_setKeyerFd _
    · exact .of_eq rfl rfl rfl rfl (.refl _)

theorem spared_outStop : Spared ch a a.keyerOutStop := by
  unfold keyerOutStop
  split_ifs
  · exact .of_eq rfl rfl rfl rfl (.refl _)
  · exact .refl

theorem spared_keyerOutCb (res : WriteRes) : Spared ch a (a.keyerOutCb res) := by
  unfold keyerOutCb
  split_ifs
  · exact .refl
  · dsimp only
    cases res with
    | error => exact (spared_setKeyerFd _).since rfl rfl rfl rfl (.refl _)
    | again => exact spared_outStop.since rfl rfl rfl rfl (.refl _)
    | wrote n =>
      dsimp only
      split
      · exact spared_outStop.since rfl rfl rfl rfl (.refl _)
      · refine Spared.trans ?_ spared_outStop
        exact .logged [.write _] rfl rfl rfl rfl (.refl _) (by simp [Obs.isOut])

theorem sendConsumers_out {sel : Consumer → Bool} {p : List UInt8} {c : Channel} (hc : c ≠ ch) (cns : List Consumer) :
    ∀ o ∈ (sendConsumers sel p c cns).2, o.isOut ch = false := by
  induction cns with
  | nil => simp [sendConsumers]
  | cons x cns ih =>
    unfold sendConsumers
    dsimp only
    split_ifs
    · simpa [Obs.isOut, hc] using ih
    · simpa [Obs.isOut, hc] using ih
    · exact ih

theorem spared_sendOut (p : List UInt8) {c : Channel} (hc : c ≠ ch) : Spared ch a (a.mhrSendOut p c) :=
  .logged _ rfl rfl rfl rfl (consumers_same rfl (sendConsumers_fds _)) (sendConsumers_out hc _)

theorem spared_passOut (p : List UInt8) (dest : Dest) {c : Channel} (hc : c ≠ ch) :
    Spared ch a (a.mhrPassOut p c dest) := by
  unfold mhrPassOut
  split_ifs
  · exact .refl
  · exact .logged _ rfl rfl rfl rfl (consumers_same rfl (sendConsumers_fds _)) (sendConsumers_out hc _)

theorem spared_hold {c : Channel} (hc : ch ≠ c) (hold : Bool) : Spared ch a (a.mhrHoldProducers c hold) := by
  unfold mhrHoldProducers
  split_ifs
  · exact .refl
  · exact ⟨⟨upd_of_ne _ _ hc, rfl, rfl, .refl _⟩, rfl⟩

theorem spared_turn {c : Channel} (hc : ch ≠ c) (fd : Option Nat) : Spared ch a (a.mhrSetProducerTurn c fd) := by
  unfold mhrSetProducerTurn
  split_ifs
  · exact .refl
  · exact ⟨⟨rfl, rfl, rfl, .refl _⟩, upd_of_ne _ _ hc⟩

theorem spared_intercept {c : Channel} (hc : ch ≠ c) (b : Bool) : Spared ch a (a.mhrInterceptConsumers c b) := by
  unfold mhrInterceptConsumers
  split_ifs
  · exact .refl
  · exact ⟨⟨rfl, upd_of_ne _ _ hc, rfl, .refl _⟩, rfl⟩

theorem spared_lbCb (c : Channel) : Spared ch a (a.lbCb c) := by
  unfold lbCb
  dsimp only
  split_ifs
  · exact .of_eq rfl rfl rfl rfl (.refl _)
  all_goals exact .of_eq rfl rfl rfl rfl (.refl _)

theorem spared_bps (c : Channel) (bps : Rat) : Spared ch a (a.mhrSetBpsLimit c bps) := by
  unfold mhrSetBpsLimit
  split_ifs <;> exact .of_eq rfl rfl rfl rfl (.refl _)

theorem spared_addConsumer (fd : Nat) {c : Channel} (hc : c ≠ ch) : Spared ch a (a.mhrAddConsumer fd c) := by
  unfold mhrAddConsumer
  split_ifs
  · exact .refl
  · refine .of_eq rfl rfl rfl rfl ?_
    unfold consumerFds
    dsimp only
    rw [upd_of_ne _ _ hc.symm]

theorem addConsumer_rest (fd : Nat) (c : Channel) : (a.mhrAddConsumer fd c).hold = a.hold ∧
    (a.mhrAddConsumer fd c).intercept = a.intercept ∧ (a.mhrAddConsumer fd c).log = a.log := by
  unfold mhrAddConsumer
  split_ifs <;> exact ⟨rfl, rfl, rfl⟩

/-- The connector is the last one of its channel. -/
theorem addConsumer_fds (fd : Nat) : ((a.mhrAddConsumer fd ch).consumerFds ch).Sublist (a.consumerFds ch ++ [fd]) := by
  unfold mhrAddConsumer consumerFds
  split_ifs
  · exact List.sublist_append_left _ _
  · dsimp only
    rw [upd_self, List.map_append]
    exact .refl _

theorem spared_addProducer (fd : Nat) (c : Channel) : Spared ch a (a.mhrAddProducer fd c) := by
  unfold mhrAddProducer
  split_ifs <;> exact .of_eq rfl rfl rfl rfl (.refl _)

/-! ### Bytes of the keyer -/

theorem keyerDeliver_chan {p : List UInt8} {c : Channel} (cns : List Consumer) :
    ∀ o ∈ (keyerDeliver p c cns).2, o.isOut ch = (c == ch) := by
  induction cns with
  | nil => simp [keyerDeliver]
  | cons x cns ih =>
    intro o ho
    unfold keyerDeliver at ho
    dsimp only at ho
    rcases List.mem_cons.1 ho with rfl | ho
    · rfl
    · rcases List.mem_append.1 ho with ho | ho
      · split_ifs at ho
        · rw [List.mem_singleton.1 ho]
          rfl
        · exact absurd ho List.not_mem_nil
      · exact ih o ho

/-- A byte that completes nothing for the channel, or is intercepted. -/
theorem spared_keyerByte (h : a.intercept ch = true ∨ ∀ d, a.keyerByte.2 ≠ some (ch, d)) :
    Spared ch a a.keyerByte.1 := by
  unfold keyerByte at h ⊢
  split
  · exact .refl
  · next x b hget =>
    rw [hget] at h
    dsimp only at h ⊢
    split
    · exact .of_eq rfl rfl rfl rfl (.refl _)
    · next c d hrep =>
      rw [hrep] at h
      dsimp only at h ⊢
      split_ifs with hi
      · exact .of_eq rfl rfl rfl rfl (.refl _)
      · have hc : c ≠ ch := by
          rintro rfl
          rw [if_neg hi] at h
          rcases h with h | h
          · exact hi h
          · exact h d rfl
        refine .logged _ rfl rfl rfl rfl (consumers_same rfl (keyerDeliver_fds ..)) fun o ho => ?_
        rw [keyerDeliver_chan _ o ho]
        simpa using hc

/-- A byte for the channel that isn't intercepted goes to its connectors. -/
theorem direct_keyerByte {d : List UInt8} (h : a.keyerByte.2 = some (ch, d)) (hi : a.intercept ch = false) :
    a.keyerByte.1.hold = a.hold ∧ a.keyerByte.1.turn = a.turn ∧ a.keyerByte.1.intercept = a.intercept ∧
      a.keyerByte.1.consumers ch = (keyerDeliver d ch (a.consumers ch)).1 ∧
      a.keyerByte.1.outLog ch = a.outLog ch ++ (keyerDeliver d ch (a.consumers ch)).2 := by
  unfold keyerByte at h ⊢
  split at h
  · exact absurd h (by simp)
  · dsimp only at h ⊢
    split at h
    · exact absurd h (by simp)
    · next c d' hrep =>
      have hcd : c = ch ∧ d' = d := by
        split_ifs at h
        all_goals
          obtain ⟨h1, h2⟩ := Prod.mk.inj (Option.some.inj h)
          exact ⟨h1, h2⟩
      obtain ⟨rfl, rfl⟩ := hcd
      have hself : (keyerDeliver d' c (a.consumers c)).2.filter (Obs.isOut c) = (keyerDeliver d' c (a.consumers c)).2 :=
        List.filter_eq_self.2 fun o ho => by simp [keyerDeliver_chan _ o ho]
      rw [if_neg (by simp [hi])]
      refine ⟨rfl, rfl, rfl, upd_self _ _ _, ?_⟩
      show (a.log ++ _).filter _ = _
      rw [List.filter_append, hself]
      rfl

/-- One byte is reported on a data channel. -/
theorem keyerByte_single {d : List UInt8} (h : a.keyerByte.2 = some (ch, d)) (hch : ch ≠ .control) : ∃ b, d = [b] := by
  unfold keyerByte at h
  split at h
  · exact absurd h (by simp)
  · dsimp only at h
    split at h
    · exact absurd h (by simp)
    · next c d' hrep =>
      have hcd : c = ch ∧ d' = d := by
        split_ifs at h
        all_goals
          obtain ⟨h1, h2⟩ := Prod.mk.inj (Option.some.inj h)
          exact ⟨h1, h2⟩
      obtain ⟨rfl, rfl⟩ := hcd
      obtain ⟨o, -, ho⟩ := Option.map_eq_some_iff.1 hrep
      obtain ⟨rfl, hd⟩ := Prod.mk.inj ho
      rw [if_neg hch] at hd
      exact ⟨_, hd.symm⟩

/-! ### Events -/

/-- An event the CAT layer of the channel has no part in, and that adds no connector to it. -/
theorem spared_step (r : Router) {e : RouterEv} (h : e.spares ch = true) (hadd : ∀ fd, e ≠ .addConsumer fd ch) :
    Spared ch r (r.step e) := by
  have hne : ∀ {c : Channel}, (c != ch) = true → c ≠ ch := fun hc => by simpa using hc
  cases e with
  | setKeyerFd fd => exact spared_setKeyerFd fd
  | addConsumer fd c => exact spared_addConsumer fd fun hc => hadd fd (hc ▸ rfl)
  | addProducer fd c => exact spared_addProducer fd c
  | remConsumer fd c => exact spared_remConsumer fd c
  | remProducer fd c => exact spared_remProducer fd c
  | sendIn p c =>
    show Spared ch r (if _ then _ else _)
    split_ifs
    · exact .refl
    · exact spared_sendIn p c
  | sendOut p c => exact spared_sendOut p (hne h)
  | passOut p c dest => exact spared_passOut p dest (hne h)
  | process c n =>
    show Spared ch r (if _ then _ else _)
    split_ifs
    · exact .of_eq rfl rfl rfl rfl (.refl _)
    · exact .refl
  | holdProducers c b => exact spared_hold (hne h).symm b
  | setProducerTurn c fd => exact spared_turn (hne h).symm fd
  | setConsumerFlags fd c flags =>
    refine .of_eq rfl rfl rfl rfl (consumers_same rfl (map_map_of_same fun x => ?_))
    split_ifs <;> rfl
  | intercept c b => exact spared_intercept (hne h).symm b
  | setBpsLimit c bps => exact spared_bps c bps
  | setWkTxFocus f => exact .of_eq rfl rfl rfl rfl (.refl _)
  | lbTimer c =>
    show Spared ch r (if _ then _ else _)
    split_ifs
    · exact spared_lbCb c
    · exact .refl
  | producer c i res =>
    show Spared ch r (if _ then _ else _)
    split_ifs
    · exact spared_producerCb c i res
    · exact .refl
  | consumer c i res =>
    show Spared ch r (if _ then _ else _)
    split_ifs
    · exact spared_consumerCb c i res
    · exact .refl
  | keyerIn res => exact absurd h Bool.false_ne_true
  | keyerOut res =>
    show Spared ch r (if _ then _ else _)
    split_ifs
    · exact spared_keyerOutCb res
    · exact .refl

end Router

end Mhuxd
