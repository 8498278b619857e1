import Mhuxd.Router
import Mhuxd.Lib.Potential

/-!
# The rate of a channel (`lb_cb`, `producer_cb`)

All producers of a channel take from one bucket. What they read, the level of the bucket and what its timer puts in are
added up over a run: `lb_step` says what a step does to the bucket, `Level` is what the bucket keeps.
-/

namespace Mhuxd

namespace LeakyBucket

/-- The end of an interval in which there was data. -/
def refill (lb : LeakyBucket) : LeakyBucket :=
  { lb with
    availThisIval := LB_BYTES_PER_IVAL + if LB_CARRY_OVER < lb.availThisIval then LB_CARRY_OVER else lb.availThisIval }

/-- The timer expires. -/
def expire (lb : LeakyBucket) : LeakyBucket :=
  if lb.availThisIval = LB_BYTES_PER_IVAL + LB_CARRY_OVER then { lb with timer := false } else lb.refill

/-- A read of `n` bytes. -/
def take (lb : LeakyBucket) (n : Nat) : LeakyBucket :=
  if lb.bps ≠ 0 then { lb with timer := true, availThisIval := lb.availThisIval - n } else lb

/-- The level is in its bounds, and unless the bucket is full the timer runs. -/
structure Level (lb : LeakyBucket) : Prop where
  nonneg : 0 ≤ lb.availThisIval
  le : lb.availThisIval ≤ LB_BYTES_PER_IVAL + LB_CARRY_OVER
  timer : lb.bps ≠ 0 → lb.availThisIval ≠ LB_BYTES_PER_IVAL + LB_CARRY_OVER → lb.timer = true

variable {lb : LeakyBucket} {n : Nat}

theorem full_nonneg : 0 ≤ LB_BYTES_PER_IVAL + LB_CARRY_OVER := by decide

@[simp] theorem take_bps : (lb.take n).bps = lb.bps := by
  unfold take
  split_ifs <;> rfl

@[simp] theorem expire_bps : lb.expire.bps = lb.bps := by
  unfold expire
  split_ifs <;> rfl

theorem Level.take (h : lb.Level) (hn : lb.bps ≠ 0 → n ≤ lb.availThisIval) :
    (lb.take n).Level ∧ (lb.bps ≠ 0 → (lb.take n).availThisIval + n = lb.availThisIval) := by
  unfold LeakyBucket.take
  split_ifs with hbps
  · have hle := hn hbps
    have htop := h.le
    refine ⟨⟨?_, ?_, fun _ _ => rfl⟩, fun _ => ?_⟩
    · show 0 ≤ lb.availThisIval - n
      omega
    · show lb.availThisIval - n ≤ _
      omega
    · show lb.availThisIval - n + n = _
      omega
  · exact ⟨h, fun h => absurd h hbps⟩

/-- A tick puts in what an interval has at most. -/
theorem Level.expire (h : lb.Level) (htimer : lb.timer = true) :
    lb.expire.Level ∧ lb.expire.availThisIval ≤ lb.availThisIval + LB_BYTES_PER_IVAL := by
  have hpos := h.nonneg
  unfold LeakyBucket.expire
  split_ifs with hfull
  · refine ⟨⟨h.nonneg, h.le, fun _ hne => absurd hfull hne⟩, ?_⟩
    simp [LB_BYTES_PER_IVAL]
  · unfold refill
    refine ⟨⟨?_, ?_, fun _ _ => htimer⟩, ?_⟩ <;>
      simp only [LB_BYTES_PER_IVAL, LB_CARRY_OVER] <;> split_ifs <;> omega

end LeakyBucket

namespace Router

open LeakyBucket

variable {r : Router} {ch c : Channel}

/-! ### Who leaves the bucket alone -/

@[simp] theorem lb_sendIn (p : List UInt8) (c : Channel) : (r.mhrSendIn p c).1.lb = r.lb := by
  unfold mhrSendIn
  split_ifs <;> rfl

@[simp] theorem lb_pushPtt (r : Router) : r.pushPtt.lb = r.lb := by
  unfold pushPtt
  dsimp only
  split_ifs
  · rfl
  · rw [lb_sendIn]

@[simp] theorem lb_remConsumer (fd : Nat) (c : Channel) : (r.mhrRemConsumer fd c).lb = r.lb := by
  unfold mhrRemConsumer
  dsimp only
  split_ifs <;> rfl

@[simp] theorem lb_remProducer (fd : Nat) (c : Channel) : (r.mhrRemProducer fd c).lb = r.lb := by
  unfold mhrRemProducer
  split
  · rfl
  · dsimp only
    split_ifs <;> simp [obs]

@[simp] theorem lb_pttBytes (c : Channel) (i : Nat) (cs : List UInt8) (push : Bool) :
    (pttBytes c i cs r push).1.lb = r.lb := by
  induction cs generalizing r push with
  | nil => rfl
  | cons x cs ih =>
    unfold pttBytes
    split_ifs
    · exact ih push
    all_goals
      split
      · exact ih push
      · rw [ih]
        rfl

@[simp] theorem lb_processPtt (c : Channel) (i : Nat) : (r.processPttProducer c i).lb = r.lb := by
  unfold processPttProducer
  dsimp only
  split_ifs <;> simp

@[simp] theorem lb_consumerCb (c : Channel) (i : Nat) (res : WriteRes) : (r.consumerCb c i res).lb = r.lb := by
  unfold consumerCb
  split
  · rfl
  · cases res with
    | error => simp
    | again =>
      dsimp only
      split_ifs <;> rfl
    | wrote n => rfl

@[simp] theorem lb_setKeyerFd (fd : Option Nat) : (r.mhrSetKeyerFd fd).lb = r.lb := by
  unfold mhrSetKeyerFd
  split_ifs
  · rfl
  · cases r.fd <;> cases fd <;> rfl

@[simp] theorem lb_keyerRead (res : ReadRes) : (r.keyerRead res).lb = r.lb := by
  unfold keyerRead
  cases res with
  | again => rfl
  | error => simp
  | data d =>
    dsimp only
    split <;> simp

@[simp] theorem lb_keyerByte (r : Router) : r.keyerByte.1.lb = r.lb := by
  unfold keyerByte
  split
  · rfl
  · dsimp only
    split
    · rfl
    · split_ifs <;> rfl

@[simp] theorem lb_keyerBytes (n : Nat) : (keyerBytes n r).lb = r.lb := by
  induction n generalizing r with
  | zero => rfl
  | succ n ih => rw [keyerBytes, ih, lb_keyerByte]

@[simp] theorem lb_outStop (r : Router) : r.keyerOutStop.lb = r.lb := by
  unfold keyerOutStop
  split_ifs <;> rfl

@[simp] theorem lb_keyerOutCb (res : WriteRes) : (r.keyerOutCb res).lb = r.lb := by
  unfold keyerOutCb
  split_ifs
  · rfl
  · dsimp only
    cases res with
    | error => simp
    | again => simp
    | wrote n =>
      dsimp only
      split <;> simp [switchProducerEvents, obs]

@[simp] theorem lb_keyerInCb (res : ReadRes) : (r.keyerInCb res).lb = r.lb := by
  unfold keyerInCb
  split_ifs <;> simp

@[simp] theorem lb_sendOut (p : List UInt8) (c : Channel) : (r.mhrSendOut p c).lb = r.lb := rfl

@[simp] theorem lb_passOut (p : List UInt8) (c : Channel) (dest : Dest) : (r.mhrPassOut p c dest).lb = r.lb := by
  unfold mhrPassOut
  split_ifs <;> rfl

@[simp] theorem lb_addConsumer (fd : Nat) (c : Channel) : (r.mhrAddConsumer fd c).lb = r.lb := by
  unfold mhrAddConsumer
  split_ifs <;> rfl

@[simp] theorem lb_addProducer (fd : Nat) (c : Channel) : (r.mhrAddProducer fd c).lb = r.lb := by
  unfold mhrAddProducer
  split_ifs <;> rfl

@[simp] theorem lb_holdProducers (c : Channel) (hold : Bool) : (r.mhrHoldProducers c hold).lb = r.lb := by
  unfold mhrHoldProducers
  split_ifs <;> rfl

@[simp] theorem lb_setProducerTurn (c : Channel) (fd : Option Nat) : (r.mhrSetProducerTurn c fd).lb = r.lb := by
  unfold mhrSetProducerTurn
  split_ifs <;> rfl

@[simp] theorem lb_setConsumerFlags (fd : Nat) (c : Channel) (flags : UInt8) :
    (r.mhrSetConsumerFlags fd c flags).lb = r.lb := rfl

@[simp] theorem lb_intercept (c : Channel) (intercept : Bool) : (r.mhrInterceptConsumers c intercept).lb = r.lb := by
  unfold mhrInterceptConsumers
  split_ifs <;> rfl

@[simp] theorem lb_setWkTxFocus (focus : UInt8) : (r.mhrSetWkTxFocus focus).lb = r.lb := rfl

/-! ### What a step does to the bucket -/

theorem lb_producerData (c : Channel) (i : Nat) (p : List UInt8) :
    (r.producerData c i p).lb = upd r.lb c ((r.lb c).take p.length) := by
  unfold producerData
  dsimp only
  by_cases hptt : c.isPtt = true <;> by_cases hbps : (r.lb c).bps = 0 <;> simp [LeakyBucket.take, obs, hptt, hbps]

/-- `producer_cb` reads nothing, or no more than the bucket has. -/
theorem producerCb_cases (r : Router) (c : Channel) (i : Nat) (res : ReadRes) :
    (r.producerCb c i res).2 = none ∧ (r.producerCb c i res).1.lb = r.lb ∨
      ∃ fd p, r.producerCb c i res = (r.producerData c i p, some (fd, p)) ∧ p.length ≤ r.readAvail c := by
  unfold producerCb
  split
  · exact .inl ⟨rfl, rfl⟩
  · next prd _ =>
    split_ifs
    · exact .inl ⟨rfl, rfl⟩
    · exact .inl ⟨rfl, rfl⟩
    · exact .inl ⟨rfl, rfl⟩
    · cases res with
      | again => exact .inl ⟨rfl, rfl⟩
      | error => exact .inl ⟨rfl, by simp⟩
      | data data =>
        dsimp only
        split
        · exact .inl ⟨rfl, by simp⟩
        · next x xs hdata =>
          refine .inr ⟨prd.fd, x :: xs, rfl, ?_⟩
          rw [← hdata, List.length_take]
          exact Nat.min_le_left ..

theorem lb_lbCb (c : Channel) : (r.lbCb c).lb = upd r.lb c (r.lb c).expire := by
  unfold lbCb
  dsimp only
  split_ifs <;> simp [expire, refill, *]

theorem lb_mhrSetBpsLimit_of_ne (bps : Rat) (h : c ≠ ch) : (r.mhrSetBpsLimit c bps).lb ch = r.lb ch := by
  unfold mhrSetBpsLimit
  split_ifs <;> simp [h.symm]

/-- How many bytes producers of the channel read in a step. What is discarded without a keyer doesn't count. -/
def readOf (ch : Channel) (r : Router) : RouterEv → Nat
  | .producer c i res =>
    if c = ch ∧ r.producerActive c i then ((r.producerCb c i res).2.map (·.2.length)).getD 0 else 0
  | _ => 0

/-- Whether an interval of the channel ends. -/
def expiryOf (ch : Channel) (r : Router) : RouterEv → Nat
  | .lbTimer c => if c = ch ∧ (r.lb c).timer then 1 else 0
  | _ => 0

/-- A step that leaves the limit alone takes what it reads from the bucket, or refills it, or does nothing to it. -/
theorem lb_step (r : Router) (e : RouterEv) (hlim : ∀ bps, e ≠ .setBpsLimit ch bps) :
    (r.step e).lb ch = r.lb ch ∧ readOf ch r e = 0 ∧ expiryOf ch r e = 0 ∨
      (r.step e).lb ch = (r.lb ch).take (readOf ch r e) ∧ readOf ch r e ≤ r.readAvail ch ∧ expiryOf ch r e = 0 ∨
      (r.step e).lb ch = (r.lb ch).expire ∧ (r.lb ch).timer = true ∧ readOf ch r e = 0 ∧ expiryOf ch r e = 1 := by
  have hsame {r' : Router} (h : r'.lb = r.lb) : r'.lb ch = r.lb ch := congrFun h ch
  cases e with
  | setBpsLimit c bps =>
    refine .inl ⟨lb_mhrSetBpsLimit_of_ne bps fun hc => ?_, rfl, rfl⟩
    rw [hc] at hlim
    exact hlim bps rfl
  | lbTimer c =>
    rw [step, expiryOf]
    by_cases htimer : (r.lb c).timer = true
    · rw [if_pos htimer, lb_lbCb]
      by_cases hc : c = ch
      · subst hc
        exact .inr (.inr ⟨upd_self .., htimer, rfl, if_pos ⟨rfl, htimer⟩⟩)
      · exact .inl ⟨upd_of_ne _ _ (Ne.symm hc), rfl, if_neg fun h => hc h.1⟩
    · exact .inl ⟨by rw [if_neg htimer], rfl, if_neg fun h => htimer h.2⟩
  | producer c i res =>
    rw [step, readOf]
    by_cases hact : r.producerActive c i = true
    · rw [if_pos hact]
      rcases producerCb_cases r c i res with ⟨hnone, hlb⟩ | ⟨fd, p, heq, hp⟩
      · exact .inl ⟨hsame hlb, by simp [hnone], rfl⟩
      · rw [heq, lb_producerData]
        by_cases hc : c = ch
        · subst hc
          refine .inr (.inl ?_)
          simpa [hact, expiryOf] using hp
        · exact .inl ⟨upd_of_ne _ _ (Ne.symm hc), if_neg fun h => hc h.1, rfl⟩
    · exact .inl ⟨by rw [if_neg hact], if_neg fun h => hact h.2, rfl⟩
  | sendIn p c | process c n | consumer c i res | keyerIn res | keyerOut res =>
    refine .inl ⟨hsame ?_, rfl, rfl⟩
    rw [step]
    split_ifs <;> simp
  | _ => exact .inl ⟨hsame (by simp [step]), rfl, rfl⟩

/-! ### Runs -/

theorem readAvail_le (hbps : (r.lb ch).bps ≠ 0) (h : (r.lb ch).Level) : (r.readAvail ch : Int) ≤ (r.lb ch).availThisIval := by
  have hpos := h.nonneg
  unfold readAvail
  dsimp only
  split_ifs with hless
  · omega
  · rw [not_and] at hless
    have := hless hbps
    omega

theorem level_setBpsLimit (h : (r.lb ch).Level) (c : Channel) (bps : Rat) : ((r.mhrSetBpsLimit c bps).lb ch).Level := by
  by_cases hc : c = ch
  · subst hc
    unfold mhrSetBpsLimit
    split_ifs
    · exact h
    · dsimp only
      rw [upd_self]
      exact ⟨h.nonneg, h.le, fun hno => absurd rfl hno⟩
    · dsimp only
      rw [upd_self]
      exact ⟨full_nonneg, le_rfl, fun _ _ => rfl⟩
  · rwa [lb_mhrSetBpsLimit_of_ne bps hc]

theorem level_step (h : (r.lb ch).Level) (e : RouterEv) : ((r.step e).lb ch).Level := by
  by_cases hlim : ∀ bps, e ≠ .setBpsLimit ch bps
  · rcases lb_step r e hlim with ⟨hlb, -⟩ | ⟨hlb, hn, -⟩ | ⟨hlb, htimer, -⟩ <;> rw [hlb]
    · exact h
    · refine (h.take fun hbps => ?_).1
      exact le_trans (Int.ofNat_le.2 hn) (readAvail_le hbps h)
    · exact (h.expire htimer).1
  · push Not at hlim
    obtain ⟨bps, rfl⟩ := hlim
    exact level_setBpsLimit h ch bps

theorem level_runs (hasFlagsChannel : Bool) (evs : List RouterEv) (ch : Channel) :
    ((runs hasFlagsChannel evs).lb ch).Level :=
  Run.run_inv (I := fun r : Router => (r.lb ch).Level) (fun _ e h => level_step h e)
    ⟨le_rfl, full_nonneg, fun hno => absurd rfl hno⟩ evs

/-- No step reads more than it takes from the bucket. -/
theorem rate_step (r : Router) (e : RouterEv) (h : (r.lb ch).Level ∧ (r.lb ch).bps ≠ 0)
    (hlim : ∀ bps, e ≠ .setBpsLimit ch bps) : (((r.step e).lb ch).Level ∧ ((r.step e).lb ch).bps ≠ 0) ∧
      ((r.step e).lb ch).availThisIval + readOf ch r e ≤ (r.lb ch).availThisIval + (20 * expiryOf ch r e : Nat) := by
  refine ⟨⟨level_step h.1 e, ?_⟩, ?_⟩ <;>
    rcases lb_step r e hlim with ⟨hlb, hread, hexp⟩ | ⟨hlb, hn, hexp⟩ | ⟨hlb, htimer, hread, hexp⟩ <;> rw [hlb]
  · exact h.2
  · rw [take_bps]
    exact h.2
  · rw [expire_bps]
    exact h.2
  · rw [hread, hexp]
  · have hle := le_trans (Int.ofNat_le.2 hn) (readAvail_le h.2 h.1)
    rw [(h.1.take fun _ => hle).2 h.2, hexp]
    simp
  · have hput := (h.1.expire htimer).2
    rw [hread, hexp]
    simpa [LB_BYTES_PER_IVAL] using hput

/-- An expiry with data in the interval starts the producers that may be read. -/
theorem active_of_expiry (hempty : (r.lb ch).availThisIval = 0) (htimer : (r.lb ch).timer = true) {prd : Producer}
    (hprd : prd ∈ (r.step (.lbTimer ch)).producers ch) (hmay : (r.step (.lbTimer ch)).producerMayRead prd = true) :
    prd.active = true := by
  have hstep : r.step (.lbTimer ch) = r.lbCb ch := if_pos htimer
  have hread : (r.lbCb ch).producers ch = r.startReaders ch ∧
      ∀ prd, (r.lbCb ch).producerMayRead prd = r.producerMayRead prd := by
    unfold lbCb
    dsimp only
    rw [hempty, if_neg (by decide)]
    exact ⟨upd_self .., fun _ => rfl⟩
  rw [hstep, hread.1, startReaders] at hprd
  rw [hstep, hread.2] at hmay
  obtain ⟨old, -, rfl⟩ := List.mem_map.1 hprd
  split_ifs with hold
  · rfl
  · rw [if_neg hold] at hmay
    exact absurd hmay hold

/-- With the limit of a channel left alone, what its producers are read for in any number of intervals is bounded, the
level stays in its bounds, and with the level at 0 the timer runs and starts the producers again. -/
theorem input_rate_bound (hasFlagsChannel : Bool) (before : List RouterEv) (ch : Channel)
    (hbps : ((runs hasFlagsChannel before).lb ch).bps ≠ 0) :
    let r := runs hasFlagsChannel before
    (∀ (evs : List RouterEv) (k : Nat), (∀ e ∈ evs, ∀ bps, e ≠ .setBpsLimit ch bps) →
      Run.total step (expiryOf ch) r evs < k → Run.total step (readOf ch) r evs ≤ 20 * k + 2) ∧
    (0 ≤ (r.lb ch).availThisIval ∧ (r.lb ch).availThisIval ≤ 22) ∧
    ((r.lb ch).availThisIval = 0 → (r.lb ch).timer = true ∧ ∀ prd ∈ (r.step (.lbTimer ch)).producers ch,
      (r.step (.lbTimer ch)).producerMayRead prd = true → prd.active = true) := by
  intro r
  have hlevel : (r.lb ch).Level := level_runs hasFlagsChannel before ch
  refine ⟨fun evs k hlim hk => ?_, ⟨hlevel.nonneg, hlevel.le⟩, fun hempty => ?_⟩
  · have hsum : ((Run.run step r evs).lb ch).availThisIval + Run.total Router.step (readOf ch) r evs ≤
        (r.lb ch).availThisIval + Run.total Router.step (fun r e => 20 * expiryOf ch r e) r evs :=
      Run.level_add_total_le (fun r e h hok => rate_step r e h hok) ⟨hlevel, hbps⟩ (Run.stepsOk_const_iff.2 hlim)
    rw [Run.total_mul] at hsum
    have hle := hlevel.le
    have hend := (Run.run_inv (I := fun r : Router => (r.lb ch).Level) (fun _ e h => level_step h e) hlevel evs).nonneg
    simp only [LB_BYTES_PER_IVAL, LB_CARRY_OVER] at hle
    omega
  · have htimer := hlevel.timer hbps (by rw [hempty]; decide)
    exact ⟨htimer, fun prd hprd hmay => active_of_expiry hempty htimer hprd hmay⟩

/-- Two producers of a channel, and an expiry between their reads. -/
theorem input_rate_bound_mcp : Run.total step (readOf .mcp) (runs true [.setBpsLimit .mcp 1000])
    [.setKeyerFd (some 3), .addProducer 5 .mcp, .addProducer 6 .mcp, .producer .mcp 0 (.data [1, 2, 3]),
      .lbTimer .mcp, .producer .mcp 1 (.data [4])] ≤ 20 * 2 + 2 :=
  (input_rate_bound true [.setBpsLimit .mcp 1000] .mcp (by decide)).1 _ 2 (by
    intro e he bps heq
    subst heq
    simp at he) (by decide)

end Router

end Mhuxd
