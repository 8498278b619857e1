import Mhuxd.Router
import Mhuxd.MuxSpec

/-!
# The way of the bytes to the keyer

`Link` is what is left of a router on the way to the keyer: the channel buffers, the output buffer,
the PTT masks the producers hold and what was written since the latest connect (`Wire`, read off the
log). Every step of the router is a few acts of the link (`link_step`), each with what the event has
to do with it (`LinkOk`); everything else a router does leaves its link as it is.
-/

namespace Mhuxd

/-! ### What the log says of the line -/

/-- The line since the latest connect: the slots the keyer has read, what was queued for each channel
and the PTT bits some producer held. `dec` is the keyer's reader behind all bytes written. -/
structure Wire where
  dec : RefDec
  slots : List Slot
  queued : Channel → List UInt8
  held : UInt8

namespace Wire

def init : Wire := ⟨.init, [], fun _ => [], 0⟩

def step (w : Wire) : Obs → Wire
  | .connect _ => ⟨w.dec, [], fun _ => [], 0⟩
  | .hold mask => { w with held := w.held ||| mask }
  | .queue ch p => { w with queued := upd w.queued ch (w.queued ch ++ p) }
  | .write p => { w with dec := w.dec.after p, slots := w.slots ++ w.dec.slots p }
  | _ => w

end Wire

/-! ### The link -/

@[ext] structure Link where
  online : Bool
  chanOut : Channel → Buffer
  bufOut : Buffer
  masks : Channel → List UInt8
  wflag : UInt8
  hasFlags : Bool
  wire : Wire

inductive LinkAct
  | queue (ch : Channel) (p : List UInt8)
  | take (ch : Channel) (b : Buffer)
  | addProducer (ch : Channel)
  /-- A producer is gone; the flags byte is pushed if it held PTT. -/
  | remProducer (ch : Channel) (i : Nat)
  /-- A producer's mask is assigned, once for each of its bytes, and the flags byte is pushed. -/
  | holds (ch : Channel) (i : Nat) (masks : List UInt8)
  | mux
  | write (n : Nat)
  | offline
  | online

namespace Link

/-- The masks of the PTT producers together. -/
def held (l : Link) : UInt8 :=
  ((Channel.all.filter Channel.isPtt).flatMap l.masks).foldl (· ||| ·) 0

def queue (l : Link) (ch : Channel) (p : List UInt8) : Link :=
  { l with chanOut := upd l.chanOut ch ((l.chanOut ch).append p), wire := l.wire.step (.queue ch p) }

def sync (l : Link) : Link := { l with wflag := (l.wflag &&& ~~~PTT_FLAGS) ||| l.held }

/-- A flags byte can be queued. -/
def canPush (l : Link) : Bool := l.online && l.hasFlags && decide (1 ≤ (l.chanOut .flags).avail)

/-- The PTT bits held are put into the flags byte, and it is queued if it can be. -/
def push (l : Link) : Link := if l.canPush then l.sync.queue .flags [l.sync.wflag] else l.sync

def setMask (ch : Channel) (i : Nat) (l : Link) (mask : UInt8) : Link :=
  { l with masks := upd l.masks ch ((l.masks ch).modify i fun _ => mask), wire := l.wire.step (.hold mask) }

def erase (l : Link) (ch : Channel) (i : Nat) : Link :=
  { l with masks := upd l.masks ch ((l.masks ch).eraseIdx i) }

def drop (l : Link) : Link :=
  if l.online then { l with masks := fun ch => (l.masks ch).map fun _ => 0, wflag := l.wflag &&& ~~~PTT_FLAGS }
  else l

theorem drop_chanOut (l : Link) : l.drop.chanOut = l.chanOut := by
  unfold drop
  split_ifs <;> rfl

theorem drop_bufOut (l : Link) : l.drop.bufOut = l.bufOut := by
  unfold drop
  split_ifs <;> rfl

def act (l : Link) : LinkAct → Link
  | .queue ch p => l.queue ch p
  | .take ch b => { l with chanOut := upd l.chanOut ch b }
  | .addProducer ch => { l with masks := upd l.masks ch (l.masks ch ++ [0]) }
  | .remProducer ch i => if (l.masks ch)[i]?.any (· != 0) then (l.erase ch i).push else l.erase ch i
  | .holds ch i masks => (masks.foldl (setMask ch i) l).push
  | .mux => { l with bufOut := (mxMux l.bufOut l.chanOut).1, chanOut := (mxMux l.bufOut l.chanOut).2.1 }
  | .write n =>
    { l with bufOut := l.bufOut.consume (l.bufOut.unread.take n).length
             wire := l.wire.step (.write (l.bufOut.unread.take n)) }
  | .offline => { l.drop with online := false }
  | .online => { l.drop with online := true, wire := l.wire.step (.connect 0) }

end Link

namespace Router

/-- What the log says of the line. -/
def wire (r : Router) : Wire := r.log.foldl Wire.step .init

def link (r : Router) : Link where
  online := r.fd.isSome
  chanOut := r.chanOut
  bufOut := r.bufOut
  masks := fun ch => (r.producers ch).map (·.pttMask)
  wflag := r.wflag
  hasFlags := r.hasFlagsChannel
  wire := r.wire

/-- The first producer of a descriptor holds PTT. -/
def heldBy (r : Router) (fd : Nat) (ch : Channel) : Bool :=
  ((r.producers ch).find? (·.fd == fd)).any (·.pttMask != 0)

/-- The event makes the router push the flags byte: a valid byte of a PTT producer, or the end of a
producer that holds PTT. -/
def pushes (r : Router) : RouterEv → Bool
  | .remProducer fd ch => r.heldBy fd ch
  | .producer ch i (.data d) =>
    if d = [] then (r.producers ch)[i]?.any fun prd => r.heldBy prd.fd ch
    else ch.isPtt && ((r.chanOut ch).unread ++ d).any fun c => c == PTT_ON_BYTE || c == PTT_OFF_BYTE
  | .producer ch i .error => (r.producers ch)[i]?.any fun prd => r.heldBy prd.fd ch
  | .consumer ch i .error => (r.consumers ch)[i]?.any fun cns => r.heldBy cns.fd ch
  | _ => false

end Router

/-- The event queues `p` on the channel: a producer's read or another module's call. -/
inductive Queues : RouterEv → Channel → List UInt8 → Prop
  | read {ch : Channel} {i : Nat} {p d : List UInt8} (h : p <+: d) : Queues (.producer ch i (.data d)) ch p
  | send {ch : Channel} {p : List UInt8} (h : ch ≠ .flags) : Queues (.sendIn p ch) ch p

/-- What an act of the link in a step of `r` with `e` means: where it comes from and what it needs.
`l` is the link just before the act. -/
def LinkOk (r : Router) (e : RouterEv) (l : Link) : LinkAct → Prop
  | .queue ch p => l = r.link ∧ l.online = true ∧ p.length ≤ (l.chanOut ch).avail ∧ Queues e ch p
  | .take ch _ => ch.isMh = false
  | .remProducer ch i => (l.masks ch)[i]?.any (· != 0) = true →
      l.online = r.link.online ∧ l.chanOut .flags = r.chanOut .flags ∧ r.pushes e = true
  | .holds ch i masks => l.online = true ∧ ch.isPtt = true ∧ i < (l.masks ch).length ∧
      (∀ m ∈ masks, m = 0 ∨ m = MHC2DFL_PTT_R1 ∨ m = MHC2DFL_PTT_R2) ∧
      l.online = r.link.online ∧ l.chanOut .flags = r.chanOut .flags ∧ r.pushes e = true
  | .online => l = r.link ∧ ∃ fd, e = .setKeyerFd (some fd) ∧ r.fd ≠ some fd
  | _ => True

/-- `b` comes from `a` by acts of the link in a step of `r` with `e`. -/
def Linked (r : Router) (e : RouterEv) (a b : Router) : Prop :=
  ∃ acts, b.link = Run.run Link.act a.link acts ∧ Run.StepsOk Link.act (LinkOk r e) a.link acts

namespace Linked

variable {r a b c : Router} {e : RouterEv}

theorem quiet (h : b.link = a.link) : Linked r e a b := ⟨[], h, trivial⟩

theorem one (act : LinkAct) (h : b.link = a.link.act act) (hok : LinkOk r e a.link act) : Linked r e a b :=
  ⟨[act], h, hok, trivial⟩

theorem trans (h : Linked r e a b) (h' : Linked r e b c) : Linked r e a c := by
  obtain ⟨as, hab, hok⟩ := h
  obtain ⟨bs, hbc, hok'⟩ := h'
  refine ⟨as ++ bs, ?_, hok.append ?_⟩
  · rw [Run.run_append, ← hab, hbc]
  · rw [← hab]
    exact hok'

end Linked

namespace Router

variable {r a : Router} {e : RouterEv}

theorem wire_obs (a : Router) (o : Obs) : (a.obs o).wire = a.wire.step o := by
  simp [wire, obs, List.foldl_append]

/-- Observations that say nothing of the line. -/
theorem wire_append {log log' : List Obs} (h : ∀ o ∈ log', ∀ w : Wire, w.step o = w) :
    (log ++ log').foldl Wire.step .init = log.foldl Wire.step .init := by
  rw [List.foldl_append]
  generalize log.foldl Wire.step .init = w
  induction log' with
  | nil => rfl
  | cons o os ih =>
    rw [List.foldl_cons, h o (List.mem_cons_self ..)]
    exact ih fun o ho => h o (List.mem_cons_of_mem _ ho)

theorem map_upd {α β : Type} (f : α → β) (g : Channel → α) (ch : Channel) (x : α) :
    (fun c => f (upd g ch x c)) = upd (fun c => f (g c)) ch (f x) := by
  funext c
  by_cases h : c = ch
  · rw [h, upd_self, upd_self]
  · rw [upd_of_ne _ _ h, upd_of_ne _ _ h]

theorem link_held (a : Router) : a.link.held = a.held := by
  have h : ∀ (chs : List Channel) (m : UInt8),
      (chs.flatMap a.link.masks).foldl (· ||| ·) m =
        (chs.flatMap a.producers).foldl (fun held prd => held ||| prd.pttMask) m := by
    intro chs
    induction chs with
    | nil => exact fun _ => rfl
    | cons ch chs ih =>
      intro m
      rw [List.flatMap_cons, List.flatMap_cons, List.foldl_append, List.foldl_append, ih]
      show (chs.flatMap a.producers).foldl _ (((a.producers ch).map (·.pttMask)).foldl _ m) = _
      rw [List.foldl_map]
  exact h _ 0

/-! ### What leaves the link as it is -/

/-- The parts of a router its link is made of. -/
theorem link_eq {a b : Router} (hfd : b.fd = a.fd) (hch : b.chanOut = a.chanOut) (hout : b.bufOut = a.bufOut)
    (hm : ∀ c, (b.producers c).map (·.pttMask) = (a.producers c).map (·.pttMask)) (hw : b.wflag = a.wflag)
    (hf : b.hasFlagsChannel = a.hasFlagsChannel) (hl : b.wire = a.wire) : b.link = a.link := by
  ext1
  · exact congrArg Option.isSome hfd
  · exact hch
  · exact hout
  · exact funext hm
  · exact hw
  · exact hf
  · exact hl

/-- Watchers are no part of the link. -/
theorem link_producers {a : Router} {prds : Channel → List Producer}
    (h : ∀ c, (prds c).map (·.pttMask) = (a.producers c).map (·.pttMask)) :
    { a with producers := prds }.link = a.link :=
  link_eq rfl rfl rfl h rfl rfl rfl

theorem masks_upd {a : Router} {ch : Channel} {prds : List Producer}
    (h : prds.map (·.pttMask) = (a.producers ch).map (·.pttMask)) (c : Channel) :
    (upd a.producers ch prds c).map (·.pttMask) = (a.producers c).map (·.pttMask) := by
  by_cases hc : c = ch
  · rw [hc, upd_self, h]
  · rw [upd_of_ne _ _ hc]

theorem masks_startReaders (a : Router) (ch : Channel) :
    (a.startReaders ch).map (·.pttMask) = (a.producers ch).map (·.pttMask) := by
  rw [startReaders, List.map_map]
  refine List.map_congr_left fun prd _ => ?_
  show (if a.producerMayRead prd then { prd with active := true } else prd).pttMask = prd.pttMask
  split_ifs <;> rfl

theorem masks_modify (prds : List Producer) (i : Nat) :
    (prds.modify i fun prd => { prd with active := false }).map (·.pttMask) = prds.map (·.pttMask) := by
  induction prds generalizing i with
  | nil => rw [List.modify_nil]
  | cons prd prds ih =>
    cases i with
    | zero => rfl
    | succ i => rw [List.modify_succ_cons, List.map_cons, ih, List.map_cons]

theorem link_switch (a : Router) (b : Bool) : (a.switchProducerEvents b).link = a.link := by
  refine link_producers fun c => ?_
  cases b with
  | true => exact masks_startReaders a c
  | false =>
    rw [if_neg Bool.false_ne_true, List.map_map]
    rfl

theorem link_update (a : Router) (ch : Channel) : (a.updateProducers ch).link = a.link := by
  refine link_producers (masks_upd ?_)
  rw [List.map_map]
  rfl

theorem link_hold (a : Router) (ch : Channel) (b : Bool) : (a.mhrHoldProducers ch b).link = a.link := by
  unfold mhrHoldProducers
  split_ifs
  · rfl
  · exact link_update _ _

theorem link_turn (a : Router) (ch : Channel) (fd : Option Nat) :
    (a.mhrSetProducerTurn ch fd).link = a.link := by
  unfold mhrSetProducerTurn
  split_ifs
  · rfl
  · exact link_update _ _

theorem link_lbCb (a : Router) (ch : Channel) : (a.lbCb ch).link = a.link := by
  unfold lbCb
  by_cases h : (a.lb ch).availThisIval = LB_BYTES_PER_IVAL + LB_CARRY_OVER
  · rw [if_pos h]
    rfl
  · rw [if_neg h]
    exact link_eq rfl rfl rfl (masks_upd (masks_startReaders a ch)) rfl rfl rfl

theorem link_bps (a : Router) (ch : Channel) (bps : Rat) : (a.mhrSetBpsLimit ch bps).link = a.link := by
  unfold mhrSetBpsLimit
  split_ifs <;> rfl

theorem link_intercept (a : Router) (ch : Channel) (b : Bool) :
    (a.mhrInterceptConsumers ch b).link = a.link := by
  unfold mhrInterceptConsumers
  split_ifs <;> rfl

theorem link_close (a : Router) (fd : Nat) : (a.obs (.close fd)).link = a.link :=
  link_eq rfl rfl rfl (fun _ => rfl) rfl rfl (wire_obs a _)

theorem link_remConsumer (a : Router) (fd : Nat) (ch : Channel) : (a.mhrRemConsumer fd ch).link = a.link := by
  unfold mhrRemConsumer
  dsimp only
  split_ifs
  · rfl
  · exact link_close _ _
  · rfl

theorem link_addConsumer (a : Router) (fd : Nat) (ch : Channel) : (a.mhrAddConsumer fd ch).link = a.link := by
  unfold mhrAddConsumer
  split_ifs <;> rfl

theorem sendConsumers_wire (sel : Consumer → Bool) (data : List UInt8) (ch : Channel) (cns : List Consumer) :
    ∀ o ∈ (sendConsumers sel data ch cns).2, ∀ w : Wire, w.step o = w := by
  induction cns with
  | nil => simp [sendConsumers]
  | cons c cns ih =>
    intro o ho w
    unfold sendConsumers at ho
    split_ifs at ho
    · rcases List.mem_cons.1 ho with rfl | ho
      · rfl
      · exact ih o ho w
    · rcases List.mem_cons.1 ho with rfl | ho
      · rfl
      · exact ih o ho w
    · exact ih o ho w

theorem link_sendOut (a : Router) (data : List UInt8) (ch : Channel) : (a.mhrSendOut data ch).link = a.link :=
  link_eq rfl rfl rfl (fun _ => rfl) rfl rfl (wire_append (sendConsumers_wire _ _ _ _))

theorem link_passOut (a : Router) (data : List UInt8) (ch : Channel) (dest : Dest) :
    (a.mhrPassOut data ch dest).link = a.link := by
  unfold mhrPassOut
  split_ifs
  · rfl
  · exact link_eq rfl rfl rfl (fun _ => rfl) rfl rfl (wire_append (sendConsumers_wire _ _ _ _))

theorem keyerDeliver_wire (data : List UInt8) (ch : Channel) (cns : List Consumer) :
    ∀ o ∈ (keyerDeliver data ch cns).2, ∀ w : Wire, w.step o = w := by
  induction cns with
  | nil => simp [keyerDeliver]
  | cons c cns ih =>
    intro o ho w
    unfold keyerDeliver at ho
    rcases List.mem_cons.1 ho with rfl | ho
    · rfl
    rcases List.mem_append.1 ho with ho | ho
    · split_ifs at ho
      · rw [List.mem_singleton.1 ho]
        rfl
      · simp at ho
    · exact ih o ho w

theorem link_keyerByte (a : Router) : a.keyerByte.1.link = a.link := by
  unfold keyerByte
  split
  · rfl
  · rename_i c b _
    dsimp only
    split
    · rfl
    · split_ifs
      · rfl
      · exact link_eq rfl rfl rfl (fun _ => rfl) rfl rfl (wire_append (keyerDeliver_wire _ _ _))

theorem link_keyerBytes (n : Nat) (a : Router) : (keyerBytes n a).link = a.link := by
  induction n generalizing a with
  | zero => rfl
  | succ n ih =>
    rw [keyerBytes, ih, link_keyerByte]

theorem link_outStop (a : Router) : a.keyerOutStop.link = a.link := by
  unfold keyerOutStop
  split_ifs <;> rfl

/-! ### What acts on it -/

/-- The call is accepted. -/
def canSend (a : Router) (p : List UInt8) (ch : Channel) : Bool :=
  !(ch == .flags && !a.hasFlagsChannel) && a.fd.isSome && decide (p.length ≤ (a.chanOut ch).avail)

theorem mhrSendIn_link (a : Router) (p : List UInt8) (ch : Channel) :
    (a.mhrSendIn p ch).1.link = if a.canSend p ch then a.link.queue ch p else a.link := by
  have havail : (a.chanOut ch).avail ≤ BUFFER_CAPACITY := Nat.sub_le _ _
  unfold mhrSendIn
  split_ifs with hf hl hfd hroom hc <;> try rfl
  all_goals simp_all [canSend]
  · omega
  · omega
  · ext1
    · rfl
    · rfl
    · rfl
    · rfl
    · rfl
    · rfl
    · exact wire_obs _ _

theorem link_pushPtt (a : Router) : a.pushPtt.link = a.link.push := by
  let b : Router := { a with wflag := (a.wflag &&& ~~~PTT_FLAGS) ||| a.held }
  have hsync : b.link = a.link.sync := by
    ext1
    · rfl
    · rfl
    · rfl
    · rfl
    · show (a.wflag &&& ~~~PTT_FLAGS) ||| a.held = (a.wflag &&& ~~~PTT_FLAGS) ||| a.link.held
      rw [link_held]
    · rfl
    · rfl
  have hcan : a.link.canPush = (a.fd.isSome && b.canSend [b.wflag] .flags) := by
    show (a.fd.isSome && a.hasFlagsChannel && decide (1 ≤ (a.chanOut .flags).avail)) =
      (a.fd.isSome && (!(true && !a.hasFlagsChannel) && a.fd.isSome && decide (1 ≤ (a.chanOut .flags).avail)))
    cases a.fd.isSome <;> cases a.hasFlagsChannel <;> rfl
  have hpush : a.pushPtt = if b.fd = none then b else (b.mhrSendIn [b.wflag] .flags).1 := rfl
  rw [hpush, Link.push, hcan, ← hsync]
  by_cases hfd : a.fd = none
  · have hfd' : b.fd = none := hfd
    rw [if_pos hfd', hfd]
    rfl
  · have hfd' : ¬ b.fd = none := hfd
    rw [if_neg hfd', mhrSendIn_link, Option.isSome_iff_ne_none.2 hfd, Bool.true_and]
    rfl

theorem eraseP_of_find {α : Type} {p : α → Bool} {l : List α} {x : α} (h : l.find? p = some x) :
    ∃ i, l.eraseP p = l.eraseIdx i ∧ l[i]? = some x := by
  induction l with
  | nil => simp at h
  | cons y l ih =>
    by_cases hy : p y = true
    · rw [List.find?_cons_of_pos hy] at h
      exact ⟨0, by rw [List.eraseP_cons_of_pos hy]; rfl, h⟩
    · rw [List.find?_cons_of_neg hy] at h
      obtain ⟨i, hi, hx⟩ := ih h
      exact ⟨i + 1, by rw [List.eraseP_cons_of_neg hy, hi]; rfl, hx⟩

/-- The first producer of a descriptor is removed; one that holds PTT makes the router push. -/
theorem linked_remProducer {fd : Nat} {ch : Channel} (hon : a.link.online = r.link.online)
    (hfl : a.chanOut .flags = r.chanOut .flags) (hp : a.heldBy fd ch = true → r.pushes e = true) :
    Linked r e a (a.mhrRemProducer fd ch) := by
  unfold mhrRemProducer
  cases hfind : (a.producers ch).find? (·.fd == fd) with
  | none => exact .quiet rfl
  | some prd =>
    have hheld : a.heldBy fd ch = (prd.pttMask != 0) := by rw [heldBy, hfind]; rfl
    obtain ⟨i, hi, hx⟩ := eraseP_of_find hfind
    let b : Router := { a with producers := upd a.producers ch ((a.producers ch).eraseP (·.fd == fd)) }
    have hb : b.link = a.link.erase ch i := by
      ext1
      · rfl
      · rfl
      · rfl
      · show (fun c => (upd a.producers ch ((a.producers ch).eraseP (·.fd == fd)) c).map (·.pttMask)) = _
        rw [map_upd (fun l : List Producer => l.map (·.pttMask)), hi, ← List.eraseIdx_map]
        rfl
      · rfl
      · rfl
      · rfl
    have hmask : (a.link.masks ch)[i]?.any (· != 0) = (prd.pttMask != 0) := by
      show ((a.producers ch).map (·.pttMask))[i]?.any (· != 0) = _
      rw [List.getElem?_map, hx]
      rfl
    let c : Router := if prd.pttMask ≠ 0 then b.pushPtt else b
    have hc : c.link = a.link.act (.remProducer ch i) := by
      show (if prd.pttMask ≠ 0 then b.pushPtt else b).link =
        if (a.link.masks ch)[i]?.any (· != 0) then (a.link.erase ch i).push else a.link.erase ch i
      rw [hmask]
      by_cases hm : prd.pttMask = 0
      · simp [hm, hb]
      · simp [hm, link_pushPtt, hb]
    have hrem : Linked r e a c := by
      refine .one (.remProducer ch i) hc fun hany => ⟨hon, hfl, hp ?_⟩
      rw [hheld, ← hmask]
      exact hany
    show Linked r e a (if c.hasConsumerFd fd ch then c else c.obs (.close fd))
    split_ifs
    · exact hrem
    · exact hrem.trans (.quiet (link_close _ _))

/-- The router before a keyer's descriptor is replaced: the old one is closed and PTT dropped. -/
def closeKeyer (a : Router) : Router :=
  match a.fd with
  | none => a
  | some old => ({ a with wIn := false, wOut := false }.dropPtt).obs (.close old)

theorem link_closeKeyer (a : Router) : a.closeKeyer.link = a.link.drop := by
  unfold closeKeyer Link.drop
  cases hfd : a.fd with
  | none =>
    have hon : ¬ a.link.online = true := by simp [link, hfd]
    rw [if_neg hon]
  | some old =>
    have hon : a.link.online = true := by simp [link, hfd]
    rw [if_pos hon]
    ext1
    · exact hon.symm
    · rfl
    · rfl
    · funext ch
      show ((a.producers ch).map _).map _ = ((a.producers ch).map _).map _
      rw [List.map_map, List.map_map]
      rfl
    · rfl
    · rfl
    · exact wire_obs _ _

theorem linked_offline : Linked r e a (a.mhrSetKeyerFd none) := by
  by_cases h : none = a.fd
  · rw [mhrSetKeyerFd, if_pos h]
    exact .quiet rfl
  · have hset : a.mhrSetKeyerFd none =
        (({ a.closeKeyer with fd := none } : Router).obs .disconnect).switchProducerEvents false := by
      rw [mhrSetKeyerFd, if_neg h]
      rfl
    refine .one .offline ?_ trivial
    rw [hset, link_switch]
    show _ = { a.link.drop with online := false }
    rw [← link_closeKeyer]
    ext1
    · rfl
    · rfl
    · rfl
    · rfl
    · rfl
    · rfl
    · exact wire_obs _ _

theorem link_online {fd : Nat} (h : a.fd ≠ some fd) : (a.mhrSetKeyerFd (some fd)).link = a.link.act .online := by
  have hset : a.mhrSetKeyerFd (some fd) =
      (({ a.closeKeyer with fd := some fd, wIn := true, wOut := false } : Router).obs
        (.connect fd)).switchProducerEvents true := by
    rw [mhrSetKeyerFd, if_neg h.symm]
    rfl
  have hwire : a.closeKeyer.link.wire = a.link.wire := by
    rw [link_closeKeyer, Link.drop]
    split_ifs <;> rfl
  rw [hset, link_switch]
  show _ = { a.link.drop with online := true, wire := a.link.wire.step (.connect 0) }
  rw [← link_closeKeyer, ← hwire]
  ext1
  · rfl
  · rfl
  · rfl
  · rfl
  · rfl
  · rfl
  · exact wire_obs _ _

theorem linked_online {fd : Nat} (h : r.fd ≠ some fd) (he : e = .setKeyerFd (some fd)) :
    Linked r e r (r.mhrSetKeyerFd (some fd)) :=
  .one .online (link_online h) ⟨rfl, fd, he, h⟩

theorem mhrSetKeyerFd_fd (a : Router) (fd : Option Nat) : (a.mhrSetKeyerFd fd).fd = fd := by
  unfold mhrSetKeyerFd
  split_ifs with h
  · exact h.symm
  · cases fd <;> rfl

/-! ### PTT bytes -/

theorem link_setPttMask (a : Router) (ch : Channel) (i : Nat) (mask : UInt8) :
    (a.setPttMask ch i mask).link = a.link.setMask ch i mask := by
  have hmap : ∀ (prds : List Producer) (i : Nat),
      (prds.modify i fun prd => { prd with pttMask := mask }).map (·.pttMask) =
        (prds.map (·.pttMask)).modify i fun _ => mask := by
    intro prds
    induction prds with
    | nil => intro i; simp
    | cons prd prds ih =>
      intro i
      cases i with
      | zero => rfl
      | succ i =>
        rw [List.modify_succ_cons, List.map_cons, ih, List.map_cons, List.modify_succ_cons]
  ext1
  · rfl
  · rfl
  · rfl
  · show (fun c => (upd a.producers ch _ c).map (·.pttMask)) = _
    rw [map_upd (fun l : List Producer => l.map (·.pttMask)), hmap]
    rfl
  · rfl
  · rfl
  · exact wire_obs _ _

/-- Is `c` a PTT byte. -/
def isPttByte (c : UInt8) : Bool := c == PTT_ON_BYTE || c == PTT_OFF_BYTE

theorem pttMaskOf_cases {a : Router} {ch : Channel} {mask : UInt8} (h : a.pttMaskOf ch = some mask) :
    ch.isPtt = true ∧ (mask = MHC2DFL_PTT_R1 ∨ mask = MHC2DFL_PTT_R2) := by
  cases ch <;> simp only [pttMaskOf, Option.some.injEq, reduceCtorEq] at h
  · exact ⟨rfl, .inl h.symm⟩
  · exact ⟨rfl, .inr h.symm⟩
  · refine ⟨rfl, ?_⟩
    split_ifs at h
    · exact .inr h.symm
    · exact .inl h.symm

/-- The loop over the bytes of a PTT producer assigns its mask for each. -/
theorem link_pttBytes (ch : Channel) (i : Nat) (cs : List UInt8) (a : Router) (push : Bool) :
    ∃ masks, (pttBytes ch i cs a push).1.link = masks.foldl (Link.setMask ch i) a.link ∧
      (∀ m ∈ masks, m = 0 ∨ m = MHC2DFL_PTT_R1 ∨ m = MHC2DFL_PTT_R2) ∧
      (pttBytes ch i cs a push).2 = (push || !masks.isEmpty) ∧
      (masks ≠ [] → ch.isPtt = true ∧ cs.any isPttByte = true) := by
  induction cs generalizing a push with
  | nil => exact ⟨[], rfl, by simp, by simp [pttBytes], by simp⟩
  | cons c cs ih =>
    unfold pttBytes
    by_cases hc : c ≠ PTT_ON_BYTE ∧ c ≠ PTT_OFF_BYTE
    · rw [if_pos hc]
      obtain ⟨masks, h1, h2, h3, h4⟩ := ih a push
      refine ⟨masks, h1, h2, h3, fun h => ⟨(h4 h).1, ?_⟩⟩
      rw [List.any_cons, (h4 h).2, Bool.or_true]
    rw [if_neg hc]
    cases hm : a.pttMaskOf ch with
    | none =>
      obtain ⟨masks, h1, h2, h3, h4⟩ := ih a push
      refine ⟨masks, h1, h2, h3, fun h => ⟨(h4 h).1, ?_⟩⟩
      rw [List.any_cons, (h4 h).2, Bool.or_true]
    | some mask =>
      dsimp only
      obtain ⟨hptt, hmask⟩ := pttMaskOf_cases hm
      obtain ⟨m, hmdef, hm'⟩ : ∃ m, (if c = PTT_ON_BYTE then mask else 0) = m ∧
          (m = 0 ∨ m = MHC2DFL_PTT_R1 ∨ m = MHC2DFL_PTT_R2) := by
        refine ⟨_, rfl, ?_⟩
        split_ifs
        · exact .inr hmask
        · exact .inl rfl
      rw [hmdef]
      obtain ⟨masks, h1, h2, h3, -⟩ := ih (a.setPttMask ch i m) true
      have hbyte : isPttByte c = true := by
        rw [isPttByte, Bool.or_eq_true, beq_iff_eq, beq_iff_eq]
        by_contra hne
        rw [not_or] at hne
        exact hc hne
      refine ⟨m :: masks, ?_, ?_, ?_, fun _ => ⟨hptt, ?_⟩⟩
      · rw [h1, link_setPttMask]
        rfl
      · intro x hx
        rcases List.mem_cons.1 hx with rfl | hx
        · exact hm'
        · exact h2 x hx
      · rw [h3]
        simp
      · rw [List.any_cons, hbyte, Bool.true_or]

/-! ### The callbacks -/

theorem setMask_take (ch : Channel) (i : Nat) (masks : List UInt8) (l : Link) (b : Buffer) :
    masks.foldl (Link.setMask ch i) (l.act (.take ch b)) =
      (masks.foldl (Link.setMask ch i) l).act (.take ch b) := by
  induction masks generalizing l with
  | nil => rfl
  | cons m masks ih =>
    rw [List.foldl_cons, List.foldl_cons, ← ih]
    rfl

/-- The bytes a PTT producer's read left in the channel's buffer are taken and the holds pushed. -/
theorem linked_processPtt {ch : Channel} {i : Nat} (hptt : ch.isPtt = true) (hon : a.link.online = true)
    (hron : r.link.online = true) (hi : i < (a.producers ch).length)
    (hfl : a.chanOut .flags = r.chanOut .flags)
    (hp : (a.chanOut ch).unread.any isPttByte = true → r.pushes e = true) :
    Linked r e a (a.processPttProducer ch i) := by
  obtain ⟨masks, h1, h2, h3, h4⟩ := link_pttBytes ch i (a.chanOut ch).unread a false
  let b := (pttBytes ch i (a.chanOut ch).unread a false).1
  let c : Router := { b with chanOut := upd b.chanOut ch .empty }
  have hne : Channel.flags ≠ ch := by rintro rfl; simp [Channel.isPtt] at hptt
  have hmh : ch.isMh = false := by cases ch <;> simp_all [Channel.isPtt, Channel.isMh]
  have hc : c.link = masks.foldl (Link.setMask ch i) (a.link.act (.take ch .empty)) := by
    rw [setMask_take, ← h1]
    rfl
  show Linked r e a (if (pttBytes ch i (a.chanOut ch).unread a false).2 then c.pushPtt else c)
  rw [h3, Bool.false_or]
  have htake : LinkOk r e a.link (.take ch .empty) := hmh
  by_cases hm : masks = []
  · rw [hm]
    refine ⟨[.take ch .empty], ?_, htake, trivial⟩
    rw [hm] at hc
    exact hc
  · have hpush : (!masks.isEmpty) = true := by simp [hm]
    rw [if_pos hpush]
    refine ⟨[.take ch .empty, .holds ch i masks], ?_, htake, ?_, trivial⟩
    · rw [link_pushPtt, hc]
      rfl
    · refine ⟨hon, hptt, ?_, h2, ?_, ?_, hp (h4 hm).2⟩
      · show i < ((a.producers ch).map (·.pttMask)).length
        rw [List.length_map]
        exact hi
      · exact hon.trans hron.symm
      · show upd a.chanOut ch .empty .flags = _
        rw [upd_of_ne _ _ hne]
        exact hfl

theorem linked_removed {fd : Nat} {ch : Channel} (hp : r.heldBy fd ch = true → r.pushes e = true) :
    Linked r e r ((r.mhrRemConsumer fd ch).mhrRemProducer fd ch) := by
  have hq := link_remConsumer r fd ch
  have hprd : (r.mhrRemConsumer fd ch).producers = r.producers := by
    unfold mhrRemConsumer
    dsimp only
    split_ifs <;> rfl
  refine (Linked.quiet hq).trans (linked_remProducer ?_ ?_ ?_)
  · rw [hq]
  · exact congrFun (congrArg Link.chanOut hq) .flags
  · intro h
    refine hp ?_
    rwa [heldBy, hprd] at h

theorem linked_producerData {ch : Channel} {i : Nat} {p d : List UInt8} (hp : p <+: d) (hd : d ≠ [])
    (hon : r.link.online = true) (hi : i < (r.producers ch).length) (hlen : p.length ≤ (r.chanOut ch).avail) :
    Linked r (.producer ch i (.data d)) r (r.producerData ch i p) := by
  let lb : LeakyBucket := if (r.lb ch).bps ≠ 0 then
    { r.lb ch with timer := true, availThisIval := (r.lb ch).availThisIval - p.length } else r.lb ch
  let a : Router := { ({ r with chanOut := upd r.chanOut ch ((r.chanOut ch).append p) } : Router).obs
    (.queue ch p) with lb := upd r.lb ch lb }
  have ha : Linked r (.producer ch i (.data d)) r a := by
    refine .one (.queue ch p) ?_ ⟨rfl, hon, hlen, .read hp⟩
    ext1
    · rfl
    · rfl
    · rfl
    · rfl
    · rfl
    · rfl
    · exact wire_obs _ _
  let b : Router := if ch.isPtt then a.processPttProducer ch i else a
  suffices hb : Linked r (.producer ch i (.data d)) r b from hb.trans (.quiet rfl)
  show Linked r _ r (if ch.isPtt then a.processPttProducer ch i else a)
  split_ifs with hptt
  · have hne : Channel.flags ≠ ch := by rintro rfl; simp [Channel.isPtt] at hptt
    refine ha.trans (linked_processPtt hptt hon hon hi ?_ ?_)
    · show upd r.chanOut ch _ .flags = _
      rw [upd_of_ne _ _ hne]
    · intro hany
      have hun : (a.chanOut ch).unread = (r.chanOut ch).unread ++ p := by
        show (upd r.chanOut ch _ ch).unread = _
        rw [upd_self, Buffer.unread_append_of_le _ hlen]
      obtain ⟨rest, rfl⟩ := hp
      have hall : ((r.chanOut ch).unread ++ (p ++ rest)).any isPttByte = true := by
        rw [← List.append_assoc, ← hun, List.any_append, hany, Bool.true_or]
      simp only [pushes, if_neg hd, hptt, Bool.true_and]
      exact hall
  · exact ha

theorem linked_producerCb (ch : Channel) (i : Nat) (res : ReadRes) :
    Linked r (.producer ch i res) r (r.producerCb ch i res).1 := by
  unfold producerCb
  cases hprd : (r.producers ch)[i]? with
  | none => exact .quiet rfl
  | some prd =>
    have hstop : Linked r (.producer ch i res) r (r.stopProducer ch i) :=
      .quiet (link_producers (masks_upd (masks_modify _ _)))
    dsimp only
    by_cases hread : r.producerMayRead prd = false
    · rw [if_pos hread]
      exact hstop
    rw [if_neg hread]
    by_cases hfd : r.fd = none
    · rw [if_pos hfd]
      exact .quiet rfl
    rw [if_neg hfd]
    by_cases h0 : r.readAvail ch = 0
    · rw [if_pos h0]
      exact hstop
    rw [if_neg h0]
    cases res with
    | again => exact .quiet rfl
    | error =>
      refine linked_removed fun h => ?_
      simp only [pushes, hprd, Option.any_some, h]
    | data data =>
      dsimp only
      cases hp : data.take (r.readAvail ch) with
      | nil =>
        have hnil : data = [] := (List.take_eq_nil_iff.1 hp).resolve_left h0
        refine linked_removed fun h => ?_
        simp only [pushes, hnil, if_true, hprd, Option.any_some, h]
      | cons c cs =>
        have hle : r.readAvail ch ≤ (r.chanOut ch).avail := by
          unfold readAvail
          dsimp only
          split_ifs with h
          · omega
          · exact Nat.le_refl _
        refine linked_producerData (hp ▸ List.take_prefix _ _) ?_ (Option.isSome_iff_ne_none.2 hfd) ?_ ?_
        · rintro rfl
          simp at hp
        · exact (List.getElem?_eq_some_iff.1 hprd).1
        · rw [← hp]
          exact Nat.le_trans (List.length_take_le _ _) hle

theorem linked_consumerCb (ch : Channel) (i : Nat) (res : WriteRes) :
    Linked r (.consumer ch i res) r (r.consumerCb ch i res) := by
  unfold consumerCb
  cases hcns : (r.consumers ch)[i]? with
  | none => exact .quiet rfl
  | some cns =>
    cases res with
    | wrote n => exact .quiet rfl
    | again =>
      dsimp only
      split_ifs
      · exact .quiet rfl
      · exact .quiet rfl
    | error =>
      refine (linked_remProducer rfl rfl fun h => ?_).trans (.quiet (link_remConsumer _ _ _))
      simp only [pushes, hcns, Option.any_some, h]

theorem linked_keyerRead (res : ReadRes) : Linked r e a (a.keyerRead res) := by
  unfold keyerRead
  cases res with
  | again => exact .quiet rfl
  | error => exact linked_offline
  | data data =>
    dsimp only
    split
    · exact linked_offline
    · exact .quiet rfl

theorem linked_keyerInCb (res : ReadRes) : Linked r (.keyerIn res) r (r.keyerInCb res) := by
  unfold keyerInCb
  split_ifs
  · exact .quiet rfl
  · exact (linked_keyerRead res).trans (.quiet (link_keyerBytes _ _))

theorem linked_keyerOutCb (res : WriteRes) : Linked r (.keyerOut res) r (r.keyerOutCb res) := by
  unfold keyerOutCb
  split_ifs
  · exact .quiet rfl
  · have hmux : Linked r (.keyerOut res) r
        { r with bufOut := (mxMux r.bufOut r.chanOut).1, chanOut := (mxMux r.bufOut r.chanOut).2.1 } :=
      .one .mux rfl trivial
    refine hmux.trans ?_
    cases res with
    | error => exact linked_offline
    | again => exact .quiet (link_outStop _)
    | wrote n =>
      dsimp only
      split
      · exact .quiet (link_outStop _)
      · rename_i c cs hp
        refine .one (.write n) ?_ trivial
        rw [link_outStop, link_switch]
        ext1
        · rfl
        · rfl
        · show Buffer.consume _ (c :: cs).length = Buffer.consume _ (List.take n _).length
          rw [← hp]
          rfl
        · rfl
        · rfl
        · rfl
        · refine (wire_obs _ _).trans ?_
          show Wire.step _ (.write (c :: cs)) = Wire.step _ (.write (List.take n _))
          rw [← hp]
          rfl

/-- Reading from the keyer and writing to it may lose the keyer. -/
theorem keyerRead_fd (a : Router) (res : ReadRes) : (a.keyerRead res).fd = a.fd ∨ (a.keyerRead res).fd = none := by
  unfold keyerRead
  cases res with
  | again => exact .inl rfl
  | error => exact .inr (mhrSetKeyerFd_fd _ _)
  | data data =>
    dsimp only
    split
    · exact .inr (mhrSetKeyerFd_fd _ _)
    · exact .inl rfl

theorem keyerOutCb_fd (a : Router) (res : WriteRes) : (a.keyerOutCb res).fd = a.fd ∨ (a.keyerOutCb res).fd = none := by
  have hstop : ∀ b : Router, b.keyerOutStop.fd = b.fd := by
    intro b
    unfold keyerOutStop
    split_ifs <;> rfl
  unfold keyerOutCb
  split_ifs
  · exact .inl rfl
  · cases res with
    | error => exact .inr (mhrSetKeyerFd_fd _ _)
    | again => exact .inl (hstop _)
    | wrote n =>
      dsimp only
      split
      · exact .inl (hstop _)
      · exact .inl (hstop _)

/-- Every step of a router is some acts of its link. -/
theorem link_step (r : Router) (e : RouterEv) : Linked r e r (r.step e) := by
  cases e with
  | setKeyerFd fd =>
    cases fd with
    | none => exact linked_offline
    | some fd =>
      by_cases h : r.fd = some fd
      · rw [step, mhrSetKeyerFd, if_pos h.symm]
        exact .quiet rfl
      · exact linked_online h rfl
  | addConsumer fd ch => exact .quiet (link_addConsumer _ _ _)
  | addProducer fd ch =>
    rw [step, mhrAddProducer]
    split_ifs
    · exact .quiet rfl
    · refine .one (.addProducer ch) ?_ trivial
      ext1
      · rfl
      · rfl
      · rfl
      · show (fun c => (upd r.producers ch _ c).map (·.pttMask)) = _
        rw [map_upd (fun l : List Producer => l.map (·.pttMask)), List.map_append]
        rfl
      · rfl
      · rfl
      · rfl
  | remConsumer fd ch => exact .quiet (link_remConsumer _ _ _)
  | remProducer fd ch => exact linked_remProducer rfl rfl id
  | sendIn data ch =>
    rw [step]
    split_ifs with hch
    · exact .quiet rfl
    · have hlink := mhrSendIn_link r data ch
      by_cases hc : r.canSend data ch = true
      · rw [if_pos hc] at hlink
        simp only [canSend, Bool.and_eq_true, decide_eq_true_eq] at hc
        exact .one (.queue ch data) hlink ⟨rfl, hc.1.2, hc.2, .send hch⟩
      · rw [if_neg hc] at hlink
        exact .quiet hlink
  | sendOut data ch => exact .quiet (link_sendOut _ _ _)
  | passOut data ch dest => exact .quiet (link_passOut _ _ _ _)
  | process ch n =>
    rw [step]
    split_ifs with hch
    · refine .one (.take ch ((r.chanOut ch).consume n)) rfl ?_
      rcases hch with rfl | rfl
      · rfl
      · rfl
    · exact .quiet rfl
  | holdProducers ch hold => exact .quiet (link_hold _ _ _)
  | setProducerTurn ch fd => exact .quiet (link_turn _ _ _)
  | setConsumerFlags fd ch flags => exact .quiet rfl
  | intercept ch b => exact .quiet (link_intercept _ _ _)
  | setBpsLimit ch bps => exact .quiet (link_bps _ _ _)
  | setWkTxFocus focus => exact .quiet rfl
  | lbTimer ch =>
    rw [step]
    split_ifs
    · exact .quiet (link_lbCb _ _)
    · exact .quiet rfl
  | producer ch i res =>
    rw [step]
    split_ifs
    · exact linked_producerCb ch i res
    · exact .quiet rfl
  | consumer ch i res =>
    rw [step]
    split_ifs
    · exact linked_consumerCb ch i res
    · exact .quiet rfl
  | keyerIn res =>
    rw [step]
    split_ifs
    · exact linked_keyerInCb res
    · exact .quiet rfl
  | keyerOut res =>
    rw [step]
    split_ifs
    · exact linked_keyerOutCb res
    · exact .quiet rfl

end Router

end Mhuxd
