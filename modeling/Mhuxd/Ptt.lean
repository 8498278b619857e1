import Mhuxd.Fifo

/-!
# PTT

`wflag` carries the PTT bits all producers hold together (`ptt_hold`). What the keyer is told is
another matter: the flags bytes pass through buffers that a disconnect does not empty, and a full
buffer refuses them. `ptt_since_connect` and `keyer_learns_ptt` say what holds in runs where at each
connect nothing of that kind is left over (`FlagsClean`, `FlagsSettled`).
-/

namespace Mhuxd

/-! ### Bits -/

/-- The bits of `a` are among those of `b`. -/
def Within (a b : UInt8) : Prop := a ||| b = b

instance (a b : UInt8) : Decidable (Within a b) := inferInstanceAs (Decidable (_ = _))

namespace Within

variable {a b c : UInt8}

theorem zero : Within 0 a := UInt8.zero_or

theorem refl : Within a a := UInt8.or_self

theorem trans (h : Within a b) (h' : Within b c) : Within a c := by
  unfold Within at *
  rw [← h', ← UInt8.or_assoc, h]

theorem left : Within a (a ||| b) := by rw [Within, ← UInt8.or_assoc, UInt8.or_self]

theorem right : Within b (a ||| b) := by rw [UInt8.or_comm]; exact left

theorem or (h : Within a c) (h' : Within b c) : Within (a ||| b) c := by
  unfold Within at *
  rw [UInt8.or_assoc, h', h]

end Within

/-- A mask a PTT producer may have. -/
def PttMask (m : UInt8) : Prop := m = 0 ∨ m = MHC2DFL_PTT_R1 ∨ m = MHC2DFL_PTT_R2

theorem and_or_right (a b c : UInt8) : (a ||| b) &&& c = (a &&& c) ||| (b &&& c) := by
  rw [← UInt8.toBitVec_inj]
  exact BitVec.and_or_distrib_right

namespace PttMask

variable {m : UInt8}

theorem and_flags (h : PttMask m) : m &&& PTT_FLAGS = m := by
  rcases h with rfl | rfl | rfl <;> decide

/-- A bit of the masks together is the bit of one of them. -/
theorem foldl_bit {bit : UInt8} (hbit : bit = MHC2DFL_PTT_R1 ∨ bit = MHC2DFL_PTT_R2) (ms : List UInt8)
    (hms : ∀ m ∈ ms, PttMask m) (acc : UInt8) :
    ms.foldl (· ||| ·) acc &&& bit ≠ 0 ↔ acc &&& bit ≠ 0 ∨ bit ∈ ms := by
  induction ms generalizing acc with
  | nil => simp
  | cons m ms ih =>
    have hstep : (acc ||| m) &&& bit ≠ 0 ↔ acc &&& bit ≠ 0 ∨ bit = m := by
      rw [and_or_right]
      by_cases hm : bit = m
      · rw [← hm, UInt8.and_self]
        refine ⟨fun _ => .inr rfl, fun _ h0 => ?_⟩
        rw [(UInt8.or_eq_zero_iff.1 h0).2] at hbit
        rcases hbit with h | h <;> exact absurd h (by decide)
      · have hz : m &&& bit = 0 := by
          rcases hms m (List.mem_cons_self ..) with rfl | rfl | rfl <;> rcases hbit with rfl | rfl <;>
            first | decide | exact absurd rfl hm
        rw [hz, UInt8.or_zero]
        exact ⟨.inl, fun h => h.resolve_right hm⟩
    rw [List.foldl_cons, ih (fun x hx => hms x (List.mem_cons_of_mem _ hx)), hstep, List.mem_cons, or_assoc]

end PttMask

/-! ### The holds and the flags byte -/

namespace Link

variable {l : Link} {r : Router} {e : RouterEv} {a : LinkAct}

theorem held_eq (l : Link) : l.held = (l.masks .ptt1 ++ l.masks .ptt2 ++ l.masks .pttFocus).foldl (· ||| ·) 0 := by
  show List.foldl _ _ (l.masks .ptt1 ++ (l.masks .ptt2 ++ (l.masks .pttFocus ++ []))) = _
  rw [List.append_nil, List.append_assoc]

/-- The flags byte has the PTT bits of the holds, and every hold is of one radio. -/
structure PttHold (l : Link) : Prop where
  wflag : l.wflag &&& PTT_FLAGS = l.held
  masks : ∀ ch, ∀ m ∈ l.masks ch, PttMask m

theorem foldl_within (ms : List UInt8) (b acc : UInt8) (hacc : Within acc b) (hms : ∀ m ∈ ms, Within m b) :
    Within (ms.foldl (· ||| ·) acc) b := by
  induction ms generalizing acc with
  | nil => exact hacc
  | cons m ms ih =>
    exact ih _ (hacc.or (hms m (List.mem_cons_self ..))) fun x hx => hms x (List.mem_cons_of_mem _ hx)

/-- The holds together are within what each of them is within. -/
theorem held_within {b : UInt8} (h : ∀ ch, ∀ m ∈ l.masks ch, Within m b) : Within l.held b := by
  rw [held_eq]
  refine foldl_within _ b 0 .zero fun m hm => ?_
  rcases List.mem_append.1 hm with hm | hm
  · rcases List.mem_append.1 hm with hm | hm
    · exact h _ m hm
    · exact h _ m hm
  · exact h _ m hm

theorem held_and (h : ∀ ch, ∀ m ∈ l.masks ch, PttMask m) : l.held &&& PTT_FLAGS = l.held := by
  have hfold : ∀ (ms : List UInt8) (acc : UInt8), acc &&& PTT_FLAGS = acc → (∀ m ∈ ms, PttMask m) →
      ms.foldl (· ||| ·) acc &&& PTT_FLAGS = ms.foldl (· ||| ·) acc := by
    intro ms
    induction ms with
    | nil => exact fun _ hacc _ => hacc
    | cons m ms ih =>
      intro acc hacc hms
      refine ih _ ?_ fun x hx => hms x (List.mem_cons_of_mem _ hx)
      rw [and_or_right, hacc, (hms m (List.mem_cons_self ..)).and_flags]
  refine hfold _ 0 (by decide) fun m hm => ?_
  obtain ⟨ch, -, hm⟩ := List.mem_flatMap.1 hm
  exact h ch m hm

theorem sync_flags (h : ∀ ch, ∀ m ∈ l.masks ch, PttMask m) : l.sync.wflag &&& PTT_FLAGS = l.held := by
  show ((l.wflag &&& ~~~PTT_FLAGS) ||| l.held) &&& PTT_FLAGS = l.held
  rw [and_or_right, held_and h, UInt8.and_assoc, UInt8.not_and_self, UInt8.and_zero, UInt8.zero_or]

theorem push_wflag (l : Link) : l.push.wflag = l.sync.wflag := by
  unfold push
  split_ifs <;> rfl

theorem push_masks (l : Link) : l.push.masks = l.masks := by
  unfold push
  split_ifs <;> rfl

theorem push_online (l : Link) : l.push.online = l.online := by
  unfold push
  split_ifs <;> rfl

theorem remProducer_cases (l : Link) (ch : Channel) (i : Nat) :
    l.act (.remProducer ch i) = (l.erase ch i).push ∨
      (l.act (.remProducer ch i) = l.erase ch i ∧ ¬ (l.masks ch)[i]?.any (· != 0) = true) := by
  by_cases h : (l.masks ch)[i]?.any (· != 0) = true
  · exact .inl (if_pos h)
  · exact .inr ⟨if_neg h, h⟩

/-- Whatever the masks were, a push puts the holds into the flags byte. -/
theorem PttHold.of_push (h : ∀ ch, ∀ m ∈ l.masks ch, PttMask m) : l.push.PttHold := by
  have hheld : l.push.held = l.held := by rw [held, held, push_masks]
  refine ⟨?_, ?_⟩
  · rw [push_wflag, hheld]
    exact sync_flags h
  · rw [push_masks]
    exact h

theorem mem_setMask {ch c : Channel} {i : Nat} {x m : UInt8} (h : m ∈ (l.setMask ch i x).masks c) :
    m = x ∨ m ∈ l.masks c := by
  by_cases hc : c = ch
  · subst hc
    have hmod : (l.setMask c i x).masks c = (l.masks c).modify i fun _ => x := upd_self ..
    rw [hmod] at h
    obtain ⟨j, hj, rfl⟩ := List.mem_iff_getElem.1 h
    rw [List.getElem_modify]
    split_ifs
    · exact .inl rfl
    · exact .inr (List.getElem_mem _)
  · have hmod : (l.setMask ch i x).masks c = l.masks c := upd_of_ne _ _ hc
    rw [hmod] at h
    exact .inr h

theorem setMasks_mem {ch : Channel} {i : Nat} {masks : List UInt8} (hnew : ∀ m ∈ masks, PttMask m)
    (h : ∀ ch, ∀ m ∈ l.masks ch, PttMask m) :
    ∀ c, ∀ m ∈ (masks.foldl (setMask ch i) l).masks c, PttMask m := by
  induction masks generalizing l with
  | nil => exact h
  | cons x masks ih =>
    refine @ih (l.setMask ch i x) (fun m hm => hnew m (List.mem_cons_of_mem _ hm)) ?_
    intro c m hm
    rcases mem_setMask hm with rfl | hm
    · exact hnew m (List.mem_cons_self ..)
    · exact h c m hm

theorem mem_erase {ch c : Channel} {i : Nat} {m : UInt8} (h : m ∈ (l.erase ch i).masks c) :
    m ∈ l.masks c := by
  by_cases hc : c = ch
  · subst hc
    have herase : (l.erase c i).masks c = (l.masks c).eraseIdx i := upd_self ..
    rw [herase] at h
    exact List.mem_of_mem_eraseIdx h
  · have herase : (l.erase ch i).masks c = l.masks c := upd_of_ne _ _ hc
    rwa [herase] at h

theorem mem_addProducer {ch c : Channel} {m : UInt8} (h : m ∈ (l.act (.addProducer ch)).masks c) :
    m = 0 ∨ m ∈ l.masks c := by
  by_cases hc : c = ch
  · subst hc
    have hadd : (l.act (.addProducer c)).masks c = l.masks c ++ [0] := upd_self ..
    rw [hadd] at h
    exact (List.mem_append.1 h).symm.imp_left List.mem_singleton.1
  · have hadd : (l.act (.addProducer ch)).masks c = l.masks c := upd_of_ne _ _ hc
    rw [hadd] at h
    exact .inr h

theorem drop_hold (h : l.PttHold) : l.drop.PttHold := by
  unfold drop
  split_ifs
  · refine ⟨?_, ?_⟩
    · show l.wflag &&& ~~~PTT_FLAGS &&& PTT_FLAGS = _
      have hz : ∀ ch, ∀ m ∈ (l.masks ch).map fun _ => (0 : UInt8), Within m 0 := by
        intro ch m hm
        obtain ⟨_, _, rfl⟩ := List.mem_map.1 hm
        exact .zero
      have h0 : Within (Link.held { l with masks := fun ch => (l.masks ch).map fun _ => 0,
                                           wflag := l.wflag &&& ~~~PTT_FLAGS }) 0 := held_within hz
      rw [Within, UInt8.or_zero] at h0
      rw [h0, UInt8.and_assoc, UInt8.not_and_self, UInt8.and_zero]
    · intro ch m hm
      obtain ⟨_, _, rfl⟩ := List.mem_map.1 hm
      exact .inl rfl
  · exact h

theorem held_append_zero (ch : Channel) (l : Link) :
    (l.act (.addProducer ch)).held = l.held := by
  rw [held_eq, held_eq]
  simp only [act, upd]
  cases ch <;> simp [List.foldl_append]

theorem held_erase {ch : Channel} {i : Nat} (h : ¬ (l.masks ch)[i]?.any (· != 0) = true) :
    (l.erase ch i).held = l.held := by
  have hfold : ∀ (ms : List UInt8) (i : Nat) (acc : UInt8), ¬ ms[i]?.any (· != 0) = true →
      (ms.eraseIdx i).foldl (· ||| ·) acc = ms.foldl (· ||| ·) acc := by
    intro ms
    induction ms with
    | nil => exact fun _ _ _ => rfl
    | cons m ms ih =>
      intro i acc hi
      cases i with
      | zero =>
        have hm : m = 0 := by simpa using hi
        rw [List.eraseIdx_cons_zero, List.foldl_cons, hm, UInt8.or_zero]
      | succ i => exact ih i _ (by simpa using hi)
  have hch := hfold (l.masks ch) i
  rw [held_eq, held_eq]
  simp only [erase, upd]
  cases ch <;> simp [List.foldl_append, hch _ h]

theorem PttHold.act (h : l.PttHold) (hok : LinkOk r e l a) : (l.act a).PttHold := by
  cases a with
  | queue ch p => exact ⟨h.wflag, h.masks⟩
  | take ch b => exact ⟨h.wflag, h.masks⟩
  | addProducer ch =>
    refine ⟨h.wflag.trans (held_append_zero ch l).symm, fun c m hm => ?_⟩
    rcases mem_addProducer hm with rfl | hm
    · exact .inl rfl
    · exact h.masks c m hm
  | remProducer ch i =>
    have hmem : ∀ c, ∀ m ∈ (l.erase ch i).masks c, PttMask m := fun c m hm => h.masks c m (mem_erase hm)
    rcases remProducer_cases l ch i with hact | ⟨hact, hany⟩ <;> rw [hact]
    · exact .of_push hmem
    · exact ⟨h.wflag.trans (held_erase hany).symm, hmem⟩
  | holds ch i masks => exact .of_push (setMasks_mem hok.2.2.2.1 h.masks)
  | mux => exact ⟨h.wflag, h.masks⟩
  | write n => exact ⟨h.wflag, h.masks⟩
  | offline => exact ⟨(drop_hold h).wflag, (drop_hold h).masks⟩
  | online => exact ⟨(drop_hold h).wflag, (drop_hold h).masks⟩

end Link

namespace Router

/-- Some PTT producer holds the radio. -/
def Holds (r : Router) (radio : UInt8) : Prop :=
  ∃ ch, ch.isPtt = true ∧ ∃ prd ∈ r.producers ch, prd.pttMask = radio

theorem create_masks (hasFlags : Bool) (ch : Channel) : (mhrCreate hasFlags).link.masks ch = [] := rfl

theorem runs_pttHold (hasFlags : Bool) (evs : List RouterEv) : (runs hasFlags evs).link.PttHold := by
  refine runs_link ?_ ?_ (Run.StepsOk.of_forall (fun _ _ => trivial) _ evs)
  · intro r e _ l a ha h
    exact h.act ha
  · refine ⟨?_, fun ch m hm => ?_⟩
    · show (0 : UInt8) &&& PTT_FLAGS = 0
      exact UInt8.zero_and
    · rw [create_masks] at hm
      exact absurd hm List.not_mem_nil

theorem holds_iff {r : Router} (h : r.link.PttHold) {radio : UInt8}
    (hradio : radio = MHC2DFL_PTT_R1 ∨ radio = MHC2DFL_PTT_R2) : r.wflag &&& radio ≠ 0 ↔ r.Holds radio := by
  have hbit : r.wflag &&& radio = r.link.held &&& radio := by
    have hr : PTT_FLAGS &&& radio = radio := by rcases hradio with rfl | rfl <;> decide
    have hw : r.wflag &&& PTT_FLAGS = r.link.held := h.wflag
    rw [← hw, UInt8.and_assoc, hr]
  have hmem : ∀ m ∈ (Channel.all.filter Channel.isPtt).flatMap r.link.masks, PttMask m := by
    intro m hm
    obtain ⟨ch, -, hm⟩ := List.mem_flatMap.1 hm
    exact h.masks ch m hm
  rw [hbit, Link.held, PttMask.foldl_bit hradio _ hmem, UInt8.zero_and]
  constructor
  · intro hor
    obtain ⟨ch, hch, hm⟩ := List.mem_flatMap.1 (hor.resolve_left (by simp))
    obtain ⟨prd, hprd, hmask⟩ := List.mem_map.1 hm
    exact ⟨ch, (List.mem_filter.1 hch).2, prd, hprd, hmask⟩
  · rintro ⟨ch, hch, prd, hprd, hmask⟩
    refine .inr (List.mem_flatMap.2 ⟨ch, List.mem_filter.2 ⟨Channel.mem_all ch, hch⟩, ?_⟩)
    exact List.mem_map.2 ⟨prd, hprd, hmask⟩

end Router

/-- In every reachable state the PTT bits of the flags byte are those the producers hold together,
each holds one radio at most, and a radio is keyed exactly when some producer holds it. -/
theorem ptt_hold (hasFlags : Bool) (evs : List RouterEv) :
    (Router.runs hasFlags evs).wflag &&& PTT_FLAGS = (Router.runs hasFlags evs).held ∧
    (∀ ch, ∀ prd ∈ (Router.runs hasFlags evs).producers ch, PttMask prd.pttMask) ∧
    ((Router.runs hasFlags evs).wflag &&& MHC2DFL_PTT_R1 ≠ 0 ↔
      (Router.runs hasFlags evs).Holds MHC2DFL_PTT_R1) ∧
    ((Router.runs hasFlags evs).wflag &&& MHC2DFL_PTT_R2 ≠ 0 ↔
      (Router.runs hasFlags evs).Holds MHC2DFL_PTT_R2) := by
  have h := Router.runs_pttHold hasFlags evs
  refine ⟨?_, fun ch prd hprd => ?_, Router.holds_iff h (.inl rfl), Router.holds_iff h (.inr rfl)⟩
  · rw [← Router.link_held]
    exact h.wflag
  · exact h.masks ch _ (List.mem_map.2 ⟨prd, hprd, rfl⟩)

/-! ### Reconnects -/

namespace Router

/-- Flags bytes on their way to the keyer, and those written since the latest connect. -/
def flagsPending (r : Router) : List UInt8 := r.link.pending .flags

def flagsWritten (r : Router) : List UInt8 := r.link.written .flags

/-- Flags bytes queued and PTT bits held by some producer since the latest connect. -/
def flagsQueued (r : Router) : List UInt8 := r.wire.queued .flags

def heldSince (r : Router) : UInt8 := r.wire.held

/-- No flags byte is left over at a connect, and a connector of the raw flags channel sends only PTT
bits that were held since. -/
def FlagsClean (r : Router) : RouterEv → Prop
  | .setKeyerFd (some fd) => r.fd = some fd ∨ r.flagsPending = []
  | .producer .flags _ (.data d) => ∀ b ∈ d, Within (b &&& PTT_FLAGS) r.heldSince
  | _ => True

instance (r : Router) (e : RouterEv) : Decidable (r.FlagsClean e) := by
  unfold FlagsClean
  split <;> infer_instance

end Router

namespace Link

variable {l : Link} {r : Router} {e : RouterEv} {a : LinkAct}

/-- The flags bytes queued since the connect have only PTT bits held since, and so have the masks. -/
structure PttSince (l : Link) : Prop where
  hold : l.PttHold
  fifo : l.Fifo (· = []) .flags
  queued : ∀ b ∈ l.wire.queued .flags, Within (b &&& PTT_FLAGS) l.wire.held
  masks : ∀ ch, ∀ m ∈ l.masks ch, Within m l.wire.held
  offline : l.online = false → ∀ ch, ∀ m ∈ l.masks ch, m = 0

theorem drop_masks (h : l.online = false → ∀ ch, ∀ m ∈ l.masks ch, m = 0) :
    ∀ ch, ∀ m ∈ l.drop.masks ch, m = 0 := by
  intro ch m hm
  unfold drop at hm
  split_ifs at hm with hon
  · obtain ⟨_, _, rfl⟩ := List.mem_map.1 hm
    rfl
  · exact h (Bool.eq_false_of_not_eq_true hon) ch m hm

theorem mem_queue_flags {ch : Channel} {p : List UInt8} {b : UInt8} (h : b ∈ (l.queue ch p).wire.queued .flags) :
    b ∈ l.wire.queued .flags ∨ (ch = .flags ∧ b ∈ p) := by
  have hq : (l.queue ch p).wire.queued .flags = upd l.wire.queued ch (l.wire.queued ch ++ p) .flags := rfl
  rw [hq] at h
  by_cases hch : Channel.flags = ch
  · rw [← hch, upd_self] at h
    exact (List.mem_append.1 h).imp_right fun hb => ⟨hch.symm, hb⟩
  · rw [upd_of_ne _ _ hch] at h
    exact .inl h

theorem push_wire_held (l : Link) : l.push.wire.held = l.wire.held := by
  unfold push
  split_ifs <;> rfl

/-- A push queues PTT bits that are held now. -/
theorem mem_push_flags (hm : ∀ ch, ∀ m ∈ l.masks ch, PttMask m) {b : UInt8}
    (h : b ∈ l.push.wire.queued .flags) : b ∈ l.wire.queued .flags ∨ b &&& PTT_FLAGS = l.held := by
  unfold push at h
  split_ifs at h
  · rcases mem_queue_flags h with hb | ⟨-, hb⟩
    · exact .inl hb
    · rw [List.mem_singleton.1 hb]
      exact .inr (sync_flags hm)
  · exact .inl h

/-- Masks that are assigned count as held. -/
theorem setMasks_since {ch : Channel} {i : Nat} {masks : List UInt8}
    (h : ∀ ch, ∀ m ∈ l.masks ch, Within m l.wire.held) :
    Within l.wire.held (masks.foldl (setMask ch i) l).wire.held ∧
    (∀ c, ∀ m ∈ (masks.foldl (setMask ch i) l).masks c, Within m (masks.foldl (setMask ch i) l).wire.held) ∧
    (masks.foldl (setMask ch i) l).wire.queued = l.wire.queued := by
  induction masks generalizing l with
  | nil => exact ⟨.refl, h, rfl⟩
  | cons x masks ih =>
    have hheld : (l.setMask ch i x).wire.held = l.wire.held ||| x := rfl
    obtain ⟨h1, h2, h3⟩ := @ih (l.setMask ch i x) (fun c m hm => by
      rw [hheld]
      rcases mem_setMask hm with rfl | hm
      · exact .right
      · exact (h c m hm).trans .left)
    rw [hheld] at h1
    exact ⟨Within.left.trans h1, h2, h3⟩

/-- Assigning masks leaves the rest of the link. -/
theorem setMasks_frame (ch : Channel) (i : Nat) (masks : List UInt8) (l : Link) :
    (masks.foldl (setMask ch i) l).online = l.online ∧ (masks.foldl (setMask ch i) l).hasFlags = l.hasFlags ∧
    (masks.foldl (setMask ch i) l).chanOut = l.chanOut := by
  induction masks generalizing l with
  | nil => exact ⟨rfl, rfl, rfl⟩
  | cons m masks ih => exact ih (l.setMask ch i m)

/-- A push queues bits that were held since the connect. -/
theorem push_since (hpm : ∀ ch, ∀ m ∈ l.masks ch, PttMask m)
    (hq : ∀ b ∈ l.wire.queued .flags, Within (b &&& PTT_FLAGS) l.wire.held)
    (hm : ∀ ch, ∀ m ∈ l.masks ch, Within m l.wire.held) :
    ∀ b ∈ l.push.wire.queued .flags, Within (b &&& PTT_FLAGS) l.push.wire.held := by
  intro b hb
  rw [push_wire_held]
  rcases mem_push_flags hpm hb with hb | hb
  · exact hq b hb
  · rw [hb]
    exact held_within hm

/-- While there is no keyer nobody holds PTT. -/
theorem act_offline (hoff : l.online = false → ∀ ch, ∀ m ∈ l.masks ch, m = 0) (hok : LinkOk r e l a) :
    (l.act a).online = false → ∀ ch, ∀ m ∈ (l.act a).masks ch, m = 0 := by
  cases a with
  | queue ch p => exact hoff
  | take ch b => exact hoff
  | addProducer ch => exact fun ho c m hm => (mem_addProducer hm).elim id fun hm => hoff ho c m hm
  | remProducer ch i =>
    rcases remProducer_cases l ch i with hact | ⟨hact, -⟩ <;> rw [hact]
    · rw [push_masks, push_online]
      exact fun ho c m hm => hoff ho c m (mem_erase hm)
    · exact fun ho c m hm => hoff ho c m (mem_erase hm)
  | holds ch i masks =>
    intro ho
    have hon : (l.act (.holds ch i masks)).online = true :=
      (push_online _).trans ((setMasks_frame ch i masks l).1.trans hok.1)
    rw [hon] at ho
    exact absurd ho (by decide)
  | mux => exact hoff
  | write n => exact hoff
  | offline => exact fun _ => drop_masks hoff
  | online =>
    intro ho
    have hon : (l.act .online).online = true := rfl
    rw [hon] at ho
    exact absurd ho (by decide)

/-- The acts of a step that leaves no flags byte over keep the invariant. -/
theorem PttSince.act (h : l.PttSince) (hok : LinkOk r e l a) (hclean : r.FlagsClean e) : (l.act a).PttSince := by
  have hfifo : (l.act a).Fifo (· = []) .flags := by
    refine h.fifo.act rfl hok ?_
    rintro rfl
    obtain ⟨rfl, fd, rfl, hfd⟩ := hok
    exact hclean.resolve_left hfd
  refine ⟨h.hold.act hok, hfifo, ?_, ?_, ?_⟩
  · -- what was queued
    cases a with
    | queue ch p =>
      intro b hb
      rcases mem_queue_flags hb with hb' | ⟨rfl, hb'⟩
      · exact h.queued b hb'
      · obtain ⟨rfl, -, -, hq⟩ := hok
        cases hq with
        | read hp => exact hclean b (hp.subset hb')
        | send hne => exact absurd rfl hne
    | take ch b => exact h.queued
    | addProducer ch => exact h.queued
    | remProducer ch i =>
      rcases remProducer_cases l ch i with hact | ⟨hact, -⟩ <;> rw [hact]
      · exact push_since (fun c m hm => h.hold.masks c m (mem_erase hm)) h.queued
          fun c m hm => h.masks c m (mem_erase hm)
      · exact h.queued
    | holds ch i masks =>
      obtain ⟨h1, h2, h3⟩ := @setMasks_since l ch i masks h.masks
      refine push_since (setMasks_mem hok.2.2.2.1 h.hold.masks) ?_ h2
      rw [h3]
      exact fun b hb => (h.queued b hb).trans h1
    | mux => exact h.queued
    | write n => exact h.queued
    | offline =>
      have hw : l.drop.wire = l.wire := by unfold drop; split_ifs <;> rfl
      show ∀ b ∈ l.drop.wire.queued .flags, Within (b &&& PTT_FLAGS) l.drop.wire.held
      rw [hw]
      exact h.queued
    | online => exact fun b hb => absurd hb List.not_mem_nil
  · -- what is held
    cases a with
    | queue ch p => exact h.masks
    | take ch b => exact h.masks
    | addProducer ch =>
      intro c m hm
      rcases mem_addProducer hm with rfl | hm
      · exact .zero
      · exact h.masks c m hm
    | remProducer ch i =>
      rcases remProducer_cases l ch i with hact | ⟨hact, -⟩ <;> rw [hact]
      · rw [push_masks, push_wire_held]
        exact fun c m hm => h.masks c m (mem_erase hm)
      · exact fun c m hm => h.masks c m (mem_erase hm)
    | holds ch i masks =>
      obtain ⟨-, h2, -⟩ := @setMasks_since l ch i masks h.masks
      show ∀ c, ∀ m ∈ (masks.foldl (setMask ch i) l).push.masks c,
        Within m (masks.foldl (setMask ch i) l).push.wire.held
      rw [push_masks, push_wire_held]
      exact h2
    | mux => exact h.masks
    | write n => exact h.masks
    | offline =>
      intro c m hm
      rw [drop_masks h.offline c m hm]
      exact .zero
    | online =>
      intro c m hm
      rw [drop_masks h.offline c m hm]
      exact .zero
  · exact act_offline h.offline hok

end Link

/-- In runs that leave no flags byte over at a connect, the keyer is written the flags bytes queued
since, in order, and a PTT bit in one of them was held by some producer since. -/
theorem ptt_since_connect (hasFlags : Bool) (evs : List RouterEv)
    (hclean : Run.StepsOk Router.step Router.FlagsClean (Router.mhrCreate hasFlags) evs) :
    (Router.runs hasFlags evs).flagsWritten <+: (Router.runs hasFlags evs).flagsQueued ∧
    ∀ b ∈ (Router.runs hasFlags evs).flagsWritten,
      Within (b &&& PTT_FLAGS) (Router.runs hasFlags evs).heldSince := by
  have h : (Router.runs hasFlags evs).link.PttSince := by
    refine Router.runs_link ?_ ?_ hclean
    · intro r e he l a ha hl
      exact hl.act ha he
    · refine ⟨Router.runs_pttHold hasFlags [], ⟨[], rfl, rfl⟩, ?_, ?_, ?_⟩
      · exact fun b hb => absurd hb List.not_mem_nil
      · exact fun ch m hm => absurd hm List.not_mem_nil
      · exact fun _ ch m hm => absurd hm List.not_mem_nil
  obtain ⟨stale, rfl, heq⟩ := h.fifo
  have hpre : (Router.runs hasFlags evs).flagsWritten <+: (Router.runs hasFlags evs).flagsQueued := ⟨_, heq⟩
  exact ⟨hpre, fun b hb => h.queued b (hpre.subset hb)⟩

theorem ptt_since_connect_on :
    (Router.runs true [.addProducer 5 .ptt1, .setKeyerFd (some 3), .producer .ptt1 0 (.data [1]),
        .keyerOut (.wrote 20)]).flagsWritten <+:
      (Router.runs true [.addProducer 5 .ptt1, .setKeyerFd (some 3), .producer .ptt1 0 (.data [1]),
        .keyerOut (.wrote 20)]).flagsQueued :=
  (ptt_since_connect true [.addProducer 5 .ptt1, .setKeyerFd (some 3), .producer .ptt1 0 (.data [1]),
    .keyerOut (.wrote 20)] (by decide)).1

/-- PTT on at a stalled keyer, a disconnect and a connect, then a byte for radio 1 that starts the
writer. -/
def staleRun : List RouterEv :=
  [.addProducer 5 .ptt1, .addProducer 6 .r1, .setKeyerFd (some 3), .producer .ptt1 0 (.data [1]),
    .setKeyerFd none, .setKeyerFd (some 3), .producer .r1 0 (.data [0x41]), .keyerOut (.wrote 20)]

/-- The flags byte of before the disconnect keys radio 1 after the connect, and nobody held PTT. -/
theorem ptt_since_connect_stale :
    ¬ ∀ (hasFlags : Bool) (evs : List RouterEv), ∀ b ∈ (Router.runs hasFlags evs).flagsWritten,
      Within (b &&& PTT_FLAGS) (Router.runs hasFlags evs).heldSince := by
  intro h
  have hb : (Router.runs true staleRun).flagsWritten = [0x04] := by decide
  have := h true staleRun 0x04 (by rw [hb]; exact List.mem_singleton.2 rfl)
  exact absurd this (by decide)

/-! ### The last flags byte -/

/-- The PTT bits of the last of some flags bytes, none if there is none. -/
def lastPtt (bs : List UInt8) : UInt8 := bs.getLast?.getD 0 &&& PTT_FLAGS

theorem lastPtt_nil : lastPtt [] = 0 := by
  show (0 : UInt8) &&& PTT_FLAGS = 0
  exact UInt8.zero_and

theorem lastPtt_append_of_forall {bs p : List UInt8} {x : UInt8} (hbs : lastPtt bs = x)
    (hp : ∀ b ∈ p, b &&& PTT_FLAGS = x) : lastPtt (bs ++ p) = x := by
  cases p using List.reverseRecOn with
  | nil => rwa [List.append_nil]
  | append_singleton p b =>
    rw [← List.append_assoc, lastPtt, List.getLast?_append, List.getLast?_singleton]
    exact hp b (by simp)

namespace Router

/-- At a connect the last flags byte left over, if any, has no PTT bits; every push finds room in the
flags buffer; a connector of the raw flags channel sends the PTT bits that are held. -/
def FlagsSettled (r : Router) (e : RouterEv) : Prop :=
  (match e with
    | .setKeyerFd (some fd) => r.fd = some fd ∨ lastPtt r.flagsPending = 0
    | .producer .flags _ (.data d) => ∀ b ∈ d, b &&& PTT_FLAGS = r.wflag &&& PTT_FLAGS
    | _ => True) ∧
  (r.fd.isSome = true → r.pushes e = true → 1 ≤ (r.chanOut .flags).avail)

instance (r : Router) (e : RouterEv) : Decidable (r.FlagsSettled e) := by
  unfold FlagsSettled
  split <;> infer_instance

end Router

namespace Link

variable {l : Link} {r : Router} {e : RouterEv} {a : LinkAct}

/-- While the keyer is connected the last flags byte queued since has the PTT bits of `wflag`. -/
structure PttLearnt (l : Link) : Prop where
  hold : l.PttHold
  hasFlags : l.hasFlags = true
  fifo : l.Fifo (lastPtt · = 0) .flags
  last : l.online = true → lastPtt (l.wire.queued .flags) = l.wflag &&& PTT_FLAGS
  offline : l.online = false → ∀ ch, ∀ m ∈ l.masks ch, m = 0

theorem act_hasFlags (l : Link) (a : LinkAct) : (l.act a).hasFlags = l.hasFlags := by
  have hpush : ∀ l : Link, l.push.hasFlags = l.hasFlags := by
    intro l
    unfold push
    split_ifs <;> rfl
  have hdrop : l.drop.hasFlags = l.hasFlags := by
    unfold drop
    split_ifs <;> rfl
  cases a with
  | remProducer ch i =>
    rcases remProducer_cases l ch i with hact | ⟨hact, -⟩ <;> rw [hact]
    · exact hpush _
    · rfl
  | holds ch i masks => exact (hpush _).trans (setMasks_frame ch i masks l).2.1
  | offline => exact hdrop
  | online => exact hdrop
  | _ => rfl

theorem push_last (hf : l.hasFlags = true)
    (hroom : l.online = true → 1 ≤ (l.chanOut .flags).avail) :
    l.push.online = true → lastPtt (l.push.wire.queued .flags) = l.push.wflag &&& PTT_FLAGS := by
  intro hon
  rw [push_online] at hon
  have hcan : l.canPush = true := by
    simp only [canPush, Bool.and_eq_true, decide_eq_true_eq]
    exact ⟨⟨hon, hf⟩, hroom hon⟩
  have hq : l.push.wire.queued .flags = l.wire.queued .flags ++ [l.sync.wflag] := by
    rw [push, if_pos hcan]
    exact upd_self l.wire.queued .flags _
  rw [hq, push_wflag, lastPtt, List.getLast?_append, List.getLast?_singleton]
  rfl

/-- A step that meets the condition keeps the invariant. -/
theorem PttLearnt.act (h : l.PttLearnt) (hok : LinkOk r e l a) (hset : r.FlagsSettled e) :
    (l.act a).PttLearnt := by
  have hfifo : (l.act a).Fifo (lastPtt · = 0) .flags := by
    refine h.fifo.act rfl hok ?_
    rintro rfl
    obtain ⟨rfl, fd, rfl, hfd⟩ := hok
    exact hset.1.resolve_left hfd
  refine ⟨h.hold.act hok, (act_hasFlags l a).trans h.hasFlags, hfifo, ?_, act_offline h.offline hok⟩
  cases a with
  | queue ch p =>
    intro hon
    have hq : (l.queue ch p).wire.queued .flags = upd l.wire.queued ch (l.wire.queued ch ++ p) .flags := rfl
    show lastPtt ((l.queue ch p).wire.queued .flags) = l.wflag &&& PTT_FLAGS
    rw [hq]
    by_cases hch : Channel.flags = ch
    · subst hch
      obtain ⟨rfl, -, -, hqueues⟩ := hok
      rw [upd_self]
      refine lastPtt_append_of_forall (h.last hon) fun b hb => ?_
      cases hqueues with
      | read hp => exact hset.1 b (hp.subset hb)
      | send hne => exact absurd rfl hne
    · rw [upd_of_ne _ _ hch]
      exact h.last hon
  | take ch b => exact h.last
  | addProducer ch => exact h.last
  | remProducer ch i =>
    by_cases hany : (l.masks ch)[i]?.any (· != 0) = true
    · obtain ⟨hon, hfl, hp⟩ := hok hany
      have hact : l.act (.remProducer ch i) = (l.erase ch i).push := if_pos hany
      rw [hact]
      refine push_last h.hasFlags fun hon' => ?_
      show 1 ≤ (l.chanOut .flags).avail
      rw [hfl]
      exact hset.2 (hon.symm.trans hon') hp
    · have hact : l.act (.remProducer ch i) = l.erase ch i := if_neg hany
      rw [hact]
      exact h.last
  | holds ch i masks =>
    obtain ⟨honl, -, -, -, hon, hfl, hp⟩ := hok
    obtain ⟨h1, h2, h3⟩ := setMasks_frame ch i masks l
    refine push_last (h2.trans h.hasFlags) fun _ => ?_
    rw [h3, hfl]
    exact hset.2 (hon.symm.trans honl) hp
  | mux => exact h.last
  | write n => exact h.last
  | offline =>
    intro hon
    have hoff : (l.act .offline).online = false := rfl
    rw [hoff] at hon
    exact absurd hon (by decide)
  | online =>
    intro _
    have hz : Within l.drop.held 0 := held_within fun ch m hm => by
      rw [drop_masks h.offline ch m hm]
      exact .zero
    rw [Within, UInt8.or_zero] at hz
    show lastPtt [] = l.drop.wflag &&& PTT_FLAGS
    rw [(drop_hold h.hold).wflag, hz]
    exact lastPtt_nil

end Link

/-- In runs that meet the condition, a keyer that is connected and has read all that was waiting was
last told the PTT bits that are held. -/
theorem keyer_learns_ptt (evs : List RouterEv)
    (hset : Run.StepsOk Router.step Router.FlagsSettled (Router.mhrCreate true) evs) :
    (Router.runs true evs).fd.isSome = true → ((Router.runs true evs).chanOut .flags).unread = [] →
      (Router.runs true evs).bufOut.unread = [] →
      lastPtt (Router.runs true evs).flagsWritten = (Router.runs true evs).held := by
  intro hon hfl hout
  have h : (Router.runs true evs).link.PttLearnt := by
    refine Router.runs_link ?_ ?_ hset
    · intro r e he l a ha hl
      exact hl.act ha he
    · refine ⟨Router.runs_pttHold true [], rfl, ⟨[], lastPtt_nil, rfl⟩, ?_, ?_⟩
      · exact fun h => absurd h (by decide)
      · exact fun _ ch m hm => absurd hm List.not_mem_nil
  have hpend : (Router.runs true evs).link.pending .flags = [] := by
    show chanBytes _ (RefDec.slots _ (Router.runs true evs).bufOut.unread) ++
      ((Router.runs true evs).chanOut .flags).unread = []
    rw [hfl, hout]
    rfl
  obtain ⟨stale, hs, heq⟩ := h.fifo
  rw [hpend, List.append_nil] at heq
  have hlast := h.last hon
  rw [← Router.link_held, ← h.hold.wflag, ← hlast, Router.flagsWritten, heq]
  cases hq : (Router.runs true evs).link.wire.queued .flags with
  | nil =>
    rw [List.append_nil, lastPtt_nil]
    exact hs
  | cons b bs =>
    rw [lastPtt, lastPtt, List.getLast?_append_of_ne_nil _ (List.cons_ne_nil b bs)]

theorem keyer_learns_ptt_released :
    lastPtt (Router.runs true [.addProducer 5 .ptt1, .setKeyerFd (some 3), .producer .ptt1 0 (.data [1]),
        .remProducer 5 .ptt1, .keyerOut (.wrote 20)]).flagsWritten =
      (Router.runs true [.addProducer 5 .ptt1, .setKeyerFd (some 3), .producer .ptt1 0 (.data [1]),
        .remProducer 5 .ptt1, .keyerOut (.wrote 20)]).held :=
  keyer_learns_ptt _ (by decide) (by decide) (by decide) (by decide)

/-- The last flags byte the keyer is told after the reconnect keys radio 1, and nobody holds PTT. -/
theorem keyer_learns_ptt_stale :
    ¬ ∀ evs : List RouterEv, (Router.runs true evs).fd.isSome = true →
      ((Router.runs true evs).chanOut .flags).unread = [] → (Router.runs true evs).bufOut.unread = [] →
      lastPtt (Router.runs true evs).flagsWritten = (Router.runs true evs).held := by
  intro h
  exact absurd (h staleRun (by decide) (by decide) (by decide)) (by decide)

end Mhuxd
