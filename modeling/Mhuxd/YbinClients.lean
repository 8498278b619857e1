import Mhuxd.YbinFrames
import Mhuxd.CivClients

/-!
# Whose commands the decoder of the older Yaesu radios holds

`Within S` says it as for the CI-V decoder. After a byte of the radio that ends no frame an answer is coming
in, and the commands of another application are given up without a frame.
-/

namespace Mhuxd

namespace Ybin

variable {S : Nat → Prop}
variable {y y' b : Ybin} {dir : CatDir} {client t : Nat} {src : Src} {buf : List UInt8} {p : YbinPending}

structure Within (S : Nat → Prop) (y : Ybin) : Prop where
  pend : ∀ p ∈ y.pend, S p.client
  out : ∀ e ∈ y.out, e.ClientIn S

namespace Within

theorem of_noted (h : Within S y) (hn : Noted y y') : Within S y' := by
  obtain ⟨st, rfl, -⟩ := hn
  exact ⟨h.pend, h.out⟩

/-- Only the commands and data that isn't theirs change. -/
theorem of_pend (h : Within S y) (hp : ∀ p ∈ y'.pend, S p.client) (ho : y'.out = y.out) : Within S y' :=
  ⟨hp, by rw [ho]; exact h.out⟩

theorem emit (h : Within S y) {kind : FrameKind} {applied own : Bool} (hc : dir = .radio → S client) :
    Within S (y.emit kind dir buf applied own client t) := ⟨h.pend, forall_mem_concat h.out hc⟩

theorem pendRemove (h : Within S y) (i : Nat) : Within S (y.pendRemove i) :=
  h.of_pend (fun p hp => h.pend p ((List.eraseIdx_sublist ..).subset hp)) rfl

end Within

namespace Within

theorem answered (h : Within S y) (st : CatState) (t : Nat) : Within S (y.answered st t) := by
  refine h.of_pend (fun p hp => ?_) rfl
  obtain ⟨q, hq, hc, -⟩ := dueFrom_mem hp
  rw [hc]
  exact h.pend q ((List.eraseIdx_sublist ..).subset hq)

theorem answerDone (h : Within S y) (hp : S p.client) (complete : Bool) (t : Nat) :
    Within S (y.answerDone p complete t) := by
  obtain ⟨st, kind, applied, -, heq⟩ := y.answerDone_eq p complete t
  rw [heq]
  split
  · exact h.answered st t
  · exact (h.answered st t).emit fun _ => hp

theorem pendEnd (h : Within S y) (hp : S p.client) (t : Nat) : Within S (y.pendEnd p t) := by
  unfold Ybin.pendEnd
  split_ifs
  · exact h.answerDone hp _ _
  · exact h.pendRemove 0

theorem expireLoop (h : Within S y) (n : Nat) : Within S (Ybin.expireLoop t n y) := by
  induction n generalizing y with
  | zero => exact h
  | succ n ih =>
    unfold Ybin.expireLoop
    split
    · exact h
    · next p ps hpend =>
      split_ifs
      · exact h
      · exact ih (h.pendEnd (h.pend p (by rw [hpend]; exact List.mem_cons_self)) t)

theorem pendExpire (h : Within S y) (t : Nat) : Within S (y.pendExpire t) := h.expireLoop _

theorem giveupLoop (h : Within S y) (n : Nat) : Within S (Ybin.giveupLoop t n y) := by
  induction n generalizing y with
  | zero => exact h
  | succ n ih =>
    unfold Ybin.giveupLoop
    split
    · exact h
    · split_ifs
      · exact ih (h.pendRemove 0)
      · exact h

theorem pendAdd (h : Within S y) (c : List UInt8) (len : Nat × Bool) (own : Bool) (hc : S client) :
    Within S (y.pendAdd c len own client t) := by
  have hroom : Within S (y.pendRoom t) := by
    unfold Ybin.pendRoom
    split
    · exact h
    · next p ps hpend =>
      split_ifs
      · exact h.pendEnd (h.pend p (by rw [hpend]; exact List.mem_cons_self)) t
      · exact h
  exact hroom.of_pend (forall_mem_concat hroom.pend hc) rfl

end Within

namespace Within

theorem paced (h : Within S y) (c : List UInt8) : Within S (y.paced c) := by
  unfold Ybin.paced
  split_ifs
  · exact ⟨h.pend, h.out⟩
  · exact h

theorem ready (h : Within S y) (c : List UInt8) (t : Nat) : Within S (y.ready c t) :=
  Within.paced (((h.of_noted noted_vfo).pendExpire t).giveupLoop _) c

theorem command (h : Within S y) (hd : dir ≠ .radio) (hc : S client) (c : List UInt8) (t : Nat) :
    Within S (y.command dir client c t) := by
  obtain ⟨st, kind, applied, heq⟩ := y.command_eq dir client c t
  have hw : Within S (y.taken c (dir == .own) client t) := by
    unfold Ybin.taken
    split_ifs
    · exact (h.ready c t).pendAdd _ _ _ hc
    · exact ⟨(h.ready c t).pend, (h.ready c t).out⟩
  rw [heq]
  exact Within.emit (y := { y.taken c (dir == .own) client t with st := st }) ⟨hw.pend, hw.out⟩ fun hr => absurd hr hd

theorem answerByte (h : Within S y) {ps : List YbinPending} (hp : ∀ q ∈ p :: ps, S q.client) (b : UInt8) (t : Nat) :
    Within S (y.answerByte p ps b t) := by
  have hv := h.of_noted (noted_vfo (t := t))
  unfold Ybin.answerByte
  dsimp only
  generalize (if y.st.vfoAb.valid then y else y.selectVfo false t) = z at hv ⊢
  have hc : S p.client := hp p List.mem_cons_self
  have hz : Within S { z with
      pend := { p with got := p.got + 1, tLast := t } :: ps
      ans := z.ans ++ [b] } := by
    refine hv.of_pend (fun q hq => ?_) rfl
    rcases List.mem_cons.1 hq with rfl | hq
    · exact hc
    · exact hp q (List.mem_cons_of_mem _ hq)
  split_ifs
  · exact hz.answerDone (p := { p with got := p.got + 1, tLast := t }) hc _ _
  · exact (hz.emit fun _ => hc).of_pend hz.pend rfl
  · exact hz

theorem radioByte (h : Within S y) (h0 : S 0) (b : UInt8) (t : Nat) : Within S (y.radioByte b t) := by
  have he := h.pendExpire t
  unfold Ybin.radioByte
  dsimp only
  split
  · exact he.emit fun _ => h0
  · next p ps hpend => exact he.answerByte (fun q hq => he.pend q (by rw [hpend]; exact hq)) b t

theorem rxExpire (h : Within S y) (hd : dir ≠ .radio) : Within S (y.rxExpire dir client src t) := by
  unfold Ybin.rxExpire
  dsimp only
  split_ifs
  · exact h
  · exact (h.emit fun hr => absurd hr hd).of_pend h.pend rfl

theorem hostByte (h : Within S y) (hd : dir ≠ .radio) (hc : S client) (b : UInt8) (t : Nat) :
    Within S (y.hostByte dir client src b t) := by
  have he : Within S (y.rxExpire dir client src t) := h.rxExpire hd
  have hset : ∀ rx, Within S ((y.rxExpire dir client src t).setRx src rx) := fun rx => ⟨he.pend, he.out⟩
  unfold Ybin.hostByte
  dsimp only
  split_ifs
  · exact (hset _).command hd hc _ _
  · exact hset _

theorem feed (h : Within S y) (h0 : S 0) (hc : dir = .host → S client) (data : List UInt8) (t : Nat) :
    Within S (y.feed dir client data t) := by
  have hc' := sender_in h0 hc
  unfold Ybin.feed
  split
  · exact h
  · induction data generalizing y with
    | nil => exact h
    | cons b data ih => exact ih (h.radioByte h0 b t)
  · next src hne hsrc =>
    have hd : dir ≠ .radio := by
      rintro rfl
      exact hne (Option.some.inj hsrc).symm
    induction data generalizing y with
    | nil => exact h
    | cons b data ih => exact ih (h.hostByte hd hc' b t)

theorem discardRest_mem {l : List YbinPending} {q : YbinPending} (hq : q ∈ discardRest client l) : q ∈ l := by
  cases l with
  | nil => exact hq
  | cons p l =>
    rcases List.mem_cons.1 hq with rfl | hq
    · exact List.mem_cons_self
    · exact List.mem_cons_of_mem _ (List.mem_filter.1 hq).1

theorem clientDiscard (h : Within S y) (client : Nat) : Within S (y.clientDiscard client) := by
  have hw : ∀ (rx : Src → YbinRx) (hold : Nat → Nat), Within S { y with
      rx := rx
      hold := hold
      pend := discardRest client y.pend } :=
    fun rx hold => h.of_pend (fun q hq => h.pend q (discardRest_mem hq)) rfl
  unfold Ybin.clientDiscard
  dsimp only
  split_ifs
  · split
    · exact hw _ _
    · next p ps hpend =>
      split_ifs
      · exact hw _ _
      · exact (hw _ _).pendEnd (h.pend p (discardRest_mem (by rw [show discardRest client y.pend = _ from hpend]; exact List.mem_cons_self))) _
  · exact h

theorem expire (h : Within S y) (t : Nat) : Within S (y.expire t) := by
  have hfold : ∀ (cs : List Nat) (z : Ybin), Within S z →
      Within S (cs.foldl (fun y c => y.rxExpire .host (c + 1) (.client (c + 1)) t) z) := by
    intro cs
    induction cs with
    | nil => exact fun _ hz => hz
    | cons c cs ih => exact fun z hz => ih _ (hz.rxExpire (by decide))
  exact ((hfold _ _ h).rxExpire (by decide)).pendExpire t

end Within

/-! What is given to the callback. -/

end Ybin

end Mhuxd
