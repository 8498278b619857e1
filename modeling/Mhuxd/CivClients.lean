import Mhuxd.CatCiv

/-!
# Whose commands the CI-V decoder holds

`Within S`: the clients of the pending commands, and of the radio's frames given to the callback, are in
`S`. All that happens to a decoder keeps it, if the clients that send are in `S` too. `AsciiClients` and
`YbinClients` say the same of the other decoders.
-/

namespace Mhuxd

/-- A frame of the radio has its client in `S`. -/
def Emit.ClientIn (S : Nat → Prop) (e : Emit) : Prop := e.frame.dir = .radio → S e.frame.client

variable {S : Nat → Prop}

theorem forall_mem_concat {α : Type} {P : α → Prop} {l : List α} {x : α} (h : ∀ y ∈ l, P y) (hx : P x) :
    ∀ y ∈ l ++ [x], P y := by
  intro y hy
  rcases List.mem_append.1 hy with hy | hy
  · exact h y hy
  · rw [List.mem_singleton.1 hy]
    exact hx

/-- The client that data comes from: only the host's is a client's. -/
theorem sender_in {dir : CatDir} {client : Nat} (h0 : S 0) (hc : dir = .host → S client) :
    S (if dir = .host then client else 0) := by
  split_ifs with hd
  · exact hc hd
  · exact h0

namespace Civ

variable {civ : Civ} {dir : CatDir} {client t : Nat} {src : Src} {f : List UInt8}

/-- The command in `last` counts while the radio's address isn't known: an answer may tell it. -/
structure Within (S : Nat → Prop) (civ : Civ) : Prop where
  pend : ∀ p ∈ civ.pend, S p.client
  last : civ.radioAddr = 0 → civ.lastDir = .host → S civ.lastClient
  out : ∀ e ∈ civ.out, e.ClientIn S

namespace Within

/-- Commands are gone, or marked. -/
theorem of_pend (h : Within S civ) {pend : List CivPending} (hp : ∀ p ∈ pend, S p.client) :
    Within S { civ with pend := pend } := ⟨hp, h.last, h.out⟩

theorem setRx (h : Within S civ) (src : Src) (rx : CivRx) : Within S (civ.setRx src rx) := ⟨h.pend, h.last, h.out⟩

theorem rxState (h : Within S civ) (src : Src) (state : RxState) : Within S (civ.rxState src state) := h.setRx _ _

theorem emit (h : Within S civ) {kind : FrameKind} {applied own : Bool} (hc : dir = .radio → S client) :
    Within S (civ.emit kind dir f applied own client t) := ⟨h.pend, h.last, forall_mem_concat h.out hc⟩

theorem pendExpire (h : Within S civ) (t : Nat) : Within S (civ.pendExpire t) :=
  h.of_pend fun p hp => h.pend p ((List.dropWhile_sublist _).subset hp)

theorem pendAdd (h : Within S civ) (h0 : S 0) (hc : dir = .host → S client) : Within S (civ.pendAdd f dir client t) := by
  refine h.of_pend (forall_mem_concat (fun p hp => h.pend p ?_) ?_)
  · split_ifs at hp
    · exact List.mem_of_mem_tail hp
    · exact hp
  · show S (if dir = .host then client else 0)
    split_ifs with hd
    · exact hc hd
    · exact h0

theorem pendConsume (h : Within S civ) (i : Nat) (p : CivPending) : Within S (civ.pendConsume i p) := by
  refine h.of_pend fun q hq => h.pend q ?_
  rcases List.mem_append.1 hq with hq | hq
  · exact List.mem_of_mem_take (List.mem_filter.1 hq).1
  · exact List.mem_of_mem_drop hq

theorem learnAddr (h : Within S civ) (h0 : S 0) (hr : civ.radioAddr = 0) : Within S (civ.learnAddr dir f t) := by
  have haddr : Within S { civ with radioAddr := fFrom f } := ⟨h.pend, fun _ hd => h.last hr hd, h.out⟩
  unfold Civ.learnAddr
  split_ifs
  · exact h
  · exact haddr
  · exact haddr.pendAdd h0 (h.last hr)
  · exact h

/-- The radio's state has no part in it. -/
theorem of_st (h : Within S civ) (st : CatState) : Within S { civ with st := st } := ⟨h.pend, h.last, h.out⟩

theorem processBroadcast (h : Within S civ) (h0 : S 0) : Within S (civ.processBroadcast f t) :=
  (h.of_st _).emit fun _ => h0

theorem processAck (h : Within S civ) (h0 : S 0) : Within S (civ.processAck f t) := by
  unfold Civ.processAck
  dsimp only
  split
  · exact h.emit fun _ => h0
  · split
    · exact h
    · next p hp => exact ((h.of_st _).pendConsume _ _).emit fun _ => h.pend p (List.mem_of_getElem? hp)

theorem processReply (h : Within S civ) (h0 : S 0) : Within S (civ.processReply f t) := by
  unfold Civ.processReply
  split
  · exact h.emit fun _ => h0
  · split
    · exact h
    · next p hp => exact ((h.pendConsume _ _).of_st _).emit fun _ => h.pend p (List.mem_of_getElem? hp)

theorem processEcho (h : Within S civ) (h0 : S 0) : Within S (civ.processEcho f t) := by
  unfold Civ.processEcho
  split
  · have hadd : Within S (civ.pendAdd f .radio 0 t) := h.pendAdd h0 fun hd => absurd hd (by decide)
    exact hadd.emit fun _ => h0
  · split
    · exact h
    · next p hp =>
      refine (h.of_pend fun q hq => ?_).emit fun _ => h.pend p (List.mem_of_getElem? hp)
      obtain ⟨j, hj, rfl⟩ := List.mem_iff_getElem.1 hq
      rw [List.length_modify] at hj
      have hold := h.pend _ (List.getElem_mem hj)
      rw [List.getElem_modify]
      split_ifs <;> exact hold

theorem processRadioFrame (h : Within S civ) (h0 : S 0) : Within S (civ.processRadioFrame f t) := by
  unfold Civ.processRadioFrame
  dsimp only
  split_ifs
  · exact h.processBroadcast h0
  · exact h.processAck h0
  · exact h.processReply h0
  · exact h.processEcho h0
  · exact h.emit fun _ => h0

theorem processFrame (h : Within S civ) (h0 : S 0) (hc : S client) : Within S (civ.processFrame dir client f t) := by
  have h1 : Within S (if (civ.pendExpire t).radioAddr = 0 then (civ.pendExpire t).learnAddr dir f t
      else civ.pendExpire t) := by
    split_ifs with hr
    · exact (h.pendExpire t).learnAddr h0 hr
    · exact h.pendExpire t
  unfold Civ.processFrame
  dsimp only
  generalize (if (civ.pendExpire t).radioAddr = 0 then (civ.pendExpire t).learnAddr dir f t
    else civ.pendExpire t) = a at h1 ⊢
  have hnote : ∀ b, Within S b → Within S { b with
      last := f
      lastDir := dir
      lastClient := client } := fun b hb => ⟨hb.pend, fun _ _ => hc, hb.out⟩
  refine hnote _ ?_
  split_ifs
  · exact h1.emit fun _ => hc
  · exact h1.processRadioFrame h0
  · exact (h1.pendAdd h0 fun _ => hc).emit fun _ => hc
  · exact h1.emit fun _ => hc

theorem rxDrop (h : Within S civ) (hc : S client) : Within S (civ.rxDrop dir client src t) := by
  unfold Civ.rxDrop
  dsimp only
  split_ifs
  · exact (h.emit fun _ => hc).setRx _ _
  · exact h.setRx _ _

theorem markLost (h : Within S civ) (t : Nat) : Within S (civ.markLost t) := by
  refine h.of_pend fun p hp => ?_
  obtain ⟨q, hq, rfl⟩ := List.mem_map.1 hp
  split_ifs
  · exact h.pend q hq
  · exact h.pend q hq

theorem rxJam (h : Within S civ) (hc : S client) : Within S (civ.rxJam dir client src t) := by
  have hlost : Within S (if dir = .radio then civ.markLost t else civ) := by
    split_ifs
    · exact h.markLost t
    · exact h
  exact ((hlost.rxDrop hc).emit fun _ => hc).rxState _ _

theorem rxFrame (h : Within S civ) (h0 : S 0) (hc : S client) (b : UInt8) : Within S (civ.rxFrame dir client src b t) := by
  unfold Civ.rxFrame
  dsimp only
  split_ifs
  · exact (h.rxDrop hc).rxState _ _
  · exact h
  · exact ((h.processFrame h0 hc).setRx _ _).rxState _ _
  · exact (h.rxDrop hc).rxState _ _
  · exact h.setRx _ _
  · exact (h.rxDrop hc).rxState _ _

theorem rxByte (h : Within S civ) (h0 : S 0) (hc : S client) (b : UInt8) : Within S (civ.rxByte dir client src b t) := by
  have hn := h.setRx src { civ.rx src with tMs := t }
  unfold Civ.rxByte
  dsimp only
  generalize civ.setRx src { civ.rx src with tMs := t } = a at hn ⊢
  by_cases hcol : b = CIV_COL
  · rw [if_pos hcol]
    exact hn.rxJam hc
  · rw [if_neg hcol]
    rcases (a.rx src).state with _ | _ | _ | _
    · dsimp only
      split_ifs
      · exact hn.rxState _ _
      · exact hn
    · dsimp only
      split_ifs
      · exact hn.setRx _ _
      · exact hn.rxState _ _
    · exact hn.rxFrame h0 hc b
    · dsimp only
      split_ifs
      · exact hn.rxState _ _
      · exact hn.rxState _ _
      · exact hn

theorem feed (h : Within S civ) (h0 : S 0) (hc : dir = .host → S client) (data : List UInt8) (t : Nat) :
    Within S (civ.feed dir client data t) := by
  have hc' := sender_in h0 hc
  unfold Civ.feed
  split
  · exact h
  · induction data generalizing civ with
    | nil => exact h
    | cons b data ih => exact ih (h.rxByte h0 hc' b)

theorem clientDiscard (h : Within S civ) (client : Nat) : Within S (civ.clientDiscard client) := by
  unfold Civ.clientDiscard
  dsimp only
  split_ifs
  · exact (h.setRx _ _).of_pend fun p hp => h.pend p (List.mem_filter.1 hp).1
  · exact h

theorem resendLoop_clients (max t : Nat) (l : List CivPending) :
    (Civ.resendLoop max t l).1.map (·.client) = l.map (·.client) := by
  induction l with
  | nil => rfl
  | cons p l ih =>
    unfold Civ.resendLoop
    dsimp only
    split_ifs
    · exact congrArg (List.cons _) ih
    · exact congrArg (List.cons _) ih
    · rfl

theorem resend (h : Within S civ) (max t : Nat) : Within S (civ.resend max t).1 := by
  refine h.of_pend fun p hp => ?_
  have hmem : p.client ∈ civ.pend.map (·.client) := by
    rw [← resendLoop_clients max t]
    exact List.mem_map_of_mem hp
  obtain ⟨q, hq, hqc⟩ := List.mem_map.1 hmem
  exact hqc ▸ h.pend q hq

end Within

end Civ

end Mhuxd
