import Mhuxd.AsciiFrames
import Mhuxd.CivClients

/-!
# Whose commands the decoder of the ASCII protocols holds
-/

namespace Mhuxd

namespace Ascii

variable {S : Nat → Prop}
variable {a a' b : Ascii} {dir : CatDir} {client t : Nat} {src : Src} {buf : List UInt8}

structure Within (S : Nat → Prop) (a : Ascii) : Prop where
  pend : ∀ p ∈ a.pend, S p.client
  out : ∀ e ∈ a.out, e.ClientIn S

namespace Within

theorem of_noted (h : Within S a) (hn : Noted a a') : Within S a' := ⟨by rw [hn.pend]; exact h.pend, by rw [hn.out]; exact h.out⟩

theorem of_pend (h : Within S a) {pend : List AsciiPending} (hp : ∀ p ∈ pend, S p.client) :
    Within S { a with pend := pend } := ⟨hp, h.out⟩

theorem setRx (h : Within S a) (src : Src) (rx : AsciiRx) : Within S (a.setRx src rx) := ⟨h.pend, h.out⟩

theorem emit (h : Within S a) {kind : FrameKind} {applied own : Bool} (hc : dir = .radio → S client) :
    Within S (a.emit kind dir buf applied own client t) := ⟨h.pend, forall_mem_concat h.out hc⟩

theorem pendAdd (h : Within S a) (pfx : List UInt8) (own : Bool) (hc : S client) :
    Within S (a.pendAdd buf pfx own client t) := by
  refine h.of_pend (forall_mem_concat (fun p hp => h.pend p ?_) hc)
  have hfilter : ∀ q ∈ a.pend.filter (fun q => pendLive q t), q ∈ a.pend := fun q hq => (List.mem_filter.1 hq).1
  split_ifs at hp
  · exact hfilter p (List.mem_of_mem_tail hp)
  · exact hfilter p hp

theorem pendTake (h : Within S a) (answer : Option (List UInt8 × List UInt8)) :
    Within S (a.pendTake answer t).1 ∧ ∀ o ∈ (a.pendTake answer t).2, S o.2 := by
  unfold Ascii.pendTake
  split
  · exact ⟨h, by simp⟩
  · split
    · exact ⟨h, by simp⟩
    · next i _ p hp =>
      refine ⟨h.of_pend fun q hq => h.pend q ((List.eraseIdx_sublist ..).subset hq), fun o ho => ?_⟩
      split_ifs at ho
      · exact absurd ho (by simp)
      · obtain rfl := Option.some.inj ho
        exact h.pend p (List.mem_of_getElem? hp)

theorem processCommand (h : Within S a) (hd : dir ≠ .radio) (hc : S client) :
    Within S (a.processCommand dir client buf t) := by
  unfold Ascii.processCommand
  dsimp only
  have hadd : Within S (if buf.dropLast = [] then a else a.pendAdd buf (prefixOf buf.dropLast) (dir == .own) client t) := by
    split_ifs
    · exact h
    · exact h.pendAdd _ _ hc
  exact (hadd.of_noted (noted_applyFrame _ _)).emit fun hr => absurd hr hd

theorem processAnswer (h : Within S a) (h0 : S 0) : Within S (a.processAnswer buf t) := by
  have howner : ∀ o : Option (Bool × Nat), (∀ x ∈ o, S x.2) → S (o.getD (false, 0)).2 := by
    intro o ho
    cases o with
    | none => exact h0
    | some x => exact ho x rfl
  have htake : ∀ x, x = (if buf.dropLast = [] then (a, none) else a.pendTake (some (prefixOf buf.dropLast, buf)) t) →
      Within S x.1 ∧ ∀ o ∈ x.2, S o.2 := by
    rintro x rfl
    split_ifs
    · exact ⟨h, by simp⟩
    · exact h.pendTake _
  unfold Ascii.processAnswer
  dsimp only
  by_cases herr : buf.dropLast.length = 1 ∧
      (charAt buf.dropLast 0 = '?' ∨ charAt buf.dropLast 0 = 'E' ∨ charAt buf.dropLast 0 = 'O')
  · rw [if_pos herr]
    obtain ⟨ht, ho⟩ := h.pendTake (t := t) none
    exact ht.emit fun _ => howner _ ho
  · rw [if_neg herr]
    generalize hx : (if buf.dropLast = [] then (a, none) else a.pendTake (some (prefixOf buf.dropLast, buf)) t) = x
    obtain ⟨ht, ho⟩ := htake x hx.symm
    exact (ht.of_noted (noted_applyFrame _ _)).emit fun _ => howner _ ho

theorem processFrame (h : Within S a) (h0 : S 0) (hc : S client) : Within S (a.processFrame dir client buf t) := by
  have h1 : Within S (if a.st.vfoAb.valid then a else a.selectVfo false t) := by
    split_ifs
    · exact h
    · exact ⟨h.pend, h.out⟩
  unfold Ascii.processFrame
  dsimp only
  generalize (if a.st.vfoAb.valid then a else a.selectVfo false t) = b at h1 ⊢
  split_ifs with hd
  · exact h1.processAnswer h0
  · exact h1.processCommand hd hc

theorem rxByte (h : Within S a) (h0 : S 0) (hc : S client) (b : UInt8) : Within S (a.rxByte dir client src b t) := by
  unfold Ascii.rxByte
  dsimp only
  split_ifs
  · exact (h.processFrame h0 hc).setRx _ _
  · exact h.setRx _ _
  · exact (h.emit fun _ => hc).setRx _ _
  · exact h.setRx _ _

theorem feed (h : Within S a) (h0 : S 0) (hc : dir = .host → S client) (data : List UInt8) (t : Nat) :
    Within S (a.feed dir client data t) := by
  have hc' := sender_in h0 hc
  unfold Ascii.feed
  split
  · exact h
  · induction data generalizing a with
    | nil => exact h
    | cons b data ih => exact ih (h.rxByte h0 hc' b)

theorem clientDiscard (h : Within S a) (client : Nat) : Within S (a.clientDiscard client) := by
  unfold Ascii.clientDiscard
  dsimp only
  split_ifs
  · exact (h.setRx _ _).of_pend fun p hp => h.pend p (List.mem_filter.1 hp).1
  · exact h

end Within

end Ascii

end Mhuxd
