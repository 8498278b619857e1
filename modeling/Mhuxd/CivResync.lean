import Mhuxd.CivRuns

/-!
# The CI-V framer finds its way back

Whatever a framer has seen before, a preamble brings it to the start of a frame (`rxNext_preamble`), and
what follows up to the end mark is that frame.
-/

namespace Mhuxd

namespace Civ

variable {civ : Civ} {rx : CivRx} {dir : CatDir} {client t : Nat} {src : Src} {b : UInt8}

/-- Bytes that are fed, each at its time. -/
def feedAt (civ : Civ) (dir : CatDir) (client : Nat) (bs : List (UInt8 × Nat)) : Civ :=
  bs.foldl (fun civ x => civ.feed dir client [x.1] x.2) civ

/-- The framer behind the bytes. -/
def rxAfter (rx : CivRx) (bs : List (UInt8 × Nat)) : CivRx := bs.foldl (fun rx x => rxNext rx x.1 x.2) rx

/-- The frames that are complete with one of the bytes. -/
def framed (rx : CivRx) : List (UInt8 × Nat) → List (List UInt8)
  | [] => []
  | x :: bs => (completes rx x.1).toList ++ framed (rxNext rx x.1 x.2) bs

theorem framed_append (rx : CivRx) (as bs : List (UInt8 × Nat)) :
    framed rx (as ++ bs) = framed rx as ++ framed (rxAfter rx as) bs := by
  induction as generalizing rx with
  | nil => rfl
  | cons x as ih => rw [List.cons_append, framed, framed, ih, List.append_assoc]; rfl

/-- The start of a frame. -/
theorem rxNext_preamble (h : RxOk rx) (t t' : Nat) :
    (rxNext (rxNext rx CIV_PRE t) CIV_PRE t').state = .frame ∧
      (rxNext (rxNext rx CIV_PRE t) CIV_PRE t').buf = [CIV_PRE, CIV_PRE] := by
  have hcol : CIV_PRE ≠ CIV_COL := by decide
  have heom : CIV_PRE ≠ CIV_EOM := by decide
  have hnext : ∀ rx t, rx.state = .pre → (rxNext rx CIV_PRE t).state = .frame ∧
      (rxNext rx CIV_PRE t).buf = [CIV_PRE, CIV_PRE] := by
    intro rx t hs
    simp [rxNext, hcol, hs]
  have hstay : ∀ rx t, rx.state = .frame → rx.buf = [CIV_PRE, CIV_PRE] → (rxNext rx CIV_PRE t).state = .frame ∧
      (rxNext rx CIV_PRE t).buf = [CIV_PRE, CIV_PRE] := by
    intro rx t hs hbuf
    simp [rxNext, rxInside, hcol, hs, hbuf]
  rcases hs : rx.state with _ | _ | _ | _
  · exact hnext _ _ (by simp [rxNext, hcol, hs])
  · exact hstay _ _ (hnext rx t hs).1 (hnext rx t hs).2
  · obtain ⟨⟨body, hbuf, -⟩, -⟩ := h hs
    by_cases hlen : 2 < rx.buf.length
    · exact hnext _ _ (by simp [rxNext, rxInside, hcol, hs, hlen])
    · -- nothing but extra preamble bytes so far
      have hbody : body = [] := by
        rw [hbuf] at hlen
        simpa using hlen
      subst hbody
      obtain ⟨hs', hbuf'⟩ := hstay rx t hs hbuf
      exact hstay _ _ hs' hbuf'
  · exact hnext _ _ (by simp [rxNext, hcol, heom, hs])

theorem framed_preamble (rx : CivRx) (t t' : Nat) : framed rx [(CIV_PRE, t), (CIV_PRE, t')] = [] := by
  have hnone : ∀ rx, completes rx CIV_PRE = none := fun rx => if_neg fun h => absurd h.2.1 (by decide)
  simp [framed, hnone]

/-- Bytes of a frame that isn't too long are collected. -/
theorem rxAfter_body {body : List (UInt8 × Nat)} (hs : rx.state = .frame)
    (hlen : rx.buf.length + body.length < CIV_MAX_FRAME)
    (hbody : ∀ x ∈ body, x.1 ≠ CIV_COL ∧ x.1 ≠ CIV_EOM ∧ x.1 ≠ CIV_PRE) :
    (rxAfter rx body).state = .frame ∧ (rxAfter rx body).buf = rx.buf ++ body.map Prod.fst ∧
    framed rx body = [] := by
  induction body generalizing rx with
  | nil => exact ⟨hs, (List.append_nil _).symm, rfl⟩
  | cons x body ih =>
    obtain ⟨hcol, heom, hpre⟩ := hbody x List.mem_cons_self
    rw [List.length_cons] at hlen
    have hnext : rxNext rx x.1 x.2 = ⟨rx.buf ++ [x.1], .frame, x.2⟩ := by
      have hroom : rx.buf.length + 1 < CIV_MAX_FRAME := by omega
      simp [rxNext, rxInside, hcol, heom, hpre, hs, hroom]
    have hnone : completes rx x.1 = none := if_neg fun h => heom h.2.1
    obtain ⟨hstate, hbuf, hframed⟩ := @ih ⟨rx.buf ++ [x.1], .frame, x.2⟩ rfl
      (by rw [List.length_append, List.length_singleton]; omega) fun y hy => hbody y (List.mem_cons_of_mem _ hy)
    refine ⟨?_, ?_, ?_⟩
    · rw [rxAfter, List.foldl_cons, hnext]
      exact hstate
    · rw [rxAfter, List.foldl_cons, hnext]
      refine hbuf.trans ?_
      simp
    · rw [framed, hnone, hnext]
      exact hframed

/-- A byte of a known framer. -/
theorem feed_rx (hsrc : Src.of dir client = some src) : (civ.feed dir client [b] t).rx src =
    rxNext (civ.rx src) b t := by
  simp [feed, hsrc, rxByte_rx]

theorem feedAt_rx (hsrc : Src.of dir client = some src) (bs : List (UInt8 × Nat)) :
    (civ.feedAt dir client bs).rx src = rxAfter (civ.rx src) bs := by
  induction bs generalizing civ with
  | nil => rfl
  | cons x bs ih => exact (@ih (civ.feed dir client [x.1] x.2)).trans (by rw [feed_rx hsrc]; rfl)

/-- While no frame is complete nothing happens. -/
theorem inert_feedAt (hsrc : Src.of dir client = some src) {bs : List (UInt8 × Nat)} (h : framed (civ.rx src) bs = []) :
    Inert civ (civ.feedAt dir client bs) := by
  induction bs generalizing civ with
  | nil => exact .refl
  | cons x bs ih =>
    rw [framed, List.append_eq_nil_iff, Option.toList_eq_nil_iff] at h
    have hbyte : Inert civ (civ.feed dir client [x.1] x.2) := by
      unfold feed
      rw [hsrc]
      rcases civ.rxByte_cases dir (if dir = .host then client else 0) src x.1 x.2 with ⟨f, hf, -⟩ | ⟨-, hinert, -⟩
      · rw [h.1] at hf
        exact nomatch hf
      · exact hinert
    exact hbyte.trans (ih (by rw [feed_rx hsrc]; exact h.2))

end Civ

namespace CivRun

open Civ

/-- A preamble, a body of 3 to 61 bytes and the end mark are processed as that frame and no other, whatever
came before. -/
theorem civ_resync (radioAddr : UInt8) (freqLen : Nat) (st : CatState) (evs : List CivEv) (dir : CatDir)
    (client : Nat)
    (src : Src) (hsrc : Src.of dir client = some src) (frame : List (UInt8 × Nat)) (body : List UInt8)
    (hframe : frame.map Prod.fst = [CIV_PRE, CIV_PRE] ++ body ++ [CIV_EOM]) (hmin : 3 ≤ body.length)
    (hmax : body.length ≤ 61)
    (hbody : ∀ b ∈ body, b ≠ CIV_COL ∧ b ≠ CIV_EOM ∧ b ≠ CIV_PRE) :
    framed ((runs radioAddr freqLen st evs).civ.rx src) frame = [frame.map Prod.fst] ∧
      ∃ civ t, Inert (runs radioAddr freqLen st evs).civ civ ∧
        (runs radioAddr freqLen st evs).civ.feedAt dir client frame =
          civ.rxDone dir (clientOf dir client) src (frame.map Prod.fst) t := by
  have hok : FramersOk (runs radioAddr freqLen st evs) := by
    refine Run.run_inv (fun _ e h => h.step e) (fun _ hs => ?_) evs
    cases hs
  obtain ⟨start, last, rfl, hstart, hlast⟩ := List.map_eq_append_iff.1 hframe
  obtain ⟨pre, bs, rfl, hpre, hbs⟩ := List.map_eq_append_iff.1 hstart
  obtain ⟨x, rfl, hx⟩ := List.map_eq_singleton_iff.1 hlast
  obtain ⟨⟨_, t⟩, pre, rfl, rfl, hsecond⟩ := List.map_eq_cons_iff.1 hpre
  obtain ⟨⟨_, t'⟩, rfl, rfl⟩ := List.map_eq_singleton_iff.1 hsecond
  generalize hrx : (runs radioAddr freqLen st evs).civ.rx src = rx
  have hrxok : RxOk rx := hrx ▸ hok src
  -- the preamble and the body
  obtain ⟨hstate, hbuf⟩ := rxNext_preamble hrxok t t'
  have hbody' : ∀ x ∈ bs, x.1 ≠ CIV_COL ∧ x.1 ≠ CIV_EOM ∧ x.1 ≠ CIV_PRE := by
    intro x hx
    refine hbody x.1 ?_
    rw [← hbs]
    exact List.mem_map_of_mem hx
  have hlen : bs.length = body.length := by rw [← hbs, List.length_map]
  obtain ⟨hstate', hbuf', hframed⟩ := rxAfter_body hstate
    (by rw [hbuf, hlen]; simp only [List.length_cons, List.length_nil, CIV_MAX_FRAME]; omega) hbody'
  have hquiet : framed rx ([(CIV_PRE, t), (CIV_PRE, t')] ++ bs) = [] := by
    rw [framed_append, framed_preamble]
    exact hframed
  have hafter : (rxAfter rx ([(CIV_PRE, t), (CIV_PRE, t')] ++ bs)).state = .frame ∧
      (rxAfter rx ([(CIV_PRE, t), (CIV_PRE, t')] ++ bs)).buf = [CIV_PRE, CIV_PRE] ++ body := by
    have h : rxAfter rx ([(CIV_PRE, t), (CIV_PRE, t')] ++ bs) =
      rxAfter (rxNext (rxNext rx CIV_PRE t) CIV_PRE t') bs := rfl
    rw [h]
    exact ⟨hstate', by rw [hbuf', hbuf, hbs]⟩
  -- the end mark
  have hcomp : completes (rxAfter rx ([(CIV_PRE, t), (CIV_PRE, t')] ++ bs)) x.1 =
      some ([CIV_PRE, CIV_PRE] ++ body ++ [CIV_EOM]) := by
    have hmin' : CIV_MIN_LEN ≤ ([CIV_PRE, CIV_PRE] ++ body).length + 1 := by
      simp only [List.length_append, List.length_cons, List.length_nil, CIV_MIN_LEN]
      omega
    rw [completes, hafter.1, hafter.2, if_pos ⟨rfl, hx, hmin'⟩, hx]
  refine ⟨?_, (((runs radioAddr freqLen st evs).civ.feedAt dir client ([(CIV_PRE, t), (CIV_PRE, t')] ++ bs)).setRx src
    { rxAfter rx ([(CIV_PRE, t), (CIV_PRE, t')] ++ bs) with tMs := x.2 }), x.2, ?_, ?_⟩
  · rw [framed_append, hquiet, hframe, List.nil_append, framed, hcomp]
    rfl
  · exact (inert_feedAt hsrc (hrx ▸ hquiet)).trans (.setRx _ _)
  · have hfeed : ∀ civ : Civ, civ.rx src = rxAfter rx ([(CIV_PRE, t), (CIV_PRE, t')] ++ bs) →
        civ.feed dir client [x.1] x.2 = (civ.setRx src { rxAfter rx ([(CIV_PRE, t), (CIV_PRE, t')] ++ bs) with tMs := x.2 }).rxDone
          dir (clientOf dir client) src ([CIV_PRE, CIV_PRE] ++ body ++ [CIV_EOM]) x.2 := by
      intro civ hciv
      unfold Civ.feed
      rw [hsrc]
      rcases civ.rxByte_cases dir (if dir = .host then client else 0) src x.1 x.2 with ⟨f, hf, heq⟩ | ⟨hf, -, -⟩
      · rw [hciv, hcomp] at hf
        obtain rfl := Option.some.inj hf
        rw [← hciv]
        exact heq
      · rw [hciv, hcomp] at hf
        cases hf
    rw [hframe]
    refine Eq.trans ?_ (hfeed _ (by rw [feedAt_rx hsrc, hrx]))
    unfold feedAt
    rw [List.foldl_append]
    rfl

/-- Behind a frame that another one cuts off. -/
theorem civ_resync_cut :
    framed ((runs 0x94 5 .init ([0xfe, 0xfe, 0xe0, 0x94, 0x03].map (.feed 0 .radio 0))).civ.rx .radio)
        ([0xfe, 0xfe, 0xe0, 0x94, 0xfb, 0xfd].map fun b => (b, 10)) = [[0xfe, 0xfe, 0xe0, 0x94, 0xfb, 0xfd]] :=
  (civ_resync 0x94 5 .init ([0xfe, 0xfe, 0xe0, 0x94, 0x03].map (.feed 0 .radio 0)) .radio 0 .radio rfl
    ([0xfe, 0xfe, 0xe0, 0x94, 0xfb, 0xfd].map fun b => (b, 10)) [0xe0, 0x94, 0xfb] rfl (by decide) (by decide)
    (by decide +kernel)).1

end CivRun

end Mhuxd
