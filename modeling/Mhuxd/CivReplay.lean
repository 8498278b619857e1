import Mhuxd.CivFrames
import Mhuxd.Lib.Run
import Mhuxd.Lib.Replay

/-!
# Replaying a CI-V trace

The trace has neither the noise between the frames nor the extra bytes of a preamble, so the framers of
the decoder and of a fresh one that is fed with it come apart (`Beside`). But every frame of the trace starts
with a preamble or is the jam code, and either brings a framer back (`Ready`).
-/

namespace Mhuxd

namespace Civ

variable {civ r z : Civ} {dir : CatDir} {client t : Nat} {src : Src} {b : UInt8} {f a : List UInt8}
  {rx : Src → CivRx} {o : List Emit} {e : Emit}

def feedAll (civ : Civ) (fs : List Feed) : Civ := Run.run (fun civ f => civ.feed f.dir f.client f.buf f.tMs) civ fs

/-- A frame of a trace. -/
def refeed (r : Civ) (e : Emit) : Civ := r.feed e.frame.dir e.frame.client e.frame.buf e.frame.tMs

/-- The frames other than those that were cut off. -/
def shown (es : List Emit) : List Emit := es.filter fun e => e.frame.kind != .dropped

theorem shown_append (es es' : List Emit) : shown (es ++ es') = shown es ++ shown es' := List.filter_append ..

theorem shown_dropped {es : List Emit} (h : ∀ e ∈ es, e.frame.kind = .dropped) : shown es = [] := by
  unfold shown
  rw [List.filter_eq_nil_iff]
  intro e he hne
  rw [h e he] at hne
  exact absurd hne (by decide)

/-! ### What a frame does, whatever the framers -/

/-- `civ` with other framers and other frames given. -/
def aside (civ : Civ) (rx : Src → CivRx) (o : List Emit) : Civ := { civ with rx := rx, out := o }

/-- The frame given for a frame of a source. -/
structure Judgement (dir : CatDir) (client : Nat) (f : List UInt8) (t : Nat) (e : Emit) : Prop where
  client : dir ≠ .radio → e.frame.client = client
  dir : e.frame.dir = dir
  buf : e.frame.buf = f
  tMs : e.frame.tMs = t
  kind : e.frame.kind ≠ .dropped

/-- `civ'` is `civ` after a frame is judged, and the framers have no part in it. -/
def Judges (dir : CatDir) (client : Nat) (f : List UInt8) (t : Nat) (g : Civ → Civ) (civ : Civ) : Prop :=
  ∃ e, Judgement dir client f t e ∧ (g civ).out = civ.out ++ [e] ∧
  ∀ rx o, g (civ.aside rx o) = (g civ).aside rx (o ++ [e])

theorem judges_emit (civ : Civ) {kind : FrameKind} (hk : kind ≠ .dropped) (own : Bool) :
    Judges dir client f t (fun civ => civ.emit kind dir f false own client t) civ :=
  ⟨_, ⟨fun _ => rfl, rfl, rfl, rfl, hk⟩, rfl, fun _ _ => rfl⟩

theorem judges_broadcast (civ : Civ) : Judges .radio client f t (fun civ => civ.processBroadcast f t) civ :=
  ⟨_, ⟨fun h => absurd rfl h, rfl, rfl, rfl, kindOr_ne (by decide) (by decide)⟩, rfl, fun _ _ => rfl⟩

theorem judges_ack (civ : Civ) : Judges .radio client f t (fun civ => civ.processAck f t) civ := by
  have hkind : (if fCmd f == CIV_OK then FrameKind.ack else .nak) ≠ .dropped := by
    split_ifs <;> decide
  cases hfind : civ.pendFindAck (fTo f) (fCmd f == CIV_OK) with
  | none =>
    have h : ∀ rx o, (civ.aside rx o).pendFindAck (fTo f) (fCmd f == CIV_OK) = none := fun _ _ => hfind
    unfold Judges processAck
    simp only [hfind, h]
    exact ⟨_, ⟨fun h => absurd rfl h, rfl, rfl, rfl, hkind⟩, rfl, fun _ _ => rfl⟩
  | some i =>
    obtain ⟨p, hp⟩ := find_some hfind
    have h : ∀ rx o, (civ.aside rx o).pendFindAck (fTo f) (fCmd f == CIV_OK) = some i := fun _ _ => hfind
    have h' : ∀ rx o, (civ.aside rx o).pend[i]? = some p := fun _ _ => hp
    unfold Judges processAck
    simp only [hfind, hp, h, h']
    exact ⟨_, ⟨fun h => absurd rfl h, rfl, rfl, rfl, hkind⟩, rfl, fun _ _ => rfl⟩

theorem judges_reply (civ : Civ) : Judges .radio client f t (fun civ => civ.processReply f t) civ := by
  cases hfind : civ.pendFindQuery f with
  | none =>
    have h : ∀ rx o, (civ.aside rx o).pendFindQuery f = none := fun _ _ => hfind
    unfold Judges processReply
    simp only [hfind, h]
    exact ⟨_, ⟨fun h => absurd rfl h, rfl, rfl, rfl, by simp⟩, rfl, fun _ _ => rfl⟩
  | some i =>
    obtain ⟨p, hp⟩ := find_some hfind
    have h : ∀ rx o, (civ.aside rx o).pendFindQuery f = some i := fun _ _ => hfind
    have h' : ∀ rx o, (civ.aside rx o).pend[i]? = some p := fun _ _ => hp
    unfold Judges processReply
    simp only [hfind, hp, h, h']
    exact ⟨_, ⟨fun h => absurd rfl h, rfl, rfl, rfl, kindOr_ne (by decide) (by decide)⟩, rfl, fun _ _ => rfl⟩

theorem judges_echo (civ : Civ) : Judges .radio client f t (fun civ => civ.processEcho f t) civ := by
  cases hfind : civ.pendFindEcho f with
  | none =>
    have h : ∀ rx o, (civ.aside rx o).pendFindEcho f = none := fun _ _ => hfind
    unfold Judges processEcho
    simp only [hfind, h]
    exact ⟨_, ⟨fun h => absurd rfl h, rfl, rfl, rfl, by simp⟩, rfl, fun _ _ => rfl⟩
  | some i =>
    obtain ⟨p, hp⟩ := find_some hfind
    have h : ∀ rx o, (civ.aside rx o).pendFindEcho f = some i := fun _ _ => hfind
    have h' : ∀ rx o, (civ.aside rx o).pend[i]? = some p := fun _ _ => hp
    unfold Judges processEcho
    simp only [hfind, hp, h, h']
    exact ⟨_, ⟨fun h => absurd rfl h, rfl, rfl, rfl, by simp⟩, rfl, fun _ _ => rfl⟩

theorem judges_settle (civ : Civ) : Judges dir client f t (fun civ => civ.settle dir client f t) civ := by
  have hra : ∀ rx o, (civ.aside rx o).radioAddr = civ.radioAddr := fun _ _ => rfl
  unfold Judges settle
  simp only [hra]
  split_ifs with h0 hd hto
  · exact judges_emit civ (by decide) _
  · subst hd
    unfold processRadioFrame
    simp only [hra]
    split_ifs
    · exact judges_broadcast civ
    · exact judges_ack civ
    · exact judges_reply civ
    · exact judges_echo civ
    · exact ⟨_, ⟨fun h => absurd rfl h, rfl, rfl, rfl, by simp⟩, rfl, fun _ _ => rfl⟩
  · exact ⟨_, ⟨fun _ => rfl, rfl, rfl, rfl, by simp⟩, rfl, fun _ _ => rfl⟩
  · exact judges_emit civ (by decide) _

theorem judged_out (civ : Civ) : (civ.judged dir f t).out = civ.out := by
  unfold judged learnAddr
  dsimp only
  split_ifs <;> rfl

theorem judged_aside (civ : Civ) (rx : Src → CivRx) (o : List Emit) :
    (civ.aside rx o).judged dir f t = (civ.judged dir f t).aside rx o := by
  have hra : ((civ.aside rx o).pendExpire t).radioAddr = (civ.pendExpire t).radioAddr := rfl
  have hlast : ((civ.aside rx o).pendExpire t).last = (civ.pendExpire t).last := rfl
  unfold judged learnAddr
  dsimp only
  rw [hra, hlast]
  split_ifs <;> rfl

theorem judges_frame (civ : Civ) : Judges dir client f t (fun civ => civ.processFrame dir client f t) civ := by
  obtain ⟨e, he, hout, haside⟩ := judges_settle (f := f) (t := t) (civ.judged dir f t)
  refine ⟨e, he, ?_, ?_⟩
  · rw [judged_out] at hout
    exact hout
  · intro rx o
    dsimp only at haside ⊢
    rw [processFrame_eq, judged_aside, haside, processFrame_eq]
    rfl

/-! ### What a byte does -/

/-- The frame given for one that is cut off. -/
def cutOff (civ : Civ) (dir : CatDir) (client : Nat) (src : Src) (t : Nat) : List Emit :=
  if 2 < (civ.rx src).buf.length then
    [⟨⟨.dropped, dir, t, (civ.rx src).buf, false, dir == .own, client⟩, civ.lost⟩]
  else []

theorem rxDrop_eq (civ : Civ) (dir : CatDir) (client : Nat) (src : Src) (t : Nat) : civ.rxDrop dir client src t =
    civ.aside (Function.update civ.rx src { civ.rx src with buf := [] })
    (civ.out ++ civ.cutOff dir client src t) := by
  unfold rxDrop cutOff
  dsimp only
  split_ifs
  · rfl
  · rw [List.append_nil]
    rfl

/-- A byte that neither completes a frame nor jams. -/
theorem rxByte_quiet (civ : Civ) (dir : CatDir) (client t : Nat) (hcol : b ≠ CIV_COL)
    (h : completes (civ.rx src) b = none) :
    ∃ ds, (ds = [] ∨ ds = civ.cutOff dir client src t) ∧ civ.rxByte dir client src b t =
      civ.aside (Function.update civ.rx src (rxNext (civ.rx src) b t)) (civ.out ++ ds) := by
  obtain ⟨noted, hnoted⟩ : ∃ c, c = civ.setRx src { civ.rx src with tMs := t } := ⟨_, rfl⟩
  have hrx : noted.rx src = { civ.rx src with tMs := t } := by
    rw [hnoted]
    exact Function.update_self ..
  have hset : ∀ rx, ∃ ds, (ds = [] ∨ ds = civ.cutOff dir client src t) ∧
      noted.setRx src rx = civ.aside (Function.update civ.rx src rx) (civ.out ++ ds) := by
    intro rx
    refine ⟨[], .inl rfl, ?_⟩
    rw [hnoted, List.append_nil]
    unfold setRx aside
    dsimp only
    rw [Function.update_idem]
  have hself : ∀ state, ∃ ds, (ds = [] ∨ ds = civ.cutOff dir client src t) ∧
      noted.rxState src state = civ.aside (Function.update civ.rx src ⟨(civ.rx src).buf, state, t⟩)
      (civ.out ++ ds) := by
    intro state
    unfold rxState
    rw [hrx]
    exact hset _
  have hdrop : ∀ state, ∃ ds, (ds = [] ∨ ds = civ.cutOff dir client src t) ∧
      (noted.rxDrop dir client src t).rxState src state =
        civ.aside (Function.update civ.rx src ⟨[], state, t⟩) (civ.out ++ ds) := by
    intro state
    have hcut : noted.cutOff dir client src t = civ.cutOff dir client src t := by
      unfold cutOff
      rw [hrx, hnoted]
      rfl
    refine ⟨_, .inr rfl, ?_⟩
    rw [rxDrop_eq, hcut, hrx, hnoted]
    unfold rxState setRx aside
    simp
  have hstay : ∃ ds, (ds = [] ∨ ds = civ.cutOff dir client src t) ∧
      noted = civ.aside (Function.update civ.rx src ⟨(civ.rx src).buf, (civ.rx src).state, t⟩)
      (civ.out ++ ds) := by
    refine ⟨[], .inl rfl, ?_⟩
    rw [hnoted, List.append_nil]
    rfl
  unfold rxByte rxNext
  dsimp only
  rw [← hnoted, if_neg hcol, if_neg hcol]
  rcases hs : (civ.rx src).state with _ | _ | _ | _
  · simp only [hrx, hs]
    split_ifs
    · exact hself .pre
    · exact hs ▸ hstay
  · simp only [hrx, hs]
    split_ifs
    · exact hset _
    · exact hself .idle
  · simp only [hrx, hs]
    unfold rxFrame rxInside
    simp only [hrx, hs]
    split_ifs with hpre hlen heom hmin hmax
    · exact hdrop .pre
    · exact hs ▸ hstay
    · unfold completes at h
      rw [if_pos ⟨hs, heom, hmin⟩] at h
      exact absurd h (Option.some_ne_none _)
    · exact hdrop .idle
    · exact hset _
    · exact hdrop .skip
  · simp only [hrx, hs]
    split_ifs
    · exact hself .idle
    · exact hself .pre
    · exact hs ▸ hstay

/-- The decoder after the jam code is seen, but for the framer. -/
def jammed (civ : Civ) (dir : CatDir) (t : Nat) : Civ := if dir = .radio then civ.markLost t else civ

theorem rxByte_jam (civ : Civ) (dir : CatDir) (client : Nat) (src : Src) (t : Nat) :
    civ.rxByte dir client src CIV_COL t =
    (civ.jammed dir t).aside (Function.update civ.rx src ⟨[], .idle, t⟩)
      (civ.out ++ (civ.jammed dir t).cutOff dir client src t ++
        [⟨⟨.jam, dir, t, [CIV_COL], false, dir == .own, client⟩, (civ.jammed dir t).lost⟩]) := by
  have hjam : (if dir = .radio then (civ.setRx src { civ.rx src with tMs := t }).markLost t
      else civ.setRx src { civ.rx src with tMs := t }) =
      (civ.jammed dir t).setRx src { civ.rx src with tMs := t } := by
    unfold jammed
    split_ifs <;> rfl
  have hrx : (civ.jammed dir t).rx = civ.rx := by
    unfold jammed
    split_ifs <;> rfl
  have hout : (civ.jammed dir t).out = civ.out := by
    unfold jammed
    split_ifs <;> rfl
  unfold rxByte
  dsimp only
  rw [if_pos rfl]
  unfold rxJam
  dsimp only
  rw [hjam, rxDrop_eq]
  generalize civ.jammed dir t = m at hrx hout ⊢
  have hcut : (m.setRx src { civ.rx src with tMs := t }).cutOff dir client src t = m.cutOff dir client src t := by
    unfold cutOff
    rw [setRx_rx, Function.update_self, hrx]
    rfl
  rw [hcut, ← hout]
  unfold rxState setRx aside emit
  simp [hrx]
  rfl

/-! ### Framers -/

/-- What is in a framer. -/
structure Framer (rx : CivRx) : Prop where
  frame : RxOk rx
  empty : rx.state ≠ .frame → rx.buf = []

theorem Framer.next {rx : CivRx} (h : Framer rx) (b : UInt8) (t : Nat) : Framer (rxNext rx b t) := by
  refine ⟨h.frame.next, ?_⟩
  obtain ⟨-, hempty⟩ := h
  unfold rxNext
  by_cases hcol : b = CIV_COL
  · rw [if_pos hcol]
    exact fun _ => rfl
  · rw [if_neg hcol]
    cases hs : rx.state with
    | idle => exact fun _ => hempty (by simp [hs])
    | pre =>
      dsimp only
      split_ifs
      · exact fun hne => absurd rfl hne
      · exact fun _ => hempty (by simp [hs])
    | frame =>
      dsimp only
      unfold rxInside
      split_ifs
      · exact fun _ => rfl
      · exact fun hne => absurd rfl hne
      · exact fun _ => rfl
      · exact fun hne => absurd rfl hne
      · exact fun _ => rfl
    | skip => exact fun _ => hempty (by simp [hs])

/-- A preamble brings the framer into a frame. -/
def Ready (rx : CivRx) : Prop := rx.state = .idle ∨ rx.state = .frame ∧ 2 < rx.buf.length

/-- A preamble and what may come inside a frame. -/
structure Opening (a : List UInt8) : Prop where
  shape : ∃ body, a = [CIV_PRE, CIV_PRE] ++ body ∧ ∀ x ∈ body, x ≠ CIV_PRE ∧ x ≠ CIV_EOM ∧ x ≠ CIV_COL
  short : a.length < CIV_MAX_FRAME

theorem rxNext_body {body : List UInt8} (hbody : ∀ x ∈ body, x ≠ CIV_PRE ∧ x ≠ CIV_EOM ∧ x ≠ CIV_COL)
    (hlen : a.length + body.length < CIV_MAX_FRAME) :
    body.foldl (fun rx b => rxNext rx b t) ⟨a, .frame, t⟩ = ⟨a ++ body, .frame, t⟩ := by
  induction body generalizing a with
  | nil => rw [List.append_nil, List.foldl_nil]
  | cons b body ih =>
    obtain ⟨hpre, heom, hcol⟩ := hbody b List.mem_cons_self
    rw [List.length_cons] at hlen
    have hmax : a.length + 1 < CIV_MAX_FRAME := by omega
    have hstep : rxNext ⟨a, .frame, t⟩ b t = ⟨a ++ [b], .frame, t⟩ := by
      unfold rxNext rxInside
      rw [if_neg hcol]
      dsimp only
      rw [if_neg hpre, if_neg heom, if_pos hmax]
    rw [List.foldl_cons, hstep, ih (fun x hx => hbody x (List.mem_cons_of_mem _ hx)), List.append_assoc]
    · rfl
    · rw [List.length_append, List.length_singleton]
      omega

theorem Opening.rxNext (h : Opening a) {rx : CivRx} (hrx : Ready rx) :
    a.foldl (fun rx b => Civ.rxNext rx b t) rx = ⟨a, .frame, t⟩ := by
  obtain ⟨⟨body, rfl, hbody⟩, hlen⟩ := h
  have hcol : ¬CIV_PRE = CIV_COL := by decide
  have hpre : ∃ buf, Civ.rxNext rx CIV_PRE t = ⟨buf, .pre, t⟩ := by
    unfold Civ.rxNext rxInside
    rw [if_neg hcol]
    rcases hrx with hs | ⟨hs, h2⟩
    · rw [hs]
      exact ⟨_, rfl⟩
    · rw [hs]
      dsimp only
      rw [if_pos rfl, if_pos h2]
      exact ⟨_, rfl⟩
  obtain ⟨buf, hpre⟩ := hpre
  have hopen : Civ.rxNext ⟨buf, .pre, t⟩ CIV_PRE t = ⟨[CIV_PRE, CIV_PRE], .frame, t⟩ := by
    unfold Civ.rxNext
    rw [if_neg hcol]
    exact if_pos rfl
  rw [List.foldl_append, List.foldl_cons, List.foldl_cons, List.foldl_nil, hpre, hopen]
  refine rxNext_body hbody ?_
  rw [List.length_append] at hlen
  exact hlen

theorem Opening.not_mem (h : Opening a) : ∀ x ∈ a, x ≠ CIV_EOM ∧ x ≠ CIV_COL := by
  obtain ⟨⟨body, rfl, hbody⟩, -⟩ := h
  intro x hx
  rcases List.mem_append.1 hx with hx | hx
  · have : x = CIV_PRE := by simpa using hx
    rw [this]
    decide
  · exact (hbody x hx).2

theorem Framer.opening {rx : CivRx} (h : Framer rx) (h2 : 2 < rx.buf.length) :
    rx.state = .frame ∧ Opening rx.buf := by
  have hs : rx.state = .frame := by
    by_contra hne
    rw [h.empty hne] at h2
    exact absurd h2 (by decide)
  obtain ⟨hshape, hlen⟩ := h.frame hs
  exact ⟨hs, hshape, hlen⟩

/-! ### The decoder and the one that is fed with its trace -/

/-- The two differ in what's between the frames only, and a preamble brings the framers of the second one back. -/
def Beside (civ r : Civ) : Prop := ∃ rx o, r = civ.aside rx o ∧ shown o = shown civ.out ∧ ∀ src, Ready (rx src)

theorem ready_update {x : CivRx} (hx : Ready x) (hrx : ∀ src, Ready (rx src)) (src : Src) :
    ∀ s, Ready (Function.update rx src x s) := by
  intro s
  by_cases hs : s = src
  · rw [hs, Function.update_self]
    exact hx
  · rw [Function.update_of_ne hs]
    exact hrx s

theorem feed_of (hsrc : Src.of dir client = some src) (civ : Civ) (buf : List UInt8) (t : Nat) :
    civ.feed dir client buf t =
      buf.foldl (fun civ b => civ.rxByte dir (if dir = .host then client else 0) src b t) civ := by
  unfold feed
  rw [hsrc]

/-- A frame is fed to the framer it came from. -/
theorem refeed_bytes (hsrc : Src.of dir client = some src) (hdir : e.frame.dir = dir)
    (hclient : dir ≠ .radio → e.frame.client = if dir = .host then client else 0) (r : Civ) :
    refeed r e = e.frame.buf.foldl
      (fun civ b => civ.rxByte dir (if dir = .host then client else 0) src b e.frame.tMs) r := by
  unfold refeed
  rw [hdir]
  cases dir with
  | host =>
    rw [hclient (by decide)]
    exact feed_of hsrc r _ _
  | own => exact feed_of hsrc r _ _
  | radio => exact feed_of hsrc r _ _

theorem completes_ne {rx : CivRx} (h : b ≠ CIV_EOM) : completes rx b = none := if_neg fun hc => h hc.2.1

theorem cutOff_dropped (civ : Civ) (dir : CatDir) (client : Nat) (src : Src) (t : Nat) :
    ∀ d ∈ civ.cutOff dir client src t, d.frame.kind = .dropped := by
  intro d hd
  unfold cutOff at hd
  split_ifs at hd
  · rw [List.mem_singleton.1 hd]
  · exact absurd hd List.not_mem_nil

theorem rxBytes_quiet {bs : List UInt8} (h : ∀ x ∈ bs, x ≠ CIV_EOM ∧ x ≠ CIV_COL) (z : Civ) (dir : CatDir)
    (client : Nat)
    (src : Src) (t : Nat) : ∃ ds, (∀ d ∈ ds, d.frame.kind = .dropped) ∧
      bs.foldl (fun civ b => civ.rxByte dir client src b t) z =
        z.aside (Function.update z.rx src (bs.foldl (fun rx b => rxNext rx b t) (z.rx src))) (z.out ++ ds) := by
  induction bs generalizing z with
  | nil =>
    refine ⟨[], fun d hd => absurd hd List.not_mem_nil, ?_⟩
    rw [List.append_nil, List.foldl_nil, List.foldl_nil, Function.update_eq_self]
    rfl
  | cons b bs ih =>
    obtain ⟨heom, hcol⟩ := h b List.mem_cons_self
    obtain ⟨ds, hds, hstep⟩ := z.rxByte_quiet dir client t hcol (completes_ne heom)
    obtain ⟨ds', hds', hrest⟩ := ih (fun x hx => h x (List.mem_cons_of_mem _ hx))
      (z.aside (Function.update z.rx src (rxNext (z.rx src) b t)) (z.out ++ ds))
    refine ⟨ds ++ ds', ?_, ?_⟩
    · intro d hd
      rcases List.mem_append.1 hd with hd | hd
      · rcases hds with rfl | rfl
        · exact absurd hd List.not_mem_nil
        · exact cutOff_dropped z dir client src t d hd
      · exact hds' d hd
    · rw [List.foldl_cons, hstep, hrest]
      unfold aside
      simp

/-- The start of a frame leaves the second decoder inside of it. -/
theorem opening_fed (h : Opening a) (hready : Ready (rx src)) (civ : Civ) (o : List Emit) (dir : CatDir)
    (client t : Nat) :
    ∃ ds, (∀ d ∈ ds, d.frame.kind = .dropped) ∧ a.foldl (fun civ b => civ.rxByte dir client src b t)
    (civ.aside rx o) =
      civ.aside (Function.update rx src ⟨a, .frame, t⟩) (o ++ ds) := by
  obtain ⟨ds, hds, heq⟩ := rxBytes_quiet h.not_mem (civ.aside rx o) dir client src t
  refine ⟨ds, hds, ?_⟩
  rw [heq, show (civ.aside rx o).rx = rx from rfl, h.rxNext hready]
  rfl

theorem shown_cut {es ds : List Emit} (h : ∀ d ∈ ds, d.frame.kind = .dropped) : shown (es ++ ds) = shown es := by
  rw [shown_append, shown_dropped h, List.append_nil]

/-- A frame that is cut off; `m` may have other marks. -/
theorem Beside.cut {m : Civ} (h : Beside civ r) (hsrc : Src.of dir client = some src)
    (hframer : Framer (civ.rx src))
    (hm : m.rx = civ.rx) (t : Nat) :
    Beside civ (Replay.replay refeed r (m.cutOff dir (if dir = .host then client else 0) src t)) := by
  obtain ⟨rx, o, rfl, ho, hready⟩ := h
  unfold cutOff
  rw [hm]
  by_cases h2 : 2 < (civ.rx src).buf.length
  · obtain ⟨-, hopen⟩ := hframer.opening h2
    obtain ⟨ds, hds, heq⟩ := opening_fed hopen (hready src) civ o dir (if dir = .host then client else 0) t
    rw [if_pos h2, Replay.replay_cons, Replay.replay_nil, refeed_bytes hsrc rfl fun _ => rfl]
    dsimp only
    rw [heq]
    exact ⟨_, _, rfl, by rw [shown_cut hds, ho],
      ready_update (x := ⟨(civ.rx src).buf, .frame, t⟩) (.inr ⟨rfl, h2⟩) hready src⟩
  · rw [if_neg h2]
    exact ⟨rx, o, rfl, ho, hready⟩

/-- The framers and the frames given so far are the decoder's own. -/
theorem Beside.of_aside (h : Beside civ r) {rx : Src → CivRx} {o : List Emit} (ho : shown o = shown civ.out) :
    Beside (civ.aside rx o) r := by
  obtain ⟨rx', o', rfl, ho', hready⟩ := h
  exact ⟨rx', o', rfl, by rw [ho', ← ho]; rfl, hready⟩

/-- A step: what it gives leads the second decoder along. -/
def Leads (civ civ' : Civ) : Prop :=
  ∃ ws, civ'.out = civ.out ++ ws ∧ ∀ r, Beside civ r → Beside civ' (Replay.replay refeed r ws)

theorem leads_quiet (hsrc : Src.of dir client = some src) (hframer : Framer (civ.rx src)) (hcol : b ≠ CIV_COL)
    (hnone : completes (civ.rx src) b = none) (t : Nat) :
    Leads civ (civ.rxByte dir (if dir = .host then client else 0) src b t) := by
  obtain ⟨ds, hds, heq⟩ := civ.rxByte_quiet dir (if dir = .host then client else 0) t hcol hnone
  rw [heq]
  refine ⟨ds, rfl, fun r hr => ?_⟩
  have hfed : Beside civ (Replay.replay refeed r ds) ∧ shown (civ.out ++ ds) = shown civ.out := by
    rcases hds with rfl | rfl
    · exact ⟨hr, by rw [List.append_nil]⟩
    · exact ⟨hr.cut hsrc hframer rfl t, shown_cut (civ.cutOff_dropped dir _ src t)⟩
  exact hfed.1.of_aside hfed.2

theorem leads_jam (hsrc : Src.of dir client = some src) (hframer : Framer (civ.rx src)) (t : Nat) :
    Leads civ (civ.rxByte dir (if dir = .host then client else 0) src CIV_COL t) := by
  have hrx : (civ.jammed dir t).rx = civ.rx := by
    unfold jammed
    split_ifs <;> rfl
  have haside : ∀ rx o, (civ.aside rx o).jammed dir t = (civ.jammed dir t).aside rx o := by
    intro rx o
    unfold jammed
    split_ifs <;> rfl
  rw [rxByte_jam]
  refine ⟨_, List.append_assoc .., fun r hr => ?_⟩
  obtain ⟨rx, o, hfed, ho, hready⟩ := hr.cut hsrc hframer hrx t
  rw [Replay.replay_append, hfed, Replay.replay_cons, Replay.replay_nil, refeed_bytes hsrc rfl fun _ => rfl]
  dsimp only
  rw [List.foldl_cons, List.foldl_nil, rxByte_jam, haside]
  refine ⟨_, _, rfl, ?_, ready_update (.inl rfl) hready src⟩
  show shown (o ++ _ ++ _) = shown (civ.out ++ _ ++ _)
  rw [shown_append, shown_append (_ ++ _), shown_cut (cutOff_dropped _ _ _ _ _),
    shown_cut (cutOff_dropped _ _ _ _ _), ho]
  rfl

theorem leads_frame (hsrc : Src.of dir client = some src) (hframer : Framer (civ.rx src))
    (h : completes (civ.rx src) b = some f)
    (t : Nat) : Leads civ (civ.rxByte dir (if dir = .host then client else 0) src b t) := by
  obtain ⟨hs, rfl, hlen⟩ : (civ.rx src).state = .frame ∧ b = CIV_EOM ∧
    CIV_MIN_LEN ≤ (civ.rx src).buf.length + 1 := by
    unfold completes at h
    split_ifs at h with hc
    exact hc
  have hf : f = (civ.rx src).buf ++ [CIV_EOM] := by
    unfold completes at h
    rw [if_pos ⟨hs, rfl, hlen⟩] at h
    exact (Option.some.inj h).symm
  have hopen : Opening (civ.rx src).buf := by
    obtain ⟨hshape, hshort⟩ := hframer.frame hs
    exact ⟨hshape, hshort⟩
  obtain ⟨e, he, hout, hjudge⟩ := judges_frame (f := f) (t := t) civ
  have hdone : ∀ (rx : Src → CivRx) (o : List Emit), (rx src).state = .frame → (rx src).buf = (civ.rx src).buf →
      (civ.aside rx o).rxByte dir (if dir = .host then client else 0) src CIV_EOM t =
        (civ.processFrame dir (if dir = .host then client else 0) f t).aside (Function.update rx src ⟨[], .idle, t⟩)
          (o ++ [e]) := by
    intro rx o hstate hbuf
    have hcomp : completes ((civ.aside rx o).rx src) CIV_EOM = some f := by
      show completes (rx src) CIV_EOM = some f
      unfold completes
      rw [hbuf, if_pos ⟨hstate, rfl, hlen⟩, hf]
    rcases (civ.aside rx o).rxByte_cases dir (if dir = .host then client else 0) src CIV_EOM t with
      ⟨f', hf', heq⟩ | ⟨hnone, -⟩
    · obtain rfl : f = f' := Option.some.inj (hcomp.symm.trans hf')
      have hset : (civ.aside rx o).setRx src { (civ.aside rx o).rx src with tMs := t } =
          civ.aside (Function.update rx src { rx src with tMs := t }) o := rfl
      have hjudged := hjudge (Function.update rx src { rx src with tMs := t }) o
      dsimp only at hjudged
      rw [heq, rxDone, hset, hjudged]
      unfold setRx aside
      dsimp only
      rw [Function.update_idem]
    · rw [hcomp] at hnone
      exact absurd hnone (Option.some_ne_none f)
  have hself := hdone civ.rx civ.out hs rfl
  rw [show civ.aside civ.rx civ.out = civ from rfl] at hself
  rw [hself]
  refine ⟨[e], rfl, fun r hr => ?_⟩
  obtain ⟨rx, o, rfl, ho, hready⟩ := hr
  obtain ⟨ds, hds, hfed⟩ := opening_fed hopen (hready src) civ o dir (if dir = .host then client else 0) t
  have hbytes := refeed_bytes hsrc he.dir he.client (civ.aside rx o)
  rw [he.buf, he.tMs, hf, List.foldl_append, hfed, List.foldl_cons, List.foldl_nil,
    hdone _ _ (by rw [Function.update_self]) (by rw [Function.update_self])] at hbytes
  rw [Replay.replay_cons, Replay.replay_nil, hbytes]
  refine ⟨_, _, rfl, ?_, ready_update (.inl rfl) (ready_update (.inr ⟨rfl, ?_⟩) hready src) src⟩
  · show shown (o ++ ds ++ [e]) = shown (civ.out ++ [e])
    rw [shown_append, shown_append civ.out, shown_cut hds, ho]
  · show 2 < (civ.rx src).buf.length
    unfold CIV_MIN_LEN at hlen
    omega

/-- The framers after a byte. -/
theorem framer_byte (h : ∀ src, Framer (civ.rx src)) (dir : CatDir) (client : Nat) (src : Src) (b : UInt8)
    (t : Nat) :
    ∀ s, Framer ((civ.rxByte dir client src b t).rx s) := by
  intro s
  rw [rxByte_rx]
  by_cases hs : s = src
  · rw [hs, Function.update_self]
    exact (h src).next b t
  · rw [Function.update_of_ne hs]
    exact h s

theorem leads_byte (hsrc : Src.of dir client = some src) (hframer : Framer (civ.rx src)) (b : UInt8) (t : Nat) :
    Leads civ (civ.rxByte dir (if dir = .host then client else 0) src b t) := by
  by_cases hcol : b = CIV_COL
  · rw [hcol]
    exact leads_jam hsrc hframer t
  · cases hf : completes (civ.rx src) b with
    | none => exact leads_quiet hsrc hframer hcol hf t
    | some f => exact leads_frame hsrc hframer hf t

/-! ### Runs -/

/-- What every call keeps. -/
structure Traced (civ₀ civ : Civ) : Prop where
  framers : ∀ src, Framer (civ.rx src)
  replayed : Replay.Replayed Civ.out refeed Beside civ₀ civ

theorem Traced.start (radioAddr : UInt8) (freqLen : Nat) (st : CatState) :
    Traced (create radioAddr freqLen st) (create radioAddr freqLen st) := by
  constructor
  · exact fun src => ⟨(fun hs => nomatch hs), fun _ => rfl⟩
  · exact .start ⟨_, _, rfl, rfl, fun src => .inl rfl⟩ rfl

theorem Traced.byte {civ₀ : Civ} (h : Traced civ₀ civ) (hsrc : Src.of dir client = some src) (b : UInt8)
    (t : Nat) :
    Traced civ₀ (civ.rxByte dir (if dir = .host then client else 0) src b t) := by
  obtain ⟨ws, hout, hr⟩ := leads_byte hsrc (h.framers src) b t
  exact ⟨framer_byte h.framers dir _ src b t, h.replayed.step hout hr⟩

theorem Traced.feed {civ₀ : Civ} (h : Traced civ₀ civ) (f : Feed) :
    Traced civ₀ (civ.feed f.dir f.client f.buf f.tMs) := by
  cases hsrc : Src.of f.dir f.client with
  | none =>
    unfold Civ.feed
    rw [hsrc]
    exact h
  | some src =>
    rw [feed_of hsrc]
    generalize f.buf = buf
    induction buf generalizing civ with
    | nil => exact h
    | cons b buf ih => exact ih (h.byte hsrc b f.tMs)

/-- A fresh decoder that's fed with the trace gives the same frames but for those cut off, learns the same address and
has the same state. -/
theorem civ_trace_replays (radioAddr : UInt8) (freqLen : Nat) (st : CatState) (fs : List Feed) :
    let civ := (create radioAddr freqLen st).feedAll fs
    let r := Replay.replay refeed (create radioAddr freqLen st) civ.out
    shown r.out = shown civ.out ∧ r.radioAddr = civ.radioAddr ∧ r.st = civ.st := by
  have h : Traced (create radioAddr freqLen st) ((create radioAddr freqLen st).feedAll fs) :=
    Run.run_inv (fun _ f h => h.feed f) (Traced.start radioAddr freqLen st) fs
  obtain ⟨rx, o, heq, ho, -⟩ := h.replayed
  dsimp only
  rw [heq]
  exact ⟨ho, rfl, rfl⟩

end Civ

end Mhuxd
