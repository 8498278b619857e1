import Mhuxd.AsciiFrames
import Mhuxd.Lib.Run
import Mhuxd.Lib.Replay

/-!
# Traces of the decoder of the ASCII protocols

The CAT monitor writes every frame with its source and time. What the frames of a source hold is what the
source sent, but for the bytes between frames and the last frame, that isn't complete yet
(`Accounts`); and a fresh decoder fed with the frames goes the same way (`trace_replays`): it differs
from the first one in its framers alone.
-/

namespace Mhuxd

namespace Ascii

/-! ### What a source sent -/

/-- Line ends, spaces and zeros, skipped between frames. -/
def gap (b : UInt8) : Prop := chr b = '\r' ∨ chr b = '\n' ∨ chr b = ' ' ∨ b = 0

instance (b : UInt8) : Decidable (gap b) := inferInstanceAs (Decidable (_ ∨ _))

/-- A byte after those of `cur` that ends the frame: `;`, or what isn't part of any, or one too many. -/
def ends (cur : List UInt8) (b : UInt8) : Prop :=
  chr b = ';' ∨ b.toNat < 0x20 ∨ 0x7f ≤ b.toNat ∨ ASCII_MAX_FRAME ≤ cur.length + 1

instance (cur : List UInt8) (b : UInt8) : Decidable (ends cur b) := inferInstanceAs (Decidable (_ ∨ _))

/-- The unfinished frame after a byte. -/
def unfinishedNext (cur : List UInt8) (b : UInt8) : List UInt8 :=
  if cur = [] ∧ gap b then [] else if ends cur b then [] else cur ++ [b]

/-- The unfinished last frame of what was sent. -/
def unfinished (sent : List UInt8) : List UInt8 := sent.foldl unfinishedNext []

/-- What was sent without the bytes skipped between frames, from an unfinished frame `cur` on. -/
def unskipped (cur : List UInt8) : List UInt8 → List UInt8
  | [] => []
  | b :: bs => if cur = [] ∧ gap b then unskipped cur bs else b :: unskipped (unfinishedNext cur b) bs

/-- What a source sent. -/
def sentBy (src : Src) (fs : List Feed) : List UInt8 :=
  fs.flatMap fun f => if Src.of f.dir f.client = some src then f.buf else []

/-- The bytes of a source's frames. -/
def framedBy (src : Src) (out : List Emit) : List UInt8 :=
  out.flatMap fun e => if Src.of e.frame.dir e.frame.client = some src then e.frame.buf else []

/-! ### Feeding -/

/-- The calls of `cat_ascii_feed`. -/
def feedAll (a : Ascii) (fs : List Feed) : Ascii := Run.run (fun a f => a.feed f.dir f.client f.buf f.tMs) a fs

/-- A frame of a trace, as `cat_replay` feeds it. -/
def refeed (a : Ascii) (e : Emit) : Ascii := a.feed e.frame.dir e.frame.client e.frame.buf e.frame.tMs

variable {a r : Ascii} {dir : CatDir} {client t : Nat} {src : Src} {b : UInt8} {f cur : List UInt8}

/-- A byte in the source's own words. -/
theorem rxByte_eq (a : Ascii) : a.rxByte dir client src b t =
    if (a.rx src).buf = [] ∧ gap b then a.setRx src ⟨[], t⟩
    else if chr b = ';' then (a.processFrame dir client ((a.rx src).buf ++ [b]) t).setRx src ⟨[], t⟩
    else if ends (a.rx src).buf b then
      (a.emit .dropped dir ((a.rx src).buf ++ [b]) false (dir == .own) client t).setRx src ⟨[], t⟩
    else a.setRx src ⟨(a.rx src).buf ++ [b], t⟩ := by
  have hgap : gap b → chr b ≠ ';' := by
    rintro (h | h | h | rfl) hs
    · exact absurd (h.symm.trans hs) (by decide)
    · exact absurd (h.symm.trans hs) (by decide)
    · exact absurd (h.symm.trans hs) (by decide)
    · exact absurd hs (by decide)
  have hends : chr b ≠ ';' → (ends (a.rx src).buf b ↔
      b.toNat < 0x20 ∨ 0x7f ≤ b.toNat ∨ ASCII_MAX_FRAME ≤ (a.rx src).buf.length + 1) := by
    intro hs
    unfold ends
    simp only [hs, false_or]
  unfold rxByte
  dsimp only
  by_cases hg : (a.rx src).buf = [] ∧ gap b
  · rw [if_pos hg, if_neg (hgap hg.2)]
    exact if_pos hg
  · rw [if_neg hg]
    by_cases hs : chr b = ';'
    · rw [if_pos hs, if_pos hs]
    · rw [if_neg hs, if_neg hs]
      simp only [hends hs]
      exact if_neg hg

/-! ### Frames and framers -/

/-- A frame is processed the same whatever the framers hold. -/
theorem processFrame_rx (a : Ascii) (rx : Src → AsciiRx) :
    ({ a with rx := rx } : Ascii).processFrame dir client f t =
    { a.processFrame dir client f t with rx := rx } := by
  have hbegun : ({ a with rx := rx } : Ascii).begun t = { a.begun t with rx := rx } := by
    have hst : ({ a with rx := rx } : Ascii).st = a.st := rfl
    unfold begun
    rw [hst]
    split_ifs <;> rfl
  have happly : ∀ (y : Ascii) (s : List UInt8) (isSet : Bool), ({ y with rx := rx } : Ascii).applyFrame s isSet t =
      ({ (y.applyFrame s isSet t).1 with rx := rx }, (y.applyFrame s isSet t).2) := by
    intro y s isSet
    have hn : Noted y (y.applyFrame s isSet t).1 := noted_applyFrame s isSet
    refine (blind_applyFrame (t := t) s isSet y { y with rx := rx }).trans ?_
    unfold onto
    dsimp only
    rw [← hn.pend, ← hn.out]
  have hentered : ∀ y : Ascii, ({ y with rx := rx } : Ascii).entered dir client f t =
    { y.entered dir client f t with rx := rx } := by
    intro y
    unfold entered
    split_ifs <;> rfl
  have htake : ∀ (y : Ascii) (answer : Option (List UInt8 × List UInt8)),
    ({ y with rx := rx } : Ascii).pendTake answer t =
      ({ (y.pendTake answer t).1 with rx := rx }, (y.pendTake answer t).2) := by
    intro y answer
    have hfind : ({ y with rx := rx } : Ascii).pendFind answer t = y.pendFind answer t := rfl
    unfold pendTake
    rw [hfind]
    cases y.pendFind answer t with
    | none => rfl
    | some i =>
      dsimp only
      cases y.pend[i]? with
      | none => rfl
      | some p => rfl
  have htaken : ∀ y : Ascii, ({ y with rx := rx } : Ascii).taken f t =
    ({ (y.taken f t).1 with rx := rx }, (y.taken f t).2) := by
    intro y
    unfold taken
    split_ifs
    · rfl
    · exact htake y _
  rw [processFrame_eq, processFrame_eq, hbegun]
  by_cases hd : dir = .radio
  · rw [if_pos hd, if_pos hd]
    by_cases he : isError f.dropLast
    · rw [processError_eq _ he, processError_eq _ he, htake]
      rfl
    · rw [processAnswer_eq _ he, processAnswer_eq _ he, htaken, happly]
      rfl
  · rw [if_neg hd, if_neg hd, processCommand_eq, processCommand_eq, hentered, happly]
    rfl

theorem processFrame_own_rx (a : Ascii) : (a.processFrame dir client f t).rx = a.rx := by
  have h : a.processFrame dir client f t = { a.processFrame dir client f t with rx := a.rx } :=
    processFrame_rx a a.rx
  rw [h]

@[simp] theorem setRx_rx_self (a : Ascii) (src : Src) (rx : AsciiRx) : (a.setRx src rx).rx src = rx :=
  Function.update_self ..

theorem setRx_rx_of_ne (a : Ascii) {s : Src} (hs : s ≠ src) (rx : AsciiRx) : (a.setRx src rx).rx s = a.rx s :=
  Function.update_of_ne hs ..

/-- A frame is in the trace as it came: with its source, its bytes and its time. -/
def FrameOf (dir : CatDir) (client : Nat) (f : List UInt8) (t : Nat) (e : Emit) : Prop :=
  e.frame.dir = dir ∧ e.frame.buf = f ∧ e.frame.tMs = t ∧ (dir = .host → e.frame.client = client)

theorem processFrame_out (a : Ascii) (dir : CatDir) (client : Nat) (f : List UInt8) (t : Nat) :
    ∃ e, (a.processFrame dir client f t).out = a.out ++ [e] ∧ FrameOf dir client f t e := by
  have hone : ∀ {y : Ascii} {kind : FrameKind} {applied own : Bool} {c : Nat}, y.out = a.out →
    (dir = .host → c = client) →
      ∃ e, (y.emit kind dir f applied own c t).out = a.out ++ [e] ∧ FrameOf dir client f t e :=
    fun hy hc => ⟨_, congrArg (· ++ _) hy, rfl, rfl, rfl, hc⟩
  have htake : ∀ (y : Ascii) answer, (y.pendTake answer t).1.out = y.out := by
    intro y answer
    unfold pendTake
    split
    · rfl
    · split <;> rfl
  rw [processFrame_eq]
  by_cases hd : dir = .radio
  · subst hd
    rw [if_pos rfl]
    by_cases he : isError f.dropLast
    · rw [processError_eq _ he]
      exact hone ((htake _ _).trans begun_out) nofun
    · rw [processAnswer_eq _ he]
      refine hone ((noted_applyFrame _ _).out.trans ?_) nofun
      unfold taken
      split_ifs
      · exact begun_out
      · exact (htake _ _).trans begun_out
  · rw [if_neg hd, processCommand_eq]
    exact hone ((noted_applyFrame _ _).out.trans (entered_out.trans begun_out)) fun _ => rfl

/-- What a framer holds. -/
inductive Held : List UInt8 → Prop
  | nil : Held []
  | snoc {cur : List UInt8} {b : UInt8} : Held cur → ¬(cur = [] ∧ gap b) → ¬ends cur b → Held (cur ++ [b])

/-- The bytes of a frame that isn't complete only fill the framer. -/
theorem feed_held (r : Ascii) (hsrc : Src.of dir client = some src) (h0 : (r.rx src).buf = []) (h : Held cur)
    (t : Nat) :
    ∃ rx : Src → AsciiRx, r.feed dir client cur t = { r with rx := rx } ∧ (rx src).buf = cur ∧
      ∀ s, s ≠ src → rx s = r.rx s := by
  have hfeed : ∀ bs, r.feed dir client bs t =
      bs.foldl (fun a b => a.rxByte dir (if dir = .host then client else 0) src b t) r := by
    intro bs
    unfold feed
    rw [hsrc]
  rw [hfeed]
  induction h with
  | nil => exact ⟨r.rx, rfl, h0, fun _ _ => rfl⟩
  | @snoc cur b _ hg he ih =>
    obtain ⟨rx, heq, hbuf, hother⟩ := ih
    rw [List.foldl_append, heq, List.foldl_cons, List.foldl_nil, rxByte_eq]
    have hs : chr b ≠ ';' := fun hs => he (.inl hs)
    dsimp only
    rw [hbuf, if_neg hg, if_neg hs, if_neg he]
    exact ⟨Function.update rx src ⟨cur ++ [b], t⟩, rfl, by rw [Function.update_self],
      fun s hne => (Function.update_of_ne hne _ _).trans (hother s hne)⟩

/-! ### The fresh decoder -/

/-- A fresh decoder fed with the trace: it differs in its framers, that are empty. -/
structure Twin (a r : Ascii) : Prop where
  same : r = { a with rx := r.rx }
  idle : ∀ src, (r.rx src).buf = []
  held : ∀ src, Held (a.rx src).buf

theorem Twin.start (dialect : Dialect) (noData : Bool) (st : CatState) :
    Twin (create dialect noData st) (create dialect noData st) := ⟨rfl, fun _ => rfl, fun _ => .nil⟩

namespace Twin

theorem setRx (h : Twin a r) (hcur : Held cur) (t : Nat) : Twin (a.setRx src ⟨cur, t⟩) r := by
  refine ⟨h.same, h.idle, fun s => ?_⟩
  by_cases hs : s = src
  · rwa [hs, setRx_rx_self]
  · rw [setRx_rx_of_ne _ hs]
    exact h.held s

/-- The bytes of a frame lead to its last byte. -/
theorem refeed (h : Twin a r) (hsrc : Src.of dir client = some src) {e : Emit}
    (he : FrameOf dir client ((a.rx src).buf ++ [b]) t e) : ∃ rx : Src → AsciiRx,
      r.refeed e = ({ a with rx := rx } : Ascii).rxByte dir (if dir = .host then client else 0) src b t ∧
        (rx src).buf = (a.rx src).buf ∧ ∀ s, s ≠ src → (rx s).buf = [] := by
  obtain ⟨rfl, hbuf, rfl, hc⟩ := he
  have hsrc' : Src.of e.frame.dir e.frame.client = some src := by
    rw [← hsrc]
    cases hd : e.frame.dir with
    | host => rw [hc hd]
    | own => rfl
    | radio => rfl
  have hc' : (if e.frame.dir = .host then e.frame.client else 0) = if e.frame.dir = .host then client else 0 := by
    split_ifs with hd
    · exact hc hd
    · rfl
  obtain ⟨rx, heq, hrx, hother⟩ := feed_held r hsrc' (h.idle src) (h.held src) e.frame.tMs
  refine ⟨rx, ?_, hrx, fun s hs => by rw [hother s hs]; exact h.idle s⟩
  unfold Ascii.refeed
  rw [hbuf]
  have hsnoc : r.feed e.frame.dir e.frame.client ((a.rx src).buf ++ [b]) e.frame.tMs =
      (r.feed e.frame.dir e.frame.client (a.rx src).buf e.frame.tMs).rxByte e.frame.dir
        (if e.frame.dir = .host then e.frame.client else 0) src b e.frame.tMs := by
    unfold feed
    rw [hsrc']
    exact List.foldl_append ..
  have hsame : ({ r with rx := rx } : Ascii) = { a with rx := rx } := by rw [h.same]
  rw [hsnoc, heq, hc', hsame]

/-- A byte that ends a frame, by the decoder `x` that has processed it. -/
theorem ended (h : Twin a r) (hsrc : Src.of dir client = some src) {x : Ascii} {e : Emit}
    (hx : ∀ rx : Src → AsciiRx, (rx src).buf = (a.rx src).buf →
      ({ a with rx := rx } : Ascii).rxByte dir (if dir = .host then client else 0) src b t =
        ({ x with rx := rx } : Ascii).setRx src ⟨[], t⟩)
    (hxrx : x.rx = a.rx) (he : FrameOf dir client ((a.rx src).buf ++ [b]) t e) :
    Twin (x.setRx src ⟨[], t⟩) (Replay.replay Ascii.refeed r [e]) := by
  obtain ⟨rx, heq, hbuf, hidle⟩ := h.refeed hsrc he
  rw [Replay.replay_cons, Replay.replay_nil, heq, hx rx hbuf]
  refine ⟨rfl, fun s => ?_, fun s => ?_⟩
  · by_cases hs : s = src
    · rw [hs, setRx_rx_self]
    · rw [setRx_rx_of_ne _ hs]
      exact hidle s hs
  · by_cases hs : s = src
    · rw [hs, setRx_rx_self]
      exact .nil
    · rw [setRx_rx_of_ne _ hs, hxrx]
      exact h.held s

end Twin

/-- What a byte records. -/
structure Recorded (src : Src) (a a' : Ascii) (b : UInt8) (es : List Emit) : Prop where
  out : a'.out = a.out ++ es
  twin : ∀ r, Twin a r → Twin a' (Replay.replay refeed r es)
  source : ∀ e ∈ es, Src.of e.frame.dir e.frame.client = some src
  bytes : es.flatMap (fun e => e.frame.buf) ++ (a'.rx src).buf =
    (a.rx src).buf ++ if (a.rx src).buf = [] ∧ gap b then [] else [b]
  buf : (a'.rx src).buf = unfinishedNext (a.rx src).buf b
  other : ∀ s, s ≠ src → a'.rx s = a.rx s

theorem FrameOf.source {e : Emit} (h : FrameOf dir client f t e) (hsrc : Src.of dir client = some src) :
    Src.of e.frame.dir e.frame.client = some src := by
  obtain ⟨rfl, -, -, hc⟩ := h
  rw [← hsrc]
  cases hd : e.frame.dir with
  | host => rw [hc hd]
  | own => rfl
  | radio => rfl

/-- A frame is complete, or given up. -/
theorem Recorded.ended (hsrc : Src.of dir client = some src) {x : Ascii} {e : Emit}
    (hx : ∀ rx : Src → AsciiRx, (rx src).buf = (a.rx src).buf →
      ({ a with rx := rx } : Ascii).rxByte dir (if dir = .host then client else 0) src b t =
        ({ x with rx := rx } : Ascii).setRx src ⟨[], t⟩)
    (hxrx : x.rx = a.rx) (hout : x.out = a.out ++ [e]) (he : FrameOf dir client ((a.rx src).buf ++ [b]) t e)
    (hg : ¬((a.rx src).buf = [] ∧ gap b)) (hends : ends (a.rx src).buf b) :
    Recorded src a (x.setRx src ⟨[], t⟩) b [e] := by
  refine ⟨hout, fun r h => h.ended hsrc hx hxrx he, ?_, ?_, ?_, fun s hs => ?_⟩
  · intro e' hmem
    rw [List.mem_singleton.1 hmem]
    exact FrameOf.source he hsrc
  · rw [setRx_rx_self, if_neg hg, List.flatMap_singleton, he.2.1, List.append_nil]
  · rw [setRx_rx_self, unfinishedNext, if_neg hg, if_pos hends]
  · rw [setRx_rx_of_ne _ hs, hxrx]

/-- A byte: what it records leads the fresh decoder along. -/
theorem rxByte_recorded (a : Ascii) (hsrc : Src.of dir client = some src) (b : UInt8) (t : Nat) :
    (∀ s, Held (a.rx s).buf) →
    ∃ es, Recorded src a (a.rxByte dir (if dir = .host then client else 0) src b t) b es := by
  intro hheld
  by_cases hg : (a.rx src).buf = [] ∧ gap b
  · refine ⟨[], ?_⟩
    rw [rxByte_eq, if_pos hg]
    refine ⟨(List.append_nil _).symm, fun r h => h.setRx .nil t, by simp, ?_, ?_, fun s hs =>
      setRx_rx_of_ne _ hs _⟩
    · rw [setRx_rx_self, if_pos hg, hg.1]
      rfl
    · rw [setRx_rx_self, unfinishedNext, if_pos hg]
  · by_cases hs : chr b = ';'
    · obtain ⟨e, hout, he⟩ := a.processFrame_out dir (if dir = .host then client else 0) ((a.rx src).buf ++ [b]) t
      have he' : FrameOf dir client ((a.rx src).buf ++ [b]) t e :=
        ⟨he.1, he.2.1, he.2.2.1, fun hd => (he.2.2.2 hd).trans (if_pos hd)⟩
      refine ⟨[e], ?_⟩
      rw [rxByte_eq, if_neg hg, if_pos hs]
      refine .ended hsrc (fun rx hrx => ?_) (processFrame_own_rx a) hout he' hg (.inl hs)
      rw [rxByte_eq]
      dsimp only
      rw [hrx, if_neg hg, if_pos hs, processFrame_rx]
    · by_cases he : ends (a.rx src).buf b
      · refine ⟨[⟨⟨.dropped, dir, t, (a.rx src).buf ++ [b], false, dir == .own, if dir = .host then client else 0⟩, 0⟩], ?_⟩
        rw [rxByte_eq, if_neg hg, if_neg hs, if_pos he]
        refine .ended hsrc (fun rx hrx => ?_) rfl rfl ⟨rfl, rfl, rfl, fun hd => if_pos hd⟩ hg he
        rw [rxByte_eq]
        dsimp only
        rw [hrx, if_neg hg, if_neg hs, if_pos he]
        rfl
      · refine ⟨[], ?_⟩
        rw [rxByte_eq, if_neg hg, if_neg hs, if_neg he]
        refine ⟨(List.append_nil _).symm, fun r h => h.setRx (.snoc (hheld src) hg he) t, by simp, ?_, ?_,
          fun s hs => setRx_rx_of_ne _ hs _⟩
        · rw [setRx_rx_self, if_neg hg]
          rfl
        · rw [setRx_rx_self, unfinishedNext, if_neg hg, if_neg he]

/-! ### Runs -/

/-- The frames of a source hold what it sent. -/
structure Accounts (src : Src) (sent : List UInt8) (a : Ascii) : Prop where
  bytes : framedBy src a.out ++ unfinished sent = unskipped [] sent
  buf : (a.rx src).buf = unfinished sent

theorem unskipped_snoc (cur sent : List UInt8) (b : UInt8) : unskipped cur (sent ++ [b]) =
    unskipped cur sent ++ if sent.foldl unfinishedNext cur = [] ∧ gap b then [] else [b] := by
  induction sent generalizing cur with
  | nil =>
    rw [List.nil_append, List.foldl_nil]
    simp only [unskipped, List.nil_append]
  | cons c sent ih =>
    rw [List.cons_append, unskipped, unskipped, List.foldl_cons]
    by_cases hg : cur = [] ∧ gap c
    · rw [if_pos hg, if_pos hg, ih, unfinishedNext, if_pos hg, hg.1]
    · rw [if_neg hg, if_neg hg, ih]
      rfl

theorem unfinished_snoc (sent : List UInt8) (b : UInt8) : unfinished (sent ++ [b]) =
    unfinishedNext (unfinished sent) b :=
  List.foldl_append ..

theorem framedBy_append (src : Src) (out es : List Emit) : framedBy src (out ++ es) = framedBy src out ++
    framedBy src es :=
  List.flatMap_append

theorem framedBy_self {es : List Emit} (h : ∀ e ∈ es, Src.of e.frame.dir e.frame.client = some src) :
    framedBy src es = es.flatMap fun e => e.frame.buf :=
  List.flatMap_congr fun e he => if_pos (h e he)

theorem framedBy_other {es : List Emit} {s : Src} (hs : s ≠ src)
    (h : ∀ e ∈ es, Src.of e.frame.dir e.frame.client = some src) : framedBy s es = [] := by
  refine List.flatMap_eq_nil_iff.2 fun e he => if_neg ?_
  rw [h e he]
  exact fun heq => hs (Option.some.inj heq).symm

/-- A byte of a source, for its account. -/
theorem Accounts.byte {a' : Ascii} {es : List Emit} {sent : List UInt8} (h : Accounts src sent a)
    (hr : Recorded src a a' b es) : Accounts src (sent ++ [b]) a' := by
  constructor
  · rw [hr.out, framedBy_append, framedBy_self hr.source, unfinished_snoc, ← h.buf, ← hr.buf, List.append_assoc,
      hr.bytes,
      unskipped_snoc, ← h.bytes, h.buf, List.append_assoc]
    rfl
  · rw [hr.buf, h.buf, unfinished_snoc]

/-- A byte of another source. -/
theorem Accounts.other {a' : Ascii} {es : List Emit} {sent : List UInt8} {s : Src} (h : Accounts s sent a)
    (hs : s ≠ src) (hr : Recorded src a a' b es) : Accounts s sent a' := by
  constructor
  · rw [hr.out, framedBy_append, framedBy_other hs hr.source, List.append_nil]
    exact h.bytes
  · rw [hr.other s hs]
    exact h.buf

/-- What the trace is good for, by what the sources sent. -/
structure Traced (a₀ : Ascii) (sent : Src → List UInt8) (a : Ascii) : Prop where
  accounts : ∀ src, Accounts src (sent src) a
  twin : Replay.Replayed Ascii.out refeed Twin a₀ a

namespace Traced

variable {a₀ : Ascii} {sent : Src → List UInt8} {fd : Feed}

theorem byte (h : Traced a₀ sent a) (hsrc : Src.of dir client = some src) (b : UInt8) (t : Nat) :
    Traced a₀ (fun s => sent s ++ if s = src then [b] else [])
      (a.rxByte dir (if dir = .host then client else 0) src b t) := by
  obtain ⟨es, hr⟩ := a.rxByte_recorded hsrc b t h.twin.held
  refine ⟨fun s => ?_, h.twin.step hr.out hr.twin⟩
  by_cases hs : s = src
  · rw [if_pos hs, hs]
    exact (h.accounts src).byte hr
  · rw [if_neg hs, List.append_nil]
    exact (h.accounts s).other hs hr

theorem feed (h : Traced a₀ sent a) (fd : Feed) :
    Traced a₀ (fun s => sent s ++ if Src.of fd.dir fd.client = some s then fd.buf else [])
      (a.feed fd.dir fd.client fd.buf fd.tMs) := by
  obtain ⟨dir, client, buf, t⟩ := fd
  unfold Ascii.feed
  rcases hsrc : Src.of dir client with _ | src
  · have hnil : (fun s => sent s ++ if (none : Option Src) = some s then buf else []) = sent := by
      funext s
      simp
    rw [hnil]
    exact h
  · dsimp only
    induction buf generalizing a sent with
    | nil => simpa using h
    | cons b buf ih =>
      have hnext := ih (h.byte hsrc b t)
      have hsent : (fun s => sent s ++ if some src = some s then b :: buf else []) =
          fun s => (sent s ++ if s = src then [b] else []) ++ if some src = some s then buf else [] := by
        funext s
        by_cases hs : s = src
        · simp [hs]
        · simp [hs, Ne.symm hs]
      rw [hsent]
      exact hnext

theorem start (dialect : Dialect) (noData : Bool) (st : CatState) :
    Traced (create dialect noData st) (fun _ => []) (create dialect noData st) :=
  ⟨fun _ => ⟨rfl, rfl⟩, .start (Twin.start dialect noData st) rfl⟩

theorem feedAll (h : Traced a₀ sent a) (fs : List Feed) : Traced a₀ (fun s => sent s ++ sentBy s fs)
    (a.feedAll fs) := by
  induction fs generalizing a sent with
  | nil =>
    have hnil : (fun s => sent s ++ sentBy s []) = sent := by
      funext s
      exact List.append_nil _
    rw [hnil]
    exact h
  | cons fd fs ih =>
    have hnext := ih (h.feed fd)
    have hsent : (fun s => sent s ++ sentBy s (fd :: fs)) =
        fun s => (sent s ++ if Src.of fd.dir fd.client = some s then fd.buf else []) ++ sentBy s fs := by
      funext s
      rw [sentBy, List.flatMap_cons, List.append_assoc]
      rfl
    rw [hsent]
    exact hnext

end Traced

/-- The trace holds what each source sent, but for what is skipped and the unfinished last frame, and a
fresh decoder fed with it tells the same of each frame and has the same state in the end. -/
theorem trace_replays (dialect : Dialect) (noData : Bool) (st : CatState) (fs : List Feed) :
    let a₀ := create dialect noData st
    let a := a₀.feedAll fs
    let r := Replay.replay refeed a₀ a.out
    (∀ src, framedBy src a.out ++ unfinished (sentBy src fs) = unskipped [] (sentBy src fs)) ∧
      r.out = a.out ∧ r.st = a.st ∧ r.k3Md = a.k3Md ∧ r.k3Dt = a.k3Dt ∧ r.txAb = a.txAb ∧ r.pend = a.pend := by
  intro a₀ a r
  have h := (Traced.start dialect noData st).feedAll fs
  have hsame : r = { a with rx := r.rx } := h.twin.same
  refine ⟨fun src => ?_, ?_⟩
  · simpa using (h.accounts src).bytes
  · rw [hsame]
    exact ⟨rfl, rfl, rfl, rfl, rfl, rfl⟩

end Ascii

end Mhuxd
