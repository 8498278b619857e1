import Mhuxd.AsciiFrames
import Mhuxd.Lib.Run

/-!
# Whose answers the decoder of the ASCII protocols gets

Clients and mhuxd send queries and sets on one line. The radio answers the queries one after the other
and tells of its own accord what nobody waits for. In every such run, however the bytes are cut into
calls of the decoder, an answer is tagged with the sender of its query and the rest with nobody
(`answers_tagged`): of the commands the decoder waits for, the live ones are those on the line (`Tracks`).
-/

namespace Mhuxd

namespace Ascii

/-- Two letters other than `ZZ`, or four characters that start with `ZZ`. -/
def isQuery (s : List UInt8) : Bool :=
  decide (s.length = 2) && s.all (fun b => (chr b).isAlpha) && !starts s ['Z', 'Z'] ||
    decide (s.length = 4) && starts s ['Z', 'Z']

/-- A command on the line, with its `;`. -/
structure Sent where
  frame : List UInt8
  own : Bool
  client : Nat
  tMs : Nat
deriving DecidableEq

namespace Sent

/-- The command without `;`. -/
def cmd (q : Sent) : List UInt8 := q.frame.dropLast

def pfx (q : Sent) : List UInt8 := prefixOf q.cmd

/-- Nothing follows the prefix. -/
def bare (q : Sent) : Bool := q.frame.length == q.pfx.length + 1

/-- How long it's waited for: sets have no answer. -/
def live (t : Nat) (q : Sent) : Bool := decide (t ≤ q.tMs + if q.bare then PEND_TIMEOUT_MS else CAT_ASCII_SET_WAIT_MS)

def query (q : Sent) : Bool := isQuery q.cmd

/-- The decoder's entry. -/
def pending (q : Sent) : AsciiPending := ⟨q.pfx, q.frame, q.tMs, q.own, q.client, q.bare⟩

end Sent

/-- A frame of the radio with whom it's for: the sender of the query it answers, or nobody. -/
structure Due where
  frame : List UInt8
  owner : Option (Bool × Nat)
deriving DecidableEq

/-- The decoder in a run, with the commands on the line that got no answer yet and what the radio sent.
The decoder reads neither. -/
structure Line where
  a : Ascii
  now : Nat
  waiting : List Sent
  due : List Due

namespace Line

/-- The frame that a byte completes. -/
def frame (l : Line) (dir : CatDir) (client : Nat) (b : UInt8) : Option (List UInt8) :=
  (Src.of dir client).bind fun src => if chr b = ';' then some ((l.a.rx src).buf ++ [b]) else none

/-- The query the radio answers next: the queries are answered in the order sent. -/
def next (l : Line) : Option Sent := l.waiting.find? Sent.query

/-- A frame of the radio answers the next query, in time. -/
def Answers (l : Line) (f : List UInt8) (t : Nat) (q : Sent) : Prop :=
  l.next = some q ∧ prefixOf f.dropLast = q.pfx ∧ q.live t = true

instance (l : Line) (f : List UInt8) (t : Nat) (q : Sent) : Decidable (l.Answers f t q) :=
  inferInstanceAs (Decidable (_ ∧ _))

/-- Nobody waits for the frame. -/
def Unasked (l : Line) (f : List UInt8) (t : Nat) : Prop :=
  ¬isError f.dropLast ∧ ∀ q ∈ l.waiting, q.live t = true → q.pfx ≠ prefixOf f.dropLast

instance (l : Line) (f : List UInt8) (t : Nat) : Decidable (l.Unasked f t) := inferInstanceAs (Decidable (_ ∧ _))

/-- A frame is complete. -/
def note (l : Line) (dir : CatDir) (client : Nat) (f : List UInt8) (t : Nat) : Line :=
  if dir = .radio then
    match l.next.filter fun q => l.Answers f t q with
    | some q => { l with waiting := l.waiting.eraseP Sent.query, due := l.due ++ [⟨f, some (q.own, q.client)⟩] }
    | none => { l with due := l.due ++ [⟨f, none⟩] }
  else if f.dropLast = [] then l
  else { l with waiting := l.waiting ++ [⟨f, dir == .own, if dir = .host then client else 0, t⟩] }

def byte (f : Feed) (l : Line) (b : UInt8) : Line :=
  let noted := (l.frame f.dir f.client b).elim l fun fr => l.note f.dir f.client fr f.tMs
  { noted with a := l.a.feed f.dir f.client [b] f.tMs, now := f.tMs }

/-- A call of `cat_ascii_feed`. -/
def step (l : Line) (f : Feed) : Line := Run.run (byte f) l f.buf

/-- What may be on the line: a client there is, no command more than the decoder's list holds, and of the
radio answers to the queries and what nobody waits for. -/
def ByteOk (f : Feed) (l : Line) (b : UInt8) : Prop :=
  l.now ≤ f.tMs ∧ Src.of f.dir f.client ≠ none ∧ ∀ fr ∈ l.frame f.dir f.client b,
    if f.dir = .radio then (∃ q ∈ l.next, l.Answers fr f.tMs q) ∨ l.Unasked fr f.tMs
    else fr.dropLast = [] ∨ (l.waiting.filter (Sent.live f.tMs)).length < PEND_MAX

instance (f : Feed) (l : Line) (b : UInt8) : Decidable (ByteOk f l b) := inferInstanceAs (Decidable (_ ∧ _ ∧ _))

def StepOk (l : Line) (f : Feed) : Prop := Run.StepsOk (byte f) (ByteOk f) l f.buf

instance (l : Line) (f : Feed) : Decidable (l.StepOk f) := Run.StepsOk.decidable l f.buf

/-- A run from `cat_ascii_create`. -/
abbrev runs (dialect : Dialect) (noData : Bool) (st : CatState) (fs : List Feed) : Line :=
  Run.run step ⟨.create dialect noData st, 0, [], []⟩ fs

/-- The frame callback was told whom a frame of the radio is for. -/
def Told (d : Due) (e : Emit) : Prop :=
  e.frame.buf = d.frame ∧
    match d.owner with
    | some (own, client) => (e.frame.kind = .reply ∨ e.frame.kind = .bad) ∧ e.frame.own = own ∧
        e.frame.client = client
    | none => (e.frame.kind = .unsolicited ∨ e.frame.kind = .bad) ∧ e.frame.own = false ∧ e.frame.client = 0

/-- The frames of the radio that the callback got, without what the framer dropped. -/
def heard (out : List Emit) : List Emit := out.filter fun e => e.frame.dir == .radio && e.frame.kind != .dropped

end Line

/-! ### The decoder's list -/

variable {a : Ascii} {dir : CatDir} {client t t' : Nat} {src : Src} {b : UInt8} {f pfx : List UInt8} {q x : Sent}

theorem pendLive_mono {p : AsciiPending} (h : pendLive p t' = true) (hle : t ≤ t') : pendLive p t = true := by
  unfold pendLive at h ⊢
  rw [decide_eq_true_eq] at h ⊢
  omega

theorem filter_live_later {l : List AsciiPending} (hle : t ≤ t') :
    (l.filter fun p => pendLive p t).filter (fun p => pendLive p t') = l.filter fun p => pendLive p t' := by
  rw [List.filter_filter]
  refine List.filter_congr fun p _ => ?_
  cases h : pendLive p t'
  · rfl
  · rw [pendLive_mono h hle]
    rfl

theorem Sent.filter_live_later {l : List Sent} (hle : t ≤ t') :
    (l.filter (live t)).filter (live t') = l.filter (live t') := by
  rw [List.filter_filter]
  refine List.filter_congr fun q _ => ?_
  cases h : q.live t'
  · rfl
  · rw [show q.live t = true from pendLive_mono (p := q.pending) h hle]
    rfl

/-- A command that is its prefix. -/
theorem Sent.cmd_of_bare (h : q.bare = true) : q.cmd = q.pfx := by
  have hlen : q.frame.length = q.pfx.length + 1 := by simpa [bare] using h
  have hcmd : q.cmd.length = q.pfx.length := by
    rw [cmd, List.length_dropLast, hlen]
    rfl
  unfold pfx prefixOf at hcmd ⊢
  split_ifs at hcmd ⊢
  · exact (List.take_of_length_le (by rw [List.length_take] at hcmd; omega)).symm
  · exact (List.take_of_length_le (by rw [List.length_take] at hcmd; omega)).symm

/-- A query is its prefix. -/
theorem Sent.pfx_of_query (h : q.query = true) : q.pfx = q.cmd := by
  unfold query isQuery at h
  unfold pfx prefixOf
  rcases Bool.or_eq_true_iff.1 h with h | h
  · have hlen : q.cmd.length = 2 := by simp at h; exact h.1.1
    rw [if_neg (by omega), ← hlen, List.take_length]
  · have h' : q.cmd.length = 4 ∧ starts q.cmd ['Z', 'Z'] = true := by simpa using h
    rw [if_pos ⟨Nat.le_of_eq h'.1.symm, h'.2⟩, ← h'.1, List.take_length]

theorem Sent.cmd_ne_nil (h : q.query = true) : q.cmd ≠ [] := by
  intro hnil
  rw [query, hnil] at h
  exact absurd h (by decide)

theorem Sent.bare_of_query (h : q.query = true) : q.bare = true := by
  have hne : q.frame ≠ [] := fun hnil => cmd_ne_nil h (by rw [cmd, hnil]; rfl)
  have hlen : q.cmd.length = q.frame.length - 1 := List.length_dropLast
  have hpos := List.length_pos_iff.2 hne
  rw [bare, pfx_of_query h, beq_iff_eq]
  omega

/-- Of the commands with a query's prefix those that are their prefix are queries. -/
theorem Sent.query_of_bare (hq : q.query = true) (hb : x.bare = true) (hp : x.pfx = q.pfx) : x.query = true := by
  rw [query, cmd_of_bare hb, hp, pfx_of_query hq]
  exact hq

/-- A pending query with the prefix, as `pend_take` looks for it. -/
def asks (pfx : List UInt8) (p : AsciiPending) : Bool := p.query && p.pfx == pfx

theorem pendTake_query {p : AsciiPending} (h : (a.pend.filter fun p => pendLive p t).find? (asks pfx) = some p) :
    a.pendTake (some (pfx, f)) t =
      ({ a with pend := a.pend.eraseP fun p => asks pfx p && pendLive p t }, some (p.own, p.client)) := by
  have hfun : (fun p : AsciiPending => p.query && (pendLive p t && (some (pfx, f)).all fun x => p.pfx == x.1)) =
      fun p => asks pfx p && pendLive p t := by
    funext p
    show (p.query && (pendLive p t && (p.pfx == pfx))) = ((p.query && p.pfx == pfx) && pendLive p t)
    rw [Bool.and_assoc, Bool.and_comm (p.pfx == pfx)]
  have hasks : asks pfx p = true := List.find?_some h
  have hquery : p.query = true := (Bool.and_eq_true_iff.1 hasks).1
  rw [List.find?_filter] at h
  have h' : a.pend.find? (fun p => asks pfx p && pendLive p t) = some p := by
    rw [← h]
    congr 1
    funext p
    cases pendLive p t <;> cases asks pfx p <;> rfl
  have herase := @List.eraseP_eq_eraseIdx _ a.pend fun p => asks pfx p && pendLive p t
  rw [List.find?_eq_bind_findIdx?_getElem?] at h'
  unfold pendTake pendFind
  dsimp only
  rw [hfun]
  obtain ⟨i, hi, hp⟩ := Option.bind_eq_some_iff.1 h'
  rw [hi] at herase ⊢
  simp only [Option.some_or, hp, pendRemove, repeatsSet, hquery, Bool.not_true, Bool.false_and, Bool.false_eq_true,
    if_false, herase]

theorem pendTake_unasked (h : ∀ p ∈ a.pend, pendLive p t = true → p.pfx ≠ pfx) :
    a.pendTake (some (pfx, f)) t = (a, none) := by
  have hfits : ∀ p ∈ a.pend, (pendLive p t && (some (pfx, f)).all fun x => p.pfx == x.1) = false := by
    intro p hp
    cases hl : pendLive p t
    · rfl
    · exact beq_eq_false_iff_ne.2 (h p hp hl)
  have hnone : a.pendFind (some (pfx, f)) t = none := by
    unfold pendFind
    dsimp only
    rw [List.findIdx?_eq_none_iff.2 fun p hp => by rw [hfits p hp, Bool.and_false],
      List.findIdx?_eq_none_iff.2 fun p hp => hfits p hp]
    rfl
  unfold pendTake
  rw [hnone]

/-- Without one command too many the decoder forgets no live one. -/
theorem pendAdd_pend (own : Bool) (h : (a.pend.filter fun p => pendLive p t).length < PEND_MAX) :
    (a.pendAdd f pfx own client t).pend = (a.pend.filter fun p => pendLive p t) ++
      [⟨pfx, f, t, own, client, f.length == pfx.length + 1⟩] := by
  unfold pendAdd
  dsimp only
  rw [if_neg (Nat.ne_of_lt h)]

/-! ### Frames -/

open Line

theorem heard_concat (out : List Emit) (e : Emit) : heard (out ++ [e]) =
    heard out ++ if e.frame.dir = .radio ∧ e.frame.kind ≠ .dropped then [e] else [] := by
  unfold heard
  rw [List.filter_append]
  congr 1
  by_cases hd : e.frame.dir = .radio
  · by_cases hk : e.frame.kind = .dropped
    · simp [hd, hk]
    · simp [hd, hk]
  · simp [hd]

theorem heard_emit (a : Ascii) {kind : FrameKind} (hk : kind ≠ .dropped) (f : List UInt8) (applied : Bool)
    (owner : Bool × Nat) (t : Nat) :
    heard (a.emit kind .radio f applied owner.1 owner.2 t).out =
      heard a.out ++ [⟨⟨kind, .radio, t, f, applied, owner.1, owner.2⟩, 0⟩] :=
  (heard_concat _ _).trans (by rw [if_pos ⟨rfl, hk⟩])

theorem processFrame_command (hd : dir ≠ .radio) :
    (a.processFrame dir client f t).pend = ((a.begun t).entered dir client f t).pend ∧
      heard (a.processFrame dir client f t).out = heard a.out := by
  have heq : a.processFrame dir client f t = (a.begun t).processCommand dir client f t := by
    unfold processFrame
    exact if_neg hd
  have hn : Noted ((a.begun t).entered dir client f t) _ := noted_applyFrame (t := t) f.dropLast true
  rw [heq, processCommand_eq]
  constructor
  · exact hn.pend
  · refine (heard_concat _ _).trans ?_
    rw [if_neg fun h => hd h.1, List.append_nil, hn.out, entered_out, begun_out]

/-- A frame of the radio that is no error report, by what it takes. -/
theorem processFrame_radio (he : ¬isError f.dropLast) (hout : ((a.begun t).taken f t).1.out = a.out) :
    (a.processFrame .radio client f t).pend = ((a.begun t).taken f t).1.pend ∧
      ∃ e, heard (a.processFrame .radio client f t).out = heard a.out ++ [e] ∧
      Told ⟨f, ((a.begun t).taken f t).2⟩ e := by
  have heq : a.processFrame .radio client f t = (a.begun t).processAnswer f t := by
    unfold processFrame
    exact if_pos rfl
  have hn : Noted ((a.begun t).taken f t).1 _ := noted_applyFrame (t := t) f.dropLast false
  have hkind : ∀ r owner, answerKind r owner ≠ .dropped := by
    intro r owner
    unfold answerKind
    split_ifs <;> exact nofun
  rw [heq, processAnswer_eq _ he]
  have hh := heard_emit (((a.begun t).taken f t).1.applyFrame f.dropLast false t).1
    (hkind (((a.begun t).taken f t).1.applyFrame f.dropLast false t).2 ((a.begun t).taken f t).2) f
    ((((a.begun t).taken f t).1.applyFrame f.dropLast false t).2 == .done)
    (((a.begun t).taken f t).2.getD (false, 0)) t
  rw [hn.out, hout] at hh
  refine ⟨hn.pend, _, hh, rfl, ?_⟩
  dsimp only
  generalize ((a.begun t).taken f t).2 = owner
  generalize (((a.begun t).taken f t).1.applyFrame f.dropLast false t).2 = r
  cases owner with
  | none =>
    refine ⟨?_, rfl, rfl⟩
    cases r
    · exact .inr rfl
    · exact .inl rfl
    · exact .inl rfl
  | some o =>
    refine ⟨?_, rfl, rfl⟩
    cases r
    · exact .inr rfl
    · exact .inl rfl
    · exact .inl rfl

/-! ### Bytes -/

/-- A byte that completes no frame leaves the pending commands and what was heard of the radio alone. -/
theorem rxByte_quiet (a : Ascii) (hb : chr b ≠ ';') : (a.rxByte dir client src b t).pend = a.pend ∧
    heard (a.rxByte dir client src b t).out = heard a.out := by
  have hdrop : ∀ e : Emit, e.frame.kind = .dropped → heard (a.out ++ [e]) = heard a.out := by
    intro e he
    rw [heard_concat, if_neg fun h => h.2 he, List.append_nil]
  unfold rxByte
  dsimp only
  rw [if_neg hb]
  split_ifs
  · exact ⟨rfl, rfl⟩
  · exact ⟨rfl, hdrop _ rfl⟩
  · exact ⟨rfl, rfl⟩

namespace Line

variable {l : Line} {fd : Feed} {fr : List UInt8}

theorem feed_quiet (l : Line) (fd : Feed) (h : l.frame fd.dir fd.client b = none) :
    (l.a.feed fd.dir fd.client [b] fd.tMs).pend = l.a.pend ∧
      heard (l.a.feed fd.dir fd.client [b] fd.tMs).out = heard l.a.out := by
  unfold frame at h
  unfold feed
  rcases hsrc : Src.of fd.dir fd.client with _ | src
  · exact ⟨rfl, rfl⟩
  · rw [hsrc] at h
    refine l.a.rxByte_quiet fun hb => ?_
    rw [Option.bind_some, if_pos hb] at h
    exact nomatch h

theorem feed_frame (l : Line) (fd : Feed) (h : l.frame fd.dir fd.client b = some fr) : ∃ src,
    l.a.feed fd.dir fd.client [b] fd.tMs =
      (l.a.processFrame fd.dir (if fd.dir = .host then fd.client else 0) fr fd.tMs).setRx src ⟨[], fd.tMs⟩ := by
  unfold frame at h
  unfold feed
  rcases hsrc : Src.of fd.dir fd.client with _ | src
  · rw [hsrc] at h
    exact nomatch h
  · rw [hsrc, Option.bind_some] at h
    split_ifs at h with hb
    refine ⟨src, ?_⟩
    show l.a.rxByte fd.dir _ src b fd.tMs = _
    unfold rxByte
    dsimp only
    rw [if_pos hb, Option.some.inj h]

/-- The live commands of the decoder are those on the line, and it told of each frame of the radio. -/
structure Tracks (l : Line) : Prop where
  pend : (l.a.pend.filter fun p => pendLive p l.now) = (l.waiting.filter (Sent.live l.now)).map Sent.pending
  told : List.Forall₂ Told l.due (heard l.a.out)

namespace Tracks

theorem later (h : Tracks l) (hle : l.now ≤ t) :
    (l.a.pend.filter fun p => pendLive p t) = (l.waiting.filter (Sent.live t)).map Sent.pending := by
  rw [← filter_live_later hle, h.pend, List.filter_map, ← Sent.filter_live_later hle]
  rfl

/-- The next query is found where the decoder looks for it. -/
theorem found (h : Tracks l) (hle : l.now ≤ t) (ha : l.Answers fr t q) :
    (l.a.pend.filter fun p => pendLive p t).find? (asks (prefixOf fr.dropLast)) = some q.pending := by
  obtain ⟨hnext, hp, hlive⟩ := ha
  obtain ⟨hq, as, bs, hw, has⟩ := List.find?_eq_some_iff_append.1 hnext
  rw [h.later hle, List.find?_map, hw, List.filter_append, List.filter_cons_of_pos hlive]
  refine Option.map_eq_some_iff.2 ⟨q, List.find?_eq_some_iff_append.2 ⟨?_, as.filter (Sent.live t), _, rfl, ?_⟩,
    rfl⟩
  · show (q.bare && q.pfx == prefixOf fr.dropLast) = true
    rw [hp, Sent.bare_of_query hq]
    exact beq_self_eq_true _
  · intro x hx
    rw [Bool.not_eq_true', ← Bool.not_eq_true]
    intro hasks
    obtain ⟨hb, hpx⟩ := Bool.and_eq_true_iff.1 hasks
    have hquery := Sent.query_of_bare hq hb ((beq_iff_eq.1 hpx).trans hp)
    have hnot := has x (List.mem_of_mem_filter hx)
    rw [hquery] at hnot
    exact nomatch hnot

/-- What is left when the next query is answered. -/
theorem left (h : Tracks l) (hle : l.now ≤ t) (ha : l.Answers fr t q) :
    ((l.a.pend.eraseP fun p => asks (prefixOf fr.dropLast) p && pendLive p t).filter fun p => pendLive p t) =
      ((l.waiting.eraseP Sent.query).filter (Sent.live t)).map Sent.pending := by
  obtain ⟨hnext, hp, hlive⟩ := ha
  obtain ⟨hq, as, bs, hw, has⟩ := List.find?_eq_some_iff_append.1 hnext
  have hask : ∀ x : Sent, x.query = false → asks (prefixOf fr.dropLast) x.pending = false := by
    intro x hx
    rw [← Bool.not_eq_true]
    intro hasks
    obtain ⟨hb, hpx⟩ := Bool.and_eq_true_iff.1 hasks
    rw [Sent.query_of_bare hq hb ((beq_iff_eq.1 hpx).trans hp)] at hx
    exact nomatch hx
  have hasq : asks (prefixOf fr.dropLast) q.pending = true := by
    show (q.bare && q.pfx == prefixOf fr.dropLast) = true
    rw [hp, Sent.bare_of_query hq]
    exact beq_self_eq_true _
  have hnotq : ∀ x ∈ as, ¬x.query = true := fun x hx hxq => by
    have := has x hx
    rw [hxq] at this
    exact nomatch this
  rw [← List.eraseP_filter, h.later hle, List.eraseP_map, List.eraseP_filter, hw]
  rw [List.eraseP_append_right _ fun x hx => ?_, List.eraseP_append_right _ hnotq]
  · rw [List.eraseP_cons_of_pos hq, List.eraseP_cons_of_pos]
    show (asks _ q.pending && q.live t) = true
    rw [hasq, hlive]
    rfl
  · intro hx'
    have h1 : asks (prefixOf fr.dropLast) x.pending = false := hask x (by simpa using hnotq x hx)
    have h2 : (asks (prefixOf fr.dropLast) x.pending && x.live t) = true := hx'
    rw [h1] at h2
    exact nomatch h2

theorem byte_radio (h : Tracks l) (hle : l.now ≤ fd.tMs) (hd : fd.dir = .radio)
    (hfr : l.frame fd.dir fd.client b = some fr) (hok : (∃ q ∈ l.next, l.Answers fr fd.tMs q) ∨
      l.Unasked fr fd.tMs) :
    Tracks (byte fd l b) := by
  obtain ⟨src, heq⟩ := l.feed_frame fd hfr
  have hbyte : byte fd l b = { l.note fd.dir fd.client fr fd.tMs with a := l.a.feed fd.dir fd.client [b] fd.tMs, now := fd.tMs } := by
    unfold byte
    rw [hfr]
    rfl
  have hlive : ((l.a.begun fd.tMs).pend.filter fun p => pendLive p fd.tMs) = l.a.pend.filter fun p =>
    pendLive p fd.tMs := by
    rw [begun_pend]
  rw [hbyte, heq, hd]
  by_cases ha : ∃ q ∈ l.next, l.Answers fr fd.tMs q
  · obtain ⟨q, -, ha⟩ := ha
    have hnote : l.note .radio fd.client fr fd.tMs =
        { l with waiting := l.waiting.eraseP Sent.query, due := l.due ++ [⟨fr, some (q.own, q.client)⟩] } := by
      unfold note
      rw [if_pos rfl, ha.1, Option.filter_some, if_pos (decide_eq_true ha)]
    have hs : fr.dropLast ≠ [] := by
      intro hnil
      have hp := ha.2.1
      have hq : q.query = true := List.find?_some ha.1
      rw [hnil, Sent.pfx_of_query hq] at hp
      exact Sent.cmd_ne_nil hq hp.symm
    have htaken : (l.a.begun fd.tMs).taken fr fd.tMs = ({ l.a.begun fd.tMs with
        pend := (l.a.begun fd.tMs).pend.eraseP fun p => asks (prefixOf fr.dropLast) p && pendLive p fd.tMs },
        some (q.own, q.client)) := by
      unfold taken
      rw [if_neg hs]
      exact pendTake_query (by rw [hlive]; exact h.found hle ha)
    have herr : ¬isError fr.dropLast := by
      intro he
      have hq : q.query = true := List.find?_some ha.1
      have hp := ha.2.1
      have hlen : (prefixOf fr.dropLast).length = 1 := by
        unfold prefixOf
        rw [if_neg (by have := he.1; omega), List.length_take, he.1]
        rfl
      rw [hp, Sent.pfx_of_query hq] at hlen
      unfold Sent.query isQuery at hq
      simp [hlen] at hq
    obtain ⟨hpend, e, hout, htold⟩ := processFrame_radio herr
      (by rw [htaken]; exact begun_out)
    rw [hnote]
    constructor
    · show List.filter _ (processFrame _ _ _ _ _).pend = _
      rw [hpend, htaken, begun_pend]
      exact h.left hle ha
    · show List.Forall₂ Told (l.due ++ [_]) (heard (processFrame _ _ _ _ _).out)
      rw [hout]
      rw [htaken] at htold
      exact List.rel_append h.told (.cons htold .nil)
  · have hun := hok.resolve_left ha
    have hnote : l.note .radio fd.client fr fd.tMs = { l with due := l.due ++ [⟨fr, none⟩] } := by
      unfold note
      rw [if_pos rfl, Option.filter_eq_none_iff.2]
      intro q hmem hq
      exact ha ⟨q, hmem, of_decide_eq_true hq⟩
    have htaken : (l.a.begun fd.tMs).taken fr fd.tMs = (l.a.begun fd.tMs, none) := by
      unfold taken
      split_ifs
      · rfl
      · refine pendTake_unasked fun p hp hpl => ?_
        rw [begun_pend] at hp
        have hmem : p ∈ (l.waiting.filter (Sent.live fd.tMs)).map Sent.pending := by
          rw [← h.later hle]
          exact List.mem_filter.2 ⟨hp, hpl⟩
        obtain ⟨q, hq, rfl⟩ := List.mem_map.1 hmem
        obtain ⟨hq, hql⟩ := List.mem_filter.1 hq
        exact hun.2 q hq hql
    obtain ⟨hpend, e, hout, htold⟩ := processFrame_radio hun.1
      (by rw [htaken]; exact begun_out)
    rw [hnote]
    constructor
    · show List.filter _ (processFrame _ _ _ _ _).pend = _
      rw [hpend, htaken, begun_pend]
      exact h.later hle
    · show List.Forall₂ Told (l.due ++ [_]) (heard (processFrame _ _ _ _ _).out)
      rw [hout]
      rw [htaken] at htold
      exact List.rel_append h.told (.cons htold .nil)

theorem byte_command (h : Tracks l) (hle : l.now ≤ fd.tMs) (hd : fd.dir ≠ .radio)
    (hfr : l.frame fd.dir fd.client b = some fr)
    (hok : fr.dropLast = [] ∨ (l.waiting.filter (Sent.live fd.tMs)).length < PEND_MAX) : Tracks (byte fd l b) := by
  obtain ⟨src, heq⟩ := l.feed_frame fd hfr
  obtain ⟨hpend, hout⟩ := processFrame_command (a := l.a) (f := fr)
    (t := fd.tMs) hd
  have hbyte : byte fd l b = { l.note fd.dir fd.client fr fd.tMs with a := l.a.feed fd.dir fd.client [b] fd.tMs, now := fd.tMs } := by
    unfold byte
    rw [hfr]
    rfl
  have htold : List.Forall₂ Told l.due (heard (processFrame l.a fd.dir (if fd.dir = .host then fd.client else 0) fr fd.tMs).out) := by
    rw [hout]
    exact h.told
  rw [hbyte, heq]
  unfold note
  rw [if_neg hd]
  by_cases hs : fr.dropLast = []
  · rw [if_pos hs]
    refine ⟨?_, htold⟩
    show List.filter _ (processFrame _ _ _ _ _).pend = _
    rw [hpend, entered, if_pos hs, begun_pend]
    exact h.later hle
  · rw [if_neg hs]
    refine ⟨?_, htold⟩
    show List.filter _ (processFrame _ _ _ _ _).pend = _
    have hlater : ((l.a.begun fd.tMs).pend.filter fun p => pendLive p fd.tMs) =
        (l.waiting.filter (Sent.live fd.tMs)).map Sent.pending := by
      rw [begun_pend]
      exact h.later hle
    have hroom : ((l.a.begun fd.tMs).pend.filter fun p => pendLive p fd.tMs).length < PEND_MAX := by
      rw [hlater, List.length_map]
      exact hok.resolve_left hs
    have hnew : ∀ q : Sent, q.tMs = fd.tMs → q.live fd.tMs = true := by
      rintro q hq
      exact decide_eq_true (hq ▸ Nat.le_add_right _ _)
    rw [hpend, entered, if_neg hs, pendAdd_pend _ hroom, List.filter_append, filter_live_later (Nat.le_refl _),
      hlater,
      List.filter_append, List.map_append, List.filter_cons_of_pos (hnew _ rfl), List.filter_cons_of_pos]
    · rfl
    · exact hnew ⟨fr, fd.dir == .own, if fd.dir = .host then fd.client else 0, fd.tMs⟩ rfl

theorem byte_quiet (h : Tracks l) (hle : l.now ≤ fd.tMs) (hfr : l.frame fd.dir fd.client b = none) :
    Tracks (byte fd l b) := by
  obtain ⟨hpend, hout⟩ := l.feed_quiet fd hfr
  unfold byte
  rw [hfr]
  constructor
  · show List.filter _ (l.a.feed fd.dir fd.client [b] fd.tMs).pend = _
    rw [hpend]
    exact h.later hle
  · show List.Forall₂ Told l.due (heard (l.a.feed fd.dir fd.client [b] fd.tMs).out)
    rw [hout]
    exact h.told

theorem byte (h : Tracks l) (hok : ByteOk fd l b) : Tracks (byte fd l b) := by
  obtain ⟨hle, -, hok⟩ := hok
  rcases hfr : l.frame fd.dir fd.client b with _ | fr
  · exact h.byte_quiet hle hfr
  · have hfrok := hok fr hfr
    by_cases hd : fd.dir = .radio
    · rw [if_pos hd] at hfrok
      exact h.byte_radio hle hd hfr hfrok
    · rw [if_neg hd] at hfrok
      exact h.byte_command hle hd hfr hfrok

theorem step (h : Tracks l) (hok : l.StepOk fd) : Tracks (l.step fd) :=
  Run.run_inv_of_ok (fun _ _ h hok => h.byte hok) h hok

theorem init (dialect : Dialect) (noData : Bool) (st : CatState) :
    Tracks ⟨.create dialect noData st, 0, [], []⟩ := ⟨rfl, .nil⟩

end Tracks

end Line

/-- Each frame of the radio is tagged with the sender of the query it answers, or with nobody. -/
theorem answers_tagged (dialect : Dialect) (noData : Bool) (st : CatState) (fs : List Feed)
    (hok : Run.StepsOk Line.step Line.StepOk ⟨.create dialect noData st, 0, [], []⟩ fs) :
    List.Forall₂ Told (Line.runs dialect noData st fs).due (heard (Line.runs dialect noData st fs).a.out) :=
  (Run.run_inv_of_ok (fun _ _ h hok => Line.Tracks.step h hok) (Line.Tracks.init dialect noData st) hok).told

/-- Two clients and mhuxd ask for the frequency while a client sets it and the radio tells its mode. -/
def sharedLine : List Feed :=
  let fa := [0x46, 0x41, 0x3b]
  let answer := [0x46, 0x41, 0x30, 0x30, 0x30, 0x31, 0x34, 0x30, 0x37, 0x34, 0x30, 0x30, 0x30, 0x3b]
  [⟨.host, 1, fa, 0⟩, ⟨.host, 3, [0x46, 0x41], 5⟩, ⟨.own, 0, fa, 10⟩, ⟨.host, 3, [0x3b], 20⟩,
    ⟨.host, 1, answer, 30⟩, ⟨.radio, 0, answer ++ [0x4d, 0x44, 0x31, 0x3b], 40⟩, ⟨.radio, 0, answer ++ answer, 60⟩]

theorem answers_tagged_shared :
    List.Forall₂ Told (Line.runs .kenwood false .init sharedLine).due
        (heard (Line.runs .kenwood false .init sharedLine).a.out) ∧
      (Line.runs .kenwood false .init sharedLine).due.map Due.owner =
        [some (false, 1), none, some (true, 0), some (false, 3)] :=
  ⟨answers_tagged .kenwood false .init sharedLine (by decide +kernel), by decide +kernel⟩

end Ascii

end Mhuxd
