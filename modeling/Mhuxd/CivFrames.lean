import Mhuxd.CivFramer

/-!
# What the CI-V decoder does with a frame

A frame is judged by the decoder as it is once old commands are gone and the address may be learnt
(`judged`). `Settled` says what becomes of it: only a broadcast, the reply to a pending command or the
acknowledgement of a pending set changes the state.
-/

namespace Mhuxd

namespace Civ

variable {civ civ' : Civ} {dir : CatDir} {client t : Nat} {f : List UInt8}

/-! ### Frames that carry state -/

/-- Unless it is done nothing is changed. -/
def Changes (st : CatState) (r : CatState × Applied) : Prop := r.2 = .done ∨ r.1 = st

namespace Changes

variable {st st' : CatState} {r : Applied}

theorem same : Changes st (st, r) := .inr rfl

theorem done : Changes st (st', .done) := .inl rfl

end Changes

variable {st : CatState} {p : List UInt8} {n : Nat}

theorem changes_freq {slot : Vfo} : Changes st (applyFreq st n slot p t) := by
  unfold applyFreq
  split
  · exact .same
  · exact .done

theorem changes_mode {slot : Vfo} : Changes st (applyMode st slot p t) := by
  unfold applyMode
  split_ifs
  · exact .same
  · split
    · exact .same
    · exact .done

theorem changes_25 : Changes st (apply25 st n p t) := by
  unfold apply25
  split
  · exact .same
  · split_ifs
    · exact .same
    · exact changes_freq

theorem changes_26 : Changes st (apply26 st p t) := by
  unfold apply26
  split
  · exact .same
  · split
    · exact .done
    · exact .same

theorem changes_1a : Changes st (apply1a st p t) := by
  have h06 : Changes st (apply1a06 st p t) := by
    unfold apply1a06
    split_ifs
    · exact .same
    · split
      · exact .same
      · exact .done
  unfold apply1a
  split_ifs
  · exact h06
  · exact .same

theorem changes_0f : Changes st (apply0f st p t) := by
  unfold apply0f
  split
  · split_ifs
    · exact .done
    · exact .same
    · exact .same
  · exact .same

theorem changes_07 : Changes st (apply07 st p t) := by
  unfold apply07
  split
  · split
    · exact .done
    · exact .done
    · exact .done
    · exact .done
    · exact .same
  · exact .same

theorem changes_reply : Changes st (applyReply st n f t) := by
  unfold applyReply
  dsimp only
  split
  · exact changes_freq
  · exact changes_mode
  · exact changes_0f
  · exact changes_25
  · exact changes_26
  · exact changes_1a
  · exact .same

theorem changes_unsolicited : Changes st (applyUnsolicited st n f t) := by
  unfold applyUnsolicited
  dsimp only
  split
  · exact changes_freq
  · exact changes_mode
  · exact .same

theorem changes_set : Changes st (applySet st n f t) := by
  unfold applySet
  dsimp only
  split
  · exact changes_freq
  · exact changes_mode
  · exact changes_07
  · exact changes_0f
  · exact changes_25
  · exact changes_26
  · exact changes_1a
  · exact .same

/-! ### The judgement -/

/-- The decoder that judges a frame. -/
def judged (civ : Civ) (dir : CatDir) (f : List UInt8) (t : Nat) : Civ :=
  let civ := civ.pendExpire t
  if civ.radioAddr = 0 then civ.learnAddr dir f t else civ

/-- The judgement. -/
def settle (civ : Civ) (dir : CatDir) (client : Nat) (f : List UInt8) (t : Nat) : Civ :=
  if civ.radioAddr = 0 then civ.emit .foreign dir f false (dir == .own) client t
  else if dir = .radio then civ.processRadioFrame f t
  else if fTo f = civ.radioAddr ∧ fFrom f ≠ CIV_BCAST then
    (civ.pendAdd f dir client t).emit .cmd dir f false (dir == .own) client t
  else civ.emit .foreign dir f false (dir == .own) client t

theorem processFrame_eq (civ : Civ) : civ.processFrame dir client f t =
    { (civ.judged dir f t).settle dir client f t with last := f, lastDir := dir, lastClient := client } := rfl

/-- A frame of the radio to a controller. -/
def isAnswer (civ : Civ) (f : List UInt8) : Bool :=
  civ.radioAddr != 0 && fFrom f == civ.radioAddr && fTo f != civ.radioAddr && fTo f != CIV_BCAST

/-- The pending command that a frame of the radio is attributed to. -/
def answered (civ : Civ) (f : List UInt8) : Option CivPending :=
  if civ.isAnswer f then
    (if fCmd f = CIV_OK ∨ fCmd f = CIV_NG then civ.pendFindAck (fTo f) (fCmd f == CIV_OK) else civ.pendFindQuery f).bind
      fun i => civ.pend[i]?
  else none

/-- Why a frame of the radio may change the state. -/
inductive Cause (civ : Civ) (f : List UInt8) : FrameKind → Prop
  | broadcast (h : fTo f = CIV_BCAST) : Cause civ f .unsolicited
  | reply {p : CivPending} (hp : p ∈ civ.pend) (hctrl : fFrom p.buf = fTo f) (hcmd : fCmd p.buf = fCmd f)
    (hsub : hasSub (fCmd f) = true → fData p.buf ≠ [] ∧ fData f ≠ [] ∧ (fData p.buf).head? = (fData f).head?) :
    Cause civ f .reply
  | ack {p : CivPending} (hp : p ∈ civ.pend) (hctrl : fFrom p.buf = fTo f) (hset : isQuery p.buf = some false)
    (hok : fCmd f = CIV_OK) : Cause civ f .ack

/-- A command is added at the end, the oldest may be gone. -/
def Added (l l' : List CivPending) (p : CivPending) : Prop := ∃ l₀, l₀.Sublist l ∧ l' = l₀ ++ [p]

/-- What becomes of a frame. -/
structure Settled (dir : CatDir) (client : Nat) (f : List UInt8) (t : Nat) (civ civ' : Civ) : Prop where
  radioAddr : civ'.radioAddr = civ.radioAddr
  pend : Kept civ.pend civ'.pend ∨ ∃ p, Added civ.pend civ'.pend p ∧
    p.buf = f ∧ p.tMs = t ∧ p.own = (dir == .own) ∧ p.client = (if dir = .host then client else 0)
  unknown : civ.radioAddr = 0 → civ'.pend = civ.pend
  taken : dir = .radio → (civ.answered f).isSome = true → civ'.pend.length < civ.pend.length
  frame : ∃ e, civ'.out = civ.out ++ [e] ∧ e.frame.buf = f ∧ e.frame.dir = dir ∧
    ((civ'.st = civ.st ∧ e.frame.applied = false) ∨
      (dir = .radio ∧ civ.radioAddr ≠ 0 ∧ fFrom f = civ.radioAddr ∧ e.frame.applied = true ∧ Cause civ f e.frame.kind)) ∧
    (answerKind e.frame.kind = true → dir = .radio ∧ e.frame.tMs = t ∧
      e.frame.own = (civ.answered f).any (·.own) ∧ e.frame.client = ((civ.answered f).map (·.client)).getD 0 ∧
      (e.frame.kind = .reply → (civ.answered f).isSome = true))

theorem pendAdd_added (civ : Civ) (f : List UInt8) (dir : CatDir) (client t : Nat) :
    Added civ.pend (civ.pendAdd f dir client t).pend
      ⟨f, t, dir != .radio, dir == .radio, dir == .own, if dir = .host then client else 0, false, 0⟩ := by
  refine ⟨if civ.pend.length = PEND_MAX then civ.pend.tail else civ.pend, ?_, rfl⟩
  split_ifs
  · exact List.tail_sublist _
  · exact List.Sublist.refl _

theorem pendConsume_sublist (civ : Civ) (i : Nat) (p : CivPending) : (civ.pendConsume i p).pend.Sublist civ.pend := by
  have h : ((civ.pend.take (i + 1)).filter (fun q => !(fFrom q.buf == fFrom p.buf && q.client == p.client)) ++
      civ.pend.drop (i + 1)).Sublist (civ.pend.take (i + 1) ++ civ.pend.drop (i + 1)) :=
    List.filter_sublist.append (List.Sublist.refl _)
  rwa [List.take_append_drop] at h

theorem pendFindQuery_some {i : Nat} {p : CivPending} (h : civ.pendFindQuery f = some i) (hp : civ.pend[i]? = some p) :
    p ∈ civ.pend ∧ fFrom p.buf = fTo f ∧ fCmd p.buf = fCmd f ∧
      (hasSub (fCmd f) = true → fData p.buf ≠ [] ∧ fData f ≠ [] ∧ (fData p.buf).head? = (fData f).head?) := by
  obtain ⟨hlt, hq, -⟩ := List.findIdx?_eq_some_iff_getElem.1 h
  obtain ⟨hlt', rfl⟩ := List.getElem?_eq_some_iff.1 hp
  simp only [Bool.and_eq_true, beq_iff_eq, Bool.not_eq_true', bne_iff_ne] at hq
  refine ⟨List.getElem_mem hlt, hq.1.1.1, hq.1.1.2, fun hsub => ?_⟩
  have hdata := hq.1.2
  simp only [hsub, Bool.true_and, Bool.or_eq_false_iff, decide_eq_false_iff_not, Nat.lt_one_iff,
    List.length_eq_zero_iff, bne_eq_false_iff_eq] at hdata
  obtain ⟨⟨hp, hf⟩, heq⟩ := hdata
  refine ⟨hp, hf, ?_⟩
  obtain ⟨x, xs, hx⟩ := List.exists_cons_of_ne_nil hp
  obtain ⟨y, ys, hy⟩ := List.exists_cons_of_ne_nil hf
  rw [hx, hy] at heq ⊢
  exact congrArg some heq

theorem pendFindAck_some {ctrl : UInt8} {ok : Bool} {i : Nat} {p : CivPending} (h : civ.pendFindAck ctrl ok = some i)
    (hp : civ.pend[i]? = some p) : p ∈ civ.pend ∧ fFrom p.buf = ctrl := by
  obtain ⟨hlt, hq, -⟩ := List.findIdx?_eq_some_iff_getElem.1 h
  obtain ⟨hlt', rfl⟩ := List.getElem?_eq_some_iff.1 hp
  simp only [Bool.and_eq_true, beq_iff_eq] at hq
  exact ⟨List.getElem_mem hlt, hq.1⟩

/-- An answered command is gone. -/
theorem pendConsume_length {i : Nat} {p : CivPending} (hp : civ.pend[i]? = some p) :
    (civ.pendConsume i p).pend.length < civ.pend.length := by
  have hlt : i < civ.pend.length := (List.getElem?_eq_some_iff.1 hp).1
  have hmem : p ∈ civ.pend.take (i + 1) := by
    refine List.mem_iff_getElem?.2 ⟨i, ?_⟩
    rw [List.getElem?_take_of_lt (Nat.lt_succ_self i), hp]
  have hfilter := List.length_filter_lt_length_iff_exists
    (p := fun q => !(fFrom q.buf == fFrom p.buf && q.client == p.client)).2 ⟨p, hmem, by simp⟩
  have hsplit : civ.pend.length = (civ.pend.take (i + 1)).length + (civ.pend.drop (i + 1)).length := by
    rw [← List.length_append, List.take_append_drop]
  show (List.filter _ _ ++ _).length < _
  rw [List.length_append, hsplit]
  omega

theorem find_some {i : Nat} {g : CivPending → Bool} (h : civ.pend.findIdx? g = some i) : ∃ p, civ.pend[i]? = some p :=
  ⟨_, List.getElem?_eq_getElem (List.findIdx?_eq_some_iff_getElem.1 h).1⟩

/-- A frame that changes nothing. -/
theorem settled_emit {kind : FrameKind} {own : Bool} {c : Nat} (hno : dir = .radio → civ.isAnswer f = false)
    (hkind : answerKind kind = false) :
    Settled dir client f t civ (civ.emit kind dir f false own c t) where
  radioAddr := rfl
  pend := .inl .refl
  unknown := fun _ => rfl
  taken := fun hd ha => by
    rw [answered, if_neg (by simp [hno hd])] at ha
    exact absurd ha (by decide)
  frame := ⟨_, rfl, rfl, rfl, .inl ⟨rfl, rfl⟩, fun ha => absurd (ha.symm.trans hkind) (by decide)⟩

theorem changes_frame {r : CatState × Applied} (h : Changes civ.st r) {kind : FrameKind} (hra : civ.radioAddr ≠ 0)
    (hfrom : fFrom f = civ.radioAddr) (hcause : Cause civ f kind) {kind' : FrameKind}
    (hkind : r.2 = .done → kind' = kind) :
    (r.1 = civ.st ∧ (r.2 == Applied.done) = false) ∨
      (CatDir.radio = .radio ∧ civ.radioAddr ≠ 0 ∧ fFrom f = civ.radioAddr ∧ (r.2 == Applied.done) = true ∧
        Cause civ f kind') := by
  by_cases hd : r.2 = .done
  · right
    exact ⟨rfl, hra, hfrom, by simp [hd], (hkind hd) ▸ hcause⟩
  · left
    exact ⟨h.resolve_left hd, by simpa using hd⟩

theorem kindOr_done {r : Applied} {kind : FrameKind} (h : r = .done) : kindOr r kind = kind := by
  rw [h]
  rfl

theorem kindOr_ne {r : Applied} {kind other : FrameKind} (hbad : other ≠ .bad) (h : kind ≠ other) :
    kindOr r kind ≠ other := by
  unfold kindOr
  split_ifs
  · exact hbad.symm
  · exact h

theorem settled_broadcast (hra : civ.radioAddr ≠ 0) (hfrom : fFrom f = civ.radioAddr) (hto : fTo f = CIV_BCAST) :
    Settled .radio client f t civ (civ.processBroadcast f t) := by
  have hans : civ.answered f = none := by simp [answered, isAnswer, hto]
  refine ⟨rfl, .inl .refl, fun h => absurd h hra, fun _ ha => ?_, _, rfl, rfl, rfl, ?_, fun _ => ?_⟩
  · rw [hans] at ha
    exact absurd ha (by decide)
  · exact changes_frame changes_unsolicited hra hfrom (.broadcast hto) kindOr_done
  · rw [hans]
    exact ⟨rfl, rfl, rfl, rfl, fun hkind => absurd hkind (kindOr_ne (by decide) (by decide))⟩

theorem isAnswer_of (hra : civ.radioAddr ≠ 0) (hfrom : fFrom f = civ.radioAddr) (hto : fTo f ≠ civ.radioAddr)
    (hb : fTo f ≠ CIV_BCAST) : civ.isAnswer f = true := by
  simp only [isAnswer, Bool.and_eq_true, bne_iff_ne, beq_iff_eq]
  exact ⟨⟨⟨hra, hfrom⟩, hto⟩, hb⟩

/-- An answer that no command waits for goes on as nobody's. -/
theorem settled_unanswered {kind : FrameKind} (hra : civ.radioAddr ≠ 0) (hans : civ.answered f = none)
    (hkind : kind ≠ .reply) :
    Settled .radio client f t civ (civ.emit kind .radio f false false 0 t) := by
  refine ⟨rfl, .inl .refl, fun h => absurd h hra, fun _ h => ?_, _, rfl, rfl, rfl, .inl ⟨rfl, rfl⟩, fun _ => ?_⟩
  · exact absurd (hans ▸ h) (by decide)
  · rw [hans]
    exact ⟨rfl, rfl, rfl, rfl, fun hreply => absurd hreply hkind⟩

theorem settled_ack (hra : civ.radioAddr ≠ 0) (hfrom : fFrom f = civ.radioAddr) (ha : civ.isAnswer f = true)
    (hcmd : fCmd f = CIV_OK ∨ fCmd f = CIV_NG) : Settled .radio client f t civ (civ.processAck f t) := by
  unfold processAck
  dsimp only
  rcases hfind : civ.pendFindAck (fTo f) (fCmd f == CIV_OK) with _ | i
  · have hans : civ.answered f = none := by
      rw [answered, if_pos ha, if_pos hcmd, hfind]
      rfl
    refine settled_unanswered hra hans ?_
    split_ifs <;> decide
  · obtain ⟨p, hp⟩ := find_some hfind
    obtain ⟨hmem, hctrl⟩ := pendFindAck_some hfind hp
    simp only [hp]
    have hans : civ.answered f = some p := by
      rw [answered, if_pos ha, if_pos hcmd, hfind]
      exact hp
    refine ⟨rfl, .inl (.of_sublist (pendConsume_sublist { civ with st := _ } i p)), fun h => absurd h hra,
      fun _ _ => pendConsume_length hp, _, rfl, rfl, rfl, ?_, fun _ => ?_⟩
    · by_cases hset : (fCmd f == CIV_OK) = true ∧ isQuery p.buf = some false
      · rw [if_pos hset, if_pos hset.1]
        exact changes_frame changes_set hra hfrom (.ack hmem hctrl hset.2 (by simpa using hset.1)) fun _ => rfl
      · rw [if_neg hset]
        exact .inl ⟨rfl, rfl⟩
    · rw [hans]
      exact ⟨rfl, rfl, rfl, rfl, fun _ => rfl⟩

theorem settled_reply (hra : civ.radioAddr ≠ 0) (hfrom : fFrom f = civ.radioAddr) (ha : civ.isAnswer f = true)
    (hcmd : ¬(fCmd f = CIV_OK ∨ fCmd f = CIV_NG)) : Settled .radio client f t civ (civ.processReply f t) := by
  unfold processReply
  dsimp only
  rcases hfind : civ.pendFindQuery f with _ | i
  · have hans : civ.answered f = none := by
      rw [answered, if_pos ha, if_neg hcmd, hfind]
      rfl
    exact settled_unanswered hra hans (by decide)
  · obtain ⟨p, hp⟩ := find_some hfind
    obtain ⟨hmem, hctrl, hc, hsub⟩ := pendFindQuery_some hfind hp
    simp only [hp]
    have hans : civ.answered f = some p := by
      rw [answered, if_pos ha, if_neg hcmd, hfind]
      exact hp
    refine ⟨rfl, .inl (.of_sublist (civ.pendConsume_sublist i p)), fun h => absurd h hra,
      fun _ _ => pendConsume_length hp, _, rfl, rfl, rfl, ?_, fun _ => ?_⟩
    · exact changes_frame changes_reply hra hfrom (.reply hmem hctrl hc hsub) kindOr_done
    · rw [hans]
      exact ⟨rfl, rfl, rfl, rfl, fun _ => rfl⟩

theorem settled_echo (hra : civ.radioAddr ≠ 0) (hno : civ.isAnswer f = false) :
    Settled .radio client f t civ (civ.processEcho f t) := by
  have hnone : ∀ {q : Prop}, (civ.answered f).isSome = true → q := fun ha => by
    rw [answered, if_neg (by simp [hno])] at ha
    exact absurd ha (by decide)
  unfold processEcho
  rcases hfind : civ.pendFindEcho f with _ | i
  · refine ⟨rfl, .inr ⟨_, civ.pendAdd_added f .radio 0 t, rfl, rfl, rfl, rfl⟩, fun h => absurd h hra, fun _ ha => hnone ha,
      _, rfl, rfl, rfl, .inl ⟨rfl, rfl⟩, ?_⟩
    exact fun ha => absurd (show false = true from ha) (by decide)
  · obtain ⟨p, hp⟩ := find_some hfind
    simp only [hp]
    exact ⟨rfl, .inl (.of_modify fun _ => rfl), fun h => absurd h hra, fun _ ha => hnone ha, _, rfl, rfl, rfl,
      .inl ⟨rfl, rfl⟩, fun ha => absurd (show false = true from ha) (by decide)⟩

/-- What becomes of a frame, by the decoder that judges it. -/
theorem settle_settled (civ : Civ) : Settled dir client f t civ (civ.settle dir client f t) := by
  unfold settle
  by_cases hra : civ.radioAddr = 0
  · rw [if_pos hra]
    exact settled_emit (fun _ => by simp [isAnswer, hra]) rfl
  · rw [if_neg hra]
    split_ifs with hd hto
    · subst hd
      unfold processRadioFrame
      dsimp only
      split_ifs with hfrom hb hcmd hto
      · exact settled_broadcast hra hfrom.1 hb
      · exact settled_ack hra hfrom.1 (isAnswer_of hra hfrom.1 hfrom.2 hb) hcmd
      · exact settled_reply hra hfrom.1 (isAnswer_of hra hfrom.1 hfrom.2 hb) hcmd
      · exact settled_echo hra (by simp [isAnswer, hto.1])
      · refine settled_emit (fun _ => ?_) rfl
        simp only [isAnswer, Bool.and_eq_false_iff, bne_eq_false_iff_eq, beq_eq_false_iff_ne]
        by_contra h
        simp only [not_or, ne_eq, not_not] at h
        exact hfrom ⟨h.1.1.2, h.1.2⟩
    · refine ⟨rfl, .inr ⟨_, civ.pendAdd_added f dir client t, rfl, rfl, rfl, rfl⟩, fun h => absurd h hra,
        fun h => absurd h hd, _, rfl, rfl, rfl, .inl ⟨rfl, rfl⟩, ?_⟩
      exact fun ha => absurd (show false = true from ha) (by decide)
    · exact settled_emit (fun h => absurd h hd) rfl

end Civ

end Mhuxd
