import Mhuxd.CatYbin
import Mhuxd.Lib.Run

/-!
# What a byte does to the decoder of the older Yaesu radios

A command or an answer is noted in the radio's state alone (`Noted`); the rest is the list of commands
that wait for their answers. The calls of the decoder are cut into bytes.
-/

namespace Mhuxd

/-! ### Calls -/

/-- A call of `cat_ybin_feed` or `cat_ybin_expire`. -/
inductive YbinCall
  | feed (f : Feed) | expire (t : Nat)

/-- A byte of a call, or a call without. -/
inductive YbinEvent
  | byte (dir : CatDir) (client : Nat) (b : UInt8) (t : Nat) | expire (t : Nat)

def YbinCall.events : YbinCall → List YbinEvent
  | feed f => f.buf.map fun b => .byte f.dir f.client b f.tMs
  | expire t => [.expire t]

namespace Ybin

def call (y : Ybin) : YbinCall → Ybin
  | .feed f => y.feed f.dir f.client f.buf f.tMs
  | .expire t => y.expire t

def event (y : Ybin) : YbinEvent → Ybin
  | .byte dir client b t => y.feed dir client [b] t
  | .expire t => y.expire t

variable {y y' b : Ybin} {dir : CatDir} {client t : Nat} {src : Src} {p : YbinPending}

theorem feed_nil (y : Ybin) (dir : CatDir) (client t : Nat) : y.feed dir client [] t = y := by
  unfold feed
  cases Src.of dir client with
  | none => rfl
  | some src => cases src <;> rfl

theorem feed_cons (y : Ybin) (dir : CatDir) (client : Nat) (b : UInt8) (buf : List UInt8) (t : Nat) :
    y.feed dir client (b :: buf) t = (y.feed dir client [b] t).feed dir client buf t := by
  unfold feed
  cases Src.of dir client with
  | none => rfl
  | some src => cases src <;> rfl

theorem call_events (y : Ybin) (c : YbinCall) : y.call c = Run.run event y c.events := by
  cases c with
  | expire t => rfl
  | feed f =>
    obtain ⟨dir, client, buf, t⟩ := f
    show y.feed dir client buf t = Run.run event y (buf.map fun b => .byte dir client b t)
    induction buf generalizing y with
    | nil => exact feed_nil y dir client t
    | cons b buf ih =>
      rw [feed_cons, List.map_cons, Run.run_cons]
      exact ih _

/-- Calls, byte by byte. -/
theorem calls_events (y : Ybin) (cs : List YbinCall) : Run.run call y cs =
    Run.run event y (cs.flatMap YbinCall.events) := by
  induction cs generalizing y with
  | nil => rfl
  | cons c cs ih => rw [List.flatMap_cons, Run.run_append, Run.run_cons, ih, call_events]

/-! ### What is noted -/

/-- What a command or an answer says is noted in the radio's state; a VFO that's known stays known. -/
def Noted (y y' : Ybin) : Prop := ∃ st, y' = { y with st := st } ∧
    (y.st.vfoAb.valid = true → st.vfoAb.valid = true)

theorem Noted.refl : Noted y y := ⟨y.st, rfl, id⟩

theorem Noted.trans (h : Noted y b) (h' : Noted b y') : Noted y y' := by
  obtain ⟨st, rfl, hv⟩ := h
  obtain ⟨st', rfl, hv'⟩ := h'
  exact ⟨st', rfl, fun h => hv' (hv h)⟩

theorem Noted.ite {x z : Ybin × Applied} {q : Prop} [Decidable q] (hx : Noted y x.1) (hz : Noted y z.1) :
    Noted y (if q then x else z).1 := by
  split_ifs
  · exact hx
  · exact hz

theorem setFreq_vfoAb (st : CatState) (slot : Vfo) (hz t : Nat) : (st.setFreq slot hz t).vfoAb = st.vfoAb := by
  cases slot <;> rfl

theorem setData_vfoAb (st : CatState) (slot : Vfo) (data : Bool) (t : Nat) :
    (st.setData slot data t).vfoAb = st.vfoAb := by
  cases slot <;> rfl

theorem setMode_vfoAb (st : CatState) (slot : Vfo) (mode : CatMode) (t : Nat) :
    (st.setMode slot mode t).vfoAb = st.vfoAb := by
  have hset : ∀ (v : VfoState) (n : Nat), ({ st.setVfo slot v with changes := n } : CatState).vfoAb =
    st.vfoAb := by
    intro v n
    cases slot <;> rfl
  unfold CatState.setMode
  by_cases hm : mode = .none
  · rw [if_pos hm]
  · rw [if_neg hm]
    dsimp only
    by_cases hd : mode.withoutData.2 = true
    · rw [if_pos hd, setData_vfoAb]
      exact hset _ _
    · rw [if_neg hd]
      exact hset _ _

theorem noted_setFreq (ab : Option Bool) (hz : Nat) : Noted y (y.setFreq ab hz t) :=
  ⟨_, rfl, fun h => by rw [setFreq_vfoAb]; exact h⟩

theorem noted_setMode (ab : Option Bool) (mode : CatMode) : Noted y (y.setMode ab mode t) := by
  refine ⟨_, rfl, fun h => ?_⟩
  split_ifs
  · rw [setData_vfoAb, setMode_vfoAb]
    exact h
  · rw [setMode_vfoAb]
    exact h

theorem noted_selectVfo (ab : Bool) : Noted y (y.selectVfo ab t) := ⟨_, rfl, fun _ => rfl⟩

theorem noted_setSplit (split : Bool) : Noted y (y.setSplit split t) := ⟨_, rfl, id⟩

theorem noted_recApply (ab : Option Bool) (a : List UInt8) (r : Rec) : Noted y (y.recApply ab a r t).1 := by
  unfold recApply
  split
  · exact .refl
  · exact .ite .refl ((noted_setFreq _ _).trans (noted_setMode _ _))

theorem noted_recApply2 (ab ab' : Option Bool) (a a' : List UInt8) (r r' : Rec) :
    Noted y (y.recApply2 ab a r ab' a' r' t).1 := by
  have h := noted_recApply (y := y) (t := t) ab a r
  unfold recApply2
  exact .ite h (h.trans (noted_recApply _ _ _))

theorem noted_applyEeprom (addr : Nat) (v : UInt8) : Noted y (y.applyEeprom addr v t).1 :=
  .ite .refl (.ite (noted_selectVfo _) (.ite (noted_setSplit _) .refl))

theorem noted_applyAnswer817 (c a : List UInt8) : Noted y (y.applyAnswer817 c a t).1 := by
  unfold applyAnswer817
  dsimp only
  refine .ite (noted_applyEeprom _ _) (.ite .refl ?_)
  split
  · exact .refl
  · exact .ite .refl ((noted_setFreq _ _).trans (noted_setMode _ _))

theorem noted_applyAnswer757 (c a : List UInt8) : Noted y (y.applyAnswer757 c a t).1 := by
  have hsel : Noted y (if bit (a.getD 0 0) 0x10 then y else y.selectVfo (bit (a.getD 0 0) 0x08) t) := by
    split_ifs
    · exact .refl
    · exact noted_selectVfo _
  have hrec := hsel.trans (noted_recApply none a ⟨5, 9, 0⟩ (t := t))
  unfold applyAnswer757
  exact .ite .refl (.ite hrec (hrec.trans (noted_recApply2 ..)))

theorem noted_applyFlags (flags : UInt8) : Noted y (y.applyFlags flags t).1 := by
  have hsel : Noted y (if bit flags 0x80 then y.selectVfo (bit flags 0x40) t else y) := by
    split_ifs
    · exact noted_selectVfo _
    · exact .refl
  unfold applyFlags
  split
  · exact (noted_selectVfo _).trans (noted_setSplit _)
  · exact (noted_selectVfo _).trans (noted_setSplit _)
  · exact noted_setSplit _
  · exact (noted_selectVfo _).trans (noted_setSplit _)
  · exact hsel.trans (noted_setSplit _)
  · exact .refl

theorem noted_applyAnswer (c a : List UInt8) : Noted y (y.applyAnswer c a t).1 := by
  have hrec : ∀ u, Noted y (y.applyRecords u a t).1 := by
    intro u
    unfold applyRecords
    split
    · exact .ite (noted_recApply ..) (noted_recApply2 ..)
    · exact noted_recApply2 ..
    · exact .ite (noted_recApply ..) (noted_recApply2 ..)
  unfold applyAnswer
  split
  · exact noted_applyAnswer817 c a
  · exact noted_applyAnswer817 c a
  · exact noted_applyAnswer757 c a
  · exact .ite (noted_applyFlags _) (.ite .refl (hrec _))

theorem noted_applyCommand817 (c : List UInt8) : Noted y (y.applyCommand817 c t).1 := by
  unfold applyCommand817
  dsimp only
  refine .ite ?_ (.ite ?_ (.ite .refl (.ite (noted_selectVfo _) (.ite (noted_setSplit _) .refl))))
  · split
    · exact .refl
    · exact .ite .refl (noted_setFreq _ _)
  · exact .ite .refl (noted_setMode _ _)

theorem noted_applyCommand (c : List UInt8) : Noted y (y.applyCommand c t).1 := by
  have hfreq : Noted y (y.applySetFreq c t).1 := by
    unfold applySetFreq
    dsimp only
    refine .ite .refl ?_
    split
    · exact .refl
    · exact .ite .refl (noted_setFreq _ _)
  unfold applyCommand
  split
  · exact noted_applyCommand817 c
  · exact noted_applyCommand817 c
  · split
    · exact hfreq
    · exact hfreq
    · exact .ite .refl (noted_setMode _ _)
    · exact .ite .refl (noted_selectVfo _)
    · exact .refl

/-- The VFO is taken to be A if it isn't known. -/
theorem noted_vfo : Noted y (if y.st.vfoAb.valid then y else y.selectVfo false t) := by
  split_ifs
  · exact .refl
  · exact noted_selectVfo _

/-! ### What is read

The functions that read a command or an answer look at the model and the radio's state alone. -/

section
variable {z : Ybin}

/-- `z` with the model and the radio's state of `y`. -/
def onto (y z : Ybin) : Ybin := { z with model := y.model, st := y.st }

/-- Only the model and the radio's state have a part in what `f` does. -/
def Blind (f : Ybin → Ybin × Applied) : Prop := ∀ y z, f (y.onto z) = ((f y).1.onto z, (f y).2)

theorem ite_onto {a a' c c' : Ybin × Applied} {q : Prop} [Decidable q] (ha : a = (a'.1.onto z, a'.2))
    (hc : c = (c'.1.onto z, c'.2)) : (if q then a else c) = ((if q then a' else c').1.onto z,
      (if q then a' else c').2) := by
  split_ifs
  · exact ha
  · exact hc

theorem blind_recApply (ab : Option Bool) (a : List UInt8) (r : Rec) : Blind fun y => y.recApply ab a r t := by
  intro y z
  have hm : (y.onto z).model = y.model := rfl
  dsimp only
  unfold recApply
  rw [hm]
  cases recHz y.model.fam a r with
  | none => rfl
  | some hz => exact ite_onto rfl rfl

theorem blind_recApply2 (ab ab' : Option Bool) (a a' : List UInt8) (r r' : Rec) :
    Blind fun y => y.recApply2 ab a r ab' a' r' t := by
  intro y z
  have h := blind_recApply (t := t) ab a r y z
  dsimp only at h ⊢
  unfold recApply2
  rw [h]
  exact ite_onto rfl (blind_recApply (t := t) ab' a' r' _ z)

theorem blind_applyEeprom (addr : Nat) (v : UInt8) : Blind fun y => y.applyEeprom addr v t :=
  fun _ _ => ite_onto rfl (ite_onto rfl (ite_onto rfl rfl))

theorem blind_applyAnswer817 (c a : List UInt8) : Blind fun y => y.applyAnswer817 c a t := by
  intro y z
  have hm : (y.onto z).model = y.model := rfl
  dsimp only
  unfold applyAnswer817
  rw [hm]
  refine ite_onto (blind_applyEeprom _ _ y z) (ite_onto rfl ?_)
  cases decBcd (a.take 4) true with
  | none => rfl
  | some hz => exact ite_onto rfl rfl

theorem blind_applyAnswer757 (c a : List UInt8) : Blind fun y => y.applyAnswer757 c a t := by
  intro y z
  have hsel : (if bit (a.getD 0 0) 0x10 then y.onto z else (y.onto z).selectVfo (bit (a.getD 0 0) 0x08) t) =
      (if bit (a.getD 0 0) 0x10 then y else y.selectVfo (bit (a.getD 0 0) 0x08) t).onto z := by
    split_ifs <;> rfl
  have hrec := blind_recApply (t := t) none a ⟨5, 9, 0⟩ (if bit (a.getD 0 0) 0x10 then y else y.selectVfo (bit (a.getD 0 0) 0x08) t) z
  dsimp only at hrec ⊢
  unfold applyAnswer757
  dsimp only
  rw [hsel, hrec]
  exact ite_onto rfl (ite_onto rfl (blind_recApply2 (t := t) (some false) (some true) a a ⟨10, 14, 0⟩
    ⟨15, 19, 0⟩ _ z))

theorem blind_applyFlags (flags : UInt8) : Blind fun y => y.applyFlags flags t := by
  intro y z
  have hm : (y.onto z).model = y.model := rfl
  have hsel : (if bit flags 0x80 then (y.onto z).selectVfo (bit flags 0x40) t else y.onto z) =
      (if bit flags 0x80 then y.selectVfo (bit flags 0x40) t else y).onto z := by
    split_ifs <;> rfl
  dsimp only
  unfold applyFlags
  dsimp only
  rw [hm, hsel]
  cases y.model.fam <;> rfl

theorem blind_applyAnswer (c a : List UInt8) : Blind fun y => y.applyAnswer c a t := by
  intro y z
  have hm : (y.onto z).model = y.model := rfl
  have hrec : ∀ u, (y.onto z).applyRecords u a t = ((y.applyRecords u a t).1.onto z,
    (y.applyRecords u a t).2) := by
    intro u
    unfold applyRecords
    rw [hm]
    cases y.model.fam with
    | f900 => exact ite_onto (blind_recApply _ _ _ y z) (blind_recApply2 _ _ _ _ _ _ y z)
    | f920 => exact blind_recApply2 _ _ _ _ _ _ y z
    | _ => exact ite_onto (blind_recApply _ _ _ y z) (blind_recApply2 _ _ _ _ _ _ y z)
  dsimp only
  unfold applyAnswer
  rw [hm]
  cases y.model.fam with
  | f817 => exact blind_applyAnswer817 c a y z
  | f847 => exact blind_applyAnswer817 c a y z
  | f757 => exact blind_applyAnswer757 c a y z
  | _ => exact ite_onto (blind_applyFlags _ y z) (ite_onto rfl (hrec _))

theorem blind_applyCommand817 (c : List UInt8) : Blind fun y => y.applyCommand817 c t := by
  intro y z
  have hm : (y.onto z).model = y.model := rfl
  dsimp only
  unfold applyCommand817
  dsimp only
  rw [hm]
  refine ite_onto ?_ (ite_onto ?_ (ite_onto rfl (ite_onto rfl (ite_onto rfl rfl))))
  · cases decBcd (c.take 4) true with
    | none => rfl
    | some hz => exact ite_onto rfl rfl
  · exact ite_onto rfl rfl

theorem blind_applyCommand (c : List UInt8) : Blind fun y => y.applyCommand c t := by
  intro y z
  have hm : (y.onto z).model = y.model := rfl
  have hfreq : (y.onto z).applySetFreq c t = ((y.applySetFreq c t).1.onto z, (y.applySetFreq c t).2) := by
    unfold applySetFreq
    dsimp only
    rw [hm]
    refine ite_onto rfl ?_
    cases decBcd (c.take 4) false with
    | none => rfl
    | some hz => exact ite_onto rfl rfl
  dsimp only
  unfold applyCommand
  rw [hm]
  split
  · exact blind_applyCommand817 c y z
  · exact blind_applyCommand817 c y z
  · split
    · exact hfreq
    · exact hfreq
    · exact ite_onto rfl rfl
    · exact ite_onto rfl rfl
    · rfl

/-- With the same model and state the same is noted. -/
theorem Blind.noted {f : Ybin → Ybin × Applied} (hf : Blind f) (hn : Noted y (f y).1) (hm : z.model = y.model)
    (hs : z.st = y.st) :
    f z = ({ z with st := (f y).1.st }, (f y).2) := by
  obtain ⟨st, hst, -⟩ := hn
  have hz : y.onto z = z := by
    unfold onto
    rw [← hm, ← hs]
  have h := hf y z
  rw [hz] at h
  rw [h, hst]
  unfold onto
  rw [← hm]

end

/-! ### Commands and answers -/

theorem dueFrom_mem {l : List YbinPending} {q : YbinPending} (h : q ∈ dueFrom t l) :
    ∃ p ∈ l, q.client = p.client ∧ q.own = p.own ∧ q.got = p.got ∧ q.tLast = p.tLast := by
  cases l with
  | nil => exact absurd h List.not_mem_nil
  | cons p l =>
    rcases List.mem_cons.1 h with rfl | h
    · refine ⟨p, List.mem_cons_self, ?_⟩
      split_ifs <;> exact ⟨rfl, rfl, rfl, rfl⟩
    · exact ⟨q, List.mem_cons_of_mem _ h, rfl, rfl, rfl, rfl⟩

/-- The first command is answered. -/
def answered (y : Ybin) (st : CatState) (t : Nat) : Ybin :=
  { y with
    pend := dueFrom t (y.pend.eraseIdx 0)
    ans := []
    st := st }

/-- What `answer_done` does: the command is gone, and what came of its answer is a frame. -/
theorem answerDone_eq (y : Ybin) (p : YbinPending) (complete : Bool) (t : Nat) :
    ∃ st kind applied, (y.st.vfoAb.valid = true → st.vfoAb.valid = true) ∧ y.answerDone p complete t =
      if y.ans = [] then y.answered st t
      else (y.answered st t).emit kind .radio y.ans applied p.own p.client (if complete then t else p.tLast) := by
  unfold answerDone
  dsimp only
  cases complete with
  | false =>
    rw [if_pos rfl]
    exact ⟨_, _, _, id, rfl⟩
  | true =>
    rw [if_neg Bool.false_ne_true.symm]
    by_cases hlen : YBIN_MAX_FRAME < p.len
    · rw [if_pos hlen]
      exact ⟨_, _, _, id, rfl⟩
    · rw [if_neg hlen]
      obtain ⟨st, hst, hv⟩ := noted_applyAnswer (y := { y.pendRemove 0 with pend := dueFrom t (y.pendRemove 0).pend }) (t := t)
        p.cmd y.ans
      rw [hst]
      exact ⟨_, _, _, hv, rfl⟩

/-- A pacing command sets the pause between the bytes. -/
def paced (y : Ybin) (c : List UInt8) : Ybin :=
  if cmdOp c = 0x0e ∧ hasPacing y.model then { y with pacingMs := cmdU c } else y

/-- The line is kept after a command without answer. -/
def kept (y : Ybin) (own : Bool) (client t : Nat) : Ybin :=
  { y with hold := Function.update y.hold (if own then 0 else client) (y.holdUntil t) }

/-- What of the earlier commands is left when a command comes. -/
def ready (y : Ybin) (c : List UInt8) (t : Nat) : Ybin :=
  ((((if y.st.vfoAb.valid then y else y.selectVfo false t).pendExpire t).pendGiveup t).paced c)

/-- The command waits for its answer, or the line is kept. -/
def taken (y : Ybin) (c : List UInt8) (own : Bool) (client t : Nat) : Ybin :=
  if (answerLen y.model c).1 ≠ 0 then (y.ready c t).pendAdd c (answerLen y.model c) own client t
  else (y.ready c t).kept own client t

theorem command_eq (y : Ybin) (dir : CatDir) (client : Nat) (c : List UInt8) (t : Nat) :
    ∃ st kind applied, y.command dir client c t =
      ({ y.taken c (dir == .own) client t with st := st } : Ybin).emit kind dir c applied (dir == .own) client t := by
  obtain ⟨st, hst, -⟩ := noted_applyCommand (y := y.taken c (dir == .own) client t) (t := t) c
  refine ⟨st, if ((y.taken c (dir == .own) client t).applyCommand c t).2 = .bad then .bad else .cmd,
    ((y.taken c (dir == .own) client t).applyCommand c t).2 == Applied.done, ?_⟩
  rw [← hst]
  rfl

/-! ### The list of commands -/

theorem pendLive_congr (h : y'.pacingMs = y.pacingMs) (p : YbinPending) (t : Nat) :
    y'.pendLive p t = y.pendLive p t := by
  unfold pendLive byteGap
  rw [h]

theorem pendExpire_of_live (h : ∀ p ∈ y.pend.head?, y.pendLive p t = true) : y.pendExpire t = y := by
  unfold pendExpire
  cases hpend : y.pend with
  | nil => rfl
  | cons p ps =>
    rw [hpend] at h
    rw [List.length_cons, expireLoop, hpend]
    exact if_pos (h p rfl)

theorem pendGiveup_of_fresh (h : ∀ p ∈ y.pend.head?, p.got = 0 → t ≤ p.tMs + GIVEUP_MS) : y.pendGiveup t = y := by
  unfold pendGiveup
  cases hpend : y.pend with
  | nil => rfl
  | cons p ps =>
    rw [hpend] at h
    rw [List.length_cons, giveupLoop, hpend]
    refine if_neg ?_
    rintro ⟨hgot, hlt⟩
    have := h p rfl hgot
    omega

/-- What a command says is noted after all else. -/
theorem command_applied (y : Ybin) (dir : CatDir) (client : Nat) (c : List UInt8) (t : Nat) :
    y.command dir client c t = ((y.taken c (dir == .own) client t).applyCommand c t).1.emit
      (if ((y.taken c (dir == .own) client t).applyCommand c t).2 = .bad then .bad else .cmd) dir c
      (((y.taken c (dir == .own) client t).applyCommand c t).2 == Applied.done) (dir == .own) client t := rfl

end Ybin

end Mhuxd
