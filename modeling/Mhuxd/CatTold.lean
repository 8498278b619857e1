import Mhuxd.CatFresh

/-!
# What the keyer is told of the radio

`Fresh` is an invariant of the steps that are `Sound`: the calls of the decoder that don't look at the frames applied
change nothing of what is told, the others start the publish timer when they do.
-/

namespace Mhuxd

/-! ### The calls of the decoder -/

namespace Ybin

variable {y z : Ybin} {t : Nat}

theorem applyCommand817_other {c : List UInt8} (h : cmdOp c ∉ [0x01, 0x07, 0x81, 0x02, 0x82]) (t : Nat) :
    y.applyCommand817 c t = (y, .none) := by
  simp only [List.mem_cons, List.not_mem_nil, or_false, not_or] at h
  unfold applyCommand817
  dsimp only
  rw [if_neg h.1, if_neg h.2.1, if_neg h.2.2.1, if_neg (not_or.2 h.2.2.2), ite_self]

theorem applyCommand_query (h : z.model = y.model) (t : Nat) : z.applyCommand y.query.1 t = (z, .none) := by
  unfold applyCommand query
  rw [h]
  cases y.model.fam with
  | f817 => exact applyCommand817_other (c := [0, 0, 0, 0, 0x03]) (by decide) t
  | f847 => exact applyCommand817_other (c := [0, 0, 0, 0, 0x03]) (by decide) t
  | _ => rfl

theorem query_length (y : Ybin) : y.query.1.length = YBIN_CMD_LEN := by
  unfold query
  cases y.model.fam <;> rfl

theorem Ready.of_still (h : y.Ready) (hstill : Still y z) : z.Ready := by
  refine ⟨?_, ?_⟩
  · rw [hstill.st]
    exact h.settled
  · rw [hstill.rx]
    exact h.own

/-- Only a framer is emptied. -/
theorem ready_rxExpire (h : y.Ready) (dir : CatDir) (client : Nat) (src : Src) (t : Nat) :
    (y.rxExpire dir client src t).Ready ∧ (y.rxExpire dir client src t).st = y.st := by
  unfold rxExpire
  dsimp only
  split_ifs
  · exact ⟨h, rfl⟩
  · refine ⟨⟨h.settled, ?_⟩, rfl⟩
    unfold setRx
    dsimp only
    by_cases hsrc : src = .own
    · rw [hsrc, Function.update_self]
    · rw [Function.update_of_ne (Ne.symm hsrc)]
      exact h.own

theorem ready_expire (h : y.Ready) (t : Nat) : (y.expire t).Ready ∧ (y.expire t).st = y.st := by
  have hclients (l : List Nat) : ∀ y : Ybin, y.Ready →
      (l.foldl (fun y c => y.rxExpire .host (c + 1) (.client (c + 1)) t) y).Ready ∧
        (l.foldl (fun y c => y.rxExpire .host (c + 1) (.client (c + 1)) t) y).st = y.st := by
    induction l with
    | nil => exact fun y h => ⟨h, rfl⟩
    | cons c l ih =>
      intro y h
      obtain ⟨hready, hst⟩ := ready_rxExpire h .host (c + 1) (.client (c + 1)) t
      obtain ⟨hlast, hstl⟩ := ih _ hready
      exact ⟨hlast, hstl.trans hst⟩
  obtain ⟨hready, hst⟩ := hclients (List.range CAT_MAX_CLIENTS) y h
  obtain ⟨hown, hsto⟩ := ready_rxExpire hready .own 0 .own t
  exact ⟨hown.of_still (still_pendExpire t), (still_pendExpire t).st.trans (hsto.trans hst)⟩

theorem ready_clientDiscard (h : y.Ready) (client : Nat) : (y.clientDiscard client).Ready ∧
    (y.clientDiscard client).st = y.st := by
  unfold clientDiscard
  split_ifs
  · dsimp only
    split
    · exact ⟨⟨h.settled, h.own⟩, rfl⟩
    · split_ifs
      · exact ⟨⟨h.settled, h.own⟩, rfl⟩
      · refine ⟨Ready.of_still ?_ (still_pendEnd _), (still_pendEnd _).st⟩
        exact ⟨h.settled, h.own⟩
  · exact ⟨h, rfl⟩

end Ybin

namespace Dec

variable {d d' : Dec} {t : Nat}

/-- The decoder between two calls of the layer. -/
def Ready : Dec → Prop
  | .civ _ => True
  | .ascii a => a.Ready
  | .ybin y => y.Ready

/-- A change of what is told was applied. -/
structure Follows (d d' : Dec) : Prop where
  ready : d'.Ready
  same : (∀ e ∈ d'.drain.2, e.frame.applied = false) → SameInfo d.st d'.st

/-- Nothing of what is told changes. -/
structure Quiet (d d' : Dec) : Prop where
  ready : d'.Ready
  same : SameInfo d.st d'.st

theorem Quiet.refl (h : d.Ready) : Quiet d d := ⟨h, .refl⟩

theorem drain_st (d : Dec) : d.drain.1.st = d.st := by cases d <;> rfl

theorem Ready.drain (h : d.Ready) : d.drain.1.Ready := by
  cases d with
  | civ c => trivial
  | ascii a => exact ⟨h.settled, h.own⟩
  | ybin y => exact ⟨h.settled, h.own⟩

theorem follows_host (h : d.Ready) (client : Nat) (data : List UInt8) (t : Nat) :
    Follows d (d.feed .host client data t) := by
  cases d with
  | civ c => exact ⟨trivial, (Civ.tells_feed data).same⟩
  | ascii a => exact ⟨(Ascii.tells_host h client data t).2, (Ascii.tells_host h client data t).1.same⟩
  | ybin y => exact ⟨(Ybin.tells_host h client data t).2, (Ybin.tells_host h client data t).1.same⟩

theorem follows_radio (h : d.Ready) {b : UInt8} (hwhole : ¬ d.Tears b t) : Follows d (d.feed .radio 0 [b] t) := by
  cases d with
  | civ c => exact ⟨trivial, (Civ.tells_feed [b]).same⟩
  | ascii a =>
    have htells := Ascii.tells_radio h hwhole t
    exact ⟨htells.2, htells.1.same⟩
  | ybin y =>
    have htells := Ybin.tells_radio (y := y) (u := b) h t fun p hp hlast hlen => not_not.1 fun hne =>
      hwhole ⟨p, hp, hlast, hlen, hne⟩
    exact ⟨htells.2, htells.1.same⟩

theorem quiet_own (h : d.Ready) (layer : Catn) (slot : Query) (t : Nat) :
    Quiet d (d.feed .own 0 ({ layer with dec := some d }.buildQuery slot).1 t) := by
  cases d with
  | civ c => exact ⟨trivial, .of_eq (Civ.feed_st (by decide) 0 _ t)⟩
  | ascii a =>
    obtain ⟨layer, hl⟩ : ∃ l, l = { layer with dec := some (.ascii a) } := ⟨_, rfl⟩
    have hbuild : (layer.buildQuery slot).1 = ((layer.asciiQuery slot).map Catn.ascii).getD [] := by
      rw [hl]
      rfl
    rw [← hl, hbuild]
    cases hq : layer.asciiQuery slot with
    | none => exact .refl h
    | some q =>
      obtain ⟨s, hs, hheld, htwo⟩ := Ascii.asciiQuery_two hq
      have hfeed := Ascii.own_feed h hheld htwo t
      rw [Option.map_some, Option.getD_some, hs]
      exact ⟨hfeed.2, hfeed.1⟩
  | ybin y =>
    have hfeed := Ybin.own_feed (t := t) h y.query_length fun z hz => Ybin.applyCommand_query hz t
    have hquery : Quiet (.ybin y) (.ybin (y.feed .own 0 y.query.1 t)) := ⟨hfeed.2, hfeed.1⟩
    have hnone : Quiet (.ybin y) (.ybin (y.feed .own 0 [] t)) := .refl h
    unfold Catn.buildQuery
    dsimp only
    split_ifs
    · exact hnone
    · exact hquery
    · exact hnone

theorem quiet_catOn {y : Ybin} (h : y.Ready) (t : Nat) : Quiet (.ybin y)
    (.ybin (y.feed .own 0 (y.catOn.getD []) t)) := by
  unfold Ybin.catOn
  split_ifs with hfam
  · have hfeed := Ybin.own_feed (c := [0, 0, 0, 0, 0]) (t := t) h rfl fun z hz => by
      unfold Ybin.applyCommand
      rw [hz, hfam]
      exact Ybin.applyCommand817_other (c := [0, 0, 0, 0, 0]) (by decide) t
    exact ⟨hfeed.2, hfeed.1⟩
  · exact .refl h

theorem quiet_discard (h : d.Ready) (client : Nat) : Quiet d (d.clientDiscard client) := by
  cases d with
  | civ c =>
    refine ⟨trivial, .of_eq ?_⟩
    show (c.clientDiscard client).st = c.st
    unfold Civ.clientDiscard
    split_ifs <;> rfl
  | ascii a =>
    show Quiet _ (.ascii (a.clientDiscard client))
    unfold Ascii.clientDiscard
    split_ifs
    · exact ⟨⟨h.settled, h.own⟩, .refl⟩
    · exact .refl h
  | ybin y => exact ⟨(Ybin.ready_clientDiscard h client).1, .of_eq (Ybin.ready_clientDiscard h client).2⟩

theorem quiet_expire (h : d.Ready) (t : Nat) : Quiet d (d.expire t) := by
  cases d with
  | civ c => exact .refl h
  | ascii a => exact .refl h
  | ybin y => exact ⟨(Ybin.ready_expire h t).1, .of_eq (Ybin.ready_expire h t).2⟩

theorem quiet_resend (h : d.Ready) (max t : Nat) : Quiet d (d.resend max t).1 := by
  cases d with
  | civ c => exact ⟨trivial, .refl⟩
  | ascii a => exact .refl h
  | ybin y => exact .refl h

/-- A decoder that was created knows nothing. -/
theorem ready_createDecoder {protocol : CatProto} {rigtype addr : Nat} {noData : Bool} {model : Option YbinModel}
    (h : Catn.createDecoder protocol rigtype addr noData model = some d) : d.Ready ∧ d.st = .init := by
  cases protocol with
  | none => cases h
  | ybin =>
    obtain ⟨m, -, rfl⟩ := Option.map_eq_some_iff.1 h
    exact ⟨⟨.inl rfl, rfl⟩, rfl⟩
  | civ =>
    obtain rfl := Option.some.inj h
    exact ⟨trivial, rfl⟩
  | _ =>
    obtain rfl := Option.some.inj h
    exact ⟨⟨.inl rfl, rfl⟩, rfl⟩

end Dec

/-! ### The publisher -/

namespace CatPub

variable {cn : CatPub}

theorem toRadioInfo_init (radio : UInt8) : CatState.init.toRadioInfo radio = none := rfl

theorem toRadioInfo_eq_none {st : CatState} (radio : UInt8) : st.toRadioInfo radio = none ↔ ¬ st.Tells := by
  unfold CatState.toRadioInfo
  split_ifs with h
  · exact iff_of_false (fun hno => by cases hno) (not_not.2 h)
  · exact iff_of_true rfl h

theorem info_eq_none : cn.info = none ↔ ¬ cn.st.Tells := Option.map_eq_none_iff.trans (toRadioInfo_eq_none cn.radio)

/-- The info is that of the radio's state and the wait for the data flag. -/
theorem info_congr {cn' : CatPub} (h : SameInfo cn.st cn'.st) (hradio : cn'.radio = cn.radio)
    (hwait : cn'.waiting = cn.waiting) : cn'.info = cn.info := by
  unfold info
  rw [hradio, h.told, hwait]

/-- With no publishing due the info told last is the present one, and the data flag isn't waited for. -/
structure Inv (cn : CatPub) : Prop where
  ready : ∀ d ∈ cn.dec, d.Ready
  fresh : cn.Fresh
  waited : cn.publishTimer = none → cn.lastInfo ≠ none → cn.st.waits = true →
    cn.dataUnknownSince ≠ 0 ∧ cn.dataUnknownSince + CATN_DATA_WAIT ≤ cn.now

/-- Nothing is published, and there is nothing to tell. -/
theorem Inv.of_init (hready : ∀ d ∈ cn.dec, d.Ready) (hst : cn.st = .init) (hlast : cn.lastInfo = none) :
    cn.Inv where
  ready := hready
  fresh _ := by
    rw [hlast, info_eq_none, hst]
    exact (toRadioInfo_eq_none 0).1 (toRadioInfo_init 0)
  waited _ hne := absurd hlast hne

/-- Publishing is due. -/
theorem Inv.of_timer {d : Nat} (hready : ∀ d ∈ cn.dec, d.Ready) (htimer : cn.publishTimer = some d) : cn.Inv where
  ready := hready
  fresh hnone := absurd (htimer.symm.trans hnone) (Option.some_ne_none d)
  waited hnone := absurd (htimer.symm.trans hnone) (Option.some_ne_none d)

theorem not_waiting (h : cn.st.waits = true → cn.dataUnknownSince ≠ 0 ∧
    cn.dataUnknownSince + CATN_DATA_WAIT ≤ cn.now) :
    cn.waiting = false := by
  unfold waiting since
  cases hwaits : cn.st.waits with
  | false => rfl
  | true =>
    obtain ⟨hne, hle⟩ := h hwaits
    rw [if_neg hne, Bool.true_and, decide_eq_false_iff_not]
    exact Nat.not_lt.2 hle

/-- What the invariant is about: the rest may change, and time may pass. -/
theorem Inv.kept {cn' : CatPub} (h : cn.Inv) (hready : ∀ d ∈ cn'.dec, d.Ready) (hst : SameInfo cn.st cn'.st)
    (hradio : cn'.radio = cn.radio) (hnow : cn.now ≤ cn'.now) (htimer : cn'.publishTimer = cn.publishTimer)
    (hsince : cn'.dataUnknownSince = cn.dataUnknownSince) (hlast : cn'.lastInfo = cn.lastInfo) : cn'.Inv := by
  have hwaited : cn'.publishTimer = none → cn'.lastInfo ≠ none → cn'.st.waits = true →
      cn'.dataUnknownSince ≠ 0 ∧ cn'.dataUnknownSince + CATN_DATA_WAIT ≤ cn'.now := by
    rw [htimer, hlast, hst.waits, hsince]
    intro hnone hne hwaits
    obtain ⟨hs, hle⟩ := h.waited hnone hne hwaits
    exact ⟨hs, Nat.le_trans hle hnow⟩
  refine ⟨hready, fun hnone => ?_, hwaited⟩
  have hold : cn.publishTimer = none := htimer.symm.trans hnone
  by_cases hno : cn.lastInfo = none
  · have hinfo := h.fresh hold
    rw [hno, info_eq_none, ← toRadioInfo_eq_none cn.radio] at hinfo
    rw [hlast, hno, info_eq_none, ← toRadioInfo_eq_none cn.radio, hst.told]
    exact hinfo
  · have hwait : cn'.waiting = false := not_waiting (hwaited hnone (by rwa [hlast]))
    rw [hlast, ← h.fresh hold]
    exact info_congr hst hradio (hwait.trans (not_waiting (h.waited hold hno)).symm)

/-- The rest of the struct has no part in it. -/
theorem Inv.rest (h : cn.Inv) (online radioSilent : Bool) (lastRadio : Nat) (keepaliveTimer : Option Nat)
    (told : List CatInfo) : ({ cn with
      online := online, radioSilent := radioSilent, lastRadio := lastRadio, keepaliveTimer := keepaliveTimer
      told := told } : CatPub).Inv :=
  h.kept h.ready .refl rfl (Nat.le_refl _) rfl rfl rfl

theorem Inv.call (h : cn.Inv) {f : Dec → Dec} (hquiet : ∀ d ∈ cn.dec, d.Quiet (f d)) : (cn.call f).Inv := by
  cases hdec : cn.dec with
  | none =>
    have hsame : cn.call f = cn := by
      unfold CatPub.call
      rw [hdec, Option.map_none, ← hdec]
    rw [hsame]
    exact h
  | some d =>
    have hq := hquiet d hdec
    have hafter : (cn.call f).dec = some (f d).drain.1 := congrArg (Option.map fun d => (f d).drain.1) hdec
    refine h.kept (fun d' hd => ?_) ?_ rfl (Nat.le_refl _) rfl rfl rfl
    · rw [hafter] at hd
      obtain rfl := Option.some.inj hd
      exact hq.ready.drain
    · unfold st
      rw [hafter, hdec]
      show SameInfo d.st (f d).drain.1.st
      rw [Dec.drain_st]
      exact hq.same

theorem publishSoon_eq (cn : CatPub) : ∃ d, cn.publishSoon = { cn with publishTimer := some d } := by
  unfold publishSoon
  cases htimer : cn.publishTimer with
  | none => exact ⟨_, rfl⟩
  | some d =>
    dsimp only
    split_ifs
    · exact ⟨_, rfl⟩
    · exact ⟨d, by rw [← htimer]⟩

theorem Inv.feed (h : cn.Inv) {dir : CatDir} {client : Nat} {data : List UInt8}
    (hfollows : ∀ d ∈ cn.dec, d.Follows (d.feed dir client data cn.tMs)) : (cn.feed dir client data).Inv := by
  unfold CatPub.feed
  cases hdec : cn.dec with
  | none => exact h
  | some d =>
    have hf := hfollows d hdec
    dsimp only
    generalize d.feed dir client data cn.tMs = d' at hf
    have hready : ∀ x ∈ some d'.drain.1, x.Ready := by
      intro x hx
      obtain rfl := Option.some.inj hx
      exact hf.ready.drain
    split_ifs with hany
    · obtain ⟨due, heq⟩ := publishSoon_eq { cn with dec := some d'.drain.1 }
      rw [heq]
      exact .of_timer hready rfl
    · have hnone : ∀ e ∈ d'.drain.2, e.frame.applied = false := by simpa using hany
      refine h.kept hready ?_ rfl (Nat.le_refl _) rfl rfl rfl
      unfold st
      rw [hdec]
      show SameInfo d.st d'.drain.1.st
      rw [Dec.drain_st]
      exact hf.same hnone

/-- Publishing, when the radio's state can be told or nothing was. -/
theorem inv_publish (hready : ∀ d ∈ cn.dec, d.Ready) (hsound : cn.lastInfo = none ∨ cn.st.Tells) :
    cn.publish.Inv := by
  unfold CatPub.publish
  cases hinfo : cn.info with
  | none =>
    have hlast : cn.lastInfo = none := hsound.resolve_right (info_eq_none.1 hinfo)
    exact ⟨hready, fun _ => hinfo.trans hlast.symm, fun _ hne => absurd hlast hne⟩
  | some i =>
    dsimp only
    by_cases hwait : cn.waiting = true
    · exact .of_timer hready (if_pos hwait)
    · have hsince : cn.st.waits = true → cn.since = cn.dataUnknownSince ∧ cn.dataUnknownSince ≠ 0 ∧
          cn.dataUnknownSince + CATN_DATA_WAIT ≤ cn.now := by
        intro hwaits
        have hge : cn.since + CATN_DATA_WAIT ≤ cn.now := by
          unfold waiting at hwait
          rw [hwaits, Bool.true_and, decide_eq_true_eq] at hwait
          exact Nat.le_of_not_lt hwait
        have hne : cn.dataUnknownSince ≠ 0 := by
          intro hzero
          have hnow : cn.since = cn.now := if_pos hzero
          rw [hnow] at hge
          exact absurd hge (Nat.not_le.2 (Nat.lt_add_of_pos_right (by decide)))
        have heq : cn.since = cn.dataUnknownSince := if_neg hne
        exact ⟨heq, hne, heq ▸ hge⟩
      have hwaited : cn.st.waits = true → (if cn.st.waits = true then cn.since else 0) ≠ 0 ∧
          (if cn.st.waits = true then cn.since else 0) + CATN_DATA_WAIT ≤ cn.now := by
        intro hwaits
        rw [if_pos hwaits, (hsince hwaits).1]
        exact (hsince hwaits).2
      refine ⟨hready, fun _ => ?_, fun _ _ => hwaited⟩
      rw [Bool.not_eq_true] at hwait
      show CatPub.info _ = some i
      rw [← hinfo]
      exact info_congr .refl rfl ((not_waiting hwaited).trans hwait.symm)

theorem inv_setup (cn : CatPub) (protocol : CatProto) (rigtype : Option Nat) (addr : Nat) :
    (cn.setupDecoder protocol rigtype addr).Inv := by
  have hnone : ({ cn with dec := none } : CatPub).reset.Inv := .of_init (fun d hd => by cases hd) rfl rfl
  unfold setupDecoder
  cases rigtype with
  | none => exact hnone
  | some rig =>
    dsimp only
    generalize hdec : Catn.createDecoder (if protocol = .auto then (protocolOfRig rig).1 else protocol) rig addr
      (protocolOfRig rig).2.1 (protocolOfRig rig).2.2 = dec
    cases dec with
    | none => exact hnone
    | some d =>
      obtain ⟨hready, hst⟩ := Dec.ready_createDecoder hdec
      refine .of_init (fun d' hd => ?_) hst rfl
      obtain rfl := Option.some.inj hd
      exact hready

/-- The keep-alive tells the info published last, if anything. -/
theorem keepaliveCb_eq (cn : CatPub) : ∃ silent told, cn.keepaliveCb =
    { cn with radioSilent := silent, told := cn.told ++ told } ∧
    ∀ i ∈ told, cn.lastInfo = some i := by
  have hnone : cn = { cn with radioSilent := cn.radioSilent, told := cn.told ++ [] } := by rw [List.append_nil]
  unfold keepaliveCb
  split
  · exact ⟨cn.radioSilent, [], hnone, fun i hi => by cases hi⟩
  · next i hlast =>
    split_ifs
    · exact ⟨true, [], by rw [List.append_nil], fun i hi => by cases hi⟩
    · refine ⟨cn.radioSilent, [i], rfl, fun j hj => ?_⟩
      rw [List.mem_singleton.1 hj]
      exact hlast

theorem keepalive_eq (cn : CatPub) : ∃ silent timer told, cn.step .keepalive =
    { cn with radioSilent := silent, keepaliveTimer := timer, told := cn.told ++ told } ∧
    ∀ i ∈ told, cn.lastInfo = some i := by
  show ∃ silent timer told, (if cn.due cn.keepaliveTimer then
    { cn with
      keepaliveTimer := cn.keepaliveTimer.map fun d => max (d + CATN_KEEPALIVE) cn.now }.keepaliveCb else cn) = _ ∧ _
  split_ifs
  · obtain ⟨silent, told, heq, htold⟩ := keepaliveCb_eq
      { cn with keepaliveTimer := cn.keepaliveTimer.map fun d => max (d + CATN_KEEPALIVE) cn.now }
    exact ⟨silent, _, told, heq, htold⟩
  · exact ⟨cn.radioSilent, cn.keepaliveTimer, [], by rw [List.append_nil], fun i hi => by cases hi⟩

theorem Inv.step (h : cn.Inv) {e : PubEv} (hok : cn.Sound e) : (cn.step e).Inv := by
  cases e with
  | wait dt => exact h.kept h.ready .refl rfl (Nat.le_add_right _ _) rfl rfl rfl
  | keyerState online => exact .of_init (fun d hd => by cases hd) rfl rfl
  | setup protocol rigtype addr => exact inv_setup cn protocol rigtype addr
  | radio b =>
    have hmark := h.rest cn.online false cn.now cn.keepaliveTimer cn.told
    exact hmark.feed fun d hd => Dec.follows_radio (h.ready d hd) (hok d hd)
  | host client data => exact h.feed fun d hd => Dec.follows_host (h.ready d hd) client data _
  | own layer slot => exact h.call fun d hd => Dec.quiet_own (h.ready d hd) layer slot _
  | catOn =>
    rw [CatPub.step]
    split
    · next y hdec =>
      refine h.call fun d hd => ?_
      obtain rfl := Option.some.inj (hdec.symm.trans hd)
      exact Dec.quiet_catOn (h.ready _ hd) _
    · exact h
  | discard client => exact h.call fun d hd => Dec.quiet_discard (h.ready d hd) client
  | expire => exact h.call fun d hd => Dec.quiet_expire (h.ready d hd) _
  | resend => exact h.call fun d hd => Dec.quiet_resend (h.ready d hd) _ _
  | publish =>
    show Inv (if cn.due cn.publishTimer then { cn with publishTimer := none }.publish else cn)
    split_ifs with hdue
    · exact inv_publish h.ready (hok hdue)
    · exact h
  | keepalive =>
    obtain ⟨silent, timer, told, heq, -⟩ := keepalive_eq cn
    rw [heq]
    exact h.rest cn.online silent cn.lastRadio timer _

end CatPub

end Mhuxd
