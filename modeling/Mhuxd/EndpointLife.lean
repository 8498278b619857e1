import Mhuxd.Endpoints

/-!
# An end of the router's is closed once

`Kept P` is what every function leaves: an end handed over is a producer and a consumer of one channel, or
it was closed once and no descriptor stands for it; `P` says which tags there may be where. While a connector
is created its ends are there before it is in the list, so `P` grows with it.
-/

namespace Mhuxd

/-- Where a connector's endpoints may be. -/
def EndCon.At (c : EndCon) (k : Nat × Channel) (fd : Nat) : Prop :=
  k.1 = c.dev ∧ ((k.2 = c.channel ∧ fd = c.sFdData) ∨
    (c.pttChannel = some k.2 ∧ k.2 ≠ c.channel ∧ c.sFdPtt = some fd))

namespace Ends

structure Kept (P : Nat → Nat × Channel → Nat → Prop) (s : Ends) : Prop where
  together : ∀ k, s.producers k = s.consumers k
  ends : ∀ k, ∀ e ∈ s.producers k, ∃ n, s.fdt e.fd = some (.routerEnd n) ∧ s.Handed n
  held : ∀ fd n, s.fdt fd = some (.routerEnd n) → n < s.pairs ∧ s.closes n = 0
  inj : ∀ fd fd' n, s.fdt fd = some (.routerEnd n) → s.fdt fd' = some (.routerEnd n) → fd = fd'
  fresh : ∀ n, s.pairs ≤ n → s.closes n = 0 ∧ ¬ s.Handed n
  kept : ∀ n, s.Handed n → (∃ k, ∃ e ∈ s.producers k, s.fdt e.fd = some (.routerEnd n)) ∨
    (s.closes n = 1 ∧ ∀ fd, s.fdt fd ≠ some (.routerEnd n))
  nodup : ∀ k, ((s.producers k).map (·.fd)).Nodup
  disj : ∀ k k' e e', e ∈ s.producers k → e' ∈ s.producers k' → e.fd = e'.fd → k = k'
  owned : ∀ k, ∀ e ∈ s.producers k, P e.ownerTag k e.fd

variable {P P' : Nat → Nat × Channel → Nat → Prop} {s : Ends} {k : Nat × Channel} {fd n tag : Nat} {e : Endpoint}

theorem closes_fdClose (s : Ends) (fd n : Nat) :
    (s.fdClose fd).closes n = s.closes n + if s.fdt fd = some (.routerEnd n) then 1 else 0 := by
  simp only [closes, fdClose, List.count_append, List.count_singleton, beq_iff_eq, EndObs.close.injEq]

theorem handed_fdClose (s : Ends) (fd n : Nat) : (s.fdClose fd).Handed n ↔ s.Handed n := by
  simp [Handed, fdClose]

namespace Kept

theorem init (hasFlagsChannel : Nat → Bool) : Kept P (Ends.init hasFlagsChannel) := by
  refine ⟨fun _ => rfl, ?_, ?_, ?_, ?_, ?_, fun _ => List.nodup_nil, ?_, ?_⟩ <;>
    simp [Ends.init, closes, Handed]

theorem of_owned (h : Kept P s) (hP : ∀ k, ∀ e ∈ s.producers k, P' e.ownerTag k e.fd) : Kept P' s :=
  { h with owned := hP }

/-- A number that is free, or stands for something else, is no end of the lists. -/
theorem ne_of_fdt (h : Kept P s) (he : e ∈ s.producers k) (hfd : ∀ n, s.fdt fd ≠ some (.routerEnd n)) :
    e.fd ≠ fd := by
  rintro rfl
  obtain ⟨n, hn, -⟩ := h.ends k e he
  exact hfd n hn

/-- What other descriptors stand for changes. -/
theorem of_fdt (h : Kept P s) {s' : Ends} (hp : s'.producers = s.producers) (hc : s'.consumers = s.consumers)
    (hpairs : s.pairs ≤ s'.pairs) (hcloses : ∀ n, s'.closes n = s.closes n)
    (hhanded : ∀ n, s'.Handed n ↔ s.Handed n)
    (hfdt : ∀ fd n, s.fdt fd = some (.routerEnd n) → s'.fdt fd = some (.routerEnd n))
    (hnew : ∀ fd n, s'.fdt fd = some (.routerEnd n) → s.fdt fd = some (.routerEnd n) ∨ s.pairs ≤ n ∧ n < s'.pairs)
    (hinj : ∀ fd fd' n, s.pairs ≤ n → s'.fdt fd = some (.routerEnd n) → s'.fdt fd' = some (.routerEnd n) →
      fd = fd') :
    Kept P s' := by
  have hold : ∀ fd n, n < s.pairs → s'.fdt fd = some (.routerEnd n) → s.fdt fd = some (.routerEnd n) := by
    intro fd n hn hfd
    rcases hnew fd n hfd with h | h
    · exact h
    · omega
  refine ⟨?_, ?_, ?_, ?_, ?_, ?_, ?_, ?_, ?_⟩
  · rw [hp, hc]
    exact h.together
  · intro k e he
    rw [hp] at he
    obtain ⟨n, hn, hh⟩ := h.ends k e he
    exact ⟨n, hfdt _ _ hn, (hhanded n).mpr hh⟩
  · intro fd n hfd
    rw [hcloses]
    rcases hnew fd n hfd with hn | ⟨hle, hlt⟩
    · obtain ⟨hlt, hc⟩ := h.held fd n hn
      exact ⟨by omega, hc⟩
    · exact ⟨hlt, (h.fresh n hle).1⟩
  · intro fd fd' n hfd hfd'
    by_cases hn : n < s.pairs
    · exact h.inj fd fd' n (hold fd n hn hfd) (hold fd' n hn hfd')
    · exact hinj fd fd' n (by omega) hfd hfd'
  · intro n hn
    rw [hcloses, hhanded]
    exact h.fresh n (by omega)
  · intro n hn
    rw [hhanded] at hn
    have hlt : n < s.pairs := by
      by_contra hle
      exact (h.fresh n (by omega)).2 hn
    rcases h.kept n hn with ⟨k, e, he, hfd⟩ | ⟨hc, hgone⟩
    · exact .inl ⟨k, e, hp ▸ he, hfdt _ _ hfd⟩
    · exact .inr ⟨(hcloses n).trans hc, fun fd hfd => hgone fd (hold fd n hlt hfd)⟩
  · rw [hp]
    exact h.nodup
  · rw [hp]
    exact h.disj
  · rw [hp]
    exact h.owned

theorem fdClose (h : Kept P s) (hfd : ∀ n, s.fdt fd ≠ some (.routerEnd n)) : Kept P (s.fdClose fd) := by
  refine h.of_fdt rfl rfl (Nat.le_refl _) ?_ (s.handed_fdClose fd) ?_ ?_ ?_
  · intro n
    rw [closes_fdClose, if_neg (hfd n), Nat.add_zero]
  · intro fd' n hn
    have hne : fd' ≠ fd := by
      rintro rfl
      exact hfd n hn
    simpa [Ends.fdClose, hne] using hn
  · intro fd' n hn
    have hne : fd' ≠ fd := by
      rintro rfl
      simp [Ends.fdClose] at hn
    exact .inl (by simpa [Ends.fdClose, hne] using hn)
  · intro fd' fd'' n hle hn
    have hne : fd' ≠ fd := by
      rintro rfl
      simp [Ends.fdClose] at hn
    have hlt := (h.held fd' n (by simpa [Ends.fdClose, hne] using hn)).1
    omega

theorem opened (h : Kept P s) (hfree : s.fdt fd = none) :
    Kept P { s with fdt := Function.update s.fdt fd (some .other) } := by
  have hold : ∀ fd' n, Function.update s.fdt fd (some .other) fd' = some (.routerEnd n) →
      s.fdt fd' = some (.routerEnd n) := by
    intro fd' n hn
    have hne : fd' ≠ fd := by
      rintro rfl
      simp at hn
    simpa [hne] using hn
  refine h.of_fdt rfl rfl (Nat.le_refl _) (fun _ => rfl) (fun _ => Iff.rfl) ?_ (fun fd' n hn =>
    .inl (hold fd' n hn)) ?_
  · intro fd' n hn
    have hne : fd' ≠ fd := by
      rintro rfl
      simp [hfree] at hn
    simpa [hne] using hn
  · intro fd' fd'' n hle hn
    have hlt := (h.held fd' n (hold fd' n hn)).1
    omega

theorem socketpair (h : Kept P s) {a b : Nat} (ha : s.fdt a = none) (hb : s.fdt b = none) :
    Kept P (s.socketpair a b tag) := by
  have hnew : ∀ fd n, (s.socketpair a b tag).fdt fd = some (.routerEnd n) →
      s.fdt fd = some (.routerEnd n) ∨ fd = a ∧ n = s.pairs := by
    intro fd n hn
    have hne : fd ≠ b := by
      rintro rfl
      simp [Ends.socketpair] at hn
    by_cases hfa : fd = a
    · subst hfa
      simp [Ends.socketpair, hne] at hn
      exact .inr ⟨rfl, hn.symm⟩
    · exact .inl (by simpa [Ends.socketpair, hne, hfa] using hn)
  refine h.of_fdt rfl rfl (Nat.le_succ _) (fun _ => rfl) (fun _ => Iff.rfl) ?_ ?_ ?_
  · intro fd n hn
    have hna : fd ≠ a := by
      rintro rfl
      simp [ha] at hn
    have hnb : fd ≠ b := by
      rintro rfl
      simp [hb] at hn
    simpa [Ends.socketpair, hna, hnb] using hn
  · intro fd n hn
    rcases hnew fd n hn with hn | ⟨-, rfl⟩
    · exact .inl hn
    · exact .inr ⟨Nat.le_refl _, Nat.lt_succ_self _⟩
  · intro fd fd' n hle hn hn'
    rcases hnew fd n hn with ho | ⟨rfl, -⟩
    · have hlt := (h.held fd n ho).1
      omega
    · rcases hnew fd' n hn' with ho | ⟨rfl, -⟩
      · have hlt := (h.held fd' n ho).1
        omega
      · rfl

/-! ### Endpoints come and go -/

theorem add_eq (s : Ends) (hacc : ¬ (k.2 = .flags ∧ s.hasFlagsChannel k.1 = false)) :
    s.mhrAddEndpointFd k fd tag = { s with
      producers := Function.update s.producers k (s.producers k ++ [⟨fd, tag⟩])
      consumers := Function.update s.consumers k (s.consumers k ++ [⟨fd, tag⟩])
      log := s.log ++ [.handed (s.fdt fd)] } := by
  simp only [mhrAddEndpointFd, mhrAddConsumer, mhrAddProducer, if_neg hacc]

/-- An end made for the router and not handed over yet is. -/
theorem add (h : Kept P s) (hfd : s.fdt fd = some (.routerEnd n)) (hn : ¬ s.Handed n)
    (hacc : ¬ (k.2 = .flags ∧ s.hasFlagsChannel k.1 = false)) (hP : P tag k fd) :
    Kept P (s.mhrAddEndpointFd k fd tag) := by
  have hnew : ∀ k', ∀ e ∈ s.producers k', e.fd ≠ fd := by
    rintro k' e he rfl
    obtain ⟨m, hm, hh⟩ := h.ends k' e he
    obtain rfl : m = n := by simpa [hm] using hfd
    exact hn hh
  have hmem : ∀ k' e, e ∈ Function.update s.producers k (s.producers k ++ [⟨fd, tag⟩]) k' →
      e ∈ s.producers k' ∨ (k' = k ∧ e = ⟨fd, tag⟩) := by
    intro k' e he
    rcases eq_or_ne k' k with rfl | hk
    · simpa using he
    · exact .inl (by simpa [hk] using he)
  have hold : ∀ k' e, e ∈ s.producers k' → e ∈ Function.update s.producers k (s.producers k ++
    [⟨fd, tag⟩]) k' := by
    intro k' e he
    rcases eq_or_ne k' k with rfl | hk
    · simp [he]
    · simpa [hk] using he
  have hhanded : ∀ m, (s.mhrAddEndpointFd k fd tag).Handed m ↔ s.Handed m ∨ m = n := by
    intro m
    rw [add_eq s hacc]
    simp [Handed, hfd, eq_comm]
  have hcloses : ∀ m, (s.mhrAddEndpointFd k fd tag).closes m = s.closes m := by
    intro m
    rw [add_eq s hacc]
    simp [closes, List.count_append]
  have hfdt : (s.mhrAddEndpointFd k fd tag).fdt = s.fdt := by rw [add_eq s hacc]
  have hprod : (s.mhrAddEndpointFd k fd tag).producers =
      Function.update s.producers k (s.producers k ++ [⟨fd, tag⟩]) := by rw [add_eq s hacc]
  have hpairs : (s.mhrAddEndpointFd k fd tag).pairs = s.pairs := by rw [add_eq s hacc]
  refine ⟨?_, ?_, ?_, ?_, ?_, ?_, ?_, ?_, ?_⟩
  · intro k'
    rw [add_eq s hacc]
    simp only [Function.update_apply, h.together]
  · intro k' e he
    rw [hprod] at he
    rw [hfdt]
    rcases hmem k' e he with he | ⟨-, rfl⟩
    · obtain ⟨m, hm, hh⟩ := h.ends k' e he
      exact ⟨m, hm, (hhanded m).mpr (.inl hh)⟩
    · exact ⟨n, hfd, (hhanded n).mpr (.inr rfl)⟩
  · intro fd' m hm
    rw [hfdt] at hm
    rw [hcloses, hpairs]
    exact h.held fd' m hm
  · rw [hfdt]
    exact h.inj
  · intro m hm
    rw [hpairs] at hm
    rw [hcloses, hhanded]
    have hlt := (h.held fd n hfd).1
    refine ⟨(h.fresh m hm).1, ?_⟩
    rintro (hh | rfl)
    · exact (h.fresh m hm).2 hh
    · omega
  · intro m hm
    rw [hprod, hfdt, hcloses]
    rcases (hhanded m).mp hm with hm | rfl
    · exact (h.kept m hm).imp_left fun ⟨k', e, he, hfde⟩ => ⟨k', e, hold k' e he, hfde⟩
    · exact .inl ⟨k, ⟨fd, tag⟩, by simp, hfd⟩
  · intro k'
    rw [hprod]
    rcases eq_or_ne k' k with rfl | hk
    · have hne : ∀ e ∈ s.producers k', e.fd ≠ fd := hnew k'
      simpa [List.nodup_append] using ⟨h.nodup k', hne⟩
    · simpa [hk] using h.nodup k'
  · intro k₁ k₂ e₁ e₂ he₁ he₂ heq
    rw [hprod] at he₁ he₂
    rcases hmem k₁ e₁ he₁ with ho₁ | ⟨hk₁, hn₁⟩
    · rcases hmem k₂ e₂ he₂ with ho₂ | ⟨hk₂, hn₂⟩
      · exact h.disj k₁ k₂ e₁ e₂ ho₁ ho₂ heq
      · exact absurd heq (hn₂ ▸ hnew k₁ e₁ ho₁)
    · rcases hmem k₂ e₂ he₂ with ho₂ | ⟨hk₂, hn₂⟩
      · exact absurd heq.symm (hn₁ ▸ hnew k₂ e₂ ho₂)
      · rw [hk₁, hk₂]
  · intro k' e he
    rw [hprod] at he
    rcases hmem k' e he with he | ⟨rfl, rfl⟩
    · exact h.owned k' e he
    · exact hP

end Kept

/-- Both entries of a descriptor go, and it is closed. -/
def drop (s : Ends) (k : Nat × Channel) (fd : Nat) : Ends :=
  { s with
    producers := Function.update s.producers k ((s.producers k).filter (·.fd ≠ fd))
    consumers := Function.update s.consumers k ((s.consumers k).filter (·.fd ≠ fd)) }.fdClose fd

theorem eraseP_fd {l : List Endpoint} (hn : (l.map (·.fd)).Nodup) (fd : Nat) :
    l.eraseP (·.fd == fd) = l.filter (·.fd ≠ fd) := by
  induction l with
  | nil => rfl
  | cons e l ih =>
    rw [List.map_cons, List.nodup_cons] at hn
    by_cases he : e.fd = fd
    · have hall : ∀ e' ∈ l, e'.fd ≠ fd := by
        rintro e' he' rfl
        exact hn.1 (he ▸ List.mem_map_of_mem he')
      rw [List.eraseP_cons_of_pos (by simpa using he), List.filter_cons_of_neg (by simpa using he)]
      exact (List.filter_eq_self.mpr (by simpa using hall)).symm
    · rw [List.eraseP_cons_of_neg (by simpa using he), List.filter_cons_of_pos (by simpa using he), ih hn.2]

theorem hasFd_filter (l : List Endpoint) (fd : Nat) : hasFd (l.filter fun e => !decide (e.fd = fd)) fd =
    false := by
  simp [hasFd]

theorem hasFd_of_mem {l : List Endpoint} (he : e ∈ l) : hasFd l e.fd = true := by
  simpa [hasFd] using ⟨e, he, rfl⟩

namespace Kept

theorem remEndpoint_eq (h : Kept P s) (he : e ∈ s.producers k) : s.mhrRemEndpointFd k e.fd = s.drop k e.fd := by
  have hn := h.nodup k
  have hc := h.together k
  have hp := hasFd_of_mem he
  simp [mhrRemEndpointFd, mhrRemProducer, mhrRemConsumer, Ends.drop, ← hc, hp, eraseP_fd hn, hasFd_filter]

theorem ends_eq (h : Kept P s) (he : e ∈ s.producers k) :
    (s.mhrRemConsumer k e.fd).mhrRemProducer k e.fd = s.drop k e.fd := by
  have hn := h.nodup k
  have hc := h.together k
  have hp := hasFd_of_mem he
  simp [mhrRemProducer, mhrRemConsumer, Ends.drop, ← hc, hp, eraseP_fd hn, hasFd_filter]

theorem drop (h : Kept P s) (he : e ∈ s.producers k)
    (hP : ∀ t k' fd, P t k' fd → ¬ (k' = k ∧ fd = e.fd) → P' t k' fd) : Kept P' (s.drop k e.fd) := by
  obtain ⟨n, hn, hh⟩ := h.ends k e he
  have hprod : (s.drop k e.fd).producers =
      Function.update s.producers k ((s.producers k).filter (·.fd ≠ e.fd)) := rfl
  have hfdt : (s.drop k e.fd).fdt = Function.update s.fdt e.fd none := rfl
  have hcloses : ∀ m, (s.drop k e.fd).closes m = s.closes m + if m = n then 1 else 0 := by
    intro m
    refine (closes_fdClose _ e.fd m).trans ?_
    show s.closes m + (if s.fdt e.fd = _ then 1 else 0) = _
    simp [hn, eq_comm]
  have hhanded : ∀ m, (s.drop k e.fd).Handed m ↔ s.Handed m := fun m => handed_fdClose _ e.fd m
  -- an entry that is left is one there was, with another descriptor
  have hmem : ∀ k' e', e' ∈ (s.drop k e.fd).producers k' ↔ e' ∈ s.producers k' ∧ e'.fd ≠ e.fd := by
    intro k' e'
    rw [hprod]
    rcases eq_or_ne k' k with rfl | hk
    · simp
    · rw [Function.update_of_ne hk]
      refine ⟨fun he' => ⟨he', fun heq => hk (h.disj k' k e' e he' he heq)⟩, fun he' => he'.1⟩
  have hold : ∀ fd m, (s.drop k e.fd).fdt fd = some (.routerEnd m) ↔ s.fdt fd = some (.routerEnd m) ∧
    fd ≠ e.fd := by
    intro fd m
    rw [hfdt]
    rcases eq_or_ne fd e.fd with rfl | hfd <;> simp [*]
  refine ⟨?_, ?_, ?_, ?_, ?_, ?_, ?_, ?_, ?_⟩
  · intro k'
    show Function.update s.producers k _ k' = Function.update s.consumers k _ k'
    simp only [Function.update_apply, h.together]
  · intro k' e' he'
    obtain ⟨he', hne⟩ := (hmem k' e').mp he'
    obtain ⟨m, hm, hh'⟩ := h.ends k' e' he'
    exact ⟨m, (hold _ m).mpr ⟨hm, hne⟩, (hhanded m).mpr hh'⟩
  · intro fd m hm
    obtain ⟨hm, hne⟩ := (hold fd m).mp hm
    obtain ⟨hlt, hc⟩ := h.held fd m hm
    have hmn : m ≠ n := by
      rintro rfl
      exact hne (h.inj _ _ _ hm hn)
    exact ⟨hlt, by simp [hcloses, hc, hmn]⟩
  · intro fd fd' m hm hm'
    exact h.inj fd fd' m ((hold fd m).mp hm).1 ((hold fd' m).mp hm').1
  · intro m hm
    obtain ⟨hc, hno⟩ := h.fresh m hm
    have hlt := (h.held e.fd n hn).1
    have hm : s.pairs ≤ m := hm
    exact ⟨by simp [hcloses, hc]; omega, (hhanded m).not.mpr hno⟩
  · intro m hm
    rcases eq_or_ne m n with rfl | hmn
    · refine .inr ⟨by simp [hcloses, (h.held e.fd m hn).2], fun fd hfd => ?_⟩
      obtain ⟨hfd, hne⟩ := (hold fd m).mp hfd
      exact hne (h.inj _ _ _ hfd hn)
    · rcases h.kept m ((hhanded m).mp hm) with ⟨k', e', he', hfd⟩ | ⟨hc, hgone⟩
      · have hne : e'.fd ≠ e.fd := by
          intro heq
          rw [heq, hn] at hfd
          exact hmn (by simpa using hfd.symm)
        exact .inl ⟨k', e', (hmem k' e').mpr ⟨he', hne⟩, (hold _ m).mpr ⟨hfd, hne⟩⟩
      · exact .inr ⟨by simp [hcloses, hc, hmn], fun fd hfd => hgone fd ((hold fd m).mp hfd).1⟩
  · intro k'
    rw [hprod]
    rcases eq_or_ne k' k with rfl | hk
    · rw [Function.update_self]
      exact (h.nodup k').sublist (List.filter_sublist.map _)
    · rw [Function.update_of_ne hk]
      exact h.nodup k'
  · intro k₁ k₂ e₁ e₂ he₁ he₂ heq
    exact h.disj k₁ k₂ e₁ e₂ ((hmem k₁ e₁).mp he₁).1 ((hmem k₂ e₂).mp he₂).1 heq
  · intro k' e' he'
    obtain ⟨he', hne⟩ := (hmem k' e').mp he'
    exact hP _ _ _ (h.owned k' e' he') fun hk => hne hk.2

end Kept

/-! ### The connectors -/

/-- Where the endpoints with a tag may be: where its connector has them. -/
def ConP (l : List EndCon) (t : Nat) (k : Nat × Channel) (fd : Nat) : Prop :=
  ∃ c ∈ l, c.tag = t ∧ c.At k fd

/-- The ends of the instances are theirs. -/
structure Owners (s : Ends) : Prop where
  tags : (s.connectorList.map (·.tag)).Nodup
  below : ∀ c ∈ s.connectorList, c.tag < s.brk
  fdsNodup : ∀ c ∈ s.connectorList, c.fds.Nodup
  fds : ∀ c ∈ s.connectorList, ∀ fd ∈ c.fds, s.fdt fd = some (.con c.tag)

/-- Nothing of the connectors and their instances changes. -/
structure Beside (s s' : Ends) : Prop where
  list : s'.connectorList = s.connectorList
  brk : s.brk ≤ s'.brk
  flags : s'.hasFlagsChannel = s.hasFlagsChannel
  con : ∀ fd t, s.fdt fd = some (.con t) → s'.fdt fd = some (.con t)

structure Good (s : Ends) : Prop where
  kept : Kept (ConP s.connectorList) s
  owners : Owners s

variable {s' s'' : Ends} {c : EndCon} {fds : List Nat}

theorem Beside.refl : Beside s s := ⟨rfl, Nat.le_refl _, rfl, fun _ _ h => h⟩

theorem Beside.trans (h : Beside s s') (h' : Beside s' s'') : Beside s s'' :=
  ⟨h'.list.trans h.list, Nat.le_trans h.brk h'.brk, h'.flags.trans h.flags, fun fd t hfd =>
    h'.con fd t (h.con fd t hfd)⟩

theorem Owners.beside (h : Owners s) (hb : Beside s s') : Owners s' := by
  refine ⟨?_, ?_, ?_, ?_⟩ <;> rw [hb.list]
  · exact h.tags
  · exact fun c hc => Nat.lt_of_lt_of_le (h.below c hc) hb.brk
  · exact h.fdsNodup
  · exact fun c hc fd hfd => hb.con fd _ (h.fds c hc fd hfd)

theorem Good.beside (h : Good s) (hk : Kept (ConP s.connectorList) s') (hb : Beside s s') : Good s' := by
  refine ⟨?_, h.owners.beside hb⟩
  rw [hb.list]
  exact hk

theorem Kept.drop_beside (h : Kept P s) (he : e ∈ s.producers k) : Beside s (s.drop k e.fd) := by
  refine ⟨rfl, Nat.le_refl _, rfl, fun fd t hfd => ?_⟩
  obtain ⟨n, hn, -⟩ := h.ends k e he
  have hne : fd ≠ e.fd := by
    rintro rfl
    simp [hn] at hfd
  simpa [Ends.drop, Ends.fdClose, hne] using hfd

theorem socketpair_beside {a b : Nat} (ha : s.fdt a = none) (hb : s.fdt b = none) :
    Beside s (s.socketpair a b tag) := by
  refine ⟨rfl, Nat.le_refl _, rfl, fun fd t hfd => ?_⟩
  have hna : fd ≠ a := by
    rintro rfl
    simp [ha] at hfd
  have hnb : fd ≠ b := by
    rintro rfl
    simp [hb] at hfd
  simpa [socketpair, hna, hnb] using hfd

theorem add_beside (hacc : ¬ (k.2 = .flags ∧ s.hasFlagsChannel k.1 = false)) :
    Beside s (s.mhrAddEndpointFd k fd tag) := by
  rw [Kept.add_eq s hacc]
  exact ⟨rfl, Nat.le_refl _, rfl, fun _ _ h => h⟩

theorem closeFds_eq (fds : List Nat) (s : Ends) :
    ∃ log, s.closeFds fds = { s with fdt := fun fd => if fd ∈ fds then none else s.fdt fd, log } := by
  induction fds generalizing s with
  | nil => exact ⟨s.log, by simp [closeFds]⟩
  | cons fd fds ih =>
    obtain ⟨log, hlog⟩ := ih (s.fdClose fd)
    refine ⟨log, ?_⟩
    show (s.fdClose fd).closeFds fds = _
    rw [hlog]
    simp only [fdClose, Function.update_apply]
    congr 1
    funext fd'
    by_cases hfd : fd' = fd <;> simp [hfd]

theorem Kept.closeFds (h : Kept P s) {t : Nat} (hn : fds.Nodup) (hfd : ∀ fd ∈ fds, s.fdt fd = some (.con t)) :
    Kept P (s.closeFds fds) := by
  induction fds generalizing s with
  | nil => exact h
  | cons fd fds ih =>
    rw [List.nodup_cons] at hn
    have hclose : Kept P (s.fdClose fd) := h.fdClose fun n hfd' => by
      simp [hfd fd List.mem_cons_self] at hfd'
    refine ih hclose hn.2 fun fd' hfd' => ?_
    have hne : fd' ≠ fd := by
      rintro rfl
      exact hn.1 hfd'
    simpa [Ends.fdClose, hne] using hfd fd' (List.mem_cons_of_mem _ hfd')

/-! ### A connector is created -/

/-- The endpoints of a connector that is created are there, it is not in the list yet. -/
structure Building (c : EndCon) (s : Ends) : Prop where
  kept : Kept (fun t k fd => ConP s.connectorList t k fd ∨ (t = c.tag ∧ c.At k fd)) s
  owners : Owners s
  data : ⟨c.sFdData, c.tag⟩ ∈ s.producers (c.dev, c.channel)
  pttOwned : ∀ p fd, c.pttChannel = some p → c.sFdPtt = some fd → p ≠ c.channel →
    c.routerOwnsPtt = true ∧ ⟨fd, c.tag⟩ ∈ s.producers (c.dev, p)
  pttOther : c.routerOwnsPtt = true → c.pttChannel ≠ some c.channel
  above : ∀ c' ∈ s.connectorList, c'.tag < c.tag
  below : c.tag < s.brk
  fdsNodup : c.fds.Nodup
  fds : ∀ fd ∈ c.fds, s.fdt fd = some (.con c.tag)

namespace Building

/-- Closing the instance's ends leaves the others'. -/
theorem closed (hk : Kept (ConP s.connectorList) s) (ho : Owners s) {t : Nat}
    (hne : ∀ c' ∈ s.connectorList, c'.tag ≠ t) (hn : fds.Nodup) (hfd : ∀ fd ∈ fds, s.fdt fd = some (.con t)) :
    Good (s.closeFds fds) := by
  have hkept := hk.closeFds hn hfd
  obtain ⟨log, hlog⟩ := s.closeFds_eq fds
  rw [hlog] at hkept ⊢
  refine ⟨hkept, ho.tags, ho.below, ho.fdsNodup, fun c' hc' fd hfd' => ?_⟩
  have hcon := ho.fds c' hc' fd hfd'
  have hno : fd ∉ fds := by
    intro hin
    rw [hfd fd hin] at hcon
    simp only [Option.some.injEq, Holder.con.injEq] at hcon
    exact hne c' hc' hcon.symm
  simpa [hno] using hcon

theorem fail (h : Building c s) : Good (s.fail c) := by
  have hne : ∀ c' ∈ s.connectorList, c'.tag ≠ c.tag := fun c' hc' => Nat.ne_of_lt (h.above c' hc')
  have hbeside := h.kept.drop_beside h.data
  -- the data end
  have hk : Kept (fun t k fd => ConP s.connectorList t k fd ∨
      (t = c.tag ∧ c.At k fd ∧ ¬ (k = (c.dev, c.channel) ∧ fd = c.sFdData))) _ := h.kept.drop h.data
    (fun t k fd hP hno => hP.imp_right fun ⟨ht, hat⟩ => ⟨ht, hat, hno⟩)
  have hrem := h.kept.remEndpoint_eq h.data
  simp only [Ends.fail, hrem]
  -- the PTT end, if the router has one
  by_cases hptt : ∃ p fd, c.pttChannel = some p ∧ c.sFdPtt = some fd ∧ c.routerOwnsPtt = true
  · obtain ⟨p, fd, hp, hfd, hown⟩ := hptt
    have hpc : p ≠ c.channel := by
      rintro rfl
      exact h.pttOther hown hp
    have hmem : (⟨fd, c.tag⟩ : Endpoint) ∈ (s.drop (c.dev, c.channel) c.sFdData).producers (c.dev, p) := by
      have hkey : ((c.dev, p) : Nat × Channel) ≠ (c.dev, c.channel) := by simpa using hpc
      simpa [Ends.drop, Ends.fdClose, hkey] using (h.pttOwned p fd hp hfd hpc).2
    have hk' := hk.drop hmem (by
      rintro t k fd' (hP | ⟨rfl, ⟨hdev, hdata | ⟨hch, -, hfd'⟩⟩, hno⟩) hno'
      · exact hP
      · exact absurd ⟨Prod.ext hdev hdata.1, hdata.2⟩ hno
      · rw [hp] at hch
        rw [hfd] at hfd'
        exact absurd ⟨Prod.ext hdev (Option.some.inj hch).symm, (Option.some.inj hfd').symm⟩ hno')
    have hb' := hbeside.trans (hk.drop_beside hmem)
    have hrem' := hk.remEndpoint_eq hmem
    simp only [hp, hfd, hown, hrem']
    refine closed (t := c.tag) hk' (h.owners.beside hb') ?_ h.fdsNodup fun fd hfd => hb'.con fd _ (h.fds fd hfd)
    exact hne
  · have hk' : Kept (ConP s.connectorList) (s.drop (c.dev, c.channel) c.sFdData) := by
      refine hk.of_owned fun k e he => ?_
      rcases hk.owned k e he with hP | ⟨-, ⟨hdev, hdata | ⟨hch, hpc, hfd⟩⟩, hno⟩
      · exact hP
      · exact absurd ⟨Prod.ext hdev hdata.1, hdata.2⟩ hno
      · exact absurd ⟨_, _, hch, hfd, (h.pttOwned _ _ hch hfd hpc).1⟩ hptt
    split
    · rename_i p fd hp hfd hown
      exact absurd ⟨p, fd, hp, hfd, hown⟩ hptt
    · exact closed hk' (h.owners.beside hbeside) hne h.fdsNodup fun fd hfd => hbeside.con fd _ (h.fds fd hfd)

theorem start (h : Building c s) (id : Int) (starts : Bool) : Good (s.start c id starts) := by
  have hgood : ∀ (n i : Int), Good { s with idCnt := n, connectorList := s.connectorList ++
    [{ c with id := i }] } := by
    intro n i
    refine ⟨?_, ?_, ?_, ?_, ?_⟩
    · have hk : Kept (ConP (s.connectorList ++ [{ c with id := i }])) s := h.kept.of_owned fun k e he => by
        rcases h.kept.owned k e he with ⟨c', hc', ht, hat⟩ | ⟨ht, hat⟩
        · exact ⟨c', List.mem_append_left _ hc', ht, hat⟩
        · exact ⟨{ c with id := i }, by simp, ht.symm, hat⟩
      exact { hk with }
    · have hne : ∀ c' ∈ s.connectorList, c'.tag ≠ c.tag := fun c' hc' => Nat.ne_of_lt (h.above c' hc')
      simpa [List.nodup_append] using ⟨h.owners.tags, hne⟩
    · intro c' hc'
      rcases List.mem_append.mp hc' with hc' | hc'
      · exact h.owners.below c' hc'
      · rw [List.mem_singleton.mp hc']
        exact h.below
    · intro c' hc'
      rcases List.mem_append.mp hc' with hc' | hc'
      · exact h.owners.fdsNodup c' hc'
      · rw [List.mem_singleton.mp hc']
        exact h.fdsNodup
    · intro c' hc' fd hfd
      rcases List.mem_append.mp hc' with hc' | hc'
      · exact h.owners.fds c' hc' fd hfd
      · rw [List.mem_singleton.mp hc'] at hfd ⊢
        exact h.fds fd hfd
  unfold Ends.start
  split_ifs
  · exact h.fail
  · exact hgood s.idCnt id
  · exact hgood _ _

/-- The connector's record changes, not where its endpoints may be. -/
theorem of_con (h : Building c s) {c' : EndCon} (hdev : c'.dev = c.dev) (hch : c'.channel = c.channel)
    (hdata : c'.sFdData = c.sFdData) (htag : c'.tag = c.tag) (hfds : c'.fds = c.fds)
    (hown : c'.routerOwnsPtt = false) (hat : ∀ k fd, c.At k fd → c'.At k fd)
    (hptt : ∀ p, c'.pttChannel = some p → p ≠ c.channel → c'.sFdPtt = none) : Building c' s := by
  refine ⟨h.kept.of_owned fun k e he => ?_, h.owners, ?_, ?_, ?_, ?_, ?_, ?_, ?_⟩
  · rw [htag]
    exact (h.kept.owned k e he).imp_right fun ho => ⟨ho.1, hat _ _ ho.2⟩
  · rw [hdata, htag, hdev, hch]
    exact h.data
  · intro p fd hp hfd hpc
    rw [hptt p hp (hch ▸ hpc)] at hfd
    simp at hfd
  · simp [hown]
  · rw [htag]
    exact h.above
  · rw [htag]
    exact h.below
  · rw [hfds]
    exact h.fdsNodup
  · rw [hfds, htag]
    exact h.fds

theorem pttChannel_ne_flags {ch p : Channel} (h : ch.pttChannel = some p) : p ≠ .flags := by
  rintro rfl
  cases ch <;> simp [Channel.pttChannel] at h

theorem addPtt (h : Building c s) (q : ConReq) (id : Int) (hp : c.pttChannel = none) (hs : c.sFdPtt = none)
    (ho : c.routerOwnsPtt = false)
    (hfree : ∀ x y, q.soptt = some (x, y) → s.fdt x = none ∧ s.fdt y = none ∧ x ≠ y) : Good (s.addPtt q c id) := by
  have hat : ∀ (p : Option Channel) (fd : Option Nat) k fd', c.At k fd' →
      ({ c with pttChannel := p, sFdPtt := fd } : EndCon).At k fd' := by
    rintro p fd k fd' ⟨hdev, hdata | ⟨hch, -⟩⟩
    · exact ⟨hdev, .inl hdata⟩
    · rw [hp] at hch
      simp at hch
  unfold Ends.addPtt
  rcases hpc : c.channel.pttChannel with _ | p
  · exact h.fail
  dsimp only
  by_cases heq : p = c.channel
  · rw [if_pos heq]
    have hb : Building { c with pttChannel := some p, sFdPtt := some c.sFdData } s := by
      refine h.of_con rfl rfl rfl rfl rfl ho (hat _ _) fun p' hp' hne => ?_
      exact absurd ((Option.some.inj hp').symm.trans heq) hne
    exact hb.start id q.starts
  rw [if_neg heq]
  have hwait : Building { c with pttChannel := some p, sFdPtt := none } s :=
    h.of_con rfl rfl rfl rfl rfl ho (hat _ _) fun _ _ _ => rfl
  rw [← hs] at hwait
  rcases hso : q.soptt with _ | ⟨x, y⟩
  · exact hwait.fail
  obtain ⟨hx, hy, hxy⟩ := hfree x y hso
  have hbeside : Beside s (s.socketpair x y c.tag) := socketpair_beside hx hy
  have hpair : Building { c with pttChannel := some p, fds := c.fds ++ [y] } (s.socketpair x y c.tag) := by
    have hynew : y ∉ c.fds := fun hin => by
      have hcon := h.fds y hin
      simp [hy] at hcon
    refine ⟨hwait.kept.socketpair hx hy, h.owners.beside hbeside, h.data, ?_, hwait.pttOther, h.above, h.below,
      ?_, ?_⟩
    · exact hwait.pttOwned
    · simpa [List.nodup_append] using ⟨h.fdsNodup, fun fd hfd heq => hynew (heq ▸ hfd)⟩
    · intro fd hfd
      rcases List.mem_append.mp hfd with hfd | hfd
      · exact hbeside.con fd _ (h.fds fd hfd)
      · rw [List.mem_singleton.mp hfd]
        simp [Ends.socketpair]
  dsimp only
  split_ifs
  · exact hpair.fail
  -- the PTT end is handed over
  have hacc : ¬ (((c.dev, p) : Nat × Channel).2 = .flags ∧ (s.socketpair x y c.tag).hasFlagsChannel (c.dev, p).1 = false) :=
    fun hacc => pttChannel_ne_flags hpc hacc.1
  have hfdt : (s.socketpair x y c.tag).fdt x = some (.routerEnd s.pairs) := by
    simp [Ends.socketpair, hxy]
  have hnew : ¬ (s.socketpair x y c.tag).Handed s.pairs := (h.kept.fresh s.pairs (Nat.le_refl _)).2
  have hpaired : Kept (fun t k fd => ConP s.connectorList t k fd ∨
      (t = c.tag ∧ EndCon.At { c with pttChannel := some p, sFdPtt := some x } k fd)) (s.socketpair x y c.tag) :=
    hpair.kept.of_owned fun k e he => by
      rcases hpair.kept.owned k e he with hP | ⟨ht, hdev, hdata | ⟨-, -, hfd⟩⟩
      · exact .inl hP
      · exact .inr ⟨ht, hdev, .inl hdata⟩
      · rw [hs] at hfd
        simp at hfd
  have hadd := hpaired.add (k := (c.dev, p)) hfdt hnew hacc (.inr ⟨rfl, rfl, .inr ⟨rfl, heq, rfl⟩⟩)
  have hbeside' : Beside (s.socketpair x y c.tag) ((s.socketpair x y c.tag).mhrAddEndpointFd (c.dev, p) x c.tag) :=
    add_beside hacc
  suffices hb : Building { c with pttChannel := some p, sFdPtt := some x, routerOwnsPtt := true, fds := c.fds ++
    [y] }
      ((s.socketpair x y c.tag).mhrAddEndpointFd (c.dev, p) x c.tag) from hb.start id q.starts
  refine ⟨?_, (h.owners.beside hbeside).beside hbeside', ?_, ?_, ?_, ?_, ?_, hpair.fdsNodup, ?_⟩
  · rw [hbeside'.list]
    exact hadd
  · rw [Kept.add_eq _ hacc]
    have hkey : ((c.dev, c.channel) : Nat × Channel) ≠ (c.dev, p) := by simpa using Ne.symm heq
    simpa [hkey, Ends.socketpair] using h.data
  · intro p' fd hp' hfd hne
    obtain rfl : p = p' := Option.some.inj hp'
    obtain rfl : x = fd := Option.some.inj hfd
    rw [Kept.add_eq _ hacc]
    exact ⟨rfl, by simp⟩
  · intro _ hp'
    exact heq (Option.some.inj hp')
  · rw [hbeside'.list]
    exact h.above
  · exact Nat.lt_of_lt_of_le h.below hbeside'.brk
  · exact fun fd hfd => hbeside'.con fd _ (hpair.fds fd hfd)

end Building

theorem Good.addData (h : Good s) (q : ConReq) (dev : Nat) (id : Int) {a b : Nat} (ha : s.fdt a = none)
    (hb : s.fdt b = none) (hab : a ≠ b)
    (hacc : q.nonblockData = true → ¬ (q.channel = .flags ∧ s.hasFlagsChannel dev = false))
    (hfree : ∀ x y, q.soptt = some (x, y) →
      s.fdt x = none ∧ s.fdt y = none ∧ x ≠ y ∧ x ≠ a ∧ x ≠ b ∧ y ≠ a ∧ y ≠ b) :
    Good (s.addData q dev id a b) := by
  have hs : Good { s with brk := s.brk + 1 } :=
    ⟨{ h.kept with }, { h.owners with below := fun c hc => Nat.lt_succ_of_lt (h.owners.below c hc) }⟩
  have hbeside : Beside { s with brk := s.brk + 1 } ({ s with brk := s.brk + 1 }.socketpair a b s.brk) :=
    socketpair_beside ha hb
  have hkept : Kept (ConP s.connectorList) ({ s with brk := s.brk + 1 }.socketpair a b s.brk) :=
    hs.kept.socketpair ha hb
  have hfdb : ({ s with brk := s.brk + 1 }.socketpair a b s.brk).fdt b = some (.con s.brk) := by
    simp [socketpair]
  have hne : ∀ c' ∈ s.connectorList, c'.tag ≠ s.brk := fun c' hc' => Nat.ne_of_lt (h.owners.below c' hc')
  unfold Ends.addData
  dsimp only
  by_cases hnon : q.nonblockData = false
  · rw [if_pos hnon]
    refine Building.closed (t := s.brk) hkept (hs.owners.beside hbeside) hne (List.nodup_singleton b) ?_
    intro fd hfd
    rw [List.mem_singleton.mp hfd]
    exact hfdb
  rw [if_neg hnon]
  have hacc := hacc (by simpa using hnon)
  have hacc' : ¬ (((dev, q.channel) : Nat × Channel).2 = .flags ∧
      ({ s with brk := s.brk + 1 }.socketpair a b s.brk).hasFlagsChannel (dev, q.channel).1 = false) := hacc
  have hfda : ({ s with brk := s.brk + 1 }.socketpair a b s.brk).fdt a = some (.routerEnd s.pairs) := by
    simp [socketpair, hab]
  have hnew : ¬ ({ s with brk := s.brk + 1 }.socketpair a b s.brk).Handed s.pairs :=
    (h.kept.fresh s.pairs (Nat.le_refl _)).2
  have hbeside' : Beside _ (({ s with brk := s.brk + 1 }.socketpair a b s.brk).mhrAddEndpointFd (dev, q.channel) a s.brk) :=
    add_beside hacc'
  have hbuild : Building ⟨0, q.vsp, dev, q.channel, none, a, none, false, s.brk, [b]⟩
      (({ s with brk := s.brk + 1 }.socketpair a b s.brk).mhrAddEndpointFd (dev, q.channel) a s.brk) := by
    refine ⟨?_, (hs.owners.beside hbeside).beside hbeside', ?_, ?_, ?_, ?_, ?_, by simp, ?_⟩
    · rw [hbeside'.list]
      refine Kept.add (hkept.of_owned fun k e he => .inl (hkept.owned k e he)) hfda hnew hacc' (.inr ⟨rfl, rfl, .inl ⟨rfl, rfl⟩⟩)
    · rw [Kept.add_eq _ hacc']
      simp
    · intro p fd hp
      simp at hp
    · simp
    · rw [hbeside'.list]
      exact h.owners.below
    · exact Nat.lt_of_lt_of_le (Nat.lt_succ_self _) hbeside'.brk
    · intro fd hfd
      rw [List.mem_singleton.mp hfd]
      exact hbeside'.con b _ hfdb
  split_ifs
  · refine hbuild.addPtt q id rfl rfl rfl fun x y hxy => ?_
    obtain ⟨hx, hy, hne, hxa, hxb, hya, hyb⟩ := hfree x y hxy
    rw [Kept.add_eq _ hacc']
    exact ⟨by simp [socketpair, hxa, hxb, hx], by simp [socketpair, hya, hyb, hy], hne⟩
  · exact hbuild.start id q.starts

theorem Good.create (h : Good s) (q : ConReq) (id : Int) (hacc : s.Accepted (.create q id)) :
    Good (s.step (.create q id)) := by
  simp only [step]
  split_ifs with hfree
  · have hcnt : ∀ n, Good { s with idCnt := n } := fun n => ⟨{ h.kept with }, { h.owners with }⟩
    unfold conmgrCreateConCfg
    split_ifs with hid
    · exact h
    · dsimp only
      split
      · rename_i dev a b hdev hvalid hso
        obtain ⟨hn, hall⟩ := hfree
        have hfds : q.fds = a :: b :: q.soptt.toList.flatMap fun p => [p.1, p.2] := by simp [ConReq.fds, hso]
        rw [hfds] at hn hall
        refine (hcnt _).addData q dev id (hall a (by simp)) (hall b (by simp)) ?_ ?_ ?_
        · rintro rfl
          simp at hn
        · exact fun hnon => hacc dev a b ⟨hfds ▸ hn, hfds ▸ hall⟩ hid hdev hvalid hso hnon
        · intro x y hxy
          simp only [hxy, Option.toList_some, List.flatMap_cons, List.flatMap_nil, List.append_nil,
            List.nodup_cons,
            List.mem_cons, List.not_mem_nil, or_false, not_or] at hn hall
          exact ⟨hall x (by simp), hall y (by simp), hn.2.2.1, Ne.symm hn.1.2.1, Ne.symm hn.2.1.1,
            Ne.symm hn.1.2.2,
            Ne.symm hn.2.1.2⟩
      · exact hcnt _
  · exact h

/-! ### A connector is removed -/

/-- What `rem_router_endpoint` removes. -/
def Takes (c : EndCon) (fd : Option Nat) (k k' : Nat × Channel) (e : Endpoint) : Prop :=
  k' = k ∧ fd = some e.fd ∧ e.ownerTag = c.tag

instance (c : EndCon) (fd : Option Nat) (k k' : Nat × Channel) (e : Endpoint) : Decidable (Takes c fd k k' e) := by
  unfold Takes
  infer_instance

/-- The endpoint of that number goes if it has the connector's tag. -/
theorem Kept.remRouterEndpoint (h : Kept P s) (c : EndCon) (fd : Option Nat) (k : Nat × Channel) :
    Kept P (s.remRouterEndpoint c fd k) ∧ Beside s (s.remRouterEndpoint c fd k) ∧
      ∀ k', (s.remRouterEndpoint c fd k).producers k' = (s.producers k').filter fun e => ¬ Takes c fd k k' e := by
  have hstay : (∀ e ∈ s.producers k, ¬ Takes c fd k k e) → Kept P s ∧ Beside s s ∧
      ∀ k', s.producers k' = (s.producers k').filter fun e => ¬ Takes c fd k k' e := by
    refine fun hno => ⟨h, .refl, fun k' => (List.filter_eq_self.mpr fun e he => ?_).symm⟩
    rw [decide_eq_true_eq]
    rintro ⟨rfl, ht⟩
    exact hno e he ⟨rfl, ht⟩
  unfold Ends.remRouterEndpoint
  cases fd with
  | none => exact hstay fun e he ht => by simpa using ht.2.1
  | some fd =>
    dsimp only
    rcases hfind : (s.producers k).find? (·.fd == fd) with _ | e
    · have htag : s.mhrGetProducerTag k fd = none := by simp [mhrGetProducerTag, hfind]
      rw [if_pos (by simp [htag])]
      refine hstay fun e he ht => ?_
      have hno := List.find?_eq_none.mp hfind e he
      exact hno (by simpa using (Option.some.inj ht.2.1).symm)
    · have he := List.mem_of_find?_eq_some hfind
      have hfd : e.fd = fd := by simpa using List.find?_some hfind
      subst hfd
      have htag : s.mhrGetProducerTag k e.fd = some e.ownerTag := by simp [mhrGetProducerTag, hfind]
      -- no other endpoint of the channel has the number
      have huniq : ∀ e' ∈ s.producers k, e'.fd = e.fd → e' = e := fun e' he' heq =>
        List.inj_on_of_nodup_map (h.nodup k) he' he heq
      by_cases hown : e.ownerTag = c.tag
      · rw [if_neg (by simp [htag, hown]), h.remEndpoint_eq he]
        refine ⟨h.drop he fun _ _ _ hP _ => hP, h.drop_beside he, fun k' => ?_⟩
        show Function.update s.producers k _ k' = _
        rcases eq_or_ne k' k with rfl | hk
        · rw [Function.update_self]
          refine List.filter_congr fun e' he' => ?_
          have hiff : e'.fd ≠ e.fd ↔ ¬ Takes c (some e.fd) k' k' e' := by
            refine not_congr ⟨fun heq => ⟨rfl, by rw [heq], ?_⟩, fun ht => (Option.some.inj ht.2.1).symm⟩
            rw [huniq e' he' heq]
            exact hown
          exact decide_eq_decide.mpr hiff
        · rw [Function.update_of_ne hk]
          refine (List.filter_eq_self.mpr fun e' _ => ?_).symm
          simpa using fun ht : Takes c (some e.fd) k k' e' => hk ht.1
      · rw [if_pos (by simpa [htag] using hown)]
        refine hstay fun e' he' ht => hown ?_
        rw [← huniq e' he' (Option.some.inj ht.2.1).symm]
        exact ht.2.2

theorem Kept.remPtt (h : Kept P s) (c : EndCon) :
    Kept P (s.remPtt c) ∧ Beside s (s.remPtt c) ∧ ∀ k', (s.remPtt c).producers k' =
      (s.producers k').filter fun e =>
        ¬ (c.pttChannel = some k'.2 ∧ k'.2 ≠ c.channel ∧ Takes c c.sFdPtt (c.dev, k'.2) k' e) := by
  have hstay : (∀ p, c.pttChannel = some p → p = c.channel) → Kept P s ∧ Beside s s ∧ ∀ k', s.producers k' =
      (s.producers k').filter fun e =>
        ¬ (c.pttChannel = some k'.2 ∧ k'.2 ≠ c.channel ∧ Takes c c.sFdPtt (c.dev, k'.2) k' e) := by
    refine fun hno => ⟨h, .refl, fun k' => (List.filter_eq_self.mpr fun e _ => ?_).symm⟩
    rw [decide_eq_true_eq]
    rintro ⟨hp, hne, -⟩
    exact hne (hno _ hp)
  unfold Ends.remPtt
  rcases hp : c.pttChannel with _ | p
  · rw [hp] at hstay
    exact hstay (by simp)
  dsimp only
  rw [hp] at hstay
  split_ifs with hpc
  · exact hstay fun p' hp' => (Option.some.inj hp').symm.trans hpc
  · obtain ⟨hk, hb, hprod⟩ := h.remRouterEndpoint c c.sFdPtt (c.dev, p)
    refine ⟨hk, hb, fun k' => (hprod k').trans (List.filter_congr fun e _ => decide_eq_decide.mpr (not_congr ?_))⟩
    constructor
    · rintro ⟨rfl, ht⟩
      exact ⟨rfl, hpc, rfl, ht⟩
    · rintro ⟨hp', -, ht⟩
      obtain rfl : p = k'.2 := Option.some.inj hp'
      exact ht

/-- A removal takes the connector's endpoints, and only those. -/
theorem Good.destroy_producers (h : Good s) {id : Int} (hc : s.connectorList.find? (·.id == id) = some c)
    (k : Nat × Channel) :
    (s.conmgrDestroyCon id).producers k = (s.producers k).filter (·.ownerTag ≠ c.tag) ∧
      Kept (ConP s.connectorList) (s.conmgrDestroyCon id) := by
  have hmem := List.mem_of_find?_eq_some hc
  have hclosed := h.kept.closeFds (h.owners.fdsNodup c hmem) (h.owners.fds c hmem)
  obtain ⟨hptt, -, hprod⟩ := hclosed.remPtt c
  obtain ⟨hdata, -, hprod'⟩ := hptt.remRouterEndpoint c (some c.sFdData) (c.dev, c.channel)
  have hclose : (s.closeFds c.fds).producers k = s.producers k := by
    obtain ⟨log, hlog⟩ := s.closeFds_eq c.fds
    rw [hlog]
  refine ⟨?_, by simpa only [conmgrDestroyCon, hc] using { hdata with }⟩
  simp only [conmgrDestroyCon, hc]
  rw [hprod', hprod, hclose, List.filter_filter]
  refine List.filter_congr fun e he => ?_
  rw [← Bool.decide_and]
  refine decide_eq_decide.mpr ?_
  constructor
  · rintro ⟨hno, hno'⟩ htag
    obtain ⟨c', hc', ht, hdev, hat⟩ := h.kept.owned k e he
    obtain rfl : c' = c := List.inj_on_of_nodup_map h.owners.tags hc' hmem (ht.trans htag)
    rcases hat with ⟨hch, hfd⟩ | ⟨hch, hne, hfd⟩
    · exact hno ⟨Prod.ext hdev hch, by rw [hfd], htag⟩
    · exact hno' ⟨hch, hne, Prod.ext hdev rfl, hfd, htag⟩
  · intro htag
    exact ⟨fun ht => htag ht.2.2, fun ht => htag ht.2.2.2.2⟩

/-- The connector removed is the one found, the others stay. -/
theorem mem_removed (h : Owners s) {id : Int} (hc : s.connectorList.find? (·.id == id) = some c) (c' : EndCon) :
    c' ∈ s.connectorList.eraseP (·.id == id) ↔ c' ∈ s.connectorList ∧ c'.tag ≠ c.tag := by
  obtain ⟨hp, as, bs, hl, has⟩ := List.find?_eq_some_iff_append.mp hc
  have herase : s.connectorList.eraseP (·.id == id) = as ++ bs := by
    rw [hl, List.eraseP_append_right _ (by simpa using has)]
    simp [hp]
  have hn := h.tags
  rw [hl, List.map_append, List.map_cons, List.nodup_append, List.nodup_cons] at hn
  rw [herase, hl]
  simp only [List.mem_append, List.mem_cons]
  constructor
  · rintro (hin | hin)
    · refine ⟨.inl hin, ?_⟩
      exact hn.2.2 _ (List.mem_map_of_mem hin) _ List.mem_cons_self
    · refine ⟨.inr (.inr hin), fun htag => hn.2.1.1 ?_⟩
      rw [← htag]
      exact List.mem_map_of_mem hin
  · rintro ⟨hin | rfl | hin, htag⟩
    · exact .inl hin
    · exact absurd rfl htag
    · exact .inr hin

/-- Closing the ends of one instance leaves those of the others. -/
theorem closeFds_con (h : Owners s) (hc : c ∈ s.connectorList) {fd t : Nat} (hfd : s.fdt fd = some (.con t))
    (ht : t ≠ c.tag) : (s.closeFds c.fds).fdt fd = some (.con t) := by
  have hno : fd ∉ c.fds := by
    intro hin
    have hcon := h.fds c hc fd hin
    rw [hfd] at hcon
    exact ht (by simpa using hcon)
  obtain ⟨log, hlog⟩ := s.closeFds_eq c.fds
  rw [hlog]
  simpa [hno] using hfd

theorem Good.destroy (h : Good s) (id : Int) : Good (s.conmgrDestroyCon id) := by
  rcases hc : s.connectorList.find? (·.id == id) with _ | c
  · have hs : s.conmgrDestroyCon id = s := by simp [conmgrDestroyCon, hc]
    rwa [hs]
  have hmem := List.mem_of_find?_eq_some hc
  have hin := mem_removed h.owners hc
  have hlist : (s.conmgrDestroyCon id).connectorList = s.connectorList.eraseP (·.id == id) := by
    simp [conmgrDestroyCon, hc]
  -- the entries of the others
  have hkept : Kept (ConP (s.conmgrDestroyCon id).connectorList) (s.conmgrDestroyCon id) := by
    refine (h.destroy_producers hc (0, .flags)).2.of_owned fun k e he => ?_
    rw [(h.destroy_producers hc k).1, List.mem_filter] at he
    obtain ⟨c', hc', ht, hat⟩ := h.kept.owned k e he.1
    refine ⟨c', ?_, ht, hat⟩
    rw [hlist, hin]
    exact ⟨hc', by simpa [ht] using he.2⟩
  have hclosed := h.kept.closeFds (h.owners.fdsNodup c hmem) (h.owners.fds c hmem)
  obtain ⟨hptt, hbeside, -⟩ := hclosed.remPtt c
  obtain ⟨-, hbeside', -⟩ := hptt.remRouterEndpoint c (some c.sFdData) (c.dev, c.channel)
  have hb := hbeside.trans hbeside'
  have hbrk : s.brk ≤ (s.conmgrDestroyCon id).brk := by
    obtain ⟨log, hlog⟩ := s.closeFds_eq c.fds
    have hle := hb.brk
    rw [hlog] at hle
    simpa [conmgrDestroyCon, hc, hlog] using hle
  refine ⟨hkept, ?_, ?_, ?_, ?_⟩
  · rw [hlist]
    exact h.owners.tags.sublist (List.eraseP_sublist.map _)
  · intro c' hc'
    rw [hlist, hin] at hc'
    exact Nat.lt_of_lt_of_le (h.owners.below c' hc'.1) hbrk
  · intro c' hc'
    rw [hlist, hin] at hc'
    exact h.owners.fdsNodup c' hc'.1
  · intro c' hc' fd hfd
    rw [hlist, hin] at hc'
    have hcon := hb.con fd _ (closeFds_con h.owners hmem (h.owners.fds c' hc'.1 fd hfd) hc'.2)
    simpa only [conmgrDestroyCon, hc] using hcon

theorem Good.instanceFails (h : Good s) (id : Int) : Good (s.instanceFails id) := by
  rcases hc : s.connectorList.find? (·.id == id) with _ | c
  · simpa only [Ends.instanceFails, hc] using h
  simp only [Ends.instanceFails, hc]
  split_ifs
  · exact h
  have hmem := List.mem_of_find?_eq_some hc
  have hclosed := h.kept.closeFds (h.owners.fdsNodup c hmem) (h.owners.fds c hmem)
  have hupd : ∀ {P : EndCon → Prop}, (∀ c' ∈ s.connectorList, c'.tag ≠ c.tag → P c') →
      (∀ c' ∈ s.connectorList, P { c' with fds := [] }) →
      ∀ c' ∈ s.connectorList.map fun c' => if c'.tag = c.tag then { c' with fds := [] } else c', P c' := by
    intro P hne heq c' hc'
    obtain ⟨c₀, hc₀, rfl⟩ := List.mem_map.mp hc'
    split_ifs with ht
    · exact heq c₀ hc₀
    · exact hne c₀ hc₀ ht
  have htags : (s.connectorList.map fun c' => if c'.tag = c.tag then { c' with fds := [] } else c').map (·.tag) =
      s.connectorList.map (·.tag) := by
    rw [List.map_map]
    refine List.map_congr_left fun c' _ => ?_
    simp only [Function.comp_apply]
    split_ifs <;> rfl
  obtain ⟨log, hlog⟩ := s.closeFds_eq c.fds
  have hk : Kept (ConP (s.connectorList.map fun c' => if c'.tag = c.tag then { c' with fds := [] } else c'))
      (s.closeFds c.fds) := by
    refine hclosed.of_owned fun k e he => ?_
    obtain ⟨c', hc', ht, hat⟩ := hclosed.owned k e he
    refine ⟨if c'.tag = c.tag then { c' with fds := [] } else c', List.mem_map_of_mem hc', ?_, ?_⟩
    · split_ifs <;> exact ht
    · split_ifs <;> exact hat
  refine ⟨{ hk with }, ?_, ?_, ?_, ?_⟩
  · dsimp only
    rw [htags]
    exact h.owners.tags
  · have hbrk : (s.closeFds c.fds).brk = s.brk := by rw [hlog]
    dsimp only
    rw [hbrk]
    exact hupd (fun c' hc' _ => h.owners.below c' hc') fun c' hc' => h.owners.below c' hc'
  · exact hupd (fun c' hc' _ => h.owners.fdsNodup c' hc') fun _ _ => List.nodup_nil
  · exact hupd (fun c' hc' ht fd hfd => closeFds_con h.owners hmem (h.owners.fds c' hc' fd hfd) ht)
      fun _ _ fd hfd => absurd hfd List.not_mem_nil

/-! ### Every step -/

theorem Good.ends (h : Good s) (he : e ∈ s.producers k) : Good (s.drop k e.fd) :=
  h.beside (h.kept.drop he fun _ _ _ hP _ => hP) (h.kept.drop_beside he)

theorem Good.step (h : Good s) (ev : EndEv) (hacc : s.Accepted ev) : Good (s.step ev) := by
  cases ev with
  | create q id => exact h.create q id hacc
  | destroy id => exact h.destroy id
  | producerEnds k i =>
    simp only [Ends.step, producerEnds]
    rcases hi : (s.producers k)[i]? with _ | prd
    · exact h
    · have he := List.mem_of_getElem? hi
      dsimp only
      rw [h.kept.ends_eq he]
      exact h.ends he
  | consumerFails k i =>
    simp only [Ends.step, consumerFails]
    rcases hi : (s.consumers k)[i]? with _ | cns
    · exact h
    · have he := List.mem_of_getElem? hi
      rw [← h.kept.together] at he
      have heq := h.kept.remEndpoint_eq he
      unfold mhrRemEndpointFd at heq
      dsimp only
      rw [heq]
      exact h.ends he
  | instanceFails id => exact h.instanceFails id
  | otherOpens fd =>
    simp only [Ends.step]
    split_ifs with hfree
    · refine h.beside (h.kept.opened hfree) ⟨rfl, Nat.le_refl _, rfl, fun fd' t hfd => ?_⟩
      have hne : fd' ≠ fd := by
        rintro rfl
        simp [hfree] at hfd
      simpa [hne] using hfd
    · exact h
  | otherCloses fd =>
    simp only [Ends.step]
    split_ifs with hfd
    · refine h.beside (h.kept.fdClose (by simp [hfd])) ⟨rfl, Nat.le_refl _, rfl, fun fd' t hfd' => ?_⟩
      have hne : fd' ≠ fd := by
        rintro rfl
        simp [hfd] at hfd'
      simpa [Ends.fdClose, hne] using hfd'
    · exact h

theorem Good.sound (h : Good s) : Sound s := by
  refine ⟨h.kept.together, ?_, ?_, ?_⟩
  · intro n hn
    rcases h.kept.kept n hn with ⟨k, e, he, hfd⟩ | ⟨hc, hgone⟩
    · exact .inl ⟨(h.kept.held _ n hfd).2, k, e, he, h.kept.together k ▸ he, hfd⟩
    · exact .inr ⟨hc, fun k e _ => hgone e.fd⟩
  · intro k e he
    obtain ⟨c, hc, ht, -⟩ := h.kept.owned k e he
    exact ⟨c, hc, ht⟩
  · intro id c hc k
    obtain ⟨hprod, hkept⟩ := h.destroy_producers hc k
    refine ⟨hprod, ?_⟩
    rw [← hkept.together, ← h.kept.together, hprod]

theorem good_init (hasFlagsChannel : Nat → Bool) : Good (init hasFlagsChannel) :=
  ⟨.init hasFlagsChannel, List.nodup_nil, fun _ hc => absurd hc List.not_mem_nil, fun _ hc =>
    absurd hc List.not_mem_nil,
    fun _ hc => absurd hc List.not_mem_nil⟩

/-! ### An end the router does not take -/

/-- It was handed over, and nobody has it to close it. -/
structure Leaked (n : Nat) (s : Ends) : Prop where
  handed : s.Handed n
  closes : s.closes n = 0
  nobody : ∀ k, ∀ e ∈ s.producers k, s.fdt e.fd ≠ some (.routerEnd n)

theorem Leaked.not_sound (h : Leaked n s) : ¬ Sound s := by
  intro hs
  rcases hs.once n h.handed with ⟨-, k, e, he, -, hfd⟩ | ⟨hc, -⟩
  · exact h.nobody k e he hfd
  · rw [h.closes] at hc
    omega

theorem Leaked.fdClose (h : Leaked n s) (hfd : s.fdt fd ≠ some (.routerEnd n)) : Leaked n (s.fdClose fd) := by
  refine ⟨(handed_fdClose s fd n).mpr h.handed, ?_, fun k e he heq => h.nobody k e he ?_⟩
  · rw [closes_fdClose, if_neg hfd, h.closes]
  · have hne : e.fd ≠ fd := by
      intro hfd'
      rw [hfd'] at heq
      simp [Ends.fdClose] at heq
    simpa [Ends.fdClose, hne] using heq

theorem remEndpoint_none (hp : hasFd (s.producers k) fd = false) (hc : hasFd (s.consumers k) fd = false) :
    s.mhrRemEndpointFd k fd = s := by
  simp [mhrRemEndpointFd, mhrRemProducer, mhrRemConsumer, hp, hc]

theorem Good.leaks (h : Good s) {q : ConReq} {id : Int} (hacc : ¬ s.Accepted (.create q id)) :
    ¬ Sound (s.step (.create q id)) := by
  simp only [Accepted, not_forall, not_not] at hacc
  obtain ⟨dev, a, b, hfree, hid, hdev, hvalid, hso, hnon, hch, hflags⟩ := hacc
  have hfds : q.fds = a :: b :: q.soptt.toList.flatMap fun p => [p.1, p.2] := by simp [ConReq.fds, hso]
  have ha : s.fdt a = none := hfree.2 a (by simp [hfds])
  have hb : s.fdt b = none := hfree.2 b (by simp [hfds])
  have hab : a ≠ b := by
    rintro rfl
    have hn := hfree.1
    simp [hfds] at hn
  -- once it is handed over, in the state that the rest of the creation begins with
  have hleak : ∀ n : Int, Leaked s.pairs
      (({ s with idCnt := n, brk := s.brk + 1 }.socketpair a b s.brk).mhrAddEndpointFd (dev, .flags) a s.brk) := by
    intro n
    have heq : ({ s with idCnt := n, brk := s.brk + 1 }.socketpair a b s.brk).mhrAddEndpointFd (dev,
      .flags) a s.brk =
        { ({ s with idCnt := n, brk := s.brk + 1 }.socketpair a b s.brk) with
          log := s.log ++ [.handed (some (.routerEnd s.pairs))] } := by
      simp [mhrAddEndpointFd, mhrAddConsumer, mhrAddProducer, socketpair, hflags, hab]
    rw [heq]
    refine ⟨by simp [Handed], ?_, fun k e he hfd => ?_⟩
    · have hzero := (h.kept.fresh s.pairs (Nat.le_refl _)).1
      simpa [closes, List.count_append] using hzero
    · have hea : e.fd ≠ a := h.kept.ne_of_fdt he (by simp [ha])
      have heb : e.fd ≠ b := h.kept.ne_of_fdt he (by simp [hb])
      have hlt := (h.kept.held e.fd s.pairs (by simpa [socketpair, hea, heb] using hfd)).1
      omega
  have hnone : hasFd (s.producers (dev, .flags)) a = false := by
    have hno : ∀ e ∈ s.producers (dev, .flags), ¬ e.fd = a := fun e he => h.kept.ne_of_fdt he (by simp [ha])
    simpa [hasFd] using hno
  -- whether the instance starts or not
  have hstart : ∀ n : Int, Leaked s.pairs ({ s with idCnt := n }.addData q dev id a b) := by
    intro n
    have hl := hleak n
    have hfail : Leaked s.pairs
        ((({ s with idCnt := n, brk := s.brk + 1 }.socketpair a b s.brk).mhrAddEndpointFd (dev, .flags) a s.brk).fail
          ⟨0, q.vsp, dev, .flags, none, a, none, false, s.brk, [b]⟩) := by
      have hrem : (({ s with idCnt := n, brk := s.brk + 1 }.socketpair a b s.brk).mhrAddEndpointFd (dev, .flags) a
          s.brk).mhrRemEndpointFd (dev, .flags) a = (({ s with idCnt := n, brk := s.brk + 1 }.socketpair a b
            s.brk).mhrAddEndpointFd (dev, .flags) a s.brk) := by
        have hprod := hnone
        have hcons := hnone
        rw [h.kept.together] at hcons
        apply remEndpoint_none
        · simpa [mhrAddEndpointFd, mhrAddConsumer, mhrAddProducer, socketpair, hflags] using hprod
        · simpa [mhrAddEndpointFd, mhrAddConsumer, mhrAddProducer, socketpair, hflags] using hcons
      simp only [Ends.fail, hrem]
      refine hl.fdClose ?_
      simp [mhrAddEndpointFd, mhrAddConsumer, mhrAddProducer, socketpair, hflags]
    unfold Ends.addData
    simp only [hnon, hch, Bool.true_eq_false, if_false]
    split_ifs
    · exact hfail
    · unfold Ends.start
      split_ifs
      · exact hfail
      · exact ⟨hl.handed, hl.closes, hl.nobody⟩
      · exact ⟨hl.handed, hl.closes, hl.nobody⟩
  have hs : s.step (.create q id) = { s with idCnt := max s.idCnt id }.addData q dev id a b := by
    simp only [Ends.step, if_pos hfree, conmgrCreateConCfg, if_neg hid, hdev, hvalid, hso]
  rw [hs]
  exact (hstart _).not_sound

theorem Good.step_iff (h : Good s) (ev : EndEv) : Sound (s.step ev) ↔ s.Accepted ev := by
  refine ⟨fun hs => ?_, fun hacc => (h.step ev hacc).sound⟩
  cases ev with
  | create q id =>
    by_contra hacc
    exact h.leaks hacc hs
  | _ => trivial

/-- In every run, whatever numbers the system gives out: each end that was handed to the router is a producer
and a consumer or was closed once, and each removal takes the connector's own, if and only if no connector of
the flags channel was created for a keyer without it. -/
theorem endpoints_sound (hasFlagsChannel : Nat → Bool) (evs : List EndEv) :
    (∀ l, l <+: evs → Sound (Run.run step (init hasFlagsChannel) l)) ↔
      Run.StepsOk step Accepted (init hasFlagsChannel) evs := by
  -- An end that leaked stays leaked, so where every state is sound every state is a good one.
  refine Run.forall_prefix_iff (I := fun s => Sound s → Good s) (P := Sound) (fun s e hI hs => ?_)
    (fun _ => good_init hasFlagsChannel) (good_init hasFlagsChannel).sound evs
  have hiff := (hI hs).step_iff e
  exact ⟨fun hs' => (hI hs).step e (hiff.mp hs'), hiff⟩

/-- A TCP connector of the flags channel, for a keyer without one, and its removal. -/
def flagsPort : List EndEv :=
  [.create ⟨some 0, true, .flags, false, false, some (5, 6), true, none, true, true⟩ 0, .destroy 1]

theorem endpoint_leaked :
    (Run.run step (init fun _ => false) flagsPort).Handed 0 ∧
      (Run.run step (init fun _ => false) flagsPort).closes 0 = 0 ∧
      (Run.run step (init fun _ => false) flagsPort).connectorList = [] ∧
      ¬ Sound (Run.run step (init fun _ => false) flagsPort) := by
  have hhanded : (Run.run step (init fun _ => false) flagsPort).Handed 0 := by
    unfold Handed
    decide +kernel
  have hcloses : (Run.run step (init fun _ => false) flagsPort).closes 0 = 0 := by decide +kernel
  refine ⟨hhanded, hcloses, by decide +kernel, fun hs => ?_⟩
  have hleak : Leaked 0 (Run.run step (init fun _ => false) flagsPort) :=
    ⟨hhanded, hcloses, fun k e he => absurd he (by
      have hnil : (Run.run step (init fun _ => false) flagsPort).producers k = [] := rfl
      simp [hnil])⟩
  exact hleak.not_sound hs

end Ends

end Mhuxd
