import Mathlib

/-!
# Taking turns round robin

Whoever wants comes next behind the one whose turn it is, in the order of a list that goes round. The one whose turn it
is may have left the list: then the round starts at its front. `dist` is how many are before a member that waits, and
every turn that is not its own makes it less.
-/

namespace RoundRobin

variable {α : Type*} [DecidableEq α] {l : List α} {x y t : α} {p : α → Bool}

/-- The members behind `x`, then those before it; all of them if it is none. -/
def order (l : List α) (x : α) : List α := (l.dropWhile fun a => a ≠ x).tail ++ l.takeWhile fun a => a ≠ x

/-- The one behind `x` that wants the turn. -/
def next (p : α → Bool) (l : List α) (x : α) : Option α := (order l x).find? p

/-- The members that come before `t` behind `x`. -/
def dist (l : List α) (x t : α) : Nat := (order l x).idxOf t

theorem order_append {as bs : List α} (h : x ∉ as) : order (as ++ x :: bs) x = bs ++ as := by
  have hne : ∀ a ∈ as, (decide (a ≠ x)) = true := fun a ha => decide_eq_true fun heq => h (heq ▸ ha)
  rw [order, List.dropWhile_append_of_pos hne, List.takeWhile_append_of_pos hne,
    List.dropWhile_cons_of_neg (by simp),
    List.takeWhile_cons_of_neg (by simp), List.append_nil, List.tail_cons]

theorem order_of_not_mem (h : x ∉ l) : order l x = l := by
  have hne : ∀ a ∈ l, (decide (a ≠ x)) = true := fun a ha => decide_eq_true fun heq => h (heq ▸ ha)
  rw [order, List.dropWhile_eq_nil_iff.2 hne, List.takeWhile_eq_self_iff.2 hne, List.tail_nil, List.nil_append]

theorem mem_order (hl : l.Nodup) : y ∈ order l x ↔ y ∈ l ∧ y ≠ x := by
  by_cases hx : x ∈ l
  · obtain ⟨as, bs, rfl, hnot⟩ := List.eq_append_cons_of_mem hx
    have hbs : x ∉ bs := (List.nodup_cons.1 (List.nodup_append.1 hl).2.1).1
    rw [order_append hnot, List.mem_append, List.mem_append, List.mem_cons]
    constructor
    · rintro (h | h)
      · exact ⟨.inr (.inr h), fun heq => hbs (heq ▸ h)⟩
      · exact ⟨.inl h, fun heq => hnot (heq ▸ h)⟩
    · rintro ⟨h | h | h, hne⟩
      exacts [.inr h, absurd h hne, .inl h]
  · rw [order_of_not_mem hx]
    exact ⟨fun h => ⟨h, fun heq => hx (heq ▸ h)⟩, And.left⟩

theorem length_order_le (l : List α) (x : α) : (order l x).length ≤ l.length := by
  by_cases hx : x ∈ l
  · obtain ⟨as, bs, rfl, hnot⟩ := List.eq_append_cons_of_mem hx
    rw [order_append hnot]
    simp only [List.length_append, List.length_cons]
    omega
  · rw [order_of_not_mem hx]

theorem length_order_lt (hx : x ∈ l) : (order l x).length < l.length := by
  obtain ⟨as, bs, rfl, hnot⟩ := List.eq_append_cons_of_mem hx
  rw [order_append hnot]
  simp only [List.length_append, List.length_cons]
  omega

/-- The members behind `y` come first. -/
theorem prefix_order_append {as bs cs : List α} (hl : (as ++ y :: bs).Nodup) (h : cs <+: bs ++ as) :
    cs <+: order (as ++ y :: bs) y := by
  have hy : y ∉ as := fun hmem => (List.nodup_append.1 hl).2.2 _ hmem _ List.mem_cons_self rfl
  rwa [order_append hy]

/-- The order goes on behind a member as it would from there. -/
theorem prefix_order {as bs : List α} (hl : l.Nodup) (h : order l x = as ++ y :: bs) : bs <+: order l y := by
  by_cases hx : x ∈ l
  · obtain ⟨us, vs, rfl, hnot⟩ := List.eq_append_cons_of_mem hx
    rw [order_append hnot] at h
    rcases List.append_eq_append_iff.1 h with ⟨ws, -, rfl⟩ | ⟨ws, rfl, hws⟩
    · rw [List.append_assoc, List.cons_append] at hl ⊢
      refine prefix_order_append hl ?_
      rw [List.append_assoc]
      exact List.prefix_append _ _
    · cases ws with
      | nil =>
        rw [List.nil_append] at hws
        subst hws
        rw [List.append_nil, List.cons_append, ← List.nil_append (y :: (bs ++ x :: as))] at hl ⊢
        refine prefix_order_append hl ?_
        rw [List.append_nil]
        exact List.prefix_append _ _
      | cons w ws =>
        obtain ⟨rfl, rfl⟩ := List.cons.inj hws
        have hsplit : us ++ x :: (as ++ y :: ws) = us ++ x :: as ++ y :: ws := by simp
        rw [hsplit] at hl ⊢
        refine prefix_order_append hl ?_
        rw [← List.append_assoc]
        exact List.prefix_append _ _
  · rw [order_of_not_mem hx] at h
    subst h
    exact prefix_order_append hl (List.prefix_append _ _)

theorem next_eq_some (h : next p l x = some y) : p y = true ∧ ∃ as bs, order l x = as ++ y :: bs ∧
    ∀ a ∈ as, p a = false := by
  rw [next, List.find?_eq_some_iff_append] at h
  obtain ⟨hy, as, bs, heq, has⟩ := h
  exact ⟨hy, as, bs, heq, fun a ha => by simpa using has a ha⟩

theorem mem_of_next (hl : l.Nodup) (h : next p l x = some y) : y ∈ l ∧ y ≠ x :=
  (mem_order hl).1 (List.mem_of_find?_eq_some h)

/-- Nobody comes next only if nobody else wants the turn. -/
theorem next_eq_none_iff (hl : l.Nodup) : next p l x = none ↔ ∀ y ∈ l, y ≠ x → p y = false := by
  rw [next, List.find?_eq_none]
  constructor
  · intro h y hy hne
    simpa using h y ((mem_order hl).2 ⟨hy, hne⟩)
  · intro h y hy
    obtain ⟨hmem, hne⟩ := (mem_order hl).1 hy
    simp [h y hmem hne]

theorem dist_lt_length (hl : l.Nodup) (ht : t ∈ l) (hne : t ≠ x) : dist l x t < l.length :=
  lt_of_lt_of_le (List.idxOf_lt_length_of_mem ((mem_order hl).2 ⟨ht, hne⟩)) (length_order_le l x)

theorem dist_le_pred (hl : l.Nodup) (hx : x ∈ l) (ht : t ∈ l) (hne : t ≠ x) : dist l x t + 1 < l.length :=
  lt_of_le_of_lt (List.idxOf_lt_length_of_mem ((mem_order hl).2 ⟨ht, hne⟩)) (length_order_lt hx)

/-- A turn that another gets brings the one that waits nearer. -/
theorem dist_next_lt (hl : l.Nodup) (ht : t ∈ l) (hne : t ≠ x) (hp : p t = true) (h : next p l x = some y)
    (hy : y ≠ t) : dist l y t < dist l x t := by
  obtain ⟨-, as, bs, heq, has⟩ := next_eq_some h
  have hmem : t ∈ order l x := (mem_order hl).2 ⟨ht, hne⟩
  have hnot : t ∉ as := fun hmem => absurd (has t hmem) (by rw [hp]; decide)
  rw [heq, List.mem_append, List.mem_cons] at hmem
  have hbs : t ∈ bs := (hmem.resolve_left hnot).resolve_left hy.symm
  obtain ⟨cs, hcs⟩ := prefix_order hl heq
  rw [dist, dist, heq, ← hcs, List.idxOf_append_of_mem hbs, List.idxOf_append_of_notMem hnot,
    List.idxOf_cons_ne _ hy]
  omega

end RoundRobin
