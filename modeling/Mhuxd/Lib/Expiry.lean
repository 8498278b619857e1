import Mathlib

/-!
# Queues that expire at their head

Entries carry a time, and only the head of the queue is looked at when old entries are removed. That
removes every old entry while the times ascend. `Ascending` allows for entries whose time was renewed
where they stand: behind such an entry an old one may be left.
-/

namespace Expiry

variable {α : Type*} {time : α → Nat} {renewed : α → Prop} {l l' : List α} {q : α} {lim t : Nat}

/-- The times ascend, but for entries that were renewed. -/
def Ascending (time : α → Nat) (renewed : α → Prop) (l : List α) : Prop :=
  l.Pairwise fun p q => time p ≤ time q ∨ renewed p

theorem Ascending.sublist (h : Ascending time renewed l) (hs : l'.Sublist l) : Ascending time renewed l' :=
  List.Pairwise.sublist hs h

/-- A new entry is no older than those before it. -/
theorem Ascending.push (h : Ascending time renewed l) (hq : ∀ p ∈ l, time p ≤ time q) :
    Ascending time renewed (l ++ [q]) :=
  List.pairwise_append.2 ⟨h, List.pairwise_singleton _ _, fun p hp x hx => by
    rw [List.mem_singleton.1 hx]
    exact .inl (hq p hp)⟩

/-- An entry is renewed where it stands. -/
theorem Ascending.renew {as bs : List α} {p p' : α} (h : Ascending time renewed (as ++ p :: bs))
    (hp : ∀ a ∈ as, time a ≤ time p') (hr : renewed p') : Ascending time renewed (as ++ p' :: bs) := by
  obtain ⟨has, hbs, hab⟩ := List.pairwise_append.1 h
  refine List.pairwise_append.2 ⟨has, ?_, fun a ha x hx => ?_⟩
  · exact List.pairwise_cons.2 ⟨fun _ _ => .inr hr, (List.pairwise_cons.1 hbs).2⟩
  · rcases List.mem_cons.1 hx with rfl | hx
    · exact .inl (hp a ha)
    · exact hab a ha x (List.mem_cons_of_mem _ hx)

/-- The entries at the head that are older than `lim` are removed. -/
def expire (time : α → Nat) (lim t : Nat) (l : List α) : List α := l.dropWhile fun p => decide (time p + lim < t)

theorem expire_sublist (l : List α) : (expire time lim t l).Sublist l := List.dropWhile_sublist _

/-- What is left is not old, or stands behind an entry that was renewed and isn't old. -/
theorem Ascending.fresh_or (h : Ascending time renewed l) (hq : q ∈ expire time lim t l) :
    t ≤ time q + lim ∨ ∃ p, [p, q].Sublist l ∧ renewed p ∧ t ≤ time p + lim := by
  induction l with
  | nil => exact absurd hq List.not_mem_nil
  | cons p l ih =>
    obtain ⟨hp, hl⟩ := List.pairwise_cons.1 h
    by_cases hold : time p + lim < t
    · rw [expire, List.dropWhile_cons_of_pos (by simpa using hold)] at hq
      rcases ih hl hq with hfresh | ⟨x, hx, hr, hfresh⟩
      · exact .inl hfresh
      · exact .inr ⟨x, hx.cons p, hr, hfresh⟩
    · rw [expire, List.dropWhile_cons_of_neg (by simpa using hold)] at hq
      rcases List.mem_cons.1 hq with rfl | hq
      · left
        omega
      · rcases hp q hq with hle | hr
        · left
          omega
        · right
          exact ⟨p, (List.singleton_sublist.2 hq).cons_cons p, hr, by omega⟩

end Expiry
