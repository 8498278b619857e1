import Mathlib

/-!
# Items off a buffer

`next` looks for an item at the start of a buffer: it needs more, it finds the bytes to be bad, or it takes one
item off. `drain` does so until no item is left, handing each one to `act`, which may halt. `Drains` is its
meaning as a relation.

A `Stable` parser doesn't change its mind when more follows, and needs no byte beyond an item to see it: what is
drained of a buffer in pieces is what is drained of it as a whole.
-/

namespace Framing

variable {α β σ ε : Type*}

inductive Parsed (α β : Type*)
  | more
  | bad
  | item (b : β) (rest : List α)

/-- How draining ends. A halt is at an item: `xs` begins with it, `rest` follows it. -/
inductive End (α ε : Type*)
  | more (rest : List α)
  | bad
  | halt (e : ε) (xs rest : List α)

structure Stable (next : List α → Parsed α β) : Prop where
  nil : next [] = .more
  append : ∀ {xs b rest}, next xs = .item b rest → ∀ ys, next (xs ++ ys) = .item b (rest ++ ys)
  bad_append : ∀ {xs}, next xs = .bad → ∀ ys, next (xs ++ ys) = .bad
  tight : ∀ {xs b rest}, next xs = .item b rest → ∃ pre, pre ≠ [] ∧ xs = pre ++ rest ∧ next pre = .item b []

/-- At most `n` items. -/
def drain (next : List α → Parsed α β) (act : σ → β → σ × Option ε) : Nat → σ → List α → σ × End α ε
  | 0, s, xs => (s, .more xs)
  | n + 1, s, xs =>
    match next xs with
    | .more => (s, .more xs)
    | .bad => (s, .bad)
    | .item b rest =>
      match act s b with
      | (s, none) => drain next act n s rest
      | (s, some e) => (s, .halt e xs rest)

/-- What `drain` does with enough rounds. -/
inductive Drains (next : List α → Parsed α β) (act : σ → β → σ × Option ε) : σ → List α → σ → End α ε → Prop
  | more {s xs} (h : next xs = .more) : Drains next act s xs s (.more xs)
  | bad {s xs} (h : next xs = .bad) : Drains next act s xs s .bad
  | go {s xs b rest s' s'' e} (h : next xs = .item b rest) (ha : act s b = (s', none))
      (hd : Drains next act s' rest s'' e) : Drains next act s xs s'' e
  | halt {s xs b rest s' e} (h : next xs = .item b rest) (ha : act s b = (s', some e)) :
      Drains next act s xs s' (.halt e xs rest)

variable {next : List α → Parsed α β} {act : σ → β → σ × Option ε} {s s' s'' : σ} {xs ys rest : List α} {e e' : End α ε}
  {b : β}

theorem Stable.shrinks (hn : Stable next) (h : next xs = .item b rest) : rest.length < xs.length := by
  obtain ⟨pre, hne, rfl, -⟩ := hn.tight h
  have hpos := List.length_pos_of_ne_nil hne
  rw [List.length_append]
  omega

/-- With more rounds than elements all is drained. -/
theorem drains_drain (hn : Stable next) (act : σ → β → σ × Option ε) {n : Nat} (s : σ) (hlen : xs.length < n) :
    Drains next act s xs (drain next act n s xs).1 (drain next act n s xs).2 := by
  induction n generalizing s xs with
  | zero => omega
  | succ n ih =>
    rw [drain]
    rcases hp : next xs with _ | _ | ⟨b, rest⟩
    · exact .more hp
    · exact .bad hp
    · have hshort := hn.shrinks hp
      rcases ha : act s b with ⟨s', _ | e⟩
      · simp only [ha]
        exact .go hp ha (ih s' (by omega))
      · simp only [ha]
        exact .halt hp ha

theorem Drains.of_more (h : Drains next act s xs s' e) (hp : next xs = .more) : s' = s ∧ e = .more xs := by
  cases h <;> simp_all

theorem Drains.of_bad (h : Drains next act s xs s' e) (hp : next xs = .bad) : s' = s ∧ e = .bad := by
  cases h <;> simp_all

theorem Drains.of_go (h : Drains next act s xs s' e) (hp : next xs = .item b rest) (ha : act s b = (s'', none)) :
    Drains next act s'' rest s' e := by
  cases h <;> simp_all

theorem Drains.of_halt {x : ε} (h : Drains next act s xs s' e) (hp : next xs = .item b rest) (ha : act s b = (s'', some x)) :
    s' = s'' ∧ e = .halt x xs rest := by
  cases h <;> simp_all

/-- Draining has one result. -/
theorem Drains.det (h : Drains next act s xs s' e) (h' : Drains next act s xs s'' e') : s'' = s' ∧ e' = e := by
  induction h with
  | more hp => exact h'.of_more hp
  | bad hp => exact h'.of_bad hp
  | go hp ha _ ih => exact ih (h'.of_go hp ha)
  | halt hp ha => exact h'.of_halt hp ha

theorem Drains.drain_eq (hn : Stable next) (h : Drains next act s xs s' e) {n : Nat} (hlen : xs.length < n) :
    drain next act n s xs = (s', e) := by
  obtain ⟨hs, he⟩ := h.det (drains_drain hn act s hlen)
  rw [← hs, ← he]

/-- What is left is short of an item. -/
theorem Drains.rest_more (h : Drains next act s xs s' (.more rest)) : next rest = .more := by
  generalize he : End.more rest = e at h
  induction h with
  | more hp => cases he; exact hp
  | bad => cases he
  | go _ _ _ ih => exact ih he
  | halt => cases he

/-- More comes after what is left. -/
theorem Drains.append (hn : Stable next) (h : Drains next act s xs s' (.more rest))
    (h' : Drains next act s' (rest ++ ys) s'' e) : Drains next act s (xs ++ ys) s'' e := by
  generalize he : End.more rest = e₁ at h
  induction h with
  | more => cases he; exact h'
  | bad => cases he
  | go hp ha _ ih => exact .go (hn.append hp ys) ha (ih h' he)
  | halt => cases he

theorem Drains.bad_append (hn : Stable next) (h : Drains next act s xs s' .bad) (ys : List α) :
    Drains next act s (xs ++ ys) s' .bad := by
  generalize he : End.bad = e at h
  induction h with
  | more => cases he
  | bad hp => exact .bad (hn.bad_append hp ys)
  | go hp ha _ ih => exact .go (hn.append hp ys) ha (ih he)
  | halt => cases he

theorem Drains.halt_append (hn : Stable next) {x : ε} {at_ : List α} (h : Drains next act s xs s' (.halt x at_ rest))
    (ys : List α) : Drains next act s (xs ++ ys) s' (.halt x (at_ ++ ys) (rest ++ ys)) := by
  generalize he : End.halt x at_ rest = e at h
  induction h with
  | more => cases he
  | bad => cases he
  | go hp ha _ ih => exact .go (hn.append hp ys) ha (ih he)
  | halt hp ha => cases he; exact .halt (hn.append hp ys) ha

/-- Draining what halts at an item stops before it if the buffer does. -/
theorem Drains.before_halt (hn : Stable next) {x : ε} {at_ : List α} (h : Drains next act s xs s' (.halt x at_ rest)) :
    ∃ pre b s₁, xs = pre ++ at_ ∧ next at_ = .item b rest ∧ act s₁ b = (s', some x) ∧
      Drains next act s pre s₁ (.more []) := by
  generalize he : End.halt x at_ rest = e at h
  induction h with
  | more => cases he
  | bad => cases he
  | go hp ha _ ih =>
    obtain ⟨pre, b, s₁, rfl, hat, hact, hd⟩ := ih he
    obtain ⟨item, -, rfl, hitem⟩ := hn.tight hp
    refine ⟨item ++ pre, b, s₁, (List.append_assoc ..).symm, hat, hact, ?_⟩
    exact .go (hn.append hitem pre) ha hd
  | halt hp ha =>
    cases he
    exact ⟨[], _, _, rfl, hp, ha, .more hn.nil⟩

end Framing
