import Mathlib

/-!
# Doubly linked chains in a memory of words

A memory says what word stands at each address. A node takes two words: at its address `n` the address of the
node after it, at `n + 1` that of the node before it. `Linked m a ns z` says that in the memory `m` the nodes
`ns` stand between the ends `a` and `z`, linked both ways; of `a` only the forward word belongs to the chain
and of `z` only the backward word, so the ends may be parts of one header. `Linked.insert` and `Linked.remove`
are the two ways to change a chain with a few writes, `Linked.frame` says what else may be written.
-/

namespace Links

/-- What word stands at each address. -/
abbrev Mem := Nat → Nat

/-- One word written. -/
def write (m : Mem) (w v : Nat) : Mem := fun x => if x = w then v else m x

theorem write_same {m : Mem} {w v : Nat} : write m w v w = v := if_pos rfl

theorem write_other {m : Mem} {w v x : Nat} (h : x ≠ w) : write m w v x = m x := if_neg h

/-- `a` and `b` point at each other. -/
def Link (m : Mem) (a b : Nat) : Prop := m a = b ∧ m (b + 1) = a

/-- The nodes `ns` stand between the ends `a` and `z`. -/
def Linked (m : Mem) : Nat → List Nat → Nat → Prop
  | a, [], z => Link m a z
  | a, n :: ns, z => Link m a n ∧ Linked m n ns z

/-- The words of the nodes. -/
def nodeWords (ns : List Nat) : List Nat := ns.flatMap fun n => [n, n + 1]

/-- The words a chain is made of. -/
def words (a : Nat) (ns : List Nat) (z : Nat) : List Nat := a :: (z + 1) :: nodeWords ns

@[simp] theorem nodeWords_nil : nodeWords [] = [] := rfl

@[simp] theorem nodeWords_cons (n : Nat) (ns : List Nat) :
    nodeWords (n :: ns) = n :: (n + 1) :: nodeWords ns := rfl

theorem nodeWords_append (xs ys : List Nat) : nodeWords (xs ++ ys) = nodeWords xs ++ nodeWords ys :=
  List.flatMap_append

theorem mem_nodeWords {w : Nat} {ns : List Nat} : w ∈ nodeWords ns ↔ ∃ n ∈ ns, w = n ∨ w = n + 1 := by
  simp [nodeWords]

theorem mem_nodeWords_self {n : Nat} {ns : List Nat} (h : n ∈ ns) : n ∈ nodeWords ns :=
  mem_nodeWords.2 ⟨n, h, Or.inl rfl⟩

theorem mem_nodeWords_succ {n : Nat} {ns : List Nat} (h : n ∈ ns) : n + 1 ∈ nodeWords ns :=
  mem_nodeWords.2 ⟨n, h, Or.inr rfl⟩

theorem nodeWords_perm {xs ys : List Nat} (h : xs.Perm ys) : (nodeWords xs).Perm (nodeWords ys) :=
  h.flatMap_right _

theorem nodup_of_nodeWords {ns : List Nat} (h : (nodeWords ns).Nodup) : ns.Nodup := by
  induction ns with
  | nil => exact List.nodup_nil
  | cons n ns ih =>
    rw [nodeWords_cons, List.nodup_cons, List.nodup_cons] at h
    obtain ⟨hn, -, hns⟩ := h
    refine List.nodup_cons.2 ⟨fun hmem => hn ?_, ih hns⟩
    exact List.mem_cons_of_mem _ (mem_nodeWords_self hmem)

section chain
variable {m m' : Mem} {a z n w v : Nat} {ns xs ys : List Nat}

theorem Linked.frame (h : Linked m a ns z) (hw : ∀ w ∈ words a ns z, m' w = m w) : Linked m' a ns z := by
  induction ns generalizing a with
  | nil =>
    obtain ⟨hf, hb⟩ := h
    exact ⟨(hw a (by simp [words])).trans hf, (hw (z + 1) (by simp [words])).trans hb⟩
  | cons n ns ih =>
    obtain ⟨⟨hf, hb⟩, hrest⟩ := h
    refine ⟨⟨(hw a (by simp [words])).trans hf, (hw (n + 1) (by simp [words])).trans hb⟩, ih hrest ?_⟩
    intro w hmem
    apply hw
    simp only [words, nodeWords_cons, List.mem_cons] at hmem ⊢
    tauto

theorem linked_append : Linked m a (xs ++ n :: ys) z ↔ Linked m a xs n ∧ Linked m n ys z := by
  induction xs generalizing a with
  | nil => exact Iff.rfl
  | cons x xs ih => simp [Linked, ih, and_assoc]

/-- The node before the rest `ys` of a chain, and the one after its beginning `xs`. -/
def before (a : Nat) (xs : List Nat) : Nat := xs.getLastD a
def after (ys : List Nat) (z : Nat) : Nat := ys.headD z

@[simp] theorem before_nil : before a [] = a := rfl
@[simp] theorem before_cons (x : Nat) : before a (x :: xs) = before x xs := by
  cases xs <;> rfl
@[simp] theorem after_nil : after [] z = z := rfl
@[simp] theorem after_cons (y : Nat) : after (y :: ys) z = y := rfl

theorem before_mem (a : Nat) (xs : List Nat) : before a xs = a ∨ before a xs ∈ xs := by
  induction xs generalizing a with
  | nil => exact Or.inl rfl
  | cons x xs ih =>
    rw [before_cons]
    rcases ih x with h | h
    · rw [h]
      exact Or.inr List.mem_cons_self
    · exact Or.inr (List.mem_cons_of_mem _ h)

theorem after_mem (ys : List Nat) (z : Nat) : after ys z = z ∨ after ys z ∈ ys := by
  cases ys with
  | nil => exact Or.inl rfl
  | cons y ys => exact Or.inr List.mem_cons_self

theorem before_mem_words (a : Nat) (xs : List Nat) : before a xs ∈ a :: nodeWords xs := by
  rcases before_mem a xs with h | h
  · rw [h]
    exact List.mem_cons_self
  · exact List.mem_cons_of_mem _ (mem_nodeWords_self h)

theorem after_mem_words (ys : List Nat) (z : Nat) : after ys z + 1 ∈ (z + 1) :: nodeWords ys := by
  rcases after_mem ys z with h | h
  · rw [h]
    exact List.mem_cons_self
  · exact List.mem_cons_of_mem _ (mem_nodeWords_succ h)

theorem before_append (b : Nat) : before a (xs ++ [b]) = b := by
  simp [before]

/-- The two nodes around a cut of the chain point at each other. -/
theorem Linked.cut (xs ys : List Nat) (h : Linked m a (xs ++ ys) z) : Link m (before a xs) (after ys z) := by
  induction xs generalizing a with
  | nil =>
    cases ys with
    | nil => exact h
    | cons y ys => exact h.1
  | cons x xs ih =>
    rw [before_cons]
    exact ih h.2

theorem Linked.first (h : Linked m a ns z) : m a = after ns z := (Linked.cut [] ns h).1

theorem Linked.last (h : Linked m a ns z) : m (z + 1) = before a ns := by
  have hcut := Linked.cut ns [] (by simpa using h)
  exact hcut.2

/-- The words around a node are not its own, nor each other's. -/
theorem around_distinct (xs ys : List Nat) (hnd : (words a (xs ++ n :: ys) z).Nodup) :
    before a xs ≠ after ys z + 1 ∧ before a xs ≠ n ∧ before a xs ≠ n + 1 ∧ after ys z ≠ n ∧ after ys z + 1 ≠ n := by
  have hbef := before_mem_words a xs
  have haft := after_mem_words ys z
  simp only [words, nodeWords_append, nodeWords_cons, List.nodup_cons, List.mem_cons, List.mem_append,
    List.nodup_append, not_or] at hnd hbef haft
  grind

/-- A node put between the two around a cut: four words change. -/
theorem Linked.insert (h : Linked m a (xs ++ ys) z) (hnd : (words a (xs ++ n :: ys) z).Nodup)
    (hp : m' (before a xs) = n) (hq : m' (after ys z + 1) = n) (hs : m' n = after ys z)
    (hb : m' (n + 1) = before a xs)
    (hother : ∀ w, w ≠ before a xs → w ≠ after ys z + 1 → w ≠ n → w ≠ n + 1 → m' w = m w) :
    Linked m' a (xs ++ n :: ys) z := by
  induction xs generalizing a with
  | nil =>
    simp only [List.nil_append, before_nil] at h hp hb hother ⊢
    refine ⟨⟨hp, hb⟩, ?_⟩
    cases ys with
    | nil => exact ⟨hs, hq⟩
    | cons y ys =>
      refine ⟨⟨hs, hq⟩, h.2.frame ?_⟩
      intro w hw
      simp only [words, List.nil_append, nodeWords_cons, List.nodup_cons, List.mem_cons] at hnd hw
      apply hother w <;> (rw [after_cons] at *; grind)
  | cons x xs ih =>
    simp only [List.cons_append, before_cons] at h hp hb hother hnd ⊢
    obtain ⟨⟨hf, hk⟩, hrest⟩ := h
    have hbef := before_mem_words x xs
    have haft := after_mem_words ys z
    simp only [words, nodeWords_append, nodeWords_cons, List.nodup_cons, List.mem_cons, List.mem_append,
      not_or] at hnd hbef haft
    refine ⟨⟨?_, ?_⟩, ih hrest ?_ hp hb hother⟩
    · rw [hother a, hf] <;> grind
    · rw [hother (x + 1), hk] <;> grind
    · simp only [words, nodeWords_append, nodeWords_cons, List.nodup_cons, List.mem_cons, List.mem_append, not_or]
      tauto

/-- A node taken out: its two neighbours are set to point at each other. -/
theorem Linked.remove (h : Linked m a (xs ++ n :: ys) z) (hnd : (words a (xs ++ n :: ys) z).Nodup)
    (hp : m' (before a xs) = after ys z) (hq : m' (after ys z + 1) = before a xs)
    (hother : ∀ w, w ≠ before a xs → w ≠ after ys z + 1 → m' w = m w) : Linked m' a (xs ++ ys) z := by
  induction xs generalizing a with
  | nil =>
    simp only [List.nil_append, before_nil] at h hp hq hother ⊢
    cases ys with
    | nil => exact ⟨hp, hq⟩
    | cons y ys =>
      refine ⟨⟨hp, hq⟩, h.2.2.frame ?_⟩
      intro w hw
      simp only [words, List.nil_append, nodeWords_cons, List.nodup_cons, List.mem_cons] at hnd hw
      apply hother w <;> (rw [after_cons] at *; grind)
  | cons x xs ih =>
    simp only [List.cons_append, before_cons] at h hp hq hother hnd ⊢
    obtain ⟨⟨hf, hk⟩, hrest⟩ := h
    have hbef := before_mem_words x xs
    have haft := after_mem_words ys z
    simp only [words, nodeWords_append, nodeWords_cons, List.nodup_cons, List.mem_cons, List.mem_append,
      not_or] at hnd hbef haft
    refine ⟨⟨?_, ?_⟩, ih hrest ?_ hp hq hother⟩
    · rw [hother a, hf] <;> grind
    · rw [hother (x + 1), hk] <;> grind
    · simp only [words, nodeWords_append, nodeWords_cons, List.nodup_cons, List.mem_cons, List.mem_append, not_or]
      tauto

end chain

end Links
