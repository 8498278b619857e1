import Mathlib
import Mhuxd.Lib.Links
import Mhuxd.Lib.Run

/-!
# The lists of the daemon

`pglist.c` keeps a list as a header of three words, `pl_Head`, `pl_Tail` and `pl_TailPred`, and each entry by the
two words `pn_Succ` and `pn_Pred` of a node inside of it. `pl_Tail` is always NULL and is a part of two sentinel
nodes at once: the one at the header's own address and the one a word after it. The memory is a memory of words,
the lists of sequences are what it stands for, and `pgOps_run` says that every order of the operations keeps the
two together.
-/

namespace PgList
open Links

/-- `assert(l->pl_TailPred)`. -/
def assertTail (l : Nat) (m : Mem) : Option Mem := if m (l + 2) = 0 then none else some m

/-- `PG_NewList`. -/
def pgNewList (m : Mem) (l : Nat) : Option Mem :=
  let m := write m l (l + 1)
  let m := write m (l + 1) 0
  let m := write m (l + 2) l
  assertTail l m

/-- `PG_AddHead`. -/
def pgAddHead (m : Mem) (l n : Nat) : Option Mem :=
  let m := write m (n + 1) l
  let m := write m n (m l)
  let m := write m (m n + 1) n
  let m := write m l n
  assertTail l m

/-- `PG_AddTail`. -/
def pgAddTail (m : Mem) (l n : Nat) : Option Mem :=
  let m := write m (m (l + 2)) n
  let m := write m (n + 1) (m (l + 2))
  let m := write m n (l + 1)
  let m := write m (l + 2) n
  assertTail l m

/-- `PG_Insert`. -/
def pgInsert (m : Mem) (l nnew after : Nat) : Option Mem :=
  let m := write m (nnew + 1) after
  let m := write m nnew (m after)
  let m := write m (m after + 1) nnew
  let m := write m after nnew
  assertTail l m

/-- `PG_Remove`. The words of `n` itself stay as they are. -/
def pgRemove (m : Mem) (n : Nat) : Mem :=
  let m := write m (m n + 1) (m (n + 1))
  write m (m (n + 1)) (m n)

/-- The loop of `PG_Contains` and `PG_CheckedRemove` at the node `s`. -/
def findFrom (m : Mem) (n : Nat) : Nat → Nat → Option Bool
  | 0, _ => none
  | fuel + 1, s => if m s = 0 then some false else if n = s then some true else findFrom m n fuel (m s)

/-- The loop of `PG_Count` at the node `n`. -/
def countFrom (m : Mem) : Nat → Nat → Nat → Option Nat
  | 0, _, _ => none
  | fuel + 1, cnt, n => if m n = 0 then some cnt else countFrom m fuel (cnt + 1) (m n)

/-- `PG_Contains`. -/
def pgContains (fuel : Nat) (m : Mem) (l n : Nat) : Option Bool := findFrom m n fuel (m l)

/-- `PG_Count`. -/
def pgCount (fuel : Nat) (m : Mem) (l : Nat) : Option Nat := countFrom m fuel 0 (m l)

/-- `PG_CheckedRemove`. -/
def pgCheckedRemove (fuel : Nat) (m : Mem) (l n : Nat) : Option (Mem × Bool) :=
  (findFrom m n fuel (m l)).map fun found => (if found then pgRemove m n else m, found)

/-- `PG_LISTEMPTY`, `PG_FIRSTENTRY` and `PG_LASTENTRY`. -/
def pgListEmpty (m : Mem) (l : Nat) : Bool := m (m l) == 0
def pgFirstEntry (m : Mem) (l : Nat) : Nat := if pgListEmpty m l then 0 else m l
def pgLastEntry (m : Mem) (l : Nat) : Nat := if pgListEmpty m l then 0 else m (l + 2)

/-- What code does with lists; `other` is a word written elsewhere. -/
inductive Op where
  | newList (l : Nat)
  | addHead (l n : Nat)
  | addTail (l n : Nat)
  | insert (l n after : Nat)
  | remove (n : Nat)
  | checkedRemove (l n : Nat)
  | contains (l n : Nat)
  | count (l : Nat)
  | listEmpty (l : Nat)
  | firstEntry (l : Nat)
  | lastEntry (l : Nat)
  | other (w v : Nat)

/-- An operation on the memory, with what it returns (0 where it returns nothing). -/
def exec (fuel : Nat) (m : Mem) : Op → Option (Mem × Nat)
  | .newList l => (pgNewList m l).map (·, 0)
  | .addHead l n => (pgAddHead m l n).map (·, 0)
  | .addTail l n => (pgAddTail m l n).map (·, 0)
  | .insert l n after => (pgInsert m l n after).map (·, 0)
  | .remove n => some (pgRemove m n, 0)
  | .checkedRemove l n => (pgCheckedRemove fuel m l n).map fun r => (r.1, r.2.toNat)
  | .contains l n => (pgContains fuel m l n).map fun r => (m, r.toNat)
  | .count l => (pgCount fuel m l).map (m, ·)
  | .listEmpty l => some (m, (pgListEmpty m l).toNat)
  | .firstEntry l => some (m, pgFirstEntry m l)
  | .lastEntry l => some (m, pgLastEntry m l)
  | .other w v => some (write m w v, 0)

/-- The memory and the answers so far; `none` after a failed assertion or a scan that did not end. -/
def step (fuel : Nat) (s : Option (Mem × List Nat)) (op : Op) : Option (Mem × List Nat) :=
  s.bind fun (m, outs) => (exec fuel m op).map fun (m', out) => (m', outs ++ [out])

theorem step_eq {fuel : Nat} {m m' : Mem} {op : Op} {out : Nat} {outs : List Nat}
    (h : exec fuel m op = some (m', out)) : step fuel (some (m, outs)) op = some (m', outs ++ [out]) := by
  simp [step, h]

/-! ## What the memory stands for -/

/-- The lists there are, and the nodes of each. -/
structure Lists where
  heads : List Nat
  nodes : Nat → List Nat

namespace Lists

def none : Lists := ⟨[], fun _ => []⟩

def setNodes (st : Lists) (l : Nat) (ns : List Nat) : Lists :=
  { st with nodes := fun x => if x = l then ns else st.nodes x }

@[simp] theorem setNodes_nodes_self (st : Lists) (l : Nat) (ns : List Nat) : (st.setNodes l ns).nodes l = ns :=
  if_pos rfl

theorem setNodes_nodes_of_ne (st : Lists) {l x : Nat} (ns : List Nat) (h : x ≠ l) :
    (st.setNodes l ns).nodes x = st.nodes x := if_neg h

def create (st : Lists) (l : Nat) : Lists :=
  { heads := if l ∈ st.heads then st.heads else l :: st.heads, nodes := fun x => if x = l then [] else st.nodes x }

/-- `n` put after `a`. -/
def insertAfter (a n : Nat) : List Nat → List Nat
  | [] => []
  | x :: xs => if x = a then x :: n :: xs else x :: insertAfter a n xs

end Lists

/-- The words of the list at `l`: its header and its nodes. -/
def cells (l : Nat) (ns : List Nat) : List Nat := (l + 1) :: words l ns (l + 1)

/-- An operation on the lists, with what it returns. -/
def Lists.apply (st : Lists) : Op → Lists × Nat
  | .newList l => (st.create l, 0)
  | .addHead l n => (st.setNodes l (n :: st.nodes l), 0)
  | .addTail l n => (st.setNodes l (st.nodes l ++ [n]), 0)
  | .insert l n after =>
    (st.setNodes l (if after = l then n :: st.nodes l else Lists.insertAfter after n (st.nodes l)), 0)
  | .remove n => ({ st with nodes := fun l => (st.nodes l).erase n }, 0)
  | .checkedRemove l n => (st.setNodes l ((st.nodes l).erase n), (decide (n ∈ st.nodes l)).toNat)
  | .contains l n => (st, (decide (n ∈ st.nodes l)).toNat)
  | .count l => (st, (st.nodes l).length)
  | .listEmpty l => (st, (st.nodes l).isEmpty.toNat)
  | .firstEntry l => (st, (st.nodes l).headD 0)
  | .lastEntry l => (st, (st.nodes l).getLastD 0)
  | .other _ _ => (st, 0)

/-- A word that no list uses. -/
def Lists.Free (st : Lists) (w : Nat) : Prop := ∀ l ∈ st.heads, w ∉ cells l (st.nodes l)

/-- What a caller must see to: a list is set up in memory of its own, a node is added when it is in no list and
removed when it is in one, and no other code writes to the words of a list. -/
def Lists.Ok (st : Lists) : Op → Prop
  | .newList l => l ≠ 0 ∧ ∀ l' ∈ st.heads, l' ≠ l → ∀ w ∈ [l, l + 1, l + 2], w ∉ cells l' (st.nodes l')
  | .addHead l n => l ∈ st.heads ∧ n ≠ 0 ∧ st.Free n ∧ st.Free (n + 1)
  | .addTail l n => l ∈ st.heads ∧ n ≠ 0 ∧ st.Free n ∧ st.Free (n + 1)
  | .insert l n after => l ∈ st.heads ∧ n ≠ 0 ∧ st.Free n ∧ st.Free (n + 1) ∧ after ∈ l :: st.nodes l
  | .remove n => ∃ l ∈ st.heads, n ∈ st.nodes l
  | .checkedRemove l _ => l ∈ st.heads
  | .contains l _ => l ∈ st.heads
  | .count l => l ∈ st.heads
  | .listEmpty l => l ∈ st.heads
  | .firstEntry l => l ∈ st.heads
  | .lastEntry l => l ∈ st.heads
  | .other w _ => st.Free w

/-- The lists lie apart in memory. -/
structure Lists.WF (st : Lists) : Prop where
  nodup : ∀ l ∈ st.heads, (cells l (st.nodes l)).Nodup
  nonzero : ∀ l ∈ st.heads, 0 ∉ cells l (st.nodes l)
  apart : ∀ l ∈ st.heads, ∀ l' ∈ st.heads, l' ≠ l → ∀ w ∈ cells l (st.nodes l), w ∉ cells l' (st.nodes l')

/-- The memory holds the list at `l` with the nodes `ns`. -/
structure Holds (m : Mem) (l : Nat) (ns : List Nat) : Prop where
  linked : Linked m l ns (l + 1)
  tail : m (l + 1) = 0

/-- The memory stands for the lists. -/
structure Rep (m : Mem) (st : Lists) : Prop where
  wf : st.WF
  holds : ∀ l ∈ st.heads, Holds m l (st.nodes l)

section cells
variable {m m' : Mem} {l n w : Nat} {ns ns' : List Nat} {st : Lists}

theorem mem_cells : w ∈ cells l ns ↔ w = l ∨ w = l + 1 ∨ w = l + 2 ∨ w ∈ nodeWords ns := by
  simp only [cells, words, List.mem_cons]
  tauto

theorem mem_cells_node (h : n ∈ ns) : n ∈ cells l ns := mem_cells.2 (by simp [mem_nodeWords_self h])

theorem nodup_words (h : (cells l ns).Nodup) : (words l ns (l + 1)).Nodup := (List.nodup_cons.1 h).2

theorem Holds.frame (h : Holds m l ns) (hw : ∀ w ∈ cells l ns, m' w = m w) : Holds m' l ns := by
  refine ⟨h.linked.frame fun w hmem => hw w (List.mem_cons_of_mem _ hmem), ?_⟩
  rw [hw _ List.mem_cons_self, h.tail]

/-- A list whose words were free or its own before. -/
theorem Lists.WF.setNodes (h : st.WF) (hl : l ∈ st.heads) (hnd : (cells l ns).Nodup)
    (hsub : ∀ w ∈ cells l ns, w ∈ cells l (st.nodes l) ∨ w ≠ 0 ∧ st.Free w) : (st.setNodes l ns).WF := by
  have hnew : ∀ l' ∈ st.heads, l' ≠ l → ∀ w ∈ cells l ns, w ∉ cells l' (st.nodes l') := by
    intro l' hl' hne w hw
    rcases hsub w hw with hold | ⟨-, hfree⟩
    · exact h.apart l hl l' hl' hne w hold
    · exact hfree l' hl'
  constructor
  · intro x hx
    by_cases hxl : x = l
    · rw [hxl, st.setNodes_nodes_self]
      exact hnd
    · rw [st.setNodes_nodes_of_ne ns hxl]
      exact h.nodup x hx
  · intro x hx
    by_cases hxl : x = l
    · rw [hxl, st.setNodes_nodes_self]
      intro hz
      rcases hsub 0 hz with hold | ⟨hne, -⟩
      · exact h.nonzero l hl hold
      · exact hne rfl
    · rw [st.setNodes_nodes_of_ne ns hxl]
      exact h.nonzero x hx
  · intro x hx y hy hne w hw
    by_cases hxl : x = l
    · rw [hxl, st.setNodes_nodes_self] at hw
      rw [st.setNodes_nodes_of_ne ns (hxl ▸ hne)]
      exact hnew y hy (hxl ▸ hne) w hw
    · rw [st.setNodes_nodes_of_ne ns hxl] at hw
      by_cases hyl : y = l
      · rw [hyl, st.setNodes_nodes_self]
        exact fun hmem => hnew x hx hxl w hmem hw
      · rw [st.setNodes_nodes_of_ne ns hyl]
        exact h.apart x hx y hy hne w hw

/-- One list is changed, and only words of it are written. -/
theorem Rep.setNodes (h : Rep m st) (hl : l ∈ st.heads) (hwf : (st.setNodes l ns).WF) (hnew : Holds m' l ns)
    (hother : ∀ w, w ∉ cells l (st.nodes l) → w ∉ cells l ns → m' w = m w) : Rep m' (st.setNodes l ns) := by
  refine ⟨hwf, ?_⟩
  intro x hx
  by_cases hxl : x = l
  · rw [hxl, st.setNodes_nodes_self]
    exact hnew
  · rw [st.setNodes_nodes_of_ne ns hxl]
    refine (h.holds x hx).frame fun w hw => hother w ?_ ?_
    · exact h.wf.apart x hx l hl (Ne.symm hxl) w hw
    · have hap := hwf.apart x hx l hl (Ne.symm hxl) w
      rw [st.setNodes_nodes_of_ne ns hxl, st.setNodes_nodes_self] at hap
      exact hap hw

theorem mem_cells_insert {xs ys : List Nat} :
    w ∈ cells l (xs ++ n :: ys) ↔ w = n ∨ w = n + 1 ∨ w ∈ cells l (xs ++ ys) := by
  simp only [mem_cells, nodeWords_append, nodeWords_cons, List.mem_append, List.mem_cons]
  tauto

theorem nodup_cells_insert {xs ys : List Nat} :
    (cells l (xs ++ n :: ys)).Nodup ↔
      n ∉ cells l (xs ++ ys) ∧ n + 1 ∉ cells l (xs ++ ys) ∧ (cells l (xs ++ ys)).Nodup := by
  have hperm : (cells l (xs ++ n :: ys)).Perm (n :: (n + 1) :: cells l (xs ++ ys)) := by
    have hnodes : (nodeWords (xs ++ n :: ys)).Perm (n :: (n + 1) :: nodeWords (xs ++ ys)) :=
      nodeWords_perm List.perm_middle
    simp only [cells, words]
    refine ((hnodes.cons _).cons _).cons _ |>.trans ?_
    have hswap : ([l + 1, l, l + 1 + 1] ++ [n, n + 1]).Perm ([n, n + 1] ++ [l + 1, l, l + 1 + 1]) :=
      List.perm_append_comm
    exact hswap.append_right _
  rw [hperm.nodup_iff, List.nodup_cons, List.nodup_cons, List.mem_cons, not_or]
  constructor
  · rintro ⟨⟨-, hn⟩, hn', hnd⟩
    exact ⟨hn, hn', hnd⟩
  · rintro ⟨hn, hn', hnd⟩
    exact ⟨⟨by omega, hn⟩, hn', hnd⟩

end cells

/-! ## One operation -/

section ops
variable {m m' : Mem} {l n : Nat} {xs ys ns : List Nat} {st : Lists}

/-- The four words that put `n` between `p` and `q`. -/
structure Spliced (m m' : Mem) (p n q : Nat) : Prop where
  forth : m' p = n
  back : m' (q + 1) = n
  succ : m' n = q
  pred : m' (n + 1) = p
  other : ∀ w, w ≠ p → w ≠ q + 1 → w ≠ n → w ≠ n + 1 → m' w = m w

theorem before_mem_list : before l xs ∈ words l (xs ++ ys) (l + 1) := by
  have hmem := before_mem_words l xs
  simp only [words, nodeWords_append, List.mem_cons, List.mem_append] at hmem ⊢
  tauto

theorem after_mem_list : after ys (l + 1) + 1 ∈ words l (xs ++ ys) (l + 1) := by
  have hmem := after_mem_words ys (l + 1)
  simp only [words, nodeWords_append, List.mem_cons, List.mem_append] at hmem ⊢
  tauto

theorem Holds.spliced (h : Holds m l (xs ++ ys)) (hnd : (cells l (xs ++ n :: ys)).Nodup)
    (hs : Spliced m m' (before l xs) n (after ys (l + 1))) : Holds m' l (xs ++ n :: ys) := by
  refine ⟨h.linked.insert (nodup_words hnd) hs.forth hs.back hs.succ hs.pred hs.other, ?_⟩
  obtain ⟨hn, hn', hnd'⟩ := nodup_cells_insert.1 hnd
  have htail : l + 1 ∉ words l (xs ++ ys) (l + 1) := (List.nodup_cons.1 hnd').1
  rw [hs.other, h.tail]
  · exact (ne_of_mem_of_not_mem before_mem_list htail).symm
  · exact (ne_of_mem_of_not_mem after_mem_list htail).symm
  · exact fun he => hn (he ▸ List.mem_cons_self)
  · exact fun he => hn' (he ▸ List.mem_cons_self)

/-- The header's last word is the node before the end, and never NULL. -/
theorem Holds.tailPred (h : Holds m l ns) : m (l + 2) = before l ns := h.linked.last

theorem before_ne_zero (hl : l ≠ 0) (hns : 0 ∉ cells l ns) : before l ns ≠ 0 := by
  rcases before_mem l ns with h | h
  · rwa [h]
  · exact fun h0 => hns (mem_cells_node (h0 ▸ h))

theorem ne_zero_of_cells (h : 0 ∉ cells l ns) : l ≠ 0 := fun h0 => h (mem_cells.2 (Or.inl h0.symm))

theorem Holds.assertTail (h : Holds m l ns) (hz : 0 ∉ cells l ns) : assertTail l m = some m := by
  rw [PgList.assertTail, h.tailPred, if_neg (before_ne_zero (ne_zero_of_cells hz) hz)]

/-- The memory after `PG_AddHead`. -/
theorem pgAddHead_spliced (h : Holds m l ns) (hnd : (cells l (n :: ns)).Nodup) :
    ∃ m', pgAddHead m l n = PgList.assertTail l m' ∧ Spliced m m' l n (after ns (l + 1)) := by
  obtain ⟨h1, h2, h3, h4, h5⟩ := around_distinct [] ns (nodup_words hnd)
  have hq := h.linked.first
  refine ⟨_, rfl, ?_⟩
  simp only [before_nil] at h1 h2 h3
  constructor <;> simp [write] <;> grind

/-- The memory after `PG_AddTail`. -/
theorem pgAddTail_spliced (h : Holds m l ns) (hnd : (cells l (ns ++ [n])).Nodup) :
    ∃ m', pgAddTail m l n = PgList.assertTail l m' ∧ Spliced m m' (before l ns) n (l + 1) := by
  obtain ⟨h1, h2, h3, h4, h5⟩ := around_distinct ns [] (nodup_words hnd)
  have hp := h.tailPred
  refine ⟨_, rfl, ?_⟩
  simp only [after_nil] at h1 h4 h5
  constructor <;> simp [write] <;> grind

/-- The memory after `PG_Insert`. -/
theorem pgInsert_spliced (xs ys : List Nat) (h : Holds m l (xs ++ ys)) (hnd : (cells l (xs ++ n :: ys)).Nodup) :
    ∃ m', pgInsert m l n (before l xs) = PgList.assertTail l m' ∧
      Spliced m m' (before l xs) n (after ys (l + 1)) := by
  obtain ⟨h1, h2, h3, h4, h5⟩ := around_distinct xs ys (nodup_words hnd)
  have hcut := h.linked.cut xs ys
  refine ⟨_, rfl, ?_⟩
  obtain ⟨hf, hb⟩ := hcut
  constructor <;> simp [write] <;> grind

/-- `PG_Remove` keeps what is not around `n`. -/
theorem pgRemove_eq (h : Holds m l (xs ++ n :: ys)) (hnd : (cells l (xs ++ n :: ys)).Nodup) :
    pgRemove m n (before l xs) = after ys (l + 1) ∧ pgRemove m n (after ys (l + 1) + 1) = before l xs ∧
      ∀ w, w ≠ before l xs → w ≠ after ys (l + 1) + 1 → pgRemove m n w = m w := by
  obtain ⟨h1, h2, h3, h4, h5⟩ := around_distinct xs ys (nodup_words hnd)
  obtain ⟨hf, hb⟩ := linked_append.1 h.linked
  have hp : m (n + 1) = before l xs := hf.last
  have hs : m n = after ys (l + 1) := hb.first
  simp only [pgRemove, write]
  grind

/-- A scan ends at the end `z` and at no node before. -/
theorem succ_ne_zero {z x : Nat} (hns : 0 ∉ x :: ns) (hz : z ≠ 0) (h : Linked m x ns z) : m x ≠ 0 := by
  rw [h.first]
  rcases after_mem ns z with ha | ha
  · rwa [ha]
  · exact fun h0 => hns (List.mem_cons_of_mem _ (h0 ▸ ha))

theorem findFrom_eq {a z fuel : Nat} (h : Linked m a ns z) (hend : m z = 0) (hz : z ≠ 0) (hns : 0 ∉ ns)
    (hf : ns.length < fuel) : findFrom m n fuel (m a) = some (decide (n ∈ ns)) := by
  induction ns generalizing a fuel with
  | nil =>
    obtain ⟨k, rfl⟩ : ∃ k, fuel = k + 1 := ⟨fuel - 1, by simp at hf; omega⟩
    have ha : m a = z := h.1
    simp [findFrom, ha, hend]
  | cons x ns ih =>
    obtain ⟨k, rfl⟩ : ∃ k, fuel = k + 1 := ⟨fuel - 1, by simp at hf; omega⟩
    obtain ⟨⟨ha, -⟩, hrest⟩ := h
    have hx : m x ≠ 0 := succ_ne_zero hns hz hrest
    rw [findFrom, ha, if_neg hx]
    by_cases hnx : n = x
    · simp [hnx]
    · rw [if_neg hnx, ih hrest (fun h0 => hns (List.mem_cons_of_mem _ h0)) (by simpa using hf)]
      simp [hnx]

theorem countFrom_eq {a z fuel : Nat} (cnt : Nat) (h : Linked m a ns z) (hend : m z = 0) (hz : z ≠ 0) (hns : 0 ∉ ns)
    (hf : ns.length < fuel) : countFrom m fuel cnt (m a) = some (cnt + ns.length) := by
  induction ns generalizing a fuel cnt with
  | nil =>
    obtain ⟨k, rfl⟩ : ∃ k, fuel = k + 1 := ⟨fuel - 1, by simp at hf; omega⟩
    have ha : m a = z := h.1
    simp [countFrom, ha, hend]
  | cons x ns ih =>
    obtain ⟨k, rfl⟩ : ∃ k, fuel = k + 1 := ⟨fuel - 1, by simp at hf; omega⟩
    obtain ⟨⟨ha, -⟩, hrest⟩ := h
    have hx : m x ≠ 0 := succ_ne_zero hns hz hrest
    rw [countFrom, ha, if_neg hx, ih _ hrest (fun h0 => hns (List.mem_cons_of_mem _ h0)) (by simpa using hf),
      List.length_cons]
    simp only [Option.some.injEq]
    omega

theorem zero_not_mem_nodes (hz : 0 ∉ cells l ns) : 0 ∉ ns := fun h => hz (mem_cells_node h)

theorem Holds.listEmpty (h : Holds m l ns) (hz : 0 ∉ cells l ns) : pgListEmpty m l = ns.isEmpty := by
  have hfirst := h.linked.first
  cases ns with
  | nil =>
    rw [after_nil] at hfirst
    simp [pgListEmpty, hfirst, h.tail]
  | cons x ns =>
    rw [after_cons] at hfirst
    have hx : m x ≠ 0 := succ_ne_zero (zero_not_mem_nodes hz) (Nat.succ_ne_zero l) h.linked.2
    simp [pgListEmpty, hfirst, hx]

theorem Holds.firstEntry (h : Holds m l ns) (hz : 0 ∉ cells l ns) : pgFirstEntry m l = ns.headD 0 := by
  rw [pgFirstEntry, h.listEmpty hz]
  cases ns with
  | nil => rfl
  | cons x ns => exact h.linked.1.1

theorem Holds.lastEntry (h : Holds m l ns) (hz : 0 ∉ cells l ns) : pgLastEntry m l = ns.getLastD 0 := by
  rw [pgLastEntry, h.listEmpty hz, h.tailPred]
  cases ns with
  | nil => rfl
  | cons x ns =>
    rw [before_cons]
    cases ns <;> rfl

end ops

/-! ## Runs -/

section runs
variable {m m' : Mem} {st : Lists} {l n : Nat} {fuel : Nat} {xs ys ns : List Nat}

/-- A list that was split in two and gets a free node in between. -/
theorem Rep.splice (xs ys : List Nat) (h : Rep m st) (hl : l ∈ st.heads) (hsplit : st.nodes l = xs ++ ys) (hn : n ≠ 0)
    (hfree : st.Free n) (hfree' : st.Free (n + 1)) :
    (cells l (xs ++ n :: ys)).Nodup ∧ (∀ m', Spliced m m' (before l xs) n (after ys (l + 1)) →
      Rep m' (st.setNodes l (xs ++ n :: ys)) ∧ assertTail l m' = some m') := by
  have hnd : (cells l (xs ++ n :: ys)).Nodup := by
    rw [nodup_cells_insert, ← hsplit]
    exact ⟨hfree l hl, hfree' l hl, h.wf.nodup l hl⟩
  have hwf : (st.setNodes l (xs ++ n :: ys)).WF := by
    refine h.wf.setNodes hl hnd fun w hw => ?_
    rcases mem_cells_insert.1 hw with rfl | rfl | hold
    · exact Or.inr ⟨hn, hfree⟩
    · exact Or.inr ⟨Nat.succ_ne_zero n, hfree'⟩
    · exact Or.inl (hsplit ▸ hold)
  refine ⟨hnd, fun m' hs => ?_⟩
  have hold : Holds m l (xs ++ ys) := hsplit ▸ h.holds l hl
  have hnew : Holds m' l (xs ++ n :: ys) := hold.spliced hnd hs
  have hzero := hwf.nonzero l hl
  rw [st.setNodes_nodes_self] at hzero
  refine ⟨h.setNodes hl hwf hnew fun w hw hw' => hs.other w ?_ ?_ ?_ ?_, hnew.assertTail hzero⟩
  · exact (ne_of_mem_of_not_mem (List.mem_cons_of_mem _ before_mem_list) (hsplit ▸ hw)).symm
  · exact (ne_of_mem_of_not_mem (List.mem_cons_of_mem _ after_mem_list) (hsplit ▸ hw)).symm
  · exact fun he => hw' (mem_cells_insert.2 (Or.inl he))
  · exact fun he => hw' (mem_cells_insert.2 (Or.inr (Or.inl he)))

theorem Rep.none (m : Mem) : Rep m Lists.none := by
  refine ⟨⟨?_, ?_, ?_⟩, ?_⟩ <;> intro l hl <;> exact absurd hl List.not_mem_nil

theorem nodes_nodup (h : st.WF) (hl : l ∈ st.heads) : (st.nodes l).Nodup := by
  have hnd := nodup_words (h.nodup l hl)
  rw [words, List.nodup_cons, List.nodup_cons] at hnd
  exact nodup_of_nodeWords hnd.2.2

/-- A node is in one list at most. -/
theorem Lists.WF.erase_other (h : st.WF) (hl : l ∈ st.heads) (hn : n ∈ st.nodes l) {x : Nat} (hx : x ∈ st.heads)
    (hne : x ≠ l) : (st.nodes x).erase n = st.nodes x :=
  List.erase_of_not_mem fun hmem => h.apart l hl x hx hne n (mem_cells_node hn) (mem_cells_node hmem)

/-- Lists are what they are at the heads. -/
theorem Rep.congr {st' : Lists} (h : Rep m st) (hh : ∀ l ∈ st'.heads, l ∈ st.heads)
    (hn : ∀ l ∈ st'.heads, st'.nodes l = st.nodes l) : Rep m st' := by
  constructor
  · constructor
    · intro l hl
      rw [hn l hl]
      exact h.wf.nodup l (hh l hl)
    · intro l hl
      rw [hn l hl]
      exact h.wf.nonzero l (hh l hl)
    · intro l hl l' hl' hne
      rw [hn l hl, hn l' hl']
      exact h.wf.apart l (hh l hl) l' (hh l' hl') hne
  · intro l hl
    rw [hn l hl]
    exact h.holds l (hh l hl)

theorem Rep.pgRemove (h : Rep m st) (hl : l ∈ st.heads) (hn : n ∈ st.nodes l) :
    Rep (pgRemove m n) (st.setNodes l ((st.nodes l).erase n)) := by
  obtain ⟨xs, ys, hsplit⟩ := List.append_of_mem hn
  have hnotin : n ∉ xs := by
    have hnd := nodes_nodup h.wf hl
    rw [hsplit, List.nodup_append] at hnd
    exact fun hmem => hnd.2.2 n hmem n List.mem_cons_self rfl
  have herase : (st.nodes l).erase n = xs ++ ys := by
    rw [hsplit, List.erase_append_right _ hnotin, List.erase_cons_head]
  have hnd : (cells l (xs ++ n :: ys)).Nodup := hsplit ▸ h.wf.nodup l hl
  have hold : Holds m l (xs ++ n :: ys) := hsplit ▸ h.holds l hl
  obtain ⟨hn1, hn2, hnd'⟩ := nodup_cells_insert.1 hnd
  obtain ⟨hp, hq, hother⟩ := pgRemove_eq hold hnd
  rw [herase]
  have hout : ∀ w, w ∉ cells l (xs ++ ys) → PgList.pgRemove m n w = m w := by
    intro w hw
    apply hother w
    · exact (ne_of_mem_of_not_mem (List.mem_cons_of_mem _ before_mem_list) hw).symm
    · exact (ne_of_mem_of_not_mem (List.mem_cons_of_mem _ after_mem_list) hw).symm
  refine h.setNodes hl (h.wf.setNodes hl hnd' fun w hw => Or.inl ?_) ⟨?_, ?_⟩ fun w _ hw => hout w hw
  · rw [hsplit]
    exact mem_cells_insert.2 (Or.inr (Or.inr hw))
  · exact hold.linked.remove (nodup_words hnd) hp hq hother
  · have htail : l + 1 ∉ words l (xs ++ ys) (l + 1) := (List.nodup_cons.1 hnd').1
    rw [hother, hold.tail]
    · exact (ne_of_mem_of_not_mem before_mem_list htail).symm
    · exact (ne_of_mem_of_not_mem after_mem_list htail).symm

theorem Rep.pgNewList (h : Rep m st) (hok : st.Ok (.newList l)) :
    ∃ m', pgNewList m l = some m' ∧ Rep m' (st.create l) := by
  obtain ⟨hl, hfree⟩ := hok
  have hheads : ∀ x, x ∈ (st.create l).heads ↔ x = l ∨ x ∈ st.heads := by
    intro x
    simp only [Lists.create]
    split
    · rename_i hmem
      exact ⟨Or.inr, fun hx => hx.elim (fun he => he ▸ hmem) id⟩
    · exact List.mem_cons
  have hself : (st.create l).nodes l = [] := if_pos rfl
  have hothers : ∀ x, x ≠ l → (st.create l).nodes x = st.nodes x := fun x hx => if_neg hx
  have hcells : ∀ w, w ∈ cells l [] ↔ w ∈ [l, l + 1, l + 2] := by
    intro w
    simp [mem_cells]
  refine ⟨write (write (write m l (l + 1)) (l + 1) 0) (l + 2) l, ?_, ⟨?_, ?_, ?_⟩, ?_⟩
  · simp only [PgList.pgNewList, PgList.assertTail, write_same, if_neg hl]
  · intro x hx
    by_cases hxl : x = l
    · rw [hxl, hself]
      simp [cells, words]
      omega
    · rw [hothers x hxl]
      exact h.wf.nodup x (((hheads x).1 hx).resolve_left hxl)
  · intro x hx
    by_cases hxl : x = l
    · rw [hxl, hself]
      simp [cells, words, hl.symm]
    · rw [hothers x hxl]
      exact h.wf.nonzero x (((hheads x).1 hx).resolve_left hxl)
  · intro x hx y hy hne w hw
    by_cases hxl : x = l
    · rw [hxl, hself, hcells] at hw
      rw [hothers y (hxl ▸ hne)]
      exact hfree y (((hheads y).1 hy).resolve_left (hxl ▸ hne)) (hxl ▸ hne) w hw
    · rw [hothers x hxl] at hw
      have hx' := ((hheads x).1 hx).resolve_left hxl
      by_cases hyl : y = l
      · rw [hyl, hself, hcells]
        exact fun hmem => hfree x hx' hxl w hmem hw
      · rw [hothers y hyl]
        exact h.wf.apart x hx' y (((hheads y).1 hy).resolve_left hyl) hne w hw
  · intro x hx
    by_cases hxl : x = l
    · rw [hxl, hself]
      refine ⟨⟨?_, ?_⟩, ?_⟩ <;> simp [write]
    · have hx' := ((hheads x).1 hx).resolve_left hxl
      rw [hothers x hxl]
      refine (h.holds x hx').frame fun w hw => ?_
      have hout : w ∉ [l, l + 1, l + 2] := fun hmem => hfree x hx' hxl w hmem hw
      simp only [List.mem_cons, List.not_mem_nil, or_false, not_or] at hout
      rw [write_other hout.2.2, write_other hout.2.1, write_other hout.1]

theorem insertAfter_eq {a : Nat} (h : a ∉ xs) : Lists.insertAfter a n (xs ++ a :: ys) = xs ++ a :: n :: ys := by
  induction xs with
  | nil => simp [Lists.insertAfter]
  | cons x xs ih =>
    rw [List.mem_cons, not_or] at h
    rw [List.cons_append, Lists.insertAfter, if_neg (Ne.symm h.1), ih h.2, List.cons_append]

theorem Rep.pgInsert {after : Nat} (h : Rep m st) (hok : st.Ok (.insert l n after)) :
    ∃ m', pgInsert m l n after = some m' ∧ Rep m' (st.apply (.insert l n after)).1 := by
  obtain ⟨hl, hn, hfree, hfree', hmem⟩ := hok
  simp only [Lists.apply]
  by_cases ha : after = l
  · rw [if_pos ha]
    obtain ⟨hnd, hrep⟩ := Rep.splice [] (st.nodes l) h hl rfl hn hfree hfree'
    obtain ⟨m', heq, hs⟩ := pgInsert_spliced [] (st.nodes l) (h.holds l hl) hnd
    obtain ⟨hr, hassert⟩ := hrep m' hs
    rw [before_nil] at heq
    exact ⟨m', by rw [ha, heq, hassert], hr⟩
  · rw [if_neg ha]
    obtain ⟨xs, ys, hsplit⟩ := List.append_of_mem (List.mem_of_ne_of_mem ha hmem)
    have hnotin : after ∉ xs := by
      have hnd := nodes_nodup h.wf hl
      rw [hsplit, List.nodup_append] at hnd
      exact fun hm => hnd.2.2 after hm after List.mem_cons_self rfl
    have hsplit' : st.nodes l = (xs ++ [after]) ++ ys := by
      rw [hsplit, List.append_assoc]
      rfl
    obtain ⟨hnd, hrep⟩ := Rep.splice _ ys h hl hsplit' hn hfree hfree'
    obtain ⟨m', heq, hs⟩ := pgInsert_spliced _ ys (hsplit' ▸ h.holds l hl) hnd
    obtain ⟨hr, hassert⟩ := hrep m' hs
    rw [before_append] at heq
    refine ⟨m', by rw [heq, hassert], ?_⟩
    rw [hsplit, insertAfter_eq hnotin]
    simpa using hr

/-- `PG_AddTail` writes to the list and to the new node. -/
theorem Rep.pgAddTail (h : Rep m st) (hl : l ∈ st.heads) (hn : n ≠ 0) (hfree : st.Free n) (hfree' : st.Free (n + 1)) :
    ∃ m', pgAddTail m l n = some m' ∧ Rep m' (st.setNodes l (st.nodes l ++ [n])) ∧
      ∀ w, w ∉ cells l (st.nodes l) → w ≠ n → w ≠ n + 1 → m' w = m w := by
  obtain ⟨hnd, hrep⟩ := Rep.splice (st.nodes l) [] h hl (List.append_nil _).symm hn hfree hfree'
  obtain ⟨m', heq, hs⟩ := pgAddTail_spliced (h.holds l hl) hnd
  obtain ⟨hr, hassert⟩ := hrep m' hs
  refine ⟨m', heq.trans hassert, hr, fun w hw => hs.other w ?_ ?_⟩
  · have hmem : before l (st.nodes l) ∈ words l (st.nodes l ++ []) (l + 1) := before_mem_list
    rw [List.append_nil] at hmem
    exact (ne_of_mem_of_not_mem (List.mem_cons_of_mem _ hmem) hw).symm
  · have hmem : l + 1 + 1 ∈ cells l (st.nodes l) := mem_cells.2 (by simp)
    exact (ne_of_mem_of_not_mem hmem hw).symm

/-- One operation: the memory does what the lists do. -/
theorem Rep.exec {op : Op} (h : Rep m st) (hok : st.Ok op) (hf : ∀ l ∈ st.heads, (st.nodes l).length < fuel) :
    ∃ m', exec fuel m op = some (m', (st.apply op).2) ∧ Rep m' (st.apply op).1 := by
  have hzero := h.wf.nonzero
  cases op with
  | newList l =>
    obtain ⟨m', heq, hrep⟩ := h.pgNewList hok
    exact ⟨m', by simp [PgList.exec, heq, Lists.apply], hrep⟩
  | addHead l n =>
    obtain ⟨hl, hn, hfree, hfree'⟩ := hok
    obtain ⟨hnd, hrep⟩ := Rep.splice [] (st.nodes l) h hl rfl hn hfree hfree'
    obtain ⟨m', heq, hs⟩ := pgAddHead_spliced (h.holds l hl) hnd
    obtain ⟨hr, hassert⟩ := hrep m' hs
    exact ⟨m', by simp [PgList.exec, heq, hassert, Lists.apply], hr⟩
  | addTail l n =>
    obtain ⟨hl, hn, hfree, hfree'⟩ := hok
    obtain ⟨m', heq, hr, -⟩ := h.pgAddTail hl hn hfree hfree'
    exact ⟨m', by simp [PgList.exec, heq, Lists.apply], hr⟩
  | insert l n after =>
    obtain ⟨m', heq, hrep⟩ := h.pgInsert hok
    exact ⟨m', by simp [PgList.exec, heq, Lists.apply], hrep⟩
  | remove n =>
    obtain ⟨l, hl, hn⟩ := hok
    refine ⟨PgList.pgRemove m n, rfl, (h.pgRemove hl hn).congr (fun _ hx => hx) fun x hx => ?_⟩
    by_cases hxl : x = l
    · simp [Lists.apply, hxl]
    · rw [st.setNodes_nodes_of_ne _ hxl]
      exact h.wf.erase_other hl hn hx hxl
  | checkedRemove l n =>
    have hl : l ∈ st.heads := hok
    have hfind := findFrom_eq (n := n) (h.holds l hl).linked (h.holds l hl).tail (Nat.succ_ne_zero l)
      (zero_not_mem_nodes (hzero l hl)) (hf l hl)
    by_cases hn : n ∈ st.nodes l
    · refine ⟨PgList.pgRemove m n, ?_, h.pgRemove hl hn⟩
      simp [PgList.exec, pgCheckedRemove, hfind, hn, Lists.apply]
    · refine ⟨m, ?_, ?_⟩
      · simp [PgList.exec, pgCheckedRemove, hfind, hn, Lists.apply]
      · refine h.congr (fun _ hx => hx) fun x _ => ?_
        by_cases hxl : x = l
        · simp [Lists.apply, hxl, List.erase_of_not_mem hn]
        · exact st.setNodes_nodes_of_ne _ hxl
  | contains l n =>
    have hl : l ∈ st.heads := hok
    have hfind := findFrom_eq (n := n) (h.holds l hl).linked (h.holds l hl).tail (Nat.succ_ne_zero l)
      (zero_not_mem_nodes (hzero l hl)) (hf l hl)
    exact ⟨m, by simp [PgList.exec, pgContains, hfind, Lists.apply], h⟩
  | count l =>
    have hl : l ∈ st.heads := hok
    have hcount := countFrom_eq 0 (h.holds l hl).linked (h.holds l hl).tail (Nat.succ_ne_zero l)
      (zero_not_mem_nodes (hzero l hl)) (hf l hl)
    exact ⟨m, by simp [PgList.exec, pgCount, hcount, Lists.apply], h⟩
  | listEmpty l =>
    exact ⟨m, by simp [PgList.exec, (h.holds l hok).listEmpty (hzero l hok), Lists.apply], h⟩
  | firstEntry l =>
    exact ⟨m, by simp [PgList.exec, (h.holds l hok).firstEntry (hzero l hok), Lists.apply], h⟩
  | lastEntry l =>
    exact ⟨m, by simp [PgList.exec, (h.holds l hok).lastEntry (hzero l hok), Lists.apply], h⟩
  | other w v =>
    refine ⟨write m w v, rfl, h.wf, fun l hl => (h.holds l hl).frame fun x hx => write_other ?_⟩
    exact fun he => hok l hl (he ▸ hx)

/-- `PG_Remove` writes to the list only. -/
theorem Rep.pgRemove_other (h : Rep m st) (hl : l ∈ st.heads) (hn : n ∈ st.nodes l) {w : Nat}
    (hw : w ∉ cells l (st.nodes l)) : PgList.pgRemove m n w = m w := by
  obtain ⟨xs, ys, hsplit⟩ := List.append_of_mem hn
  have hnd : (cells l (xs ++ n :: ys)).Nodup := hsplit ▸ h.wf.nodup l hl
  obtain ⟨-, -, hother⟩ := pgRemove_eq (hsplit ▸ h.holds l hl) hnd
  rw [hsplit, mem_cells_insert, not_or, not_or] at hw
  refine hother w ?_ ?_
  · exact (ne_of_mem_of_not_mem (List.mem_cons_of_mem _ before_mem_list) hw.2.2).symm
  · exact (ne_of_mem_of_not_mem (List.mem_cons_of_mem _ after_mem_list) hw.2.2).symm

theorem length_insertAfter (a : Nat) : (Lists.insertAfter a n ns).length ≤ ns.length + 1 := by
  induction ns with
  | nil => simp [Lists.insertAfter]
  | cons x ns ih =>
    rw [Lists.insertAfter]
    split <;> simp [ih]

theorem length_setNodes_le {l' : Nat} (h : ns.length ≤ (st.nodes l').length + 1) :
    ((st.setNodes l' ns).nodes l).length ≤ (st.nodes l).length + 1 := by
  by_cases hl : l = l'
  · rw [hl, st.setNodes_nodes_self]
    exact h
  · rw [st.setNodes_nodes_of_ne ns hl]
    exact Nat.le_succ _

/-- An operation adds one node to a list at most. -/
theorem length_apply_le (st : Lists) (op : Op) (l : Nat) :
    ((st.apply op).1.nodes l).length ≤ (st.nodes l).length + 1 := by
  have hsame : (st.nodes l).length ≤ (st.nodes l).length + 1 := Nat.le_succ _
  cases op with
  | newList l' =>
    simp only [Lists.apply, Lists.create]
    split
    · exact Nat.zero_le _
    · exact hsame
  | addHead l' n => exact length_setNodes_le (by simp)
  | addTail l' n => exact length_setNodes_le (by simp)
  | insert l' n after =>
    refine length_setNodes_le ?_
    split
    · simp
    · exact length_insertAfter after
  | remove n => exact List.length_erase_le.trans hsame
  | checkedRemove l' n => exact length_setNodes_le (List.length_erase_le.trans (Nat.le_succ _))
  | contains | count | listEmpty | firstEntry | lastEntry | other => exact hsame

/-- The lists and the answers so far. -/
def specStep (s : Lists × List Nat) (op : Op) : Lists × List Nat :=
  ((s.1.apply op).1, s.2 ++ [(s.1.apply op).2])

end runs

/-- From the state with no list on, whatever the memory holds: in every order of operations on the lists, with
other code writing to the other words in between, each operation returns what it returns of the sequences, and
the memory stands for them after it. A scan takes no more turns than there were operations. -/
theorem pgOps_run (m : Mem) (ops : List Op) (fuel : Nat) (hfuel : ops.length < fuel)
    (hok : Run.StepsOk specStep (fun s op => s.1.Ok op) (Lists.none, []) ops) :
    ∃ m', Run.run (step fuel) (some (m, [])) ops = some (m', (Run.run specStep (Lists.none, []) ops).2) ∧
      Rep m' (Run.run specStep (Lists.none, []) ops).1 := by
  have hstart : Rep m Lists.none := Rep.none m
  have hshort : ∀ l, (Lists.none.nodes l).length + ops.length < fuel := fun l => by simpa [Lists.none] using hfuel
  revert hok hstart hshort
  generalize Lists.none = st, ([] : List Nat) = outs
  induction ops generalizing m st outs with
  | nil => exact fun _ hrep _ => ⟨m, rfl, hrep⟩
  | cons op ops ih =>
    rintro ⟨hop, hops⟩ hrep hlen
    have hroom : ∀ l ∈ st.heads, (st.nodes l).length < fuel := by
      intro l _
      have hl := hlen l
      rw [List.length_cons] at hl
      omega
    obtain ⟨m', hexec, hrep'⟩ := hrep.exec hop hroom
    rw [Run.run_cons, Run.run_cons, step_eq hexec]
    refine ih m' (by simp at hfuel; omega) _ _ hops hrep' fun l => ?_
    have hle := length_apply_le st op l
    have hl := hlen l
    rw [List.length_cons] at hl
    dsimp only
    omega

/-- Two lists; nodes are moved between them, found, counted and removed. -/
theorem pgOps_run_two :
    (Run.run (step 16) (some (fun _ => 7, []))
      [.newList 10, .newList 20, .addTail 10 32, .addHead 10 30, .insert 10 40 32, .count 10, .remove 32,
        .addTail 20 32, .contains 10 32, .contains 20 32, .checkedRemove 10 32, .lastEntry 10,
        .firstEntry 20]).map Prod.snd = some [0, 0, 0, 0, 0, 3, 0, 0, 0, 1, 0, 40, 32] := by
  obtain ⟨m', hrun, -⟩ := pgOps_run (fun _ => 7)
    [.newList 10, .newList 20, .addTail 10 32, .addHead 10 30, .insert 10 40 32, .count 10, .remove 32,
      .addTail 20 32, .contains 10 32, .contains 20 32, .checkedRemove 10 32, .lastEntry 10, .firstEntry 20]
    16 (by decide) (by
      simp [Run.StepsOk, specStep, Lists.apply, Lists.Ok, Lists.none, Lists.create, Lists.Free, Lists.setNodes,
        Lists.insertAfter, cells, words])
  rw [hrun]
  rfl

end PgList
