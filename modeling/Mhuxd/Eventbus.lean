import Mhuxd.Lib.Scan
import Mhuxd.PgList

/-!
# The event bus (`eventbus.c`)

A publish scans the list of its type and calls what it finds. The callbacks subscribe, unsubscribe and publish
themselves, so several scans are under way at once, the innermost of them running. What is on a list and where a scan
is are words of the memory, and a subscription that is freed may be written over. A publish calls everyone who is
subscribed when it returns once, in the order of subscription, as long as no subscription is freed that a scan is at.
-/

namespace Mhuxd

namespace Eventbus

open Links PgList

def EV_MAX : Nat := 7

/-- `eventbus_create` on the memory of the bus. -/
def eventbusCreate (bus : Nat) (m : Mem) : Option Mem :=
  (List.range EV_MAX).foldlM (fun m i => pgNewList m (bus + 3 * i)) m

/-- `eventbus_subscribe`, for which `w_calloc` returns `sub`. -/
def eventbusSubscribe (bus : Nat) (m : Mem) (type cb userData sub : Nat) : Option Mem :=
  if EV_MAX ≤ type ∨ cb = 0 then some m
  else
    let m := (List.range 5).foldl (fun m i => write m (sub + i) 0) m
    let m := write m (sub + 2) type
    let m := write m (sub + 3) cb
    let m := write m (sub + 4) userData
    pgAddTail m (bus + 3 * type) sub

/-- `eventbus_unsubscribe`. -/
def eventbusUnsubscribe (m : Mem) (sub : Nat) : Mem := if sub = 0 then m else pgRemove m sub

/-- A call of a callback. -/
structure Call where
  cb : Nat
  type : Nat
  data : Nat
  userData : Nat
deriving DecidableEq

/-- An `eventbus_publish` whose scan is at `sub`. -/
structure Frame where
  type : Nat
  data : Nat
  sub : Nat
deriving DecidableEq

/-- The memory, the scans that are under way, the innermost first, and the calls so far. -/
structure Ebus where
  mem : Mem
  stack : List Frame := []
  calls : List Call := []

namespace Ebus

/-- A scan that gets to the node `sub`: its end, or a call. -/
def scan (s : Ebus) (type data sub : Nat) : Ebus :=
  if s.mem sub = 0 then s
  else
    { s with
      stack := ⟨type, data, sub⟩ :: s.stack
      calls := s.calls ++ [⟨s.mem (sub + 3), type, data, s.mem (sub + 4)⟩] }

/-- The beginning of `eventbus_publish`. -/
def eventbusPublish (bus : Nat) (s : Ebus) (type data : Nat) : Ebus :=
  if EV_MAX ≤ type then s else s.scan type data (s.mem (bus + 3 * type))

/-- The innermost scan goes on. -/
def returns (s : Ebus) : Ebus :=
  match s.stack with
  | [] => s
  | f :: rest => { s with stack := rest }.scan f.type f.data (s.mem f.sub)

end Ebus

/-- What code does with a bus; `returns` is the end of a callback, `other` is a word written elsewhere. -/
inductive EbusEv
  | subscribe (type cb userData sub : Nat)
  | unsubscribe (sub : Nat)
  | publish (type data : Nat)
  | returns
  | other (w v : Nat)

/-- `none` after a failed assertion. -/
def Ebus.step (bus : Nat) (s : Option Ebus) (e : EbusEv) : Option Ebus :=
  s.bind fun s =>
    match e with
    | .subscribe type cb userData sub =>
      (eventbusSubscribe bus s.mem type cb userData sub).map fun mem => { s with mem }
    | .unsubscribe sub => some { s with mem := eventbusUnsubscribe s.mem sub }
    | .publish type data => some (s.eventbusPublish bus type data)
    | .returns => some s.returns
    | .other w v => some { s with mem := write s.mem w v }

def Ebus.start (bus : Nat) (m : Mem) : Option Ebus := (eventbusCreate bus m).map fun mem => { mem }

/-! ### What the bus is for -/

/-- A subscription with its number, which no other has. -/
structure Sub where
  no : Nat
  type : Nat
  addr : Nat
  cb : Nat
  userData : Nat
deriving DecidableEq

/-- A publish that is under way: it has called `called`, of which `cur` is the last. -/
structure Publish where
  type : Nat
  data : Nat
  called : List Sub
  cur : Sub

/-- A publish that has returned, and who was subscribed then. -/
structure Delivery where
  type : Nat
  data : Nat
  called : List Sub
  subs : List Sub

/-- The subscriptions, and the publishes that are under way and that have returned. -/
structure Bus where
  next : Nat := 0
  subs : List Sub := []
  running : List Publish := []
  finished : List Delivery := []
  calls : List Call := []

namespace Bus

/-- The subscriptions for a type. -/
def of (b : Bus) (type : Nat) : List Sub := b.subs.filter (·.type == type)

/-- A publish that gets to a subscription or to the end. -/
def visit (b : Bus) (type data : Nat) (called : List Sub) : Option Sub → Bus
  | none => { b with finished := b.finished ++ [⟨type, data, called, b.of type⟩] }
  | some s =>
    { b with
      running := ⟨type, data, called ++ [s], s⟩ :: b.running
      calls := b.calls ++ [⟨s.cb, type, data, s.userData⟩] }

def step (b : Bus) : EbusEv → Bus
  | .subscribe type cb userData sub =>
    if EV_MAX ≤ type ∨ cb = 0 then b
    else { b with next := b.next + 1, subs := b.subs ++ [⟨b.next, type, sub, cb, userData⟩] }
  | .unsubscribe sub => { b with subs := b.subs.filter (·.addr != sub) }
  | .publish type data => if EV_MAX ≤ type then b else b.visit type data [] (b.of type).head?
  | .returns =>
    match b.running with
    | [] => b
    | p :: rest => { b with running := rest }.visit p.type p.data p.called (Scan.after Sub.no p.cur (b.of p.type))
  | .other _ _ => b

/-- A word of the bus or of a subscription. -/
def Used (bus : Nat) (b : Bus) (w : Nat) : Prop :=
  (bus ≤ w ∧ w < bus + 3 * EV_MAX) ∨ ∃ s ∈ b.subs, s.addr ≤ w ∧ w < s.addr + 5

/-- What a caller must see to: a subscription is in memory of its own, is freed once, and not while a publish is at it. -/
def Ok (bus : Nat) (b : Bus) : EbusEv → Prop
  | .subscribe type cb _ sub => type < EV_MAX → cb ≠ 0 → sub ≠ 0 ∧ ∀ i < 5, ¬ b.Used bus (sub + i)
  | .unsubscribe sub => sub ≠ 0 → sub ∈ b.subs.map Sub.addr ∧ ∀ p ∈ b.running, p.cur.addr ≠ sub
  | .publish _ _ => True
  | .returns => True
  | .other w _ => ¬ b.Used bus w

instance (bus : Nat) (b : Bus) (w : Nat) : Decidable (b.Used bus w) :=
  inferInstanceAs (Decidable ((bus ≤ w ∧ w < bus + 3 * EV_MAX) ∨ ∃ s ∈ b.subs, s.addr ≤ w ∧ w < s.addr + 5))

instance (bus : Nat) (b : Bus) : (e : EbusEv) → Decidable (b.Ok bus e)
  | .subscribe type cb _ sub =>
    inferInstanceAs (Decidable (type < EV_MAX → cb ≠ 0 → sub ≠ 0 ∧ ∀ i < 5, ¬ b.Used bus (sub + i)))
  | .unsubscribe sub =>
    inferInstanceAs (Decidable (sub ≠ 0 → sub ∈ b.subs.map Sub.addr ∧ ∀ p ∈ b.running, p.cur.addr ≠ sub))
  | .publish _ _ => isTrue trivial
  | .returns => isTrue trivial
  | .other w _ => inferInstanceAs (Decidable (¬ b.Used bus w))

end Bus

/-- All who were subscribed when the publish returned had been called, each once and in the order of subscription. -/
def Delivery.Complete (d : Delivery) : Prop := Scan.Increasing Sub.no d.called ∧ ∀ s ∈ d.subs, s ∈ d.called

/-! ### The memory of the bus -/

/-- The lists of the bus. -/
def Bus.lists (bus : Nat) (b : Bus) : Lists :=
  ⟨(List.range EV_MAX).map (bus + 3 * ·), fun l => (b.of ((l - bus) / 3)).map Sub.addr⟩

/-- Blocks of five words. -/
def Apart (x y : Nat) : Prop := x + 5 ≤ y ∨ y + 5 ≤ x

/-- The memory and the scans of the bus. -/
structure Rep (bus : Nat) (s : Ebus) (b : Bus) : Prop where
  lists : PgList.Rep s.mem (b.lists bus)
  cb : ∀ x ∈ b.subs, s.mem (x.addr + 3) = x.cb
  userData : ∀ x ∈ b.subs, s.mem (x.addr + 4) = x.userData
  increasing : Scan.Increasing Sub.no b.subs
  below : ∀ x ∈ b.subs, x.no < b.next
  apart : b.subs.Pairwise fun x y => Apart x.addr y.addr
  outside : ∀ x ∈ b.subs, x.addr ≠ 0 ∧ (x.addr + 5 ≤ bus ∨ bus + 3 * EV_MAX ≤ x.addr)
  type : ∀ x ∈ b.subs, x.type < EV_MAX
  running : ∀ p ∈ b.running, p.type < EV_MAX ∧ Scan.At Sub.no (b.of p.type) p.called p.cur
  finished : ∀ d ∈ b.finished, d.Complete
  stack : s.stack = b.running.map fun p => ⟨p.type, p.data, p.cur.addr⟩
  calls : s.calls = b.calls

section lists
variable {bus : Nat} {b : Bus} {m : Mem} {type w : Nat}

theorem mem_heads {l : Nat} : l ∈ (b.lists bus).heads ↔ ∃ type < EV_MAX, l = bus + 3 * type := by
  simp [Bus.lists, eq_comm]

theorem head_mem (h : type < EV_MAX) : bus + 3 * type ∈ (b.lists bus).heads := mem_heads.mpr ⟨type, h, rfl⟩

theorem lists_nodes (bus : Nat) (b : Bus) (type : Nat) :
    (b.lists bus).nodes (bus + 3 * type) = (b.of type).map Sub.addr := by
  have hidx : (bus + 3 * type - bus) / 3 = type := by omega
  simp only [Bus.lists, hidx]

theorem mem_of {x : Sub} : x ∈ b.of type ↔ x ∈ b.subs ∧ x.type = type := by
  simp [Bus.of]

/-- The words of a list are words of the bus. -/
theorem used_of_cells (htype : type < EV_MAX) (hw : w ∈ cells (bus + 3 * type) ((b.of type).map Sub.addr)) :
    b.Used bus w := by
  have hmax : EV_MAX = 7 := rfl
  rcases mem_cells.mp hw with rfl | rfl | rfl | hw
  · exact Or.inl ⟨by omega, by omega⟩
  · exact Or.inl ⟨by omega, by omega⟩
  · exact Or.inl ⟨by omega, by omega⟩
  · obtain ⟨n, hn, hwn⟩ := mem_nodeWords.mp hw
    obtain ⟨x, hx, rfl⟩ := List.mem_map.mp hn
    exact Or.inr ⟨x, (mem_of.mp hx).1, by omega, by omega⟩

theorem free_of_not_used (hw : ¬ b.Used bus w) : (b.lists bus).Free w := by
  intro l hl hmem
  obtain ⟨type, htype, rfl⟩ := mem_heads.mp hl
  rw [lists_nodes] at hmem
  exact hw (used_of_cells htype hmem)

theorem lists_frame {m' : Mem} (h : PgList.Rep m (b.lists bus)) (hw : ∀ w, b.Used bus w → m' w = m w) :
    PgList.Rep m' (b.lists bus) := by
  refine ⟨h.wf, fun l hl => (h.holds l hl).frame fun w hmem => hw w ?_⟩
  obtain ⟨type, htype, rfl⟩ := mem_heads.mp hl
  rw [lists_nodes] at hmem
  exact used_of_cells htype hmem

/-- A node is followed by that of the next subscription, or by the end, where a zero stands. -/
theorem node_after (pre post : List Sub) (h : PgList.Rep m (b.lists bus)) (htype : type < EV_MAX)
    (hsplit : b.of type = pre ++ post) :
    m (before (bus + 3 * type) (pre.map Sub.addr)) = after (post.map Sub.addr) (bus + 3 * type + 1) ∧
      (m (after (post.map Sub.addr) (bus + 3 * type + 1)) = 0 ↔ post = []) := by
  have hholds := h.holds _ (head_mem htype)
  have hzero := h.wf.nonzero _ (head_mem htype)
  rw [lists_nodes, hsplit, List.map_append] at hholds hzero
  refine ⟨(hholds.linked.cut _ _).1, ?_⟩
  cases post with
  | nil => simpa using hholds.tail
  | cons x post =>
    have hrest := (linked_append.mp hholds.linked).2
    have hnodes : 0 ∉ x.addr :: post.map Sub.addr := fun hmem =>
      zero_not_mem_nodes hzero (List.mem_append_right _ hmem)
    simpa using succ_ne_zero hnodes (Nat.succ_ne_zero _) hrest

end lists

namespace Rep

variable {bus : Nat} {s : Ebus} {b : Bus} {type data : Nat} {x y : Sub}

theorem apart_of_ne (h : Rep bus s b) (hx : x ∈ b.subs) (hy : y ∈ b.subs) (hne : x ≠ y) : Apart x.addr y.addr := by
  have : Std.Symm fun x y : Sub => Apart x.addr y.addr := ⟨fun _ _ => Or.symm⟩
  exact h.apart.forall hx hy hne

theorem eq_of_addr (h : Rep bus s b) (hx : x ∈ b.subs) (hy : y ∈ b.subs) (haddr : x.addr = y.addr) : x = y := by
  by_contra hne
  have hapart := h.apart_of_ne hx hy hne
  unfold Apart at hapart
  omega

theorem increasing_of (h : Rep bus s b) (type : Nat) : Scan.Increasing Sub.no (b.of type) := h.increasing.filter _

/-- Behind the node of a subscription there are no words of a list. -/
theorem not_cells (h : Rep bus s b) (hx : x ∈ b.subs) (htype : type < EV_MAX) {i : Nat} (hi : 2 ≤ i) (hi' : i < 5) :
    x.addr + i ∉ cells (bus + 3 * type) ((b.of type).map Sub.addr) := by
  have hmax : EV_MAX = 7 := rfl
  have hout := (h.outside x hx).2
  intro hmem
  rw [mem_cells, mem_nodeWords] at hmem
  rcases hmem with hw | hw | hw | ⟨n, hn, hw⟩
  · omega
  · omega
  · omega
  · obtain ⟨y, hy, rfl⟩ := List.mem_map.mp hn
    by_cases hxy : x = y
    · rw [hxy] at hw
      omega
    · have hapart := h.apart_of_ne hx (mem_of.mp hy).1 hxy
      unfold Apart at hapart
      omega

/-- A scan with the subscriptions `post` ahead goes on. -/
theorem visit (h : Rep bus s b) (data : Nat) (htype : type < EV_MAX) {called post : List Sub} {tail : Nat}
    (hzero : s.mem (after (post.map Sub.addr) tail) = 0 ↔ post = [])
    (hat : ∀ x later, post = x :: later → Scan.At Sub.no (b.of type) (called ++ [x]) x)
    (hend : post = [] → Scan.Increasing Sub.no called ∧ ∀ y ∈ b.of type, y ∈ called) :
    Rep bus (s.scan type data (after (post.map Sub.addr) tail)) (b.visit type data called post.head?) := by
  cases post with
  | nil =>
    rw [Ebus.scan, if_pos (hzero.mpr rfl)]
    refine { h with finished := fun d hd => ?_ }
    rcases List.mem_append.mp hd with hd | hd
    · exact h.finished d hd
    · rw [List.mem_singleton.mp hd]
      exact hend rfl
  | cons x later =>
    have hx := (mem_of.mp (hat x later rfl).mem).1
    rw [Ebus.scan, if_neg fun hz => nomatch hzero.mp hz]
    refine { h with running := fun p hp => ?_, stack := ?_, calls := ?_ }
    · rcases List.mem_cons.mp hp with rfl | hp
      · exact ⟨htype, hat x later rfl⟩
      · exact h.running p hp
    · simp [Bus.visit, h.stack]
    · simp [Bus.visit, h.calls, h.cb x hx, h.userData x hx]

theorem publish (h : Rep bus s b) : Rep bus (s.eventbusPublish bus type data) (b.step (.publish type data)) := by
  simp only [Ebus.eventbusPublish, Bus.step]
  split_ifs with hmax
  · exact h
  · have htype : type < EV_MAX := not_le.mp hmax
    obtain ⟨hfirst, hzero⟩ := node_after [] (b.of type) h.lists htype rfl
    have hinc := h.increasing_of type
    rw [List.map_nil, before_nil] at hfirst
    rw [hfirst]
    refine h.visit data htype hzero (fun x later hof => ?_) fun hof => ⟨List.Pairwise.nil, ?_⟩
    · rw [hof] at hinc ⊢
      exact .first hinc
    · simp [hof]

theorem returns (h : Rep bus s b) : Rep bus s.returns (b.step .returns) := by
  have hstack := h.stack
  simp only [Ebus.returns, Bus.step]
  cases hrun : b.running with
  | nil =>
    rw [hrun] at hstack
    rw [hstack]
    exact h
  | cons p rest =>
    rw [hrun] at hstack
    obtain ⟨htype, hat⟩ := h.running p (hrun ▸ List.mem_cons_self)
    obtain ⟨pre, post, hsplit⟩ := List.append_of_mem hat.mem
    have hinc := h.increasing_of p.type
    have hafter : Scan.after Sub.no p.cur (b.of p.type) = post.head? := by
      rw [hsplit] at hinc ⊢
      exact Scan.after_split hinc
    obtain ⟨hnext, hzero⟩ := node_after (pre ++ [p.cur]) post h.lists htype (by simpa using hsplit)
    rw [List.map_append, List.map_singleton, before_append] at hnext
    have hrest : Rep bus { s with stack := rest.map fun p => ⟨p.type, p.data, p.cur.addr⟩ } { b with running := rest } :=
      { h with running := fun q hq => h.running q (hrun ▸ List.mem_cons_of_mem _ hq), stack := rfl }
    simp only [hstack, List.map_cons, hnext]
    have hvisit := hrest.visit p.data htype hzero (fun x later hpost => hat.next hinc (by rw [hafter, hpost]; rfl))
      fun hpost => ⟨hat.increasing, hat.finish (by rw [hafter, hpost]; rfl)⟩
    rw [← hafter] at hvisit
    exact hvisit

theorem used_add (hx : x ∈ b.subs) {i : Nat} (hi : i < 5) : b.Used bus (x.addr + i) :=
  Or.inr ⟨x, hx, by omega, by omega⟩

/-- What is written elsewhere is nothing to the bus. -/
theorem frame (h : Rep bus s b) {m : Mem} (hm : ∀ w, b.Used bus w → m w = s.mem w) : Rep bus { s with mem := m } b :=
  { h with
    lists := lists_frame h.lists hm
    cb := fun x hx => (hm _ (used_add hx (by decide))).trans (h.cb x hx)
    userData := fun x hx => (hm _ (used_add hx (by decide))).trans (h.userData x hx) }

theorem other (h : Rep bus s b) {w v : Nat} (hw : ¬ b.Used bus w) : Rep bus { s with mem := write s.mem w v } b :=
  h.frame fun _ hx => write_other fun he => hw (he ▸ hx)

end Rep

/-- The memory after `w_calloc` and the fields of a subscription. -/
theorem calloc_other (m : Mem) (type cb userData sub : Nat) {w : Nat} (hw : ∀ i < 5, w ≠ sub + i) :
    write (write (write ((List.range 5).foldl (fun m i => write m (sub + i) 0) m) (sub + 2) type) (sub + 3) cb)
      (sub + 4) userData w = m w := by
  rw [write_other (hw 4 (by decide)), write_other (hw 3 (by decide)), write_other (hw 2 (by decide))]
  have hfold : ∀ n ≤ 5, (List.range n).foldl (fun m i => write m (sub + i) 0) m w = m w := by
    intro n hn
    induction n with
    | zero => rfl
    | succ n ih =>
      rw [List.range_succ, List.foldl_append, List.foldl_cons, List.foldl_nil, write_other (hw n (by omega))]
      exact ih (by omega)
  exact hfold 5 le_rfl

theorem of_add (b : Bus) (x : Sub) (next type : Nat) :
    Bus.of { b with next := next, subs := b.subs ++ [x] } type = b.of type ++ if x.type = type then [x] else [] := by
  unfold Bus.of
  rw [List.filter_append, List.filter_singleton]
  simp

theorem of_remove (b : Bus) (sub type : Nat) :
    Bus.of { b with subs := b.subs.filter (·.addr != sub) } type = (b.of type).filter (·.addr != sub) := by
  unfold Bus.of
  rw [List.filter_filter, List.filter_filter]
  exact List.filter_congr fun _ _ => Bool.and_comm ..

namespace Rep

variable {bus : Nat} {s : Ebus} {b : Bus} {type : Nat} {x : Sub}

theorem apart_of_free (hx : x ∈ b.subs) {sub : Nat} (hfree : ∀ i < 5, ¬ b.Used bus (sub + i)) : Apart x.addr sub := by
  by_contra hnot
  simp only [Apart, not_or, not_le] at hnot
  rcases Nat.le_total sub x.addr with hle | hle
  · exact hfree (x.addr - sub) (by omega) (Or.inr ⟨x, hx, by omega, by omega⟩)
  · exact hfree 0 (by decide) (Or.inr ⟨x, hx, by omega, by omega⟩)

theorem outside_of_free {sub : Nat} (hfree : ∀ i < 5, ¬ b.Used bus (sub + i)) :
    sub + 5 ≤ bus ∨ bus + 3 * EV_MAX ≤ sub := by
  have hmax : EV_MAX = 7 := rfl
  by_contra hnot
  simp only [not_or, not_le] at hnot
  rcases Nat.le_total bus sub with hle | hle
  · exact hfree 0 (by decide) (Or.inl ⟨by omega, by omega⟩)
  · exact hfree (bus - sub) (by omega) (Or.inl ⟨by omega, by omega⟩)

theorem subscribe (h : Rep bus s b) {cb userData sub : Nat} (hok : b.Ok bus (.subscribe type cb userData sub)) :
    ∃ m, eventbusSubscribe bus s.mem type cb userData sub = some m ∧
      Rep bus { s with mem := m } (b.step (.subscribe type cb userData sub)) := by
  simp only [eventbusSubscribe, Bus.step]
  split_ifs with hbad
  · exact ⟨s.mem, rfl, h⟩
  · rw [not_or, not_le] at hbad
    obtain ⟨htype, hcb⟩ := hbad
    obtain ⟨hsub, hfree⟩ := hok htype hcb
    have hout : ∀ w, b.Used bus w → ∀ i < 5, w ≠ sub + i := fun w hw i hi he => hfree i hi (he ▸ hw)
    have hnew := h.frame fun w hw => calloc_other s.mem type cb userData sub (hout w hw)
    have hwcb : write (write (write ((List.range 5).foldl (fun m i => write m (sub + i) 0) s.mem) (sub + 2) type)
        (sub + 3) cb) (sub + 4) userData (sub + 3) = cb := by
      rw [write_other (by omega), write_same]
    have hwud : write (write (write ((List.range 5).foldl (fun m i => write m (sub + i) 0) s.mem) (sub + 2) type)
        (sub + 3) cb) (sub + 4) userData (sub + 4) = userData := write_same
    revert hnew hwcb hwud
    generalize write (write (write ((List.range 5).foldl (fun m i => write m (sub + i) 0) s.mem) (sub + 2) type)
        (sub + 3) cb) (sub + 4) userData = m
    intro hnew hwcb hwud
    obtain ⟨m', hadd, hlists, hother⟩ := hnew.lists.pgAddTail (head_mem htype) hsub
      (free_of_not_used (hfree 0 (by decide))) (free_of_not_used (hfree 1 (by decide)))
    rw [lists_nodes] at hlists hother
    have hold : ∀ y ∈ b.subs, ∀ i, 2 ≤ i → i < 5 → m' (y.addr + i) = m (y.addr + i) := fun y hy i hi hi' =>
      hother _ (hnew.not_cells hy htype hi hi') (hout _ (used_add hy hi') 0 (by decide))
        (hout _ (used_add hy hi') 1 (by decide))
    have hself : ∀ i, 2 ≤ i → i < 5 → m' (sub + i) = m (sub + i) := fun i hi hi' =>
      hother _ (fun hmem => hfree i hi' (used_of_cells htype hmem)) (by omega) (by omega)
    refine ⟨m', hadd, ?_⟩
    refine {
      hnew with
      lists := hlists.congr (fun _ hl => hl) fun l hl => ?_
      cb := fun y hy => ?_
      userData := fun y hy => ?_
      increasing := List.pairwise_append.mpr ⟨h.increasing, List.pairwise_singleton .., fun y hy z hz => ?_⟩
      below := fun y hy => ?_
      apart := List.pairwise_append.mpr ⟨h.apart, List.pairwise_singleton .., fun y hy z hz => ?_⟩
      outside := fun y hy => ?_
      type := fun y hy => ?_
      running := fun p hp => ?_ }
    · obtain ⟨type', -, rfl⟩ := mem_heads.mp hl
      rw [lists_nodes, of_add]
      by_cases htt : type = type'
      · rw [← htt, Lists.setNodes_nodes_self]
        simp
      · rw [Lists.setNodes_nodes_of_ne _ _ (by omega), lists_nodes, if_neg htt, List.append_nil]
    · rcases List.mem_append.mp hy with hy | hy
      · exact (hold y hy 3 (by decide) (by decide)).trans (hnew.cb y hy)
      · rw [List.mem_singleton.mp hy]
        exact (hself 3 (by decide) (by decide)).trans hwcb
    · rcases List.mem_append.mp hy with hy | hy
      · exact (hold y hy 4 (by decide) (by decide)).trans (hnew.userData y hy)
      · rw [List.mem_singleton.mp hy]
        exact (hself 4 (by decide) (by decide)).trans hwud
    · rw [List.mem_singleton.mp hz]
      exact h.below y hy
    · rcases List.mem_append.mp hy with hy | hy
      · exact Nat.lt_succ_of_lt (h.below y hy)
      · rw [List.mem_singleton.mp hy]
        exact Nat.lt_succ_self _
    · rw [List.mem_singleton.mp hz]
      exact apart_of_free hy hfree
    · rcases List.mem_append.mp hy with hy | hy
      · exact h.outside y hy
      · rw [List.mem_singleton.mp hy]
        exact ⟨hsub, outside_of_free hfree⟩
    · rcases List.mem_append.mp hy with hy | hy
      · exact h.type y hy
      · rw [List.mem_singleton.mp hy]
        exact htype
    · obtain ⟨hp', hat⟩ := h.running p hp
      refine ⟨hp', ?_⟩
      rw [of_add]
      split_ifs
      · exact hat.add fun z hz => h.below z (mem_of.mp hz).1
      · rwa [List.append_nil]

theorem unsubscribe (h : Rep bus s b) {sub : Nat} (hok : b.Ok bus (.unsubscribe sub)) :
    Rep bus { s with mem := eventbusUnsubscribe s.mem sub } (b.step (.unsubscribe sub)) := by
  simp only [eventbusUnsubscribe, Bus.step]
  split_ifs with hsub
  · have hall : b.subs.filter (·.addr != sub) = b.subs := by
      refine List.filter_eq_self.mpr fun x hx => ?_
      simpa [hsub] using (h.outside x hx).1
    rw [hall]
    exact h
  · obtain ⟨hmem, hrun⟩ := hok hsub
    obtain ⟨x, hx, rfl⟩ := List.mem_map.mp hmem
    have htype := h.type x hx
    have hnode : x.addr ∈ (b.lists bus).nodes (bus + 3 * x.type) := by
      rw [lists_nodes]
      exact List.mem_map_of_mem (mem_of.mpr ⟨hx, rfl⟩)
    have hlists := h.lists.pgRemove (head_mem htype) hnode
    have hother : ∀ y ∈ b.subs, ∀ i, 2 ≤ i → i < 5 → pgRemove s.mem x.addr (y.addr + i) = s.mem (y.addr + i) :=
      fun y hy i hi hi' => h.lists.pgRemove_other (head_mem htype) hnode (by
        rw [lists_nodes]
        exact h.not_cells hy htype hi hi')
    refine {
      h with
      lists := hlists.congr (fun _ hl => hl) fun l hl => ?_
      cb := fun y hy => (hother y (List.mem_of_mem_filter hy) 3 (by decide) (by decide)).trans
        (h.cb y (List.mem_of_mem_filter hy))
      userData := fun y hy => (hother y (List.mem_of_mem_filter hy) 4 (by decide) (by decide)).trans
        (h.userData y (List.mem_of_mem_filter hy))
      increasing := h.increasing.filter _
      below := fun y hy => h.below y (List.mem_of_mem_filter hy)
      apart := h.apart.filter _
      outside := fun y hy => h.outside y (List.mem_of_mem_filter hy)
      type := fun y hy => h.type y (List.mem_of_mem_filter hy)
      running := fun p hp => ?_ }
    · obtain ⟨type', -, rfl⟩ := mem_heads.mp hl
      rw [lists_nodes, of_remove]
      by_cases htt : type' = x.type
      · rw [htt, Lists.setNodes_nodes_self, (nodes_nodup h.lists.wf (head_mem htype)).erase_eq_filter, lists_nodes,
          List.filter_map]
        rfl
      · rw [Lists.setNodes_nodes_of_ne _ _ (by omega), lists_nodes]
        refine congrArg _ (List.filter_eq_self.mpr fun y hy => ?_)
        obtain ⟨hysubs, hytype⟩ := mem_of.mp hy
        have hne : y.addr ≠ x.addr := fun haddr => htt (hytype ▸ congrArg Sub.type (h.eq_of_addr hysubs hx haddr))
        simpa using hne
    · obtain ⟨hp', hat⟩ := h.running p hp
      refine ⟨hp', ?_⟩
      rw [of_remove]
      exact hat.remove (by simpa using hrun p hp)

/-- One event: the memory does what the bus does. -/
theorem step (h : Rep bus s b) {e : EbusEv} (hok : b.Ok bus e) :
    ∃ s', Ebus.step bus (some s) e = some s' ∧ Rep bus s' (b.step e) := by
  cases e with
  | subscribe type cb userData sub =>
    obtain ⟨m, hm, hrep⟩ := h.subscribe hok
    exact ⟨_, by simp [Ebus.step, hm], hrep⟩
  | unsubscribe sub => exact ⟨_, rfl, h.unsubscribe hok⟩
  | publish type data => exact ⟨_, rfl, h.publish⟩
  | returns => exact ⟨_, rfl, h.returns⟩
  | other w v => exact ⟨_, rfl, h.other hok⟩

theorem run (h : Rep bus s b) {evs : List EbusEv} (hok : Run.StepsOk Bus.step (Bus.Ok bus) b evs) :
    ∃ s', Run.run (Ebus.step bus) (some s) evs = some s' ∧ Rep bus s' (Run.run Bus.step b evs) := by
  induction evs generalizing s b with
  | nil => exact ⟨s, rfl, h⟩
  | cons e evs ih =>
    obtain ⟨s', hs', hrep⟩ := h.step hok.1
    rw [Run.run_cons, Run.run_cons, hs']
    exact ih hrep hok.2

end Rep

/-! ### Runs -/

section runs
variable {bus : Nat}

/-- The lists of the bus are set up one after another. -/
theorem created (hbus : bus ≠ 0) (m : Mem) (n : Nat) : ∃ m' st,
    (List.range n).foldlM (fun m i => pgNewList m (bus + 3 * i)) m = some m' ∧ PgList.Rep m' st ∧
      (∀ l, l ∈ st.heads ↔ ∃ i < n, l = bus + 3 * i) ∧ ∀ l, st.nodes l = [] := by
  induction n with
  | zero => exact ⟨m, Lists.none, rfl, .none m, by simp [Lists.none], fun _ => rfl⟩
  | succ n ih =>
    obtain ⟨m₁, st, hfold, hrep, hheads, hnodes⟩ := ih
    have hok : st.Ok (.newList (bus + 3 * n)) := by
      refine ⟨by omega, fun l hl hne w hw hmem => ?_⟩
      obtain ⟨i, hi, rfl⟩ := (hheads l).mp hl
      rw [hnodes, mem_cells] at hmem
      simp only [List.mem_cons, List.not_mem_nil, or_false, nodeWords_nil] at hw hmem
      omega
    obtain ⟨m₂, hnew, hrep₂⟩ := hrep.pgNewList hok
    refine ⟨m₂, _, ?_, hrep₂, fun l => ?_, fun l => ?_⟩
    · rw [List.range_succ, List.foldlM_append, hfold]
      simp [hnew]
    · have hmem : l ∈ (st.create (bus + 3 * n)).heads ↔ l = bus + 3 * n ∨ l ∈ st.heads := by
        simp only [Lists.create]
        split_ifs with hin
        · exact ⟨Or.inr, fun hl => hl.elim (fun he => he ▸ hin) id⟩
        · exact List.mem_cons
      rw [hmem, hheads]
      constructor
      · rintro (rfl | ⟨i, hi, rfl⟩)
        · exact ⟨n, by omega, rfl⟩
        · exact ⟨i, by omega, rfl⟩
      · rintro ⟨i, hi, rfl⟩
        rcases Nat.lt_succ_iff_lt_or_eq.mp hi with hi | rfl
        · exact Or.inr ⟨i, hi, rfl⟩
        · exact Or.inl rfl
    · simp [Lists.create, hnodes]

theorem Rep.start (hbus : bus ≠ 0) (m : Mem) : ∃ s, Ebus.start bus m = some s ∧ Rep bus s {} := by
  obtain ⟨m', st, hfold, hrep, hheads, hnodes⟩ := created hbus m EV_MAX
  refine ⟨⟨m', [], []⟩, by simp [Ebus.start, eventbusCreate, hfold], ?_⟩
  refine ⟨hrep.congr (fun l hl => ?_) fun l _ => (hnodes l).symm, nofun, nofun, List.Pairwise.nil, nofun,
    List.Pairwise.nil, nofun, nofun, nofun, nofun, rfl, rfl⟩
  exact (hheads l).mpr (mem_heads.mp hl)

/-- In every order of subscriptions, publishes and callbacks, nested as they like, in which no subscription is freed that
a publish is at, the callbacks that are called are those of the subscriptions, and a publish that has returned called
everyone who is still subscribed. -/
theorem events_delivered (hbus : bus ≠ 0) (m : Mem) (evs : List EbusEv) (hok : Run.StepsOk Bus.step (Bus.Ok bus) {} evs) :
    ∃ s, Run.run (Ebus.step bus) (Ebus.start bus m) evs = some s ∧ s.calls = (Run.run Bus.step {} evs).calls ∧
      ∀ d ∈ (Run.run Bus.step {} evs).finished, d.Complete := by
  obtain ⟨s₀, hstart, hrep₀⟩ := Rep.start hbus m
  obtain ⟨s, hrun, hrep⟩ := hrep₀.run hok
  exact ⟨s, hstart ▸ hrun, hrep.calls, hrep.finished⟩

/-- A callback replaces the subscription after its own by one in the same memory. -/
theorem events_delivered_replaced :
    (Run.run (Ebus.step 100) (Ebus.start 100 fun _ => 7)
      [.subscribe 0 1 11 200, .subscribe 0 2 22 300, .publish 0 5, .unsubscribe 300, .other 300 9, .subscribe 0 3 33 300,
        .returns, .returns]).map Ebus.calls = some [⟨1, 0, 5, 11⟩, ⟨3, 0, 5, 33⟩] := by
  obtain ⟨s, hs, hcalls, -⟩ := events_delivered (by decide : 100 ≠ 0) (fun _ => 7)
    [.subscribe 0 1 11 200, .subscribe 0 2 22 300, .publish 0 5, .unsubscribe 300, .other 300 9, .subscribe 0 3 33 300,
      .returns, .returns] (by decide)
  rw [hs, Option.map_some, hcalls]
  rfl

/-- A subscription is freed by the callback that is running: who gets its memory says what is called next. -/
theorem freed_subscription_called (hbus : bus ≠ 0) (m : Mem) {evs : List EbusEv}
    (hok : Run.StepsOk Bus.step (Bus.Ok bus) {} evs) {s : Ebus}
    (hs : Run.run (Ebus.step bus) (Ebus.start bus m) evs = some s) {f : Frame} {rest : List Frame}
    (hf : s.stack = f :: rest) (cb userData : Nat) :
    (∀ w ∈ [f.sub, f.sub + 3, f.sub + 4], ¬ ((Run.run Bus.step {} evs).step (.unsubscribe f.sub)).Used bus w) ∧
      (Run.run (Ebus.step bus) (some s) [.unsubscribe f.sub, .other f.sub f.sub, .other (f.sub + 3) cb,
        .other (f.sub + 4) userData, .returns]).map Ebus.calls = some (s.calls ++ [⟨cb, f.type, f.data, userData⟩]) := by
  obtain ⟨s₀, hstart, hrep₀⟩ := Rep.start hbus m
  obtain ⟨s', hrun, hrep⟩ := hrep₀.run hok
  rw [hstart, hrun] at hs
  obtain rfl := Option.some.inj hs
  have hstack := hrep.stack
  rw [hf] at hstack
  obtain ⟨p, ps, hrunning, rfl, -⟩ := List.map_eq_cons_iff.mp hstack.symm
  obtain ⟨-, hat⟩ := hrep.running p (hrunning ▸ List.mem_cons_self)
  have hcur := (mem_of.mp hat.mem).1
  obtain ⟨hne, hout⟩ := hrep.outside p.cur hcur
  constructor
  · intro w hw hused
    have hw' : p.cur.addr ≤ w ∧ w < p.cur.addr + 5 := by
      simp only [List.mem_cons, List.not_mem_nil, or_false] at hw
      omega
    rcases hused with ⟨hlo, hhi⟩ | ⟨x, hx, hlo, hhi⟩
    · omega
    · obtain ⟨hx, hxne⟩ := List.mem_filter.mp hx
      have hxcur : x ≠ p.cur := fun he => by simp [he] at hxne
      have hapart := hrep.apart_of_ne hx hcur hxcur
      unfold Apart at hapart
      omega
  · simp [Run.run, Ebus.step, Ebus.returns, Ebus.scan, hf, write, hne]

/-- The callback 1 frees its own subscription. -/
theorem freed_subscription_called_own :
    (Run.run (Ebus.step 100) (Ebus.start 100 fun _ => 7)
      [.subscribe 0 1 11 200, .publish 0 5, .unsubscribe 200, .other 200 200, .other 203 9, .other 204 99,
        .returns]).map Ebus.calls = some [⟨1, 0, 5, 11⟩, ⟨9, 0, 5, 99⟩] := by
  have hok : Run.StepsOk Bus.step (Bus.Ok 100) {} [.subscribe 0 1 11 200, .publish 0 5] := by decide
  obtain ⟨s₀, hstart, hrep₀⟩ := Rep.start (by decide : 100 ≠ 0) fun _ => 7
  obtain ⟨s, hrun, hrep⟩ := hrep₀.run hok
  have hs := hstart.symm ▸ hrun
  have hcalled := (freed_subscription_called (by decide) (fun _ => 7) hok hs (f := ⟨0, 5, 200⟩) hrep.stack 9 99).2
  rw [hrep.calls] at hcalled
  rw [← hs] at hcalled
  exact hcalled

end runs

end Eventbus

end Mhuxd
