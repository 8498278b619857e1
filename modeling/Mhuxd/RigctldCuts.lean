import Mhuxd.RigctldClient
import Mhuxd.Lib.Run

/-!
# Replies of rigctld in pieces

What a poll publishes does not depend on the pieces in which the replies come. Whether it fails may: the rest of the
last line of a poll is in the buffer of the next one, or it isn't, and the buffer must hold the replies to all three
commands.
-/

namespace Mhuxd

open HttpConnection (chars)

/-- A reply of rigctld: lines, and a last one with `RPRT ` and a number. -/
structure RigReply where
  body : List UInt8
  code : List UInt8
  lines : body = [] ∨ body.getLast? = some newline
  plain : countRprtLines body = 0
  number : ∀ c ∈ code, c = 45 ∨ isDigit c = true

namespace RigReply

def head (r : RigReply) : List UInt8 := r.body ++ chars "RPRT "

def tail (r : RigReply) : List UInt8 := r.code ++ [newline]

def text (r : RigReply) : List UInt8 := r.head ++ r.tail

/-- The replies to the first `i` commands of a poll. -/
def before (p : Nat → RigReply) : Nat → List UInt8
  | 0 => []
  | i + 1 => before p i ++ (p i).text

/-- Up to here it must be read for the reply to command `i` to count, behind `n` bytes of the poll before. -/
def need (p : Nat → RigReply) (i n : Nat) : Nat := n + (before p i).length + (p i).head.length

/-- How many of the replies the buffer has room for. -/
def fitting (p : Nat → RigReply) (n : Nat) : Nat :=
  if RIGCL_RX_SIZE < need p 0 n then 0
  else if RIGCL_RX_SIZE < need p 1 n then 1
  else if RIGCL_RX_SIZE < need p 2 n then 2
  else 3

/-- The least and the most that poll `k` may find of the poll before. -/
def spread (replies : Nat → Nat → RigReply) : Nat → Nat × Nat
  | 0 => (0, 0)
  | k + 1 =>
    let least := (spread replies k).1
    if fitting (replies k) least < RIGCL_NUM_COMMANDS then (0, 0)
    else (least + (before (replies k) RIGCL_NUM_COMMANDS).length - RIGCL_RX_SIZE, (replies k 2).tail.length)

/-- The buffer has room for as many replies of poll `k` behind the least that may be left as behind the most. -/
def FitsAlike (replies : Nat → Nat → RigReply) (k : Nat) : Prop :=
  fitting (replies k) (spread replies k).1 = fitting (replies k) (spread replies k).2

end RigReply

/-- The client and its connection: `wire` is what rigctld has sent and the client has not read. -/
structure RigLink where
  client : RigctldClient
  wire : List UInt8
  polls : Nat

namespace RigLink

open RigReply

/-- `readable`: `n` bytes of the wire have come. -/
inductive Ev
  | poll (opens : Bool)
  | writable (connects : Bool) (res : WriteRes)
  | readable (n : Nat)
  | broken
  | timeout

def create (radio : UInt8) : RigLink := ⟨.create radio, [], 0⟩

/-- A connection that is closed takes with it what it holds. -/
def settle (s : RigLink) (client : RigctldClient) : RigLink :=
  { s with client := client, wire := if client.connected then s.wire else [] }

/-- `replies k i` is what rigctld answers to command `i` of poll `k`. -/
def step (replies : Nat → Nat → RigReply) (s : RigLink) : Ev → RigLink
  | .poll opens =>
    let client := s.client.startRequest opens
    if s.client.phase = .idle ∧ client.phase ≠ .idle then { s with client := client, polls := s.polls + 1 }
    else { s with client := client }
  | .writable connects res =>
    if s.client.phase = .connecting ∨ s.client.phase = .writing then
      let client := s.client.ioWritable connects res
      if client.phase = .reading then
        { s with client := client, wire := s.wire ++ (replies (s.polls - 1) client.cmdIdx).text }
      else s.settle client
    else s
  | .readable n =>
    if n = 0 ∨ s.wire = [] then s
    else if s.client.phase = .reading then
      { s with wire := s.wire.drop (min n s.client.rx.room) }.settle (s.client.ioReadable s.wire n)
    else s
  | .broken => s.settle s.client.ioBroken
  | .timeout => s.settle s.client.opTimeoutCb

/-- Nothing fails and nothing times out. -/
def Smooth : Ev → Prop
  | .poll opens => opens = true
  | .writable connects res => connects = true ∧ (res = .again ∨ ∃ n, res = .wrote (n + 1))
  | .readable _ => True
  | .broken => False
  | .timeout => False

end RigLink

/-! ### Lines -/

section

variable {xs ys : List UInt8}

/-- Whole lines. -/
def WholeLines (xs : List UInt8) : Prop := xs = [] ∨ xs.getLast? = some newline

theorem rprt_chars : chars "RPRT " = [82, 80, 82, 84, 32] := by decide

theorem isRprt_append (l ys : List UInt8) : isRprt (l ++ [newline] ++ ys) = isRprt (l ++ [newline]) := by
  unfold isRprt
  rw [rprt_chars]
  rcases l with _ | ⟨a, _ | ⟨b, _ | ⟨c, _ | ⟨d, _ | ⟨e, l⟩⟩⟩⟩⟩ <;>
    simp [newline, List.isPrefixOf]

theorem rprtLines_append (bol : Bool) (l ys : List UInt8) :
    rprtLines bol (l ++ [newline] ++ ys) = rprtLines bol (l ++ [newline]) + rprtLines true ys := by
  induction l generalizing bol with
  | nil =>
    have hmark := isRprt_append [] ys
    simp only [List.nil_append, List.singleton_append] at hmark ⊢
    rw [rprtLines, hmark, rprtLines]
    simp [rprtLines]
  | cons c cs ih =>
    have hmark := isRprt_append (c :: cs) ys
    simp only [List.cons_append] at hmark ⊢
    rw [rprtLines, rprtLines, hmark, ih, Nat.add_assoc]

theorem countRprtLines_append (h : WholeLines xs) (ys : List UInt8) :
    countRprtLines (xs ++ ys) = countRprtLines xs + countRprtLines ys := by
  rcases h with rfl | h
  · rw [List.nil_append]
    exact (Nat.zero_add _).symm
  · obtain ⟨l, rfl⟩ := List.getLast?_eq_some_iff.1 h
    exact rprtLines_append true l ys

theorem rprtLines_mono (h : xs <+: ys) (bol : Bool) : rprtLines bol xs ≤ rprtLines bol ys := by
  induction xs generalizing ys bol with
  | nil => exact Nat.zero_le _
  | cons c cs ih =>
    obtain ⟨ds, rfl⟩ := h
    have hrest := ih (List.prefix_append cs ds) (c == newline)
    have hmark : isRprt (c :: cs) = true → isRprt (c :: (cs ++ ds)) = true := by
      intro hpre
      exact List.isPrefixOf_iff_prefix.2 ((List.isPrefixOf_iff_prefix.1 hpre).trans (List.prefix_append (c :: cs) ds))
    rw [List.cons_append, rprtLines, rprtLines]
    refine Nat.add_le_add ?_ hrest
    rcases bol with _ | _
    · simp
    · rcases hb : isRprt (c :: cs) with _ | _
      · simp
      · simp [hmark hb]

/-- Within a line nothing is counted. -/
theorem rprtLines_within (h : newline ∉ xs) : rprtLines false xs = 0 ∧ rprtLines false (xs ++ [newline]) = 0 := by
  induction xs with
  | nil => decide
  | cons c cs ih =>
    obtain ⟨hc, hcs⟩ := not_or.1 (mt List.mem_cons.2 h)
    have hne : (c == newline) = false := beq_false_of_ne (Ne.symm hc)
    obtain ⟨hopen, hclosed⟩ := ih hcs
    constructor
    · rw [rprtLines, hne, hopen]
      rfl
    · rw [List.cons_append, rprtLines, hne, hclosed]
      rfl

theorem tokens_append (h : WholeLines xs) (ys : List UInt8) : tokens (xs ++ ys) = tokens xs ++ tokens ys := by
  rcases h with rfl | h
  · rfl
  · obtain ⟨l, rfl⟩ := List.getLast?_eq_some_iff.1 h
    have hempty : ([] : List UInt8).splitOn newline = [[]] := rfl
    rw [List.append_assoc, List.singleton_append, tokens, tokens, tokens, List.splitOn_append_cons_self,
      List.splitOn_append_cons_self, List.filter_append, List.filter_append, hempty]
    simp

theorem tokens_line (h : newline ∉ xs) : tokens xs = if xs = [] then [] else [xs] := by
  rw [tokens, List.splitOn_eq_singleton h]
  split_ifs with hnil <;> simp [hnil]

theorem cstr_append (h : (0 : UInt8) ∉ xs) (ys : List UInt8) : cstr (xs ++ ys) = xs ++ cstr ys := by
  rw [cstr, List.takeWhile_append_of_pos]
  · rfl
  · intro c hc
    simp only [decide_eq_true_eq]
    rintro rfl
    exact h hc

theorem cstr_append_of_mem (h : (0 : UInt8) ∈ xs) (ys : List UInt8) : cstr (xs ++ ys) = cstr xs := by
  induction xs with
  | nil => cases h
  | cons c cs ih =>
    by_cases hc : c = 0
    · simp [cstr, hc]
    · have hcs : (0 : UInt8) ∈ cs := by
        rcases List.mem_cons.1 h with h0 | hcs
        · exact absurd h0.symm hc
        · exact hcs
      have hrest := ih hcs
      unfold cstr at hrest ⊢
      rw [List.cons_append, List.takeWhile_cons, List.takeWhile_cons, hrest]

end

/-! ### The rest of a line -/

/-- Characters of a number. -/
def IsNumber (l : List UInt8) : Prop := ∀ c ∈ l, c = 45 ∨ isDigit c = true

/-- What may be left of the last line of a poll. -/
def IsRest (bs : List UInt8) : Prop := bs = [] ∨ ∃ l, bs = l ++ [newline] ∧ IsNumber l

section

variable {l bs q q' : List UInt8}

theorem IsNumber.ne {c : UInt8} (h : IsNumber l) (hc : c ∈ l) :
    c ≠ 0 ∧ c ≠ newline ∧ c ≠ 13 ∧ c ≠ 70 ∧ c ≠ 77 ∧ c ≠ 82 ∧ c ≠ 83 ∧ c ≠ 103 := by
  have hall : ∀ b : BitVec 8, UInt8.ofBitVec b = 45 ∨ isDigit (UInt8.ofBitVec b) = true → UInt8.ofBitVec b ≠ 0 ∧
      UInt8.ofBitVec b ≠ newline ∧ UInt8.ofBitVec b ≠ 13 ∧ UInt8.ofBitVec b ≠ 70 ∧ UInt8.ofBitVec b ≠ 77 ∧
      UInt8.ofBitVec b ≠ 82 ∧ UInt8.ofBitVec b ≠ 83 ∧ UInt8.ofBitVec b ≠ 103 := by decide
  exact hall c.toBitVec (h c hc)

theorem IsNumber.newline_not_mem (h : IsNumber l) : newline ∉ l := fun hc => (h.ne hc).2.1 rfl

theorem IsNumber.of_prefix (h : IsNumber l) (hq : q <+: l) : IsNumber q := fun c hc => h c (hq.subset hc)

theorem IsRest.wholeLines (h : IsRest bs) : WholeLines bs := by
  rcases h with rfl | ⟨l, rfl, -⟩
  · exact .inl rfl
  · exact .inr (by simp)

theorem IsRest.nul_not_mem (h : IsRest bs) : (0 : UInt8) ∉ bs := by
  rcases h with rfl | ⟨l, rfl, hl⟩
  · exact List.not_mem_nil
  · intro h0
    rcases List.mem_append.1 h0 with h0 | h0
    · exact (hl.ne h0).1 rfl
    · exact absurd (List.mem_singleton.1 h0) (by decide)

theorem IsRest.count (h : IsRest bs) : countRprtLines bs = 0 := by
  rcases h with rfl | ⟨l, rfl, hl⟩
  · rfl
  · rcases l with _ | ⟨c, l⟩
    · decide
    · obtain ⟨-, hnl, -, -, -, hR, -⟩ := hl.ne List.mem_cons_self
      have hrest := (rprtLines_within (IsNumber.newline_not_mem fun a ha => hl a (List.mem_cons_of_mem c ha))).2
      have hmark : isRprt (c :: (l ++ [newline])) = false := by
        rw [isRprt, rprt_chars, List.isPrefixOf_cons_cons, beq_false_of_ne (Ne.symm hR)]
        rfl
      rw [List.cons_append, countRprtLines, rprtLines, hmark, beq_false_of_ne hnl, hrest]
      rfl

theorem RigReply.rest_of_tail (r : RigReply) (h : q ++ q' = r.tail) : IsRest q' := by
  rcases List.eq_nil_or_concat q' with rfl | ⟨l, c, rfl⟩
  · exact .inl rfl
  · rw [List.concat_eq_append] at h ⊢
    rw [← List.append_assoc, RigReply.tail] at h
    obtain ⟨hcode, hc⟩ := List.append_inj' h rfl
    obtain rfl : c = newline := by simpa using hc
    refine .inr ⟨l, rfl, fun a ha => r.number a ?_⟩
    rw [← hcode]
    exact List.mem_append_right q ha

end

/-! ### Counting -/

namespace RigReply

variable {p : Nat → RigReply} {rem bs : List UInt8} {i n n' : Nat}

theorem wholeLines_text (r : RigReply) : WholeLines r.text := .inr (by simp [text, tail])

theorem wholeLines_append {xs ys : List UInt8} (h : WholeLines xs) (h' : WholeLines ys) :
    WholeLines (xs ++ ys) := by
  rcases h' with rfl | h'
  · rwa [List.append_nil]
  · obtain ⟨l, rfl⟩ := List.getLast?_eq_some_iff.1 h'
    exact .inr (by rw [← List.append_assoc, List.getLast?_concat])

theorem wholeLines_before (p : Nat → RigReply) (i : Nat) : WholeLines (before p i) := by
  induction i with
  | zero => exact .inl rfl
  | succ i ih => exact wholeLines_append ih (wholeLines_text _)

theorem count_text (r : RigReply) : countRprtLines r.text = 1 := by
  have hnl : newline ∉ r.code := IsNumber.newline_not_mem r.number
  rw [text, head, List.append_assoc, countRprtLines_append r.lines, r.plain, rprt_chars]
  simp [countRprtLines, rprtLines, isRprt, rprt_chars, newline, tail]
  exact (rprtLines_within hnl).2

theorem count_head (r : RigReply) : countRprtLines r.head = 1 := by
  rw [head, countRprtLines_append r.lines, r.plain]
  decide

theorem count_before (p : Nat → RigReply) (i : Nat) : countRprtLines (before p i) = i := by
  induction i with
  | zero => rfl
  | succ i ih => rw [before, countRprtLines_append (wholeLines_before p i), ih, count_text]

theorem before_succ (p : Nat → RigReply) (i : Nat) : before p (i + 1) = before p i ++ (p i).head ++
    (p i).tail := by
  rw [before, text, List.append_assoc]

theorem need_le (p : Nat → RigReply) (i n : Nat) : need p i n ≤ n + (before p (i + 1)).length := by
  rw [before_succ, need]
  simp only [List.length_append]
  omega

theorem length_lt_need (p : Nat → RigReply) (i n : Nat) : n + (before p i).length < need p i n := by
  rw [need, head, rprt_chars]
  simp only [List.length_append, List.length_cons]
  omega

theorem need_lt_succ (p : Nat → RigReply) (i n : Nat) : need p i n < need p (i + 1) n :=
  lt_of_le_of_lt (need_le p i n) (length_lt_need p (i + 1) n)

theorem need_mono (p : Nat → RigReply) (i : Nat) (h : n ≤ n') : need p i n ≤ need p i n' := by
  unfold need
  omega

/-- The reply to command `i` counts as soon as its mark has been read. -/
theorem count_lt_iff (hrem : IsRest rem) (h : bs <+: rem ++ before p (i + 1)) :
    countRprtLines bs < i + 1 ↔ bs.length < need p i rem.length := by
  have hlines : WholeLines (rem ++ before p i) := wholeLines_append hrem.wholeLines (wholeLines_before p i)
  have hcount : countRprtLines (rem ++ before p i) = i := by
    rw [countRprtLines_append hrem.wholeLines, hrem.count, count_before, Nat.zero_add]
  constructor
  · intro hlt
    by_contra hge
    have hpre : rem ++ before p i ++ (p i).head <+: bs := by
      refine List.prefix_of_prefix_length_le ?_ h ?_
      · rw [before_succ, List.append_assoc, List.append_assoc]
        exact (List.prefix_append_right_inj rem).2 (by rw [← List.append_assoc]; exact List.prefix_append _ _)
      · simp only [List.length_append]
        unfold need at hge
        omega
    have hle := rprtLines_mono hpre true
    have hsum := countRprtLines_append hlines (p i).head
    rw [hcount, count_head] at hsum
    unfold countRprtLines at hsum hlt
    omega
  · intro hlt
    have hpre : bs <+: rem ++ before p i ++ ((p i).body ++ [82, 80, 82, 84]) := by
      refine List.prefix_of_prefix_length_le h ?_ ?_
      · rw [before_succ, head, rprt_chars]
        exact ⟨32 :: (p i).tail, by simp⟩
      · rw [need, head, rprt_chars] at hlt
        simp only [List.length_append, List.length_cons, List.length_nil] at hlt ⊢
        omega
    have hle := rprtLines_mono hpre true
    have hsum := countRprtLines_append hlines ((p i).body ++ [82, 80, 82, 84])
    have hmark : countRprtLines [82, 80, 82, 84] = 0 := by decide
    rw [hcount, countRprtLines_append (p i).lines, (p i).plain, hmark] at hsum
    unfold countRprtLines at hsum ⊢
    omega

theorem lt_fitting_iff (p : Nat → RigReply) (n : Nat) (hi : i < 3) :
    i < fitting p n ↔ need p i n ≤ RIGCL_RX_SIZE := by
  have h01 := need_lt_succ p 0 n
  have h12 := need_lt_succ p 1 n
  simp only [Nat.zero_add, Nat.reduceAdd] at h01 h12
  unfold fitting
  rcases i with _ | _ | _ | i
  · split_ifs <;> omega
  · simp only [Nat.zero_add]
    split_ifs <;> omega
  · simp only [Nat.zero_add, Nat.reduceAdd]
    split_ifs <;> omega
  · omega

theorem fitting_le (p : Nat → RigReply) (n : Nat) : fitting p n ≤ 3 := by
  unfold fitting
  split_ifs <;> omega

/-- It fits until command `i`, whose reply doesn't. -/
theorem fitting_eq (hi : i < 3) (hfit : ∀ j < i, need p j n ≤ RIGCL_RX_SIZE) (hover : RIGCL_RX_SIZE < need p i n) :
    fitting p n = i := by
  have hle : ¬i < fitting p n := by
    rw [lt_fitting_iff p n hi]
    exact Nat.not_le.2 hover
  rcases i with _ | i
  · omega
  · have hlt := (lt_fitting_iff p n (Nat.lt_of_succ_lt hi)).2 (hfit i (Nat.lt_succ_self i))
    omega

theorem fitting_anti (p : Nat → RigReply) (h : n ≤ n') : fitting p n' ≤ fitting p n := by
  have hle := fitting_le p n'
  by_contra hlt
  have hi : fitting p n < 3 := by omega
  have hfit := (lt_fitting_iff p n' hi).1 (Nat.not_le.1 hlt)
  have hless := (lt_fitting_iff p n hi).2 ((need_mono p _ h).trans hfit)
  exact lt_irrefl _ hless

end RigReply

/-! ### Parsing -/

section

variable {l xs q rem bs : List UInt8} {radio : UInt8} {last : RigInfo} {st : RigclParse} {p : Nat → RigReply} {r : RigReply}

theorem isPrefixOf_of_ne {c : UInt8} (hc : ∀ a ∈ l, a ≠ c) (cs : List UInt8) :
    (c :: cs).isPrefixOf l = false := by
  rcases l with _ | ⟨a, l⟩
  · rfl
  · rw [List.isPrefixOf_cons_cons, beq_false_of_ne (Ne.symm (hc a List.mem_cons_self)), Bool.false_and]

theorem stripCr_of_ne (h : ∀ c ∈ xs.getLast?, c ≠ 13) : RigclParse.stripCr xs = xs :=
  if_neg fun h13 => h 13 h13 rfl

/-- A number alone on a line says nothing. -/
theorem parseLine_number (h : IsNumber l) : st.parseLine (RigclParse.stripCr l) = st := by
  have hstrip : RigclParse.stripCr l = l := stripCr_of_ne fun c hc => (h.ne (List.mem_of_mem_getLast? hc)).2.2.1
  have hsect : (chars "get_vfo_info: ").isPrefixOf l = false :=
    isPrefixOf_of_ne (fun a ha => (h.ne ha).2.2.2.2.2.2.2) (chars "et_vfo_info: ")
  have hfreq : (chars "Freq: ").isPrefixOf l = false :=
    isPrefixOf_of_ne (fun a ha => (h.ne ha).2.2.2.1) (chars "req: ")
  have hmode : (chars "Mode: ").isPrefixOf l = false :=
    isPrefixOf_of_ne (fun a ha => (h.ne ha).2.2.2.2.1) (chars "ode: ")
  have hsplit : (chars "Split: ").isPrefixOf l = false :=
    isPrefixOf_of_ne (fun a ha => (h.ne ha).2.2.2.2.2.2.1) (chars "plit: ")
  have hrprt : (chars "RPRT ").isPrefixOf l = false :=
    isPrefixOf_of_ne (fun a ha => (h.ne ha).2.2.2.2.2.1) (chars "PRT ")
  rw [hstrip]
  simp [RigclParse.parseLine, rigclDetectSection, isRprt, hsect, hfreq, hmode, hsplit, hrprt]

/-- A line that begins with the mark ends a section. -/
theorem parseLine_mark (h : IsNumber l) :
    st.parseLine (RigclParse.stripCr (chars "RPRT " ++ l)) = { st with sect := .none } := by
  have hstrip : RigclParse.stripCr (chars "RPRT " ++ l) = chars "RPRT " ++ l := by
    refine stripCr_of_ne fun c hc => ?_
    rcases List.mem_append.1 (List.mem_of_mem_getLast? hc) with hmem | hmem
    · rintro rfl
      exact absurd hmem (by decide)
    · exact (h.ne hmem).2.2.1
  rw [hstrip, rprt_chars]
  rfl

theorem tokens_closed (l : List UInt8) : tokens (l ++ [newline]) = tokens l := by
  have hempty : ([] : List UInt8).splitOn newline = [[]] := rfl
  rw [tokens, tokens, List.splitOn_append_cons_self, hempty, List.filter_append]
  simp

theorem parse_rest (h : IsRest rem) (xs : List UInt8) :
    rigclParseResponse radio last (rem ++ xs) = rigclParseResponse radio last xs := by
  rw [rigclParseResponse, rigclParseResponse, cstr_append h.nul_not_mem, tokens_append h.wholeLines]
  rcases h with rfl | ⟨l, rfl, hl⟩
  · rfl
  · rw [tokens_closed, tokens_line hl.newline_not_mem]
    split_ifs
    · rfl
    · rw [List.singleton_append, List.foldl_cons, parseLine_number hl]

/-- What of the last line has come makes no difference. -/
theorem parse_mark (h : WholeLines xs) (hq : q <+: r.tail) :
    rigclParseResponse radio last (xs ++ (chars "RPRT " ++ q)) = rigclParseResponse radio last xs := by
  rw [rigclParseResponse, rigclParseResponse]
  by_cases h0 : (0 : UInt8) ∈ xs
  · rw [cstr_append_of_mem h0]
  · obtain ⟨l, hl, hlast⟩ : ∃ l, IsNumber l ∧ (q = l ∨ q = l ++ [newline]) := by
      rcases List.prefix_concat_iff.1 hq with rfl | hpre
      · exact ⟨r.code, r.number, .inr rfl⟩
      · exact ⟨q, IsNumber.of_prefix r.number hpre, .inl rfl⟩
    have hnl : newline ∉ chars "RPRT " ++ l := by
      intro hmem
      rcases List.mem_append.1 hmem with hmem | hmem
      · exact absurd hmem (by decide)
      · exact hl.newline_not_mem hmem
    have hline : tokens (chars "RPRT " ++ q) = [chars "RPRT " ++ l] := by
      have hne : chars "RPRT " ++ l ≠ [] := by rw [rprt_chars]; exact List.cons_ne_nil _ _
      rcases hlast with rfl | rfl
      · rw [tokens_line hnl, if_neg hne]
      · rw [← List.append_assoc, tokens_closed, tokens_line hnl, if_neg hne]
    have hnul : (0 : UInt8) ∉ chars "RPRT " ++ q := by
      intro hmem
      rcases List.mem_append.1 hmem with hmem | hmem
      · exact absurd hmem (by decide)
      · rcases hlast with rfl | rfl
        · exact (hl.ne hmem).1 rfl
        · rcases List.mem_append.1 hmem with hmem | hmem
          · exact (hl.ne hmem).1 rfl
          · exact absurd (List.mem_singleton.1 hmem) (by decide)
    have hsame : ∀ bs : List UInt8, (0 : UInt8) ∉ bs → cstr bs = bs := fun bs hbs => by
      have happ := cstr_append hbs []
      rwa [List.append_nil, show cstr [] = [] from rfl, List.append_nil] at happ
    rw [cstr_append h0, hsame _ hnul, hsame _ h0, tokens_append h, hline, List.foldl_append, List.foldl_cons,
      List.foldl_nil, parseLine_mark hl]
    rfl

end

namespace RigReply

variable {rem bs ws : List UInt8} {radio : UInt8} {last : RigInfo} {p : Nat → RigReply}

/-- Where the buffer may end when the last reply counts. -/
theorem exists_read_of_need (h : bs ++ ws = rem ++ before p 3) (hlen : need p 2 rem.length ≤ bs.length) :
    ∃ q, bs = rem ++ (before p 2 ++ (p 2).body ++ (chars "RPRT " ++ q)) ∧ q ++ ws = (p 2).tail := by
  have hwhole : bs ++ ws = rem ++ before p 2 ++ (p 2).head ++ (p 2).tail := by
    rw [h, before_succ]
    simp only [List.append_assoc]
  have hpre : rem ++ before p 2 ++ (p 2).head <+: bs := by
    refine List.prefix_of_prefix_length_le ?_ (List.prefix_append bs ws) ?_
    · rw [hwhole]
      exact List.prefix_append _ _
    · simp only [List.length_append]
      unfold need at hlen
      omega
  obtain ⟨q, rfl⟩ := hpre
  refine ⟨q, by simp only [head, List.append_assoc], ?_⟩
  rw [List.append_assoc] at hwhole
  exact List.append_cancel_left hwhole

theorem published (hrem : IsRest rem) (h : bs ++ ws = rem ++ before p 3) (hlen : need p 2 rem.length ≤ bs.length) :
    rigclParseResponse radio last bs = rigclParseResponse radio last (before p 3) := by
  have hlines : WholeLines (before p 2 ++ (p 2).body) := wholeLines_append (wholeLines_before p 2) (p 2).lines
  obtain ⟨q, rfl, hq⟩ := exists_read_of_need h hlen
  have htext : before p 3 = before p 2 ++ (p 2).body ++ (chars "RPRT " ++ (p 2).tail) := by
    rw [before_succ]
    simp only [head, List.append_assoc]
  rw [parse_rest hrem, parse_mark hlines ⟨ws, hq⟩, htext, parse_mark hlines List.prefix_rfl]

end RigReply

/-! ### One poll -/

namespace RigLink

open RigReply

/-- The commands of a poll. -/
def cmds (n : Nat) : List RigNote := (List.range n).map .command

/-- The notes of a poll in which `m` replies fit. -/
def pollNotes (info : RigInfo) (m : Nat) : List RigNote :=
  .poll :: cmds (min (m + 1) RIGCL_NUM_COMMANDS) ++ [if m < RIGCL_NUM_COMMANDS then .fail else .info info]

def infoAfter (p : Nat → RigReply) (radio : UInt8) (last : RigInfo) (m : Nat) : RigInfo :=
  if m < RIGCL_NUM_COMMANDS then last else rigclParseResponse radio last (before p RIGCL_NUM_COMMANDS)

/-- No poll is under way. -/
structure Between (radio : UInt8) (last : RigInfo) (log : List RigNote) (s : RigLink) : Prop where
  phase : s.client.phase = .idle
  radio : s.client.radio = radio
  last : s.client.lastInfo = last
  log : s.client.log = log
  rest : IsRest s.wire

/-- A poll that began with `rem` on the wire is at command `i`, the `m`-th was the last that was sent. -/
structure During (p : Nat → RigReply) (radio : UInt8) (last : RigInfo) (log : List RigNote) (rem : List UInt8)
    (s : RigLink) (i m : Nat) : Prop where
  radio : s.client.radio = radio
  last : s.client.lastInfo = last
  rest : IsRest rem
  connected : s.client.connected = true
  idx : (s.client.cmdIdx : Nat) = i
  tx : s.client.txBuf.length ≤ 100
  phase : m = i ∧ (s.client.phase = .connecting ∨ s.client.phase = .writing) ∨ m = i + 1 ∧
  s.client.phase = .reading
  stream : s.client.rx.bytes ++ s.wire = rem ++ before p m
  log : s.client.log = log ++ .poll :: cmds m
  fits : ∀ j < i, need p j rem.length ≤ RIGCL_RX_SIZE
  short : s.client.rx.bytes.length < need p i rem.length

/-- A poll that began with `rem` on the wire is over. -/
structure Ended (p : Nat → RigReply) (radio : UInt8) (last : RigInfo) (log : List RigNote) (rem : List UInt8)
    (s : RigLink) : Prop where
  between : Between radio (infoAfter p radio last (fitting p rem.length))
    (log ++ pollNotes (infoAfter p radio last (fitting p rem.length)) (fitting p rem.length)) s
  failed : fitting p rem.length < RIGCL_NUM_COMMANDS → s.wire = []
  least : fitting p rem.length = RIGCL_NUM_COMMANDS → rem.length + (before p RIGCL_NUM_COMMANDS).length ≤ s.wire.length + RIGCL_RX_SIZE
  most : fitting p rem.length = RIGCL_NUM_COMMANDS → s.wire.length ≤ (p 2).tail.length

variable {p : Nat → RigReply} {radio : UInt8} {last : RigInfo} {log : List RigNote} {rem : List UInt8} {s : RigLink}
  {i m n : Nat} {replies : Nat → Nat → RigReply}

theorem length_commands (idx : Fin RIGCL_NUM_COMMANDS) : (rigclCommands idx).length ≤ 100 := by
  fin_cases idx <;> decide

theorem cmds_succ (n : Nat) : cmds (n + 1) = cmds n ++ [.command n] := by
  rw [cmds, List.range_succ, List.map_append]
  rfl

/-- A poll begins. -/
theorem Between.poll (replies : Nat → Nat → RigReply) (h : Between radio last log s) :
    During p radio last log s.wire (s.step replies (.poll true)) 0 0 ∧
    (s.step replies (.poll true)).polls = s.polls + 1 := by
  have hneed : 0 < need p 0 s.wire.length := lt_of_le_of_lt (Nat.zero_le _) (length_lt_need p 0 _)
  have hstart : (s.client.startRequest true).phase = .writing ∨
    (s.client.startRequest true).phase = .connecting := by
    rw [RigctldClient.startRequest, if_neg (not_not.2 h.phase), if_pos rfl]
    split_ifs
    · exact .inl rfl
    · exact .inr rfl
  have hstep : s.step replies (.poll true) = { s with client := s.client.startRequest true, polls := s.polls + 1 } := by
    rw [step]
    refine if_pos ⟨h.phase, ?_⟩
    rcases hstart with hp | hp <;> rw [hp] <;> decide
  rw [hstep]
  refine ⟨?_, rfl⟩
  have hclient : (s.client.startRequest true).radio = s.client.radio ∧ (s.client.startRequest true).lastInfo =
      s.client.lastInfo ∧ (s.client.startRequest true).connected = true ∧ (s.client.startRequest true).cmdIdx = 0 ∧
      (s.client.startRequest true).txBuf = rigclCommands 0 ∧ (s.client.startRequest true).rx = .empty ∧
      (s.client.startRequest true).log = s.client.log ++ [.poll] := by
    rw [RigctldClient.startRequest, if_neg (not_not.2 h.phase), if_pos rfl]
    split_ifs with hcon
    · exact ⟨rfl, rfl, hcon, rfl, rfl, rfl, rfl⟩
    · exact ⟨rfl, rfl, rfl, rfl, rfl, rfl, rfl⟩
  obtain ⟨hradio, hlast, hcon, hidx, htx, hrx, hlog⟩ := hclient
  exact {
    radio := hradio.trans h.radio
    last := hlast.trans h.last
    rest := h.rest
    connected := hcon
    idx := congrArg Fin.val hidx
    tx := by rw [htx]; exact length_commands 0
    phase := .inl ⟨rfl, hstart.symm⟩
    stream := by
      rw [hrx]
      exact (List.append_nil _).symm
    log := by rw [hlog, h.log]; rfl
    fits := fun j hj => absurd hj (Nat.not_lt_zero j)
    short := by
      rw [hrx]
      exact hneed }

theorem settle_of_connected {client : RigctldClient} (h : client.connected = true) :
    s.settle client = { s with client := client } := by
  rw [settle, if_pos h]

theorem ioWritable_eq {client : RigctldClient} (h : client.phase = .connecting ∨ client.phase = .writing)
    (res : WriteRes) :
    client.ioWritable true res = { client with phase := .writing }.ioWrite res := by
  rcases h with h | h
  · rw [RigctldClient.ioWritable, h]
    rfl
  · have hsame : client = { client with phase := .writing } := by rw [← h]
    rw [RigctldClient.ioWritable, h]
    exact congrArg (RigctldClient.ioWrite · res) hsame

theorem During.waits (h : During p radio last log rem s i i) :
    s.client.phase = .connecting ∨ s.client.phase = .writing := by
  rcases h.phase with ⟨-, hph⟩ | ⟨hm, -⟩
  · exact hph
  · omega

theorem During.reads (h : During p radio last log rem s i (i + 1)) : s.client.phase = .reading := by
  rcases h.phase with ⟨hm, -⟩ | ⟨-, hph⟩
  · omega
  · exact hph

/-- A part of the command is written, or all that is left of it. -/
theorem During.writable (h : During p radio last log rem s i i) (hp : replies (s.polls - 1) = p) (n : Nat) :
    (s.step replies (.writable true (.wrote (n + 1)))).polls = s.polls ∧
      (During p radio last log rem (s.step replies (.writable true (.wrote (n + 1)))) i (i + 1) ∨
        During p radio last log rem (s.step replies (.writable true (.wrote (n + 1)))) i i ∧
          s.client.txOff + (n + 1) < s.client.txBuf.length) := by
  obtain ⟨off, hoff⟩ : ∃ off, off = s.client.txOff + min (n + 1) (s.client.txBuf.length - s.client.txOff) :=
    ⟨_, rfl⟩
  rw [step, if_pos h.waits, ioWritable_eq h.waits]
  by_cases hpart : off < s.client.txBuf.length
  · have hwrite : ({ s.client with phase := .writing } : RigctldClient).ioWrite (.wrote (n + 1)) =
        { s.client with phase := .writing, txOff := off } := by
      rw [RigctldClient.ioWrite, if_neg (Nat.succ_ne_zero n), hoff]
      exact if_pos (hoff ▸ hpart)
    have hstep : s.settle { s.client with phase := .writing, txOff := off } =
        { s with client := { s.client with phase := .writing, txOff := off } } := settle_of_connected h.connected
    rw [hwrite, if_neg (by simp), hstep]
    refine ⟨rfl, .inr ⟨?_, by omega⟩⟩
    exact { h with phase := .inl ⟨rfl, .inr rfl⟩ }
  · have hwrite : ({ s.client with phase := .writing } : RigctldClient).ioWrite (.wrote (n + 1)) =
        { s.client with phase := .reading, txOff := off }.note (.command s.client.cmdIdx) := by
      rw [RigctldClient.ioWrite, if_neg (Nat.succ_ne_zero n), hoff]
      exact if_neg (hoff ▸ hpart)
    rw [hwrite]
    simp only [RigctldClient.note]
    rw [if_pos trivial]
    refine ⟨rfl, .inl { h with phase := .inr ⟨rfl, rfl⟩, stream := ?_, log := ?_ }⟩
    · rw [hp, h.idx, before, ← List.append_assoc, ← List.append_assoc]
      exact congrArg (· ++ (p i).text) h.stream
    · rw [h.log, cmds_succ, h.idx, List.append_assoc, List.cons_append]

theorem During.again (replies : Nat → Nat → RigReply) (h : During p radio last log rem s i i) :
    (s.step replies (.writable true .again)).polls = s.polls ∧
      During p radio last log rem (s.step replies (.writable true .again)) i i := by
  have hstep : s.settle { s.client with phase := .writing } =
    { s with client := { s.client with phase := .writing } } :=
    settle_of_connected h.connected
  rw [step, if_pos h.waits, ioWritable_eq h.waits, RigctldClient.ioWrite, if_neg (by simp), hstep]
  exact ⟨rfl, { h with phase := .inl ⟨rfl, .inr rfl⟩ }⟩

/-! ### Reads -/

/-- What a read takes and what it leaves. -/
theorem append_drop (rx : RigclRx) (wire : List UInt8) (n : Nat) :
    (rx.append wire n).bytes ++ wire.drop (min n rx.room) = rx.bytes ++ wire := by
  have happ : (rx.append wire n).bytes = rx.bytes ++ wire.take (min n rx.room) := rfl
  rw [happ, List.append_assoc, List.take_append_drop]

theorem length_append (rx : RigclRx) (wire : List UInt8) (n : Nat) :
    (rx.append wire n).bytes.length = rx.bytes.length + min (min n rx.room) wire.length := by
  have happ : (rx.append wire n).bytes = rx.bytes ++ wire.take (min n rx.room) := rfl
  rw [happ, List.length_append, List.length_take]

theorem During.wire_ne (h : During p radio last log rem s i (i + 1)) : s.wire ≠ [] := by
  intro hnil
  have hlen := congrArg List.length h.stream
  have hneed := need_le p i rem.length
  have hshort := h.short
  rw [hnil, List.append_nil, List.length_append] at hlen
  omega

theorem During.readable_eq (h : During p radio last log rem s i (i + 1)) (hn : n ≠ 0) :
    s.step replies (.readable n) = ({ s with wire := s.wire.drop (min n s.client.rx.room) } : RigLink).settle
      (s.client.ioReadable s.wire n) := by
  rw [step, if_neg (not_or.2 ⟨hn, h.wire_ne⟩), if_pos h.reads]

/-- There is no room for what is needed. -/
theorem During.readFull (replies : Nat → Nat → RigReply) (h : During p radio last log rem s i (i + 1))
    (hi : i < 3) (hn : n ≠ 0)
    (hfull : s.client.rx.room = 0) :
    (s.step replies (.readable n)).polls = s.polls ∧ Ended p radio last log rem (s.step replies (.readable n)) := by
  have hshort := h.short
  have hover : RIGCL_RX_SIZE < need p i rem.length := by
    rw [RigclRx.room] at hfull
    omega
  have hfit : fitting p rem.length = i := fitting_eq hi h.fits hover
  have hfail : s.client.ioReadable s.wire n = s.client.opFail := by
    rw [RigctldClient.ioReadable, if_neg (not_not.2 h.reads), RigclRx.takes, hfull, Nat.min_zero,
      List.take_zero, if_pos rfl]
  rw [h.readable_eq hn, hfail]
  have hinfo : infoAfter p radio last i = last := if_pos hi
  refine ⟨rfl, ⟨?_, fun _ => rfl, fun hall => ?_, fun hall => ?_⟩⟩
  · rw [hfit, hinfo]
    refine ⟨rfl, h.radio, h.last, ?_, .inl rfl⟩
    have hmin : min (i + 1) 3 = i + 1 := Nat.min_eq_left hi
    have hlog : (s.client.opFail).log = s.client.log ++ [.fail] := rfl
    rw [pollNotes, hmin, if_pos hi, ← List.append_assoc, ← h.log]
    exact hlog
  · rw [hfit] at hall
    exact absurd hall (Nat.ne_of_lt hi)
  · rw [hfit] at hall
    exact absurd hall (Nat.ne_of_lt hi)

theorem During.ioReadable_eq (h : During p radio last log rem s i (i + 1)) (hn : n ≠ 0)
    (hroom : s.client.rx.room ≠ 0) :
    s.client.ioReadable s.wire n = { s.client with rx := s.client.rx.append s.wire n }.afterRead := by
  have htakes : s.client.rx.takes s.wire n ≠ [] := by
    intro hnil
    have hlen := congrArg List.length hnil
    have hwire := List.length_pos_of_ne_nil h.wire_ne
    rw [RigclRx.takes, List.length_take, List.length_nil] at hlen
    omega
  rw [RigctldClient.ioReadable, if_neg (not_not.2 h.reads), if_neg htakes]

theorem During.count_iff (h : During p radio last log rem s i (i + 1)) (n : Nat) :
    countRprtLines (s.client.rx.append s.wire n).bytes < s.client.cmdIdx + 1 ↔
      (s.client.rx.append s.wire n).bytes.length < need p i rem.length := by
  rw [h.idx]
  refine count_lt_iff h.rest ?_
  rw [← h.stream, ← append_drop s.client.rx s.wire n]
  exact List.prefix_append _ _

/-- The reply isn't complete. -/
theorem During.readShort (replies : Nat → Nat → RigReply) (h : During p radio last log rem s i (i + 1))
    (hn : n ≠ 0) (hroom : s.client.rx.room ≠ 0)
    (hlt : (s.client.rx.append s.wire n).bytes.length < need p i rem.length) :
    (s.step replies (.readable n)).polls = s.polls ∧
      (s.step replies (.readable n)).client.rx = s.client.rx.append s.wire n ∧
      During p radio last log rem (s.step replies (.readable n)) i (i + 1) := by
  have hafter : ({ s.client with rx := s.client.rx.append s.wire n } : RigctldClient).afterRead =
      { s.client with rx := s.client.rx.append s.wire n } := if_pos ((h.count_iff n).2 hlt)
  rw [h.readable_eq hn, h.ioReadable_eq hn hroom, hafter, settle_of_connected]
  swap
  · exact h.connected
  refine ⟨rfl, rfl, { h with stream := ?_, short := hlt }⟩
  exact (append_drop ..).trans h.stream

/-- The reply is complete, and another command follows. -/
theorem During.readNext (replies : Nat → Nat → RigReply) (h : During p radio last log rem s i (i + 1))
    (hi : i + 1 < 3) (hn : n ≠ 0)
    (hroom : s.client.rx.room ≠ 0) (hge : need p i rem.length ≤ (s.client.rx.append s.wire n).bytes.length) :
    (s.step replies (.readable n)).polls = s.polls ∧
      During p radio last log rem (s.step replies (.readable n)) (i + 1) (i + 1) := by
  have hcount := mt (h.count_iff n).1 (Nat.not_lt.2 hge)
  have hidx : (s.client.cmdIdx : Nat) + 1 < RIGCL_NUM_COMMANDS := by rw [h.idx]; exact hi
  have hafter : ({ s.client with rx := s.client.rx.append s.wire n } : RigctldClient).afterRead =
      { ({ s.client with rx := s.client.rx.append s.wire n } : RigctldClient).loadCommand ⟨s.client.cmdIdx + 1, hidx⟩ with
        phase := .writing } := by
    rw [RigctldClient.afterRead, if_neg hcount]
    exact dif_pos hidx
  have hlen := congrArg List.length ((append_drop s.client.rx s.wire n).trans h.stream)
  have hneed := length_lt_need p (i + 1) rem.length
  simp only [List.length_append] at hlen
  rw [h.readable_eq hn, h.ioReadable_eq hn hroom, hafter, settle_of_connected]
  swap
  · exact h.connected
  refine ⟨rfl, { h with
    idx := ?_, tx := length_commands _, phase := .inl ⟨rfl, .inr rfl⟩, stream := ?_, fits := ?_, short := ?_ }⟩
  · exact congrArg (· + 1) h.idx
  · exact (append_drop ..).trans h.stream
  · intro j hj
    rcases Nat.lt_succ_iff_lt_or_eq.1 hj with hj | rfl
    · exact h.fits j hj
    · exact hge.trans (s.client.rx.append s.wire n).fits
  · refine lt_of_le_of_lt ?_ hneed
    dsimp only [RigctldClient.loadCommand]
    omega

/-- The last reply is complete. -/
theorem During.readLast (replies : Nat → Nat → RigReply) (h : During p radio last log rem s 2 3) (hn : n ≠ 0)
    (hroom : s.client.rx.room ≠ 0)
    (hge : need p 2 rem.length ≤ (s.client.rx.append s.wire n).bytes.length) :
    (s.step replies (.readable n)).polls = s.polls ∧
      (s.step replies (.readable n)).wire = s.wire.drop (min n s.client.rx.room) ∧
      Ended p radio last log rem (s.step replies (.readable n)) := by
  have hcount := mt (h.count_iff n).1 (Nat.not_lt.2 hge)
  have hstream : (s.client.rx.append s.wire n).bytes ++ s.wire.drop (min n s.client.rx.room) = rem ++ before p 3 :=
    (append_drop ..).trans h.stream
  have hinfo : rigclParseResponse radio last (s.client.rx.append s.wire n).bytes =
    rigclParseResponse radio last (before p 3) :=
    published h.rest hstream hge
  have hidx : ¬(s.client.cmdIdx : Nat) + 1 < RIGCL_NUM_COMMANDS := by
    rw [h.idx]
    decide
  have hafter : ({ s.client with rx := s.client.rx.append s.wire n } : RigctldClient).afterRead =
      (({ s.client with rx := s.client.rx.append s.wire n, lastInfo := rigclParseResponse radio last (before p 3) } :
        RigctldClient).note (.info (rigclParseResponse radio last (before p 3)))).finishRequest := by
    rw [← hinfo, ← h.radio, ← h.last, RigctldClient.afterRead, if_neg hcount]
    exact dif_neg hidx
  have hfits : fitting p rem.length = 3 := by
    have hlt := (lt_fitting_iff p rem.length (show 2 < 3 by decide)).2 (hge.trans (s.client.rx.append s.wire n).fits)
    have hle := fitting_le p rem.length
    omega
  have hinfoAfter : infoAfter p radio last 3 = rigclParseResponse radio last (before p 3) := if_neg (by decide)
  obtain ⟨q, -, hq⟩ := exists_read_of_need hstream hge
  have hlen := congrArg List.length hstream
  have hfit := (s.client.rx.append s.wire n).fits
  simp only [List.length_append] at hlen
  rw [h.readable_eq hn, h.ioReadable_eq hn hroom, hafter, settle_of_connected]
  swap
  · exact h.connected
  refine ⟨rfl, rfl, ⟨?_, fun hlt => ?_, fun _ => ?_, fun _ => ?_⟩⟩
  · rw [hfits, hinfoAfter]
    refine ⟨rfl, h.radio, rfl, ?_, RigReply.rest_of_tail (p 2) hq⟩
    have hlog : s.client.log = log ++ .poll :: cmds 3 := h.log
    dsimp only [RigctldClient.finishRequest, RigctldClient.note]
    rw [hlog, pollNotes, if_neg (by decide), ← List.append_assoc]
    rfl
  · rw [hfits] at hlt
    exact absurd hlt (by decide)
  · have hsize : before p RIGCL_NUM_COMMANDS = before p 3 := rfl
    rw [hsize]
    dsimp only
    omega
  · have htail := congrArg List.length hq
    rw [List.length_append] at htail
    dsimp only
    omega

/-! ### Every cut -/

/-- What the client tells in `k` polls, and the info after them, if the cuts make no difference. -/
def told (replies : Nat → Nat → RigReply) (radio : UInt8) : Nat → RigInfo × List RigNote
  | 0 => ((RigctldClient.create radio).lastInfo, [])
  | k + 1 =>
    let m := fitting (replies k) (spread replies k).1
    let info := infoAfter (replies k) radio (told replies radio k).1 m
    (info, (told replies radio k).2 ++ pollNotes info m)

/-- As much is left as poll `k` may find. -/
def Within (replies : Nat → Nat → RigReply) (k : Nat) (rem : List UInt8) : Prop :=
  (spread replies k).1 ≤ rem.length ∧ rem.length ≤ (spread replies k).2

/-- The client has told what it should. -/
def Sim (replies : Nat → Nat → RigReply) (radio : UInt8) (s : RigLink) : Prop :=
  Between radio (told replies radio s.polls).1 (told replies radio s.polls).2 s ∧ Within replies s.polls s.wire ∨
    ∃ k rem i m, s.polls = k + 1 ∧ i < 3 ∧ Within replies k rem ∧
      During (replies k) radio (told replies radio k).1 (told replies radio k).2 rem s i m

variable {k : Nat} {e : Ev}

theorem FitsAlike.fitting_eq (h : FitsAlike replies k) (hw : Within replies k rem) :
    fitting (replies k) rem.length = fitting (replies k) (spread replies k).1 := by
  have hmost := fitting_anti (replies k) hw.1
  have hleast := fitting_anti (replies k) hw.2
  rw [FitsAlike] at h
  omega

theorem told_succ (h : fitting (replies k) (spread replies k).1 = m) :
    told replies radio (k + 1) = (infoAfter (replies k) radio (told replies radio k).1 m,
      (told replies radio k).2 ++ pollNotes (infoAfter (replies k) radio (told replies radio k).1 m) m) := by
  rw [told, h]

theorem spread_succ_failed (h : fitting (replies k) (spread replies k).1 < 3) :
    spread replies (k + 1) = (0, 0) := by
  rw [spread]
  exact if_pos h

theorem spread_succ_passed (h : ¬fitting (replies k) (spread replies k).1 < 3) : spread replies (k + 1) =
    ((spread replies k).1 + (before (replies k) 3).length - RIGCL_RX_SIZE, (replies k 2).tail.length) := by
  rw [spread]
  exact if_neg h

theorem Ended.between_told (h : Ended (replies k) radio (told replies radio k).1 (told replies radio k).2 rem s)
    (hfits : FitsAlike replies k) (hw : Within replies k rem) :
    Between radio (told replies radio (k + 1)).1 (told replies radio (k + 1)).2 s := by
  rw [told_succ (FitsAlike.fitting_eq hfits hw).symm]
  exact h.between

theorem Ended.within (h : Ended (replies k) radio last log rem s) (hfits : FitsAlike replies k)
    (hw : Within replies k rem) : Within replies (k + 1) s.wire := by
  have heq := FitsAlike.fitting_eq hfits hw
  by_cases hfail : fitting (replies k) (spread replies k).1 < 3
  · rw [Within, spread_succ_failed hfail, h.failed (heq ▸ hfail)]
    exact ⟨le_rfl, le_rfl⟩
  · have hle := fitting_le (replies k) rem.length
    have hall : fitting (replies k) rem.length = 3 := by omega
    have hleast : rem.length + (before (replies k) 3).length ≤ s.wire.length + RIGCL_RX_SIZE := h.least hall
    have hlow := hw.1
    rw [Within, spread_succ_passed hfail]
    refine ⟨?_, h.most hall⟩
    dsimp only
    omega

theorem step_poll_busy (h : s.client.phase ≠ .idle) (opens : Bool) : s.step replies (.poll opens) = s := by
  have hstart : s.client.startRequest opens = s.client := if_pos h
  rw [step, hstart]
  exact if_neg fun hidle => h hidle.1

theorem step_writable_other (h : ¬(s.client.phase = .connecting ∨ s.client.phase = .writing)) (connects : Bool)
    (res : WriteRes) : s.step replies (.writable connects res) = s := if_neg h

theorem step_readable_other (h : s.client.phase ≠ .reading) (n : Nat) : s.step replies (.readable n) = s := by
  rw [step, if_neg h, ite_self]

theorem During.busy (h : During p radio last log rem s i m) : s.client.phase ≠ .idle := by
  rcases h.phase with ⟨-, hp | hp⟩ | ⟨-, hp⟩ <;> rw [hp] <;> decide

/-- A read, whatever has come. -/
theorem During.read (replies : Nat → Nat → RigReply) (h : During p radio last log rem s i (i + 1)) (hi : i < 3)
    (n : Nat) :
    (s.step replies (.readable n)).polls = s.polls ∧
      (Ended p radio last log rem (s.step replies (.readable n)) ∨
        ∃ i' m, i' < 3 ∧ During p radio last log rem (s.step replies (.readable n)) i' m) := by
  by_cases hn : n = 0
  · have hstep : s.step replies (.readable n) = s := if_pos (.inl hn)
    rw [hstep]
    exact ⟨rfl, .inr ⟨i, i + 1, hi, h⟩⟩
  by_cases hroom : s.client.rx.room = 0
  · obtain ⟨hpolls, hend⟩ := h.readFull replies hi hn hroom
    exact ⟨hpolls, .inl hend⟩
  rcases Nat.lt_or_ge (s.client.rx.append s.wire n).bytes.length (need p i rem.length) with hlt | hge
  · obtain ⟨hpolls, -, hmore⟩ := h.readShort replies hn hroom hlt
    exact ⟨hpolls, .inr ⟨i, i + 1, hi, hmore⟩⟩
  · by_cases hlast : i = 2
    · subst hlast
      obtain ⟨hpolls, -, hend⟩ := h.readLast replies hn hroom hge
      exact ⟨hpolls, .inl hend⟩
    · obtain ⟨hpolls, hnext⟩ := h.readNext replies (by omega) hn hroom hge
      exact ⟨hpolls, .inr ⟨i + 1, i + 1, by omega, hnext⟩⟩

theorem Sim.step (hfits : ∀ k, FitsAlike replies k) (h : Sim replies radio s) (he : Smooth e) :
    Sim replies radio (s.step replies e) := by
  rcases h with ⟨hidle, hw⟩ | ⟨k, rem, i, m, hk, hi, hw, hbusy⟩
  · cases e with
    | poll opens =>
      obtain rfl : opens = true := he
      obtain ⟨hstart, hpolls⟩ := hidle.poll replies
      exact .inr ⟨s.polls, s.wire, 0, 0, hpolls, by decide, hw, hstart⟩
    | writable connects res =>
      rw [step_writable_other (by rw [hidle.phase]; decide)]
      exact .inl ⟨hidle, hw⟩
    | readable n =>
      rw [step_readable_other (by rw [hidle.phase]; decide)]
      exact .inl ⟨hidle, hw⟩
    | broken => exact he.elim
    | timeout => exact he.elim
  · have hp : replies (s.polls - 1) = replies k := by rw [hk, Nat.add_sub_cancel]
    have hstays : ∀ {s' : RigLink} {i' m'}, s'.polls = s.polls → i' < 3 →
      During (replies k) radio (told replies radio k).1
        (told replies radio k).2 rem s' i' m' → Sim replies radio s' :=
      fun hpolls hi' hd => .inr ⟨k, rem, _, _, hpolls.trans hk, hi', hw, hd⟩
    cases e with
    | poll opens =>
      rw [step_poll_busy hbusy.busy]
      exact hstays rfl hi hbusy
    | writable connects res =>
      obtain ⟨rfl, hres⟩ := he
      by_cases hm : m = i
      · subst hm
        rcases hres with rfl | ⟨n, rfl⟩
        · obtain ⟨hpolls, hagain⟩ := hbusy.again replies
          exact hstays hpolls hi hagain
        · obtain ⟨hpolls, hsent | ⟨hpart, -⟩⟩ := hbusy.writable hp n
          · exact hstays hpolls hi hsent
          · exact hstays hpolls hi hpart
      · have hreads : s.client.phase = .reading := by
          rcases hbusy.phase with ⟨hmi, -⟩ | ⟨-, hph⟩
          · exact absurd hmi hm
          · exact hph
        rw [step_writable_other (by rw [hreads]; decide)]
        exact hstays rfl hi hbusy
    | readable n =>
      by_cases hm : m = i
      · subst hm
        have hwaits : s.client.phase ≠ .reading := by
          rcases hbusy.waits with hph | hph <;> rw [hph] <;> decide
        rw [step_readable_other hwaits]
        exact hstays rfl hi hbusy
      · obtain rfl : m = i + 1 := by
          rcases hbusy.phase with ⟨hmi, -⟩ | ⟨hmi, -⟩
          · exact absurd hmi hm
          · exact hmi
        obtain ⟨hpolls, hend | ⟨i', m', hi', hd⟩⟩ := hbusy.read replies hi n
        · rw [← hpolls] at hk
          refine .inl ?_
          rw [hk]
          exact ⟨hend.between_told (hfits k) hw, hend.within (hfits k) hw⟩
        · exact hstays hpolls hi' hd
    | broken => exact he.elim
    | timeout => exact he.elim

theorem Between.create (radio : UInt8) : Between radio (RigctldClient.create radio).lastInfo [] (create radio) :=
  ⟨rfl, rfl, rfl, rfl, .inl rfl⟩

theorem sim_run (hfits : ∀ k, FitsAlike replies k) (radio : UInt8)
    {evs : List Ev} (hsmooth : ∀ e ∈ evs, Smooth e) :
    Sim replies radio (Run.run (step replies) (create radio) evs) := by
  have hok : Run.StepsOk (step replies) (fun _ e => Smooth e) (create radio) evs := Run.stepsOk_const_iff.2 hsmooth
  exact Run.run_inv_of_ok (fun _ _ h he => Sim.step hfits h he) (.inl ⟨.create radio, le_rfl, le_rfl⟩) hok

/-! ### Two cuts that differ -/

/-- From `s` on it can come to a state in `P` with nothing failing. -/
def Leads (replies : Nat → Nat → RigReply) (s : RigLink) (P : RigLink → Prop) : Prop :=
  ∃ evs : List Ev, (∀ e ∈ evs, Smooth e) ∧ P (Run.run (step replies) s evs)

variable {P Q : RigLink → Prop}

theorem Leads.now (h : P s) : Leads replies s P := ⟨[], nofun, h⟩

theorem Leads.step (he : Smooth e) (h : Leads replies (s.step replies e) P) : Leads replies s P := by
  obtain ⟨evs, hsmooth, hP⟩ := h
  exact ⟨e :: evs, List.forall_mem_cons.2 ⟨he, hsmooth⟩, hP⟩

theorem Leads.trans (h : Leads replies s P) (h' : ∀ s', P s' → Leads replies s' Q) : Leads replies s Q := by
  obtain ⟨evs, hsmooth, hP⟩ := h
  obtain ⟨evs', hsmooth', hQ⟩ := h' _ hP
  refine ⟨evs ++ evs', fun e he => ?_, ?_⟩
  · rcases List.mem_append.1 he with he | he
    · exact hsmooth e he
    · exact hsmooth' e he
  · rw [Run.run_append]
    exact hQ

/-- The least or the most that a poll can leave if all its replies fit. -/
def CanLeave (p : Nat → RigReply) (n left : Nat) : Prop :=
  left = n + (before p 3).length - RIGCL_RX_SIZE ∨ left = (p 2).tail.length

/-- A poll is over and has left that much. -/
def Polled (p : Nat → RigReply) (radio : UInt8) (last : RigInfo) (log : List RigNote) (rem : List UInt8)
    (polls left : Nat) (s : RigLink) : Prop :=
  s.polls = polls ∧ Ended p radio last log rem s ∧ (fitting p rem.length = 3 → s.wire.length = left)

variable {left polls : Nat}

theorem During.leads_failed (h : During p radio last log rem s i (i + 1)) (hi : i < 3) (hpolls : s.polls = polls)
    (hover : RIGCL_RX_SIZE < need p i rem.length) : Leads replies s (Polled p radio last log rem polls left) := by
  have hfit : fitting p rem.length ≠ 3 := by
    rw [fitting_eq hi h.fits hover]
    omega
  by_cases hroom : s.client.rx.room = 0
  · obtain ⟨hsame, hend⟩ := h.readFull replies hi Nat.one_ne_zero hroom
    exact .step (e := .readable 1) trivial (.now ⟨hsame.trans hpolls, hend, fun hall => absurd hall hfit⟩)
  · have hsize : RIGCL_RX_SIZE ≠ 0 := by decide
    have hlt : (s.client.rx.append s.wire RIGCL_RX_SIZE).bytes.length < need p i rem.length :=
      lt_of_le_of_lt (s.client.rx.append s.wire RIGCL_RX_SIZE).fits hover
    obtain ⟨hsame, hrx, hmore⟩ := h.readShort replies hsize hroom hlt
    have hfull : (s.step replies (.readable RIGCL_RX_SIZE)).client.rx.room = 0 := by
      have hlen := congrArg List.length h.stream
      have hneed := need_le p i rem.length
      simp only [List.length_append] at hlen
      rw [hrx, RigclRx.room, length_append, RigclRx.room]
      omega
    obtain ⟨hsame', hend⟩ := hmore.readFull replies hi Nat.one_ne_zero hfull
    exact .step (e := .readable RIGCL_RX_SIZE) trivial
      (.step (e := .readable 1) trivial (.now ⟨hsame'.trans (hsame.trans hpolls), hend, fun hall => absurd hall hfit⟩))

/-- A read of all that fits or of just what is needed. -/
theorem During.leads_last (h : During p radio last log rem s 2 3) (hpolls : s.polls = polls)
    (hleft : CanLeave p rem.length left) (hfits : need p 2 rem.length ≤ RIGCL_RX_SIZE) :
    Leads replies s (Polled p radio last log rem polls left) := by
  have hlen := congrArg List.length h.stream
  have hshort := h.short
  have hneed := need_le p 2 rem.length
  have htail : rem.length + (before p 3).length = need p 2 rem.length + (p 2).tail.length := by
    rw [before_succ, need]
    simp only [List.length_append]
    omega
  have hroom : s.client.rx.room = RIGCL_RX_SIZE - s.client.rx.bytes.length := rfl
  simp only [List.length_append, Nat.reduceAdd] at hlen hneed
  obtain ⟨n, hn, hge, hrest⟩ : ∃ n, n ≠ 0 ∧ need p 2 rem.length ≤ (s.client.rx.append s.wire n).bytes.length ∧
      s.wire.length - min n s.client.rx.room = left := by
    rcases hleft with hleast | hmost
    · refine ⟨RIGCL_RX_SIZE, Nat.succ_ne_zero 510, ?_, ?_⟩
      · rw [length_append]
        omega
      · omega
    · refine ⟨need p 2 rem.length - s.client.rx.bytes.length, by omega, ?_, ?_⟩
      · rw [length_append]
        omega
      · omega
  obtain ⟨hsame, hwire, hend⟩ := h.readLast replies hn (by omega) hge
  refine .step (e := .readable n) trivial (.now ⟨hsame.trans hpolls, hend, fun _ => ?_⟩)
  rw [hwire, List.length_drop]
  exact hrest

theorem During.leads_sent (h : During p radio last log rem s i i) (hp : replies (s.polls - 1) = p)
    (h' : ∀ s' : RigLink, s'.polls = s.polls → During p radio last log rem s' i (i + 1) → Leads replies s' P) :
    Leads replies s P := by
  have htx := h.tx
  obtain ⟨hsame, hsent | ⟨-, hpart⟩⟩ := h.writable hp 99
  · exact .step (e := .writable true (.wrote 100)) ⟨rfl, .inr ⟨99, rfl⟩⟩ (h' _ hsame hsent)
  · omega

theorem During.leads_next (h : During p radio last log rem s i (i + 1)) (hi : i + 1 < 3)
    (hfits : need p i rem.length ≤ RIGCL_RX_SIZE)
    (h' : ∀ s' : RigLink, s'.polls = s.polls → During p radio last log rem s' (i + 1) (i + 1) →
      Leads replies s' P) :
    Leads replies s P := by
  have hlen := congrArg List.length h.stream
  have hshort := h.short
  have hneed := need_le p i rem.length
  have hroom : s.client.rx.room = RIGCL_RX_SIZE - s.client.rx.bytes.length := rfl
  simp only [List.length_append] at hlen
  have hge : need p i rem.length ≤ (s.client.rx.append s.wire RIGCL_RX_SIZE).bytes.length := by
    rw [length_append]
    omega
  obtain ⟨hsame, hnext⟩ := h.readNext replies hi (by decide : RIGCL_RX_SIZE ≠ 0) (by omega) hge
  exact .step (e := .readable RIGCL_RX_SIZE) trivial (h' _ hsame hnext)

/-- From any of its commands a poll can come to its end. -/
theorem During.leads_ended (h : During p radio last log rem s i i) (hi : i < 3) (hp : replies (s.polls - 1) = p)
    (hleft : CanLeave p rem.length left) : Leads replies s (Polled p radio last log rem s.polls left) := by
  obtain ⟨d, hd⟩ : ∃ d, i + d = 2 := ⟨2 - i, by omega⟩
  induction d generalizing i s with
  | zero =>
    obtain rfl : i = 2 := hd
    refine h.leads_sent hp fun s' hpolls hsent => ?_
    rcases Nat.lt_or_ge RIGCL_RX_SIZE (need p 2 rem.length) with hover | hfits
    · exact hsent.leads_failed hi hpolls hover
    · exact hsent.leads_last hpolls hleft hfits
  | succ d ih =>
    refine h.leads_sent hp fun s' hpolls hsent => ?_
    rcases Nat.lt_or_ge RIGCL_RX_SIZE (need p i rem.length) with hover | hfits
    · exact hsent.leads_failed hi hpolls hover
    · refine hsent.leads_next (by omega) hfits fun s'' hpolls' hnext => ?_
      have hp' : replies (s''.polls - 1) = p := by rw [hpolls', hpolls, hp]
      have hrest := ih hnext (by omega) hp' (by omega)
      rw [hpolls', hpolls] at hrest
      exact hrest

theorem Between.leads_polled (h : Between radio last log s) (hp : replies s.polls = p)
    (hleft : CanLeave p s.wire.length left) : Leads replies s (Polled p radio last log s.wire (s.polls + 1) left) := by
  obtain ⟨hstart, hpolls⟩ := h.poll replies
  have hp' : replies ((s.step replies (.poll true)).polls - 1) = p := by rw [hpolls, Nat.add_sub_cancel, hp]
  have hrest := hstart.leads_ended (by decide) hp' hleft
  rw [hpolls] at hrest
  exact .step (e := .poll true) rfl hrest

theorem spread_le (replies : Nat → Nat → RigReply) (k : Nat) : (spread replies k).1 ≤ (spread replies k).2 := by
  rcases k with _ | k
  · exact le_rfl
  · by_cases hfail : fitting (replies k) (spread replies k).1 < 3
    · rw [spread_succ_failed hfail]
    · have hneed := (lt_fitting_iff (replies k) (spread replies k).1 (show 2 < 3 by decide)).1 (by omega)
      have hlen := congrArg List.length (before_succ (replies k) 2)
      simp only [List.length_append, Nat.reduceAdd] at hlen
      rw [spread_succ_passed hfail]
      unfold need at hneed
      dsimp only
      omega

/-- As long as the cuts make no difference, a poll can find the least that may be left, and the most. -/
theorem leads_spread (radio : UInt8) (hfits : ∀ j < k, FitsAlike replies j) {left : Nat}
    (hleft : left = (spread replies k).1 ∨ left = (spread replies k).2) :
    Leads replies (create radio) fun s =>
      s.polls = k ∧ Between radio (told replies radio k).1 (told replies radio k).2 s ∧ s.wire.length = left := by
  induction k generalizing left with
  | zero =>
    refine .now ⟨rfl, .create radio, ?_⟩
    rcases hleft with rfl | rfl <;> rfl
  | succ k ih =>
    have hk := hfits k (Nat.lt_succ_self k)
    refine (ih (fun j hj => hfits j (Nat.lt_succ_of_lt hj)) (.inl rfl)).trans ?_
    rintro s ⟨rfl, hbetween, hlen⟩
    have hw : Within replies s.polls s.wire := ⟨hlen.ge, hlen.trans_le (spread_le replies s.polls)⟩
    obtain ⟨c, hc, hpassed⟩ : ∃ c, CanLeave (replies s.polls) s.wire.length c ∧
        (¬fitting (replies s.polls) (spread replies s.polls).1 < 3 → c = left) := by
      by_cases hfail : fitting (replies s.polls) (spread replies s.polls).1 < 3
      · exact ⟨_, .inr rfl, fun hpass => absurd hfail hpass⟩
      · rw [spread_succ_passed hfail, ← hlen] at hleft
        exact ⟨left, hleft, fun _ => rfl⟩
    refine (hbetween.leads_polled rfl hc).trans ?_
    rintro s' ⟨hpolls, hend, hwire⟩
    refine .now ⟨hpolls, hend.between_told hk hw, ?_⟩
    by_cases hfail : fitting (replies s.polls) (spread replies s.polls).1 < 3
    · rw [spread_succ_failed hfail] at hleft
      rw [hend.failed (hlen ▸ hfail)]
      rcases hleft with rfl | rfl <;> rfl
    · have hle := fitting_le (replies s.polls) (spread replies s.polls).1
      rw [← hpassed hfail]
      exact hwire (by rw [hlen]; omega)

theorem pollNotes_inj {info info' : RigInfo} {m m' : Nat} (hm : m ≤ 3) (hm' : m' ≤ 3)
    (h : pollNotes info m = pollNotes info' m') : m = m' := by
  have hthree : RIGCL_NUM_COMMANDS = 3 := rfl
  have hlen := congrArg List.length h
  have hlast := congrArg List.getLast? h
  simp only [pollNotes, cmds, List.length_append, List.length_cons, List.length_map, List.length_range,
    List.length_nil] at hlen
  rw [pollNotes, pollNotes, List.getLast?_concat, List.getLast?_concat] at hlast
  split_ifs at hlast with hfail hfail'
  · omega
  · cases hlast
  · cases hlast
  · omega

/-- Two cuts of the same replies tell different things. -/
def CutsDiffer (replies : Nat → Nat → RigReply) (radio : UInt8) : Prop :=
  ∃ evs evs' : List Ev, (∀ e ∈ evs, Smooth e) ∧ (∀ e ∈ evs', Smooth e) ∧
    (Run.run (step replies) (create radio) evs).client.phase = .idle ∧
    (Run.run (step replies) (create radio) evs').client.phase = .idle ∧
    (Run.run (step replies) (create radio) evs).polls = (Run.run (step replies) (create radio) evs').polls ∧
    (Run.run (step replies) (create radio) evs).client.log ≠ (Run.run (step replies)
      (create radio) evs').client.log

theorem cuts_differ (radio : UInt8) (hfits : ∀ j < k, FitsAlike replies j) (hk : ¬FitsAlike replies k) :
    CutsDiffer replies radio := by
  have hpoll : ∀ left, left = (spread replies k).1 ∨ left = (spread replies k).2 →
      Leads replies (create radio) fun s => s.polls = k + 1 ∧ s.client.phase = .idle ∧ ∃ info,
        s.client.log = (told replies radio k).2 ++ pollNotes info (fitting (replies k) left) := by
    intro left hleft
    refine (leads_spread radio hfits hleft).trans ?_
    rintro s ⟨rfl, hbetween, rfl⟩
    refine (hbetween.leads_polled rfl (.inr rfl)).trans ?_
    rintro s' ⟨hpolls, hend, -⟩
    exact .now ⟨hpolls, hend.between.phase, _, hend.between.log⟩
  obtain ⟨evs, hsmooth, hpolls, hidle, info, hlog⟩ := hpoll _ (.inl rfl)
  obtain ⟨evs', hsmooth', hpolls', hidle', info', hlog'⟩ := hpoll _ (.inr rfl)
  refine ⟨evs, evs', hsmooth, hsmooth', hidle, hidle', hpolls.trans hpolls'.symm, fun hsame => hk ?_⟩
  rw [hlog, hlog'] at hsame
  exact pollNotes_inj (fitting_le _ _) (fitting_le _ _) (List.append_cancel_left hsame)

/-- However the replies are cut, the client sends the same commands, fails the same polls and publishes the same, exactly
if in each poll the buffer has room for as many replies behind the least that the poll before may have left as behind the
most. -/
theorem rigctld_cuts_agree (radio : UInt8) (replies : Nat → Nat → RigReply) :
    (∀ evs evs' : List Ev, (∀ e ∈ evs, Smooth e) → (∀ e ∈ evs', Smooth e) →
        (Run.run (step replies) (create radio) evs).client.phase = .idle →
        (Run.run (step replies) (create radio) evs').client.phase = .idle →
        (Run.run (step replies) (create radio) evs).polls = (Run.run (step replies) (create radio) evs').polls →
        (Run.run (step replies) (create radio) evs).client.log =
        (Run.run (step replies) (create radio) evs').client.log) ↔
      ∀ k, FitsAlike replies k := by
  constructor
  · intro hall
    by_contra hnot
    obtain ⟨k, hk, hleast⟩ : ∃ k, ¬FitsAlike replies k ∧ ∀ j < k, FitsAlike replies j := by
      classical
      have hex : ∃ k, ¬FitsAlike replies k := not_forall.1 hnot
      exact ⟨Nat.find hex, Nat.find_spec hex, fun j hj => not_not.1 (Nat.find_min hex hj)⟩
    obtain ⟨evs, evs', hsmooth, hsmooth', hidle, hidle', hpolls, hne⟩ := cuts_differ radio hleast hk
    exact hne (hall evs evs' hsmooth hsmooth' hidle hidle' hpolls)
  · intro hfits evs evs' hsmooth hsmooth' hidle hidle' hpolls
    have hlog : ∀ {evs : List Ev}, (∀ e ∈ evs, Smooth e) → (Run.run (step replies)
      (create radio) evs).client.phase = .idle →
        (Run.run (step replies) (create radio) evs).client.log =
          (told replies radio (Run.run (step replies) (create radio) evs).polls).2 := by
      intro evs hsmooth hidle
      rcases sim_run hfits radio hsmooth with ⟨hbetween, -⟩ | ⟨k, rem, i, m, -, -, -, hduring⟩
      · exact hbetween.log
      · exact absurd hidle hduring.busy
    rw [hlog hsmooth hidle, hlog hsmooth' hidle', hpolls]

/-- A reply with one line of `n` letters. -/
def lineReply (n : Nat) (code : List UInt8) (h : IsNumber code) : RigReply where
  body := List.replicate n 65 ++ [newline]
  code := code
  lines := .inr (List.getLast?_concat ..)
  plain := by
    have hnl : newline ∉ List.replicate n (65 : UInt8) := fun hmem =>
      absurd (List.eq_of_mem_replicate hmem) (by decide)
    rcases n with _ | n
    · decide
    · rw [List.replicate_succ] at hnl ⊢
      have hrest := (rprtLines_within (List.not_mem_of_not_mem_cons hnl)).2
      rw [List.cons_append, countRprtLines, rprtLines, beq_false_of_ne (by decide), hrest]
      simp [isRprt, rprt_chars, List.isPrefixOf]
  number := h

theorem isNumber_zero : IsNumber [48] := by
  intro c hc
  rw [List.mem_singleton.1 hc]
  exact .inr rfl

theorem isNumber_error : IsNumber [45, 49, 49] := by
  intro c hc
  rcases List.mem_cons.1 hc with rfl | hc
  · exact .inl rfl
  · rw [show c = 49 by simpa using hc]
    exact .inr rfl

theorem length_lineReply (n : Nat) (code : List UInt8) (h : IsNumber code) :
    (lineReply n code h).head.length = n + 6 ∧ (lineReply n code h).tail.length = code.length + 1 ∧
      (lineReply n code h).text.length = n + 6 + (code.length + 1) := by
  simp [lineReply, text, head, tail, rprt_chars]
  omega

/-- The first poll ends in an error of two digits; the replies of the others take up the whole buffer. -/
def fullReplies (k i : Nat) : RigReply :=
  if k = 0 then if i = 2 then lineReply 20 [45, 49, 49] isNumber_error else lineReply 20 [48] isNumber_zero
  else lineReply (if i = 2 then 163 else 162) [48] isNumber_zero

theorem length_before_fullReplies (k : Nat) :
    (before (fullReplies k) 3).length = if k = 0 then 86 else 511 := by
  by_cases hk : k = 0 <;> simp [before, fullReplies, hk, length_lineReply]

/-- The buffer can hold all the replies of each poll, and yet their cuts decide whether the second poll fails. -/
theorem rigctld_cuts_differ :
    (∀ k, (before (fullReplies k) RIGCL_NUM_COMMANDS).length ≤ RIGCL_RX_SIZE) ∧ CutsDiffer fullReplies 1 := by
  refine ⟨fun k => ?_, cuts_differ (k := 1) 1 ?_ ?_⟩
  · have hlen := length_before_fullReplies k
    have hsize : RIGCL_RX_SIZE = 511 := rfl
    rw [hlen, hsize]
    split_ifs <;> omega
  · intro j hj
    obtain rfl : j = 0 := Nat.lt_one_iff.1 hj
    rfl
  · simp [FitsAlike, spread, fitting, need, before, fullReplies, length_lineReply, RIGCL_RX_SIZE]

end RigLink

end Mhuxd
