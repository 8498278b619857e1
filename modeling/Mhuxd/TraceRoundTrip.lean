import Mhuxd.CatReplay

/-!
# The way back from a trace line

The replay tool reads from the line of a frame what the frame has (`readLine_traceText`): the comment is cut off where
it starts and not in the quotes (`stripComment_line`), and the bytes are the frame's whatever they are
(`parsePayload_payloadText`).
-/

namespace Mhuxd

open HttpConnection (chars)
open Printf (dec decPad hex2 hexDigit IsDigit)

namespace CatReplay

variable {c : UInt8} {s r : List UInt8} {text : Bool} {buf cs tok time : List UInt8} {f : CatFrame}

/-! ### Characters -/

/-- A character of a word: it is seen, and neither quotes nor starts a comment. -/
def Word (c : UInt8) : Prop := 33 ≤ c ∧ c < 127 ∧ c ≠ quote ∧ c ≠ hash

instance : DecidablePred Word := fun _ => inferInstanceAs (Decidable (_ ∧ _ ∧ _ ∧ _))

theorem Word.of_digit (h : IsDigit c) : Word c := by
  obtain ⟨hlo, hhi⟩ := h
  refine ⟨?_, ?_, ?_, ?_⟩ <;> grind [quote, hash]

theorem Word.not_space (h : Word c) : isSpace c = false := by
  obtain ⟨hlo, -⟩ := h
  simp only [isSpace, Bool.or_eq_false_iff, beq_eq_false_iff_ne, Bool.and_eq_false_iff, decide_eq_false_iff_not]
  grind

theorem Word.not_blank (h : Word c) : isBlank c = false := by
  obtain ⟨hlo, -⟩ := h
  simp only [isBlank, Bool.or_eq_false_iff, beq_eq_false_iff_ne]
  grind

theorem hexDigit_spec : ∀ n < 16, hexval (hexDigit n) = some n ∧ Word (hexDigit n) ∧ hexDigit n ≠ backslash := by decide

theorem nibbles_lt (c : UInt8) : c.toNat / 16 < 16 ∧ c.toNat % 16 < 16 := by
  have hc := c.toNat_lt
  omega

theorem word_of_mem_hex2 {d : UInt8} (h : d ∈ hex2 c) : Word d := by
  obtain ⟨hhi, hlo⟩ := nibbles_lt c
  rcases List.mem_pair.1 h with rfl | rfl
  · exact (hexDigit_spec _ hhi).2.1
  · exact (hexDigit_spec _ hlo).2.1

theorem hexByte_hex2 (c : UInt8) : hexByte (hexDigit (c.toNat / 16)) (hexDigit (c.toNat % 16)) = some c := by
  obtain ⟨hhi, hlo⟩ := nibbles_lt c
  have hval : c.toNat / 16 * 16 + c.toNat % 16 = c.toNat := by omega
  simp only [hexByte, (hexDigit_spec _ hhi).1, (hexDigit_spec _ hlo).1, hval, UInt8.ofNat_toNat]

/-! ### The comment -/

theorem cutComment_words (h : ∀ c ∈ s, Word c ∨ c = 32) : cutComment false false (s ++ r) = s ++ cutComment false false r := by
  induction s with
  | nil => rfl
  | cons c s ih =>
    obtain ⟨hc, hs⟩ := List.forall_mem_cons.1 h
    have hquote : c ≠ quote := by
      rcases hc with hc | rfl
      · exact hc.2.2.1
      · decide
    have hhash : c ≠ hash := by
      rcases hc with hc | rfl
      · exact hc.2.2.2
      · decide
    rw [List.cons_append, cutComment, if_neg (by simp), if_neg hquote, if_neg (by simp [hhash]), ih hs, List.cons_append]

/-- A byte in quotes is kept: its backslash keeps a quote from ending them. -/
theorem cutComment_escape (c : UInt8) : cutComment true false (escape c ++ r) = escape c ++ cutComment true false r := by
  have hback : backslash ≠ quote := by decide
  unfold escape
  split_ifs with hesc hseen
  · simp [cutComment]
  · obtain ⟨hquote, hbs⟩ := not_or.1 hesc
    simp [cutComment, hquote, hbs]
  · obtain ⟨hhi, hlo⟩ := nibbles_lt c
    obtain ⟨-, ⟨-, -, hhq, -⟩, hhb⟩ := hexDigit_spec _ hhi
    obtain ⟨-, ⟨-, -, hlq, -⟩, hlb⟩ := hexDigit_spec _ hlo
    have hx : chars "\\x" = [backslash, 120] := by decide
    simp [hx, hex2, cutComment, hhq, hhb, hlq, hlb]

theorem cutComment_escapes (cs : List UInt8) :
    cutComment true false (cs.flatMap escape ++ r) = cs.flatMap escape ++ cutComment true false r := by
  induction cs with
  | nil => rfl
  | cons c cs ih => rw [List.flatMap_cons, List.append_assoc, cutComment_escape, ih, List.append_assoc]

theorem cutComment_quote (quoted : Bool) : cutComment quoted false (quote :: s) = quote :: cutComment (!quoted) false s := by
  have hback : quote ≠ backslash := by decide
  rw [cutComment, if_neg (by simp [hback]), if_pos rfl]

theorem cutComment_payloadText (text : Bool) (buf : List UInt8) :
    cutComment false false (payloadText text buf ++ r) = payloadText text buf ++ cutComment false false r := by
  unfold payloadText
  split_ifs
  · have hopen : chars " \"" = [32] ++ [quote] := by decide
    have hclose : chars "\"" = [quote] := by decide
    have hblank : ∀ c ∈ [(32 : UInt8)], Word c ∨ c = 32 := fun c hc => .inr (List.mem_singleton.1 hc)
    simp only [hopen, hclose, List.append_assoc]
    rw [cutComment_words hblank]
    simp only [List.singleton_append]
    rw [cutComment_quote, Bool.not_false, cutComment_escapes, cutComment_quote, Bool.not_true]
  · refine cutComment_words fun c hc => ?_
    obtain ⟨b, -, hcb⟩ := List.mem_flatMap.1 hc
    rcases List.mem_append.1 hcb with hcb | hcb
    · exact .inr (List.mem_singleton.1 hcb)
    · exact .inl (word_of_mem_hex2 hcb)

/-- What comes before the comment ends in a word, or in the quote after the bytes. -/
theorem getLast_payloadText (h : ∀ c ∈ s, Word c) (hne : s ≠ []) (text : Bool) (buf : List UInt8)
    (hl : s ++ payloadText text buf ≠ []) : isSpace ((s ++ payloadText text buf).getLast hl) = false := by
  unfold payloadText at hl ⊢
  split_ifs at hl ⊢
  · have hclose : chars "\"" = [quote] := by decide
    simp only [hclose, ← List.append_assoc, List.getLast_concat]
    decide
  · rcases List.eq_nil_or_concat buf with rfl | ⟨buf, c, rfl⟩
    · simp only [List.flatMap_nil, List.append_nil]
      exact (h _ (List.getLast_mem hne)).not_space
    · have hword : Word (hexDigit (c.toNat % 16)) := word_of_mem_hex2 (c := c) (by simp [hex2])
      have hhex : chars " " ++ hex2 c = [32, hexDigit (c.toNat / 16)] ++ [hexDigit (c.toNat % 16)] := rfl
      simp only [List.concat_eq_append, List.flatMap_append, List.flatMap_singleton, hhex, ← List.append_assoc,
        List.getLast_concat]
      exact hword.not_space

theorem rdropWhile_spaces (h : ∀ c ∈ r, isSpace c = true) : (s ++ r).rdropWhile isSpace = s.rdropWhile isSpace := by
  rw [List.rdropWhile, List.reverse_append, List.dropWhile_append_of_pos fun c hc => h c (List.mem_reverse.1 hc),
    List.rdropWhile]

/-- The line up to the comment, without the blanks before that. -/
theorem stripComment_line (htime : ∀ c ∈ time, Word c) (htok : ∀ c ∈ tok, Word c) (hne : tok ≠ []) (text : Bool)
    (buf : List UInt8) :
    stripComment (time ++ chars " " ++ tok ++ payloadText text buf ++ chars "  # " ++ r) =
      time ++ chars " " ++ tok ++ payloadText text buf := by
  have hhead : ∀ c ∈ time ++ chars " " ++ tok, Word c ∨ c = 32 := by
    intro c hc
    rcases List.mem_append.1 hc with hc | hc
    · rcases List.mem_append.1 hc with hc | hc
      · exact .inl (htime c hc)
      · exact .inr (List.mem_singleton.1 hc)
    · exact .inl (htok c hc)
  have hblanks : ∀ c ∈ [(32 : UInt8), 32], c = 32 := by simp
  have hcomment : chars "  # " ++ r = [32, 32] ++ hash :: 32 :: r := rfl
  have hcut : cutComment false false (hash :: 32 :: r) = [] := by
    have hquote : hash ≠ quote := by decide
    rw [cutComment, if_neg (by simp), if_neg hquote, if_pos ⟨rfl, rfl⟩]
  have hline : tok ++ payloadText text buf ≠ [] := List.append_ne_nil_of_left_ne_nil hne _
  rw [stripComment, List.append_assoc _ (chars "  # "), hcomment, List.append_assoc (time ++ chars " " ++ tok),
    cutComment_words hhead, cutComment_payloadText, cutComment_words fun c hc => .inr (hblanks c hc), hcut,
    List.append_nil, ← List.append_assoc, rdropWhile_spaces fun c hc => by rw [hblanks c hc]; decide,
    List.append_assoc (time ++ chars " "), List.rdropWhile_eq_self_iff]
  intro hl
  rw [List.getLast_append_of_ne_nil _ hline, getLast_payloadText htok hne text buf hline]
  exact Bool.false_ne_true

/-! ### The bytes -/

theorem put_of_lt (h : buf.length < MAX_PAYLOAD) (c : UInt8) : put buf c = .ok (buf ++ [c]) := if_neg h.ne

section Steps

variable {d : UInt8}

/-- One byte in quotes. -/
theorem payloadLoop_quoted : payloadLoop true buf (c :: s) =
    if c = quote then payloadLoop false buf s
    else if c ≠ backslash then put buf c >>= fun buf => payloadLoop true buf s
    else match s with
      | [] => put buf c >>= fun buf => payloadLoop true buf []
      | d :: s =>
        if d ≠ 120 then put buf (unescape d) >>= fun buf => payloadLoop true buf s
        else match s with
          | h :: l :: s => match hexByte h l with
            | none => .error (chars "bad \\x escape")
            | some x => put buf x >>= fun buf => payloadLoop true buf s
          | _ => .error (chars "bad \\x escape") :=
  payloadLoop.eq_def true buf (c :: s)

theorem payloadLoop_close : payloadLoop true buf (quote :: s) = payloadLoop false buf s := by
  rw [payloadLoop_quoted]
  exact if_pos rfl

theorem payloadLoop_plain (hq : c ≠ quote) (hb : c ≠ backslash) :
    payloadLoop true buf (c :: s) = put buf c >>= fun buf => payloadLoop true buf s := by
  rw [payloadLoop_quoted]
  exact (if_neg hq).trans (if_pos hb)

theorem payloadLoop_backslash (hd : d ≠ 120) :
    payloadLoop true buf (backslash :: d :: s) = put buf (unescape d) >>= fun buf => payloadLoop true buf s := by
  rw [payloadLoop_quoted]
  exact (if_neg (by decide)).trans ((if_neg (not_not.2 rfl)).trans (if_pos hd))

theorem payloadLoop_x (h l : UInt8) :
    payloadLoop true buf (backslash :: 120 :: h :: l :: s) = match hexByte h l with
      | none => .error (chars "bad \\x escape")
      | some x => put buf x >>= fun buf => payloadLoop true buf s := by
  rw [payloadLoop_quoted]
  exact (if_neg (by decide)).trans ((if_neg (not_not.2 rfl)).trans (if_neg (not_not.2 rfl)))

/-- One byte outside the quotes. -/
theorem payloadLoop_outside : payloadLoop false buf (c :: s) =
    if isSpace c then payloadLoop false buf s
    else if c = quote then payloadLoop true buf s
    else match s with
      | [] => .error (chars "bad hex byte near '" ++ [c] ++ chars "'")
      | d :: s' =>
        match hexByte c d with
        | none => .error (chars "bad hex byte near '" ++ c :: s ++ chars "'")
        | some x => put buf x >>= fun buf => payloadLoop false buf s' :=
  payloadLoop.eq_def false buf (c :: s)

theorem payloadLoop_space (h : isSpace c = true) : payloadLoop false buf (c :: s) = payloadLoop false buf s := by
  rw [payloadLoop_outside]
  exact if_pos h

theorem payloadLoop_open : payloadLoop false buf (quote :: s) = payloadLoop true buf s := by
  rw [payloadLoop_outside]
  exact (if_neg (by decide)).trans (if_pos rfl)

theorem payloadLoop_hex (hs : isSpace c = false) (hq : c ≠ quote) (d : UInt8) :
    payloadLoop false buf (c :: d :: s) = match hexByte c d with
      | none => .error (chars "bad hex byte near '" ++ c :: d :: s ++ chars "'")
      | some x => put buf x >>= fun buf => payloadLoop false buf s := by
  rw [payloadLoop_outside]
  exact (if_neg (by simp [hs])).trans (if_neg hq)

end Steps

theorem payloadLoop_escape (h : buf.length < MAX_PAYLOAD) (c : UInt8) :
    payloadLoop true buf (escape c ++ s) = payloadLoop true (buf ++ [c]) s := by
  unfold escape
  split_ifs with hesc hseen
  · have hx : c ≠ 120 := by
      rcases hesc with rfl | rfl <;> decide
    have hun : unescape c = c := by
      rcases hesc with rfl | rfl <;> decide
    rw [List.cons_append, List.singleton_append, payloadLoop_backslash hx, hun, put_of_lt h]
    rfl
  · obtain ⟨hquote, hbs⟩ := not_or.1 hesc
    rw [List.singleton_append, payloadLoop_plain hquote hbs, put_of_lt h]
    rfl
  · have hx : chars "\\x" ++ hex2 c ++ s =
        backslash :: 120 :: hexDigit (c.toNat / 16) :: hexDigit (c.toNat % 16) :: s := rfl
    rw [hx, payloadLoop_x, hexByte_hex2]
    dsimp only
    rw [put_of_lt h]
    rfl

theorem length_concat_add : (buf ++ [c]).length + cs.length = buf.length + (c :: cs).length := by
  rw [List.length_append, List.length_singleton, List.length_cons, Nat.add_assoc, Nat.add_comm 1]

theorem length_lt_of_cons (h : buf.length + (c :: cs).length ≤ MAX_PAYLOAD) : buf.length < MAX_PAYLOAD := by
  rw [List.length_cons] at h
  omega

theorem payloadLoop_escapes (h : buf.length + cs.length ≤ MAX_PAYLOAD) :
    payloadLoop true buf (cs.flatMap escape ++ s) = payloadLoop true (buf ++ cs) s := by
  induction cs generalizing buf with
  | nil => rw [List.flatMap_nil, List.nil_append, List.append_nil]
  | cons c cs ih =>
    have hnext : (buf ++ [c]).length + cs.length ≤ MAX_PAYLOAD := by rwa [length_concat_add]
    have hroom : buf.length < MAX_PAYLOAD := length_lt_of_cons h
    rw [List.flatMap_cons, List.append_assoc, payloadLoop_escape hroom, ih hnext, List.append_assoc,
      List.singleton_append]

theorem payloadLoop_hexes (h : buf.length + cs.length ≤ MAX_PAYLOAD) :
    payloadLoop false buf (cs.flatMap fun c => chars " " ++ hex2 c) = .ok (buf ++ cs) := by
  induction cs generalizing buf with
  | nil => rw [List.flatMap_nil, List.append_nil, payloadLoop]
  | cons c cs ih =>
    have hnext : (buf ++ [c]).length + cs.length ≤ MAX_PAYLOAD := by rwa [length_concat_add]
    have hroom : buf.length < MAX_PAYLOAD := length_lt_of_cons h
    have hword : Word (hexDigit (c.toNat / 16)) := word_of_mem_hex2 (c := c) (by simp [hex2])
    have hhex : ∀ s, chars " " ++ hex2 c ++ s = 32 :: hexDigit (c.toNat / 16) :: hexDigit (c.toNat % 16) :: s := fun _ => rfl
    rw [List.flatMap_cons, hhex, payloadLoop_space (by decide), payloadLoop_hex hword.not_space hword.2.2.1, hexByte_hex2]
    dsimp only
    rw [put_of_lt hroom]
    refine (ih hnext).trans ?_
    rw [List.append_assoc, List.singleton_append]

theorem parsePayload_payloadText (h : buf.length ≤ MAX_PAYLOAD) (text : Bool) :
    parsePayload (payloadText text buf) = .ok buf := by
  have hlen : ([] : List UInt8).length + buf.length ≤ MAX_PAYLOAD := by rwa [List.length_nil, Nat.zero_add]
  unfold parsePayload payloadText
  split_ifs
  · have hquoted : chars " \"" ++ buf.flatMap escape ++ chars "\"" = 32 :: quote :: (buf.flatMap escape ++ [quote]) := by
      rw [List.append_assoc]
      rfl
    rw [hquoted, payloadLoop_space (by decide), payloadLoop_open, payloadLoop_escapes hlen, payloadLoop_close,
      payloadLoop, List.nil_append]
  · exact payloadLoop_hexes hlen

/-! ### The time stamp -/

/-- A number without a sign. -/
structure Digits (s : List UInt8) : Prop where
  ne_nil : s ≠ []
  digit : ∀ c ∈ s, IsDigit c

theorem digits_dec (n : Nat) : Digits (dec n) := ⟨Printf.dec_ne_nil, fun _ => Printf.isDigit_of_mem_dec⟩

theorem digits_decPad (width n : Nat) : Digits (decPad width n) :=
  ⟨Printf.decPad_ne_nil, fun _ => Printf.isDigit_of_mem_decPad⟩

theorem isDigit_iff : isDigit c = true ↔ IsDigit c := by
  simp only [isDigit, IsDigit, Bool.and_eq_true, decide_eq_true_eq]

theorem lower_of_digit (h : IsDigit c) : lower c = c := by
  have hnot : ¬(65 ≤ c ∧ c ≤ 90) := by
    have hhi := h.2
    grind
  exact if_neg hnot

namespace Digits

theorem words (h : Digits s) : ∀ c ∈ s, Word c := fun c hc => .of_digit (h.digit c hc)

theorem dropSpace (h : Digits s) : (s ++ r).dropWhile isSpace = s ++ r := by
  obtain ⟨c, s, rfl⟩ := List.exists_cons_of_ne_nil h.ne_nil
  rw [List.cons_append, List.dropWhile_cons_of_neg]
  simp [(h.words c List.mem_cons_self).not_space]

theorem skipSign (h : Digits s) : skipSign (s ++ r) = (false, s ++ r) := by
  obtain ⟨c, s, rfl⟩ := List.exists_cons_of_ne_nil h.ne_nil
  obtain ⟨hlo, -⟩ := h.digit c List.mem_cons_self
  rw [List.cons_append]
  unfold CatReplay.skipSign
  split
  · next heq => exact absurd ((List.cons.inj heq).1 ▸ hlo) (by decide)
  · next heq => exact absurd ((List.cons.inj heq).1 ▸ hlo) (by decide)
  · rfl

theorem head (h : Digits s) : (s ++ r).head?.any isDigit = true := by
  obtain ⟨c, s, rfl⟩ := List.exists_cons_of_ne_nil h.ne_nil
  exact isDigit_iff.2 (h.digit c List.mem_cons_self)

theorem dropDigits (h : Digits s) : (s ++ r).dropWhile isDigit = r.dropWhile isDigit :=
  List.dropWhile_append_of_pos fun c hc => isDigit_iff.2 (h.digit c hc)

theorem takeDigits (h : Digits s) : (s ++ r).takeWhile isDigit = s ++ r.takeWhile isDigit :=
  List.takeWhile_append_of_pos fun c hc => isDigit_iff.2 (h.digit c hc)

end Digits

theorem scanField_digits (h : Digits s) : scanField (s ++ colon :: r) = some r := by
  have hcolon : (colon :: r).dropWhile isDigit = colon :: r := List.dropWhile_cons_of_neg (by decide)
  simp only [scanField, h.dropSpace, h.skipSign, h.dropDigits, hcolon, h.head, and_self, if_true]

theorem scanHex_none (h : ∀ c ∈ s, lower c ≠ 120) : scanHex s = none := by
  unfold scanHex
  split
  · next x s => exact if_neg (h x (by simp))
  · rfl

/-- Seconds with a fraction. -/
theorem strtod_seconds {d f : List UInt8} (hd : Digits d) (hf : Digits f) :
    strtod (d ++ point :: f) = some (some ((ofDigits 10 (d ++ f) : ℚ) / 10 ^ f.length), []) := by
  have hpoint : isDigit point = false := by decide
  have hdrop : (point :: f).dropWhile isDigit = point :: f := List.dropWhile_cons_of_neg (by simp [hpoint])
  have htake : (point :: f).takeWhile isDigit = [] := List.takeWhile_cons_of_neg (by simp [hpoint])
  have hfdrop : f.dropWhile isDigit = [] := by
    have h := hf.dropDigits (r := [])
    rwa [List.append_nil, List.dropWhile_nil] at h
  have hftake : f.takeWhile isDigit = f := by
    have h := hf.takeDigits (r := [])
    rwa [List.append_nil, List.takeWhile_nil, List.append_nil] at h
  have hscan : scanDigits isDigit (d ++ point :: f) = (d, f, []) := by
    rw [scanDigits, hd.dropDigits, hdrop, hd.takeDigits, htake, List.append_nil]
    exact Prod.ext rfl (Prod.ext hftake hfdrop)
  have hhex : scanHex (d ++ point :: f) = none := by
    refine scanHex_none fun c hc => ?_
    have hdigit : ∀ c, IsDigit c → lower c ≠ 120 := by
      intro c h
      have hhi := h.2
      rw [lower_of_digit h]
      grind
    rcases List.mem_append.1 hc with hc | hc
    · exact hdigit c (hd.digit c hc)
    · rcases List.mem_cons.1 hc with rfl | hc
      · decide
      · exact hdigit c (hf.digit c hc)
  have hnumber : scanNumber 10 10 isDigit 101 (d ++ point :: f) =
      some ((ofDigits 10 (d ++ f) : ℚ) / 10 ^ f.length, []) := by
    simp only [scanNumber, hscan, hd.ne_nil, false_and, if_false, scanExponent, zpow_zero, mul_one, Nat.cast_ofNat]
  simp only [strtod, hd.dropSpace, hd.skipSign, hhex, hnumber, HOrElse.hOrElse, OrElse.orElse, Option.orElse,
    Bool.false_eq_true, if_false]

theorem ofDigits_lt (h : ∀ c ∈ s, IsDigit c) : ofDigits 10 s < 10 ^ s.length := by
  induction s using List.reverseRecOn with
  | nil => decide
  | append_singleton s c ih =>
    have hs := ih fun d hd => h d (List.mem_append_left _ hd)
    obtain ⟨hlo, hhi⟩ := h c (List.mem_append_right _ (List.mem_singleton_self c))
    have hle : c.toNat ≤ 57 := UInt8.le_iff_toNat_le.1 hhi
    have hval : hexval c = some (c.toNat - 48) := if_pos ⟨hlo, hhi⟩
    have hlast : ofDigits 10 (s ++ [c]) = 10 * ofDigits 10 s + (c.toNat - 48) := by
      rw [ofDigits, List.foldl_append, List.foldl_cons, List.foldl_nil, hval, Option.getD_some, ofDigits]
    rw [hlast, List.length_append, List.length_singleton, Nat.pow_succ]
    omega

/-- A time is no number that `strtod` can't represent. -/
theorem not_outOfRange {n k : Nat} (hn : n < 10 ^ 20) (hk : k ≤ 3) : outOfRange ((n : ℚ) / 10 ^ k) = false := by
  have hone : (1 : ℚ) ≤ 10 ^ k := one_le_pow₀ (by norm_num)
  have hthousand : (10 : ℚ) ^ k ≤ 10 ^ 3 := pow_le_pow_right₀ (by norm_num) hk
  have hpos : (0 : ℚ) < 10 ^ k := lt_of_lt_of_le one_pos hone
  have hn' : (n : ℚ) < 10 ^ 20 := by exact_mod_cast hn
  have habs : |(n : ℚ) / 10 ^ k| = n / 10 ^ k := abs_of_nonneg (div_nonneg (Nat.cast_nonneg n) hpos.le)
  rw [outOfRange, decide_eq_false_iff_not, habs]
  rintro ⟨hne, hsmall | hbig⟩
  · have hn0 : n ≠ 0 := by
      rintro rfl
      exact hne (by rw [Nat.cast_zero, zero_div])
    have hn1 : (1 : ℚ) ≤ n := by exact_mod_cast Nat.one_le_iff_ne_zero.2 hn0
    have hge : (1 : ℚ) / 10 ^ 3 ≤ n / 10 ^ k := div_le_div₀ (Nat.cast_nonneg n) hn1 hpos hthousand
    have hnormal : (1 : ℚ) / 2 ^ 1022 ≤ 1 / 2 ^ 10 :=
      one_div_le_one_div_of_le (by norm_num) (pow_le_pow_right₀ (by norm_num) (by norm_num))
    exact absurd hsmall (not_lt.2 (hnormal.trans (le_trans (by norm_num) hge)))
  · have hle : (n : ℚ) / 10 ^ k ≤ n := div_le_self (Nat.cast_nonneg n) hone
    have hhalf : (2 : ℚ) ^ 970 ≤ 2 ^ 1023 := pow_le_pow_right₀ (by norm_num) (by norm_num)
    have hmax : (2 : ℚ) ^ 67 ≤ 2 ^ 1023 := pow_le_pow_right₀ (by norm_num) (by norm_num)
    have hlimit : (2 : ℚ) ^ 1023 ≤ 2 ^ 1024 - 2 ^ 970 := by
      rw [pow_succ _ 1023, mul_two]
      exact le_sub_iff_add_le.2 (add_le_add_right hhalf _)
    have hword : (n : ℚ) < 2 ^ 67 := hn'.trans (by norm_num)
    exact absurd (hmax.trans (hlimit.trans (hbig.trans hle))) (not_le.2 hword)

theorem parseTime_seconds {d f : List UInt8} (hd : Digits d) (hf : Digits f) (hlen : d.length ≤ 17) (hms : f.length ≤ 3) :
    parseTime (d ++ point :: f) = true := by
  have hcolon : colon ∉ d ++ point :: f := by
    have hno : ∀ c, IsDigit c → c ≠ colon := by
      rintro c ⟨-, hhi⟩ rfl
      exact absurd hhi (by decide)
    intro h
    rcases List.mem_append.1 h with h | h
    · exact hno colon (hd.digit _ h) rfl
    · rcases List.mem_cons.1 h with h | h
      · exact absurd h (by decide)
      · exact hno colon (hf.digit _ h) rfl
  have hdigits : ∀ c ∈ d ++ f, IsDigit c := by
    intro c hc
    rcases List.mem_append.1 hc with hc | hc
    · exact hd.digit c hc
    · exact hf.digit c hc
  have hsmall : ofDigits 10 (d ++ f) < 10 ^ 20 := by
    refine lt_of_lt_of_le (ofDigits_lt hdigits) (Nat.pow_le_pow_right (by decide) ?_)
    rw [List.length_append]
    omega
  simp only [parseTime, hd.head, Bool.true_eq_false, if_false, hcolon, strtod_seconds hd hf, Option.any_some,
    not_outOfRange hsmall hms, Bool.not_false, List.isEmpty_nil, Bool.and_self]

theorem parseTime_clock {h m d f : List UInt8} (hh : Digits h) (hm : Digits m) (hd : Digits d) (hf : Digits f) :
    parseTime (h ++ colon :: (m ++ colon :: (d ++ point :: f))) = true := by
  have hcolon : colon ∈ h ++ colon :: (m ++ colon :: (d ++ point :: f)) := by simp
  simp only [parseTime, hh.head, Bool.true_eq_false, if_false, hcolon, if_true, scanField_digits hh, Option.bind_some,
    scanField_digits hm, strtod_seconds hd hf, List.isEmpty_nil]

/-- A time stamp of a writer. -/
structure Stamp (time : List UInt8) : Prop where
  room : time.length < 32
  words : ∀ c ∈ time, Word c
  parsed : parseTime time = true

theorem snprintf_of_lt {sz : Nat} (h : s.length < sz) : Printf.snprintf sz s = s := List.take_of_length_le (by omega)

theorem stamp_clock (localtime : Nat → Tm) (tMs : Nat) : Stamp (catnMonTimeMs localtime tMs) := by
  obtain ⟨tm, htm⟩ : ∃ tm, localtime (tMs % 2 ^ 64 / 1000) = tm := ⟨_, rfl⟩
  have hhour := Printf.length_decPad (n := tm.hour) (by decide : 0 < 2) (by omega)
  have hmin := Printf.length_decPad (n := tm.min) (by decide : 0 < 2) (by omega)
  have hsec := Printf.length_decPad (n := tm.sec) (by decide : 0 < 2) (by omega)
  have hms := Printf.length_decPad (n := tMs % 2 ^ 64 % 1000) (by decide : 0 < 3) (by omega)
  have hcolon : chars ":" = [colon] := by decide
  have hpoint : chars "." = [point] := by decide
  have htext : catnMonTimeMs localtime tMs = decPad 2 tm.hour ++ colon :: (decPad 2 tm.min ++ colon ::
      (decPad 2 tm.sec ++ point :: decPad 3 (tMs % 2 ^ 64 % 1000))) := by
    rw [catnMonTimeMs, htm, snprintf_of_lt]
    · simp only [hcolon, hpoint, List.append_assoc, List.cons_append, List.nil_append]
    · simp only [hcolon, hpoint, List.length_append, List.length_singleton, hhour, hmin, hsec, hms]
      decide
  have hsign : Word colon ∧ Word point := by decide
  rw [htext]
  refine ⟨?_, fun c hc => ?_, parseTime_clock (digits_decPad 2 _) (digits_decPad 2 _) (digits_decPad 2 _)
    (digits_decPad 3 _)⟩
  · simp only [List.length_append, List.length_cons, hhour, hmin, hsec, hms]
    decide
  · simp only [List.mem_append, List.mem_cons] at hc
    rcases hc with hc | rfl | hc | rfl | hc | rfl | hc
    · exact (digits_decPad 2 _).words c hc
    · exact hsign.1
    · exact (digits_decPad 2 _).words c hc
    · exact hsign.1
    · exact (digits_decPad 2 _).words c hc
    · exact hsign.2
    · exact (digits_decPad 3 _).words c hc

theorem stamp_replay (tMs : Nat) : Stamp (replayTime tMs) := by
  have hsec : (dec (tMs % 2 ^ 64 / 1000)).length ≤ 17 := Printf.length_dec_le (by decide) (by omega)
  have hms := Printf.length_decPad (n := tMs % 2 ^ 64 % 1000) (by decide : 0 < 3) (by omega)
  have hpoint : chars "." = [point] := by decide
  have htext : replayTime tMs = dec (tMs % 2 ^ 64 / 1000) ++ point :: decPad 3 (tMs % 2 ^ 64 % 1000) := by
    rw [replayTime, snprintf_of_lt]
    · simp only [hpoint, List.append_assoc, List.singleton_append]
    · simp only [hpoint, List.length_append, List.length_singleton, hms]
      omega
  have hsign : Word point := by decide
  rw [htext]
  refine ⟨?_, fun c hc => ?_, parseTime_seconds (digits_dec _) (digits_decPad 3 _) hsec hms.le⟩
  · simp only [List.length_append, List.length_cons, hms]
    omega
  · simp only [List.mem_append, List.mem_cons] at hc
    rcases hc with hc | rfl | hc
    · exact (digits_dec _).words c hc
    · exact hsign
    · exact (digits_decPad 3 _).words c hc

theorem stamp_time (w : TraceWriter) (tMs : Nat) : Stamp (w.time tMs) := by
  cases w with
  | monitor localtime => exact stamp_clock localtime tMs
  | replay => exact stamp_replay tMs

/-! ### The line -/

theorem strsep_blank (h : ∀ c ∈ s, Word c) : strsep (s ++ 32 :: r) = (s, some r) := by
  have hs : ∀ c ∈ s, (!isBlank c) = true := fun c hc => by rw [(h c hc).not_blank]; rfl
  have hdrop : (32 :: r).dropWhile (fun c => !isBlank c) = 32 :: r := List.dropWhile_cons_of_neg (by decide)
  have htake : (32 :: r).takeWhile (fun c => !isBlank c) = [] := List.takeWhile_cons_of_neg (by decide)
  rw [strsep, List.dropWhile_append_of_pos hs, List.takeWhile_append_of_pos hs, hdrop, htake, List.append_nil]

theorem strsep_word (h : ∀ c ∈ s, Word c) : strsep s = (s, none) := by
  have hs : s.dropWhile (fun c => !isBlank c) = [] :=
    List.dropWhile_eq_nil_iff.2 fun c hc => by rw [(h c hc).not_blank]; rfl
  rw [strsep, hs]

/-- The bytes come after a blank. -/
theorem payloadText_cases (text : Bool) (buf : List UInt8) :
    payloadText text buf = [] ∨ ∃ p, payloadText text buf = 32 :: p := by
  unfold payloadText
  split_ifs
  · exact .inr ⟨_, by rw [List.append_assoc]; rfl⟩
  · cases buf with
    | nil => exact .inl rfl
    | cons c buf => exact .inr ⟨_, rfl⟩

/-- The last token of a data line, and what `parse_payload` makes of the rest. -/
theorem strsep_payloadText (h : ∀ c ∈ tok, Word c) (hlen : buf.length ≤ MAX_PAYLOAD) (text : Bool) :
    (strsep (tok ++ payloadText text buf)).1 = tok ∧
      parsePayload ((strsep (tok ++ payloadText text buf)).2.getD []) = .ok buf := by
  have hbuf := parsePayload_payloadText hlen text
  rcases payloadText_cases text buf with hp | ⟨p, hp⟩
  · rw [hp] at hbuf ⊢
    rw [List.append_nil, strsep_word h]
    exact ⟨rfl, hbuf⟩
  · rw [hp] at hbuf ⊢
    rw [strsep_blank h]
    exact ⟨rfl, (payloadLoop_space (by decide)).symm.trans hbuf⟩

theorem dataLine_line {dir : CatDir} {client : Nat} (htime : Stamp time) (htok : ∀ c ∈ tok, Word c)
    (htag : parseTag tok = some (dir, client)) (hlen : buf.length ≤ MAX_PAYLOAD) (text : Bool) :
    dataLine (time ++ chars " " ++ tok ++ payloadText text buf) = .ok ⟨dir, client, buf⟩ := by
  obtain ⟨hfst, hpayload⟩ := strsep_payloadText htok hlen text
  have hne : tok ≠ [] := by
    rintro rfl
    exact absurd htag (by simp [parseTag, chars])
  have hspace : (tok ++ payloadText text buf).dropWhile isSpace = tok ++ payloadText text buf := by
    obtain ⟨c, tok, rfl⟩ := List.exists_cons_of_ne_nil hne
    rw [List.cons_append, List.dropWhile_cons_of_neg]
    simp [(htok c List.mem_cons_self).not_space]
  have hfirst : time ++ chars " " ++ tok ++ payloadText text buf = time ++ 32 :: (tok ++ payloadText text buf) := by
    rw [List.append_assoc, List.append_assoc]
    rfl
  rw [hfirst]
  simp only [dataLine, strsep_blank htime.words, htime.parsed, if_true, hspace, hfst, Option.bind_some, htag, hpayload]
  rfl

theorem parseTag_host : ∀ n ≤ CAT_MAX_CLIENTS, 1 ≤ n → parseTag (chars "H" ++ dec n) = some (.host, n) := by decide

theorem tag_cases (hf : f.Fits text) : (f.dir = .radio ∧ f.tag = chars "R") ∨ (f.dir = .own ∧ f.tag = chars "M") ∨
    (f.dir = .host ∧ f.tag = chars "H" ++ dec f.client) := by
  unfold CatFrame.tag
  rcases hdir : f.dir with _ | _ | _
  · have hpos : 0 < f.client := (hf.host hdir).1
    have hlen := length_client (hf.host hdir).2
    have hH : (chars "H").length = 1 := by decide
    refine .inr (.inr ⟨rfl, ?_⟩)
    dsimp only
    rw [if_pos hpos, snprintf_of_lt]
    rw [List.length_append]
    omega
  · exact .inr (.inl ⟨rfl, rfl⟩)
  · exact .inl ⟨rfl, rfl⟩

theorem parseTag_tag (hf : f.Fits text) : parseTag f.tag = some (f.dir, if f.dir = .host then f.client else 0) := by
  rcases tag_cases hf with ⟨hdir, htag⟩ | ⟨hdir, htag⟩ | ⟨hdir, htag⟩
  · rw [htag, hdir, if_neg (by decide)]
    decide
  · rw [htag, hdir, if_neg (by decide)]
    decide
  · rw [htag, hdir, if_pos rfl, parseTag_host _ (hf.host hdir).2 (hf.host hdir).1]

theorem words_tag (hf : f.Fits text) : ∀ c ∈ f.tag, Word c := by
  have hletters : Word 82 ∧ Word 77 ∧ Word 72 := by decide
  intro c hc
  rcases tag_cases hf with ⟨-, htag⟩ | ⟨-, htag⟩ | ⟨-, htag⟩
  · rw [htag] at hc
    rw [List.mem_singleton.1 hc]
    exact hletters.1
  · rw [htag] at hc
    rw [List.mem_singleton.1 hc]
    exact hletters.2.1
  · rw [htag] at hc
    rcases List.mem_append.1 hc with hc | hc
    · rw [List.mem_singleton.1 hc]
      exact hletters.2.2
    · exact .of_digit (Printf.isDigit_of_mem_dec hc)

/-- A line says what the frame is that it is written for. -/
theorem readLine_traceText (hf : f.Fits text) (htime : Stamp time) (st : Option CatState) :
    readLine (traceText time text f st ++ [newline]) =
      .data (.ok ⟨f.dir, if f.dir = .host then f.client else 0, f.buf⟩) := by
  have htag := parseTag_tag hf
  have hwords := words_tag hf
  have hne : f.tag ≠ [] := by
    intro hnil
    rw [hnil] at htag
    exact absurd htag (by simp [parseTag, chars])
  have hlen : f.buf.length ≤ MAX_PAYLOAD := by
    have hmax := hf.length
    unfold ASCII_MAX_FRAME YBIN_MAX_FRAME at hmax
    unfold MAX_PAYLOAD
    split_ifs at hmax <;> omega
  have hdata := dataLine_line htime hwords htag hlen text
  have hline : stripComment (traceText time text f st ++ [newline]) =
      time ++ chars " " ++ f.tag ++ payloadText text f.buf := by
    rw [traceText, List.append_assoc _ (f.remark st)]
    exact stripComment_line htime.words hwords hne text f.buf
  have hhead := htime.parsed
  obtain ⟨d, rest, hd⟩ : ∃ d rest, time = d :: rest := by
    cases time with
    | nil => exact absurd hhead (by decide)
    | cons d rest => exact ⟨d, rest, rfl⟩
  have hdigit : IsDigit d := by
    by_contra hno
    rw [hd, parseTime, List.head?_cons, Option.any_some, if_pos] at hhead
    · exact Bool.false_ne_true hhead
    · rw [← Bool.not_eq_true, isDigit_iff]
      exact hno
  have hnot : d ≠ 64 ∧ d ≠ 61 := by
    obtain ⟨-, hhi⟩ := hdigit
    constructor <;> grind
  rw [readLine, hline, hd]
  rw [hd] at hdata
  simp only [List.cons_append] at hdata ⊢
  rw [List.dropWhile_cons_of_neg (by simp [(Word.of_digit hdigit).not_space])]
  simp only [hnot.1, hnot.2, if_false, hdata]

/-! ### One line of a file

Nothing of a frame gets into its line that ends the line, or the string.
-/

def Printable (c : UInt8) : Prop := 32 ≤ c ∧ c < 127

instance : DecidablePred Printable := fun _ => inferInstanceAs (Decidable (_ ∧ _))

theorem Word.printable (h : Word c) : Printable c := by
  obtain ⟨hlo, hhi, -⟩ := h
  exact ⟨by grind, hhi⟩

theorem printable_of_all (h : s.all (fun c => decide (Printable c)) = true) : ∀ c ∈ s, Printable c :=
  fun c hc => of_decide_eq_true (List.all_eq_true.1 h c hc)

theorem printable_dec (n : Nat) : ∀ c ∈ dec n, Printable c := fun c hc => ((digits_dec n).words c hc).printable

theorem printable_escape (c : UInt8) : ∀ d ∈ escape c, Printable d := by
  unfold escape
  split_ifs with hesc hseen
  · rcases hesc with rfl | rfl <;> exact printable_of_all (by decide)
  · intro d hd
    rw [List.mem_singleton.1 hd]
    exact hseen
  · exact List.forall_mem_append.2 ⟨printable_of_all (by decide), fun d hd => (word_of_mem_hex2 hd).printable⟩

theorem printable_flatMap {g : UInt8 → List UInt8} (h : ∀ c, ∀ d ∈ g c, Printable d) (buf : List UInt8) :
    ∀ d ∈ buf.flatMap g, Printable d := by
  intro d hd
  obtain ⟨c, -, hdc⟩ := List.mem_flatMap.1 hd
  exact h c d hdc

theorem printable_payloadText (text : Bool) (buf : List UInt8) : ∀ c ∈ payloadText text buf, Printable c := by
  unfold payloadText
  split_ifs
  · exact List.forall_mem_append.2 ⟨List.forall_mem_append.2 ⟨printable_of_all (by decide), printable_flatMap printable_escape buf⟩, printable_of_all (by decide)⟩
  · exact printable_flatMap (fun c => List.forall_mem_append.2
      ⟨printable_of_all (by decide), fun d hd => (word_of_mem_hex2 hd).printable⟩) buf

theorem printable_itemText (valid : Bool) (val : Nat) : ∀ c ∈ itemText valid val, Printable c := by
  unfold itemText
  split_ifs
  · exact printable_dec _
  · exact printable_of_all (by decide)

theorem printable_stateText (st : CatState) : ∀ c ∈ stateText st, Printable c := by
  have hmode : ∀ m : CatMode, ∀ c ∈ chars (if m = .none then "?" else m.token), Printable c := by
    intro m
    cases m <;> exact printable_of_all (by decide)
  have hkeyer : ∀ m : CatMode, ∀ c ∈ chars (catTraceKeyerStr m.toKeyer), Printable c := by
    intro m
    cases m <;> exact printable_of_all (by decide)
  unfold stateText
  simp only [List.forall_mem_append]
  refine ⟨⟨⟨⟨⟨⟨⟨⟨⟨?_, printable_itemText _ _⟩, ?_⟩, printable_itemText _ _⟩, ?_⟩, hmode _⟩, ?_⟩, printable_itemText _ _⟩, ?_⟩,
    hkeyer _⟩ <;> exact printable_of_all (by decide)

theorem printable_remark (f : CatFrame) (st : Option CatState) : ∀ c ∈ f.remark st, Printable c := by
  have howner : ∀ c ∈ f.ownerText, Printable c := by
    unfold CatFrame.ownerText
    split_ifs
    · exact printable_of_all (by decide)
    · exact List.forall_mem_append.2 ⟨List.forall_mem_append.2 ⟨printable_of_all (by decide), printable_dec _⟩, printable_of_all (by decide)⟩
    · exact fun c hc => absurd hc List.not_mem_nil
  have hkind : ∀ c ∈ chars f.kind.str, Printable c := by
    cases f.kind <;> exact printable_of_all (by decide)
  have happlied : ∀ c ∈ f.appliedText st, Printable c := by
    unfold CatFrame.appliedText
    split
    · exact fun c hc => absurd hc List.not_mem_nil
    · split_ifs
      · exact List.forall_mem_append.2 ⟨printable_of_all (by decide), printable_stateText _⟩
      · exact fun c hc => absurd hc List.not_mem_nil
  exact List.forall_mem_append.2 ⟨List.forall_mem_append.2 ⟨howner, hkind⟩, happlied⟩

theorem printable_traceText (hf : f.Fits text) (htime : Stamp time) (st : Option CatState) :
    ∀ c ∈ traceText time text f st, Printable c := by
  have htag : ∀ c ∈ f.tag, Printable c := fun c hc => (words_tag hf c hc).printable
  unfold traceText
  simp only [List.forall_mem_append]
  refine ⟨⟨⟨⟨⟨fun c hc => (htime.words c hc).printable, ?_⟩, htag⟩, printable_payloadText text f.buf⟩, ?_⟩,
    printable_remark f st⟩ <;> exact printable_of_all (by decide)

end CatReplay

end Mhuxd
