import Mhuxd.ConRegistry
import Mhuxd.Messages
import Mhuxd.WsText

/-!
# Messages that are saved and stored again (`cfgmgrj.c`)

The messages of a keyer that have a text are saved with their indices. A text that is stored is UTF-8, one that is read
may not be: what is left of a longer text can begin inside a character. Such a message is saved without its text, and
not stored again.
-/

namespace Mhuxd

open Utf8

instance : DecidablePred Octets := fun bs =>
  decidable_of_iff (wsValidateUtf8 bs = true) ⟨octets_of_accepted, fun h => by
    induction h with
    | nil => rfl
    | append hu _ ih => exact accepted_append hu ih⟩

/-- A string of a configuration, as the JSON library has it. -/
structure JsonText where
  bytes : List UInt8
  octets : Octets bytes
  chars : ∀ b ∈ bytes, b ≠ 0

/-- `json_string`. -/
def jsonString (s : List UInt8) : Option JsonText :=
  if h : Octets (cstr s) then some ⟨cstr s, h, ne_zero_of_mem_cstr⟩ else none

/-- An object of `cwMessages` or `fskMessages`; no `text` if it is not a string. -/
structure MsgJson where
  index : Option JsonVal
  text : Option JsonText
  nextIdx : Option JsonVal
  delay : Option JsonVal

/-- The call for the object at a place of its array. -/
def MsgJson.store (kind : MsgKind) (o : MsgJson) (place : Nat) : Option MsgStore :=
  o.text.map fun text => ⟨kind, UInt8.ofInt (jsonGetInt o.index (castInt place + 1)), text.bytes,
    UInt8.ofInt (jsonGetInt o.nextIdx 0xff), UInt8.ofInt (jsonGetInt o.delay 0)⟩

/-- The messages of a request; `none` in an array is no object, and for an array that there is none. -/
structure MessagesJson where
  cwMessages : Option (List (Option MsgJson))
  fskMessages : Option (List (Option MsgJson))

namespace Messages

/-- `apply_messages_from_json`, with the errors. `taken`: what the keyer answers; nothing is sent while it is offline. -/
def applyMessages (kind : MsgKind) (arr : Option (List (Option MsgJson))) (taken : MsgStore → Bool)
    (a : Messages × Nat) : Messages × Nat :=
  (arr.getD []).zipIdx.foldl (fun a p =>
    match p.1.bind (·.store kind p.2) with
    | none => a
    | some c =>
      let (ms, ok) := a.1.store c
      (ms, if ok && taken c then a.2 else a.2 + 1)) a

/-- `apply_device_from_json`, the part about the messages. -/
def applyDevice (ms : Messages) (req : MessagesJson) (taken : MsgStore → Bool) : Messages × Nat :=
  applyMessages .fsk req.fskMessages taken (applyMessages .cw req.cwMessages taken (ms, 0))

/-- A request is served. -/
def request (ms : Messages) (req : MessagesJson × (MsgStore → Bool)) : Messages := (ms.applyDevice req.1 req.2).1

def indices : List UInt8 := [1, 2, 3, 4, 5, 6, 7, 8, 9]

/-- The object of a message in the file: there is none for an empty text. -/
def savedObj (ms : Messages) (kind : MsgKind) (i : UInt8) : Option MsgJson :=
  match ms.get kind i with
  | some (text, nextIdx, delay) =>
    if text = [] then none
    else some ⟨some (.int i.toNat), jsonString text, some (.int nextIdx.toNat), some (.int delay.toNat)⟩
  | none => none

/-- The messages of a kind in the file, `build_config_json`. -/
def savedKind (ms : Messages) (kind : MsgKind) : Option (List (Option MsgJson)) :=
  let objs := indices.filterMap (ms.savedObj kind)
  if objs.isEmpty then none else some (objs.map some)

def saved (ms : Messages) : MessagesJson := ⟨ms.savedKind .cw, ms.savedKind .fsk⟩

/-- The messages after the next start of the daemon, before the keyer is online. -/
def restarted (ms : Messages) : Messages := (init.applyDevice ms.saved fun _ => true).1

/-! ### Requests are calls -/

variable {ms : Messages} {kind : MsgKind}

/-- The calls for an array. -/
def stores (kind : MsgKind) (arr : Option (List (Option MsgJson))) : List MsgStore :=
  (arr.getD []).zipIdx.filterMap fun p => p.1.bind (·.store kind p.2)

/-- Those for a request. -/
def reqStores (req : MessagesJson) : List MsgStore := stores .cw req.cwMessages ++ stores .fsk req.fskMessages

theorem applyMessages_eq (kind : MsgKind) (arr : Option (List (Option MsgJson))) (taken : MsgStore → Bool)
    (a : Messages × Nat) : (applyMessages kind arr taken a).1 = a.1.storeAll (stores kind arr) := by
  unfold applyMessages stores storeAll
  generalize (arr.getD []).zipIdx = ps
  induction ps generalizing a with
  | nil => rfl
  | cons p ps ih =>
    rw [List.foldl_cons, ih, List.filterMap_cons]
    cases p.1.bind (·.store kind p.2) <;> rfl

theorem applyDevice_eq (ms : Messages) (req : MessagesJson) (taken : MsgStore → Bool) :
    (ms.applyDevice req taken).1 = ms.storeAll (reqStores req) := by
  unfold applyDevice reqStores storeAll
  rw [applyMessages_eq, applyMessages_eq, List.foldl_append]
  rfl

/-- The messages after requests are those after all their calls. -/
theorem run_eq (ms : Messages) (reqs : List (MessagesJson × (MsgStore → Bool))) :
    Run.run request ms reqs = ms.storeAll (reqs.flatMap fun req => reqStores req.1) := by
  unfold storeAll
  induction reqs generalizing ms with
  | nil => rfl
  | cons req reqs ih =>
    rw [Run.run_cons, ih, request, applyDevice_eq, List.flatMap_cons, List.foldl_append]
    rfl

/-! ### What is stored again -/

/-- The call that stores a saved message. -/
def savedStore (ms : Messages) (kind : MsgKind) (i : UInt8) : Option MsgStore :=
  if (ms kind i).read.1 ≠ [] ∧ Octets (ms kind i).read.1 then
    some ⟨kind, i, (ms kind i).read.1, (ms kind i).nextIdx, (ms kind i).delay⟩
  else none

theorem ofInt_jsonGetInt (b : UInt8) (defval : Int) :
    UInt8.ofInt (jsonGetInt (some (.int b.toNat)) defval) = b := by
  have hlt := b.toNat_lt
  have hcast : castInt b.toNat = b.toNat := by
    unfold castInt
    exact Int.bmod_eq_of_le (by omega) (by omega)
  have hmod : ((b.toNat : Int) % 2 ^ 8).toNat = b.toNat := by omega
  change UInt8.ofInt (castInt b.toNat) = b
  rw [hcast, UInt8.ofInt, hmod]
  exact UInt8.ofNat_toNat

theorem cstr_read (m : Message) : cstr m.read.1 = m.read.1 := by
  have hcstr := cstr_append_zero (t := m.read.1) ne_zero_of_mem_cstr 0
  rwa [List.replicate_zero, List.append_nil] at hcstr

theorem indices_valid : ∀ i ∈ indices, ¬ (i < 1 ∨ 9 < i) := by
  intro i hi
  simp only [indices, List.mem_cons, List.not_mem_nil, or_false] at hi
  rcases hi with rfl | rfl | rfl | rfl | rfl | rfl | rfl | rfl | rfl <;> decide

theorem store_savedObj {i : UInt8} (hi : i ∈ indices) (place : Nat) :
    (ms.savedObj kind i).bind (·.store kind place) = ms.savedStore kind i := by
  unfold savedObj savedStore get jsonString
  rw [if_neg (indices_valid i hi)]
  simp only [cstr_read]
  by_cases htext : (ms kind i).read.1 = []
  · simp [htext]
  · by_cases hoctets : Octets (ms kind i).read.1
    · simp only [htext, hoctets, MsgJson.store, if_false, dif_pos, Option.bind_some, Option.map_some, ne_eq,
        not_false_eq_true, and_self, if_true, Option.some.injEq, MsgStore.mk.injEq, true_and]
      exact ⟨ofInt_jsonGetInt _ _, ofInt_jsonGetInt _ _, ofInt_jsonGetInt _ _⟩
    · simp [htext, hoctets, MsgJson.store]


theorem stores_savedKind (ms : Messages) (kind : MsgKind) :
    stores kind (ms.savedKind kind) = indices.filterMap (ms.savedStore kind) := by
  have hobjs : (ms.savedKind kind).getD [] = (indices.filterMap (ms.savedObj kind)).map some := by
    unfold savedKind
    dsimp only
    split_ifs with hempty
    · rw [List.isEmpty_iff.mp hempty]
      rfl
    · rfl
  have hplaces : ∀ (is : List UInt8) (n : Nat), (∀ i ∈ is, i ∈ indices) →
      (((is.filterMap (ms.savedObj kind)).map some).zipIdx n).filterMap (fun p => p.1.bind (·.store kind p.2)) =
        is.filterMap (ms.savedStore kind) := by
    intro is
    induction is with
    | nil => exact fun _ _ => rfl
    | cons i is ih =>
      intro n his
      have hi : ∀ n, (ms.savedObj kind i).bind (·.store kind n) = ms.savedStore kind i :=
        store_savedObj (his i List.mem_cons_self)
      have hrest := fun n => ih n fun i h => his i (List.mem_cons_of_mem _ h)
      rw [List.filterMap_cons, List.filterMap_cons, ← hi n]
      cases ms.savedObj kind i with
      | none => exact hrest n
      | some o =>
        rw [List.map_cons, List.zipIdx_cons, List.filterMap_cons, hrest]
  unfold stores
  rw [hobjs]
  exact hplaces indices 0 fun _ h => h

theorem filterMap_of_nodup {α β : Type} {l : List α} {f : α → Option β} {a : α} (hl : l.Nodup) (ha : a ∈ l)
    (h : ∀ b ∈ l, b ≠ a → f b = none) : l.filterMap f = (f a).toList := by
  obtain ⟨xs, ys, rfl⟩ := List.append_of_mem ha
  have hna : a ∉ xs ++ ys := (List.nodup_cons.mp (List.nodup_middle.mp hl)).1
  have hnone : ∀ b ∈ xs ++ ys, f b = none := by
    intro b hb
    refine h b ?_ fun heq => hna (heq ▸ hb)
    rcases List.mem_append.mp hb with hb | hb
    · exact List.mem_append_left _ hb
    · exact List.mem_append_right _ (List.mem_cons_of_mem _ hb)
  rw [List.filterMap_append, List.filterMap_cons,
    List.filterMap_eq_nil_iff.mpr fun b hb => hnone b (List.mem_append_left _ hb),
    List.filterMap_eq_nil_iff.mpr fun b hb => hnone b (List.mem_append_right _ hb)]
  cases f a <;> rfl

/-- Of the calls that store the saved messages of a kind, the one for a slot. -/
theorem acceptedFor_saved (hlen : ∀ i, (ms kind i).read.1.length ≤ MAX_CW_FSK_MESSAGE_LEN) (kind' : MsgKind)
    {idx : UInt8} (hidx : idx ∈ indices) :
    acceptedFor kind' idx (indices.filterMap (ms.savedStore kind)) =
      if kind = kind' then (ms.savedStore kind idx).toList else [] := by
  have haccepted : ∀ i ∈ indices, ∀ c, ms.savedStore kind i = some c → c.Accepted ∧ c.kind = kind ∧ c.idx = i := by
    intro i hi c hc
    unfold savedStore at hc
    split_ifs at hc
    obtain rfl := Option.some.inj hc
    have hvalid := indices_valid i hi
    rw [not_or, UInt8.not_lt, UInt8.not_lt] at hvalid
    refine ⟨⟨?_, hvalid⟩, rfl, rfl⟩
    rw [cstr_read]
    exact hlen i
  -- a call is kept if it is for the slot
  have hkept : ∀ i ∈ indices, (ms.savedStore kind i).filter (fun c => c.Accepted ∧ c.IsFor kind' idx) =
      if kind = kind' ∧ i = idx then ms.savedStore kind i else none := by
    intro i hi
    cases hc : ms.savedStore kind i with
    | none => split_ifs <;> rfl
    | some c =>
      obtain ⟨hacc, rfl, rfl⟩ := haccepted i hi c hc
      simp [Option.filter, hacc, MsgStore.IsFor]
  unfold acceptedFor
  rw [List.filter_filterMap]
  split_ifs with hkind
  · rw [filterMap_of_nodup (by decide) hidx fun i hi hne => by rw [hkept i hi, if_neg fun h => hne h.2],
      hkept idx hidx, if_pos ⟨hkind, rfl⟩]
  · exact List.filterMap_eq_nil_iff.mpr fun i hi => by rw [hkept i hi, if_neg fun h => hkind h.1]

/-- What a slot has after a restart. -/
theorem get_restarted (hlen : ∀ kind i, (ms kind i).read.1.length ≤ MAX_CW_FSK_MESSAGE_LEN) (kind : MsgKind)
    {idx : UInt8} (hidx : idx ∈ indices) : ms.restarted.get kind idx =
      some (if (ms kind idx).read.1 ≠ [] ∧ Octets (ms kind idx).read.1 then (ms kind idx).read else ([], 0, 0)) := by
  have hstores : acceptedFor kind idx (reqStores ms.saved) = (ms.savedStore kind idx).toList := by
    unfold reqStores saved
    rw [stores_savedKind, stores_savedKind, acceptedFor, List.filter_append, ← acceptedFor, ← acceptedFor,
      acceptedFor_saved (hlen .cw) kind hidx, acceptedFor_saved (hlen .fsk) kind hidx]
    cases kind <;> simp
  obtain ⟨hholds, hrest⟩ := storeAll_slot (reqStores ms.saved) kind idx
  rw [hstores] at hholds hrest
  unfold restarted get
  rw [if_neg (indices_valid idx hidx), applyDevice_eq]
  refine congrArg some (Prod.ext (hholds.cstr_eq.trans ?_) (hrest.trans ?_)) <;> unfold savedStore
  · split_ifs
    · simp [leftText, cstr_read]
    · rfl
  · split_ifs <;> rfl

theorem length_read (cs : List MsgStore) (kind : MsgKind) (i : UInt8) :
    (init.storeAll cs kind i).read.1.length ≤ MAX_CW_FSK_MESSAGE_LEN := by
  have hholds := (storeAll_slot cs kind i).1
  have hread : (init.storeAll cs kind i).read.1 = leftText (acceptedFor kind i cs) := hholds.cstr_eq
  rw [hread]
  exact hholds.le

/-- After a restart a message is as it was if it has a text and the text is UTF-8, and otherwise blank. -/
theorem messages_survive_restart (reqs : List (MessagesJson × (MsgStore → Bool))) (kind : MsgKind) (idx : UInt8) :
    (restarted (Run.run request init reqs)).get kind idx = ((Run.run request init reqs).get kind idx).map fun m =>
      if m.1 ≠ [] ∧ Octets m.1 then m else ([], 0, 0) := by
  rw [run_eq]
  by_cases hidx : idx ∈ indices
  · rw [get_restarted (length_read _) kind hidx, get, if_neg (indices_valid idx hidx)]
    rfl
  · have hout : idx < 1 ∨ 9 < idx := by
      by_contra hin
      have hle : 1 ≤ idx.toNat ∧ idx.toNat ≤ 9 := by
        have hin' : ¬ (idx.toNat < 1 ∨ 9 < idx.toNat) := hin
        omega
      have hmem : idx.toNat ∈ indices.map UInt8.toNat := by
        generalize idx.toNat = n at hle
        obtain ⟨h1, h9⟩ := hle
        interval_cases n <;> decide
      obtain ⟨i, hi, heq⟩ := List.mem_map.mp hmem
      exact hidx (UInt8.toNat_inj.mp heq ▸ hi)
    rw [get, get, if_pos hout, if_pos hout]
    rfl

-- what is left of a letter of two bytes
example : (restarted (init.storeAll [⟨.cw, 1, [0xc3, 0x84], 0xff, 0⟩, ⟨.cw, 1, [0x41], 0xff, 0⟩])).get .cw 1 =
    some ([], 0, 0) := by decide

end Messages

end Mhuxd
