import Mhuxd.Kcfg

/-!
# The tables of the keyer options

The items of every keyer lie apart in its block, and no other item has a protected item's key in another letter
case (`Table`). The tables are checked with numbers for the keys (`caseCode`).
-/

namespace Mhuxd

/-! ### Letter case -/

/-- `tolower` of a byte. -/
def lowerByte (b : UInt8) : UInt8 := if 65 ≤ b ∧ b ≤ 90 then b + 32 else b

/-- A number for a key, the same for all letter cases. -/
def caseCode (s : String) : Nat := s.toByteArray.data.toList.foldl (fun n b => 256 * n + (lowerByte b).toNat) 0

theorem strcaseEq_iff {a b : String} : strcaseEq a b = true ↔
    a.toList.map Char.toLower = b.toList.map Char.toLower :=
  beq_iff_eq

theorem lowerByte_ofNat_of_le {n : Nat} (h : 91 ≤ n) (hlt : n < 256) :
    lowerByte (UInt8.ofNat n) = UInt8.ofNat n := by
  refine if_neg fun hupper => ?_
  have hle : n % 256 ≤ 90 := by simpa [UInt8.le_iff_toNat_le] using hupper.2
  omega

/-- Only the bytes of letters change. -/
theorem lowerByte_of_mem_encode {c : Char} (hc : ¬ (c.val ≥ 'A'.val ∧ c.val ≤ 'Z'.val)) {b : UInt8}
    (hb : b ∈ String.utf8EncodeChar c) : lowerByte b = b := by
  have hc : ¬ (65 ≤ c.val.toNat ∧ c.val.toNat ≤ 90) := hc
  unfold String.utf8EncodeChar at hb
  dsimp only at hb
  split_ifs at hb with h1 h2 h3
  · obtain rfl := List.mem_singleton.1 hb
    refine if_neg fun hupper => hc ?_
    have hmod : c.toNat % 256 = c.toNat := Nat.mod_eq_of_lt (by show c.val.toNat < 256; omega)
    simpa [UInt8.le_iff_toNat_le, hmod] using hupper
  all_goals
    simp only [List.mem_cons, List.not_mem_nil, or_false] at hb
    rcases hb with rfl | rfl | rfl | rfl <;> exact lowerByte_ofNat_of_le (by omega) (by omega)

theorem map_lowerByte_encode (c : Char) : (String.utf8EncodeChar c).map lowerByte =
    String.utf8EncodeChar c.toLower := by
  by_cases hc : c.val ≥ 'A'.val ∧ c.val ≤ 'Z'.val
  · have hlow : c.toLower.val.toNat = c.val.toNat + 32 := by
      rw [Char.toLower, dif_pos hc]
      have hle : c.val.toNat ≤ 90 := hc.2
      show (c.val.toNat + 32) % 4294967296 = c.val.toNat + 32
      omega
    have hge : 65 ≤ c.val.toNat := hc.1
    have hle : c.val.toNat ≤ 90 := hc.2
    unfold String.utf8EncodeChar
    dsimp only
    rw [hlow, if_pos (by omega), if_pos (by omega), List.map_singleton, lowerByte, if_pos]
    · rw [UInt8.ofNat_add]
      rfl
    · have hmod : c.toNat % 256 = c.toNat := Nat.mod_eq_of_lt (by show c.val.toNat < 256; omega)
      simpa [UInt8.le_iff_toNat_le, hmod] using And.intro hge hle
  · rw [Char.toLower, dif_neg hc]
    exact (List.map_congr_left fun b hb => lowerByte_of_mem_encode hc hb).trans (List.map_id' _)

theorem bytes_eq (s : String) : s.toByteArray.data.toList = s.toList.flatMap String.utf8EncodeChar := by
  rw [← String.utf8Encode_toList]
  exact List.toList_data_toByteArray

theorem caseCode_eq {a b : String} (h : strcaseEq a b = true) : caseCode a = caseCode b := by
  have hmap (s : String) : caseCode s =
      ((s.toList.map Char.toLower).flatMap String.utf8EncodeChar).foldl (fun n b => 256 * n + b.toNat) 0 := by
    rw [caseCode, bytes_eq, List.flatMap_map, ← List.foldl_map (f := lowerByte)
      (g := fun n b => 256 * n + b.toNat),
      List.map_flatMap]
    simp only [map_lowerByte_encode]
  rw [hmap, hmap, strcaseEq_iff.1 h]

/-! ### Tables -/

namespace Kcfg

variable {is : List Citem} {i j e : Citem} {s : List UInt8} {key : String} {val : Int}

/-- The item keeps its default. -/
def Citem.Protected (i : Citem) : Prop := i.key ∈ enforcedKeys

instance (i : Citem) : Decidable i.Protected := inferInstanceAs (Decidable (_ ∈ _))

def enforcedCodes : List Nat := enforcedKeys.map caseCode

/-- The items lie apart in a block of the size, and the protected ones are found by their own keys. -/
structure Table (is : List Citem) (size : Nat) : Prop where
  fits : ∀ i ∈ is, i.field.Fits
  inside : ∀ i ∈ is, i.field.byte < size
  apart : is.Pairwise fun i j => i.field.Disjoint j.field
  dflt : ∀ i ∈ is, i.Protected → i.dflt ≤ i.field.mask
  codes : ∀ i ∈ is, caseCode i.key ∈ enforcedCodes → i.Protected
  alone : ∀ e ∈ is, e.Protected → ∀ i ∈ is, caseCode i.key = caseCode e.key → i = e

instance (is : List Citem) (size : Nat) : Decidable (Table is size) :=
  decidable_of_iff
    ((∀ i ∈ is, i.field.Fits) ∧ (∀ i ∈ is, i.field.byte < size) ∧
      (is.Pairwise fun i j => i.field.Disjoint j.field) ∧
      (∀ i ∈ is, i.Protected → i.dflt ≤ i.field.mask) ∧ (∀ i ∈ is, caseCode i.key ∈ enforcedCodes → i.Protected) ∧
      ∀ e ∈ is, e.Protected → ∀ i ∈ is, caseCode i.key = caseCode e.key → i = e)
    ⟨fun ⟨h1, h2, h3, h4, h5, h6⟩ => ⟨h1, h2, h3, h4, h5, h6⟩, fun h => ⟨h.1, h.2, h.3, h.4, h.5, h.6⟩⟩

/-- The others share the tables of these. -/
theorem tables : ∀ t ∈ [KeyerType.ck, .mk, .dk2, .mk2, .mk3, .mk2r, .u2r, .sm], Table (items t) (bufSize t) := by
  decide +kernel

theorem table_items (t : KeyerType) : Table (items t) (bufSize t) := by
  cases t with
  | ck | dk => exact tables .ck (by decide)
  | mk => exact tables .mk (by decide)
  | dk2 => exact tables .dk2 (by decide)
  | mk2 => exact tables .mk2 (by decide)
  | mk3 => exact tables .mk3 (by decide)
  | mk2r | mk2rp => exact tables .mk2r (by decide)
  | u2r => exact tables .u2r (by decide)
  | sm | smd => exact tables .sm (by decide)

theorem find_mem (h : findCitem is key = some i) : i ∈ is := List.mem_of_find?_eq_some h

theorem find_code (h : findCitem is key = some i) : caseCode key = caseCode i.key := by
  refine caseCode_eq ?_
  have hfound := List.find?_some h
  exact hfound

variable {size : Nat}

/-- A protected key finds a protected item. -/
theorem Table.protected_of_key (ht : Table is size) (h : findCitem is key = some i) (hkey : key ∈ enforcedKeys) :
    i.Protected :=
  ht.codes i (find_mem h) (find_code h ▸ List.mem_map_of_mem hkey)

theorem Table.disjoint (ht : Table is size) (hi : i ∈ is) (hj : j ∈ is) (hne : i ≠ j) :
    i.field.Disjoint j.field := by
  obtain ⟨n, hn, rfl⟩ := List.mem_iff_getElem.1 hi
  obtain ⟨m, hm, rfl⟩ := List.mem_iff_getElem.1 hj
  rcases Nat.lt_trichotomy n m with hlt | rfl | hlt
  · exact List.pairwise_iff_getElem.1 ht.apart n m hn hm hlt
  · exact absurd rfl hne
  · exact (List.pairwise_iff_getElem.1 ht.apart m n hm hn hlt).symm

end Kcfg

end Mhuxd
