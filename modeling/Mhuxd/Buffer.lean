import Mathlib

/-!
# Byte buffers (`buffer.c`)

A buffer keeps `size` bytes, the first `rpos` of them already read; when the last byte is read both
go back to 0. The room left counts the bytes read as well, so a buffer that is read from but never
emptied fills up. `unread` is what is still to come.
-/

namespace Mhuxd

theorem drop_length_take {α : Type} (l : List α) (n : Nat) : l.drop (l.take n).length = l.drop n := by
  rw [List.length_take]
  rcases Nat.le_total n l.length with hle | hle
  · rw [Nat.min_eq_left hle]
  · rw [Nat.min_eq_right hle, List.drop_eq_nil_of_le (Nat.le_refl _), List.drop_eq_nil_of_le hle]

def BUFFER_CAPACITY : Nat := 4096

/-- `struct buffer`: `data` holds the first `size` bytes. -/
structure Buffer where
  data : List UInt8
  rpos : Nat
  size_le : data.length ≤ BUFFER_CAPACITY
  /-- Reading the last byte resets the buffer. -/
  rpos_lt : rpos < data.length ∨ (rpos = 0 ∧ data = [])
deriving DecidableEq

namespace Buffer

/-- `buf_reset`, and the state of a buffer from `calloc`. -/
def empty : Buffer := ⟨[], 0, Nat.zero_le _, .inr ⟨rfl, rfl⟩⟩

instance : Inhabited Buffer := ⟨empty⟩

def size (b : Buffer) : Nat := b.data.length

/-- The bytes not read yet. -/
def unread (b : Buffer) : List UInt8 := b.data.drop b.rpos

/-- `buf_size_avail`. -/
def avail (b : Buffer) : Nat := BUFFER_CAPACITY - b.size

/-- `buf_append`: as much of `p` as there is room for. -/
def append (b : Buffer) (p : List UInt8) : Buffer where
  data := b.data ++ p.take b.avail
  rpos := b.rpos
  size_le := by
    have := b.size_le
    simp only [List.length_append, List.length_take, avail, size]
    omega
  rpos_lt := by
    rcases b.rpos_lt with h | ⟨h, hd⟩
    · left; rw [List.length_append]; omega
    · rw [h, hd]
      cases hp : p.take b.avail with
      | nil => right; simp
      | cons x xs => left; simp

/-- `buf_consume`: `n` bytes have been read; what `write()` took is never more than it was given. -/
def consume (b : Buffer) (n : Nat) : Buffer :=
  if h : b.rpos + n < b.data.length then
    ⟨b.data, b.rpos + n, b.size_le, .inl h⟩
  else empty

/-- `buf_get_c`: the next byte, `none` for -1. -/
def getC (b : Buffer) : Option UInt8 × Buffer :=
  match b.data[b.rpos]? with
  | none => (none, b)
  | some c => (some c, b.consume 1)

variable (b : Buffer)

@[simp] theorem unread_empty : empty.unread = [] := rfl

theorem rpos_le : b.rpos ≤ b.data.length := by
  rcases b.rpos_lt with h | ⟨h, _⟩ <;> omega

theorem eq_empty_of_unread {b : Buffer} (h : b.unread = []) : b = empty := by
  rcases b with ⟨data, rpos, hs, hr⟩
  rcases hr with hr | ⟨rfl, rfl⟩
  · simp only [unread, List.drop_eq_nil_iff] at h
    omega
  · rfl

theorem unread_ne_nil {b : Buffer} (h : b.size ≠ 0) : b.unread ≠ [] := by
  rintro hu
  rw [eq_empty_of_unread hu] at h
  exact h rfl

theorem size_ne_zero {b : Buffer} (h : b.unread ≠ []) : b.size ≠ 0 := by
  intro hs
  rw [unread, List.length_eq_zero_iff.1 hs, List.drop_nil] at h
  exact h rfl

theorem unread_append_of_le {p : List UInt8} (h : p.length ≤ b.avail) :
    (b.append p).unread = b.unread ++ p := by
  have := b.rpos_le
  simp only [unread, append, List.take_of_length_le h]
  rw [List.drop_append_of_le_length this]

theorem data_append_of_le {p : List UInt8} (h : p.length ≤ b.avail) :
    (b.append p).data = b.data ++ p := by
  simp only [append, List.take_of_length_le h]

theorem unread_append : (b.append p).unread = b.unread ++ p.take b.avail := by
  have := b.rpos_le
  simp only [unread, append]
  rw [List.drop_append_of_le_length this]

/-- A buffer that something was appended to is not empty, if only because it is full. -/
theorem unread_append_ne_nil {c : UInt8} {p : List UInt8} : (b.append (c :: p)).unread ≠ [] := by
  apply unread_ne_nil
  have hcap : 0 < BUFFER_CAPACITY := by decide
  simp only [size, append, avail, List.length_append, List.length_take, List.length_cons]
  omega

theorem unread_consume (n : Nat) : (b.consume n).unread = b.unread.drop n := by
  unfold consume
  split
  · simp only [unread, List.drop_drop]
  · rw [unread_empty, unread, List.drop_drop, List.drop_eq_nil_of_le (by omega)]

/-- Reading takes the first unread byte. -/
theorem append_nil : b.append [] = b := by
  rcases b with ⟨data, rpos, hs, hr⟩
  simp [append]

/-- A write of at most `n` bytes leaves those behind them. -/
theorem unread_consume_take (n : Nat) : (b.consume (b.unread.take n).length).unread = b.unread.drop n := by
  rw [unread_consume, drop_length_take]

theorem getC_cons {c : UInt8} {cs : List UInt8} (h : b.unread = c :: cs) :
    b.getC = (some c, b.consume 1) ∧ (b.consume 1).unread = cs := by
  have hc : b.data[b.rpos]? = some c := by
    rw [← List.head?_drop, show b.data.drop b.rpos = c :: cs from h]; rfl
  refine ⟨by simp only [getC, hc], ?_⟩
  rw [unread_consume, h]; rfl

theorem getC_nil (h : b.unread = []) : b.getC = (none, b) := by
  have hc : b.data[b.rpos]? = none := by
    rw [← List.head?_drop, show b.data.drop b.rpos = [] from h]; rfl
  simp only [getC, hc]

end Buffer

end Mhuxd
