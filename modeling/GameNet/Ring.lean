import Mathlib.Data.List.Rotate
import Mathlib.Tactic.SplitIfs

/- Circular storage: a queue of values kept in a fixed list, from a head on and over the end of
   the list back to its beginning. A copy that crosses the end is made in two parts. Every access
   is bounds-checked, `none` is an access outside the storage or an index modulo zero.

   The queue is `window storage head n`, the first `n` values after turning the storage to the
   head; each access is specified by what it does to the window. -/
namespace GameNet.Ring

variable {α : Type}

/-! ## Bounds-checked copies -/

/-- `n` values from `offset` on. -/
def slice (l : List α) (offset n : Nat) : Option (List α) :=
  if offset + n ≤ l.length then some ((l.drop offset).take n) else none

/-- The values from `offset` on are replaced by `src`. -/
def overwrite (dst : List α) (offset : Nat) (src : List α) : Option (List α) :=
  if offset + src.length ≤ dst.length then
    some (dst.take offset ++ (src ++ dst.drop (offset + src.length)))
  else none

/-- The position `offset` after `head`. -/
def index (storage : List α) (head offset : Nat) : Option Nat :=
  if storage.length = 0 then none else some ((head + offset) % storage.length)

/-- `n` values from `start` on, the part after the end from the beginning. -/
def readFrom (storage : List α) (start n : Nat) : Option (List α) :=
  let first := min n (storage.length - start)
  (slice storage start first).bind fun a =>
    if first ≠ n then (slice storage 0 (n - first)).map (a ++ ·) else some a

/-- `src` is written from `start` on, the part after the end at the beginning. -/
def writeFrom (storage : List α) (start : Nat) (src : List α) : Option (List α) :=
  let first := min src.length (storage.length - start)
  (overwrite storage start (src.take first)).bind fun storage =>
    if first ≠ src.length then overwrite storage 0 (src.drop first) else some storage

/-- The first `n` values from the head on. -/
def window (storage : List α) (head n : Nat) : List α := (storage.rotate head).take n

/-! ## What they do to the window -/

section
variable {storage src : List α} {head start n : Nat}

theorem window_length (hn : n ≤ storage.length) : (window storage head n).length = n := by
  rw [window, List.length_take, List.length_rotate]
  omega

@[simp]
theorem window_zero : window storage head 0 = [] := List.take_zero

theorem index_eq (h : 0 < storage.length) (offset : Nat) :
    index storage head offset = some ((head + offset) % storage.length) :=
  if_neg h.ne'

theorem slice_append (a b : List α) (hn : n ≤ b.length) :
    slice (a ++ b) a.length n = some (b.take n) := by
  rw [slice, if_pos (by rw [List.length_append]; omega), List.drop_left]

theorem overwrite_append (a b : List α) (hn : src.length ≤ b.length) :
    overwrite (a ++ b) a.length src = some (a ++ (src ++ b.drop src.length)) := by
  rw [overwrite, if_pos (by rw [List.length_append]; omega), List.take_left,
    ← List.drop_drop, List.drop_left]

/-- The part before the start and the part from it on. -/
theorem exists_append (h : start ≤ storage.length) :
    ∃ a b, storage = a ++ b ∧ start = a.length :=
  ⟨storage.take start, storage.drop start, (List.take_append_drop start storage).symm, by simp [h]⟩

theorem readFrom_eq (hstart : start ≤ storage.length) (hn : n ≤ storage.length) :
    readFrom storage start n = some (window storage start n) := by
  obtain ⟨a, b, rfl, rfl⟩ := exists_append hstart
  rw [List.length_append] at hn
  have hrest : (a ++ b).length - a.length = b.length := by simp
  rw [window, List.rotate_append_length_eq]
  simp only [readFrom, hrest]
  by_cases hfits : n ≤ b.length
  · rw [Nat.min_eq_left hfits, slice_append a b hfits, Option.bind_some, if_neg (by simp),
      List.take_append_of_le_length hfits]
  · -- the copy goes over the end
    rw [Nat.min_eq_right (by omega), slice_append a b le_rfl, Option.bind_some, if_pos (by omega)]
    have hbegin : slice (a ++ b) 0 (n - b.length) = some (a.take (n - b.length)) := by
      rw [slice, if_pos (by rw [List.length_append]; omega), List.drop_zero,
        List.take_append_of_le_length (by omega)]
    rw [hbegin, Option.map_some, List.take_length, List.take_append,
      List.take_of_length_le (show b.length ≤ n by omega)]

theorem writeFrom_eq (hstart : start ≤ storage.length) (hn : src.length ≤ storage.length) :
    ∃ storage', writeFrom storage start src = some storage' ∧
      storage'.length = storage.length ∧
      storage'.rotate start = src ++ (storage.rotate start).drop src.length := by
  obtain ⟨a, b, rfl, rfl⟩ := exists_append hstart
  rw [List.length_append] at hn
  have hrest : (a ++ b).length - a.length = b.length := by simp
  rw [List.rotate_append_length_eq]
  simp only [writeFrom, hrest]
  by_cases hfits : src.length ≤ b.length
  · rw [Nat.min_eq_left hfits, List.take_length, overwrite_append a b hfits, Option.bind_some,
      if_neg (by simp)]
    refine ⟨_, rfl, by simp; omega, ?_⟩
    rw [List.rotate_append_length_eq, List.drop_append_of_le_length hfits, List.append_assoc]
  · -- the copy goes over the end
    have htake : (src.take b.length).length = b.length := by rw [List.length_take]; omega
    have hdrop : (src.drop b.length).length = src.length - b.length := List.length_drop
    rw [Nat.min_eq_right (by omega), overwrite_append a b htake.le, Option.bind_some,
      if_pos (by omega), htake, List.drop_length, List.append_nil]
    have hwrap : overwrite (a ++ src.take b.length) 0 (src.drop b.length) =
        some ((src.drop b.length ++ a.drop (src.length - b.length)) ++ src.take b.length) := by
      rw [overwrite, if_pos (by rw [List.length_append]; omega), List.take_zero, List.nil_append,
        Nat.zero_add, hdrop, List.drop_append_of_le_length (by omega), List.append_assoc]
    have hlen : a.length = (src.drop b.length ++ a.drop (src.length - b.length)).length := by
      rw [List.length_append, hdrop, List.length_drop]
      omega
    refine ⟨_, hwrap, by rw [List.length_append, ← hlen, htake, List.length_append], ?_⟩
    rw [hlen, List.rotate_append_length_eq, ← List.append_assoc, List.take_append_drop,
      List.drop_append, List.drop_of_length_le (show b.length ≤ src.length by omega),
      List.nil_append]

/-- A later position of the ring is a later position of the window. -/
theorem rotate_index (head offset : Nat) :
    storage.rotate ((head + offset) % storage.length) = (storage.rotate head).rotate offset := by
  rw [List.rotate_mod, List.rotate_rotate]

theorem window_index {offset : Nat} (hn : offset + n ≤ storage.length) :
    window storage ((head + offset) % storage.length) n =
      ((storage.rotate head).drop offset).take n := by
  have hlen := List.length_rotate storage head
  rw [window, rotate_index, List.rotate_eq_drop_append_take (by omega),
    List.take_append_of_le_length (by rw [List.length_drop]; omega)]

/-- The window after its first `k` values. -/
theorem window_drop {k : Nat} (hk : k ≤ n) (hn : n ≤ storage.length) :
    window storage ((head + k) % storage.length) (n - k) = (window storage head n).drop k := by
  rw [window_index (by omega), window, List.drop_take]

/-- Values in the middle of the window. -/
theorem window_slice {offset len : Nat} (hlen : offset + len ≤ n) (hn : n ≤ storage.length) :
    window storage ((head + offset) % storage.length) len =
      ((window storage head n).drop offset).take len := by
  rw [window_index (by omega), window, List.drop_take, List.take_take, Nat.min_eq_left (by omega)]

theorem window_get {offset : Nat} (hoff : offset < n) (hn : n ≤ storage.length) :
    storage[(head + offset) % storage.length]? = (window storage head n)[offset]? := by
  rw [window, List.getElem?_take_of_lt hoff, List.getElem?_rotate (by omega), Nat.add_comm]

/-- What is written after the window is added to it. -/
theorem window_write {storage' : List α} (hlen : storage'.length = storage.length)
    (hn : n + src.length ≤ storage.length)
    (hrot : storage'.rotate ((head + n) % storage.length) =
      src ++ (storage.rotate ((head + n) % storage.length)).drop src.length) :
    window storage' head (n + src.length) = window storage head n ++ src := by
  -- both storages are turned to the end of the window first
  have hback (l : List α) (hl : l.length = storage.length) :
      l.rotate head = (l.rotate ((head + n) % storage.length)).rotate (storage.length - n) := by
    rw [← hl, List.rotate_mod, List.rotate_rotate, hl,
      show head + n + (storage.length - n) = head + storage.length by omega, ← hl,
      ← List.rotate_rotate, ← List.length_rotate l head, List.rotate_length]
  generalize ht : storage.rotate ((head + n) % storage.length) = t at hrot
  have htlen : t.length = storage.length := by rw [← ht, List.length_rotate]
  rw [window, window, hback storage' hlen, hback storage rfl, hrot, ht,
    List.rotate_eq_drop_append_take (by simp; omega),
    List.rotate_eq_drop_append_take (by omega)]
  have hsrc : (src ++ t.drop src.length).drop (storage.length - n) = t.drop (storage.length - n) := by
    rw [List.drop_append, List.drop_of_length_le (by omega), List.nil_append, List.drop_drop]
    congr 1
    omega
  have hfront : (t.drop (storage.length - n)).length = n := by
    rw [List.length_drop]
    omega
  rw [hsrc, List.take_append_of_le_length hfront.ge, List.take_of_length_le hfront.le,
    List.take_append, List.take_of_length_le (by omega), hfront]
  congr 1
  rw [List.take_take, List.take_append_of_le_length (by omega), List.take_of_length_le (by omega)]

end

end GameNet.Ring
