import Mathlib.Data.Nat.ModEq
import GameNet.Ring

/- A ring shared by one writer and one reader. Each side owns a 32-bit cursor that only
   counts up and wraps; the low bits of a cursor are the cell it stands at. The values
   between the cursors are the contents, and the two sides keep at most one round apart,
   which the ring carries as a field.

   The writer adds a value at the end (`publish`, `none` without room), the reader moves on
   over the first values (`advance`). -/
namespace GameNet

structure SharedRing (α : Type) where
  order : Nat
  order_lt : order < 32
  cells : List α
  size : cells.length = 2 ^ order
  head : BitVec 32
  tail : BitVec 32
  bounded : (tail - head).toNat ≤ 2 ^ order

namespace SharedRing

variable {α : Type} {r r' : SharedRing α} {x : α}

/-- The cell a cursor stands at: its bits under the ring's mask. -/
def index (r : SharedRing α) (cursor : BitVec 32) : Nat :=
  (cursor &&& BitVec.ofNat 32 (2 ^ r.order - 1)).toNat

def length (r : SharedRing α) : Nat := (r.tail - r.head).toNat

def contents (r : SharedRing α) : List α := Ring.window r.cells (r.index r.head) r.length

/-- The writer compares the distance of the cursors with the number of cells. -/
def hasRoom (r : SharedRing α) : Bool := r.tail - r.head < BitVec.ofNat 32 (2 ^ r.order)

/-- An empty ring, with both cursors at `start`. -/
def empty (order : Nat) (h : order < 32) (fill : α) (start : BitVec 32) : SharedRing α where
  order := order
  order_lt := h
  cells := List.replicate (2 ^ order) fill
  size := List.length_replicate
  head := start
  tail := start
  bounded := by simp

theorem cells_lt (r : SharedRing α) : 2 ^ r.order < 2 ^ 32 :=
  Nat.pow_lt_pow_right (by omega) r.order_lt

theorem hasRoom_iff : r.hasRoom = true ↔ r.length < 2 ^ r.order := by
  rw [hasRoom, decide_eq_true_eq, BitVec.lt_def, BitVec.toNat_ofNat,
    Nat.mod_eq_of_lt r.cells_lt, length]

theorem length_next (h : r.hasRoom = true) : (r.tail + 1 - r.head).toNat = r.length + 1 := by
  have hroom := hasRoom_iff.mp h
  have hcells := r.cells_lt
  have hcomm : r.tail + 1 - r.head = (r.tail - r.head) + 1 := by
    rw [BitVec.sub_eq_add_neg, BitVec.sub_eq_add_neg, BitVec.add_assoc, BitVec.add_assoc,
      BitVec.add_comm 1]
  have hone : (1 : BitVec 32).toNat = 1 := rfl
  rw [hcomm, BitVec.toNat_add, hone, ← length, Nat.mod_eq_of_lt (by omega)]

/-- The writer's step. -/
def publish (r : SharedRing α) (x : α) : Option (SharedRing α) :=
  if h : r.hasRoom = true then
    some { r with
      cells := r.cells.set (r.index r.tail) x
      size := by rw [List.length_set, r.size]
      tail := r.tail + 1
      bounded := by rw [length_next h]; exact hasRoom_iff.mp h }
  else none

theorem length_rest (r : SharedRing α) (n : Nat) :
    (r.tail - (r.head + BitVec.ofNat 32 (min n r.length))).toNat = r.length - min n r.length := by
  have hlt : r.length < 2 ^ 32 := (r.tail - r.head).isLt
  have hassoc : r.tail - (r.head + BitVec.ofNat 32 (min n r.length)) =
      (r.tail - r.head) - BitVec.ofNat 32 (min n r.length) := by
    rw [BitVec.sub_eq_add_neg, BitVec.sub_eq_add_neg, BitVec.sub_eq_add_neg, BitVec.neg_add,
      BitVec.sub_eq_add_neg, BitVec.add_assoc]
  have hsmall : (BitVec.ofNat 32 (min n r.length)).toNat = min n r.length := by
    rw [BitVec.toNat_ofNat, Nat.mod_eq_of_lt (by omega)]
  rw [hassoc, BitVec.toNat_sub_of_le, hsmall, length]
  rw [BitVec.le_def, hsmall]
  exact Nat.min_le_right _ _

/-- The reader's step, over at most what is there. -/
def advance (r : SharedRing α) (n : Nat) : SharedRing α :=
  { r with
    head := r.head + BitVec.ofNat 32 (min n r.length)
    bounded := by
      rw [length_rest]
      exact (Nat.sub_le _ _).trans r.bounded }

/-- The reader looks at the value `n` after its cursor. -/
def peek (r : SharedRing α) (n : Nat) : Option α :=
  r.cells[r.index (r.head + BitVec.ofNat 32 n)]?

/-! ## What the steps do to the contents -/

theorem length_le (r : SharedRing α) : r.length ≤ r.cells.length := r.size ▸ r.bounded

@[simp]
theorem contents_length (r : SharedRing α) : r.contents.length = r.length :=
  Ring.window_length r.length_le

@[simp]
theorem empty_contents (order : Nat) (h : order < 32) (fill : α) (start : BitVec 32) :
    (empty order h fill start).contents = [] := by
  have hlen : (empty order h fill start).length = 0 := by simp [empty, length]
  rw [contents, hlen, Ring.window_zero]

theorem index_eq (r : SharedRing α) (cursor : BitVec 32) :
    r.index cursor = cursor.toNat % r.cells.length := by
  have hmask : (2 ^ r.order - 1) % 2 ^ 32 = 2 ^ r.order - 1 :=
    Nat.mod_eq_of_lt (by have := r.cells_lt; omega)
  rw [index, BitVec.toNat_and, BitVec.toNat_ofNat, hmask, Nat.and_two_pow_sub_one_eq_mod, r.size]

/-- The number of cells divides the range of a cursor, so wrapping keeps the cell. -/
theorem index_add (r : SharedRing α) (cursor : BitVec 32) (n : Nat) :
    r.index (cursor + BitVec.ofNat 32 n) = (r.index cursor + n) % r.cells.length := by
  have hdvd : r.cells.length ∣ 2 ^ 32 := r.size ▸ Nat.pow_dvd_pow 2 r.order_lt.le
  rw [index_eq, index_eq, BitVec.toNat_add, BitVec.toNat_ofNat, Nat.mod_mod_of_dvd _ hdvd,
    Nat.mod_add_mod, Nat.add_mod, Nat.mod_mod_of_dvd _ hdvd, ← Nat.add_mod]

theorem tail_eq (r : SharedRing α) : r.tail = r.head + BitVec.ofNat 32 r.length := by
  rw [length, BitVec.ofNat_toNat, BitVec.setWidth_eq, BitVec.add_comm, BitVec.sub_add_cancel]

/-- A value set at the head of the turned storage. -/
theorem rotate_set {l : List α} {i : Nat} (h : i < l.length) (x : α) :
    (l.set i x).rotate i = [x] ++ (l.rotate i).drop 1 := by
  obtain ⟨a, b, rfl, rfl⟩ := Ring.exists_append h.le
  cases b with
  | nil => simp at h
  | cons y b =>
    have hset : (a ++ y :: b).set a.length x = a ++ x :: b := by simp
    rw [hset, List.rotate_append_length_eq, List.rotate_append_length_eq]
    rfl

theorem publish_contents (h : r.publish x = some r') : r'.contents = r.contents ++ [x] := by
  unfold publish at h
  split at h
  · rename_i hroom
    have hlt : r.length < r.cells.length := r.size ▸ hasRoom_iff.mp hroom
    have hend : r.index r.tail = (r.index r.head + r.length) % r.cells.length := by
      conv_lhs => rw [tail_eq r, index_add]
    obtain rfl := Option.some.inj h
    show Ring.window (r.cells.set (r.index r.tail) x) (r.index r.head) (r.tail + 1 - r.head).toNat = _
    rw [length_next hroom, hend]
    have hcell : (r.index r.head + r.length) % r.cells.length < r.cells.length :=
      Nat.mod_lt _ (by omega)
    exact Ring.window_write List.length_set hlt (rotate_set hcell x)
  · cases h

theorem publish_isSome (x : α) : (r.publish x).isSome = r.hasRoom := by
  unfold publish
  split <;> simp_all

theorem advance_contents (r : SharedRing α) (n : Nat) :
    (r.advance n).contents = r.contents.drop n := by
  show Ring.window r.cells (r.index (r.head + BitVec.ofNat 32 (min n r.length)))
    (r.tail - (r.head + BitVec.ofNat 32 (min n r.length))).toNat = _
  rw [length_rest, index_add, Ring.window_drop (Nat.min_le_right _ _) r.length_le, ← contents]
  -- beyond the contents there is nothing to drop
  by_cases hn : n ≤ r.length
  · rw [Nat.min_eq_left hn]
  · rw [Nat.min_eq_right (by omega), List.drop_of_length_le (by simp),
      List.drop_of_length_le (by simp; omega)]

theorem peek_contents {n : Nat} (h : n < r.length) : r.peek n = r.contents[n]? := by
  rw [peek, index_add, contents]
  exact Ring.window_get h r.length_le

end SharedRing

end GameNet
