import Mathlib.Algebra.Order.BigOperators.Group.List
import Mathlib.Algebra.Order.Ring.Nat
import Mathlib.Data.List.Flatten

/- Threads as stacks of operations: what happens to the operations of all threads together
   when one thread replaces the top of its stack. -/
namespace GameNet.Stacks

variable {α : Type}

/-- Setting an entry of a list leaves the entries around it. -/
theorem set_split : ∀ {l : List α} {i : Nat} {a : α}, l[i]? = some a →
    ∃ before after, l = before ++ a :: after ∧ ∀ b, l.set i b = before ++ b :: after
  | [], i, a, h => by simp at h
  | x :: l, 0, a, h => by
    obtain rfl : x = a := by simpa using h
    exact ⟨[], l, rfl, fun _ => rfl⟩
  | x :: l, i + 1, a, h => by
    obtain ⟨before, after, hl, hset⟩ := set_split (by simpa using h : l[i]? = some a)
    exact ⟨x :: before, after, by rw [hl]; rfl, fun b => by simp [hset b]⟩

theorem getElem?_set_cases {l : List α} {i k : Nat} {b x : α} (h : (l.set i b)[k]? = some x) :
    i = k ∧ x = b ∨ i ≠ k ∧ l[k]? = some x := by
  rw [List.getElem?_set] at h
  split_ifs at h with hk
  · exact .inl ⟨hk, (Option.some.inj h).symm⟩
  · exact .inr ⟨hk, h⟩

theorem getElem?_append_of {l : List α} {i : Nat} {a : α} (h : l[i]? = some a) (l' : List α) :
    (l ++ l')[i]? = some a := by
  rw [List.getElem?_append_left (List.getElem?_eq_some_iff.mp h).1, h]

/-- One stack replaces the operations `olds` on its top by `news`. -/
theorem flatten_set {ls : List (List α)} {i : Nat} {olds rest : List α}
    (h : ls[i]? = some (olds ++ rest)) (news : List α) :
    ∃ R, ls.flatten.Perm (olds ++ R) ∧ (ls.set i (news ++ rest)).flatten.Perm (news ++ R) := by
  obtain ⟨before, after, hl, hset⟩ := set_split h
  have hmove (top : List α) : (before ++ (top ++ rest) :: after).flatten.Perm
      (top ++ (before.flatten ++ (rest ++ after.flatten))) := by
    rw [List.flatten_append, List.flatten_cons, List.append_assoc top]
    exact (List.perm_append_comm_assoc _ _ _)
  refine ⟨before.flatten ++ (rest ++ after.flatten), ?_, ?_⟩
  · rw [hl]
    exact hmove olds
  · rw [hset]
    exact hmove news

/-- What the operations of a list weigh together. -/
def weight (w : α → Nat) (l : List α) : Nat := (l.map w).sum

@[simp]
theorem weight_nil (w : α → Nat) : weight w [] = 0 := rfl

@[simp]
theorem weight_cons (w : α → Nat) (a : α) (l : List α) :
    weight w (a :: l) = w a + weight w l := by
  simp [weight]

@[simp]
theorem weight_append (w : α → Nat) (l l' : List α) :
    weight w (l ++ l') = weight w l + weight w l' := by
  simp [weight]

theorem weight_perm (w : α → Nat) {l l' : List α} (h : l.Perm l') : weight w l = weight w l' :=
  (h.map w).sum_eq

theorem weight_eq_zero {w : α → Nat} {l : List α} (h : ∀ a ∈ l, w a = 0) : weight w l = 0 := by
  simpa [weight, List.sum_eq_zero_iff] using h

theorem le_weight (w : α → Nat) {a : α} {l : List α} (h : a ∈ l) : w a ≤ weight w l :=
  List.le_sum_of_mem (List.mem_map_of_mem h)

/-- One entry is replaced. -/
theorem weight_set (w : α → Nat) {l : List α} {i : Nat} {a : α} (h : l[i]? = some a) (b : α) :
    weight w (l.set i b) + w a = weight w l + w b := by
  obtain ⟨before, after, hl, hset⟩ := set_split h
  rw [hset, hl]
  simp only [weight_append, weight_cons]
  omega

theorem le_weight_get (w : α → Nat) {l : List α} {i : Nat} {a : α} (h : l[i]? = some a) :
    w a ≤ weight w l :=
  le_weight w (List.mem_of_getElem? h)

end GameNet.Stacks
