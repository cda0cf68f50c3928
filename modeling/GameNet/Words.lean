import Mathlib.Algebra.Group.Nat.Defs
import Mathlib.Logic.Function.Basic

/- Operations on machine words that lose nothing. A mixer of words is a chain of them, so that
   it is injective over all words although no word can be enumerated. -/
namespace Words

variable {w : Nat}

theorem add_injective (c : BitVec w) : Function.Injective (· + c) :=
  fun _ _ h => (BitVec.add_left_inj c).mp h

theorem xor_injective (c : BitVec w) : Function.Injective (c ^^^ ·) :=
  fun _ _ h => (BitVec.xor_right_inj c).mp h

/-- A factor with an inverse modulo `2 ^ w`. -/
theorem mul_injective {c d : BitVec w} (h : c * d = 1#w) : Function.Injective (· * c) := by
  intro x y hxy
  calc x = x * (c * d) := by rw [h, BitVec.mul_one]
    _ = x * c * d := (BitVec.mul_assoc x c d).symm
    _ = y * c * d := congrArg (· * d) hxy
    _ = y * (c * d) := BitVec.mul_assoc y c d
    _ = y := by rw [h, BitVec.mul_one]

/-- A word and its upper bits moved down: the upper bits are there as they were, and each lower
    bit follows from the ones above it. -/
theorem xor_shiftRight_injective {k : Nat} (hk : 0 < k) :
    Function.Injective fun x : BitVec w => x ^^^ (x >>> k) := by
  intro x y hxy
  -- the induction goes from the high bits down
  have hbits : ∀ n i, w ≤ i + n → x.getLsbD i = y.getLsbD i := by
    intro n
    induction n with
    | zero =>
      intro i hi
      rw [BitVec.getLsbD_of_ge x i hi, BitVec.getLsbD_of_ge y i hi]
    | succ n ih =>
      intro i hi
      have habove : x.getLsbD (k + i) = y.getLsbD (k + i) := ih (k + i) (by omega)
      have hbit := congrArg (fun z => BitVec.getLsbD z i) hxy
      simp only [BitVec.getLsbD_xor, BitVec.getLsbD_ushiftRight, habove] at hbit
      exact Bool.xor_left_inj.mp hbit
  exact BitVec.eq_of_getLsbD_eq fun i _ => hbits w i (Nat.le_add_left w i)

end Words
