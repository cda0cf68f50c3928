import GameNet.IoUring.Engine

/- The packed identity of an operation. A slot below the last 32-bit value and a generation of at
   most 31 bits are read back from the word they are packed into, and so is the bit that marks a
   cancel request. Generations stay in that range when they wrap, and never become zero. -/
namespace GameNet.IoUring

/-- The identities that fit the packed word. -/
structure OperationIdentity.Packable (identity : OperationIdentity) : Prop where
  slot : identity.slot.toNat + 1 < 2 ^ 32
  generation : identity.generation.toNat < 2 ^ 31

/-- The packed number without the cancel bit. -/
def OperationIdentity.packed (identity : OperationIdentity) : Nat :=
  2 ^ 32 * identity.generation.toNat + (identity.slot.toNat + 1)

variable {identity : OperationIdentity}

theorem packed_lt (h : identity.Packable) : identity.packed < 2 ^ 63 := by
  have := h.slot
  have := h.generation
  unfold OperationIdentity.packed
  omega

theorem encodeIdentity_toNat (h : identity.Packable) (cancel : Bool) :
    (encodeIdentity identity cancel).toNat = 2 ^ 63 * cancel.toNat + identity.packed := by
  have hslot := h.slot
  have hgen := h.generation
  have hlow : (identity.slot.setWidth 64 + 1).toNat = identity.slot.toNat + 1 := by
    rw [BitVec.toNat_add, BitVec.toNat_setWidth]
    show (identity.slot.toNat % 2 ^ 64 + 1) % 2 ^ 64 = _
    omega
  have hhigh : (identity.generation.setWidth 64 <<< 32).toNat =
      2 ^ 32 * identity.generation.toNat := by
    rw [BitVec.toNat_shiftLeft, BitVec.toNat_setWidth, Nat.shiftLeft_eq]
    omega
  have hencoded : ((identity.generation.setWidth 64 <<< 32) |||
      (identity.slot.setWidth 64 + 1)).toNat = identity.packed := by
    rw [BitVec.toNat_or, hhigh, hlow, ← Nat.two_pow_add_eq_or_of_lt (by omega),
      OperationIdentity.packed]
  cases cancel with
  | false =>
    rw [encodeIdentity, if_neg (by decide), hencoded, Bool.toNat_false]
    omega
  | true =>
    have hbit : kCancelCqeBit.toNat = 2 ^ 63 * 1 := rfl
    rw [encodeIdentity, if_pos rfl, BitVec.toNat_or, hencoded, hbit, Nat.or_comm,
      ← Nat.two_pow_add_eq_or_of_lt (packed_lt h), Bool.toNat_true]

/-- Clearing the cancel bit leaves the packed number. -/
theorem clear_cancel_toNat (h : identity.Packable) (cancel : Bool) :
    (encodeIdentity identity cancel &&& ~~~kCancelCqeBit).toNat = identity.packed := by
  have hmask : (~~~kCancelCqeBit).toNat = 2 ^ 63 - 1 := rfl
  have hlt := packed_lt h
  rw [BitVec.toNat_and, hmask, Nat.and_two_pow_sub_one_eq_mod, encodeIdentity_toNat h,
    Nat.mul_add_mod, Nat.mod_eq_of_lt hlt]

theorem decodeIdentity_encode (h : identity.Packable) (cancel : Bool) :
    decodeIdentity (encodeIdentity identity cancel) = identity := by
  have hslot := h.slot
  have hgen := h.generation
  have hvalue := clear_cancel_toNat h cancel
  unfold OperationIdentity.packed at hvalue
  unfold decodeIdentity
  generalize encodeIdentity identity cancel &&& ~~~kCancelCqeBit = value at hvalue
  have hlow : (value.setWidth 32).toNat = identity.slot.toNat + 1 := by
    rw [BitVec.toNat_setWidth, hvalue]
    omega
  have hne : value.setWidth 32 ≠ 0 := by
    intro hzero
    rw [hzero] at hlow
    exact absurd hlow (by simp)
  have hsl : value.setWidth 32 - 1 = identity.slot := by
    apply BitVec.eq_of_toNat_eq
    rw [BitVec.toNat_sub, hlow]
    show (2 ^ 32 - 1 + (identity.slot.toNat + 1)) % 2 ^ 32 = _
    omega
  have hge : (value >>> 32).setWidth 32 = identity.generation := by
    apply BitVec.eq_of_toNat_eq
    rw [BitVec.toNat_setWidth, BitVec.toNat_ushiftRight, Nat.shiftRight_eq_div_pow, hvalue]
    omega
  simp only [hne, if_false, hsl, hge]

theorem isCancelCqe_encode (h : identity.Packable) (cancel : Bool) :
    isCancelCqe (encodeIdentity identity cancel) = cancel := by
  have hbit : (encodeIdentity identity cancel).getLsbD 63 = cancel := by
    rw [← BitVec.testBit_toNat, encodeIdentity_toNat h, Nat.testBit_two_pow_mul_add _ (packed_lt h)]
    cases cancel <;> rfl
  have hpow : kCancelCqeBit = BitVec.twoPow 64 63 := rfl
  rw [isCancelCqe, hpow, BitVec.and_twoPow, hbit]
  cases cancel <;> rfl

/-! ## Generations -/

theorem nextGeneration_toNat {generation : BitVec 32} (h : generation.toNat < 2 ^ 31) :
    0 < (nextGeneration generation).toNat ∧ (nextGeneration generation).toNat < 2 ^ 31 := by
  have hmax : kMaximumGeneration.toNat = 2 ^ 31 - 1 := rfl
  unfold nextGeneration
  by_cases hlast : generation = kMaximumGeneration
  · rw [if_pos hlast]
    decide
  · have hlt : generation.toNat ≠ 2 ^ 31 - 1 := fun he => hlast (BitVec.eq_of_toNat_eq (by omega))
    have hnext : (generation + 1).toNat = generation.toNat + 1 := by
      rw [BitVec.toNat_add]
      show (generation.toNat + 1) % 2 ^ 32 = _
      omega
    have hne : generation + 1 ≠ 0 := by
      intro hzero
      rw [hzero] at hnext
      exact absurd hnext (by simp)
    rw [if_neg hlast]
    simp only [hne, if_false]
    omega

theorem valid_of_pos (h : 0 < identity.generation.toNat) : identity.valid = true := by
  rw [OperationIdentity.valid, bne_iff_ne]
  intro hzero
  rw [hzero] at h
  exact absurd h (by decide)

end GameNet.IoUring
