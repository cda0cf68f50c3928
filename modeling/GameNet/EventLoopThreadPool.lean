import GameNet.Words

/- The consistent-hash selection of EventLoopThreadPool (`EventLoopThreadPool.cc`). A key gives
   every loop a score, and the loop with the highest score is chosen. The scores are 64-bit words
   with wrapping arithmetic; the indexes are natural numbers, cut to a word where they are scored.

   No two loops of a pool have the same score for a key: the two rounds of `mix64` are injective.
   So the choice is the one loop that beats all others, and a loop that is added takes over the
   keys it wins and moves no other. -/
namespace GameNet.EventLoopThreadPool

/-- `stableKeyHash`: FNV-1a over the bytes of the key. -/
def stableKeyHash (value : List UInt8) : BitVec 64 :=
  value.foldl (fun hash byte => (hash ^^^ byte.toBitVec.setWidth 64) * 1099511628211#64)
    14695981039346656037#64

def mix64 (value : BitVec 64) : BitVec 64 :=
  let value := value + 0x9e3779b97f4a7c15#64
  let value := (value ^^^ (value >>> 30)) * 0xbf58476d1ce4e5b9#64
  let value := (value ^^^ (value >>> 27)) * 0x94d049bb133111eb#64
  value ^^^ (value >>> 31)

/-- The score of the loop at `index`. -/
def score (keyHash : BitVec 64) (index : Nat) : BitVec 64 :=
  mix64 (keyHash ^^^ mix64 (BitVec.ofNat 64 (index + 1)))

/-- `best` and `bestScore` after the first `count` turns of the loop. -/
def scan (keyHash : BitVec 64) : Nat → Nat × BitVec 64
  | 0 => (0, 0#64)
  | index + 1 =>
    let (best, bestScore) := scan keyHash index
    if index = 0 ∨ score keyHash index > bestScore then (index, score keyHash index)
    else (best, bestScore)

/-- `selectConsistentHashIndex`; `none` where it throws because the key is empty. -/
def selectConsistentHashIndex (affinityKey : List UInt8) (selectionLoopCount : Nat) : Option Nat :=
  if affinityKey = [] then none
  else some (scan (stableKeyHash affinityKey) selectionLoopCount).1

/-! ## No ties -/

theorem mix64_injective : Function.Injective mix64 := by
  have hfirst : Function.Injective fun x : BitVec 64 => (x ^^^ (x >>> 30)) * 0xbf58476d1ce4e5b9#64 :=
    (Words.mul_injective (d := 0x96de1b173f119089#64) (by decide)).comp
      (Words.xor_shiftRight_injective (by decide))
  have hsecond : Function.Injective fun x : BitVec 64 => (x ^^^ (x >>> 27)) * 0x94d049bb133111eb#64 :=
    (Words.mul_injective (d := 0x319642b2d24d8ec3#64) (by decide)).comp
      (Words.xor_shiftRight_injective (by decide))
  exact (Words.xor_shiftRight_injective (by decide)).comp
    (hsecond.comp (hfirst.comp (Words.add_injective 0x9e3779b97f4a7c15#64)))

theorem score_injective {keyHash : BitVec 64} {i j : Nat} (hi : i < 2 ^ 64 - 1) (hj : j < 2 ^ 64 - 1)
    (h : score keyHash i = score keyHash j) : i = j := by
  have hword := mix64_injective (Words.xor_injective keyHash (mix64_injective h))
  have hnat := congrArg BitVec.toNat hword
  rw [BitVec.toNat_ofNat, BitVec.toNat_ofNat, Nat.mod_eq_of_lt (by omega),
    Nat.mod_eq_of_lt (by omega)] at hnat
  omega

/-! ## The running maximum -/

/-- After a turn the best loop is the one before or the loop just scored. -/
theorem scan_succ (keyHash : BitVec 64) (n : Nat) :
    scan keyHash (n + 1) = (n, score keyHash n) ∧ (n = 0 ∨ score keyHash n > (scan keyHash n).2) ∨
      scan keyHash (n + 1) = scan keyHash n ∧ n ≠ 0 ∧ ¬ score keyHash n > (scan keyHash n).2 := by
  rw [scan]
  by_cases h : n = 0 ∨ score keyHash n > (scan keyHash n).2
  · exact .inl ⟨if_pos h, h⟩
  · exact .inr ⟨if_neg h, not_or.mp h⟩

/-- What the loop knows after some turns: its best loop is one of those scored, with its score, and
    no other has a higher one. -/
structure Leads (keyHash : BitVec 64) (n : Nat) : Prop where
  scored : (scan keyHash n).1 < n
  score : (scan keyHash n).2 = score keyHash (scan keyHash n).1
  highest : ∀ i < n, EventLoopThreadPool.score keyHash i ≤ (scan keyHash n).2

theorem scan_leads (keyHash : BitVec 64) : ∀ n, 0 < n → Leads keyHash n := by
  intro n
  induction n with
  | zero => exact fun h => absurd h (Nat.lt_irrefl 0)
  | succ n ih =>
    intro _
    rcases scan_succ keyHash n with ⟨heq, hwins⟩ | ⟨heq, hne, hloses⟩
    · constructor <;> rw [heq]
      · exact Nat.lt_succ_self n
      · intro i hi
        rcases Nat.lt_succ_iff_lt_or_eq.mp hi with hlt | rfl
        · have hbefore := (ih (by omega)).highest i hlt
          have hmore := hwins.resolve_left (by omega)
          exact BitVec.le_of_lt (Std.lt_of_le_of_lt hbefore hmore)
        · exact BitVec.le_refl _
    · obtain ⟨hscored, hscore, hhighest⟩ := ih (Nat.pos_of_ne_zero hne)
      constructor <;> rw [heq]
      · exact Nat.lt_succ_of_lt hscored
      · exact hscore
      · intro i hi
        rcases Nat.lt_succ_iff_lt_or_eq.mp hi with hlt | rfl
        · exact hhighest i hlt
        · exact BitVec.not_lt.mp hloses

/-! ## Minimal disruption -/

/-- Adding a loop moves keys to that loop only, no two loops tie for a key, and the choice is the
    loop that beats all others, in whatever order they are looked at. -/
structure MinimallyDisrupted (affinityKey : List UInt8) : Prop where
  disrupts : ∀ n, 1 ≤ n → ∃ index, selectConsistentHashIndex affinityKey n = some index ∧
    (selectConsistentHashIndex affinityKey (n + 1) = some index ∨
      selectConsistentHashIndex affinityKey (n + 1) = some n)
  distinct : ∀ i j, i < 2 ^ 64 - 1 → j < 2 ^ 64 - 1 → i ≠ j →
    score (stableKeyHash affinityKey) i ≠ score (stableKeyHash affinityKey) j
  chosen : ∀ n, 1 ≤ n → n ≤ 2 ^ 64 - 1 → ∀ index, selectConsistentHashIndex affinityKey n = some index ↔
    index < n ∧ ∀ i < n, i ≠ index →
      score (stableKeyHash affinityKey) i < score (stableKeyHash affinityKey) index

theorem consistentHash_disrupts_minimally {affinityKey : List UInt8} (h : affinityKey ≠ []) :
    MinimallyDisrupted affinityKey := by
  have hselect : ∀ n, selectConsistentHashIndex affinityKey n =
      some (scan (stableKeyHash affinityKey) n).1 := fun n => if_neg h
  constructor
  case disrupts =>
    intro n _
    refine ⟨_, hselect n, ?_⟩
    rw [hselect]
    rcases scan_succ (stableKeyHash affinityKey) n with ⟨heq, -⟩ | ⟨heq, -⟩
    · exact .inr (by rw [heq])
    · exact .inl (by rw [heq])
  case distinct => exact fun i j hi hj hne heq => hne (score_injective hi hj heq)
  case chosen =>
    intro n hpos hn index
    obtain ⟨hscored, hscore, hhighest⟩ := scan_leads (stableKeyHash affinityKey) n hpos
    rw [hselect, Option.some.injEq]
    constructor
    · rintro rfl
      refine ⟨hscored, fun i hi hne => ?_⟩
      have hle := hhighest i hi
      rw [hscore] at hle
      refine Std.lt_of_le_of_ne hle fun heq => hne ?_
      exact score_injective (by omega) (by omega) heq
    · rintro ⟨hindex, hbeats⟩
      by_contra hne
      have hless := hbeats _ hscored hne
      rw [← hscore] at hless
      exact BitVec.lt_irrefl _ (Std.lt_of_le_of_lt (hhighest index hindex) hless)

theorem consistentHash_disrupts_minimally_oneByte :
    [(0x61 : UInt8)] ≠ [] ∧ MinimallyDisrupted [0x61] :=
  ⟨by decide, consistentHash_disrupts_minimally (by decide)⟩

end GameNet.EventLoopThreadPool
