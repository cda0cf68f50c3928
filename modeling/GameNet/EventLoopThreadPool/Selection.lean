import GameNet.EventLoopThreadPool
import GameNet.Machine

/- The policies of EventLoopThreadPool that keep a cursor (`EventLoopThreadPool.cc`), in a pool with
   worker loops. A loop is named by its index; a call that throws is no step. A selection reads the
   queue of each loop once. -/
namespace GameNet.EventLoopThreadPool

open Machine (Reach Any)

/-! ## Scanning in a circle -/

/-- The best after `k` candidates beyond `start`. -/
def scanFrom (better : Nat → Nat → Bool) (start count : Nat) : Nat → Nat
  | 0 => start
  | k + 1 =>
    let best := scanFrom better start count k
    let candidate := (start + (k + 1)) % count
    if better candidate best then candidate else best

theorem scanFrom_lt {b : Nat → Nat → Bool} {start count : Nat} (hstart : start < count) (k : Nat) :
    scanFrom b start count k < count := by
  induction k with
  | zero => exact hstart
  | succ k ih =>
    rw [scanFrom]
    split
    · exact Nat.mod_lt _ (Nat.zero_lt_of_lt hstart)
    · exact ih

/-- No candidate beats the best of a whole round. -/
theorem scan_best {b : Nat → Nat → Bool} {start count : Nat}
    (hasymm : ∀ i j, b i j = true → b j i = false)
    (hsplit : ∀ i j k, b i j = true → b i k = true ∨ b k j = true)
    (hstart : start < count) {i : Nat} (hi : i < count) :
    b i (scanFrom b start count (count - 1)) = false := by
  have hsofar : ∀ k j, j ≤ k → b ((start + j) % count) (scanFrom b start count k) = false := by
    intro k
    induction k with
    | zero =>
      intro j hj
      rw [Nat.le_zero.mp hj, Nat.add_zero, Nat.mod_eq_of_lt hstart, scanFrom]
      exact Bool.eq_false_iff.mpr fun h => by simp [hasymm _ _ h] at h
    | succ k ih =>
      intro j hj
      rw [scanFrom]
      split
      case isTrue hbetter =>
        refine Bool.eq_false_iff.mpr fun h => ?_
        rcases Nat.le_succ_iff.mp hj with hle | rfl
        · rcases hsplit _ _ (scanFrom b start count k) h with h' | h'
          · simp [ih j hle] at h'
          · simp [hasymm _ _ hbetter] at h'
        · simp [hasymm _ _ h] at h
      case isFalse hnot =>
        rcases Nat.le_succ_iff.mp hj with hle | rfl
        · exact ih j hle
        · exact Bool.eq_false_iff.mpr hnot
  -- the loop `i` is passed on the way round
  have hround : (start + (i + count - start) % count) % count = i := by
    rw [Nat.add_mod_mod, Nat.add_sub_cancel' (by omega), Nat.add_mod_right, Nat.mod_eq_of_lt hi]
  have hpassed := hsofar (count - 1) ((i + count - start) % count)
    (Nat.le_sub_one_of_lt (Nat.mod_lt _ (Nat.zero_lt_of_lt hi)))
  rwa [hround] at hpassed

/-! ## The pool -/

inductive Policy where
  | roundRobin | leastConnections | queueLag

/-- The choices and how many connections were opened are kept as history. -/
structure Pool (loops : Nat) where
  connectionLoads : Nat → Nat := fun _ => 0
  next : Nat := 0
  chosen : List Nat := []
  opened : Nat := 0

/-- How many functors wait in a loop, and since when. -/
abbrev Lag := Nat × Int

/-- `better` of `selectQueueLagIndex` -/
def better (candidate best : Lag) : Bool :=
  candidate.1 == 0 && best.1 != 0 ||
    (candidate.1 == 0) == (best.1 == 0) && candidate.1 != 0 &&
      (candidate.2 > best.2 || candidate.2 == best.2 && candidate.1 < best.1)

section
variable {loops : Nat}

def Pool.selectRoundRobinIndex (p : Pool loops) : Nat := p.next % loops

def Pool.selectLeastConnectionsIndex (p : Pool loops) : Nat :=
  scanFrom (fun i j => p.connectionLoads i < p.connectionLoads j) (p.next % loops) loops (loops - 1)

def Pool.selectQueueLagIndex (p : Pool loops) (lag : Nat → Lag) : Nat :=
  scanFrom (fun i j => better (lag i) (lag j)) (p.next % loops) loops (loops - 1)

inductive Label where
  | selectLoop (lag : Nat → Lag)
  | recordConnectionOpened (index : Nat)
  | recordConnectionClosed (index : Nat)

def step (policy : Policy) (p : Pool loops) : Label → Option (Pool loops)
  | .selectLoop lag =>
    let index := match policy with
      | .roundRobin => p.selectRoundRobinIndex
      | .leastConnections => p.selectLeastConnectionsIndex
      | .queueLag => p.selectQueueLagIndex lag
    some { p with next := (index + 1) % loops, chosen := p.chosen ++ [index] }
  | .recordConnectionOpened index =>
    if loops ≤ index ∨ p.connectionLoads index = 2 ^ 64 - 1 then none
    else some { p with
      connectionLoads := Function.update p.connectionLoads index (p.connectionLoads index + 1)
      opened := p.opened + 1 }
  | .recordConnectionClosed index =>
    if loops ≤ index ∨ p.connectionLoads index = 0 then none
    else some { p with
      connectionLoads := Function.update p.connectionLoads index (p.connectionLoads index - 1) }

theorem turn_succ (hloops : 0 < loops) (k : Nat) :
    (k + 1) / loops = k / loops + (if k % loops + 1 = loops then 1 else 0) ∧
      (k + 1) % loops = if k % loops + 1 = loops then 0 else k % loops + 1 := by
  have hk := Nat.mod_add_div k loops
  have hlt := Nat.mod_lt k hloops
  refine (Nat.div_mod_unique hloops).mpr ?_
  rw [Nat.mul_add]
  split_ifs <;> omega

def Pool.Even (p : Pool loops) : Prop :=
  ∀ i < loops, p.chosen.count i = p.chosen.length / loops + if i < p.chosen.length % loops then 1 else 0

/-- Round robin serves every loop as often as any other, up to the turn that is not complete. -/
theorem roundRobin_even (hloops : 0 < loops) {p : Pool loops}
    (h : Reach (· = {}) (step .roundRobin) Any p) :
    p.Even := by
  refine (Reach.invariant (P := fun p => p.next = p.chosen.length % loops ∧ p.Even) ?_ ?_ h).2
  · rintro _ rfl
    simp [Pool.Even]
  · rintro p l p' ⟨hnext, hcount⟩ - hs
    cases l with
    | selectLoop lag =>
      cases hs
      simp only [Pool.Even, Pool.selectRoundRobinIndex, hnext, Nat.mod_mod, List.length_append,
        List.length_singleton]
      refine ⟨Nat.mod_add_mod .., fun i hi => ?_⟩
      obtain ⟨hdiv, hmod⟩ := turn_succ hloops p.chosen.length
      rw [List.count_append, hcount i hi, List.count_singleton, hdiv, hmod]
      simp only [beq_iff_eq]
      split_ifs <;> omega
    | recordConnectionOpened index | recordConnectionClosed index =>
      simp only [step, Option.ite_none_left_eq_some, Option.some.injEq] at hs
      obtain ⟨-, rfl⟩ := hs
      exact ⟨hnext, hcount⟩

theorem roundRobin_even_five : ∃ p : Pool 3, p.chosen.count 1 = 2 ∧ p.chosen.count 2 = 1 := by
  obtain ⟨p, hr, hp⟩ := Reach.of_run (· = ({} : Pool 3)) (step .roundRobin) Any
    (fun p => p.chosen.length = 5) {} rfl (List.replicate 5 (.selectLoop fun _ => (0, 0))) (by decide)
  have heven := roundRobin_even (by decide) hr
  rw [Pool.Even, hp] at heven
  exact ⟨p, heven 1 (by decide), heven 2 (by decide)⟩

theorem leastConnections_le (hloops : 0 < loops) (p : Pool loops) {i : Nat} (hi : i < loops) :
    p.connectionLoads p.selectLeastConnectionsIndex ≤ p.connectionLoads i := by
  have hbest := scan_best (b := fun i j => p.connectionLoads i < p.connectionLoads j)
    (by simp; omega) (by simp; omega) (Nat.mod_lt p.next hloops) hi
  exact Nat.le_of_not_lt (of_decide_eq_false hbest)

/-- A loop of the pool is taken: one without waiting functors if there is one, otherwise one whose first
    functor came last, and among those one with the fewest. -/
theorem queueLag_least (hloops : 0 < loops) (p : Pool loops) (lag : Nat → Lag) :
    let chosen := lag (p.selectQueueLagIndex lag)
    p.selectQueueLagIndex lag < loops ∧
    ((∃ i < loops, (lag i).1 = 0) → chosen.1 = 0) ∧ ∀ i < loops, chosen.1 ≠ 0 →
      (lag i).2 < chosen.2 ∨ (lag i).2 = chosen.2 ∧ chosen.1 ≤ (lag i).1 := by
  intro chosen
  have hbest : ∀ i < loops, better (lag i) chosen = false := fun i hi =>
    scan_best (b := fun i j => better (lag i) (lag j)) (by simp [better]; omega)
      (by simp [better]; omega) (Nat.mod_lt p.next hloops) hi
  refine ⟨scanFrom_lt (Nat.mod_lt p.next hloops) _, ?_, ?_⟩
  · rintro ⟨i, hi, hidle⟩
    simpa [better, hidle] using hbest i hi
  · intro i hi hbusy
    have := hbest i hi
    simp [better, hbusy] at this
    omega

/-- The last of three loops is idle; or all are busy and its first functor came last. -/
theorem queueLag_least_three : ({} : Pool 3).selectQueueLagIndex (fun i => (2 - i, i)) = 2 ∧
    ({} : Pool 3).selectQueueLagIndex (fun i => (1, i)) = 2 := by
  obtain ⟨hlt, hidle, -⟩ := queueLag_least (by decide) ({} : Pool 3) fun i => (2 - i, i)
  obtain ⟨hlt', -, hbusy⟩ := queueLag_least (by decide) ({} : Pool 3) fun i => (1, i)
  have hzero := hidle ⟨2, by decide, rfl⟩
  have hlatest := hbusy 2 (by decide) Nat.one_ne_zero
  dsimp only at hzero hlatest
  omega

/-- Each connection opens on the loop chosen for it, and none is closed. -/
def OpensChosen (p : Pool loops) : Label → Prop
  | .selectLoop _ => p.chosen.length = p.opened
  | .recordConnectionOpened index => p.chosen.getLast? = some index ∧ p.chosen.length = p.opened + 1
  | .recordConnectionClosed _ => False

instance (p : Pool loops) : (l : Label) → Decidable (OpensChosen p l)
  | .selectLoop _ => inferInstanceAs (Decidable (_ = _))
  | .recordConnectionOpened _ => inferInstanceAs (Decidable (_ ∧ _))
  | .recordConnectionClosed _ => .isFalse id

/-- The loads of two loops differ by at most one as long as connections only open. -/
theorem leastConnections_balances (hloops : 0 < loops) {p : Pool loops}
    (h : Reach (· = {}) (step .leastConnections) OpensChosen p) :
    ∀ i < loops, ∀ j < loops, p.connectionLoads i ≤ p.connectionLoads j + 1 := by
  refine (Reach.invariant (P := fun p : Pool loops =>
    (∀ i < loops, ∀ j < loops, p.connectionLoads i ≤ p.connectionLoads j + 1) ∧
    (p.chosen.length ≠ p.opened → ∀ index, p.chosen.getLast? = some index →
      ∀ j < loops, p.connectionLoads index ≤ p.connectionLoads j)) ?_ ?_ h).1
  · rintro _ rfl
    exact ⟨fun _ _ _ _ => Nat.zero_le _, fun hne => absurd rfl hne⟩
  · rintro p l p' ⟨hnear, hleast⟩ hc hs
    cases l with
    | selectLoop lag =>
      cases hs
      refine ⟨hnear, fun _ index hlast j hj => ?_⟩
      rw [List.getLast?_concat, Option.some.injEq] at hlast
      exact hlast ▸ leastConnections_le hloops p hj
    | recordConnectionOpened index =>
      simp only [step, Option.ite_none_left_eq_some, Option.some.injEq] at hs
      obtain ⟨-, rfl⟩ := hs
      have hmin := hleast (by have := hc.2; omega) index hc.1
      refine ⟨fun i hi j hj => ?_, fun hne => absurd hc.2 hne⟩
      -- the loop that gets the connection had the least load
      have hi' := hmin i hi
      have hj' := hmin j hj
      have hij := hnear i hi j hj
      simp only [Function.update_apply]
      split_ifs <;> subst_vars <;> omega
    | recordConnectionClosed index => exact hc.elim

theorem leastConnections_balances_three : ∃ p : Pool 2, p.opened = 3 ∧
    p.connectionLoads 0 ≤ p.connectionLoads 1 + 1 := by
  obtain ⟨p, hr, hp⟩ := Reach.of_run (· = ({} : Pool 2)) (step .leastConnections) OpensChosen
    (fun p => p.opened = 3) {} rfl
    ((List.range 3).flatMap fun k => [.selectLoop fun _ => (0, 0), .recordConnectionOpened (k % 2)])
    (by decide)
  exact ⟨p, hp, leastConnections_balances (by decide) hr 0 (by decide) 1 (by decide)⟩

end

end GameNet.EventLoopThreadPool
