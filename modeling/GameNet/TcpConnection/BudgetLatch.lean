import GameNet.TcpConnection.OutputMemory

/- The overload latch of one output-memory budget (`TcpOutputMemoryBudget.cc`) under any number of
   threads. A thread reserves and releases; every access to the byte counter or to the latch is a step,
   with the accesses of `tryReserve` taken from `Budget.tryReserve`.

   What is proved: a refusal by the hard limit above the recovery threshold closes the budget to calls
   that start later, until the counter has been at or below the threshold; every refusal by the limit
   that read a counter above the threshold closes the latch; and a budget at rest at or below the
   threshold admits what fits.

   The first part needs the runs to be timely. A release and the reopening branch of `tryReserve` decide
   on a value of the counter that they have read and clear the latch later, whatever the counter is then.
   The last theorem is a run in which such a store opens a budget that was closed in between. -/
namespace GameNet.TcpOutputMemoryBudget

open TcpConnection (Budget BudgetOptions Pos)
open Function (update update_self update_of_ne)
open Machine (Reach Any)

/-! ## Threads at one budget -/

/-- Where a thread stands. -/
inductive Call where
  | idle
  | reserving (bytes : Nat) (pos : Pos)
  /-- `release` after its `fetch_sub`, with the latch to clear. -/
  | clearing
  deriving DecidableEq, Repr

structure State where
  budget : Budget := {}
  calls : Nat → Call := fun _ => .idle

inductive Label where
  | tryReserve (thread bytes : Nat)
  | release (thread bytes : Nat)
  /-- The next access of the call that the thread is in; a weak compare-exchange may fail on an
      equal word. -/
  | access (thread : Nat) (casFails : Bool)
  deriving DecidableEq, Repr

def Label.thread : Label → Nat
  | .tryReserve i _ | .release i _ | .access i _ => i

/-- The bytes that a call asks for. -/
def Label.bytes : Label → Option Nat
  | .tryReserve _ bytes => some bytes
  | _ => none

def State.set (s : State) (i : Nat) (call : Call) : State :=
  { s with calls := update s.calls i call }

/-- The call of a thread after an access of `tryReserve`. -/
def resume (bytes : Nat) : Pos ⊕ Bool → Call
  | .inl pos => .reserving bytes pos
  | .inr _ => .idle

def step (o : BudgetOptions) (s : State) : Label → Option State
  | .tryReserve i bytes =>
    match s.calls i with
    -- nothing to reserve: the call returns true at once
    | .idle => some (if bytes = 0 then s else s.set i (.reserving bytes .load))
    | _ => none
  | .release i bytes =>
    match s.calls i with
    | .idle =>
      if bytes = 0 then some s
      else (s.budget.release o bytes).map fun r =>
        { s with budget := r.1 }.set i (if r.2 then .clearing else .idle)
    | _ => none
  | .access i casFails =>
    match s.calls i with
    | .idle => none
    | .reserving bytes pos =>
      let r := s.budget.tryReserve o bytes casFails pos
      some ({ s with budget := r.1 }.set i (resume bytes r.2))
    | .clearing => some ({ s with budget := { s.budget with overloaded := false } }.set i .idle)

/-- What `tryReserve` returns in a step. -/
def returned (o : BudgetOptions) (s : State) : Label → Option Bool
  | .tryReserve _ bytes => if bytes = 0 then some true else none
  | .release _ _ => none
  | .access i casFails =>
    match s.calls i with
    | .reserving bytes pos => (s.budget.tryReserve o bytes casFails pos).2.getRight?
    | _ => none

/-- The step returns false, and not because the latch was found closed. -/
def refusedByLimit (o : BudgetOptions) (s : State) (l : Label) : Prop :=
  returned o s l = some false ∧
    match s.calls l.thread with
    | .reserving _ (.latch _) => s.budget.overloaded = false
    | _ => True

/-- The step opens the latch. -/
def opens (s : State) : Label → Bool
  | .access i _ =>
    match s.calls i with
    | .reserving _ .clear | .clearing => true
    | _ => false
  | _ => false

/-- The thread tests an open latch, with a counter value at or below the threshold beside which its
    bytes do not fit: the single oversized request that must not shut out smaller ones. -/
def oversized (o : BudgetOptions) (s : State) : Label → Bool
  | .access i _ =>
    match s.calls i with
    | .reserving bytes (.latch current) =>
      !s.budget.overloaded && decide (current ≤ o.recoveryThresholdBytes) &&
        decide (o.hardLimitBytes < current + bytes)
    | _ => false
  | _ => false

/-- Calls reserve something, and a step that opens the latch, or tests it for an oversized request, is
    taken while the counter is what it decided on: at or below the threshold. -/
def Timely (o : BudgetOptions) (s : State) (l : Label) : Prop :=
  l.bytes ≠ some 0 ∧
    (opens s l = true ∨ oversized o s l = true →
      s.budget.pendingBytes ≤ o.recoveryThresholdBytes)

def Init (s : State) : Prop := s = {}

/-- A timely step above the threshold. -/
def Above (o : BudgetOptions) (s : State) (l : Label) : Prop :=
  Timely o s l ∧ o.recoveryThresholdBytes < s.budget.pendingBytes

/-! ## The latch stays closed -/

section
variable {o : BudgetOptions} {s s' : State} {l : Label} {j : Nat}

/-- An access of `tryReserve` opens the latch in one place only. -/
theorem tryReserve_overloaded {b : Budget} {bytes : Nat} {casFails : Bool} {pos : Pos}
    (hpos : pos ≠ .clear) (h : b.overloaded = true) :
    (b.tryReserve o bytes casFails pos).1.overloaded = true := by
  cases pos with
  | load => exact h
  | latch current =>
    rw [Budget.tryReserve]
    rw [if_pos h]
    split <;> exact h
  | clear => exact absurd rfl hpos
  | setLatch => rfl
  | cas current =>
    rw [Budget.tryReserve]
    split <;> exact h

/-- What a step does. -/
inductive Stepped (o : BudgetOptions) (s : State) (l : Label) (s' : State) : Prop where
  | nothing (hs : s' = s)
  | began (i bytes : Nat) (hs : s' = s.set i (.reserving bytes .load))
  | released (i bytes : Nat) (b : Budget) (call : Call)
      (hoverloaded : b.overloaded = s.budget.overloaded) (hcall : call = .clearing ∨ call = .idle)
      (hs : s' = State.set { s with budget := b } i call)
  | accessed (i : Nat) (casFails : Bool) (bytes : Nat) (pos : Pos) (hl : l = .access i casFails)
      (hcall : s.calls i = .reserving bytes pos)
      (hs : s' = State.set { s with budget := (s.budget.tryReserve o bytes casFails pos).1 } i
        (resume bytes (s.budget.tryReserve o bytes casFails pos).2))
  | cleared (i : Nat) (casFails : Bool) (hl : l = .access i casFails) (hcall : s.calls i = .clearing)
      (hs : s' = State.set { s with budget := { s.budget with overloaded := false } } i .idle)

theorem step_cases (hs : step o s l = some s') : Stepped o s l s' := by
  cases l with
  | tryReserve i bytes =>
    simp only [step] at hs
    split at hs
    · cases hs
      split
      · exact .nothing rfl
      · exact .began i bytes rfl
    · cases hs
  | release i bytes =>
    simp only [step] at hs
    split at hs
    · split at hs
      · cases hs
        exact .nothing rfl
      · obtain ⟨r, hr, rfl⟩ := Option.map_eq_some_iff.mp hs
        unfold Budget.release at hr
        split at hr
        · cases hr
        · cases hr
          refine .released i bytes { s.budget with pendingBytes := s.budget.pendingBytes - bytes } _ rfl ?_ rfl
          split
          · exact .inl rfl
          · exact .inr rfl
    · cases hs
  | access i casFails =>
    simp only [step] at hs
    split at hs
    case h_1 => cases hs
    case h_2 bytes pos hcall =>
      cases hs
      exact .accessed i casFails bytes pos rfl hcall rfl
    case h_3 hcall =>
      cases hs
      exact .cleared i casFails rfl hcall rfl

/-- Above the threshold a timely step leaves a closed latch closed. -/
theorem step_overloaded (hc : Above o s l) (hs : step o s l = some s')
    (h : s.budget.overloaded = true) : s'.budget.overloaded = true := by
  obtain ⟨⟨-, htimely⟩, habove⟩ := hc
  -- The two accesses that open the latch are not taken above the threshold.
  have hnot : opens s l ≠ true := by
    intro hopens
    have hle := htimely (.inl hopens)
    omega
  cases step_cases hs with
  | nothing hs =>
    rw [hs]
    exact h
  | began i bytes hs =>
    rw [hs]
    exact h
  | released i bytes b call hoverloaded hcall hs =>
    rw [hs]
    exact hoverloaded.trans h
  | accessed i casFails bytes pos hl hcall hs =>
    rw [hs]
    refine tryReserve_overloaded ?_ h
    rintro rfl
    refine hnot ?_
    rw [hl]
    simp only [opens, hcall]
  | cleared i casFails hl hcall hs =>
    refine absurd ?_ hnot
    rw [hl]
    simp only [opens, hcall]

/-- The latch is closed, and the thread is not at its compare-exchange. -/
def Kept (s : State) (j : Nat) : Prop :=
  s.budget.overloaded = true ∧ ∀ bytes current, s.calls j ≠ .reserving bytes (.cas current)

theorem Kept.set {i : Nat} {b : Budget} {call : Call} (h : Kept s j) (hb : b.overloaded = true)
    (hcall : i = j → ∀ bytes current, call ≠ .reserving bytes (.cas current)) :
    Kept (State.set { s with budget := b } i call) j := by
  refine ⟨hb, fun bytes current => ?_⟩
  show update s.calls i call j ≠ _
  by_cases hij : i = j
  · rw [hij, update_self]
    exact hcall hij bytes current
  · rw [update_of_ne (Ne.symm hij)]
    exact h.2 bytes current

/-- A call that finds the latch closed is refused, or goes to open it. -/
theorem resume_ne_cas {b : Budget} {bytes current : Nat} {casFails : Bool} {pos : Pos}
    (h : b.overloaded = true) (hpos : ∀ current, pos ≠ .cas current) (n : Nat) :
    resume bytes (b.tryReserve o bytes casFails pos).2 ≠ .reserving n (.cas current) := by
  cases pos with
  | load => rintro ⟨⟩
  | latch value =>
    rw [Budget.tryReserve]
    rw [if_pos h]
    split <;> rintro ⟨⟩
  | clear => rintro ⟨⟩
  | setLatch => rintro ⟨⟩
  | cas value => exact absurd rfl (hpos value)

theorem step_kept (hc : Above o s l) (hs : step o s l = some s') (h : Kept s j) : Kept s' j := by
  have hover := step_overloaded hc hs h.1
  cases step_cases hs with
  | nothing hs =>
    rw [hs]
    exact h
  | began i bytes hs =>
    rw [hs]
    exact h.set (b := s.budget) h.1 fun _ => nofun
  | released i bytes b call hoverloaded hcall hs =>
    rw [hs] at hover ⊢
    refine h.set hover fun _ n current => ?_
    rcases hcall with rfl | rfl <;> exact nofun
  | accessed i casFails bytes pos hl hcall hs =>
    rw [hs] at hover ⊢
    refine h.set hover fun hij n current => resume_ne_cas h.1 (fun value hpos => ?_) n
    rw [hij, hpos] at hcall
    exact h.2 bytes value hcall
  | cleared i casFails hl hcall hs =>
    rw [hs] at hover ⊢
    exact h.set hover fun _ => nofun

/-- What a refusal by the limit is: the latch is closed by it, or the request was oversized, and then
    the budget is left as it is. -/
theorem refused_cases (hs : step o s l = some s') (hrefused : refusedByLimit o s l) :
    s'.budget.overloaded = true ∨ oversized o s l = true ∧ s'.budget = s.budget := by
  obtain ⟨hreturned, hreason⟩ := hrefused
  cases l with
  | tryReserve i bytes =>
    simp only [returned] at hreturned
    split at hreturned <;> cases hreturned
  | release i bytes => cases hreturned
  | access i casFails =>
    simp only [returned] at hreturned
    split at hreturned
    case h_2 => cases hreturned
    case h_1 bytes pos hcall =>
      simp only [step, hcall, Option.some.injEq] at hs
      rw [← hs]
      cases pos with
      | load => cases hreturned
      | latch current =>
        have hopen : s.budget.overloaded = false := by simpa only [Label.thread, hcall] using hreason
        rw [Budget.tryReserve, if_neg (by rw [hopen]; exact Bool.false_ne_true)] at hreturned ⊢
        -- Of the two ways on from bytes that do not fit, the one that returns has read a low counter.
        split at hreturned
        case isFalse => cases hreturned
        case isTrue hlimit =>
          split at hreturned
          case isTrue => cases hreturned
          case isFalse hlow =>
            rw [if_pos hlimit, if_neg hlow]
            have hover : o.hardLimitBytes < current + bytes := by omega
            right
            simp [oversized, hcall, hopen, Nat.le_of_not_lt hlow, hover, State.set]
      | clear => cases hreturned
      | setLatch => exact .inl rfl
      | cas current =>
        rw [Budget.tryReserve] at hreturned
        split at hreturned <;> cases hreturned

/-- A timely refusal by the limit above the threshold closes the latch. -/
theorem refused_overloaded (hc : Timely o s l) (hs : step o s l = some s')
    (hrefused : refusedByLimit o s l) (habove : o.recoveryThresholdBytes < s'.budget.pendingBytes) :
    s'.budget.overloaded = true := by
  rcases refused_cases hs hrefused with hclosed | ⟨hoversized, hbudget⟩
  · exact hclosed
  · have hle := hc.2 (.inr hoversized)
    rw [hbudget] at habove
    exact absurd hle (Nat.not_le_of_lt habove)

/-- A thread in front of a closed latch is not admitted. -/
theorem Kept.not_admitted (h : Kept s l.thread) (hc : Timely o s l) : returned o s l ≠ some true := by
  cases l with
  | tryReserve i bytes =>
    have hne : bytes ≠ 0 := by
      rintro rfl
      exact hc.1 rfl
    rw [returned, if_neg hne]
    simp
  | release i bytes => rintro ⟨⟩
  | access i casFails =>
    simp only [returned]
    split
    case h_2 => simp
    case h_1 bytes pos hcall =>
      cases pos with
      | load => rintro ⟨⟩
      | latch current =>
        rw [Budget.tryReserve, if_pos h.1]
        split <;> simp
      | clear => rintro ⟨⟩
      | setLatch => rintro ⟨⟩
      | cas current => exact absurd hcall (h.2 bytes current)

end

/-! ## At rest -/

/-- The accesses of a call of `bytes` by thread `i` that runs alone, with the answers of the
    compare-exchanges. -/
def alone (i bytes : Nat) (fails : List Bool) : List Label :=
  .tryReserve i bytes :: fails.map (.access i)

/-- The call is admitted: at once if there is nothing to reserve, and otherwise when it runs alone, where
    it is never refused and returns true by the sixth access if no compare-exchange fails. -/
def Admitted (o : BudgetOptions) (s : State) (i bytes : Nat) : Prop :=
  returned o s (.tryReserve i bytes) = some true ∨
    (∀ fails s' f, Machine.run (step o) Any s (alone i bytes fails) = some s' →
      returned o s' (.access i f) ≠ some false) ∧
    ∃ n s', n < 6 ∧
      Machine.run (step o) Any s (alone i bytes (List.replicate n false)) = some s' ∧
      returned o s' (.access i false) = some true

section
variable {o : BudgetOptions} {s s' : State} {i bytes : Nat}

/-- The thread is in a call, at `pos`, and the budget is `b`. -/
def At (s : State) (i bytes : Nat) (pos : Pos) (b : Budget) : Prop :=
  s.calls i = .reserving bytes pos ∧ s.budget = b

/-- An access of a call that goes on. -/
theorem At.next {pos pos' : Pos} {b b' : Budget} {f : Bool} (h : At s i bytes pos b)
    (hnext : b.tryReserve o bytes f pos = (b', .inl pos')) :
    ∃ s', step o s (.access i f) = some s' ∧ At s' i bytes pos' b' := by
  obtain ⟨hcall, rfl⟩ := h
  refine ⟨State.set { s with budget := b' } i (.reserving bytes pos'), ?_, ?_, rfl⟩
  · simp only [step, hcall, hnext, resume]
  · show update s.calls i _ i = _
    rw [update_self]

theorem tryReserve_at (h : s.calls i = .idle) (hbytes : bytes ≠ 0) :
    ∃ s', step o s (.tryReserve i bytes) = some s' ∧ At s' i bytes .load s.budget := by
  refine ⟨s.set i (.reserving bytes .load), ?_, ?_, rfl⟩
  · simp only [step, h, if_neg hbytes]
  · show update s.calls i _ i = _
    rw [update_self]

/-- Where a call of a lone thread can be, with `p` bytes pending. -/
def Alone (s : State) (i bytes p : Nat) : Prop :=
  s.calls i = .idle ∨ ∃ pos overloaded, At s i bytes pos ⟨p, overloaded⟩ ∧
    (pos = .load ∨ pos = .latch p ∨ pos = .clear ∨ pos = .cas p)

/-- A lone call that fits a counter at or below the threshold goes on or is admitted. -/
theorem Alone.access {p : Nat} {f : Bool} (h : Alone s i bytes p)
    (hp : p ≤ o.recoveryThresholdBytes) (hfits : bytes ≤ o.hardLimitBytes - p) :
    returned o s (.access i f) ≠ some false ∧
      ∀ s', step o s (.access i f) = some s' → Alone s' i bytes p := by
  have hhard := o.recovery_lt_hard
  rcases h with hidle | ⟨pos, overloaded, hat, hpos⟩
  · simp only [returned, step, hidle]
    exact ⟨by simp, by simp⟩
  · obtain ⟨hcall, hbudget⟩ := hat
    simp only [returned, hcall, hbudget]
    -- An access that goes on to a place of the list.
    have hnext : ∀ (pos' : Pos) (ov : Bool),
        Budget.tryReserve o ⟨p, overloaded⟩ bytes f pos = (⟨p, ov⟩, .inl pos') →
        (pos' = .load ∨ pos' = .latch p ∨ pos' = .clear ∨ pos' = .cas p) →
        (Budget.tryReserve o ⟨p, overloaded⟩ bytes f pos).2.getRight? ≠ some false ∧
          ∀ s', step o s (.access i f) = some s' → Alone s' i bytes p := by
      intro pos' ov heq hpos'
      refine ⟨by rw [heq]; simp, fun s' hs => ?_⟩
      obtain ⟨s₁, hs₁, hat₁⟩ := At.next ⟨hcall, hbudget⟩ heq
      cases hs.symm.trans hs₁
      exact .inr ⟨pos', ov, hat₁, hpos'⟩
    rcases hpos with rfl | rfl | rfl | rfl
    · exact hnext (.latch p) overloaded rfl (.inr (.inl rfl))
    · cases overloaded with
      | true =>
        refine hnext .clear true ?_ (.inr (.inr (.inl rfl)))
        rw [Budget.tryReserve, if_pos rfl, if_neg (Nat.not_lt_of_le hp)]
      | false =>
        refine hnext (.cas p) false ?_ (.inr (.inr (.inr rfl)))
        rw [Budget.tryReserve, if_neg Bool.false_ne_true, if_neg (by omega)]
    · exact hnext .load false rfl (.inl rfl)
    · by_cases hf : f = false
      · subst hf
        refine ⟨?_, fun s' hs => .inl ?_⟩
        · rw [Budget.tryReserve, if_pos ⟨rfl, rfl⟩]
          simp
        · simp only [step, hcall, hbudget, Budget.tryReserve, true_and, if_true, resume,
            Option.some.injEq] at hs
          rw [← hs]
          show update s.calls i _ i = _
          rw [update_self]
      · refine hnext (.latch p) overloaded ?_ (.inr (.inl rfl))
        rw [Budget.tryReserve, if_neg fun hboth => hf hboth.1]

theorem Alone.run {p : Nat} (hp : p ≤ o.recoveryThresholdBytes)
    (hfits : bytes ≤ o.hardLimitBytes - p) (fails : List Bool) (h : Alone s i bytes p)
    (hrun : Machine.run (step o) Any s (fails.map (.access i)) = some s') :
    Alone s' i bytes p := by
  induction fails generalizing s with
  | nil =>
    cases hrun
    exact h
  | cons f fails ih =>
    simp only [List.map_cons, Machine.run, if_pos (show Any s _ from trivial)] at hrun
    obtain ⟨s₁, hs₁, hrun⟩ := Option.bind_eq_some_iff.mp hrun
    exact ih ((h.access hp hfits).2 s₁ hs₁) hrun

/-- A lone call at its last access. -/
theorem At.admitted {p : Nat} {overloaded : Bool} (h : At s i bytes (.cas p) ⟨p, overloaded⟩) :
    returned o s (.access i false) = some true := by
  obtain ⟨hcall, hbudget⟩ := h
  simp only [returned, hcall, hbudget, Budget.tryReserve, true_and, if_true]
  rfl

/-- From the check of an open latch one access is left. -/
theorem At.latch {p : Nat} (h : At s i bytes (.latch p) ⟨p, false⟩)
    (hp : p ≤ o.recoveryThresholdBytes) (hfits : bytes ≤ o.hardLimitBytes - p) :
    ∃ s', step o s (.access i false) = some s' ∧ At s' i bytes (.cas p) ⟨p, false⟩ := by
  have hhard := o.recovery_lt_hard
  refine h.next ?_
  rw [Budget.tryReserve, if_neg Bool.false_ne_true, if_neg (by omega)]

theorem admitted_alone (hidle : s.calls i = .idle)
    (hp : s.budget.pendingBytes ≤ o.recoveryThresholdBytes)
    (hfits : bytes ≤ o.hardLimitBytes - s.budget.pendingBytes) : Admitted o s i bytes := by
  by_cases hbytes : bytes = 0
  · left
    rw [returned, if_pos hbytes]
  right
  obtain ⟨s₀, hs₀, hat₀⟩ := tryReserve_at (o := o) hidle hbytes
  rcases hbudget : s.budget with ⟨p, overloaded⟩
  rw [hbudget] at hp hfits hat₀
  constructor
  · intro fails s' f hrun
    simp only [alone, Machine.run, if_pos (show Any s _ from trivial), hs₀,
      Option.bind_some] at hrun
    exact (Alone.access (Alone.run hp hfits fails (.inr ⟨_, _, hat₀, .inl rfl⟩) hrun) hp hfits).1
  · obtain ⟨s₁, hs₁, hat₁⟩ := hat₀.next (o := o) (f := false) rfl
    cases overloaded with
    | false =>
      obtain ⟨s₂, hs₂, hat₂⟩ := hat₁.latch hp hfits
      refine ⟨2, s₂, by decide, ?_, hat₂.admitted⟩
      simp only [alone, List.replicate, List.map, Machine.run, Any, if_true, hs₀, hs₁, hs₂,
        Option.bind_some]
    | true =>
      -- The latch is found closed, opened, and the counter read again.
      obtain ⟨s₂, hs₂, hat₂⟩ := hat₁.next (o := o) (f := false) (by
        rw [Budget.tryReserve, if_pos rfl, if_neg (Nat.not_lt_of_le hp)])
      obtain ⟨s₃, hs₃, hat₃⟩ := hat₂.next (o := o) (f := false) rfl
      obtain ⟨s₄, hs₄, hat₄⟩ := hat₃.next (o := o) (f := false) rfl
      obtain ⟨s₅, hs₅, hat₅⟩ := hat₄.latch hp hfits
      refine ⟨5, s₅, by decide, ?_, hat₅.admitted⟩
      simp only [alone, List.replicate, List.map, Machine.run, Any, if_true, hs₀, hs₁, hs₂, hs₃,
        hs₄, hs₅, Option.bind_some]

end

/-- In timely runs a refusal by the hard limit above the threshold keeps every later call out while the
    counter stays above the threshold. In all runs a refusal by the hard limit closes the latch unless
    the request was oversized, and a budget at rest at or below the threshold admits what fits. -/
theorem overload_latch (o : BudgetOptions) :
    (∀ s₀ l₀ s₁, Reach Init (step o) (Timely o) s₀ → Timely o s₀ l₀ →
      step o s₀ l₀ = some s₁ → refusedByLimit o s₀ l₀ →
      o.recoveryThresholdBytes < s₁.budget.pendingBytes →
      ∀ s₂, Reach (· = s₁) (step o) (Above o) s₂ →
      ∀ l, s₂.calls l.thread = .idle →
      ∀ s, Reach (· = s₂) (step o) (Above o) s → Above o s l → returned o s l ≠ some true) ∧
    (∀ s l s', Reach Init (step o) Any s → step o s l = some s' →
      refusedByLimit o s l → oversized o s l = false → s'.budget.overloaded = true) ∧
    (∀ s, Reach Init (step o) Any s → (∀ j, s.calls j = .idle) →
      s.budget.pendingBytes ≤ o.recoveryThresholdBytes →
      ∀ i bytes, bytes ≤ o.hardLimitBytes - s.budget.pendingBytes → Admitted o s i bytes) := by
  refine ⟨?_, ?_, fun s _ hidle hp i bytes hfits => admitted_alone (hidle i) hp hfits⟩
  · intro s₀ l₀ s₁ _ htimely hstep hrefused habove s₂ hpath l hidle s hpath' hc
    have hclosed : s₂.budget.overloaded = true :=
      Reach.invariant (P := fun s => s.budget.overloaded = true)
        (by rintro _ rfl; exact refused_overloaded htimely hstep hrefused habove)
        (fun _ _ _ hi hc hs => step_overloaded hc hs hi) hpath
    -- The call starts in front of the closed latch and stays there.
    have hkept : Kept s l.thread :=
      Reach.invariant (P := fun s => Kept s l.thread)
        (by
          rintro _ rfl
          refine ⟨hclosed, fun bytes current hcall => ?_⟩
          rw [hidle] at hcall
          cases hcall)
        (fun _ _ _ hi hc hs => step_kept hc hs hi) hpath'
    exact hkept.not_admitted hc.1
  · intro s l s' _ hs hrefused hsized
    rcases refused_cases hs hrefused with hclosed | ⟨hoversized, -⟩
    · exact hclosed
    · rw [hsized] at hoversized
      cases hoversized

theorem recovers_early : 1 < 4 := by decide

/-- A limit of four bytes, reopened at one. -/
def fourBytes : BudgetOptions where
  hardLimitBytes := 4
  recoveryThresholdBytes := 1
  recovery_lt_hard := recovers_early

instance (o : BudgetOptions) (s : State) (l : Label) : Decidable (Timely o s l) :=
  inferInstanceAs (Decidable (_ ∧ (_ → _)))

instance (o : BudgetOptions) (s : State) (l : Label) : Decidable (Above o s l) :=
  inferInstanceAs (Decidable (_ ∧ _))

/-- The state after some steps. -/
def after (s : State) (ls : List Label) : State :=
  (Machine.run (step fourBytes) Any s ls).getD s

/-- Two bytes are reserved, three more are refused, and one more after that does not get in. -/
theorem overload_latch_refused :
    ∃ s : State, s.budget = ⟨2, true⟩ ∧ s.calls 2 = .reserving 1 (.latch 2) ∧
      returned fourBytes s (.access 2 false) ≠ some true := by
  let ls : List Label := [.tryReserve 0 2, .access 0 false, .access 0 false, .access 0 false,
    .tryReserve 1 3, .access 1 false, .access 1 false]
  let s₀ := after {} ls
  let s₁ := after s₀ [.access 1 false]
  let s := after s₁ [.tryReserve 2 1, .access 2 false]
  refine ⟨s, rfl, rfl, ?_⟩
  have hreach : Reach Init (step fourBytes) (Timely fourBytes) s₀ :=
    Reach.run_of (.start rfl) ls (by rfl)
  have hpath : Reach (· = s₁) (step fourBytes) (Above fourBytes) s :=
    Reach.run_of (.start rfl) [.tryReserve 2 1, .access 2 false] (by rfl)
  exact (overload_latch fourBytes).1 s₀ (.access 1 false) s₁ hreach (by decide) rfl ⟨rfl, trivial⟩
    (by decide) s₁ (.start rfl) (.access 2 false) rfl s hpath (by decide)

/-- A release that reads zero bytes left is overtaken: two bytes are reserved, three more are refused and
    close the budget, and then the release opens it. One more byte is admitted, and the counter was never
    at the threshold in between. -/
theorem stale_release_opens :
    ∃ s₀ s₁ s₂ s : State, Reach Init (step fourBytes) Any s₀ ∧
      step fourBytes s₀ (.access 1 false) = some s₁ ∧
      refusedByLimit fourBytes s₀ (.access 1 false) ∧
      fourBytes.recoveryThresholdBytes < s₁.budget.pendingBytes ∧
      Reach (· = s₁) (step fourBytes)
        (fun s _ => fourBytes.recoveryThresholdBytes < s.budget.pendingBytes) s₂ ∧
      s₂.calls 2 = .idle ∧
      Reach (· = s₂) (step fourBytes)
        (fun s _ => fourBytes.recoveryThresholdBytes < s.budget.pendingBytes) s ∧
      fourBytes.recoveryThresholdBytes < s.budget.pendingBytes ∧
      returned fourBytes s (.access 2 false) = some true := by
  let ls : List Label := [.tryReserve 0 2, .access 0 false, .access 0 false, .access 0 false,
    .release 0 2, .tryReserve 1 2, .access 1 false, .access 1 false, .access 1 false,
    .tryReserve 1 3, .access 1 false, .access 1 false]
  let s₀ := after {} ls
  let s₁ := after s₀ [.access 1 false]
  let s₂ := after s₁ [.access 0 false]
  let s := after s₂ [.tryReserve 2 1, .access 2 false, .access 2 false]
  refine ⟨s₀, s₁, s₂, s, ?_, rfl, ⟨rfl, trivial⟩, by decide, ?_, rfl, ?_, by decide, rfl⟩
  · exact Reach.run_of (.start rfl) ls (by rfl)
  · exact Reach.run_of (.start rfl) [.access 0 false] (by rfl)
  · exact Reach.run_of (.start rfl) [.tryReserve 2 1, .access 2 false, .access 2 false] (by rfl)

end GameNet.TcpOutputMemoryBudget
