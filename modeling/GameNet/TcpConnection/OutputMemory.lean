import Mathlib.Algebra.BigOperators.Group.Finset.Basic
import Mathlib.Algebra.Order.BigOperators.Group.Finset
import GameNet.TcpConnection.Owner

/- The output-memory budgets (`TcpOutputMemoryBudget.cc`) and any number of connections that
   share them. A send reserves its bytes at the connection, then at the loop's, the server's
   and the global budget, one compare-exchange loop after the other; a refusal gives back what
   was taken, and a release goes through the budgets in the other order.

   The connections run as in `Model`; two operations of a connection's thread reach the budgets.
   While one of them is on top of a thread's stack, the thread has a position (`Pc`) in the
   budgets' own code, and every access to a budget's word or latch is a step.

   What is proved: no count passes its limit, no release underflows, and a budget holds at every
   moment what its connections hold and what their threads have charged. -/
namespace GameNet.TcpConnection

open Function (update update_self update_of_ne update_eq_self)
open Machine (Reach Any)

/-! ## Budgets -/

/-- `TcpOutputMemoryBudgetOptions` as `validate` accepts them. -/
structure BudgetOptions where
  hardLimitBytes : Nat
  recoveryThresholdBytes : Nat
  recovery_lt_hard : recoveryThresholdBytes < hardLimitBytes

/-- `TcpOutputMemoryBudget`; the peak and the rejected reservations are only reported. -/
structure Budget where
  pendingBytes : Nat := 0
  overloaded : Bool := false
  deriving DecidableEq, Repr

/-- Where a thread stands in the loop of `tryReserve`. -/
inductive Pos where
  | load
  | latch (current : Nat)
  | clear
  | setLatch
  | cas (current : Nat)
  deriving DecidableEq, Repr

/-- The next access of `TcpOutputMemoryBudget::tryReserve`; it goes on, or returns its answer. -/
def Budget.tryReserve (o : BudgetOptions) (b : Budget) (bytes : Nat) (casFails : Bool) :
    Pos → Budget × (Pos ⊕ Bool)
  | .load => (b, .inl (.latch b.pendingBytes))
  | .latch current =>
    if b.overloaded then
      if o.recoveryThresholdBytes < current then (b, .inr false) else (b, .inl .clear)
    else if o.hardLimitBytes < current ∨ o.hardLimitBytes - current < bytes then
      if o.recoveryThresholdBytes < current then (b, .inl .setLatch) else (b, .inr false)
    else (b, .inl (.cas current))
  | .clear => ({ b with overloaded := false }, .inl .load)
  | .setLatch => ({ b with overloaded := true }, .inr false)
  | .cas current =>
    if casFails = false ∧ b.pendingBytes = current then
      ({ b with pendingBytes := current + bytes }, .inr true)
    else (b, .inl (.latch b.pendingBytes))

/-- The `fetch_sub` of `TcpOutputMemoryBudget::release`, and whether the latch is cleared after it;
    an underflow is fatal. -/
def Budget.release (o : BudgetOptions) (b : Budget) (bytes : Nat) : Option (Budget × Bool) :=
  if b.pendingBytes < bytes then none
  else some ({ b with pendingBytes := b.pendingBytes - bytes },
    b.pendingBytes - bytes ≤ o.recoveryThresholdBytes)

inductive Scope where
  | loop
  | server
  | global
  deriving DecidableEq, Repr

def Scope.refusal : Scope → TcpSendResult
  | .loop => .loopOverloaded
  | .server => .serverOverloaded
  | .global => .globalOverloaded

/-- A budget that a connection was given, and in which place. -/
structure Attachment where
  scope : Scope
  budget : Nat
  deriving DecidableEq, Repr

/-! ## A thread at the budgets -/

/-- How far the operation on top of a thread's stack has come at the budgets. -/
inductive Pc where
  /-- The budgets that have been charged, the last one first, and those to come. -/
  | reserve (charged left : List Attachment) (pos : Pos)
  /-- A refusal gives back `left`; `unlatch` is a latch that is still to be cleared. -/
  | undo (left : List Attachment) (refusal : TcpSendResult) (unlatch : Option Nat)
  | answered (refusal : Option TcpSendResult)
  | release (left : List Attachment) (unlatch : Option Nat)
  deriving DecidableEq, Repr

/-- The next access of a thread whose top operation is `op`. -/
def advance (limits : Nat → BudgetOptions) (budgets : Nat → Budget) (scopes : List Attachment)
    (casFails : Bool) (op : Op) : Option Pc → Option ((Nat → Budget) × Pc)
  | none =>
    match op with
    | .reserveBudgets _ => some (budgets, .reserve [] scopes .load)
    | .release _ => some (budgets, .release scopes.reverse none)
    | _ => none
  | some (.reserve _ [] _) => some (budgets, .answered none)
  | some (.reserve charged (x :: left) pos) =>
    match (budgets x.budget).tryReserve (limits x.budget) op.held casFails pos with
    | (b, .inl pos') => some (update budgets x.budget b, .reserve charged (x :: left) pos')
    | (b, .inr true) => some (update budgets x.budget b, .reserve (x :: charged) left .load)
    | (b, .inr false) =>
      some (update budgets x.budget b, .undo charged x.scope.refusal none)
  | some (.undo left r (some k)) =>
    some (update budgets k { budgets k with overloaded := false }, .undo left r none)
  | some (.undo [] r none) => some (budgets, .answered (some r))
  | some (.undo (x :: left) r none) =>
    ((budgets x.budget).release (limits x.budget) op.held).map fun b =>
      (update budgets x.budget b.1,
        .undo left r (if b.2 then some x.budget else none))
  | some (.answered _) => none
  | some (.release left (some k)) =>
    some (update budgets k { budgets k with overloaded := false }, .release left none)
  | some (.release [] none) => none
  | some (.release (x :: left) none) =>
    ((budgets x.budget).release (limits x.budget) op.held).map fun b =>
      (update budgets x.budget b.1, .release left (if b.2 then some x.budget else none))

/-! ## Connections that share budgets -/

inductive Thread where
  | owner
  | remote (j : Nat)
  deriving DecidableEq, Repr

/-- What is given with the connections: their options, the budgets they are attached to (loop,
    server, global, in this order), and the limits of the budgets. -/
structure Config where
  connections : Nat
  options : Nat → Options
  scopes : Nat → List Attachment
  limits : Nat → BudgetOptions

structure Shared where
  conn : Nat → State := fun _ => {}
  pc : Nat → Thread → Option Pc := fun _ _ => none
  budget : Nat → Budget := fun _ => {}

inductive SharedLabel where
  /-- A step of a connection. -/
  | conn (i : Nat) (l : Label)
  /-- The next access of a thread of a connection to a budget. -/
  | budget (i : Nat) (t : Thread) (casFails : Bool)
  deriving DecidableEq, Repr

def State.stack (s : State) : Thread → List Op
  | .owner => s.owner
  | .remote j => s.remotes[j]?.getD []

/-- The thread whose operation a label executes, and the answer it gets. -/
def Label.executes : Label → Option (Thread × Env)
  | .own env => some (.owner, env)
  | .remote j env => some (.remote j, env)
  | _ => none

/-- Whether the budgets have been dealt with, for the operation on top of a stack. -/
def ready (stack : List Op) (pc : Option Pc) (env : Env) : Bool :=
  match stack.head? with
  | some (.reserveBudgets _) =>
    match pc, env with
    | some (.answered r), .budgets r' => r == r'
    | _, _ => false
  | some (.release _) => pc == some (.release [] none)
  | _ => true

/-- The position after the operation: the release that follows a refusal is the connection's
    only. -/
def nextPc (stack : List Op) (env : Env) : Option Pc :=
  match stack.head?, env with
  | some (.reserveBudgets _), .budgets (some _) => some (.release [] none)
  | _, _ => none

def sharedStep (g : Config) (s : Shared) : SharedLabel → Option Shared
  | .conn i l =>
    if i < g.connections then
      match l.executes with
      | some (t, env) =>
        if ready ((s.conn i).stack t) (s.pc i t) env then
          (step (g.options i) (s.conn i) l).map fun c =>
            { s with conn := update s.conn i c
                     pc := update s.pc i
                       (update (s.pc i) t (nextPc ((s.conn i).stack t) env)) }
        else none
      | none =>
        (step (g.options i) (s.conn i) l).map fun c =>
          { s with conn := update s.conn i c }
    else none
  | .budget i t casFails =>
    if i < g.connections then
      match (s.conn i).stack t with
      | op :: _ =>
        (advance g.limits s.budget (g.scopes i) casFails op (s.pc i t)).map fun r =>
          { s with budget := r.1
                   pc := update s.pc i (update (s.pc i) t (some r.2)) }
      | [] => none
    else none

/-! ## What is charged to a budget -/

open Stacks (weight weight_append weight_cons weight_nil)

/-- The bytes of an operation that are charged to the budgets before the operation is on top. -/
def Op.budgetHeld : Op → Nat
  | .reserveBudgets _ => 0
  | op => op.held

/-- How often a connection is attached to a budget. -/
def attached (b : Nat) (l : List Attachment) : Nat := (l.map Attachment.budget).count b

/-- The budgets that hold the bytes of the operation on top. -/
def Pc.charged (scopes : List Attachment) : Pc → List Attachment
  | .reserve charged _ _ => charged
  | .undo left _ _ => left
  | .answered none => scopes
  | .answered (some _) => []
  | .release left _ => left

/-- What the operation on top of a stack has charged to the budget `b`. -/
def topCharge (scopes : List Attachment) (b : Nat) (op : Op) : Option Pc → Nat
  | none => attached b scopes * op.budgetHeld
  | some pc => attached b (pc.charged scopes) * op.held

def threadCharge (scopes : List Attachment) (b : Nat) (pc : Option Pc) : List Op → Nat
  | [] => 0
  | op :: rest => topCharge scopes b op pc + attached b scopes * weight Op.budgetHeld rest

@[simp]
theorem attached_nil (b : Nat) : attached b [] = 0 := rfl

theorem attached_cons (b : Nat) (x : Attachment) (l : List Attachment) :
    attached b (x :: l) = attached b l + if x.budget = b then 1 else 0 := by
  simp [attached, List.count_cons]

theorem attached_reverse (b : Nat) (l : List Attachment) : attached b l.reverse = attached b l := by
  simp [attached, List.map_reverse]

theorem threadCharge_none (scopes : List Attachment) (b : Nat) (l : List Op) :
    threadCharge scopes b none l = attached b scopes * weight Op.budgetHeld l := by
  cases l with
  | nil => rfl
  | cons op rest => rw [threadCharge, topCharge, weight_cons, Nat.mul_add]

/-- A position fits the stack of its thread. -/
def PcOk (limits : Nat → BudgetOptions) (scopes : List Attachment) (stack : List Op) :
    Option Pc → Prop
  | none => True
  | some (.reserve charged left pos) => ∃ p rest, stack = .reserveBudgets p :: rest ∧
      charged.reverse ++ left = scopes ∧ ∀ current x, pos = .cas current → left.head? = some x →
        current + p.data.length ≤ (limits x.budget).hardLimitBytes
  | some (.undo _ _ _) | some (.answered _) => ∃ p rest, stack = .reserveBudgets p :: rest
  | some (.release _ _) => ∃ n rest, stack = .release n :: rest

section
variable {limits : Nat → BudgetOptions} {budgets budgets' : Nat → Budget}
  {scopes : List Attachment} {casFails : Bool} {op : Op} {pc : Option Pc} {pc' : Pc} {rest : List Op}

/-- One access of `tryReserve`: the count changes only when it answers yes. -/
theorem tryReserve_spec {o : BudgetOptions} {b b' : Budget} {n : Nat} {pos : Pos}
    {answer : Pos ⊕ Bool} (h : b.tryReserve o n casFails pos = (b', answer))
    (hlimit : b.pendingBytes ≤ o.hardLimitBytes)
    (hcas : ∀ current, pos = .cas current → current + n ≤ o.hardLimitBytes) :
    b'.pendingBytes ≤ o.hardLimitBytes ∧
      b'.pendingBytes = b.pendingBytes + (if answer = .inr true then n else 0) ∧
      ∀ current, answer = .inl (.cas current) → current + n ≤ o.hardLimitBytes := by
  cases pos with
  | load =>
    cases h
    exact ⟨hlimit, rfl, nofun⟩
  | latch current =>
    simp only [Budget.tryReserve] at h
    split_ifs at h with _ _ hfull <;> cases h
    · exact ⟨hlimit, rfl, nofun⟩
    · exact ⟨hlimit, rfl, nofun⟩
    · exact ⟨hlimit, rfl, nofun⟩
    · exact ⟨hlimit, rfl, nofun⟩
    · refine ⟨hlimit, rfl, fun c hc => ?_⟩
      obtain rfl : current = c := by simpa using hc
      omega
  | clear =>
    cases h
    exact ⟨hlimit, rfl, nofun⟩
  | setLatch =>
    cases h
    exact ⟨hlimit, rfl, nofun⟩
  | cas current =>
    simp only [Budget.tryReserve] at h
    split_ifs at h with hsame <;> cases h
    · exact ⟨hcas current rfl, by simp [hsame.2], nofun⟩
    · exact ⟨hlimit, rfl, nofun⟩

/-- What one access of a thread does to the counts of the budgets. -/
structure Advances (limits : Nat → BudgetOptions) (scopes : List Attachment)
    (budgets : Nat → Budget) (stack : List Op) (pc : Option Pc) (budgets' : Nat → Budget)
    (pc' : Pc) : Prop where
  ok : PcOk limits scopes stack (some pc')
  limit : ∀ b, (budgets' b).pendingBytes ≤ (limits b).hardLimitBytes
  exact : ∀ b, (budgets' b).pendingBytes + threadCharge scopes b pc stack =
    (budgets b).pendingBytes + threadCharge scopes b (some pc') stack

/-- An access that leaves the counts and the charges alone. -/
theorem advances_same {stack : List Op} (hok : PcOk limits scopes stack (some pc'))
    (hlimit : ∀ b, (budgets b).pendingBytes ≤ (limits b).hardLimitBytes)
    (hsame : ∀ b, (budgets' b).pendingBytes = (budgets b).pendingBytes)
    (hcharge : ∀ b, threadCharge scopes b pc stack = threadCharge scopes b (some pc') stack) :
    Advances limits scopes budgets stack pc budgets' pc' :=
  ⟨hok, fun b => by rw [hsame]; exact hlimit b, fun b => by rw [hsame, hcharge]⟩

theorem update_pending {k : Nat} {b : Budget} (hb : b.pendingBytes = (budgets k).pendingBytes)
    (j : Nat) : (update budgets k b j).pendingBytes = (budgets j).pendingBytes := by
  by_cases hj : j = k
  · rw [hj, update_self, hb]
  · rw [update_of_ne hj]

/-- The budget of `x` takes the bytes of the operation on top. -/
theorem take_exact {x : Attachment} {n : Nat} {b : Budget} (charged : List Attachment)
    (hb : b.pendingBytes = (budgets x.budget).pendingBytes + n) (j : Nat) :
    (update budgets x.budget b j).pendingBytes + attached j charged * n =
      (budgets j).pendingBytes + attached j (x :: charged) * n := by
  rw [attached_cons, Nat.add_mul]
  by_cases hj : x.budget = j
  · subst hj
    rw [update_self, if_pos rfl]
    omega
  · rw [update_of_ne (Ne.symm hj), if_neg hj]
    omega

theorem release_spec {o : BudgetOptions} {b : Budget} {n : Nat} {r : Budget × Bool}
    (h : b.release o n = some r) : r.1.pendingBytes + n = b.pendingBytes := by
  unfold Budget.release at h
  split at h <;> cases h
  simp only
  omega

/-- The budget of `x` gives back the bytes of the operation on top. -/
theorem giveBack_exact {x : Attachment} {n : Nat} {b : Budget} (left : List Attachment)
    (hb : b.pendingBytes + n = (budgets x.budget).pendingBytes) (j : Nat) :
    (update budgets x.budget b j).pendingBytes + attached j (x :: left) * n =
      (budgets j).pendingBytes + attached j left * n := by
  rw [attached_cons, Nat.add_mul]
  by_cases hj : x.budget = j
  · subst hj
    rw [update_self, if_pos rfl]
    omega
  · rw [update_of_ne (Ne.symm hj), if_neg hj]
    omega

theorem giveBack_limit {x : Attachment} {n : Nat} {b : Budget}
    (hb : b.pendingBytes + n = (budgets x.budget).pendingBytes)
    (hlimit : ∀ b, (budgets b).pendingBytes ≤ (limits b).hardLimitBytes) (j : Nat) :
    (update budgets x.budget b j).pendingBytes ≤ (limits j).hardLimitBytes := by
  by_cases hj : j = x.budget
  · subst hj
    rw [update_self]
    have := hlimit x.budget
    omega
  · rw [update_of_ne hj]
    exact hlimit j

theorem advance_spec (h : advance limits budgets scopes casFails op pc = some (budgets', pc'))
    (hok : PcOk limits scopes (op :: rest) pc)
    (hlimit : ∀ b, (budgets b).pendingBytes ≤ (limits b).hardLimitBytes) :
    Advances limits scopes budgets (op :: rest) pc budgets' pc' := by
  revert h
  fun_cases advance limits budgets scopes casFails op pc
  all_goals intro h
  all_goals try (cases h; done)
  case case1 p =>
    cases h
    refine advances_same ⟨p, rest, rfl, rfl, nofun⟩ hlimit (fun _ => rfl) fun b => ?_
    simp [threadCharge, topCharge, Pc.charged, Op.budgetHeld]
  case case2 n =>
    cases h
    refine advances_same ⟨n, rest, rfl⟩ hlimit (fun _ => rfl) fun b => ?_
    simp [threadCharge, topCharge, Pc.charged, Op.budgetHeld, attached_reverse]
  case case4 charged pos =>
    cases h
    obtain ⟨p, rest', heq, hscopes, -⟩ := hok
    refine advances_same ⟨p, rest', heq⟩ hlimit (fun _ => rfl) fun b => ?_
    rw [List.append_nil] at hscopes
    simp [threadCharge, topCharge, Pc.charged, ← hscopes, attached_reverse]
  case case5 charged x left pos b pos' htry =>
    cases h
    obtain ⟨p, rest', heq, hscopes, hcas⟩ := hok
    obtain rfl : op = .reserveBudgets p := (List.cons.inj heq).1
    obtain ⟨-, hb, hcas'⟩ := tryReserve_spec htry (hlimit x.budget) fun c hc => hcas c x hc rfl
    refine advances_same ⟨p, rest', heq, hscopes, fun c y hc hy => ?_⟩ hlimit
      (update_pending (by simpa using hb)) fun b => rfl
    obtain rfl : x = y := Option.some.inj hy
    exact hcas' c (by rw [hc])
  case case6 charged x left pos b htry =>
    cases h
    obtain ⟨p, rest', heq, hscopes, hcas⟩ := hok
    obtain rfl : op = .reserveBudgets p := (List.cons.inj heq).1
    obtain ⟨hle, hb, -⟩ := tryReserve_spec htry (hlimit x.budget) fun c hc => hcas c x hc rfl
    refine ⟨⟨p, rest', heq, by simpa using hscopes, nofun⟩, fun j => ?_, fun j => ?_⟩
    · by_cases hj : j = x.budget
      · subst hj
        rwa [update_self]
      · rw [update_of_ne hj]
        exact hlimit j
    · have := take_exact charged (by simpa using hb) j
      simp only [threadCharge, topCharge, Pc.charged]
      omega
  case case7 charged x left pos b htry =>
    cases h
    obtain ⟨p, rest', heq, hscopes, hcas⟩ := hok
    obtain rfl : op = .reserveBudgets p := (List.cons.inj heq).1
    obtain ⟨-, hb, -⟩ := tryReserve_spec htry (hlimit x.budget) fun c hc => hcas c x hc rfl
    exact advances_same ⟨p, rest', heq⟩ hlimit (update_pending (by simpa using hb)) fun b => rfl
  case case8 left r k =>
    cases h
    exact advances_same hok hlimit (update_pending rfl) fun b => rfl
  case case9 r =>
    cases h
    exact advances_same hok hlimit (fun _ => rfl) fun b => rfl
  case case10 x left r =>
    obtain ⟨b, hb, h⟩ := Option.map_eq_some_iff.mp h
    cases h
    have hb := release_spec hb
    refine ⟨hok, giveBack_limit hb hlimit, fun j => ?_⟩
    have := giveBack_exact left hb j
    simp only [threadCharge, topCharge, Pc.charged]
    omega
  case case12 left k =>
    cases h
    exact advances_same hok hlimit (update_pending rfl) fun b => rfl
  case case14 x left =>
    obtain ⟨b, hb, h⟩ := Option.map_eq_some_iff.mp h
    cases h
    have hb := release_spec hb
    refine ⟨hok, giveBack_limit hb hlimit, fun j => ?_⟩
    have := giveBack_exact left hb j
    simp only [threadCharge, topCharge, Pc.charged]
    omega

end

/-! ## Steps of a connection -/

/-- The operations that change the connection's own count. -/
def Op.counts : Op → Bool
  | .reserveCas _ _ | .reserveBudgets _ | .release _ => true
  | _ => false

def Op.reserves : Op → Bool
  | .reserveBudgets _ => true
  | _ => false

section
variable {o : Options} {c c' : Conn} {caller : Caller} {op : Op} {env : Env} {news rest : List Op}
  {scopes : List Attachment} {b : Nat}

theorem releaseOps_reserves (n : Nat) : (releaseOps n).all (fun q => !q.reserves) = true := by
  unfold releaseOps
  split <;> rfl

theorem exec_count (h : exec o c caller op env = some (c', news))
    (hw : c.pendingOutputBytes < 2 ^ 64) (hop : op.counts = false) :
    byteCount c'.pendingOutputBytes = byteCount c.pendingOutputBytes ∧
      news.all (fun q => !q.reserves) = true := by
  rcases exec_cases h with h | h | h | h
  all_goals revert h
  case' inr.inr.inr => fun_cases execOwner o c op env
  case' inr.inr.inl => fun_cases execRequest c caller op env
  case' inr.inl => fun_cases execOutput o c op env
  case' inl => fun_cases execSend o c caller op env
  all_goals intro h; cases h
  all_goals first | (cases hop; done) | exact ⟨rfl, rfl⟩ | skip
  · refine ⟨rfl, ?_⟩
    unfold reserveLoop
    split_ifs <;> rfl
  · refine ⟨rfl, ?_⟩
    rw [List.all_append, releaseOps_reserves]
    split <;> rfl
  · exact ⟨rfl, by split <;> rfl⟩
  · exact ⟨rfl, by split <;> rfl⟩
  · exact ⟨byteCount_sealOutput hw, rfl⟩
  · exact ⟨rfl, by cases caller <;> rfl⟩
  · exact ⟨rfl, by cases caller <;> rfl⟩
  · exact ⟨byteCount_sealOutput hw, rfl⟩
  all_goals
    refine ⟨rfl, ?_⟩
    rw [List.all_append, releaseOps_reserves]
    rfl

theorem budgetHeld_of_not {q : Op} (h : q.reserves = false) : q.budgetHeld = q.held := by
  cases q <;> first | rfl | cases h

theorem weight_budgetHeld {l : List Op} (h : l.all (fun q => !q.reserves) = true) :
    weight Op.budgetHeld l = weight Op.held l := by
  unfold weight
  rw [List.map_congr_left fun q hq => budgetHeld_of_not (by simpa using List.all_eq_true.mp h q hq)]

/-- Away from the budgets, what a thread has charged is handed on. -/
theorem exec_budgetHeld (h : exec o c caller op env = some (c', news))
    (hw : c.pendingOutputBytes < 2 ^ 64) (hsound : op.sound o = true)
    (hreserve : op.reserves = false) (hrelease : ∀ n, op ≠ .release n) :
    weight Op.budgetHeld news + c'.held = op.budgetHeld + c.held := by
  cases hop : op.counts with
  | false =>
    obtain ⟨hcount, hnews⟩ := exec_count h hw hop
    have hexact := (exec_settles h hw hsound).exact
    rw [weight_budgetHeld hnews, budgetHeld_of_not hreserve]
    omega
  | true =>
    cases op <;> try (cases hop; done)
    case reserveBudgets => cases hreserve
    case release n => exact absurd rfl (hrelease n)
    case reserveCas p current =>
      replace h := exec_group h
      cases env <;> try (cases h; done)
      case nothing =>
        simp only [Op.group, execSend] at h
        split at h <;> cases h <;> rfl
      case casFails =>
        cases h
        rfl

/-- A thread has a position only at the two operations that reach the budgets. -/
theorem PcOk.eq_none {limits : Nat → BudgetOptions} {pc : Option Pc} {stack : List Op}
    (hok : PcOk limits scopes stack pc) (hreserve : ∀ p, stack.head? ≠ some (.reserveBudgets p))
    (hrelease : ∀ n, stack.head? ≠ some (.release n)) : pc = none := by
  cases pc with
  | none => rfl
  | some pc =>
    cases pc with
    | reserve charged left pos =>
      obtain ⟨p, rest, rfl, -⟩ := hok
      exact absurd rfl (hreserve p)
    | undo left r k =>
      obtain ⟨p, rest, rfl⟩ := hok
      exact absurd rfl (hreserve p)
    | answered r =>
      obtain ⟨p, rest, rfl⟩ := hok
      exact absurd rfl (hreserve p)
    | release left k =>
      obtain ⟨n, rest, rfl⟩ := hok
      exact absurd rfl (hrelease n)

/-- An operation that is executed with the budgets dealt with charges them as before. -/
theorem exec_charge {limits : Nat → BudgetOptions} {pc : Option Pc}
    (h : exec o c caller op env = some (c', news))
    (hw : c.pendingOutputBytes < 2 ^ 64) (hsound : op.sound o = true)
    (hok : PcOk limits scopes (op :: rest) pc) (hready : ready (op :: rest) pc env = true) :
    attached b scopes * c'.held + threadCharge scopes b (nextPc (op :: rest) env) (news ++ rest) =
      attached b scopes * c.held + threadCharge scopes b pc (op :: rest) := by
  by_cases hreserve : op.reserves = true
  case pos =>
    cases op <;> try (cases hreserve; done)
    rename_i p
    -- the answer of the budgets decides
    simp only [ready, List.head?_cons] at hready
    split at hready
    case h_2 => cases hready
    rename_i r r'
    obtain rfl : r = r' := by simpa using hready
    replace h := exec_group h
    cases r with
    | none =>
      cases h
      simp [nextPc, threadCharge, topCharge, Pc.charged, Op.budgetHeld, Op.held]
    | some r =>
      simp only [Op.group, execSend] at h
      split at h <;> cases h
      simp [nextPc, threadCharge, topCharge, Pc.charged, Op.budgetHeld, Op.held]
  case neg =>
    cases op
    case reserveBudgets => exact absurd rfl hreserve
    case release n =>
      obtain rfl : pc = some (.release [] none) := by simpa [ready] using hready
      replace h := exec_group h
      cases env <;> try cases h
      simp only [Op.group, execOutput] at h
      split at h <;> cases h
      have hzero (l : List Op) (hl : weight Op.budgetHeld l = 0) :
          threadCharge scopes b none (l ++ rest) = attached b scopes * weight Op.budgetHeld rest := by
        rw [threadCharge_none, weight_append, hl, Nat.zero_add]
      simp only [nextPc, List.head?_cons]
      rw [hzero _ (by split <;> split <;> rfl)]
      simp [threadCharge, topCharge, Pc.charged, Conn.held]
    all_goals
      obtain rfl := hok.eq_none (by simp) (by simp)
      have hheld := exec_budgetHeld h hw hsound rfl (by simp)
      simp only [nextPc, List.head?_cons, threadCharge_none, weight_append, weight_cons]
      rw [← Nat.mul_add, ← Nat.mul_add]
      congr 1
      omega

end

/-! ## What a connection has charged -/

open Finset (range sum_congr mem_range)

/-- What a connection and its threads have charged to the budget `b`. -/
def connCharge (scopes : List Attachment) (b : Nat) (s : State) (pc : Thread → Option Pc) : Nat :=
  attached b scopes * s.conn.held + threadCharge scopes b (pc .owner) s.owner +
    ∑ j ∈ range s.remotes.length, threadCharge scopes b (pc (.remote j)) (s.stack (.remote j))

/-- A sum over a range of which one term changes. -/
theorem sum_change {n k : Nat} {f g : Nat → Nat} (hk : k < n) (h : ∀ j, j ≠ k → g j = f j) :
    ∑ j ∈ range n, g j + f k = ∑ j ∈ range n, f j + g k := by
  have hrest : ∑ j ∈ (range n).erase k, g j = ∑ j ∈ (range n).erase k, f j :=
    sum_congr rfl fun j hj => h j (Finset.ne_of_mem_erase hj)
  have hg := Finset.sum_erase_add _ g (mem_range.mpr hk)
  have hf := Finset.sum_erase_add _ f (mem_range.mpr hk)
  omega

section
variable {o : Options} {scopes : List Attachment} {b : Nat} {s s' : State}
  {pc pc' : Thread → Option Pc} {limits : Nat → BudgetOptions}

theorem stack_length {j : Nat} {op : Op} {rest : List Op} (h : s.stack (.remote j) = op :: rest) :
    j < s.remotes.length := by
  by_contra hj
  rw [State.stack, List.getElem?_eq_none (by omega)] at h
  cases h

/-- The charge of one thread is part of its connection's. -/
theorem threadCharge_le {t : Thread} {op : Op} {rest : List Op} (h : s.stack t = op :: rest) :
    threadCharge scopes b (pc t) (s.stack t) ≤ connCharge scopes b s pc := by
  unfold connCharge
  cases t with
  | owner =>
    show threadCharge scopes b (pc .owner) s.owner ≤ _
    omega
  | remote j =>
    have := Finset.single_le_sum
      (f := fun j => threadCharge scopes b (pc (.remote j)) (s.stack (.remote j)))
      (fun _ _ => Nat.zero_le _) (mem_range.mpr (stack_length h))
    omega

/-- A thread moves on at the budgets. -/
theorem connCharge_pc {t : Thread} {op : Op} {rest : List Op} (h : s.stack t = op :: rest)
    (p : Option Pc) :
    connCharge scopes b s (update pc t p) + threadCharge scopes b (pc t) (s.stack t) =
      connCharge scopes b s pc + threadCharge scopes b p (s.stack t) := by
  unfold connCharge
  cases t with
  | owner =>
    have hsame (j : Nat) : update pc .owner p (.remote j) = pc (.remote j) :=
      update_of_ne (fun h => by cases h) _ _
    simp only [hsame, update_self]
    show _ + threadCharge scopes b (pc .owner) s.owner = _ + threadCharge scopes b p s.owner
    omega
  | remote j =>
    have hsum := sum_change (stack_length h)
      (f := fun j => threadCharge scopes b (pc (.remote j)) (s.stack (.remote j)))
      (g := fun i => threadCharge scopes b (update pc (.remote j) p (.remote i))
        (s.stack (.remote i)))
      (fun i hi => by
        rw [update_of_ne]
        exact fun heq => hi (Thread.remote.inj heq))
    simp only [update_self] at hsum
    rw [update_of_ne (fun h => by cases h)]
    omega

/-- The owner's stack changes, away from the budgets. -/
theorem connCharge_owner (hold : pc .owner = none) (hremotes : s'.remotes = s.remotes)
    (hheld : weight Op.budgetHeld s'.owner + s'.conn.held =
      weight Op.budgetHeld s.owner + s.conn.held) :
    connCharge scopes b s' pc = connCharge scopes b s pc := by
  unfold connCharge
  simp only [hold, threadCharge_none, State.stack, hremotes]
  rw [← Nat.mul_add, ← Nat.mul_add, Nat.add_comm s'.conn.held, hheld, Nat.add_comm s.conn.held]

/-- After an operation the position fits the new stack. -/
theorem nextPc_ok {op : Op} {env : Env} {caller : Caller} {news rest : List Op} {c c' : Conn}
    (h : exec o c caller op env = some (c', news)) :
    PcOk limits scopes (news ++ rest) (nextPc (op :: rest) env) := by
  unfold nextPc
  split
  case h_2 => trivial
  rename_i p r hop
  obtain rfl : op = .reserveBudgets p := Option.some.inj hop
  replace h := exec_group h
  simp only [Op.group, execSend] at h
  split at h <;> cases h
  exact ⟨_, _, rfl⟩

theorem own_charge {env : Env} (hs : step o s (.own env) = some s') (hinv : Inv o s)
    (hok : PcOk limits scopes s.owner (pc .owner))
    (hready : ready s.owner (pc .owner) env = true) :
    connCharge scopes b s' (update pc .owner (nextPc s.owner env)) =
      connCharge scopes b s pc ∧ PcOk limits scopes s'.owner (nextPc s.owner env) ∧
      s'.remotes = s.remotes := by
  simp only [step] at hs
  split at hs
  case h_2 => cases hs
  case h_1 op rest hop =>
    obtain ⟨r, hr, rfl⟩ := Option.map_eq_some_iff.mp hs
    rw [hop] at hok hready
    have hsound := hinv.ops op (by simp [State.ops, hop])
    refine ⟨?_, by rw [hop]; exact nextPc_ok hr, rfl⟩
    have hcharge := exec_charge (b := b) hr hinv.word hsound hok hready
    have hsame (j : Nat) (p : Option Pc) :
        update pc .owner p (.remote j) = pc (.remote j) :=
      update_of_ne (fun h => by cases h) _ _
    unfold connCharge
    simp only [hsame, update_self, State.stack, hop]
    omega

theorem remote_charge {j : Nat} {env : Env} (hs : step o s (.remote j env) = some s')
    (hinv : Inv o s) (hok : PcOk limits scopes (s.stack (.remote j)) (pc (.remote j)))
    (hready : ready (s.stack (.remote j)) (pc (.remote j)) env = true) :
    connCharge scopes b s' (update pc (.remote j) (nextPc (s.stack (.remote j)) env)) =
      connCharge scopes b s pc ∧
      PcOk limits scopes (s'.stack (.remote j)) (nextPc (s.stack (.remote j)) env) ∧
      s'.owner = s.owner ∧ ∀ k, k ≠ j → s'.stack (.remote k) = s.stack (.remote k) := by
  simp only [step] at hs
  split at hs
  case h_2 => cases hs
  case h_1 op rest hop =>
    obtain ⟨r, hr, rfl⟩ := Option.map_eq_some_iff.mp hs
    have hstack : s.stack (.remote j) = op :: rest := by rw [State.stack, hop]; rfl
    have hlt := stack_length hstack
    have hnew : ({ s with conn := r.1, remotes := s.remotes.set j (r.2 ++ rest) } : State).stack
        (.remote j) = r.2 ++ rest := by
      rw [State.stack, List.getElem?_set_self hlt]
      rfl
    have hother (k : Nat) (hk : k ≠ j) : ({ s with conn := r.1
                                                   remotes := s.remotes.set j (r.2 ++ rest) } :
        State).stack (.remote k) = s.stack (.remote k) := by
      rw [State.stack, List.getElem?_set_ne (Ne.symm hk)]
      rfl
    rw [hstack] at hok hready
    have hmem : op ∈ s.remotes.flatten :=
      List.mem_flatten_of_mem (List.mem_of_getElem? hop) (.head _)
    have hsound := hinv.ops op (List.mem_append_right s.owner hmem)
    refine ⟨?_, by rw [hnew, hstack]; exact nextPc_ok hr, rfl, hother⟩
    have hcharge := exec_charge (b := b) hr hinv.word hsound hok hready
    have hsum := sum_change hlt
      (f := fun i => threadCharge scopes b (pc (.remote i)) (s.stack (.remote i)))
      (g := fun i => threadCharge scopes b
        (update pc (.remote j) (nextPc (op :: rest) env) (.remote i))
        (({ s with conn := r.1, remotes := s.remotes.set j (r.2 ++ rest) } : State).stack (.remote i)))
      (fun i hi => by
        rw [hother i hi, update_of_ne]
        exact fun heq => hi (Thread.remote.inj heq))
    simp only [update_self, hnew, hstack] at hsum
    unfold connCharge
    rw [update_of_ne (fun h => by cases h), hstack]
    simp only [List.length_set]
    omega

theorem start_budgetHeld {c c' : Conn} {e : Event} {news : List Op}
    (h : c.start e = some (c', news)) (hw : c.pendingOutputBytes < 2 ^ 64)
    (hf : c.functors.all QueuedFunctor.sound = true) :
    weight Op.budgetHeld news + c'.held = c.held := by
  have hnews : news.all (fun q => !q.reserves) = true := by
    revert h
    fun_cases Conn.start c e
    all_goals intro h; cases h
    all_goals try rfl
    rename_i f _ _
    cases f <;> rfl
  have hexact := (start_settles (o := smallConnection) h hw hf).exact
  rw [weight_budgetHeld hnews]
  rw [(start_same h).2.1] at hexact
  omega

/-- Where user code runs the owner is not at the budgets. -/
theorem PcOk.user {p : Option Pc} {l : List Op} (hok : PcOk limits scopes l p)
    (huser : userRuns l = true) : p = none := by
  unfold userRuns at huser
  split at huser
  · exact hok.eq_none nofun nofun
  · exact hok.eq_none nofun nofun
  · cases huser

/-- A step of the owner that executes nothing. -/
theorem owner_charge {l : List Op} {c : Conn} (hok : ∀ t, PcOk limits scopes (s.stack t) (pc t))
    (hnone : pc .owner = none)
    (hheld : weight Op.budgetHeld l + c.held = weight Op.budgetHeld s.owner + s.conn.held) (n : Nat) :
    connCharge scopes b ⟨c, l, s.remotes, n⟩ pc = connCharge scopes b s pc ∧
      ∀ t, PcOk limits scopes ((⟨c, l, s.remotes, n⟩ : State).stack t) (pc t) := by
  refine ⟨connCharge_owner hnone rfl hheld, fun t => ?_⟩
  cases t with
  | owner =>
    rw [hnone]
    trivial
  | remote j => exact hok (.remote j)

theorem other_charge {l : Label} (hs : step o s l = some s') (hl : l.executes = none)
    (hinv : Inv o s) (hok : ∀ t, PcOk limits scopes (s.stack t) (pc t)) :
    connCharge scopes b s' pc = connCharge scopes b s pc ∧
      ∀ t, PcOk limits scopes (s'.stack t) (pc t) := by
  cases l with
  | own env => cases hl
  | remote j env => cases hl
  | call k =>
    obtain rfl : _ = s' := Option.some.inj hs
    -- the new thread has charged nothing
    have hnone : pc (.remote s.remotes.length) = none := by
      refine PcOk.user (hok (.remote s.remotes.length)) ?_
      rw [State.stack, List.getElem?_eq_none (Nat.le_refl _)]
      rfl
    have hkeep (j : Nat) (hj : j < s.remotes.length) :
        (s.remotes ++ [k.ops s.sends])[j]?.getD [] = s.remotes[j]?.getD [] := by
      rw [List.getElem?_append_left hj]
    constructor
    · unfold connCharge
      simp only [List.length_append, List.length_singleton, Finset.sum_range_succ, State.stack]
      rw [sum_congr rfl fun j hj => by rw [hkeep j (mem_range.mp hj)], hnone, threadCharge_none]
      cases k <;> simp [Call.ops, Op.budgetHeld, Op.held]
    · intro t
      cases t with
      | owner => exact hok .owner
      | remote j =>
        by_cases hj : j < s.remotes.length
        · have := hok (.remote j)
          simp only [State.stack] at this ⊢
          rwa [hkeep j hj]
        · have hj' : pc (.remote j) = none := by
            refine PcOk.user (hok (.remote j)) ?_
            rw [State.stack, List.getElem?_eq_none (by omega)]
            rfl
          rw [hj']
          trivial
  | event e =>
    simp only [step] at hs
    split at hs
    case isFalse => cases hs
    case isTrue hidle =>
      obtain ⟨r, hr, rfl⟩ := Option.map_eq_some_iff.mp hs
      have hheld := start_budgetHeld hr hinv.word hinv.functors
      refine owner_charge hok (PcOk.user (hok .owner) (by rw [State.stack, hidle]; rfl)) ?_ s.sends
      rw [hidle, hheld, weight_nil, Nat.zero_add]
  | ownCall k =>
    simp only [step] at hs
    split at hs <;> cases hs
    rename_i huser
    refine owner_charge hok (PcOk.user (hok .owner) huser) ?_ _
    cases k <;> simp [Call.ops, Op.budgetHeld, Op.held]
  | ownDestroy =>
    simp only [step] at hs
    split at hs <;> cases hs
    rename_i huser
    refine owner_charge hok (PcOk.user (hok .owner) huser) ?_ _
    simp [Op.budgetHeld, Op.held]
  | retrieve n =>
    simp only [step] at hs
    split at hs <;> cases hs
    rename_i rest hop
    exact owner_charge hok (PcOk.user (hok .owner) (by rw [State.stack, hop]; rfl)) rfl _
  | ret threw =>
    simp only [step] at hs
    split at hs <;> cases hs
    rename_i source rest hop
    refine owner_charge hok (PcOk.user (hok .owner) (by rw [State.stack, hop]; rfl)) ?_ _
    rw [hop, weight_append, weight_cons]
    congr 2
    cases source <;> cases threw <;> rfl
  | quit =>
    obtain rfl : _ = s' := Option.some.inj hs
    exact ⟨rfl, hok⟩

end

/-! ## The invariant -/

/-- The counts of all budgets in every state. -/
structure Accounts (g : Config) (s : Shared) : Prop where
  reach : ∀ i, Reach (· = {}) (step (g.options i)) Any (s.conn i)
  pc : ∀ i t, PcOk g.limits (g.scopes i) ((s.conn i).stack t) (s.pc i t)
  limit : ∀ b, (s.budget b).pendingBytes ≤ (g.limits b).hardLimitBytes
  exact : ∀ b, (s.budget b).pendingBytes =
    ∑ i ∈ range g.connections, connCharge (g.scopes i) b (s.conn i) (s.pc i)

theorem accounts_init (g : Config) : Accounts g {} where
  reach _ := .start rfl
  pc _ _ := trivial
  limit _ := Nat.zero_le _
  exact b := by
    refine (Finset.sum_eq_zero fun i _ => ?_).symm
    simp [connCharge, Conn.held, threadCharge]

section
variable {g : Config} {s s' : Shared}

/-- A step of the connection `i` that keeps its charges. -/
theorem Accounts.conn (h : Accounts g s) {i : Nat} {l : Label} {c : State}
    {pc : Thread → Option Pc} (hs : step (g.options i) (s.conn i) l = some c)
    (hcharge : ∀ b, connCharge (g.scopes i) b c pc = connCharge (g.scopes i) b (s.conn i) (s.pc i))
    (hok : ∀ t, PcOk g.limits (g.scopes i) (c.stack t) (pc t)) :
    Accounts g { s with conn := update s.conn i c, pc := update s.pc i pc } := by
  refine ⟨fun k => ?_, fun k t => ?_, h.limit, fun b => ?_⟩
  · by_cases hk : k = i
    · subst hk
      simp only [update_self]
      exact .next (h.reach k) trivial hs
    · simp only [update_of_ne hk]
      exact h.reach k
  · by_cases hk : k = i
    · subst hk
      simp only [update_self]
      exact hok t
    · simp only [update_of_ne hk]
      exact h.pc k t
  · rw [h.exact b]
    refine sum_congr rfl fun k _ => ?_
    by_cases hk : k = i
    · subst hk
      simp only [update_self]
      exact (hcharge b).symm
    · simp only [update_of_ne hk]

/-- An access of a thread of the connection `i` to a budget. -/
theorem Accounts.budget (h : Accounts g s) {i : Nat} {t : Thread} {casFails : Bool} {op : Op}
    {rest : List Op} {budgets : Nat → Budget} {p : Pc} (hi : i < g.connections)
    (hstack : (s.conn i).stack t = op :: rest)
    (hs : advance g.limits s.budget (g.scopes i) casFails op (s.pc i t) = some (budgets, p)) :
    Accounts g { s with budget := budgets
                        pc := update s.pc i (update (s.pc i) t (some p)) } := by
  have hadv := advance_spec hs (hstack ▸ h.pc i t) h.limit
  refine ⟨h.reach, fun k t' => ?_, hadv.limit, fun b => ?_⟩
  · by_cases hk : k = i
    · subst hk
      simp only [update_self]
      by_cases ht : t' = t
      · subst ht
        rw [update_self, hstack]
        exact hadv.ok
      · rw [update_of_ne ht]
        exact h.pc k t'
    · simp only [update_of_ne hk]
      exact h.pc k t'
  · have hsum := sum_change hi
      (f := fun k => connCharge (g.scopes k) b (s.conn k) (s.pc k))
      (g := fun k => connCharge (g.scopes k) b (s.conn k)
        (update s.pc i (update (s.pc i) t (some p)) k))
      (fun k hk => by rw [update_of_ne hk])
    simp only [update_self] at hsum
    have hpc : connCharge (g.scopes i) b (s.conn i) (update (s.pc i) t (some p)) +
        threadCharge (g.scopes i) b (s.pc i t) ((s.conn i).stack t) =
        connCharge (g.scopes i) b (s.conn i) (s.pc i) +
          threadCharge (g.scopes i) b (some p) ((s.conn i).stack t) := connCharge_pc hstack (some p)
    have hexact := hadv.exact b
    rw [← hstack] at hexact
    have hold := h.exact b
    show (budgets b).pendingBytes = ∑ k ∈ range g.connections, connCharge (g.scopes k) b (s.conn k)
      (update s.pc i (update (s.pc i) t (some p)) k)
    omega

theorem Accounts.next {l : SharedLabel} (h : Accounts g s) (hs : sharedStep g s l = some s') :
    Accounts g s' := by
  cases l with
  | conn i l =>
    have hinv := reach_inv (h.reach i)
    simp only [sharedStep] at hs
    split at hs
    case isFalse => cases hs
    split at hs
    case h_2 hl =>
      obtain ⟨c, hc, rfl⟩ := Option.map_eq_some_iff.mp hs
      have hcharge (b : Nat) := other_charge (b := b) hc hl hinv (h.pc i)
      have := h.conn hc (fun b => (hcharge b).1) (hcharge 0).2
      rwa [update_eq_self] at this
    case h_1 t env hl =>
      split at hs
      case isFalse => cases hs
      case isTrue hready =>
      obtain ⟨c, hc, rfl⟩ := Option.map_eq_some_iff.mp hs
      cases l <;> try (cases hl; done)
      case own =>
        obtain ⟨rfl, rfl⟩ : Thread.owner = t ∧ _ = env := by simpa [Label.executes] using hl
        have hcharge (b : Nat) := own_charge (b := b) hc hinv (h.pc i .owner) hready
        refine h.conn hc (fun b => (hcharge b).1) fun t => ?_
        cases t with
        | owner =>
          rw [update_self]
          exact (hcharge 0).2.1
        | remote j =>
          rw [update_of_ne (fun h => by cases h), State.stack, (hcharge 0).2.2]
          exact h.pc i (.remote j)
      case remote j env' =>
        obtain ⟨rfl, rfl⟩ : Thread.remote j = t ∧ env' = env := by
          simpa [Label.executes] using hl
        have hcharge (b : Nat) := remote_charge (b := b) hc hinv (h.pc i (.remote j)) hready
        refine h.conn hc (fun b => (hcharge b).1) fun t => ?_
        cases t with
        | owner =>
          rw [update_of_ne (fun h => by cases h), State.stack, (hcharge 0).2.2.1]
          exact h.pc i .owner
        | remote k =>
          by_cases hk : k = j
          · subst hk
            rw [update_self]
            exact (hcharge 0).2.1
          · rw [update_of_ne (fun heq => hk (Thread.remote.inj heq)),
              (hcharge 0).2.2.2 k hk]
            exact h.pc i (.remote k)
  | budget i t casFails =>
    simp only [sharedStep] at hs
    split at hs
    case isFalse => cases hs
    case isTrue hi =>
      split at hs
      case h_2 => cases hs
      case h_1 op rest hstack =>
        obtain ⟨r, hr, rfl⟩ := Option.map_eq_some_iff.mp hs
        exact h.budget hi hstack hr

theorem reach_accounts (h : Reach (· = {}) (sharedStep g) Any s) : Accounts g s :=
  Reach.invariant (by rintro s rfl; exact accounts_init g) (fun _ _ _ hi _ hs => hi.next hs) h

end

/-! ## A closed connection buffers nothing -/

section
variable {o : Options} {c c' : Conn} {caller : Caller} {op : Op} {env : Env} {news : List Op}

def Conn.Emptied (c : Conn) : Prop := c.state = .kDisconnected → c.outputBuffer = []

theorem Conn.Emptied.core (h : c.Emptied) (hcore : SameCore c c') : c'.Emptied := by
  unfold Conn.Emptied
  rw [hcore.state, hcore.outputBuffer]
  exact h

theorem exec_emptied (h : exec o c caller op env = some (c', news)) (hg : c.Guard (some op))
    (he : c.Emptied) : c'.Emptied := by
  rcases exec_cases h with h | h | h | h
  all_goals revert h
  case' inr.inr.inr => fun_cases execOwner o c op env
  case' inr.inr.inl => fun_cases execRequest c caller op env
  case' inr.inl => fun_cases execOutput o c op env
  case' inl => fun_cases execSend o c caller op env
  all_goals intro h; cases h
  all_goals first
    | exact he
    | exact fun _ => rfl
    | exact fun _ => hg
    | rintro ⟨⟩
    | intro hstate
  · exact absurd hstate hg
  · show c.outputBuffer.drop _ = []
    rw [he hstate, List.drop_nil]

theorem Act.emptied {n n' : Nat} {olds rest : List Op} (h : Act o .owner n c olds n' c' news)
    (hok : OwnerOk c (olds ++ rest)) (he : c.Emptied) : c'.Emptied := by
  cases h with
  | @exec _ _ _ _ op _ _ hexec =>
    cases hop : op.passive with
    | true => exact he.core (exec_passive hexec hop).1
    | false => exact exec_emptied hexec (OwnerOk.guard_head hok hop) he
  | start hstart => exact he.core (start_same hstart).1
  | _ => exact he

theorem reach_emptied {C : State → Label → Prop} {s : State}
    (h : Reach (· = {}) (step o) C s) : s.conn.Emptied := by
  refine Reach.invariant_with (P := fun s => s.conn.Emptied) (fun h => reach_inv h) ?_ ?_ h
  · rintro s rfl
    exact nofun
  · intro s l s' hinv he _ hs
    cases step_move hs with
    | owner olds news rest act old new remotes push => exact act.emptied (old ▸ hinv.owner) he
    | remote olds news R act old new owner =>
      exact he.core (act.crossThread (List.all_eq_true.mpr fun op hop =>
        hinv.crossThread op (old.mem_iff.mpr (List.mem_append_left R hop)))).1

end

/-! ## Exact accounting -/

/-- No operation is in progress on any connection. -/
def Shared.Quiet (g : Config) (s : Shared) : Prop := ∀ i < g.connections, (s.conn i).ops = []

/-- The budget that the next access of a thread subtracts from. -/
def givesBack : Option Pc → Option Nat
  | some (.undo (x :: _) _ none) | some (.release (x :: _) none) => some x.budget
  | _ => none

theorem topCharge_givesBack {scopes : List Attachment} {b : Nat} {op : Op} {pc : Option Pc}
    (h : givesBack pc = some b) : op.held ≤ topCharge scopes b op pc := by
  have hcharge (x : Attachment) (left : List Attachment) (hx : x.budget = b) :
      op.held ≤ attached b (x :: left) * op.held := by
    rw [attached_cons, if_pos hx]
    exact Nat.le_mul_of_pos_left _ (Nat.succ_pos _)
  unfold givesBack at h
  split at h
  · exact hcharge _ _ (Option.some.inj h)
  · exact hcharge _ _ (Option.some.inj h)
  · cases h

theorem Accounts.no_underflow {g : Config} {s : Shared} (h : Accounts g s) {i b : Nat} {t : Thread}
    {op : Op} {rest : List Op} (hi : i < g.connections) (hstack : (s.conn i).stack t = op :: rest)
    (hgives : givesBack (s.pc i t) = some b) : op.held ≤ (s.budget b).pendingBytes := by
  calc op.held ≤ threadCharge (g.scopes i) b (s.pc i t) ((s.conn i).stack t) := by
        rw [hstack, threadCharge]
        exact Nat.le_add_right_of_le (topCharge_givesBack hgives)
    _ ≤ connCharge (g.scopes i) b (s.conn i) (s.pc i) := threadCharge_le hstack
    _ ≤ ∑ k ∈ range g.connections, connCharge (g.scopes k) b (s.conn k) (s.pc k) :=
        Finset.single_le_sum (f := fun k => connCharge (g.scopes k) b (s.conn k) (s.pc k))
          (fun _ _ => Nat.zero_le _) (mem_range.mpr hi)
    _ = (s.budget b).pendingBytes := (h.exact b).symm

theorem mem_ops_of_stack {s : State} {t : Thread} {op : Op} {rest : List Op}
    (h : s.stack t = op :: rest) : op ∈ s.ops := by
  cases t with
  | owner => exact List.mem_append_left _ (by rw [show s.owner = op :: rest from h]; exact .head _)
  | remote j =>
    rw [State.stack] at h
    cases hj : s.remotes[j]? with
    | none => rw [hj] at h; cases h
    | some l =>
      rw [hj] at h
      refine List.mem_append_right _ (List.mem_flatten_of_mem (List.mem_of_getElem? hj) ?_)
      rw [show l = op :: rest from h]
      exact .head _

/-- A connection whose threads are all idle. -/
theorem connCharge_idle {scopes : List Attachment} {b : Nat} {s : State} {pc : Thread → Option Pc}
    (h : s.ops = []) : connCharge scopes b s pc = attached b scopes * s.conn.held := by
  have howner : s.owner = [] := (List.append_eq_nil_iff.mp h).1
  have hremote (j : Nat) : s.stack (.remote j) = [] := by
    cases hj : s.stack (.remote j) with
    | nil => rfl
    | cons op rest =>
      have := mem_ops_of_stack hj
      rw [h] at this
      cases this
  unfold connCharge
  simp [howner, hremote, threadCharge]

/-- In every interleaving of any number of connections that share budgets: no count passes its
    limit and no release underflows; with no operation in progress each connection's count is what
    it has buffered and queued, each budget is the sum of the counts of the connections attached to
    it, and all of them are zero once the connections are closed and their queues drained. -/
theorem output_accounting_exact (g : Config) (s : Shared)
    (h : Reach (· = {}) (sharedStep g) Any s) :
    (∀ i, byteCount (s.conn i).conn.pendingOutputBytes ≤ (g.options i).hardLimitBytes) ∧
    (∀ b, (s.budget b).pendingBytes ≤ (g.limits b).hardLimitBytes) ∧
    (∀ i t n rest, (s.conn i).stack t = .release n :: rest →
      n ≤ byteCount (s.conn i).conn.pendingOutputBytes) ∧
    (∀ i t op rest b, i < g.connections → (s.conn i).stack t = op :: rest →
      givesBack (s.pc i t) = some b → op.held ≤ (s.budget b).pendingBytes) ∧
    (s.Quiet g →
      (∀ i < g.connections, byteCount (s.conn i).conn.pendingOutputBytes =
        (s.conn i).conn.outputBuffer.length +
          weight QueuedFunctor.held (s.conn i).conn.functors) ∧
      (∀ b, (s.budget b).pendingBytes = ∑ i ∈ range g.connections,
        attached b (g.scopes i) * byteCount (s.conn i).conn.pendingOutputBytes) ∧
      ((∀ i < g.connections, (s.conn i).conn.state = .kDisconnected ∧
          (s.conn i).conn.functors = []) →
        (∀ i < g.connections, byteCount (s.conn i).conn.pendingOutputBytes = 0) ∧
        ∀ b, (s.budget b).pendingBytes = 0)) := by
  have hacc := reach_accounts h
  have hinv (i : Nat) := reach_inv (hacc.reach i)
  refine ⟨fun i => ?_, hacc.limit, fun i t n rest hstack => ?_,
    fun i t op rest b hi hstack hgives => hacc.no_underflow hi hstack hgives, fun hquiet => ?_⟩
  · exact (hinv i).limit.trans (Nat.min_le_left _ _)
  · exact (hinv i).toLedger.held_le (mem_ops_of_stack hstack)
  have hcount (i : Nat) (hi : i < g.connections) :
      byteCount (s.conn i).conn.pendingOutputBytes = (s.conn i).conn.held := by
    rw [(hinv i).exact, hquiet i hi]
    rfl
  have hbudget (b : Nat) : (s.budget b).pendingBytes = ∑ i ∈ range g.connections,
      attached b (g.scopes i) * byteCount (s.conn i).conn.pendingOutputBytes := by
    rw [hacc.exact b]
    refine sum_congr rfl fun i hi => ?_
    rw [connCharge_idle (hquiet i (mem_range.mp hi)), hcount i (mem_range.mp hi)]
  refine ⟨hcount, hbudget, fun hclosed => ?_⟩
  have hzero (i : Nat) (hi : i < g.connections) :
      byteCount (s.conn i).conn.pendingOutputBytes = 0 := by
    obtain ⟨hstate, hfunctors⟩ := hclosed i hi
    rw [hcount i hi, Conn.held, reach_emptied (hacc.reach i) hstate, hfunctors]
    rfl
  refine ⟨hzero, fun b => ?_⟩
  rw [hbudget b]
  exact Finset.sum_eq_zero fun i hi => by rw [hzero i (mem_range.mp hi), Nat.mul_zero]

/-- Two connections on loops of their own, under one server and one global budget. -/
def twoConnections : Config where
  connections := 2
  options _ := smallConnection
  scopes i := [⟨.loop, i⟩, ⟨.server, 2⟩, ⟨.global, 3⟩]
  limits _ := ⟨6, 2, by decide⟩

instance (g : Config) (s : Shared) : Decidable (s.Quiet g) := by
  unfold Shared.Quiet
  infer_instance

/-- A send of the first connection that is buffered as a whole. -/
theorem output_accounting_exact_buffered :
    ∃ s, Reach (· = {}) (sharedStep twoConnections) Any s ∧
      s.Quiet twoConnections ∧ (s.conn 0).conn.outputBuffer = [1, 2, 3] ∧
      (s.budget 3).pendingBytes = ∑ i ∈ range 2, attached 3 (twoConnections.scopes i) *
        byteCount (s.conn i).conn.pendingOutputBytes := by
  obtain ⟨s, hr, hquiet, hout⟩ := Reach.of_run (· = {}) (sharedStep twoConnections)
    Any (fun s => s.Quiet twoConnections ∧ (s.conn 0).conn.outputBuffer = [1, 2, 3]) {} rfl
    ([.conn 0 (.event (.connectEstablished true)), .conn 0 (.own .nothing), .conn 0 (.own .nothing),
        .conn 0 (.ret false), .conn 0 (.ownCall (.trySend [1, 2, 3]))] ++
      List.replicate 7 (.conn 0 (.own .nothing)) ++ List.replicate 11 (.budget 0 .owner false) ++
      [.conn 0 (.own (.budgets none)), .conn 0 (.own .nothing), .conn 0 (.own (.write .wouldBlock)),
        .conn 0 (.own .nothing), .conn 0 (.own .nothing)])
    (by decide +kernel)
  exact ⟨s, hr, hquiet, hout, ((output_accounting_exact twoConnections s hr).2.2.2.2 hquiet).2.1 3⟩

end GameNet.TcpConnection
