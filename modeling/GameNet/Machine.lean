import Mathlib.Logic.Function.Basic
import Mathlib.Order.OrderIsoNat

/- Labelled machines and their runs. A machine is a partial step function
   `step : σ → ι → Option σ`: `step s l = some s'` says that the step labelled
   `l` is possible in `s` and leads to `s'`. `Reach init step C` holds of every
   state reached from an initial one by steps that each meet `C`, a condition on
   the state before the step and on its label; with `Any` for `C` these are all
   runs. An invariant is proved once, by `Reach.invariant`, from what holds at
   the start and what one step keeps.

   Observations are kept newest first in a log. `Owed` says that some request of
   a log is still unanswered, `NeverAfter` that no event of one kind comes after
   an event of another.

   An `Execution` is an infinite run. Along it a rank that never rises can fall only
   finitely often, which is how a run is shown to end in a given state. -/
namespace Machine

variable {σ ι ε : Type}

/-! ## Runs -/

/-- The states reached by steps that meet `C`. -/
inductive Reach (init : σ → Prop) (step : σ → ι → Option σ) (C : σ → ι → Prop) : σ → Prop where
  | start {s : σ} : init s → Reach init step C s
  | next {s s' : σ} {l : ι} : Reach init step C s → C s l → step s l = some s' →
      Reach init step C s'

/-- The condition every step meets. -/
def Any : σ → ι → Prop := fun _ _ => True

instance (s : σ) (l : ι) : Decidable (Any s l) := .isTrue trivial

/-- The state after a list of steps, if all of them are possible and meet `C`. -/
def run (step : σ → ι → Option σ) (C : σ → ι → Prop) [∀ s l, Decidable (C s l)] :
    σ → List ι → Option σ
  | s, [] => some s
  | s, l :: rest => if C s l then (step s l).bind (fun s' => run step C s' rest) else none

section
variable {init : σ → Prop} {step : σ → ι → Option σ} {C D : σ → ι → Prop} {P : σ → Prop} {s : σ}

/-- What holds at the start and is kept by every step holds in every state reached. -/
theorem Reach.invariant (h0 : ∀ s, init s → P s)
    (hstep : ∀ s l s', P s → C s l → step s l = some s' → P s')
    (h : Reach init step C s) : P s := by
  induction h with
  | start hi => exact h0 _ hi
  | next _ hc hs ih => exact hstep _ _ _ ih hc hs

/-- As `Reach.invariant`, with a fact already known of every state reached. -/
theorem Reach.invariant_with {K : σ → Prop} (hK : ∀ {s}, Reach init step C s → K s)
    (h0 : ∀ s, init s → P s)
    (hstep : ∀ s l s', K s → P s → C s l → step s l = some s' → P s')
    (h : Reach init step C s) : P s := by
  induction h with
  | start hi => exact h0 _ hi
  | next hr hc hs ih => exact hstep _ _ _ (hK hr) ih hc hs

/-- Steps that meet a stronger condition are steps that meet a weaker one. -/
theorem Reach.weaken (hCD : ∀ s l, C s l → D s l) (h : Reach init step C s) :
    Reach init step D s := by
  induction h with
  | start hi => exact .start hi
  | next _ hc hs ih => exact .next ih (hCD _ _ hc) hs

/-- A run goes on where another one ends. -/
theorem Reach.trans {t : σ} (h : Reach init step C s) (h' : Reach (· = s) step C t) :
    Reach init step C t := by
  induction h' with
  | start hi => exact hi ▸ h
  | next _ hc hs ih => exact .next ih hc hs

/-- A run meets the condition all the way, or has a first step that breaks it. -/
theorem Reach.split (B : σ → ι → Prop) (h : Reach init step Any s) :
    Reach init step (fun s l => ¬B s l) s ∨ ∃ s₀ l s₁, Reach init step (fun s l => ¬B s l) s₀ ∧ B s₀ l ∧
      step s₀ l = some s₁ ∧ Reach (· = s₁) step Any s := by
  induction h with
  | start hi => exact .inl (.start hi)
  | @next s s' l _ hc hs ih =>
    rcases ih with hkept | ⟨s₀, l₀, s₁, h₀, hbroken, hstep, hrest⟩
    · by_cases hb : B s l
      · exact .inr ⟨s, l, s', hkept, hb, hs, .start rfl⟩
      · exact .inl (.next hkept hb hs)
    · exact .inr ⟨s₀, l₀, s₁, h₀, hbroken, hstep, .next hrest hc hs⟩

/-- A number that some step makes smaller as long as the goal is not reached leads to the goal. -/
theorem Reach.descend {K goal : σ → Prop} (m : σ → Nat)
    (hstep : ∀ s, K s → ¬goal s → ∃ l s', C s l ∧ step s l = some s' ∧ K s' ∧ m s' < m s) (s : σ)
    (hK : K s) : ∃ t, Reach (· = s) step C t ∧ goal t := by
  induction hn : m s using Nat.strongRecOn generalizing s with
  | ind n ih =>
    by_cases hgoal : goal s
    · exact ⟨s, .start rfl, hgoal⟩
    · obtain ⟨l, s', hc, hs, hK', hlt⟩ := hstep s hK hgoal
      obtain ⟨t, ht, hgt⟩ := ih (m s') (hn ▸ hlt) s' hK' rfl
      have hfirst : Reach (· = s) step C s' := .next (.start rfl) hc hs
      exact ⟨t, hfirst.trans ht, hgt⟩

/-- A run from a state reached reaches its last state. -/
theorem Reach.run_of [∀ s l, Decidable (C s l)] {s₀ : σ} (h : Reach init step C s₀) :
    ∀ (ls : List ι), run step C s₀ ls = some s → Reach init step C s := by
  intro ls
  induction ls generalizing s₀ with
  | nil =>
    intro hrun
    simp only [run, Option.some.injEq] at hrun
    exact hrun ▸ h
  | cons l rest ih =>
    intro hrun
    simp only [run] at hrun
    split at hrun
    · rename_i hC
      obtain ⟨s₁, h₁, hrest⟩ := Option.bind_eq_some_iff.mp hrun
      exact ih (.next h hC h₁) hrest
    · cases hrun

/-- A run from an initial state whose last state is described by `Q`. -/
theorem Reach.of_run (init : σ → Prop) (step : σ → ι → Option σ) (C : σ → ι → Prop)
    (Q : σ → Prop) [∀ s l, Decidable (C s l)] [DecidablePred Q] (s₀ : σ) (hi : init s₀) (ls : List ι)
    (h : ((run step C s₀ ls).any (fun s => decide (Q s))) = true) :
    ∃ s, Reach init step C s ∧ Q s := by
  cases hr : run step C s₀ ls with
  | none => rw [hr] at h; simp at h
  | some s =>
    rw [hr] at h
    simp only [Option.any_some, decide_eq_true_eq] at h
    exact ⟨s, Reach.run_of (.start hi) ls hr, h⟩

end

/-! ## Infinite runs -/

/-- An infinite run: its states, and the labels of its steps. -/
structure Execution (init : σ → Prop) (step : σ → ι → Option σ) where
  state : Nat → σ
  label : Nat → ι
  start : init (state 0)
  next : ∀ n, step (state n) (label n) = some (state (n + 1))

/-- The states of a finite run, the last one repeated for ever. -/
def follow (step : σ → ι → Option σ) : σ → List ι → Nat → σ
  | s, _, 0 => s
  | s, [], _ + 1 => s
  | s, l :: rest, n + 1 => follow step ((step s l).getD s) rest n

section
variable {init : σ → Prop} {step : σ → ι → Option σ} {s t : σ} {idle : ι}

theorem Execution.reach (e : Execution init step) (n : Nat) : Reach init step Any (e.state n) := by
  induction n with
  | zero => exact .start e.start
  | succ n ih => exact .next ih trivial (e.next n)

/-- What a step keeps from some point on holds at every later point. -/
theorem Execution.stable (e : Execution init step) {P : σ → Prop} {N : Nat} (h0 : P (e.state N))
    (hstep : ∀ n, N ≤ n → P (e.state n) → P (e.state (n + 1))) : ∀ n, N ≤ n → P (e.state n) := by
  intro n hn
  induction n, hn using Nat.le_induction with
  | base => exact h0
  | succ n hn ih => exact hstep n hn ih

/-- A rank that never rises from some point on stops falling. -/
theorem Execution.rank_settles {α : Type} [PartialOrder α] [WellFoundedLT α] (e : Execution init step)
    (rank : σ → α) (N : Nat) (hle : ∀ n, N ≤ n → rank (e.state (n + 1)) ≤ rank (e.state n)) :
    ∃ M, N ≤ M ∧ ∀ n, M ≤ n → ¬ rank (e.state (n + 1)) < rank (e.state n) := by
  have hanti : Antitone (fun k => rank (e.state (N + k))) :=
    antitone_nat_of_succ_le (fun k => hle (N + k) (Nat.le_add_right N k))
  obtain ⟨k, hk⟩ := WellFoundedLT.antitone_chain_condition hanti
  refine ⟨N + k, Nat.le_add_right N k, fun n hn hlt => ?_⟩
  have hn' : N + (n - N) = n := by omega
  have h₁ := hk (n - N) (by omega)
  have h₂ := hk (n - N + 1) (by omega)
  rw [← Nat.add_assoc, hn'] at h₂
  rw [hn'] at h₁
  rw [← h₁, ← h₂] at hlt
  exact lt_irrefl _ hlt

/-- A finite run that ends where an idle step is possible for ever. -/
theorem follow_next (ls : List ι) (hidle : step t idle = some t) (hrun : run step Any s ls = some t) :
    ∀ n, step (follow step s ls n) (ls.getD n idle) = some (follow step s ls (n + 1)) := by
  induction ls generalizing s with
  | nil =>
    intro n
    simp only [run, Option.some.injEq] at hrun
    subst hrun
    cases n <;> exact hidle
  | cons l rest ih =>
    simp only [run, if_pos (show Any s l from trivial)] at hrun
    obtain ⟨s₁, h₁, hrest⟩ := Option.bind_eq_some_iff.mp hrun
    intro n
    cases n with
    | zero => simp [follow, h₁]
    | succ n => simpa [follow, h₁] using ih hrest n

theorem follow_end (ls : List ι) (hrun : run step Any s ls = some t) :
    ∀ n, ls.length ≤ n → follow step s ls n = t := by
  induction ls generalizing s with
  | nil =>
    intro n _
    simp only [run, Option.some.injEq] at hrun
    cases n <;> exact hrun
  | cons l rest ih =>
    simp only [run, if_pos (show Any s l from trivial)] at hrun
    obtain ⟨s₁, h₁, hrest⟩ := Option.bind_eq_some_iff.mp hrun
    intro n hn
    cases n with
    | zero => simp at hn
    | succ n => simpa [follow, h₁] using ih hrest n (by simpa using hn)

end

/-! ## Logs, newest event first -/

/-- Some event of `log` satisfies `req` and none after it satisfies `ack`. -/
def Owed (req ack : ε → Prop) : List ε → Prop
  | [] => False
  | e :: rest => ¬ ack e ∧ (req e ∨ Owed req ack rest)

/-- No event satisfying `bad` comes after one satisfying `fence`. -/
def NeverAfter (fence bad : ε → Prop) (log : List ε) : Prop :=
  ∀ newer e older, log = newer ++ e :: older → fence e → ∀ b ∈ newer, ¬ bad b

section
variable {req ack fence bad : ε → Prop} {log : List ε} {e : ε}

/-- Nothing is owed exactly when every request has an answer after it. -/
theorem not_owed_iff (hd : ∀ e, req e → ¬ ack e) :
    ¬ Owed req ack log ↔
      ∀ newer e older, log = newer ++ e :: older → req e → ∃ a ∈ newer, ack a := by
  induction log with
  | nil => simp [Owed]
  | cons x rest ih =>
    constructor
    · intro h newer e older hlog hreq
      cases newer with
      | nil =>
        simp only [List.nil_append, List.cons.injEq] at hlog
        obtain ⟨rfl, rfl⟩ := hlog
        exact absurd ⟨hd _ hreq, Or.inl hreq⟩ h
      | cons y ys =>
        simp only [List.cons_append, List.cons.injEq] at hlog
        obtain ⟨rfl, hrest⟩ := hlog
        by_cases hx : ack x
        · exact ⟨x, .head _, hx⟩
        · have hno : ¬ Owed req ack rest := fun ho => h ⟨hx, Or.inr ho⟩
          obtain ⟨a, ha, hack⟩ := ih.mp hno ys e older hrest hreq
          exact ⟨a, .tail _ ha, hack⟩
    · rintro h ⟨hx, hreq | hrest⟩
      · obtain ⟨a, ha, _⟩ := h [] x rest rfl hreq
        simp at ha
      · refine absurd hrest (ih.mpr ?_)
        intro newer e older hlog hreq
        obtain ⟨a, ha, hack⟩ := h (x :: newer) e older (by rw [hlog]; rfl) hreq
        rcases List.mem_cons.mp ha with rfl | ha
        · exact absurd hack hx
        · exact ⟨a, ha, hack⟩

/-- What is owed was requested. -/
theorem Owed.requested (h : Owed req ack log) : ∃ e ∈ log, req e := by
  induction log with
  | nil => cases h
  | cons x rest ih =>
    rcases h.2 with hreq | hrest
    · exact ⟨x, .head _, hreq⟩
    · obtain ⟨e, he, hreq⟩ := ih hrest
      exact ⟨e, .tail _ he, hreq⟩

theorem NeverAfter.nil : NeverAfter fence bad [] := by
  intro newer e older h
  cases newer <;> simp at h

/-- A new event keeps the order if it is not `bad`, or if no `fence` stands in the log. -/
theorem NeverAfter.cons (h : NeverAfter fence bad log)
    (hx : bad e → ∀ f ∈ log, ¬ fence f) : NeverAfter fence bad (e :: log) := by
  intro newer f older hlog hf b hb
  cases newer with
  | nil => simp at hb
  | cons y ys =>
    simp only [List.cons_append, List.cons.injEq] at hlog
    obtain ⟨rfl, rfl⟩ := hlog
    rcases List.mem_cons.mp hb with rfl | hb
    · exact fun hbad => hx hbad f (by simp) hf
    · exact h ys f older rfl hf b hb

end

end Machine
