import Mathlib.Data.List.GetD
import Mathlib.Data.Prod.Lex
import GameNet.EventLoop.FinalDrain

/- After `quit()` the loop comes to Shutdown.

   Once admission is closed every plane can only shrink, so a drain iteration that
   returns to its head has consumed something. The rank makes this one number: for each
   plane the work that is left counts twice, and once more as long as the iteration
   has already passed the point where it consumes that plane. Passing that point lowers
   the first part and returning to the head lowers the second. A wait may fill the
   active batch again, but a drain iteration waits at most once. Below these stand the
   position in the iteration and the entries left at it. -/
namespace GameNet.EventLoop

/-! ## The rank -/

/-- Whether the iteration still comes to the point that takes functors. -/
def Pc.functorsAhead : Pc → Bool
  | .condControl st | .controlStart st | .controlNext st _ | .controlCall st _ _
  | .controlHandler st _ | .controlMetric st _ | .condLifecycle st | .lifecycleStart st
  | .lifecycleNext st _ _ | .lifecycleCall st _ _ _ | .lifecycleHandler st _ _
  | .lifecycleMetric st _ | .condFunctors st | .functorStart st => decide (st ≠ .quiescing false)
  | .functorMetric _ _ | .functorNext _ _ | .functorCall _ _ | .functorEnd _ | .checkFunctors _
  | .checkControl _ | .checkLifecycle _ | .checkActive _ | .publish _ | .finished => false
  | _ => true

/-- Whether the iteration still comes to the selection of control sources. -/
def Pc.controlAhead : Pc → Bool
  | .controlNext _ _ | .controlCall _ _ _ | .controlHandler _ _ | .controlMetric _ _
  | .condLifecycle _ | .lifecycleStart _ | .lifecycleNext _ _ _ | .lifecycleCall _ _ _ _
  | .lifecycleHandler _ _ _ | .lifecycleMetric _ _ | .condFunctors _ | .functorStart _
  | .functorMetric _ _ | .functorNext _ _ | .functorCall _ _ | .functorEnd _ | .checkFunctors _
  | .checkControl _ | .checkLifecycle _ | .checkActive _ | .publish _ | .finished => false
  | _ => true

/-- Whether the iteration has still to take its first lifecycle node. -/
def Pc.lifecycleAhead : Pc → Bool
  | .lifecycleNext _ left drained => decide (left ≠ 0 ∧ drained = 0)
  | .lifecycleCall _ _ _ _ | .lifecycleHandler _ _ _ | .lifecycleMetric _ _ | .condFunctors _
  | .functorStart _ | .functorMetric _ _ | .functorNext _ _ | .functorCall _ _ | .functorEnd _
  | .checkFunctors _ | .checkControl _ | .checkLifecycle _ | .checkActive _ | .publish _
  | .finished => false
  | _ => true

/-- Whether the iteration has still to dispatch its first Channel. -/
def Pc.channelsAhead : Pc → Bool
  | .outside | .top _ | .pollControl | .pollLifecycle | .pollTimers | .wait _ _ | .waitMetric _
  | .dispatch _ => true
  | .dispatchLoop _ drained => decide (drained = 0)
  | _ => false

/-- Whether the loop waits before it comes back to its head. -/
def State.waitAhead (s : State) : Bool :=
  match s.pc with
  | .pollControl | .pollLifecycle | .pollTimers | .wait _ _ => true
  | .top (.quiescing _) => !s.channels.hasPending
  | .top .finalDraining => !s.channels.hasPending && !s.quiescent
  | _ => false

/-- The stations an iteration has still to pass, once `quit()` was called. -/
def Pc.position : Pc → Nat
  | .top .running | .finished => 0
  | .outside => 1
  | .publish _ => 8
  | .checkActive _ => 9
  | .checkLifecycle _ => 10
  | .checkControl _ => 11
  | .checkFunctors _ => 12
  | .functorEnd _ => 13
  | .functorNext _ _ | .functorCall _ _ => 14
  | .functorMetric _ _ => 15
  | .functorStart _ => 16
  | .condFunctors _ => 17
  | .lifecycleMetric _ _ => 18
  | .lifecycleNext _ _ _ | .lifecycleCall _ _ _ _ | .lifecycleHandler _ _ _ => 19
  | .lifecycleStart _ => 20
  | .condLifecycle _ => 21
  | .controlMetric _ _ => 22
  | .controlNext _ _ | .controlCall _ _ _ | .controlHandler _ _ => 23
  | .controlStart _ => 24
  | .condControl _ => 25
  | .readPending => 26
  | .timers => 27
  | .dispatchMetric _ _ => 28
  | .dispatchLoop _ _ => 29
  | .handling _ _ _ => 30
  | .dispatch _ => 31
  | .waitMetric _ => 32
  | .wait _ _ => 33
  | .pollTimers => 34
  | .pollLifecycle => 35
  | .pollControl | .top _ => 36

/-- What is left to do at a station. -/
def State.left (s : State) : Nat :=
  match s.pc with
  | .dispatchLoop _ _ | .handling _ _ _ => s.channels.rest.length
  | .controlCall _ _ words => 3 * words.length + 2
  | .controlHandler _ words => 3 * words.length + 1
  | .controlNext _ words => 3 * words.length
  | .lifecycleCall _ left _ _ => 3 * left + 2
  | .lifecycleHandler _ left _ => 3 * left + 1
  | .lifecycleNext _ left _ => 3 * left
  | .functorCall _ batch => 2 * batch.length + 1
  | .functorNext _ batch => 2 * batch.length
  | _ => 0

/-- `count` pieces of work that the iteration has still ahead of it, or has passed. -/
def owed (ahead : Bool) (count : Nat) : Nat := 2 * count + if ahead then 0 else min count 1

@[simp] theorem owed_true (count : Nat) : owed true count = 2 * count := rfl

@[simp] theorem owed_false (count : Nat) : owed false count = 2 * count + min count 1 := rfl

theorem owed_mono (ahead : Bool) {m n : Nat} (h : m ≤ n) : owed ahead m ≤ owed ahead n := by
  cases ahead <;> simp <;> omega

def Stage.rank : Stage → Nat
  | .running => 2
  | .quiescing _ => 1
  | .finalDraining => 0

/-- The work of the three planes. -/
def State.planesLeft (s : State) : Nat :=
  owed s.pc.functorsAhead s.executor.pendingFunctors.length +
    owed s.pc.controlAhead s.control.pendingCount +
    owed s.pc.lifecycleAhead s.lifecycle.pendingCount

/-- Most significant first. -/
abbrev Rank := Nat ×ₗ Nat ×ₗ Nat ×ₗ Nat ×ₗ Nat ×ₗ Nat

def State.rank (s : State) : Rank :=
  toLex (s.pc.stage.rank, toLex (s.planesLeft, toLex (s.waitAhead.toNat,
    toLex (owed s.pc.channelsAhead s.channels.remaining, toLex (s.pc.position, s.left)))))

section
variable {o : Options} {maxNotices : Nat} {s s' : State} {l : Label}

theorem rank_lt_iff : s'.rank < s.rank ↔
    s'.pc.stage.rank < s.pc.stage.rank ∨ s'.pc.stage.rank = s.pc.stage.rank ∧
      (s'.planesLeft < s.planesLeft ∨ s'.planesLeft = s.planesLeft ∧
        (s'.waitAhead.toNat < s.waitAhead.toNat ∨ s'.waitAhead.toNat = s.waitAhead.toNat ∧
          (owed s'.pc.channelsAhead s'.channels.remaining < owed s.pc.channelsAhead s.channels.remaining ∨
            owed s'.pc.channelsAhead s'.channels.remaining = owed s.pc.channelsAhead s.channels.remaining ∧
              (s'.pc.position < s.pc.position ∨ s'.pc.position = s.pc.position ∧ s'.left < s.left)))) := by
  simp only [State.rank, Prod.Lex.toLex_lt_toLex]

/-- A step to a later station. -/
theorem rank_lt_of_position (hst : s'.pc.stage.rank = s.pc.stage.rank)
    (hp : s'.planesLeft ≤ s.planesLeft) (hw : s'.waitAhead.toNat ≤ s.waitAhead.toNat)
    (hc : owed s'.pc.channelsAhead s'.channels.remaining ≤ owed s.pc.channelsAhead s.channels.remaining)
    (hpos : s'.pc.position < s.pc.position) : s'.rank < s.rank := by
  rw [rank_lt_iff]
  omega

/-- A step at one station. -/
theorem rank_lt_of_left (hst : s'.pc.stage.rank = s.pc.stage.rank)
    (hp : s'.planesLeft ≤ s.planesLeft) (hw : s'.waitAhead.toNat ≤ s.waitAhead.toNat)
    (hc : owed s'.pc.channelsAhead s'.channels.remaining ≤ owed s.pc.channelsAhead s.channels.remaining)
    (hpos : s'.pc.position = s.pc.position) (hleft : s'.left < s.left) : s'.rank < s.rank := by
  rw [rank_lt_iff]
  omega

/-- A call of user code or of another thread that adds nothing. -/
theorem rank_le_of_call (hpc : s'.pc = s.pc)
    (hf : s'.executor.pendingFunctors.length ≤ s.executor.pendingFunctors.length)
    (hc : s'.control.pendingCount ≤ s.control.pendingCount)
    (hl : s'.lifecycle.pendingCount ≤ s.lifecycle.pendingCount)
    (hw : s'.waitAhead = s.waitAhead) (hr : s'.channels.remaining ≤ s.channels.remaining)
    (hrest : s'.channels.rest.length = s.channels.rest.length) : s'.rank ≤ s.rank := by
  have h₁ := owed_mono s.pc.functorsAhead hf
  have h₂ := owed_mono s.pc.controlAhead hc
  have h₃ := owed_mono s.pc.lifecycleAhead hl
  have h₄ := owed_mono s.pc.channelsAhead hr
  have hleft : s'.left = s.left := by simp only [State.left, hpc, hrest]
  have hplanes : s'.planesLeft ≤ s.planesLeft := by
    simp only [State.planesLeft, hpc]
    omega
  simp only [State.rank, Prod.Lex.toLex_le_toLex, hpc, hw, hleft, lt_self_iff_false, false_or,
    true_and, le_refl, and_true]
  omega

/-! ## The active batch -/

theorem remaining_eq_zero {c : Channels} (h : c.hasPending = false) : c.remaining = 0 := by
  simp only [Channels.hasPending, List.any_eq_false] at h
  exact List.countP_eq_zero.mpr (fun x hx => by simpa using h x hx)

theorem remaining_pos {c : Channels} (h : c.hasPending = true) : 0 < c.remaining := by
  simp only [Channels.hasPending, List.any_eq_true] at h
  exact List.countP_pos_iff.mpr h

theorem remaining_clear (c : Channels) : c.clear.remaining = 0 := rfl

variable {c c' : Channels}

/-- Two batches with the same entries and cursor. -/
theorem remaining_congr (ha : c'.activeChannels = c.activeChannels)
    (hc : c'.activeChannelCursor = c.activeChannelCursor) :
    c'.remaining = c.remaining ∧ c'.rest = c.rest := by
  simp only [Channels.remaining, Channels.rest, ha, hc, and_self]

theorem remaining_same (h : c.SameBatch c') :
    c'.remaining = c.remaining ∧ c'.rest = c.rest :=
  remaining_congr h.activeChannels h.cursor

/-- The cursor passes the first of the entries that are left. -/
theorem rest_advance {entry : Option Nat} {rest : List (Option Nat)}
    (h : c.rest = entry :: rest) (ha : c'.activeChannels = c.activeChannels)
    (hc : c'.activeChannelCursor = c.activeChannelCursor + 1) : c'.rest = rest := by
  simp only [Channels.rest, ha, hc] at h ⊢
  rw [← List.tail_drop, h]
  rfl

theorem enter_batch (c : Channels) (id : Nat) : (c.enter id).activeChannels = c.activeChannels ∧
    (c.enter id).activeChannelCursor = c.activeChannelCursor + 1 := by
  unfold Channels.enter
  dsimp only
  split <;> exact ⟨rfl, rfl⟩

/-- An emptied entry leaves the batch as long as it was. -/
theorem remaining_set_none (entries : List (Option Nat)) (cursor index : Nat) :
    ((entries.set index none).drop cursor).countP Option.isSome ≤
        (entries.drop cursor).countP Option.isSome ∧
      ((entries.set index none).drop cursor).length = (entries.drop cursor).length := by
  refine ⟨?_, by simp⟩
  rw [List.drop_set]
  split
  · exact Nat.le_refl _
  · by_cases hi : index - cursor < (entries.drop cursor).length
    · rw [List.countP_set hi]
      simp
    · rw [List.set_eq_of_length_le (by omega)]

theorem remaining_removes {id : Nat} {st : Stamp} (h : c.Removes c' id st) :
    c'.remaining ≤ c.remaining ∧ c'.rest.length = c.rest.length := by
  simp only [Channels.remaining, Channels.rest, h.cursor]
  rcases h.entry with ⟨_, _, heq⟩ | ⟨_, heq⟩
  · rw [heq]
    exact remaining_set_none _ _ _
  · rw [heq]
    exact ⟨Nat.le_refl _, rfl⟩

/-! ## The steps of the loop -/

attribute [local simp] State.planesLeft State.waitAhead State.left Pc.stage Stage.rank Pc.functorsAhead
  Pc.controlAhead Pc.lifecycleAhead Pc.channelsAhead Pc.position State.wakeIf remaining_clear

variable {st : Stage}

theorem rank_advanceTop (hpc : s.pc = .top st) (hq : s.quit = true)
    (hquiet : s.quiescent = true) : (s.advanceTop st).rank < s.rank := by
  cases st with
  | running =>
    rw [rank_lt_iff]
    left
    simp [State.advanceTop, hq, hpc]
  | quiescing b =>
    simp only [State.advanceTop]
    split
    · rename_i hpend
      apply rank_lt_of_position <;> simp [hpc, hpend]
    · rename_i hpend
      apply rank_lt_of_position <;> simp [hpc, hpend]
  | finalDraining =>
    simp only [State.advanceTop]
    split
    · rename_i hpend
      apply rank_lt_of_position <;> simp [hpc, hpend]
    · rename_i hpend
      have hrem := remaining_eq_zero (c := s.channels) (by simpa using hpend)
      rw [if_neg (by simp [hquiet])]
      apply rank_lt_of_position <;> simp [hpc, hrem]

theorem rank_advanceDispatch (hpc : s.pc = .dispatch st)
    (hs : s.advanceDispatch st = some s') : s'.rank < s.rank := by
  unfold State.advanceDispatch at hs
  split at hs
  · cases hs
    cases st <;> apply rank_lt_of_position <;> simp [hpc, Stage.afterDispatch]
  · obtain ⟨c, hc, rfl⟩ := Option.map_eq_some_iff.mp hs
    have hsame : c.remaining = s.channels.remaining := by
      split at hc
      · obtain ⟨channel, rfl, -⟩ := stamp_spec hc
        rfl
      · cases hc
        rfl
    have hrem : ({ c with eventHandling := true } : Channels).remaining = s.channels.remaining := hsame
    apply rank_lt_of_position <;> simp [hpc, hrem]

theorem rank_advanceDispatchLoop {drained : Nat} (hpc : s.pc = .dispatchLoop st drained) :
    (s.advanceDispatchLoop o.toEventLoopOptions st drained).rank < s.rank := by
  have hbudget := o.budgets_pos.2.2.1
  unfold State.advanceDispatchLoop
  dsimp only
  split
  · split
    · rename_i hrest
      have hrem : s.channels.remaining = 0 := by simp [Channels.remaining, hrest]
      have hrem' : ({ s.channels with eventHandling := false } : Channels).remaining = 0 := hrem
      apply rank_lt_of_position <;> simp [hpc, hrem']
    · rename_i rest hrest
      -- an emptied entry: the cursor passes it
      have hrest' : ({ s.channels with
          activeChannelCursor := s.channels.activeChannelCursor + 1 } : Channels).rest = rest :=
        rest_advance hrest rfl rfl
      apply rank_lt_of_left <;> simp [hpc, Channels.remaining, hrest, hrest']
    · rename_i id rest hrest
      obtain ⟨ha, hc⟩ := enter_batch s.channels id
      have hrest' := rest_advance hrest ha hc
      have hrem : s.channels.remaining = (s.channels.enter id).remaining + 1 := by
        simp [Channels.remaining, hrest, hrest']
      rw [rank_lt_iff]
      right
      cases drained <;> simp [hpc, hrem] <;> omega
  · rename_i hover
    have hpos : drained ≠ 0 := by omega
    have hrem' : ({ s.channels with eventHandling := false } : Channels).remaining = s.channels.remaining := rfl
    apply rank_lt_of_position <;> simp [hpc, hrem', hpos]

theorem rank_select (h : Inv s) (hpc : s.pc = .controlStart st) {pc' : Pc}
    (hpc' : pc' = .controlNext st (s.control.select o.toEventLoopOptions.maxControlCallbacksPerIteration).1 ∨
      (s.control.select o.toEventLoopOptions.maxControlCallbacksPerIteration).1 = [] ∧
        pc' = st.afterControl) :
    ({ s with control := (s.control.select o.toEventLoopOptions.maxControlCallbacksPerIteration).2
              pc := pc' } : State).rank < s.rank := by
  have hbudget := o.budgets_pos.2.2.2
  have hcount := h.control.count
  -- either nothing was pending or at least one bit was taken
  have hless : (s.control.select o.toEventLoopOptions.maxControlCallbacksPerIteration).2.pendingCount +
      min s.control.pendingCount 1 ≤ s.control.pendingCount := by
    simp only [Control.select, List.length_take]
    omega
  rcases hpc' with rfl | ⟨_, rfl⟩
  · apply rank_lt_of_position <;> simp [hpc]
    omega
  · cases st <;> apply rank_lt_of_position <;> simp [hpc, Stage.afterControl] <;> omega

theorem rank_advanceControl {slot : Nat} {words : List Nat}
    (hpc : s.pc = .controlNext st (slot :: words)) : (s.advanceControl st slot words).rank < s.rank := by
  unfold State.advanceControl
  split
  · split
    · apply rank_lt_of_left <;> simp [hpc]
      omega
    · apply rank_lt_of_left <;> simp [hpc]
  · apply rank_lt_of_left <;> simp [hpc]

theorem rank_advanceLifecycle {left drained : Nat} (h : Inv s)
    (hpc : s.pc = .lifecycleNext st left drained) (hs : s.advanceLifecycle st left drained = some s') :
    s'.rank < s.rank := by
  -- the round ends: it has taken a node, or there was none to take
  have hover : (left = 0 ∨ s.lifecycle.pendingCount = 0) →
      ((if drained ≠ 0 then { s with pc := .lifecycleMetric st s.lifecycle.pendingCount }
        else { s.wakeIf s.lifecycle.pendingCount with pc := st.afterLifecycle }) : State).rank < s.rank := by
    intro hleft
    split
    · rename_i hd
      apply rank_lt_of_position <;> simp [hpc, hd]
    · rename_i hd
      simp only [ne_eq, Decidable.not_not] at hd
      rcases hleft with rfl | hzero
      · cases st <;> apply rank_lt_of_position <;> simp [hpc, hd, Stage.afterLifecycle]
      · cases st <;> apply rank_lt_of_position <;> simp [hpc, hd, hzero, Stage.afterLifecycle, owed]
  unfold State.advanceLifecycle at hs
  dsimp only at hs
  split at hs
  · cases hs
    exact hover (Or.inl rfl)
  · rename_i hdirty
    cases hs
    exact hover (Or.inr (by rw [h.lifecycle.count, hdirty]; rfl))
  · rename_i left id rest hdirty
    obtain ⟨lc, hpop, hgood, hd, _, _⟩ := h.lifecycle.pop hdirty
    rw [hpop] at hs
    cases hs
    have hcount : s.lifecycle.pendingCount = lc.pendingCount + 1 := by
      rw [h.lifecycle.count, hgood.count, hdirty, hd]
      rfl
    rw [rank_lt_iff]
    right
    cases drained <;> simp [hpc, hcount] <;> omega

theorem rank_advanceFunctors (hpc : s.pc = .functorStart st) :
    (s.advanceFunctors o.toEventLoopOptions st).rank < s.rank := by
  have hbudget := o.budgets_pos.1
  unfold State.advanceFunctors
  dsimp only
  have hless : owed false (s.executor.pendingFunctors.length -
      o.toEventLoopOptions.maxFunctorsPerIteration) ≤
        owed (decide (st ≠ .quiescing false)) s.executor.pendingFunctors.length := by
    cases decide (st ≠ .quiescing false) <;> simp <;> omega
  split
  · apply rank_lt_of_position <;> simp [hpc] at hless ⊢
    omega
  · apply rank_lt_of_position <;> simp [hpc] at hless ⊢
    omega

/-- A drain iteration that found work left goes back to the head of its loop. -/
theorem rank_head (hst : s.pc.stage = st) (hf : s.pc.functorsAhead = false)
    (hc : s.pc.controlAhead = false) (hl : s.pc.lifecycleAhead = false)
    (hwork : s.executor.pendingFunctors ≠ [] ∨ s.control.pendingCount ≠ 0 ∨
      s.lifecycle.pendingCount ≠ 0) : ({ s with pc := .top st } : State).rank < s.rank := by
  have hsome : 0 < s.executor.pendingFunctors.length + s.control.pendingCount +
      s.lifecycle.pendingCount := by
    rcases hwork with h | h | h
    · have := List.length_pos_iff.mpr h
      omega
    · omega
    · omega
  rw [rank_lt_iff]
  right
  refine ⟨by rw [hst]; rfl, Or.inl ?_⟩
  simp only [State.planesLeft, hf, hc, hl, owed_false]
  simp only [Pc.functorsAhead, Pc.controlAhead, Pc.lifecycleAhead, owed_true]
  omega

/-- Every step of the loop that the state determines lowers the rank. -/
theorem rank_advance (h : Inv s) (hq : s.quit = true) (hquiet : s.quiescent = true)
    (hs : s.advance o.toEventLoopOptions = some s') : s'.rank < s.rank := by
  unfold State.advance at hs
  split at hs
  case h_1 st hpc => cases hs; exact rank_advanceTop hpc hq hquiet
  case h_2 hpc | h_3 hpc => cases hs; split <;> apply rank_lt_of_position <;> simp [hpc]
  case h_4 st hpc => exact rank_advanceDispatch hpc hs
  case h_5 st drained hpc => cases hs; exact rank_advanceDispatchLoop hpc
  case h_6 hpc =>
    cases hs
    by_cases hnil : s.executor.pendingFunctors = [] <;> apply rank_lt_of_position <;> simp [hpc, hnil]
  case h_7 st hpc | h_11 st hpc | h_15 st _ hpc =>
    cases hs
    split
    · apply rank_lt_of_position <;> simp [hpc]
    · rename_i hzero
      apply rank_lt_of_position <;> simp [hpc, not_not.mp hzero]
  case h_8 st hpc =>
    dsimp only at hs
    split at hs
    · rename_i hnil
      cases hs
      exact rank_select h hpc (Or.inr ⟨hnil, rfl⟩)
    · cases hs
      exact rank_select h hpc (Or.inl rfl)
  case h_9 st hpc | h_17 st hpc => cases hs; apply rank_lt_of_position <;> simp [hpc]
  case h_10 st slot words hpc => cases hs; exact rank_advanceControl hpc
  case h_12 st hpc =>
    have hbudget := o.budgets_pos.2.1
    cases hs
    by_cases hzero : s.lifecycle.pendingCount = 0
    · apply rank_lt_of_position <;> simp [hpc, hzero]
    · have hround : min o.toEventLoopOptions.maxLifecycleCallbacksPerIteration
          s.lifecycle.pendingCount ≠ 0 := by omega
      apply rank_lt_of_position <;> simp [hpc, hround]
  case h_13 st left drained hpc => exact rank_advanceLifecycle h hpc hs
  case h_14 b hpc => cases hs; cases b <;> apply rank_lt_of_position <;> simp [hpc]
  case h_16 st hpc => cases hs; exact rank_advanceFunctors hpc
  case h_18 st f batch hpc =>
    cases hs
    apply rank_lt_of_left <;> simp [hpc]
    omega
  case h_19 st hpc =>
    cases hs
    cases st <;> apply rank_lt_of_position <;> simp [hpc, Stage.afterFunctors]
    omega
  case h_20 st hpc | h_21 st hpc | h_22 st hpc =>
    cases hs
    split
    · rename_i hsome
      apply rank_head <;> simp [hpc, hsome]
    · apply rank_lt_of_position <;> simp [hpc]
  case h_23 st hpc =>
    cases hs
    split
    · rename_i hsome
      have hpend : s.channels.hasPending = true := by simpa [hquiet] using hsome
      have hrem := remaining_pos hpend
      rw [rank_lt_iff]
      right
      cases st <;> simp [hpc, hpend] <;> omega
    · apply rank_lt_of_position <;> simp [hpc]
  case h_24 st hpc =>
    cases hs
    cases st with
    | finalDraining => apply rank_lt_of_position <;> simp [hpc, State.publishPhase]
    | running | quiescing b => rw [rank_lt_iff]; left; simp [hpc, State.publishPhase]
  case h_25 => cases hs

/-- User code that returns lowers the rank. -/
theorem rank_leave {threw : Bool} (hs : s.leave threw = some s') : s'.rank < s.rank := by
  unfold State.leave at hs
  split at hs
  case h_1 st hpc | h_4 hpc | h_11 st batch hpc => cases hs; apply rank_lt_of_position <;> simp [hpc]
  case h_2 st drained id hpc =>
    obtain ⟨c, hc, rfl⟩ := Option.map_eq_some_iff.mp hs
    obtain ⟨hrem, _⟩ := remaining_same (Channels.leave_same hc).1
    apply rank_lt_of_position <;> simp [hpc, hrem]
    exact Nat.add_le_add_left (by split <;> omega) _
  case h_3 st remaining hpc =>
    have hrem : (if remaining = 0 then s.channels.clear else s.channels).remaining ≤
        s.channels.remaining := by
      split
      · exact Nat.zero_le _
      · exact Nat.le_refl _
    have howed := owed_mono false hrem
    simp only [owed_false] at howed
    cases hs
    cases st <;> apply rank_lt_of_position <;> simp [hpc, Stage.afterDispatch, howed]
  case h_5 st slot words hpc =>
    cases hs
    have hcount : (if s.control.activeCallbackSlot = some slot then
        { s.control with activeCallbackSlot := none } else s.control).pendingCount =
          s.control.pendingCount := by split <;> rfl
    cases threw <;> apply rank_lt_of_left <;> simp [hpc, hcount]
  case h_6 st words hpc | h_9 st left drained hpc | h_12 st batch hpc =>
    cases hs
    apply rank_lt_of_left <;> simp [hpc]
  case h_7 st remaining hpc =>
    cases hs
    cases st <;> apply rank_lt_of_position <;> simp [hpc, Stage.afterControl]
  case h_8 st left drained id hpc =>
    obtain ⟨_, _, hcount, _⟩ := s.lifecycle.finish_eq id
    cases hs
    cases threw <;> apply rank_lt_of_left <;> simp [hpc, hcount]
  case h_10 st remaining hpc =>
    cases hs
    cases st <;> apply rank_lt_of_position <;> simp [hpc, Stage.afterLifecycle]
  case h_13 => cases hs

/-! ## Runs after `quit()` -/

/-- A notification or a signal that is accepted; after `quit()` only a source whose callback
    runs can make one. -/
def Rearms (s : State) : Label → Prop
  | .notify caller source => (s.notify caller source).1 = .accepted
  | .signal caller source => (s.signal caller source).1 = .accepted
  | _ => False

/-- A step of the loop lowers the rank. -/
theorem rank_loop (h : Inv s) (hq : s.quit = true) (hquiet : s.quiescent = true)
    (hl : l.ofLoop = true) (hs : step o maxNotices s l = some s') : s'.rank < s.rank := by
  cases step_took hs with
  | start hpc | timeout _ hpc => apply rank_lt_of_position <;> simp [hpc]
  | advance hs => exact rank_advance h hq hquiet hs
  | wait native hpc | wake native hpc =>
    -- the batch may grow, but the iteration has no further wait ahead
    rw [rank_lt_iff]
    right
    simp [hpc]
  | leave hs => exact rank_leave hs
  | refused hl' => cases hl.symm.trans hl'
  | channels _ hc => cases hl.symm.trans hc.ofLoop
  | _ => cases hl

/-- A call on the Channels adds no entry to the batch. -/
theorem ChannelsCall.remaining {c c' : Channels} (h : ChannelsCall c l c') :
    c'.remaining ≤ c.remaining ∧ c'.rest.length = c.rest.length := by
  have hsame : c.SameBatch c' → c'.remaining ≤ c.remaining ∧ c'.rest.length = c.rest.length := by
    intro hcc
    obtain ⟨hrem, hrest⟩ := remaining_same hcc
    exact ⟨Nat.le_of_eq hrem, by rw [hrest]⟩
  cases h with
  | new fd label eq => subst eq; exact ⟨Nat.le_refl _, rfl⟩
  | set id setter label eq => exact hsame (eq ▸ setter.call_eq c id ▸ (c.setEvents_same id _).1)
  | remove id label eq =>
    rcases Channels.remove_cases eq with rfl | ⟨st, hrem⟩
    · exact ⟨Nat.le_refl _, rfl⟩
    · exact remaining_removes hrem
  | destroy id label eq => exact hsame (Channels.destroy_same eq).1
  | retire id label eq => exact hsame (Channels.retire_same eq).1

/-- A call that leaves the position, the planes' sizes and the Channels alone. -/
theorem rank_le_of_planes (hpc : s'.pc = s.pc) (hch : s'.channels = s.channels)
    (hquiet : s'.quiescent = s.quiescent)
    (hf : s'.executor.pendingFunctors.length ≤ s.executor.pendingFunctors.length)
    (hc : s'.control.pendingCount ≤ s.control.pendingCount)
    (hl : s'.lifecycle.pendingCount ≤ s.lifecycle.pendingCount) : s'.rank ≤ s.rank := by
  refine rank_le_of_call hpc hf hc hl ?_ (by rw [hch]) (by rw [hch])
  simp only [State.waitAhead, hpc, hch, hquiet]

variable {caller : Caller}

/-- A refused call changes nothing. -/
theorem postFunctor_refused {kind : Admission} {cb : Option Nat} (h : Inv s)
    (hq : s.quit = true) : (s.postFunctor o.toEventLoopOptions caller kind cb).2 = s := by
  unfold State.postFunctor
  rcases s.executor.postFunctor_cases o.toEventLoopOptions kind cb with hno | ⟨f, rfl, hacc, _⟩
  · simp only [if_neg hno]
  · rw [(h.closed hq).1] at hacc
    cases hacc

theorem notify_refused {source : ControlSource}
    (hno : (s.notify caller source).1 ≠ .accepted) : (s.notify caller source).2 = s := by
  unfold State.notify at hno ⊢
  dsimp only at hno ⊢
  split at hno
  · rename_i hacc
    exact absurd hacc hno
  · rename_i hacc
    rw [if_neg hacc]

theorem signal_refused {source : LifecycleSource}
    (hno : (s.signal caller source).1 ≠ .accepted) : (s.signal caller source).2 = s := by
  unfold State.signal at hno ⊢
  dsimp only at hno ⊢
  split at hno
  · rename_i hacc
    exact absurd hacc hno
  · rename_i hacc
    rw [if_neg hacc]

/-- A second `quit()` marks no participant. -/
theorem rank_quitLoop (h : Inv s) (hq : s.quit = true) :
    (s.quitLoop caller).rank ≤ s.rank := by
  have hrun := (h.closed hq).2.2
  unfold State.quitLoop
  simp only [if_pos hrun]
  split
  · apply rank_le_of_planes <;> simp
  · apply rank_le_of_planes <;> simp

/-- A call after `quit()` that re-arms nothing does not raise the rank. -/
theorem rank_call (h : Inv s) (hq : s.quit = true) (hquiet : s'.quiescent = s.quiescent)
    (hl : l.ofLoop = false) (hno : ¬ Rearms s l) (hs : step o maxNotices s l = some s') :
    s'.rank ≤ s.rank := by
  cases step_took hs with
  | post => rw [postFunctor_refused h hq]
  | notify => rw [notify_refused hno]
  | signal => rw [signal_refused hno]
  | quit => exact rank_quitLoop h hq
  | refused => exact le_refl _
  | writeWakeup => apply rank_le_of_planes <;> simp
  | register _ hr =>
    obtain ⟨_, _, _, _, rfl⟩ := Control.register_eq hr
    apply rank_le_of_planes <;> simp
  | unregister source =>
    have hcount : (s.control.unregister source).pendingCount ≤ s.control.pendingCount := by
      rcases s.control.unregister_eq source with heq | ⟨_, _, _, hcount, _⟩
      · rw [heq]
      · exact hcount
    apply rank_le_of_planes <;> simp [hcount]
  | attach _ ha => simp [Lifecycle.attach, (h.closed hq).2.2] at ha
  | detach source =>
    have hcount : (s.lifecycle.detach source).pendingCount = s.lifecycle.pendingCount := by
      rw [h.lifecycle.detach.count, s.lifecycle.detach_dirty source, h.lifecycle.count]
    apply rank_le_of_planes <;> simp [hcount]
  | channels huser hc =>
    refine rank_le_of_call rfl (Nat.le_refl _) (Nat.le_refl _) (Nat.le_refl _) ?_ hc.remaining.1
      hc.remaining.2
    -- user code does not run at the head of a loop
    cases hpc : s.pc <;> simp [hpc, Pc.userCode] at huser ⊢
  | engineQuiescent b =>
    exact rank_le_of_planes rfl rfl hquiet (Nat.le_refl _) (Nat.le_refl _) (Nat.le_refl _)
  | _ => cases hl

theorem quitLoop_quit : (s.quitLoop caller).quit = true := by
  unfold State.quitLoop
  dsimp only
  split
  · rfl
  · split <;> simp

theorem advance_quit {o : EventLoopOptions} (hs : s.advance o = some s') : s'.quit = s.quit := by
  unfold State.advance at hs
  split at hs
  case h_1 st hpc =>
    cases hs
    cases st <;> simp only [State.advanceTop] <;> split <;> first | rfl | (split <;> rfl)
  case h_4 st hpc =>
    unfold State.advanceDispatch at hs
    split at hs
    · cases hs
      rfl
    · obtain ⟨c, _, rfl⟩ := Option.map_eq_some_iff.mp hs
      rfl
  case h_5 st drained hpc =>
    cases hs
    unfold State.advanceDispatchLoop
    dsimp only
    split
    · split <;> rfl
    · rfl
  case h_8 st hpc =>
    dsimp only at hs
    split at hs <;> cases hs <;> rfl
  case h_10 st slot words hpc =>
    cases hs
    unfold State.advanceControl
    split
    · split <;> rfl
    · rfl
  case h_13 st left drained hpc =>
    unfold State.advanceLifecycle at hs
    dsimp only at hs
    split at hs
    · cases hs
      split <;> simp
    · cases hs
      split <;> simp
    · obtain ⟨lc, _, rfl⟩ := Option.map_eq_some_iff.mp hs
      rfl
  case h_19 st hpc => cases hs; simp
  case h_24 st hpc => cases hs; cases st <;> rfl
  case h_25 => cases hs
  all_goals cases hs; rfl

theorem leave_quit {threw : Bool} (hs : s.leave threw = some s') : s'.quit = s.quit := by
  unfold State.leave at hs
  split at hs
  case h_2 st drained id hpc =>
    obtain ⟨c, _, rfl⟩ := Option.map_eq_some_iff.mp hs
    rfl
  case h_13 => cases hs
  all_goals cases hs; simp

/-- `quit_` is never reset. -/
theorem step_quit (hq : s.quit = true) (hs : step o maxNotices s l = some s') : s'.quit = true := by
  cases hl : l.ofLoop with
  | false => exact (call_frame hl hs).quit hq
  | true =>
    cases step_took hs with
    | advance hs => exact (advance_quit hs).trans hq
    | leave hs => exact (leave_quit hs).trans hq
    | start | timeout | wait | wake | refused | channels => exact hq
    | _ => cases hl

/-! ## The final drain -/

/-- A run of the loop with its surroundings. -/
abbrev Run (o : Options) (maxNotices : Nat) :=
  Machine.Execution (· = initial o) (step o maxNotices)

/-- The owner thread is scheduled and every callback returns: as long as the loop has not
    published Shutdown it takes another step. -/
def Run.Fair (r : Run o maxNotices) : Prop :=
  ∀ n, (r.state n).phase ≠ .shutdown → ∃ m, n ≤ m ∧ (r.label m).ofLoop = true

/-- A run in which `quit()` was called, sources stop to re-arm themselves and the I/O engine
    becomes quiescent comes to Shutdown. -/
theorem Run.shutdown (r : Run o maxNotices) (hfair : r.Fair)
    (hquit : ∃ n caller, r.label n = .quit caller)
    (hrearm : ∃ N, ∀ n, N ≤ n → ¬ Rearms (r.state n) (r.label n))
    (hengine : ∃ N, ∀ n, N ≤ n → (r.state n).quiescent = true) :
    ∃ n, (r.state n).phase = .shutdown := by
  obtain ⟨n₀, caller, hlabel⟩ := hquit
  obtain ⟨n₁, hno⟩ := hrearm
  obtain ⟨n₂, hquiet⟩ := hengine
  have hinv : ∀ n, Inv (r.state n) := fun n => reach_inv (r.reach n)
  have hset : (r.state (n₀ + 1)).quit = true := by
    have hs := r.next n₀
    rw [hlabel] at hs
    simp only [step] at hs
    split at hs
    · rw [← Option.some.inj hs]
      exact quitLoop_quit
    · cases hs
  have hq := r.stable (P := fun s => s.quit = true) hset (fun n _ hq => step_quit hq (r.next n))
  -- from here on every step of the loop lowers the rank and nothing raises it
  have hloop : ∀ n, n₀ + 1 + n₁ + n₂ ≤ n → (r.label n).ofLoop = true →
      (r.state (n + 1)).rank < (r.state n).rank := fun n hn hl =>
    rank_loop (hinv n) (hq n (by omega)) (hquiet n (by omega)) hl (r.next n)
  have hle : ∀ n, n₀ + 1 + n₁ + n₂ ≤ n → (r.state (n + 1)).rank ≤ (r.state n).rank := by
    intro n hn
    cases hl : (r.label n).ofLoop with
    | true => exact le_of_lt (hloop n hn hl)
    | false =>
      refine rank_call (hinv n) (hq n (by omega)) ?_ hl (hno n (by omega)) (r.next n)
      rw [hquiet n (by omega), hquiet (n + 1) (by omega)]
  obtain ⟨M, hM, hsettled⟩ := r.rank_settles State.rank _ hle
  by_contra hnever
  have hrun : (r.state M).phase ≠ .shutdown := fun hs => hnever ⟨M, hs⟩
  obtain ⟨m, hm, hl⟩ := hfair M hrun
  exact hsettled m hm (hloop m (by omega) hl)

/-- The places where the loop may end the process: a batch that holds a Channel twice, and a
    retired Channel that is still registered. -/
def State.Fatal (s : State) : Prop :=
  match s.pc with
  | .dispatch st => s.advanceDispatch st = none
  | .handling _ _ id => s.channels.leave id = none
  | _ => False

/-- Until `loop()` is over the owner thread has a next step, whatever other threads do. -/
theorem Inv.enabled (h : Inv s) (hpc : s.pc ≠ .finished) (hfatal : ¬ s.Fatal) :
    ∃ l, l.ofLoop = true ∧ (step o maxNotices s l).isSome = true := by
  have hadvance : (s.advance o.toEventLoopOptions).isSome = true →
      ∃ l, l.ofLoop = true ∧ (step o maxNotices s l).isSome = true := fun ha => ⟨.advance, rfl, ha⟩
  have hleave : (s.leave false).isSome = true →
      ∃ l, l.ofLoop = true ∧ (step o maxNotices s l).isSome = true := fun ha => ⟨.leave false, rfl, ha⟩
  cases hp : s.pc with
  | outside => exact ⟨.start, rfl, by simp [step, hp]⟩
  | pollTimers => exact ⟨.timeout 0, rfl, by simp [step, hp]⟩
  | wait st t => exact ⟨.wait [] false, rfl, by simp [step, hp]⟩
  | dispatch st =>
    apply hadvance
    simp only [State.advance, hp]
    exact Option.isSome_iff_ne_none.mpr (by simpa [State.Fatal, hp] using hfatal)
  | handling st drained id =>
    apply hleave
    simp only [State.leave, hp, Option.isSome_map]
    exact Option.isSome_iff_ne_none.mpr (by simpa [State.Fatal, hp] using hfatal)
  | lifecycleNext st left drained =>
    apply hadvance
    simp only [State.advance, hp, State.advanceLifecycle]
    split
    · rfl
    · rfl
    · rename_i hdirty
      obtain ⟨lc, hpop, _⟩ := h.lifecycle.pop hdirty
      simp [hpop]
  | controlNext st words =>
    apply hadvance
    cases words <;> simp [State.advance, hp]
  | functorNext st batch =>
    apply hadvance
    cases batch <;> simp [State.advance, hp]
  | controlStart st =>
    apply hadvance
    simp only [State.advance, hp]
    split <;> rfl
  | condFunctors st =>
    apply hadvance
    cases st <;> simp [State.advance, hp]
  | finished => exact absurd hp hpc
  | _ => first
    | (apply hadvance; simp [State.advance, hp]; done)
    | (apply hleave; simp [State.leave, hp])

/-- **The final drain.** Functors start in the order of their admission and each at most once;
    when the loop has published Shutdown everything that was admitted has run, every accepted
    notification and signal has been followed by its callback, the planes are empty and admit
    nothing and no new source, and no step leaves Shutdown. The owner thread always has a next
    step, and a run in which `quit()` was called comes to Shutdown. -/
theorem final_drain (o : Options) (maxNotices : Nat) :
    (∀ s, Machine.Reach (· = initial o) (step o maxNotices) Machine.Any s →
      s.started <+: s.admitted ∧
      (s.phase = .shutdown → Drained o.toEventLoopOptions s ∧
        ∀ l s', step o maxNotices s l = some s' → s'.phase = .shutdown) ∧
      (s.pc ≠ .finished → ¬ s.Fatal →
        ∃ l, l.ofLoop = true ∧ (step o maxNotices s l).isSome = true)) ∧
    (∀ r : Run o maxNotices, r.Fair → (∃ n caller, r.label n = .quit caller) →
      (∃ N, ∀ n, N ≤ n → ¬ Rearms (r.state n) (r.label n)) →
      (∃ N, ∀ n, N ≤ n → (r.state n).quiescent = true) →
      ∃ n, (r.state n).phase = .shutdown) := by
  constructor
  · intro s hs
    have hinv := reach_inv hs
    exact ⟨hinv.started_inOrder,
      fun hshut => ⟨hinv.drained hshut, fun _ _ hs => hinv.shutdown_stable hshut hs⟩,
      fun hpc hfatal => hinv.enabled hpc hfatal⟩
  · intro r hfair hquit hrearm hengine
    exact r.shutdown hfair hquit hrearm hengine

end

/-- A functor, a notification and a signal come in, then `quit()`; in the drain both callbacks re-arm
    themselves once. -/
def quitRun : List Label :=
  let advances (n : Nat) : List Label := List.replicate n .advance
  let returns : List Label := [.leave false, .advance, .leave false]
  [.registerControl, .attach false, .post .remote .post (some 7), .notify .remote ⟨0, 1⟩,
    .signal .remote ⟨1, 1⟩, .start, .quit .remote, .advance, .advance, .wait [] false] ++
  advances 5 ++ [.notify .owner ⟨0, 1⟩] ++ returns ++ advances 3 ++ [.signal .owner ⟨1, 1⟩] ++ returns ++
  advances 2 ++ returns ++ advances 5 ++ [.wait [] true, .leave false] ++ advances 5 ++ returns ++
  advances 3 ++ returns ++ advances 15

/-- The hypotheses on a run are met by one that drains a functor, a notification and a signal, with a
    re-arm each, and comes to Shutdown. -/
theorem final_drain_quitRun : ∃ r : Run smallLoop 16, r.Fair ∧
    (∃ n caller, r.label n = .quit caller) ∧
    (∃ N, ∀ n, N ≤ n → ¬ Rearms (r.state n) (r.label n)) ∧
    (∃ N, ∀ n, N ≤ n → (r.state n).quiescent = true) ∧
    (∃ n, (r.state n).phase = .shutdown) ∧
    ∃ n, Drained smallLoop.toEventLoopOptions (r.state n) ∧ (r.state n).started = [7] ∧
      (r.state n).log.count (.controlRan ⟨0, 1⟩) = 2 ∧ (r.state n).log.count (.lifecycleRan 1) = 2 := by
  have hlast : ((Machine.run (step smallLoop 16) Machine.Any (initial smallLoop) quitRun).any
      (fun s => decide (s.phase = .shutdown ∧ s.quiescent = true ∧ s.started = [7] ∧
        s.log.count (.controlRan ⟨0, 1⟩) = 2 ∧ s.log.count (.lifecycleRan 1) = 2))) = true := by
    decide +kernel
  cases hrun : Machine.run (step smallLoop 16) Machine.Any (initial smallLoop) quitRun with
  | none => rw [hrun] at hlast; cases hlast
  | some t =>
    rw [hrun] at hlast
    simp only [Option.any_some, decide_eq_true_eq] at hlast
    obtain ⟨hshut, hquiet, hran⟩ := hlast
    have hidle : step smallLoop 16 t (.engineQuiescent true) = some t := by
      simp only [step, ← hquiet]
    let r : Run smallLoop 16 := ⟨Machine.follow (step smallLoop 16) (initial smallLoop) quitRun,
      fun n => quitRun.getD n (.engineQuiescent true), rfl, Machine.follow_next quitRun hidle hrun⟩
    have hend : ∀ n, quitRun.length ≤ n → r.state n = t := Machine.follow_end quitRun hrun
    have hidles : ∀ n, quitRun.length ≤ n → r.label n = .engineQuiescent true := fun n hn =>
      List.getD_eq_default _ _ hn
    have hfair : r.Fair := by
      intro n hn
      refine ⟨quitRun.length - 1, ?_, rfl⟩
      by_contra hlt
      exact hn (by rw [hend n (by omega)]; exact hshut)
    have hquit : ∃ n caller, r.label n = .quit caller := ⟨6, .remote, rfl⟩
    have hrearm : ∃ N, ∀ n, N ≤ n → ¬ Rearms (r.state n) (r.label n) :=
      ⟨quitRun.length, fun n hn => by rw [hidles n hn]; exact id⟩
    have hengine : ∃ N, ∀ n, N ≤ n → (r.state n).quiescent = true :=
      ⟨quitRun.length, fun n hn => by rw [hend n hn]; exact hquiet⟩
    obtain ⟨hsafe, hlive⟩ := final_drain smallLoop 16
    have hreach := r.reach quitRun.length
    rw [hend _ (Nat.le_refl _)] at hreach
    refine ⟨r, hfair, hquit, hrearm, hengine, hlive r hfair hquit hrearm hengine, quitRun.length, ?_⟩
    rw [hend _ (Nat.le_refl _)]
    exact ⟨((hsafe t hreach).2.1 hshut).1, hran⟩

end GameNet.EventLoop
