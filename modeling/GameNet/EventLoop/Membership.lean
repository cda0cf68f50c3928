import GameNet.EventLoop.Dispatch

/- The two fatal branches about the active batch: a Channel that the poller returned
   twice, and a removal that does not find the entry its stamp names.

   The entry is looked up through the epoch and the index stamped on the Channel when
   the dispatch of the batch starts. A removal empties the entry and leaves the stamp,
   so the stamp of a Channel of the batch leads to its entry or to the entry that a
   removal has emptied. The second kind is corrupt in the eyes of `removeChannel`: a
   Channel that joins the loop again inside the batch and is removed a second time ends
   the process. A first removal is always in order, and the poller returns no Channel
   twice. -/
namespace GameNet.EventLoop

open Machine (Reach Any)

section
variable {pc : Pc}

theorem waiting_of_raw (h : pc.raw = true) : pc.waiting = false ∧ pc.dispatching = false := by
  cases pc <;> first | exact ⟨rfl, rfl⟩ | cases h

theorem dispatching_of_waiting (h : pc.waiting = true) : pc.dispatching = false := by
  cases pc <;> first | rfl | cases h

theorem waiting_of_userCode (h : pc.userCode = true) : pc.waiting = false := by
  cases pc <;> first | rfl | cases h

end

/-! ## Entries and stamps -/

/-- Each entry is of a Channel of the loop, and no Channel has two. -/
structure Channels.Entered (c : Channels) : Prop where
  known : ∀ i id : Nat, c.activeChannels[i]? = some (some id) → ∃ st, c.stampOf id = some st
  once : ∀ i j id : Nat, c.activeChannels[i]? = some (some id) → c.activeChannels[j]? = some (some id) → i = j

/-- A stamp of the batch leads to the Channel's entry, unless the Channel was removed. -/
structure Channels.Filed (c : Channels) : Prop where
  epoch : 0 < c.activeBatchEpoch
  entry : ∀ id st, c.stampOf id = some st → st.epoch = c.activeBatchEpoch →
    c.activeChannels[st.index]? = some (some id) ∨ id ∈ c.removed

section
variable {c c' : Channels} {id : Nat}

theorem Channels.Entered.same (h : c.Entered) (hs : c.SameBatch c') : c'.Entered := by
  constructor
  · rw [hs.activeChannels, hs.stampOf]
    exact h.known
  · rw [hs.activeChannels]
    exact h.once

theorem Channels.Filed.same (h : c.Filed) (hs : c.SameBatch c') : c'.Filed := by
  constructor
  · rw [hs.epoch]
    exact h.epoch
  · rw [hs.stampOf, hs.epoch, hs.activeChannels, hs.removed]
    exact h.entry

theorem Channels.Entered.new (h : c.Entered) (hg : c.Good) (fd : SocketFd) : (c.new fd).Entered where
  known := fun i id hi => by
    obtain ⟨st, hst⟩ := h.known i id hi
    exact ⟨st, Channels.new_stampOf hg fd hst⟩
  once := h.once

/-- A new Channel has the epoch zero, which no batch has. -/
theorem Channels.Filed.new (h : c.Filed) (fd : SocketFd) : (c.new fd).Filed where
  epoch := h.epoch
  entry := fun id st hst hepoch => by
    by_cases hid : id = c.nextChannel
    · subst hid
      simp only [Channels.stampOf, Channels.new, Channels.setChannel, Function.update_self,
        Option.map_some, Option.some.injEq] at hst
      subst hst
      exact absurd hepoch (Nat.ne_of_lt h.epoch)
    · apply h.entry id st _ hepoch
      simpa [Channels.stampOf, Channels.new, Channels.setChannel, Function.update_of_ne hid] using hst

theorem Channels.Entered.removes {st : Stamp} (h : c.Entered) (hr : c.Removes c' id st) : c'.Entered where
  known := fun i j hi => by
    rw [hr.stampOf]
    exact h.known i j (hr.entry_of hi)
  once := fun i j k hi hj => h.once i j k (hr.entry_of hi) (hr.entry_of hj)

/-- A removal empties the entry of the removed Channel and no other. -/
theorem Channels.Filed.removes {st : Stamp} (h : c.Filed) (hr : c.Removes c' id st) : c'.Filed where
  epoch := by rw [hr.epoch]; exact h.epoch
  entry := fun j st' hst hepoch => by
    rw [hr.stampOf] at hst
    rw [hr.epoch] at hepoch
    rw [hr.removed]
    by_cases hj : j = id
    · exact .inr (hj ▸ List.mem_cons_self)
    rcases h.entry j st' hst hepoch with hat | hrem
    · left
      rcases hr.entry with ⟨_, hentry, heq⟩ | ⟨_, heq⟩
      · have hne : st.index ≠ st'.index := by
          intro hij
          rw [hij, hat] at hentry
          exact hj (Option.some.inj (Option.some.inj hentry))
        rw [heq, List.getElem?_set_ne hne]
        exact hat
      · rw [heq]
        exact hat
    · exact .inr (.tail _ hrem)

/-- Stamping goes through when no Channel has two entries or carries the new epoch already. -/
theorem stampFrom_isSome {epoch : Nat} (entries : List (Option Nat)) : ∀ {c : Channels} {index : Nat},
    (∀ i id : Nat, entries[i]? = some (some id) → ∀ st, c.stampOf id = some st → st.epoch ≠ epoch) →
    (∀ i j id : Nat, entries[i]? = some (some id) → entries[j]? = some (some id) → i = j) →
    (c.stampFrom epoch entries index).isSome = true := by
  induction entries with
  | nil => exact fun _ _ => rfl
  | cons entry rest ih =>
    intro c index hfresh honce
    have honce' : ∀ i j id : Nat, rest[i]? = some (some id) → rest[j]? = some (some id) → i = j := by
      intro i j id hi hj
      have := honce (i + 1) (j + 1) id (by simpa using hi) (by simpa using hj)
      omega
    have hfresh' : ∀ i id : Nat, rest[i]? = some (some id) →
        ∀ st, c.stampOf id = some st → st.epoch ≠ epoch := fun i id hi =>
      hfresh (i + 1) id (by simpa using hi)
    cases entry with
    | none => exact ih hfresh' honce'
    | some j =>
      simp only [Channels.stampFrom]
      split
      · exact ih hfresh' honce'
      · rename_i ch hch
        have hne : ch.activeBatchEpoch ≠ epoch :=
          hfresh 0 j (by simp) ch.stamp (by simp [Channels.stampOf, hch])
        rw [if_neg hne]
        refine ih (fun i id hi st hst => ?_) honce'
        have hid : id ≠ j := by
          rintro rfl
          have := honce 0 (i + 1) id (by simp) (by simpa using hi)
          omega
        apply hfresh' i id hi st
        simpa [Channels.stampOf, Channels.setChannel, Function.update_of_ne hid] using hst

theorem stamp_isSome (hg : c.Good) (h : c.Entered) : c.stamp.isSome = true := by
  refine stampFrom_isSome _ (fun i id _ st hst => ?_) h.once
  have := (hg.used id st hst).2
  omega

/-- The dispatch starts with every stamp of the batch leading to its entry. -/
theorem stamp_filed (hg : c.Good) (hin : c.Entered) (h : c.stamp = some c') :
    c'.Good ∧ c'.Entered ∧ c'.Filed := by
  have hgood := hg.stamp h
  have hkept {id : Nat} {st : Stamp} (hst : c.stampOf id = some st) := stamp_keeps h hst
  have hcases := stamp_stampOf h
  obtain ⟨channel, rfl, hre⟩ := stamp_spec h
  refine ⟨hgood, ⟨fun i id hi => ?_, hin.once⟩, ⟨Nat.succ_pos _, fun id st hst hepoch => ?_⟩⟩
  · obtain ⟨st, hst⟩ := hin.known i id hi
    exact (hkept hst).imp fun _ => And.left
  · rcases hcases id with heq | ⟨i, hi, heq⟩ <;> rw [heq] at hst
    · -- the new epoch is on no stamp of the time before
      exact absurd hepoch (Nat.ne_of_lt (Nat.lt_succ_of_le (hg.used id st hst).2))
    · obtain ⟨old, -, rfl⟩ := Option.map_eq_some_iff.mp hst
      exact .inl hi

/-- A wait on an empty batch enters each Channel once. -/
theorem Channels.Loaded.entered (h : c.Loaded) : c.Entered where
  known := fun i id hi => h.known id (List.mem_of_getElem? (h.entry i id hi))
  once := fun i j id hi hj => by
    have hi' := h.entry i id hi
    have hj' := h.entry j id hj
    exact (List.getElem?_inj (List.getElem?_eq_some_iff.mp hi').1 h.once).mp (hi'.trans hj'.symm)

/-! ### The flag of the dispatch -/

theorem registerOrUpdate_eventHandling {target : Nat} {fd : SocketFd} {interests : Events} {result : PortResult}
    (h : c.registerOrUpdate target fd interests = some (result, c')) :
    c'.eventHandling = c.eventHandling := by
  unfold Channels.registerOrUpdate at h
  repeat' split at h
  all_goals (cases h <;> rfl)

theorem setEvents_eventHandling (c : Channels) (id : Nat) (events : Events) :
    (c.setEvents id events).eventHandling = c.eventHandling := by
  unfold Channels.setEvents
  split
  · rfl
  · split
    · rfl
    · dsimp only
      split
      · rename_i c' hreg
        have hflag := registerOrUpdate_eventHandling hreg
        split <;> exact hflag
      · rfl

theorem remove_eventHandling (h : c.remove id = some c') : c'.eventHandling = c.eventHandling := by
  unfold Channels.remove at h
  split at h
  · cases h
    rfl
  · split at h
    · cases h
      rfl
    · split at h
      · rename_i c₁ hcancel
        obtain ⟨c₂, hentry, rfl⟩ := Option.map_eq_some_iff.mp h
        have hflag : c₁.eventHandling = c.eventHandling := by
          unfold Channels.cancel at hcancel
          repeat' split at hcancel
          all_goals (cases hcancel <;> rfl)
        rcases Channels.clearEntry_eq hentry with ⟨_, _, rfl⟩ | ⟨_, rfl⟩ <;> exact hflag
      · cases h
        rfl

theorem destroy_eventHandling (h : c.destroy id = some c') : c'.eventHandling = c.eventHandling := by
  unfold Channels.destroy at h
  repeat' split at h
  all_goals (cases h <;> rfl)

theorem retire_eventHandling (h : c.retire id = some c') : c'.eventHandling = c.eventHandling := by
  unfold Channels.retire at h
  split at h
  · split at h <;> cases h
    rfl
  · exact destroy_eventHandling h

theorem leave_eventHandling (h : c.leave id = some c') : c'.eventHandling = c.eventHandling := by
  unfold Channels.leave at h
  dsimp only at h
  split at h
  · cases h
    split <;> rfl
  · refine (destroy_eventHandling h).trans ?_
    split <;> rfl

theorem enter_eventHandling (c : Channels) (id : Nat) : (c.enter id).eventHandling = c.eventHandling := by
  unfold Channels.enter
  dsimp only
  split <;> rfl

theorem wait_eventHandling (c : Channels) (maxNotices : Nat) (native : List Native) :
    (c.wait maxNotices native).eventHandling = c.eventHandling := by
  have hfold : ∀ (notices : List Notice) (c : Channels),
      (notices.foldl Channels.setRevents c).eventHandling = c.eventHandling := by
    intro notices
    induction notices with
    | nil => exact fun _ => rfl
    | cons n rest ih =>
      intro c
      refine (ih (c.setRevents n)).trans ?_
      unfold Channels.setRevents
      split <;> rfl
  exact hfold _ c

/-- The first removal of a Channel since the capture finds its entry, or has no stamp of the
    batch. -/
theorem Channels.Filed.remove_isSome (h : c.eventHandling = true → c.Filed)
    (hfirst : c.eventHandling = true → id ∉ c.removed) : c.remove id ≠ none := by
  unfold Channels.remove
  split
  · simp
  · rename_i ch hch
    split
    · simp
    · split
      · rename_i c₁ hcancel
        have hc₁ : c₁ = { c with registrations := Function.update c.registrations ch.fd none } := by
          unfold Channels.cancel at hcancel
          split at hcancel
          · cases hcancel
          · split at hcancel <;> cases hcancel
            rfl
        subst hc₁
        rw [Ne, Option.map_eq_none_iff]
        unfold Channels.clearEntry
        dsimp only
        split
        · rename_i hepoch
          split
          · simp
          · rename_i hentry
            split
            · rename_i hh
              have hst : c.stampOf id = some ch.stamp := by simp [Channels.stampOf, hch]
              exact absurd ((h hh).entry id ch.stamp hst hepoch) (not_or.mpr ⟨hentry, hfirst hh⟩)
            · simp
        · simp
      · simp

end

/-! ## Runs -/

structure Member (s : State) : Prop where
  good : s.channels.Good
  entered : s.channels.Entered
  handling : s.channels.eventHandling = s.pc.dispatching
  filed : s.channels.activeChannelCursor ≠ 0 ∨ s.pc.dispatching = true → s.channels.Filed
  empty : s.pc.waiting = true → s.channels.activeChannels = [] ∧ s.channels.activeChannelCursor = 0

section
variable {o : Options} {maxNotices : Nat} {s s' : State} {l : Label}

theorem initial_member (o : Options) : Member (initial o) where
  good := ⟨(fun _ _ h => by cases h), (fun _ _ h => by cases h)⟩
  entered := ⟨fun _ _ h => by simp [initial] at h, fun _ _ _ h => by simp [initial] at h⟩
  handling := rfl
  filed := fun h => by simp [initial, Pc.dispatching] at h
  empty := fun _ => ⟨rfl, rfl⟩

/-- A change of the Channels that leaves the batch alone. -/
theorem Member.callSame (h : Member s) (hu : s.pc.userCode = true) (hpc : s'.pc = s.pc)
    (hs : s.channels.SameBatch s'.channels) (hport : s'.channels.Port)
    (hh : s'.channels.eventHandling = s.channels.eventHandling) : Member s' where
  good := h.good.same hs hport
  entered := h.entered.same hs
  handling := by rw [hh, hpc]; exact h.handling
  filed := fun hd => (h.filed (by rw [hs.cursor, hpc] at hd; exact hd)).same hs
  empty := fun hw => by rw [hpc, waiting_of_userCode hu] at hw; cases hw

theorem Member.removes {id : Nat} {st : Stamp} (h : Member s) (hu : s.pc.userCode = true)
    (hpc : s'.pc = s.pc) (hr : s.channels.Removes s'.channels id st)
    (hh : s'.channels.eventHandling = s.channels.eventHandling) : Member s' where
  good := h.good.removes hr
  entered := h.entered.removes hr
  handling := by rw [hh, hpc]; exact h.handling
  filed := fun hd => (h.filed (by rw [hr.cursor, hpc] at hd; exact hd)).removes hr
  empty := fun hw => by rw [hpc, waiting_of_userCode hu] at hw; cases hw

/-- Inside the dispatch the entries, the stamps and the removals stay as they are. -/
theorem Member.inside (h : Member s) (hd : s.pc.dispatching = true) (hd' : s'.pc.waiting = false)
    (hg : s'.channels.Good) (ha : s'.channels.activeChannels = s.channels.activeChannels)
    (hst : s'.channels.stampOf = s.channels.stampOf)
    (he : s'.channels.activeBatchEpoch = s.channels.activeBatchEpoch)
    (hr : s'.channels.removed = s.channels.removed)
    (hh : s'.channels.eventHandling = s'.pc.dispatching) : Member s' where
  good := hg
  entered := ⟨by rw [ha, hst]; exact h.entered.known, by rw [ha]; exact h.entered.once⟩
  handling := hh
  filed := fun _ => by
    obtain ⟨hpos, hentry⟩ := h.filed (.inr hd)
    exact ⟨by rw [he]; exact hpos, by rw [hst, he, ha, hr]; exact hentry⟩
  empty := fun hw => by rw [hd'] at hw; cases hw

theorem Member.moves (h : Member s) (hm : Moves maxNotices s l s') : Member s' := by
  cases hm with
  | same channels dispatching waiting _ =>
    refine ⟨?_, ?_, ?_, ?_, ?_⟩ <;> rw [channels]
    · exact h.good
    · exact h.entered
    · rw [dispatching]
      exact h.handling
    · rw [dispatching]
      exact h.filed
    · exact fun hw => h.empty (waiting hw)
  | clear channels _ before after =>
    refine ⟨?_, ?_, ?_, ?_, ?_⟩ <;> rw [channels]
    · exact h.good.clear
    · exact ⟨fun _ _ hi => by simp [Channels.clear] at hi, fun _ _ _ hi => by simp [Channels.clear] at hi⟩
    · rw [after, ← before]
      exact h.handling
    · rintro (hcur | hd)
      · exact absurd rfl hcur
      · rw [after] at hd
        cases hd
    · exact fun _ => ⟨rfl, rfl⟩
  | wait native channels before after =>
    obtain ⟨hg, hl, hcur⟩ := wait_spec h.good (h.empty before) maxNotices native
    obtain ⟨hw, hd⟩ := waiting_of_raw after
    refine ⟨?_, ?_, ?_, ?_, ?_⟩
    · rw [channels]
      exact hg
    · rw [channels]
      exact hl.entered
    · rw [channels, wait_eventHandling, h.handling, hd]
      exact dispatching_of_waiting before
    · rw [channels, hd, hcur]
      simp
    · exact fun hw' => by rw [hw] at hw'; cases hw'
  | «begin» c stamped channels after =>
    obtain ⟨st, hpc⟩ := after
    have hall : c.Good ∧ c.Entered ∧ c.Filed := by
      split at stamped
      · exact stamp_filed h.good h.entered stamped
      · rename_i hcur
        cases stamped
        exact ⟨h.good, h.entered, h.filed (.inl hcur)⟩
    obtain ⟨hg, hin, hf⟩ := hall
    refine ⟨?_, ?_, ?_, ?_, ?_⟩
    · rw [channels]
      exact ⟨hg.port, hg.used⟩
    · rw [channels]
      exact ⟨hin.known, hin.once⟩
    · rw [channels, hpc]
      rfl
    · rw [channels]
      exact fun _ => ⟨hf.epoch, hf.entry⟩
    · exact fun hw => by rw [hpc] at hw; cases hw
  | pass _ _ channels before after =>
    obtain ⟨st, drained, hpc⟩ := before
    apply h.inside (by rw [hpc]; rfl) (by rw [after, hpc]; rfl) <;> rw [channels]
    · exact ⟨h.good.port, h.good.used⟩
    · rfl
    · rw [after]
      exact h.handling
  | enter id _ _ channels before after =>
    obtain ⟨st, drained, hpc⟩ := before
    obtain ⟨st', drained', hpc'⟩ := after
    obtain ⟨ha, -, -, hrem, -, hsto, hreg, hnext, hepoch⟩ := enter_spec s.channels id
    apply h.inside (by rw [hpc]; rfl) (by rw [hpc']; rfl) <;> rw [channels]
    · constructor
      · intro fd r hr
        rw [hsto]
        exact h.good.port fd r (hreg ▸ hr)
      · intro i st' hst'
        rw [hnext, hepoch]
        exact h.good.used i st' (hsto ▸ hst')
    · exact ha
    · exact hsto
    · exact hepoch
    · exact hrem
    · rw [enter_eventHandling, h.handling, hpc, hpc']
      rfl
  | concluded channels before after =>
    obtain ⟨st, drained, hpc⟩ := before
    obtain ⟨st', hpc'⟩ := after
    apply h.inside (by rw [hpc]; rfl) (by rw [hpc']; rfl) <;> rw [channels]
    · exact ⟨h.good.port, h.good.used⟩
    · rfl
    · rw [hpc']
      rfl
  | leave id channels before after =>
    obtain ⟨st, drained, hpc⟩ := before
    obtain ⟨st', drained', hpc'⟩ := after
    obtain ⟨hsame, hreg⟩ := Channels.leave_same channels
    refine h.inside (by rw [hpc]; rfl) (by rw [hpc']; rfl)
      (h.good.same hsame (h.good.port.same hsame hreg)) hsame.activeChannels hsame.stampOf hsame.epoch
      hsame.removed ?_
    rw [leave_eventHandling channels, h.handling, hpc, hpc']
    rfl
  | call user pc channels =>
    cases channels with
    | new fd label eq =>
      refine ⟨?_, ?_, ?_, ?_, ?_⟩
      · rw [eq]
        exact h.good.new fd
      · rw [eq]
        exact h.entered.new h.good fd
      · rw [eq, pc]
        exact h.handling
      · rw [eq, pc]
        exact fun hd => (h.filed hd).new fd
      · exact fun hw => by rw [pc, waiting_of_userCode user] at hw; cases hw
    | set id setter label eq =>
      rw [setter.call_eq] at eq
      obtain ⟨hsame, hport⟩ := s.channels.setEvents_same id (setter.mask (s.channels.events id))
      rw [← eq] at hsame hport
      exact h.callSame user pc hsame (hport h.good.port) (by rw [eq]; exact setEvents_eventHandling _ _ _)
    | remove id label eq =>
      have hflag := remove_eventHandling eq
      rcases Channels.remove_cases eq with heq | ⟨st, hrem⟩
      · exact h.callSame user pc (heq ▸ Channels.SameBatch.refl) (heq ▸ h.good.port) hflag
      · exact h.removes user pc hrem hflag
    | destroy id label eq =>
      obtain ⟨hsame, hreg⟩ := Channels.destroy_same eq
      exact h.callSame user pc hsame (h.good.port.same hsame hreg) (destroy_eventHandling eq)
    | retire id label eq =>
      obtain ⟨hsame, hreg⟩ := Channels.retire_same eq
      exact h.callSame user pc hsame (h.good.port.same hsame hreg) (retire_eventHandling eq)

theorem reach_member (h : Reach (· = initial o) (EventLoop.step o maxNotices) Any s) :
    Member s :=
  Reach.invariant (P := Member) (by rintro s rfl; exact initial_member o)
    (fun _ _ _ hP _ hs => hP.moves (step_moves hs)) h

/-- **The poller returns no Channel twice, and a first removal is in order.** No run reaches the fatal
    branch of the stamping loop; and no run reaches that of `removeChannel` with a Channel that has not
    been removed before since the batch was captured, or outside the dispatch. -/
theorem batch_membership_intact
    (h : Reach (· = initial o) (EventLoop.step o maxNotices) Any s) :
    (∀ st, s.pc = .dispatch st → s.advanceDispatch st ≠ none) ∧
    ∀ id, (s.channels.eventHandling = true → id ∉ s.channels.removed) → s.channels.remove id ≠ none := by
  have hm := reach_member h
  refine ⟨fun st hpc => ?_, fun id hfirst => ?_⟩
  · unfold State.advanceDispatch
    split
    · simp
    · rw [Ne, Option.map_eq_none_iff, ← Option.not_isSome_iff_eq_none, not_not]
      split
      · exact stamp_isSome hm.good hm.entered
      · rfl
  · exact Channels.Filed.remove_isSome (fun hh => hm.filed (.inr (hm.handling ▸ hh))) hfirst

end

/-- The callback of the first of two captured Channels disables the second one and may remove it. -/
theorem batch_membership_intact_second :
    ∃ s, Reach (· = initial smallLoop) (step smallLoop 16) Any s ∧
      s.pc = .handling .running 1 0 ∧ s.channels.captured = [0, 1] ∧ s.channels.remove 1 ≠ none := by
  obtain ⟨s, hr, hpc, hcap, hrem⟩ := Reach.of_run (· = initial smallLoop)
    (step smallLoop 16) Any
    (fun s => s.pc = .handling .running 1 0 ∧ s.channels.captured = [0, 1] ∧ s.channels.removed = [])
    (initial smallLoop) rfl
    (twoChannels ++
      [.wait [⟨5, 1, { read := true }⟩, ⟨6, 2, { read := true }⟩] true, .leave false, .advance, .advance,
        .setInterest 1 .disableAll])
    (by decide)
  refine ⟨s, hr, hpc, hcap, (batch_membership_intact hr).2 1 (fun _ => ?_)⟩
  rw [hrem]
  exact List.not_mem_nil

/-- The callback removes the second Channel, enables it again and disables it; the second removal finds
    the emptied entry and is fatal. -/
theorem second_removal_corrupt :
    ∃ s, Reach (· = initial smallLoop) (step smallLoop 16) Any s ∧
      s.pc = .handling .running 1 0 ∧ s.channels.remove 1 = none :=
  Reach.of_run _ _ _ _ (initial smallLoop) rfl
    (twoChannels ++
      [.wait [⟨5, 1, { read := true }⟩, ⟨6, 2, { read := true }⟩] true, .leave false, .advance, .advance,
        .setInterest 1 .disableAll, .removeChannel 1, .setInterest 1 .enableReading,
        .setInterest 1 .disableAll])
    (by decide)

end GameNet.EventLoop
