import Mathlib.Data.List.Nodup
import GameNet.EventLoop.FinalDrain

/- The dispatch of the active batch: which captured Channels are called.

   A wait captures a batch; `captured` keeps it as it was. The entries of
   `activeChannels` are emptied by removals and passed by the cursor, so at every
   moment each captured Channel is ahead of the cursor and not yet called, or was called
   or removed. A removal finds the entry through the stamp of the Channel, and the
   stamps are written when the dispatch of the batch starts: between the wait and
   that moment only the metric callback for a handled wakeup runs user code, and a
   captured Channel removed there keeps its entry. -/
namespace GameNet.EventLoop

open Machine (Reach Any)

/-! ## Batches -/

structure Channels.Good (c : Channels) : Prop where
  port : c.Port
  used : ∀ id st, c.stampOf id = some st → id < c.nextChannel ∧ st.epoch ≤ c.activeBatchEpoch

/-- The entries of the batch against the Channels that were captured. -/
structure Channels.Loaded (c : Channels) : Prop where
  size : c.activeChannels = [] ∨ c.activeChannels.length = c.captured.length
  entry : ∀ i id : Nat, c.activeChannels[i]? = some (some id) → c.captured[i]? = some id
  emptied : ∀ i id : Nat, c.activeChannels[i]? = some none → c.captured[i]? = some id → id ∈ c.removed
  ahead : ∀ i id : Nat, c.activeChannelCursor ≤ i → c.activeChannels[i]? = some (some id) →
    id ∉ c.removed ∧ id ∉ c.dispatched
  passed : ∀ i id : Nat, i < c.activeChannelCursor → c.captured[i]? = some id →
    id ∈ c.removed ∨ id ∈ c.dispatched
  retired : c.activeChannels = [] → ∀ id ∈ c.captured, id ∈ c.removed ∨ id ∈ c.dispatched
  once : c.captured.Nodup
  known : ∀ id ∈ c.captured, ∃ st, c.stampOf id = some st
  called : c.dispatched.Nodup

/-- The stamp of every Channel that has an entry leads to it. -/
def Channels.Stamped (c : Channels) : Prop :=
  ∀ i id : Nat, c.activeChannels[i]? = some (some id) →
    ∃ st, c.stampOf id = some st ∧ st.epoch = c.activeBatchEpoch ∧ st.index = i

section
variable {c c' : Channels} {id : Nat}

theorem Channels.Good.same (h : c.Good) (hs : c.SameBatch c') (hport : c'.Port) : c'.Good := by
  refine ⟨hport, fun id st hst => ?_⟩
  rw [hs.stampOf] at hst
  rw [hs.next, hs.epoch]
  exact h.used id st hst

theorem Channels.Loaded.same (h : c.Loaded) (hs : c.SameBatch c') : c'.Loaded := by
  obtain ⟨ha, hc, _, hcap, hrem, hdis, _, hst⟩ := hs
  constructor
  case size => rw [ha, hcap]; exact h.size
  case entry => rw [ha, hcap]; exact h.entry
  case emptied => rw [ha, hcap, hrem]; exact h.emptied
  case ahead => rw [ha, hc, hrem, hdis]; exact h.ahead
  case passed => rw [hc, hcap, hrem, hdis]; exact h.passed
  case retired => rw [ha, hcap, hrem, hdis]; exact h.retired
  case once => rw [hcap]; exact h.once
  case known => rw [hcap, hst]; exact h.known
  case called => rw [hdis]; exact h.called

theorem Channels.Stamped.same (h : c.Stamped) (hs : c.SameBatch c') : c'.Stamped := by
  intro i id hi
  rw [hs.activeChannels] at hi
  rw [hs.stampOf, hs.epoch]
  exact h i id hi

variable {st : Stamp}

/-- A new Channel object has no stamp of the batch. -/
theorem Channels.new_stampOf (h : c.Good) (fd : SocketFd) {id : Nat}
    (hst : c.stampOf id = some st) : (c.new fd).stampOf id = some st := by
  have hne : id ≠ c.nextChannel := Nat.ne_of_lt (h.used id st hst).1
  simpa [Channels.stampOf, Channels.new, Channels.setChannel, Function.update_of_ne hne] using hst

theorem Channels.Good.new (h : c.Good) (fd : SocketFd) : (c.new fd).Good := by
  constructor
  · intro fd' r hr
    obtain ⟨st, hst, hfd⟩ := h.port fd' r hr
    exact ⟨st, Channels.new_stampOf h fd hst, hfd⟩
  · intro id st hst
    by_cases hid : id = c.nextChannel
    · subst hid
      simp only [Channels.stampOf, Channels.new, Channels.setChannel, Function.update_self,
        Option.map_some, Option.some.injEq] at hst
      subst hst
      exact ⟨Nat.lt_succ_self _, Nat.zero_le _⟩
    · have hold : c.stampOf id = some st := by
        simpa [Channels.stampOf, Channels.new, Channels.setChannel, Function.update_of_ne hid] using hst
      exact ⟨Nat.lt_succ_of_lt (h.used id st hold).1, (h.used id st hold).2⟩

theorem Channels.Loaded.new (h : c.Loaded) (hg : c.Good) (fd : SocketFd) : (c.new fd).Loaded :=
  { h with
    known := fun id hid => by
      obtain ⟨st, hst⟩ := h.known id hid
      exact ⟨st, Channels.new_stampOf hg fd hst⟩ }

theorem Channels.Stamped.new (h : c.Stamped) (hg : c.Good) (fd : SocketFd) : (c.new fd).Stamped := by
  intro i id hi
  obtain ⟨st, hst, hrest⟩ := h i id hi
  exact ⟨st, Channels.new_stampOf hg fd hst, hrest⟩

theorem Channels.Good.removes (h : c.Good) (hr : c.Removes c' id st) : c'.Good := by
  constructor
  · intro fd r hfd
    rw [hr.stampOf]
    exact h.port fd r (hr.registrations fd r hfd)
  · intro i st' hst
    rw [hr.stampOf] at hst
    rw [hr.next, hr.epoch]
    exact h.used i st' hst

/-- An entry after a removal was there before it, and is not the one that was emptied. -/
theorem Channels.Removes.entry_of (hr : c.Removes c' id st) {i j : Nat}
    (hi : c'.activeChannels[i]? = some (some j)) : c.activeChannels[i]? = some (some j) := by
  rcases hr.entry with ⟨_, _, heq⟩ | ⟨_, heq⟩
  · rw [heq] at hi
    by_cases hij : st.index = i
    · subst hij
      by_cases hlt : st.index < c.activeChannels.length
      · rw [List.getElem?_set_self hlt] at hi
        cases hi
      · rw [List.getElem?_eq_none (by simpa using hlt)] at hi
        cases hi
    · rwa [List.getElem?_set_ne hij] at hi
  · rwa [heq] at hi

theorem Channels.Stamped.removes (h : c.Stamped) (hr : c.Removes c' id st) :
    c'.Stamped := by
  intro i j hi
  rw [hr.stampOf, hr.epoch]
  exact h i j (hr.entry_of hi)

/-- A removal from a batch in which the stamp of the removed Channel leads to its entry. -/
theorem Channels.Loaded.removes (h : c.Loaded) (hr : c.Removes c' id st)
    (hfound : ∀ i, c.activeChannels[i]? = some (some id) →
      st.epoch = c.activeBatchEpoch ∧ st.index = i) : c'.Loaded := by
  have hlen : c'.activeChannels.length = c.activeChannels.length := by
    rcases hr.entry with ⟨_, _, heq⟩ | ⟨_, heq⟩ <;> rw [heq]
    exact List.length_set
  have hnil : c'.activeChannels = [] → c.activeChannels = [] := fun hn =>
    List.length_eq_zero_iff.mp (by rw [← hlen, hn]; rfl)
  constructor
  case size =>
    rcases h.size with hn | hn
    · exact Or.inl (List.length_eq_zero_iff.mp (by rw [hlen, hn]; rfl))
    · exact Or.inr (by rw [hlen, hr.captured, hn])
  case entry =>
    intro i j hi
    rw [hr.captured]
    exact h.entry i j (hr.entry_of hi)
  case emptied =>
    intro i j hi hj
    rw [hr.captured] at hj
    rw [hr.removed]
    rcases hr.entry with ⟨_, hat, heq⟩ | ⟨_, heq⟩
    · rw [heq] at hi
      by_cases hij : st.index = i
      · subst hij
        rw [h.entry _ _ hat, Option.some.injEq] at hj
        exact hj ▸ List.mem_cons_self
      · rw [List.getElem?_set_ne hij] at hi
        exact .tail _ (h.emptied i j hi hj)
    · rw [heq] at hi
      exact .tail _ (h.emptied i j hi hj)
  case ahead =>
    intro i j hcur hi
    rw [hr.cursor] at hcur
    rw [hr.removed, hr.dispatched]
    obtain ⟨hrem, hdis⟩ := h.ahead i j hcur (hr.entry_of hi)
    refine ⟨fun hmem => ?_, hdis⟩
    rcases List.mem_cons.mp hmem with rfl | hmem
    · -- the entry of the removed Channel was found and emptied
      obtain ⟨hepoch, hindex⟩ := hfound i (hr.entry_of hi)
      rcases hr.entry with ⟨_, hat, heq⟩ | ⟨hno, _⟩
      · have hlt := (List.getElem?_eq_some_iff.mp hat).1
        rw [heq, ← hindex, List.getElem?_set_self hlt] at hi
        cases hi
      · exact hno ⟨hepoch, by rw [hindex]; exact hr.entry_of hi⟩
    · exact hrem hmem
  case passed =>
    intro i j hi hj
    rw [hr.cursor] at hi
    rw [hr.captured] at hj
    rw [hr.removed, hr.dispatched]
    exact (h.passed i j hi hj).imp (List.mem_cons_of_mem _) (fun hd => hd)
  case retired =>
    intro hn j hj
    rw [hr.captured] at hj
    rw [hr.removed, hr.dispatched]
    exact (h.retired (hnil hn) j hj).imp (List.mem_cons_of_mem _) (fun hd => hd)
  case once => rw [hr.captured]; exact h.once
  case known => rw [hr.captured, hr.stampOf]; exact h.known
  case called => rw [hr.dispatched]; exact h.called

/-- The dispatch passes the next entry: an emptied one, or that of the Channel it calls. -/
theorem Channels.Loaded.pass (h : c.Loaded) {entry : Option Nat} {rest : List (Option Nat)}
    (hrest : c.rest = entry :: rest) (ha : c'.activeChannels = c.activeChannels)
    (hcur : c'.activeChannelCursor = c.activeChannelCursor + 1) (hcap : c'.captured = c.captured)
    (hrem : c'.removed = c.removed) (hst : c'.stampOf = c.stampOf)
    (hdis : c'.dispatched = entry.toList ++ c.dispatched) : c'.Loaded := by
  have hat : c.activeChannels[c.activeChannelCursor]? = some entry := by
    have h0 : c.rest[0]? = some entry := by rw [hrest]; rfl
    simpa [Channels.rest] using h0
  have hdis' : ∀ id ∈ c.dispatched, id ∈ c'.dispatched := fun id hid => by
    rw [hdis]
    exact List.mem_append_right _ hid
  constructor
  case size => rw [ha, hcap]; exact h.size
  case entry => rw [ha, hcap]; exact h.entry
  case emptied => rw [ha, hcap, hrem]; exact h.emptied
  case ahead =>
    intro i id hi hid
    rw [hcur] at hi
    rw [ha] at hid
    rw [hrem, hdis]
    obtain ⟨hnr, hnd⟩ := h.ahead i id (by omega) hid
    refine ⟨hnr, fun hmem => ?_⟩
    rcases List.mem_append.mp hmem with hmem | hmem
    · -- one Channel has one entry
      cases entry with
      | none => cases hmem
      | some j =>
        rw [Option.toList_some, List.mem_singleton] at hmem
        subst hmem
        have h₁ := h.entry _ _ hat
        have h₂ := h.entry _ _ hid
        have hlt := (List.getElem?_eq_some_iff.mp h₁).1
        have := (List.getElem?_inj hlt h.once).mp (h₁.trans h₂.symm)
        omega
    · exact hnd hmem
  case passed =>
    intro i id hi hid
    rw [hcur] at hi
    rw [hcap] at hid
    rw [hrem]
    by_cases hlast : i = c.activeChannelCursor
    · subst hlast
      cases entry with
      | none => exact Or.inl (h.emptied _ _ hat hid)
      | some j =>
        have hj := h.entry _ _ hat
        rw [hid, Option.some.injEq] at hj
        subst hj
        exact Or.inr (by rw [hdis]; simp)
    · exact (h.passed i id (by omega) hid).imp (fun hr => hr) (hdis' id)
  case retired =>
    intro hn
    rw [ha] at hn
    rw [hn] at hat
    simp at hat
  case once => rw [hcap]; exact h.once
  case known => rw [hcap, hst]; exact h.known
  case called =>
    rw [hdis]
    cases entry with
    | none => exact h.called
    | some j => exact List.nodup_cons.mpr ⟨(h.ahead _ _ (Nat.le_refl _) hat).2, h.called⟩

/-- Nothing is ahead of the cursor: every captured Channel was called or removed. -/
theorem Channels.Loaded.settled (h : c.Loaded) (hp : c.hasPending = false) :
    ∀ id ∈ c.captured, id ∈ c.removed ∨ id ∈ c.dispatched := by
  intro id hid
  obtain ⟨i, hi⟩ := List.mem_iff_getElem?.mp hid
  rcases h.size with hn | hlen
  · exact h.retired hn id hid
  by_cases hcur : i < c.activeChannelCursor
  · exact h.passed i id hcur hi
  · have hlt : i < c.activeChannels.length := hlen ▸ (List.getElem?_eq_some_iff.mp hi).1
    have hat : c.rest[i - c.activeChannelCursor]? = some c.activeChannels[i] := by
      rw [Channels.rest, List.getElem?_drop, Nat.add_sub_cancel' (by omega)]
      exact List.getElem?_eq_getElem hlt
    have hnone : c.activeChannels[i] = none := by
      have := List.any_eq_false.mp hp _ (List.mem_of_getElem? hat)
      simpa using this
    exact Or.inl (h.emptied i id (by rw [List.getElem?_eq_getElem hlt, hnone]) hi)

theorem Channels.Loaded.clear (h : c.Loaded) (hp : c.hasPending = false) : c.clear.Loaded where
  size := Or.inl rfl
  entry := by simp [Channels.clear]
  emptied := by simp [Channels.clear]
  ahead := by simp [Channels.clear]
  passed := by simp [Channels.clear]
  retired := fun _ => h.settled hp
  once := h.once
  known := h.known
  called := h.called

theorem Channels.Good.clear (h : c.Good) : c.clear.Good := ⟨h.port, h.used⟩

/-! ## Stamps -/

theorem Channels.Good.stamp (h : c.Good) (hs : c.stamp = some c') : c'.Good := by
  refine ⟨fun fd r hr => ?_, fun id st hst => ?_⟩
  · have hreg : c'.registrations = c.registrations := by
      obtain ⟨channel, rfl, -⟩ := stamp_spec hs
      rfl
    obtain ⟨st, hst, hfd⟩ := h.port fd r (hreg ▸ hr)
    obtain ⟨st', hst', hfd'⟩ := stamp_keeps hs hst
    exact ⟨st', hst', hfd'.trans hfd⟩
  · have hcases := stamp_stampOf hs id
    obtain ⟨channel, rfl, -⟩ := stamp_spec hs
    rcases hcases with heq | ⟨i, -, heq⟩ <;> rw [heq] at hst
    · have := h.used id st hst
      exact ⟨this.1, Nat.le_succ_of_le this.2⟩
    · obtain ⟨old, hold, rfl⟩ := Option.map_eq_some_iff.mp hst
      exact ⟨(h.used id old hold).1, Nat.le_refl _⟩

/-- The start of a batch's dispatch leaves every entry found by its stamp. -/
theorem stamp_stamped (hg : c.Good) (hl : c.Loaded) (h : c.stamp = some c') :
    c'.Good ∧ c'.Loaded ∧ c'.Stamped := by
  have hgood := hg.stamp h
  have hknown : ∀ id ∈ c.captured, ∃ st, c'.stampOf id = some st := fun id hid => by
    obtain ⟨st, hst⟩ := hl.known id hid
    exact (stamp_keeps h hst).imp fun _ => And.left
  obtain ⟨channel, rfl, hre⟩ := stamp_spec h
  refine ⟨hgood, { hl with known := hknown }, fun i id hi => ?_⟩
  obtain ⟨st, hst⟩ := hl.known id (List.mem_of_getElem? (hl.entry i id hi))
  obtain ⟨ch, hch, -⟩ := Option.map_eq_some_iff.mp hst
  refine ⟨⟨ch.fd, c.activeBatchEpoch + 1, i⟩, ?_, rfl, rfl⟩
  simp [Channels.stampOf, hre.written i id hi, hch, Channel.stamp]

/-! ## The capture -/

/-- The notices of a wait name each registration once. -/
theorem notices_nodup (c : Channels) (maxNotices : Nat) (native : List Native) :
    ((c.notices maxNotices native).map (fun n => (n.fd, n.generation))).Nodup := by
  have hstep : ∀ (notices : List Notice) (e : Native),
      (notices.map (fun n => (n.fd, n.generation))).Nodup →
      ((c.appendNotice maxNotices notices e).map (fun n => (n.fd, n.generation))).Nodup := by
    intro notices e hnd
    unfold Channels.appendNotice
    split
    · exact hnd
    · rename_i r _
      split
      · exact hnd
      · dsimp only
        split
        · exact hnd
        · split
          · -- the events join the notice that is already there
            have hmap : (notices.map (Notice.absorb e.fd e.generation
                (e.events.deliver r.interests))).map (fun n => (n.fd, n.generation)) =
                notices.map (fun n => (n.fd, n.generation)) := by
              rw [List.map_map]
              apply List.map_congr_left
              intro n _
              simp only [Function.comp_apply, Notice.absorb]
              split <;> rfl
            rw [hmap]
            exact hnd
          · rename_i hnew
            split
            · exact hnd
            · rw [List.map_append, List.map_singleton]
              refine List.Nodup.append hnd (List.nodup_singleton _) ?_
              intro x hx hx'
              rw [List.mem_singleton] at hx'
              obtain ⟨n, hn, rfl⟩ := List.mem_map.mp hx
              simp only [Prod.mk.injEq] at hx'
              exact hnew (List.any_eq_true.mpr ⟨n, hn, by simpa using hx'⟩)
  unfold Channels.notices
  suffices ∀ (native : List Native) (acc : List Notice),
      (acc.map (fun n => (n.fd, n.generation))).Nodup →
      ((native.foldl (c.appendNotice maxNotices) acc).map (fun n => (n.fd, n.generation))).Nodup from
    this native [] List.nodup_nil
  intro native
  induction native with
  | nil => exact fun acc h => h
  | cons e rest ih => exact fun acc h => ih _ (hstep acc e h)

theorem isCurrent_iff {n : Notice} (h : c.isCurrent n = true) :
    ∃ r, c.registrations n.fd = some r ∧ r.target = n.target ∧ r.generation = n.generation := by
  unfold Channels.isCurrent at h
  split at h
  · cases h
  · rename_i r hr
    simp only [Bool.and_eq_true, beq_iff_eq] at h
    exact ⟨r, hr, h⟩

/-- A wait captures each Channel at most once. -/
theorem targets_nodup (hp : c.Port) (maxNotices : Nat) (native : List Native) :
    (((c.notices maxNotices native).filter c.isCurrent).map (·.target)).Nodup := by
  have hpairs : (((c.notices maxNotices native).filter c.isCurrent).map
      (fun n => (n.fd, n.generation))).Nodup :=
    (notices_nodup c maxNotices native).sublist (List.filter_sublist.map _)
  refine List.Nodup.map_on ?_ (List.Nodup.of_map _ hpairs)
  intro n hn m hm htarget
  obtain ⟨r, hr, hrt, hrg⟩ := isCurrent_iff (List.mem_filter.mp hn).2
  obtain ⟨q, hq, hqt, hqg⟩ := isCurrent_iff (List.mem_filter.mp hm).2
  -- one target has one descriptor, and one descriptor has one registration
  obtain ⟨st, hst, hfd⟩ := hp _ _ hr
  obtain ⟨st', hst', hfd'⟩ := hp _ _ hq
  rw [hrt, htarget, ← hqt, hst', Option.some.injEq] at hst
  have hsame : n.fd = m.fd := by rw [← hfd, ← hfd', hst]
  rw [hsame, hq, Option.some.injEq] at hr
  refine List.inj_on_of_nodup_map hpairs hn hm ?_
  rw [Prod.mk.injEq]
  exact ⟨hsame, by rw [← hrg, ← hqg, hr]⟩

theorem setRevents_same (c : Channels) (n : Notice) :
    c.SameBatch (c.setRevents n) ∧ (c.setRevents n).registrations = c.registrations := by
  unfold Channels.setRevents
  split
  · exact ⟨Channels.SameBatch.refl, rfl⟩
  · rename_i ch hch
    exact ⟨Channels.SameBatch.setChannel hch rfl, rfl⟩

theorem setRevents_foldl (notices : List Notice) : ∀ c : Channels,
    c.SameBatch (notices.foldl Channels.setRevents c) ∧
      (notices.foldl Channels.setRevents c).registrations = c.registrations := by
  induction notices with
  | nil => exact fun c => ⟨Channels.SameBatch.refl, rfl⟩
  | cons n rest ih =>
    intro c
    obtain ⟨h₁, hr₁⟩ := setRevents_same c n
    obtain ⟨h₂, hr₂⟩ := ih (c.setRevents n)
    exact ⟨h₁.trans h₂, hr₂.trans hr₁⟩

/-- A wait on an empty batch captures a new one. -/
theorem wait_spec (hg : c.Good) (hempty : c.activeChannels = [] ∧ c.activeChannelCursor = 0)
    (maxNotices : Nat) (native : List Native) :
    (c.wait maxNotices native).Good ∧ (c.wait maxNotices native).Loaded ∧
      (c.wait maxNotices native).activeChannelCursor = 0 := by
  obtain ⟨hsame, hregs⟩ := setRevents_foldl ((c.notices maxNotices native).filter c.isCurrent) c
  have hgood := hg.same hsame (hg.port.same hsame hregs)
  unfold Channels.wait
  dsimp only
  refine ⟨⟨hgood.port, hgood.used⟩, ?_, hsame.cursor.trans hempty.2⟩
  rw [hempty.1, List.nil_append]
  constructor
  case size => exact Or.inr (by simp)
  case entry =>
    intro i id hi
    rw [List.getElem?_map, Option.map_eq_some_iff] at hi
    obtain ⟨j, hj, heq⟩ := hi
    rw [Option.some.injEq] at heq
    exact heq ▸ hj
  case emptied =>
    intro i id hi
    rw [List.getElem?_map, Option.map_eq_some_iff] at hi
    obtain ⟨j, _, heq⟩ := hi
    cases heq
  case ahead => simp
  case passed =>
    intro i id hi
    rw [show (List.foldl Channels.setRevents c _).activeChannelCursor = 0 from
      hsame.cursor.trans hempty.2] at hi
    cases hi
  case retired =>
    intro hn id hid
    rw [List.map_eq_nil_iff] at hn
    rw [hn] at hid
    cases hid
  case once => exact targets_nodup hg.port maxNotices native
  case known =>
    intro id hid
    obtain ⟨n, hn, rfl⟩ := List.mem_map.mp hid
    obtain ⟨r, hr, hrt, _⟩ := isCurrent_iff (List.mem_filter.mp hn).2
    obtain ⟨st, hst, _⟩ := hg.port _ _ hr
    exact ⟨st, by rw [← hrt]; exact (congrFun hsame.stampOf _).trans hst⟩
  case called => exact List.nodup_nil

theorem enter_spec (c : Channels) (id : Nat) :
    (c.enter id).activeChannels = c.activeChannels ∧
      (c.enter id).activeChannelCursor = c.activeChannelCursor + 1 ∧
      (c.enter id).captured = c.captured ∧ (c.enter id).removed = c.removed ∧
      (c.enter id).dispatched = id :: c.dispatched ∧ (c.enter id).stampOf = c.stampOf ∧
      (c.enter id).registrations = c.registrations ∧ (c.enter id).nextChannel = c.nextChannel ∧
      (c.enter id).activeBatchEpoch = c.activeBatchEpoch := by
  unfold Channels.enter
  dsimp only
  split
  · exact ⟨rfl, rfl, rfl, rfl, rfl, rfl, rfl, rfl, rfl⟩
  · rename_i ch hch
    have hset : c.SameBatch (c.setChannel id { ch with eventHandling := true }) :=
      Channels.SameBatch.setChannel hch rfl
    exact ⟨rfl, rfl, rfl, rfl, rfl, hset.stampOf, rfl, rfl, rfl⟩

end

/-! ## What a step does to the batch -/

/-- The positions between a wait and the stamping of its batch. -/
def Pc.raw : Pc → Bool
  | .waitMetric _ | .dispatch _ => true
  | _ => false

/-- The positions with a cleared batch. -/
def Pc.waiting : Pc → Bool
  | .pollControl | .pollLifecycle | .pollTimers | .wait _ _ => true
  | _ => false

/-- The positions inside `dispatchActiveChannels` with `eventHandling_` set. -/
def Pc.dispatching : Pc → Bool
  | .dispatchLoop _ _ | .handling _ _ _ => true
  | _ => false

/-- The positions that a wait and a dispatch end at. -/
def Pc.metric : Pc → Bool
  | .waitMetric _ | .dispatchMetric _ _ => true
  | _ => false

/-- The positions at which the batch is in no special state. -/
def Pc.ordinary (pc : Pc) : Bool := !pc.raw && !pc.waiting && !pc.metric

/-- What a step does to the Channels. -/
inductive Moves (maxNotices : Nat) (s : State) (l : Label) (s' : State) : Prop
  | same (channels : s'.channels = s.channels) (dispatching : s'.pc.dispatching = s.pc.dispatching)
      (waiting : s'.pc.waiting = true → s.pc.waiting = true)
      (marks : s'.pc = s.pc ∨ s'.pc.metric = false ∧ s'.pc.dispatching = false ∧
        (s'.pc.raw = false → s.pc.raw = false))
  | clear (channels : s'.channels = s.channels.clear)
      (emptied : s.channels.hasPending = false ∨ ∃ st, s.pc = .dispatchMetric st 0)
      (before : s.pc.dispatching = false) (after : s'.pc.dispatching = false)
  | wait (native : List Native) (channels : s'.channels = s.channels.wait maxNotices native)
      (before : s.pc.waiting = true) (after : s'.pc.raw = true)
  | begin (c : Channels)
      (stamped : (if s.channels.activeChannelCursor = 0 then s.channels.stamp else some s.channels) = some c)
      (channels : s'.channels = { c with eventHandling := true })
      (after : ∃ st, s'.pc = .dispatchLoop st 0)
  | pass (rest : List (Option Nat)) (entry : s.channels.rest = none :: rest)
      (channels : s'.channels = { s.channels with
        activeChannelCursor := s.channels.activeChannelCursor + 1 })
      (before : ∃ st drained, s.pc = .dispatchLoop st drained) (after : s'.pc = s.pc)
  | enter (id : Nat) (rest : List (Option Nat)) (entry : s.channels.rest = some id :: rest)
      (channels : s'.channels = s.channels.enter id) (before : ∃ st drained, s.pc = .dispatchLoop st drained)
      (after : ∃ st drained, s'.pc = .handling st drained id)
  | concluded (channels : s'.channels = { s.channels with eventHandling := false })
      (before : ∃ st drained, s.pc = .dispatchLoop st drained)
      (after : ∃ st, s'.pc = .dispatchMetric st s.channels.remaining)
  | leave (id : Nat) (channels : s.channels.leave id = some s'.channels)
      (before : ∃ st drained, s.pc = .handling st drained id)
      (after : ∃ st drained, s'.pc = .dispatchLoop st drained)
  | call (user : s.pc.userCode = true) (pc : s'.pc = s.pc)
      (channels : ChannelsCall s.channels l s'.channels)

section
variable {o : Options} {maxNotices : Nat} {s s' : State} {l : Label}

/-- A step between positions of the loop that have nothing to do with the batch. -/
theorem moves_of_ordinary (hch : s'.channels = s.channels) (h : s.pc.raw = false ∧ s.pc.dispatching = false)
    (h' : s'.pc.ordinary = true ∧ s'.pc.dispatching = false) : Moves maxNotices s l s' := by
  obtain ⟨hord, hd⟩ := h'
  simp only [Pc.ordinary, Bool.and_eq_true, Bool.not_eq_true'] at hord
  refine .same hch (hd.trans h.2.symm) (fun hw => ?_) (.inr ⟨hord.2, hd, fun _ => h.1⟩)
  rw [hord.1.2] at hw
  cases hw

/-- The dispatch is due. -/
theorem moves_of_dispatch {st : Stage} (hch : s'.channels = s.channels) (h : s.pc.dispatching = false)
    (h' : s'.pc = .dispatch st) : Moves maxNotices s l s' := by
  refine .same hch ?_ (fun hw => ?_) (.inr ⟨?_, ?_, fun hraw => ?_⟩)
  · rw [h, h']
    rfl
  all_goals simp_all [Pc.waiting, Pc.metric, Pc.dispatching, Pc.raw]

theorem moves_advanceTop {st : Stage} (hpc : s.pc = .top st) : Moves maxNotices s l (s.advanceTop st) := by
  have hd : s.pc.raw = false ∧ s.pc.dispatching = false := by rw [hpc]; exact ⟨rfl, rfl⟩
  have hclear {s' : State} (hp : ¬ s.channels.hasPending = true) (hch : s'.channels = s.channels.clear)
      (hd' : s'.pc.dispatching = false) : Moves maxNotices s l s' :=
    .clear hch (.inl (by simpa using hp)) hd.2 hd'
  cases st with
  | running =>
    simp only [State.advanceTop]
    split
    · exact moves_of_ordinary rfl hd ⟨rfl, rfl⟩
    · split
      · exact moves_of_dispatch rfl hd.2 rfl
      · rename_i hp
        exact hclear hp rfl rfl
  | quiescing b =>
    simp only [State.advanceTop]
    split
    · exact moves_of_dispatch rfl hd.2 rfl
    · rename_i hp
      exact hclear hp rfl rfl
  | finalDraining =>
    simp only [State.advanceTop]
    split
    · exact moves_of_dispatch rfl hd.2 rfl
    · rename_i hp
      split
      · exact hclear hp rfl rfl
      · exact moves_of_ordinary rfl hd ⟨rfl, rfl⟩

theorem moves_advanceDispatch {st : Stage} (hpc : s.pc = .dispatch st)
    (hs : s.advanceDispatch st = some s') : Moves maxNotices s l s' := by
  unfold State.advanceDispatch at hs
  split at hs
  · rename_i hp
    cases hs
    exact .clear rfl (.inl hp) (by rw [hpc]; rfl) (by cases st <;> rfl)
  · obtain ⟨c, hc, rfl⟩ := Option.map_eq_some_iff.mp hs
    exact .begin c hc rfl ⟨st, rfl⟩

theorem moves_advanceDispatchLoop {st : Stage} {drained : Nat} (hpc : s.pc = .dispatchLoop st drained) :
    Moves maxNotices s l (s.advanceDispatchLoop o.toEventLoopOptions st drained) := by
  unfold State.advanceDispatchLoop
  dsimp only
  split
  · split
    · exact .concluded rfl ⟨st, drained, hpc⟩ ⟨st, rfl⟩
    · rename_i rest hrest
      exact .pass rest hrest rfl ⟨st, drained, hpc⟩ rfl
    · rename_i id rest hrest
      exact .enter id rest hrest rfl ⟨st, drained, hpc⟩ ⟨st, drained + 1, rfl⟩
  · exact .concluded rfl ⟨st, drained, hpc⟩ ⟨st, rfl⟩

theorem moves_advanceLifecycle {st : Stage} {left drained : Nat} (hpc : s.pc = .lifecycleNext st left drained)
    (hs : s.advanceLifecycle st left drained = some s') : Moves maxNotices s l s' := by
  have hd : s.pc.raw = false ∧ s.pc.dispatching = false := by rw [hpc]; exact ⟨rfl, rfl⟩
  have hover : Moves maxNotices s l (if drained ≠ 0 then
        { s with pc := .lifecycleMetric st s.lifecycle.pendingCount }
      else { s.wakeIf s.lifecycle.pendingCount with pc := st.afterLifecycle }) := by
    split
    · exact moves_of_ordinary rfl hd ⟨rfl, rfl⟩
    · exact moves_of_ordinary (by simp [State.wakeIf]) hd (by cases st <;> exact ⟨rfl, rfl⟩)
  unfold State.advanceLifecycle at hs
  dsimp only at hs
  split at hs
  · cases hs
    exact hover
  · cases hs
    exact hover
  · obtain ⟨lc, _, rfl⟩ := Option.map_eq_some_iff.mp hs
    exact moves_of_ordinary rfl hd ⟨rfl, rfl⟩

theorem moves_advance (hs : s.advance o.toEventLoopOptions = some s') : Moves maxNotices s l s' := by
  unfold State.advance at hs
  split at hs
  case h_1 st hpc => cases hs; exact moves_advanceTop hpc
  case h_2 hpc | h_3 hpc =>
    cases hs
    refine .same rfl ?_ (fun _ => by rw [hpc]; rfl) (.inr ⟨?_, ?_, fun _ => by rw [hpc]; rfl⟩)
    · rw [hpc]
      dsimp only
      split <;> rfl
    all_goals dsimp only; split <;> rfl
  case h_4 st hpc => exact moves_advanceDispatch hpc hs
  case h_5 st drained hpc => cases hs; exact moves_advanceDispatchLoop hpc
  case h_8 st hpc =>
    dsimp only at hs
    split at hs <;> cases hs
    · exact moves_of_ordinary rfl (by rw [hpc]; exact ⟨rfl, rfl⟩) (by cases st <;> exact ⟨rfl, rfl⟩)
    · exact moves_of_ordinary rfl (by rw [hpc]; exact ⟨rfl, rfl⟩) ⟨rfl, rfl⟩
  case h_10 st slot words hpc =>
    cases hs
    unfold State.advanceControl
    repeat' split
    all_goals exact moves_of_ordinary rfl (by rw [hpc]; exact ⟨rfl, rfl⟩) ⟨rfl, rfl⟩
  case h_13 st left drained hpc => exact moves_advanceLifecycle hpc hs
  case h_16 st hpc =>
    cases hs
    unfold State.advanceFunctors
    dsimp only
    split <;> exact moves_of_ordinary rfl (by rw [hpc]; exact ⟨rfl, rfl⟩) ⟨rfl, rfl⟩
  case h_19 st hpc =>
    cases hs
    exact moves_of_ordinary (by simp [State.wakeIf]) (by rw [hpc]; exact ⟨rfl, rfl⟩)
      (by cases st <;> exact ⟨rfl, rfl⟩)
  case h_24 st hpc =>
    cases hs
    cases st <;> exact moves_of_ordinary rfl (by rw [hpc]; exact ⟨rfl, rfl⟩) ⟨rfl, rfl⟩
  case h_25 => cases hs
  all_goals
    rename_i hpc
    cases hs
    first
    | exact moves_of_ordinary rfl (by rw [hpc]; exact ⟨rfl, rfl⟩) ⟨rfl, rfl⟩
    | (split <;> exact moves_of_ordinary rfl (by rw [hpc]; exact ⟨rfl, rfl⟩) ⟨rfl, rfl⟩)

theorem moves_leave {threw : Bool} (hs : s.leave threw = some s') : Moves maxNotices s l s' := by
  unfold State.leave at hs
  split at hs
  case h_1 st hpc => cases hs; exact moves_of_dispatch rfl (by rw [hpc]; rfl) rfl
  case h_2 st drained id hpc =>
    obtain ⟨c, hc, rfl⟩ := Option.map_eq_some_iff.mp hs
    exact .leave id hc ⟨st, drained, hpc⟩ ⟨st, drained, rfl⟩
  case h_3 st remaining hpc =>
    cases hs
    by_cases hzero : remaining = 0
    · subst hzero
      exact .clear rfl (.inr ⟨st, hpc⟩) (by rw [hpc]; rfl) (by cases st <;> rfl)
    · rw [if_neg hzero]
      exact moves_of_ordinary rfl (by rw [hpc]; exact ⟨rfl, rfl⟩) (by cases st <;> exact ⟨rfl, rfl⟩)
  case h_5 st slot words hpc | h_8 st left drained id hpc =>
    cases hs
    cases threw <;> exact moves_of_ordinary rfl (by rw [hpc]; exact ⟨rfl, rfl⟩) ⟨rfl, rfl⟩
  case h_7 st remaining hpc | h_10 st remaining hpc =>
    cases hs
    exact moves_of_ordinary (by simp [State.wakeIf]) (by rw [hpc]; exact ⟨rfl, rfl⟩)
      (by cases st <;> exact ⟨rfl, rfl⟩)
  case h_13 => cases hs
  all_goals
    rename_i hpc
    cases hs
    exact moves_of_ordinary rfl (by rw [hpc]; exact ⟨rfl, rfl⟩) ⟨rfl, rfl⟩

/-- Everything a step of the loop can do to its Channels. -/
theorem step_moves (hs : EventLoop.step o maxNotices s l = some s') : Moves maxNotices s l s' := by
  cases hl : l.ofLoop with
  | false =>
    obtain ⟨hpc, -, hch | ⟨huser, hch⟩⟩ := call_frame hl hs
    · exact .same hch (by rw [hpc]) (by rw [hpc]; exact id) (.inl hpc)
    · exact .call huser hpc hch
  | true =>
    cases step_took hs with
    | start hpc => exact moves_of_ordinary rfl (by rw [hpc]; exact ⟨rfl, rfl⟩) ⟨rfl, rfl⟩
    | advance hs => exact moves_advance hs
    | timeout t hpc =>
      refine .same rfl ?_ (fun _ => ?_) (.inr ⟨rfl, rfl, fun _ => ?_⟩) <;> rw [hpc] <;> rfl
    | wait native hpc => exact .wait native rfl (by rw [hpc]; rfl) rfl
    | wake native hpc => exact .wait native rfl (by rw [hpc]; rfl) rfl
    | leave hs => exact moves_leave hs
    | refused hl' => cases hl.symm.trans hl'
    | channels _ hc => cases hl.symm.trans hc.ofLoop
    | _ => cases hl

end

/-! ## Runs -/

structure Batch (s : State) : Prop where
  good : s.channels.Good
  loaded : s.channels.Loaded
  stamped : s.pc.raw = false ∨ s.channels.activeChannelCursor ≠ 0 → s.channels.Stamped
  fresh : ∀ st, s.pc = .waitMetric st → s.channels.activeChannelCursor = 0
  empty : s.pc.waiting = true → s.channels.activeChannels = [] ∧ s.channels.activeChannelCursor = 0
  concluded : ∀ st, s.pc = .dispatchMetric st 0 → s.channels.hasPending = false

/-- No captured Channel is removed by the metric callback between a wait and the stamping of its
    batch. -/
def KeepsCaptured (s : State) : Label → Prop
  | .removeChannel id => match s.pc with
    | .waitMetric _ => some id ∉ s.channels.activeChannels
    | _ => True
  | _ => True

instance (s : State) (l : Label) : Decidable (KeepsCaptured s l) := by
  cases l <;> unfold KeepsCaptured
  case removeChannel id => cases s.pc <;> infer_instance
  all_goals infer_instance

section
variable {o : Options} {maxNotices : Nat} {s s' : State} {l : Label}

theorem initial_batch (o : Options) : Batch (initial o) := by
  constructor
  case good => exact ⟨(fun _ _ h => by cases h), (fun _ _ h => by cases h)⟩
  case loaded => constructor <;> simp [initial]
  case stamped => exact fun _ i id h => by simp [initial] at h
  case fresh => exact fun _ _ => rfl
  case empty => exact fun _ => ⟨rfl, rfl⟩
  case concluded => exact fun _ _ => rfl

/-- An empty batch is in order at every position. -/
theorem batch_of_empty (hg : s.channels.Good) (hl : s.channels.Loaded)
    (ha : s.channels.activeChannels = []) (hc : s.channels.activeChannelCursor = 0) : Batch s where
  good := hg
  loaded := hl
  stamped := fun _ i id h => by simp [ha] at h
  fresh := fun _ _ => hc
  empty := fun _ => ⟨ha, hc⟩
  concluded := fun _ _ => by simp [Channels.hasPending, Channels.rest, ha]

theorem Batch.clear (h : Batch s) (hp : s.channels.hasPending = false)
    (hch : s'.channels = s.channels.clear) : Batch s' :=
  batch_of_empty (hch ▸ h.good.clear) (hch ▸ h.loaded.clear hp) (by rw [hch]; rfl) (by rw [hch]; rfl)

theorem batch_of_ordinary (hg : s.channels.Good) (hl : s.channels.Loaded) (hst : s.channels.Stamped)
    (hpc : s.pc.ordinary = true) : Batch s where
  good := hg
  loaded := hl
  stamped := fun _ => hst
  fresh := fun st h => by rw [h] at hpc; cases hpc
  empty := fun h => by cases hp : s.pc <;> simp [hp, Pc.waiting, Pc.ordinary] at h hpc
  concluded := fun st h => by rw [h] at hpc; cases hpc

/-- A call that leaves the Channels and the position alone. -/
theorem Batch.same (h : Batch s) (hch : s'.channels = s.channels) (hpc : s'.pc = s.pc) : Batch s' := by
  constructor
  case good => rw [hch]; exact h.good
  case loaded => rw [hch]; exact h.loaded
  case stamped => rw [hch, hpc]; exact h.stamped
  case fresh => rw [hch, hpc]; exact h.fresh
  case empty => rw [hch, hpc]; exact h.empty
  case concluded => rw [hch, hpc]; exact h.concluded

/-! ## Calls -/

theorem hasPending_eq_false {c : Channels} : c.hasPending = false ↔
    ∀ i id : Nat, c.activeChannelCursor ≤ i → c.activeChannels[i]? ≠ some (some id) := by
  simp only [Channels.hasPending, List.any_eq_false, Channels.rest]
  constructor
  · intro h i id hi hat
    have hmem : some id ∈ c.activeChannels.drop c.activeChannelCursor := by
      apply List.mem_of_getElem? (i := i - c.activeChannelCursor)
      rw [List.getElem?_drop, Nat.add_sub_cancel' hi]
      exact hat
    exact h _ hmem rfl
  · intro h x hx
    obtain ⟨i, hi⟩ := List.mem_iff_getElem?.mp hx
    rw [List.getElem?_drop] at hi
    cases x with
    | none => simp
    | some id => exact absurd hi (h _ id (Nat.le_add_right _ _))

/-- A change of the Channels by user code. -/
theorem Batch.call {c' : Channels} (h : Batch s) (hu : s.pc.userCode = true) (hg : c'.Good)
    (hl : c'.Loaded) (hst : s.channels.Stamped → c'.Stamped)
    (hcur : c'.activeChannelCursor = s.channels.activeChannelCursor)
    (hpend : s.channels.hasPending = false → c'.hasPending = false) : Batch { s with channels := c' } where
  good := hg
  loaded := hl
  stamped := fun hraw => hst (h.stamped (hcur ▸ hraw))
  fresh := fun st hpc => hcur.trans (h.fresh st hpc)
  empty := fun hw => by cases hp : s.pc <;> simp [hp, Pc.waiting, Pc.userCode] at hw hu
  concluded := fun st hpc => hpend (h.concluded st hpc)

theorem Batch.callSame {c' : Channels} (h : Batch s) (hu : s.pc.userCode = true)
    (hs : s.channels.SameBatch c') (hport : c'.Port) : Batch { s with channels := c' } := by
  refine h.call hu (h.good.same hs hport) (h.loaded.same hs) (fun hst => hst.same hs) hs.cursor ?_
  simp only [hasPending_eq_false, hs.activeChannels, hs.cursor]
  exact id

/-- A removal: by the stamp wherever the batch is stamped, of no captured Channel before that. -/
theorem Batch.removeChannel {c' : Channels} {id : Nat} (h : Batch s) (hu : s.pc.userCode = true)
    (hC : KeepsCaptured s (.removeChannel id)) (hr : s.channels.remove id = some c') :
    Batch { s with channels := c' } := by
  rcases Channels.remove_cases hr with rfl | ⟨st, hrem⟩
  · exact h
  have hfound : ∀ i : Nat, s.channels.activeChannels[i]? = some (some id) →
      st.epoch = s.channels.activeBatchEpoch ∧ st.index = i := by
    intro i hi
    cases hraw : s.pc.raw with
    | false =>
      obtain ⟨st', hst', hrest⟩ := h.stamped (Or.inl hraw) i id hi
      rw [hrem.stamped, Option.some.injEq] at hst'
      exact hst' ▸ hrest
    | true =>
      cases hp : s.pc <;> simp [hp, Pc.raw, Pc.userCode] at hraw hu
      simp only [KeepsCaptured, hp] at hC
      exact absurd (List.mem_of_getElem? hi) hC
  refine h.call hu (h.good.removes hrem) (h.loaded.removes hrem hfound) (fun hst => hst.removes hrem)
    hrem.cursor ?_
  simp only [hasPending_eq_false, hrem.cursor]
  exact fun hno i j hi hat => hno i j hi (hrem.entry_of hat)

/-! ## Steps -/

/-- A step that leaves the Channels alone. -/
theorem Batch.keep (h : Batch s) (hch : s'.channels = s.channels)
    (hw : s'.pc.waiting = true → s.pc.waiting = true)
    (hmarks : s'.pc.metric = false ∧ (s'.pc.raw = false → s.pc.raw = false)) : Batch s' where
  good := hch ▸ h.good
  loaded := hch ▸ h.loaded
  stamped := fun hraw => hch ▸ h.stamped (hraw.imp hmarks.2 (hch ▸ ·))
  fresh := fun st hpc => by rw [hpc] at hmarks; cases hmarks.1
  empty := fun hpc => hch ▸ h.empty (hw hpc)
  concluded := fun st hpc => by rw [hpc] at hmarks; cases hmarks.1

theorem Batch.pass {rest : List (Option Nat)} (h : Batch s)
    (hpc : ∃ st drained, s.pc = .dispatchLoop st drained)
    (hrest : s.channels.rest = none :: rest) (hpc' : s'.pc = s.pc)
    (hch : s'.channels = { s.channels with
      activeChannelCursor := s.channels.activeChannelCursor + 1 }) : Batch s' := by
  obtain ⟨st, drained, hpc⟩ := hpc
  have hst := h.stamped (Or.inl (by rw [hpc]; rfl))
  refine batch_of_ordinary ?_ ?_ ?_ (by rw [hpc', hpc]; rfl) <;> rw [hch]
  · exact ⟨h.good.port, h.good.used⟩
  · exact h.loaded.pass hrest rfl rfl rfl rfl rfl rfl
  · exact hst

theorem Batch.enter {id : Nat} {rest : List (Option Nat)} (h : Batch s)
    (hpc : ∃ st drained, s.pc = .dispatchLoop st drained) (hrest : s.channels.rest = some id :: rest)
    (hpc' : ∃ st drained, s'.pc = .handling st drained id) (hch : s'.channels = s.channels.enter id) :
    Batch s' := by
  obtain ⟨st, drained, hpc⟩ := hpc
  obtain ⟨st', drained', hpc'⟩ := hpc'
  have hst := h.stamped (Or.inl (by rw [hpc]; rfl))
  obtain ⟨ha, hcur, hcap, hrem, hdis, hsto, hreg, hnext, hepoch⟩ := enter_spec s.channels id
  refine batch_of_ordinary ⟨?_, ?_⟩ ?_ ?_ (by rw [hpc']; rfl) <;> rw [hch]
  · intro fd r hr
    rw [hsto]
    exact h.good.port fd r (hreg ▸ hr)
  · intro i st' hst'
    rw [hnext, hepoch]
    exact h.good.used i st' (hsto ▸ hst')
  · exact h.loaded.pass hrest ha hcur hcap hrem hsto hdis
  · intro i j hi
    rw [hsto, hepoch]
    exact hst i j (ha ▸ hi)

/-- The dispatch is over; with nothing remaining the batch is done. -/
theorem Batch.conclude (h : Batch s) (hpc : ∃ st drained, s.pc = .dispatchLoop st drained)
    (hch : s'.channels = { s.channels with eventHandling := false })
    (hpc' : ∃ st, s'.pc = .dispatchMetric st s.channels.remaining) : Batch s' := by
  obtain ⟨st, drained, hpc⟩ := hpc
  obtain ⟨st', hpc'⟩ := hpc'
  have hst := h.stamped (Or.inl (by rw [hpc]; rfl))
  refine ⟨?_, ?_, fun _ => ?_, ?_, ?_, ?_⟩ <;> rw [hch]
  · exact ⟨h.good.port, h.good.used⟩
  · exact { h.loaded with }
  · exact hst
  · rw [hpc']
    simp
  · rw [hpc']
    exact fun hw => by cases hw
  · intro st'' heq
    rw [hpc', Pc.dispatchMetric.injEq] at heq
    exact List.any_eq_false.mpr (List.countP_eq_zero.mp heq.2)

theorem Batch.moves (h : Batch s) (hC : KeepsCaptured s l) (hm : Moves maxNotices s l s') : Batch s' := by
  cases hm with
  | same channels _ waiting marks =>
    rcases marks with hpc | ⟨hmetric, -, hraw⟩
    · exact h.same channels hpc
    · exact h.keep channels waiting ⟨hmetric, hraw⟩
  | clear channels emptied =>
    rcases emptied with hp | ⟨st, hpc⟩
    · exact h.clear hp channels
    · exact h.clear (h.concluded st hpc) channels
  | wait native channels before after =>
    obtain ⟨hg, hl, hcur⟩ := wait_spec h.good (h.empty before) maxNotices native
    constructor
    case good => rw [channels]; exact hg
    case loaded => rw [channels]; exact hl
    case stamped => rw [channels, after, hcur]; simp
    case fresh => rw [channels]; exact fun _ _ => hcur
    case empty => intro hw; cases hp : s'.pc <;> simp [hp, Pc.waiting, Pc.raw] at hw after
    case concluded => intro st hp; rw [hp] at after; cases after
  | «begin» c stamped channels after =>
    obtain ⟨st, hpc⟩ := after
    have hall : c.Good ∧ c.Loaded ∧ c.Stamped := by
      split at stamped
      · exact stamp_stamped h.good h.loaded stamped
      · rename_i hcur
        cases stamped
        exact ⟨h.good, h.loaded, h.stamped (Or.inr hcur)⟩
    obtain ⟨hg, hl, hst⟩ := hall
    refine batch_of_ordinary ?_ ?_ ?_ (by rw [hpc]; rfl) <;> rw [channels]
    · exact ⟨hg.port, hg.used⟩
    · exact { hl with }
    · exact hst
  | pass rest entry channels before after => exact h.pass before entry after channels
  | enter id rest entry channels before after => exact h.enter before entry after channels
  | concluded channels before after => exact h.conclude before channels after
  | leave id channels before after =>
    obtain ⟨st, drained, hpc⟩ := before
    obtain ⟨st', drained', hpc'⟩ := after
    obtain ⟨hsame, hreg⟩ := Channels.leave_same channels
    have hst := h.stamped (Or.inl (by rw [hpc]; rfl))
    exact batch_of_ordinary (h.good.same hsame (h.good.port.same hsame hreg)) (h.loaded.same hsame)
      (hst.same hsame) (by rw [hpc']; rfl)
  | call user pc channels =>
    refine Batch.same (s := { s with channels := s'.channels }) ?_ rfl pc
    cases channels with
    | new fd label eq =>
      rw [eq]
      exact h.call user (h.good.new fd) (h.loaded.new h.good fd) (fun hst => hst.new h.good fd) rfl id
    | set id setter label eq =>
      obtain ⟨hsame, hport⟩ := s.channels.setEvents_same id (setter.mask (s.channels.events id))
      rw [eq, setter.call_eq]
      exact h.callSame user hsame (hport h.good.port)
    | remove id label eq => subst label; exact h.removeChannel user hC eq
    | destroy id label eq =>
      obtain ⟨hsame, hreg⟩ := Channels.destroy_same eq
      exact h.callSame user hsame (h.good.port.same hsame hreg)
    | retire id label eq =>
      obtain ⟨hsame, hreg⟩ := Channels.retire_same eq
      exact h.callSame user hsame (h.good.port.same hsame hreg)

theorem reach_batch (h : Reach (· = initial o) (EventLoop.step o maxNotices) KeepsCaptured s) :
    Batch s :=
  Reach.invariant (P := Batch) (by rintro s rfl; exact initial_batch o)
    (fun _ _ _ hP hC hs => hP.moves hC (step_moves hs)) h

/-! ## What is dispatched -/

/-- `handleEvent` is called by the dispatch loop alone, on the next entry that is not empty. -/
theorem handling_of_step {st : Stage} {drained id : Nat}
    (hs : EventLoop.step o maxNotices s l = some s') (hpc' : s'.pc = .handling st drained id)
    (hne : s.pc ≠ s'.pc) : ∃ rest, s.channels.rest = some id :: rest := by
  have hd : s'.pc.dispatching = true := by rw [hpc']; rfl
  cases step_moves hs with
  | same _ _ _ marks =>
    obtain ⟨-, hd', -⟩ := marks.resolve_left (fun heq => hne heq.symm)
    cases hd.symm.trans hd'
  | clear _ _ _ after => cases hd.symm.trans after
  | wait _ _ _ after => rw [hpc'] at after; cases after
  | «begin» _ _ _ after => obtain ⟨_, h⟩ := after; cases hpc'.symm.trans h
  | pass _ _ _ _ after => exact absurd after.symm hne
  | enter id' rest entry _ _ after =>
    obtain ⟨_, _, h⟩ := after
    cases hpc'.symm.trans h
    exact ⟨rest, entry⟩
  | concluded _ _ after => obtain ⟨_, h⟩ := after; cases hpc'.symm.trans h
  | leave _ _ _ after => obtain ⟨_, _, h⟩ := after; cases hpc'.symm.trans h
  | call _ pc => exact absurd pc.symm hne

/-- **A removed Channel is never dispatched.** `handleEvent` is entered only for a captured
    Channel that has been neither removed nor called since the capture; no Channel is called twice
    in one batch; and when the batch is retired every captured Channel was removed or called.
    This holds when no captured Channel is removed before its batch is stamped. -/
theorem removed_never_dispatched
    (h : Reach (· = initial o) (EventLoop.step o maxNotices) KeepsCaptured s) :
    (∀ l s' st drained id, EventLoop.step o maxNotices s l = some s' →
      s'.pc = .handling st drained id → s.pc ≠ s'.pc →
      id ∈ s.channels.captured ∧ id ∉ s.channels.removed ∧ id ∉ s.channels.dispatched) ∧
    s.channels.dispatched.Nodup ∧
    (s.channels.activeChannels = [] →
      ∀ id ∈ s.channels.captured, id ∈ s.channels.removed ∨ id ∈ s.channels.dispatched) ∧
    (∀ st t, s.pc = .wait st t → s.channels.activeChannels = []) := by
  have hb := reach_batch h
  refine ⟨?_, hb.loaded.called, hb.loaded.retired, fun st t hpc => (hb.empty (by rw [hpc]; rfl)).1⟩
  intro l s' st drained id hs hpc' hne
  obtain ⟨rest, hrest⟩ := handling_of_step hs hpc' hne
  have hat : s.channels.activeChannels[s.channels.activeChannelCursor]? = some (some id) := by
    have h0 : s.channels.rest[0]? = some (some id) := by rw [hrest]; rfl
    simpa [Channels.rest] using h0
  obtain ⟨hrem, hdis⟩ := hb.loaded.ahead _ id (Nat.le_refl _) hat
  exact ⟨List.mem_of_getElem? (hb.loaded.entry _ id hat), hrem, hdis⟩

end

/-- Two Channels with read interest, and a loop that goes to its first wait. -/
def twoChannels : List Label :=
  [.newChannel 5, .newChannel 6, .setInterest 0 .enableReading, .setInterest 1 .enableReading,
    .post .remote .post (some 7), .writeWakeup, .start, .advance, .advance, .advance, .timeout 10000]

/-- Both Channels are captured and the first one's callback removes the second: the batch is
    retired with one called and one removed. -/
theorem removed_never_dispatched_second :
    ∃ s, Reach (· = initial smallLoop) (step smallLoop 16) KeepsCaptured s ∧
      s.channels.activeChannels = [] ∧ s.channels.captured = [0, 1] ∧ s.channels.dispatched = [0] ∧
      ∀ id ∈ s.channels.captured, id ∈ s.channels.removed ∨ id ∈ s.channels.dispatched := by
  obtain ⟨s, hr, hnil, hcap, hdis⟩ := Reach.of_run (· = initial smallLoop)
    (step smallLoop 16) KeepsCaptured
    (fun s => s.channels.activeChannels = [] ∧ s.channels.captured = [0, 1] ∧ s.channels.dispatched = [0])
    (initial smallLoop) rfl
    (twoChannels ++
      [.wait [⟨5, 1, { read := true }⟩, ⟨6, 2, { read := true }⟩] true, .leave false, .advance, .advance,
        .setInterest 1 .disableAll, .removeChannel 1, .destroyChannel 1, .leave false, .advance, .advance,
        .leave false])
    (by decide)
  exact ⟨s, hr, hnil, hcap, hdis, (removed_never_dispatched hr).2.2.1 hnil⟩

/-- The metric callback for the handled wakeup removes and destroys a captured Channel; the
    dispatch then calls `handleEvent` on it. -/
theorem removed_channel_dispatched :
    ∃ s, Reach (· = initial smallLoop) (step smallLoop 16) Any s ∧
      1 ∈ s.channels.captured ∧ 1 ∈ s.channels.removed ∧
      (s.channels.channel 1).map Channel.alive = some false ∧
      (step smallLoop 16 s .advance).map State.pc = some (.handling .running 2 1) :=
  Reach.of_run _ _ _ _ (initial smallLoop) rfl
    (twoChannels ++
      [.wait [⟨5, 1, { read := true }⟩, ⟨6, 2, { read := true }⟩] true, .setInterest 1 .disableAll,
        .removeChannel 1, .destroyChannel 1, .leave false, .advance, .advance, .leave false])
    (by decide)

end GameNet.EventLoop
