import Mathlib.Order.Lattice
import Mathlib.Order.Basic
import Mathlib.Order.Defs.LinearOrder
import Mathlib.Data.List.Basic
import Mathlib.Tactic.SplitIfs

/- Ordered maps of lists: the values that share a key are kept in one bucket, in the order in
   which they came, the buckets are kept in the order of their keys, and no bucket is empty.
   `Good f r` says so of a list of buckets whose values `x` have the key `f x`; `r` is an order
   in which values come. -/
namespace GameNet.Buckets

variable {κ α : Type}

/-- All values, bucket by bucket. -/
def flat (bs : List (κ × List α)) : List α := bs.flatMap Prod.snd

@[simp]
theorem flat_nil : flat ([] : List (κ × List α)) = [] := rfl

@[simp]
theorem flat_cons {k : κ} {b : List α} {rest : List (κ × List α)} :
    flat ((k, b) :: rest) = b ++ flat rest := rfl

variable [LinearOrder κ]

/-- A value is put at the end of its bucket, which is made if it is missing. -/
def push (k : κ) (a : α) : List (κ × List α) → List (κ × List α)
  | [] => [(k, [a])]
  | (k', b) :: rest =>
    if k < k' then (k, [a]) :: (k', b) :: rest
    else if k = k' then (k', b ++ [a]) :: rest
    else (k', b) :: push k a rest

/-- The values with `p` are taken out of the bucket `k`, and the bucket with them if it is then
    empty; `none` if there is no such bucket. -/
def remove (k : κ) (p : α → Bool) : List (κ × List α) → Option (List (κ × List α))
  | [] => none
  | (k', b) :: rest =>
    if k' = k then
      let b' := b.filter (fun a => !p a)
      some (if b' = [] then rest else (k', b') :: rest)
    else (remove k p rest).map ((k', b) :: ·)

/-- The first value is taken out. -/
def pop : List (κ × List α) → List (κ × List α)
  | (k, _ :: b) :: rest => if b = [] then rest else (k, b) :: rest
  | bs => bs

structure Good (f : α → κ) (r : α → α → Prop) (bs : List (κ × List α)) : Prop where
  sorted : bs.Pairwise (fun b b' => b.1 < b'.1)
  nonempty : ∀ b ∈ bs, b.2 ≠ []
  placed : ∀ b ∈ bs, ∀ x ∈ b.2, f x = b.1
  ordered : ∀ b ∈ bs, b.2.Pairwise r

section
variable {f : α → κ} {r : α → α → Prop} {bs rest : List (κ × List α)} {k k' : κ} {a x : α}
  {b : List α}

theorem good_nil : Good f r [] := ⟨.nil, nofun, nofun, nofun⟩

theorem Good.tail (h : Good f r ((k, b) :: rest)) : Good f r rest :=
  ⟨h.sorted.of_cons, fun b hb => h.nonempty b (.tail _ hb), fun b hb => h.placed b (.tail _ hb),
    fun b hb => h.ordered b (.tail _ hb)⟩

theorem Good.cons (hrest : Good f r rest) (hlt : ∀ b' ∈ rest, k < b'.1) (hne : b ≠ [])
    (hplaced : ∀ x ∈ b, f x = k) (hordered : b.Pairwise r) : Good f r ((k, b) :: rest) where
  sorted := .cons hlt hrest.sorted
  nonempty b' hb' := by
    rcases List.mem_cons.mp hb' with rfl | hb'
    · exact hne
    · exact hrest.nonempty b' hb'
  placed b' hb' := by
    rcases List.mem_cons.mp hb' with rfl | hb'
    · exact hplaced
    · exact hrest.placed b' hb'
  ordered b' hb' := by
    rcases List.mem_cons.mp hb' with rfl | hb'
    · exact hordered
    · exact hrest.ordered b' hb'

theorem Good.lt (h : Good f r ((k, b) :: rest)) : ∀ b' ∈ rest, k < b'.1 :=
  fun _ hb' => List.rel_of_pairwise_cons h.sorted hb'

/-- A value is in the bucket of its key. -/
theorem Good.mem_flat (h : Good f r bs) (hx : x ∈ flat bs) : ∃ b, (f x, b) ∈ bs ∧ x ∈ b := by
  obtain ⟨⟨k, b⟩, hb, hx⟩ := List.mem_flatMap.mp hx
  have hk : f x = k := h.placed _ hb x hx
  exact ⟨b, hk ▸ hb, hx⟩

theorem Good.lt_flat (h : Good f r ((k, b) :: rest)) (hx : x ∈ flat rest) : k < f x := by
  obtain ⟨b', hb', -⟩ := h.tail.mem_flat hx
  exact h.lt _ hb'

/-- The values come in the order of their keys, and within a key in the order `r`. -/
theorem Good.flat_pairwise (h : Good f r bs) :
    (flat bs).Pairwise (fun x y => f x < f y ∨ f x = f y ∧ r x y) := by
  induction bs with
  | nil => exact .nil
  | cons kb rest ih =>
    obtain ⟨k, b⟩ := kb
    refine List.pairwise_append.mpr ⟨?_, ih h.tail, fun x hx y hy => ?_⟩
    · refine (h.ordered (k, b) (.head _)).imp_of_mem fun hx hy hr => .inr ⟨?_, hr⟩
      rw [h.placed (k, b) (.head _) _ hx, h.placed (k, b) (.head _) _ hy]
    · left
      rw [h.placed (k, b) (.head _) x hx]
      exact h.lt_flat hy

theorem mem_flat_push : x ∈ flat (push k a bs) ↔ x = a ∨ x ∈ flat bs := by
  induction bs with
  | nil => simp [push]
  | cons kb rest ih =>
    obtain ⟨k', b⟩ := kb
    unfold push
    split_ifs
    · simp
    · simp only [flat_cons, List.mem_append, List.mem_singleton]
      tauto
    · simp only [flat_cons, List.mem_append, ih]
      tauto

theorem mem_push {b' : κ × List α} (h : b' ∈ push k a bs) : b'.1 = k ∨ b' ∈ bs := by
  induction bs with
  | nil =>
    simp only [push, List.mem_singleton] at h
    exact .inl (by rw [h])
  | cons kb rest ih =>
    obtain ⟨k', b⟩ := kb
    unfold push at h
    split_ifs at h with hlt heq
    · rcases List.mem_cons.mp h with rfl | h
      · exact .inl rfl
      · exact .inr h
    · rcases List.mem_cons.mp h with rfl | h
      · exact .inl heq.symm
      · exact .inr (.tail _ h)
    · rcases List.mem_cons.mp h with rfl | h
      · exact .inr (.head _)
      · exact (ih h).imp_right (.tail _)

theorem Good.push (h : Good f r bs) (hk : f a = k) (hr : ∀ x ∈ flat bs, r x a) :
    Good f r (push k a bs) := by
  induction bs with
  | nil =>
    exact good_nil.cons nofun (List.cons_ne_nil _ _) (by simpa using hk) (List.pairwise_singleton _ _)
  | cons kb rest ih =>
    obtain ⟨k', b⟩ := kb
    unfold Buckets.push
    split_ifs with hlt heq
    · refine h.cons (fun b' hb' => ?_) (List.cons_ne_nil _ _) (by simpa using hk)
        (List.pairwise_singleton _ _)
      rcases List.mem_cons.mp hb' with rfl | hb'
      · exact hlt
      · exact hlt.trans (h.lt b' hb')
    · refine h.tail.cons h.lt (by simp) (fun x hx => ?_) ?_
      · rcases List.mem_append.mp hx with hx | hx
        · exact h.placed _ (.head _) x hx
        · rw [List.mem_singleton.mp hx, hk, heq]
      · refine List.pairwise_append.mpr ⟨h.ordered _ (.head _), List.pairwise_singleton _ _, ?_⟩
        intro x hx y hy
        rw [List.mem_singleton.mp hy]
        exact hr x (List.mem_append_left _ hx)
    · have hrest := ih h.tail fun x hx => hr x (List.mem_append_right b hx)
      refine hrest.cons (fun b' hb' => ?_) (h.nonempty _ (.head _)) (h.placed _ (.head _))
        (h.ordered _ (.head _))
      rcases mem_push hb' with hb' | hb'
      · rw [hb']
        exact lt_of_le_of_ne (not_lt.mp hlt) (Ne.symm heq)
      · exact h.lt b' hb'

theorem mem_remove {p : α → Bool} {bs' : List (κ × List α)} (h : remove k p bs = some bs')
    {b' : κ × List α} (hb : b' ∈ bs') : ∃ b ∈ bs, b.1 = b'.1 := by
  induction bs generalizing bs' with
  | nil => cases h
  | cons kb rest ih =>
    obtain ⟨k', b⟩ := kb
    unfold remove at h
    split_ifs at h
    · cases h
      split_ifs at hb
      · exact ⟨b', .tail _ hb, rfl⟩
      · rcases List.mem_cons.mp hb with rfl | hb
        · exact ⟨_, .head _, rfl⟩
        · exact ⟨b', .tail _ hb, rfl⟩
    · obtain ⟨bs'', hbs, rfl⟩ := Option.map_eq_some_iff.mp h
      rcases List.mem_cons.mp hb with rfl | hb
      · exact ⟨_, .head _, rfl⟩
      · obtain ⟨b, hb, heq⟩ := ih hbs hb
        exact ⟨b, .tail _ hb, heq⟩

/-- A bucket that holds a value is found. -/
theorem Good.remove_isSome (h : Good f r bs) (p : α → Bool) (hx : x ∈ flat bs) :
    ∃ bs', remove (f x) p bs = some bs' := by
  induction bs with
  | nil => cases hx
  | cons kb rest ih =>
    obtain ⟨k', b⟩ := kb
    unfold remove
    split_ifs with hk
    · exact ⟨_, rfl⟩
    · rcases List.mem_append.mp hx with hx | hx
      · exact absurd (h.placed _ (.head _) x hx).symm hk
      · obtain ⟨bs', hbs⟩ := ih h.tail hx
        exact ⟨_, by rw [hbs]; rfl⟩

theorem Good.remove {p : α → Bool} {bs' : List (κ × List α)} (h : Good f r bs)
    (hr : remove k p bs = some bs') :
    Good f r bs' ∧ ∀ x, x ∈ flat bs' ↔ x ∈ flat bs ∧ ¬ (f x = k ∧ p x = true) := by
  induction bs generalizing bs' with
  | nil => cases hr
  | cons kb rest ih =>
    obtain ⟨k', b⟩ := kb
    unfold Buckets.remove at hr
    split_ifs at hr with hk
    case pos =>
      subst hk
      cases hr
      -- no other bucket has this key
      have hother (x : α) (hx : x ∈ flat rest) : ¬ (f x = k' ∧ p x = true) :=
        fun hfx => absurd (h.lt_flat hx) (by rw [hfx.1]; exact lt_irrefl _)
      have hmem (x : α) : x ∈ b ++ flat rest ∧ ¬ (f x = k' ∧ p x = true) ↔
          x ∈ b.filter (fun a => !p a) ++ flat rest := by
        rw [List.mem_append, List.mem_append, List.mem_filter]
        constructor
        · rintro ⟨hx | hx, hnot⟩
          · refine .inl ⟨hx, ?_⟩
            rw [Bool.not_eq_true']
            exact eq_false_of_ne_true fun hp => hnot ⟨h.placed _ (.head _) x hx, hp⟩
          · exact .inr hx
        · rintro (⟨hx, hp⟩ | hx)
          · refine ⟨.inl hx, fun hfx => ?_⟩
            rw [hfx.2] at hp
            cases hp
          · exact ⟨.inr hx, hother x hx⟩
      split_ifs with hempty
      · refine ⟨h.tail, fun x => ?_⟩
        rw [flat_cons, hmem, hempty, List.nil_append]
      · refine ⟨h.tail.cons h.lt hempty (fun x hx => ?_) ?_, fun x => ?_⟩
        · exact h.placed _ (.head _) x (List.mem_of_mem_filter hx)
        · exact (h.ordered _ (.head _)).filter _
        · rw [flat_cons, flat_cons, hmem]
    case neg =>
      obtain ⟨bs'', hbs, rfl⟩ := Option.map_eq_some_iff.mp hr
      obtain ⟨hgood, hmem⟩ := ih h.tail hbs
      refine ⟨hgood.cons (fun b' hb' => ?_) (h.nonempty _ (.head _)) (h.placed _ (.head _))
        (h.ordered _ (.head _)), fun x => ?_⟩
      · obtain ⟨b₀, hb₀, heq⟩ := mem_remove hbs hb'
        rw [← heq]
        exact h.lt b₀ hb₀
      · rw [flat_cons, flat_cons, List.mem_append, List.mem_append, hmem]
        constructor
        · rintro (hx | ⟨hx, hnot⟩)
          · refine ⟨.inl hx, fun hfx => hk ?_⟩
            rw [← hfx.1, h.placed _ (.head _) x hx]
          · exact ⟨.inr hx, hnot⟩
        · rintro ⟨hx | hx, hnot⟩
          · exact .inl hx
          · exact .inr ⟨hx, hnot⟩

theorem Good.pop (h : Good f r ((k, a :: b) :: rest)) :
    Good f r (pop ((k, a :: b) :: rest)) ∧ flat ((k, a :: b) :: rest) =
      a :: flat (Buckets.pop ((k, a :: b) :: rest)) := by
  simp only [Buckets.pop]
  split_ifs with hb
  · exact ⟨h.tail, by simp [hb]⟩
  · refine ⟨h.tail.cons h.lt hb (fun x hx => h.placed _ (.head _) x (.tail _ hx)) ?_, rfl⟩
    exact (h.ordered _ (.head _)).of_cons

end

end GameNet.Buckets
