import GameNet.Machine
import GameNet.TcpClient.Requests

/- The order of the operations. An operation of the facade gets its generation when it is accepted. One
   of `TcpClientControl` is accepted when it is put into the mailbox and gets its generation when the
   lifecycle node takes it out, and by then a later operation of the facade may have run. So a stop or a
   disconnect of the facade that is accepted while a connect is in the mailbox is undone by it. In all
   other runs the operation accepted last is the one with the latest generation, once the mailbox is
   empty. -/
namespace GameNet.TcpClient

open Connector (Core Carried)
open Machine (Reach Any)

/-! ## What leaves the mailbox alone -/

/-- The frames that handle the mailbox. -/
def Frame.isControl : Frame → Bool
  | .driveControl | .control _ => true
  | _ => false

/-- The mailbox and the accepted operations are the same, and no frame came for the mailbox. -/
structure Calm (s s' : State) : Prop where
  pendingOperation : s'.pendingOperation = s.pendingOperation
  dirty : s'.dirty = s.dirty
  latest : s'.latest = s.latest
  accepted : s'.accepted = s.accepted
  stack : ∀ f ∈ s'.stack, f.isControl = true → f ∈ s.stack

section
variable {s s' s₁ : State} {f : Frame} {rest : List Frame}

theorem Calm.refl (s : State) : Calm s s := ⟨rfl, rfl, rfl, rfl, fun _ hf _ => hf⟩

theorem Calm.trans (h : Calm s s₁) (h' : Calm s₁ s') : Calm s s' where
  pendingOperation := h'.pendingOperation.trans h.pendingOperation
  dirty := h'.dirty.trans h.dirty
  latest := h'.latest.trans h.latest
  accepted := h'.accepted.trans h.accepted
  stack f hf hc := h.stack f (h'.stack f hf hc) hc

/-- Frames are pushed, and other fields change. -/
theorem Calm.push (frames : List Frame) (hframes : ∀ f ∈ frames, f.isControl = false)
    (hpending : s'.pendingOperation = s.pendingOperation) (hdirty : s'.dirty = s.dirty)
    (hlatest : s'.latest = s.latest) (haccepted : s'.accepted = s.accepted)
    (hstack : s'.stack = frames ++ s.stack) : Calm s s' where
  pendingOperation := hpending
  dirty := hdirty
  latest := hlatest
  accepted := haccepted
  stack f hf hc := by
    rw [hstack] at hf
    rcases List.mem_append.mp hf with hf | hf
    · rw [hframes f hf] at hc
      cases hc
    · exact hf

theorem handleConnectorEvent_calm (s : State) (event : Connector.ConnectorEvent) :
    Calm s (s.handleConnectorEvent event) := by
  unfold State.handleConnectorEvent
  split
  case h_3 =>
    split
    · exact .push [_] (by simp [Frame.isControl]) rfl rfl rfl rfl rfl
    · exact .refl s
  case h_4 | h_5 | h_6 => split <;> exact .push [] nofun rfl rfl rfl rfl rfl
  all_goals exact .push [] nofun rfl rfl rfl rfl rfl

theorem drive_calm (s : State) (result : Core × List Connector.Frame) : Calm s (s.drive result) := by
  have hframes : ∀ frames : List Connector.Frame, ∀ f ∈ frames.map Frame.connector,
      f.isControl = false := by
    intro frames f hf
    obtain ⟨k, -, rfl⟩ := List.mem_map.mp hf
    rfl
  unfold State.drive
  dsimp only
  split
  case h_1 frames _ =>
    refine Calm.trans (.push (frames.map Frame.connector) (hframes _) ?_ ?_ ?_ ?_ ?_)
      (handleConnectorEvent_calm _ _)
    all_goals rfl
  case h_2 frames _ =>
    refine .push (.newConnection :: frames.map Frame.connector) (fun f hf => ?_) rfl rfl rfl rfl rfl
    rcases List.mem_cons.mp hf with rfl | hf
    · rfl
    · exact hframes _ f hf
  case h_3 => exact .push _ (hframes _) rfl rfl rfl rfl rfl

theorem resume_calm (s : State) (answer : Answer) (hf : f.isControl = false) :
    Calm s (s.resume answer f) := by
  -- Fields that the mailbox does not depend on, and at most one frame.
  have hset : ∀ s' : State, s'.pendingOperation = s.pendingOperation → s'.dirty = s.dirty →
      s'.latest = s.latest → s'.accepted = s.accepted → s'.stack = s.stack → Calm s s' :=
    fun s' hp hd hl ha hs => .push [] nofun hp hd hl ha hs
  have hdrive : ∀ (s₁ : State) (result : Core × List Connector.Frame),
      s₁.pendingOperation = s.pendingOperation → s₁.dirty = s.dirty → s₁.latest = s.latest →
      s₁.accepted = s.accepted → s₁.stack = s.stack → Calm s (s₁.drive result) :=
    fun s₁ result hp hd hl ha hs => (hset s₁ hp hd hl ha hs).trans (drive_calm s₁ result)
  have hone : ∀ (x : Frame) (s' : State), x.isControl = false →
      s'.pendingOperation = s.pendingOperation → s'.dirty = s.dirty → s'.latest = s.latest →
      s'.accepted = s.accepted → s'.stack = x :: s.stack → Calm s s' :=
    fun x s' hx hp hd hl ha hs =>
      .push [x] (fun y hy => by rw [List.mem_singleton.mp hy]; exact hx) hp hd hl ha hs
  cases f with
  | connector k => exact drive_calm s _
  | user => exact .refl s
  | driveControl => cases hf
  | control op => cases hf
  | connectInLoop r g =>
    rw [State.resume]
    split
    · exact .refl s
    · exact hone _ _ rfl rfl rfl rfl rfl rfl
  | connectRequest r =>
    rw [State.resume]
    split
    · exact .refl s
    · unfold State.connectRequest
      dsimp only
      split
      · split <;> exact hset _ rfl rfl rfl rfl rfl
      · split
        · exact hdrive _ _ rfl rfl rfl rfl rfl
        · exact hdrive _ _ rfl rfl rfl rfl rfl
  | disconnectInLoop g =>
    rw [State.resume]
    split
    · exact .refl s
    · exact hone _ _ rfl rfl rfl rfl rfl rfl
  | disconnectLatest =>
    rw [State.resume]
    unfold State.disconnectLatest
    dsimp only
    split
    · split
      · exact hset _ rfl rfl rfl rfl rfl
      · split
        · exact hset _ rfl rfl rfl rfl rfl
        · exact hset _ rfl rfl rfl rfl rfl
        · exact .push [_, _, _] (by simp [Frame.isControl]) rfl rfl rfl rfl rfl
    · exact hset _ rfl rfl rfl rfl rfl
  | stopInLoop g =>
    rw [State.resume]
    split
    · exact .refl s
    · exact hone _ _ rfl rfl rfl rfl rfl rfl
  | stopLatest => exact hset _ rfl rfl rfl rfl rfl
  | finishTerminalConnectFailure r =>
    rw [State.resume]
    unfold State.finishTerminalConnectFailure
    dsimp only
    split
    · exact .refl s
    · split
      · exact hone _ _ rfl rfl rfl rfl rfl rfl
      · exact hset _ rfl rfl rfl rfl rfl
  | newConnection =>
    rw [State.resume]
    unfold State.newConnection
    dsimp only
    split
    · exact hset _ rfl rfl rfl rfl rfl
    · exact hone _ _ rfl rfl rfl rfl rfl rfl
  | establish r =>
    rw [State.resume]
    unfold State.establish
    split
    · dsimp only
      split
      · exact hdrive _ _ rfl rfl rfl rfl rfl
      · exact hone _ _ rfl rfl rfl rfl rfl rfl
    · exact hone _ _ rfl rfl rfl rfl rfl rfl
    · exact hone _ _ rfl rfl rfl rfl rfl rfl
  | removeConnection id => exact hone _ _ rfl rfl rfl rfl rfl rfl
  | reconnect q p =>
    rw [State.resume]
    unfold State.reconnect
    split
    · exact hdrive _ _ rfl rfl rfl rfl rfl
    · exact hone _ _ rfl rfl rfl rfl rfl rfl
  | reestablish q =>
    rw [State.resume]
    unfold State.reestablish
    split
    · exact hdrive _ _ rfl rfl rfl rfl rfl
    · exact hone _ _ rfl rfl rfl rfl rfl rfl
  | release q =>
    rw [State.resume]
    unfold State.release
    split
    · exact hset _ rfl rfl rfl rfl rfl
    · exact .refl s

/-! ## The order -/

/-- No stop or disconnect of the facade is accepted while a connect is in the mailbox, or taken out of
    it and not yet admitted. -/
def Ordered (s : State) : Label → Prop
  | .call op | .post op false =>
    op ≠ .connect → s.pendingOperation ≠ some .connect ∧ .control .connect ∉ s.stack
  | _ => True

instance (s : State) (lab : Label) : Decidable (Ordered s lab) := by
  unfold Ordered
  split <;> infer_instance

/-- A pending operation has its lifecycle node marked, or being driven. -/
def Notified (s : State) : Prop :=
  s.pendingOperation ≠ none → s.dirty = true ∨ .driveControl ∈ s.stack

/-- The operation accepted last is a stop or a disconnect. -/
def State.Ended (s : State) : Prop := s.accepted = some .disconnect ∨ s.accepted = some .stop

/-- Who makes the operation accepted last the latest one, if it is a stop or a disconnect: what is in
    the mailbox or was taken from it, or it is the latest already. -/
structure InOrder (s : State) : Prop where
  pending : s.Ended → s.pendingOperation ≠ some .connect
  taken : s.Ended → s.pendingOperation = none → .control .connect ∉ s.stack
  done : s.Ended → s.pendingOperation = none → (∀ op, .control op ∉ s.stack) → s.Halted

theorem not_control_of_resting (h : f.resting = true) : f.isControl = false := by
  cases f with
  | driveControl => cases h
  | control op => cases h
  | _ => rfl

/-- The frames below the top have nothing to do with the mailbox. -/
theorem Inv.eq_top_of_control {x : Frame} (h : Inv s) (hs : s.stack = f :: rest) (hx : x ∈ s.stack)
    (hc : x.isControl = true) : x = f := by
  rw [hs] at hx
  rcases List.mem_cons.mp hx with rfl | hx
  · rfl
  · rw [not_control_of_resting (h.rest_resting hs x hx)] at hc
    cases hc

theorem Calm.notified (h : Notified s) (hcalm : Calm s s')
    (hstack : .driveControl ∈ s.stack → .driveControl ∈ s'.stack) : Notified s' := by
  intro hne
  rw [hcalm.pendingOperation] at hne
  rw [hcalm.dirty]
  exact (h hne).imp_right hstack

theorem Calm.inOrder (h : InOrder s) (hcalm : Calm s s')
    (hstack : ∀ op, .control op ∈ s.stack → .control op ∈ s'.stack) : InOrder s' := by
  obtain ⟨hpending, hdirty, hlatest, haccepted, hsub⟩ := hcalm
  refine ⟨fun he => ?_, fun he hnone hmem => ?_, fun he hnone hno => ?_⟩
  · rw [State.Ended, haccepted] at he
    rw [hpending]
    exact h.pending he
  · rw [State.Ended, haccepted] at he
    rw [hpending] at hnone
    exact h.taken he hnone (hsub _ hmem rfl)
  · rw [State.Ended, haccepted] at he
    rw [hpending] at hnone
    rw [State.Halted, hlatest]
    exact h.done he hnone fun op hmem => hno op (hstack op hmem)

/-- An operation of the facade was accepted. -/
structure Admitted (s : State) (op : Op) (s' : State) : Prop where
  pendingOperation : s'.pendingOperation = s.pendingOperation
  dirty : s'.dirty = s.dirty
  stack : ∀ f : Frame, f.isControl = true → (f ∈ s'.stack ↔ f ∈ s.stack)
  outcome : (s'.latest = some op ∧ s'.accepted = some op) ∨
    op = .connect ∧ s'.accepted = some .connect

theorem call_admitted (s : State) (op : Op) : Admitted s op (s.call op) := by
  have hstack : ∀ x : Frame, x.isControl = false → ∀ f : Frame, f.isControl = true →
      (f ∈ x :: s.stack ↔ f ∈ s.stack) := by
    intro x hx f hf
    have hne : f ≠ x := by
      rintro rfl
      rw [hf] at hx
      cases hx
    rw [List.mem_cons, or_iff_right hne]
  cases op with
  | connect =>
    unfold State.call State.tryOperation
    dsimp only
    split
    · exact ⟨rfl, rfl, fun _ _ => Iff.rfl, .inr ⟨rfl, rfl⟩⟩
    · exact ⟨rfl, rfl, hstack _ rfl, .inl ⟨rfl, rfl⟩⟩
  | disconnect => exact ⟨rfl, rfl, hstack _ rfl, .inl ⟨rfl, rfl⟩⟩
  | stop => exact ⟨rfl, rfl, hstack _ rfl, .inl ⟨rfl, rfl⟩⟩

theorem post_admitted (s : State) (op : Op) : Admitted s op (s.post op false) := by
  cases op with
  | connect =>
    unfold State.post State.tryOperation
    dsimp only
    split
    · exact ⟨rfl, rfl, fun _ _ => Iff.rfl, .inr ⟨rfl, rfl⟩⟩
    · exact ⟨rfl, rfl, fun _ _ => Iff.rfl, .inl ⟨rfl, rfl⟩⟩
  | disconnect => exact ⟨rfl, rfl, fun _ _ => Iff.rfl, .inl ⟨rfl, rfl⟩⟩
  | stop => exact ⟨rfl, rfl, fun _ _ => Iff.rfl, .inl ⟨rfl, rfl⟩⟩

/-- A post that is refused changes nothing here, unless it is a connect that needs no post. -/
theorem post_refused (s : State) (op : Op) :
    (Calm s (s.post op true) ∧ (s.post op true).stack = s.stack) ∨
      Admitted s op (s.post op true) ∧ op = .connect := by
  cases op with
  | connect =>
    unfold State.post State.tryOperation
    dsimp only
    split
    · exact .inr ⟨⟨rfl, rfl, fun _ _ => Iff.rfl, .inr ⟨rfl, rfl⟩⟩, rfl⟩
    · exact .inl ⟨.push [] nofun rfl rfl rfl rfl rfl, rfl⟩
  | disconnect => exact .inl ⟨.push [] nofun rfl rfl rfl rfl rfl, rfl⟩
  | stop => exact .inl ⟨.push [] nofun rfl rfl rfl rfl rfl, rfl⟩

theorem Admitted.notified {op : Op} (h : Admitted s op s') (hnotified : Notified s) : Notified s' := by
  intro hne
  rw [h.pendingOperation] at hne
  rw [h.dirty, h.stack _ rfl]
  exact hnotified hne

theorem Admitted.inOrder {op : Op} (h : Admitted s op s')
    (hordered : op ≠ .connect → s.pendingOperation ≠ some .connect ∧ .control .connect ∉ s.stack) :
    InOrder s' := by
  have hop : s'.Ended → op ≠ .connect := by
    rintro he rfl
    rcases h.outcome with ⟨-, haccepted⟩ | ⟨-, haccepted⟩
    all_goals rw [State.Ended, haccepted] at he; rcases he with he | he <;> cases he
  refine ⟨fun he => ?_, fun he _ => ?_, fun he _ _ => ?_⟩
  · rw [h.pendingOperation]
    exact (hordered (hop he)).1
  · rw [h.stack _ rfl]
    exact (hordered (hop he)).2
  · rcases h.outcome with ⟨hlatest, haccepted⟩ | ⟨hconnect, -⟩
    · rw [State.Ended, haccepted] at he
      rw [State.Halted, hlatest]
      exact he
    · exact absurd hconnect (hop he)

/-- What a step does with the mailbox and the accepted operations. -/
inductive Moved (s : State) (lab : Label) (s' : State) : Prop where
  | calm (hcalm : Calm s s') (hstack : ∀ x ∈ s.stack, x.isControl = true → x ∈ s'.stack)
  | admitted (op : Op) (hlab : lab = .call op ∨ lab = .post op false ∨ op = .connect)
      (hadmitted : Admitted s op s')
  | posted (op : Op)
      (hs : s' = { s with pendingOperation := some op, dirty := true, accepted := some op })
  | driven (hnil : s.stack = []) (hs : s' = { s with dirty := false, stack := [.driveControl] })
  | taken (op : Op) (rest : List Frame) (hstack : s.stack = .driveControl :: rest)
      (hpending : s.pendingOperation = some op)
      (hs : s' = { s with pendingOperation := none, stack := .control op :: rest })
  | returned (rest : List Frame) (hstack : s.stack = .driveControl :: rest)
      (hpending : s.pendingOperation = none) (hs : s' = { s with stack := rest })
  | performed (op : Op) (rest : List Frame) (hstack : s.stack = .control op :: rest)
      (s₁ : State) (hadmitted : Admitted { s with stack := rest } op s₁)
      (hs : s' = { s₁ with accepted := s.accepted })

theorem Moved.resume (h : Inv s) (hs : s.stack = f :: rest) (answer : Answer) {lab : Label} :
    Moved s lab ({ s with stack := rest }.resume answer f) := by
  by_cases hf : f.isControl = true
  · cases f with
    | driveControl =>
      unfold State.resume
      dsimp only
      split
      case h_1 op hpending => exact .taken op rest hs hpending rfl
      case h_2 hpending => exact .returned rest hs hpending rfl
    | control op => exact .performed op rest hs _ (call_admitted _ op) rfl
    | _ => cases hf
  · rw [Bool.not_eq_true] at hf
    have hcalm : Calm { s with stack := rest } ({ s with stack := rest }.resume answer f) :=
      resume_calm _ answer hf
    refine .calm { hcalm with stack := fun x hx hc => ?_ } fun x hx hc => ?_
    · rw [hs]
      exact .tail _ (hcalm.stack x hx hc)
    · rw [h.eq_top_of_control hs hx hc, hf] at hc
      cases hc

theorem step_moved {lab : Label} (h : Inv s) (hs : step s lab = some s') : Moved s lab s' := by
  have hnil : ∀ {s₁ : State}, s.stack = [] → Calm s s₁ → Moved s lab s₁ := by
    intro s₁ hnil hcalm
    refine .calm hcalm fun x hx => ?_
    rw [hnil] at hx
    cases hx
  cases lab with
  | call op =>
    simp only [step, Option.ite_none_right_eq_some] at hs
    cases hs.2
    exact .admitted op (.inl rfl) (call_admitted s op)
  | setRetry enabled =>
    simp only [step, Option.ite_none_right_eq_some] at hs
    cases hs.2
    exact .calm (.push [] (by simp) rfl rfl rfl rfl rfl) fun _ hx _ => hx
  | post op refuse =>
    cases hs
    cases refuse with
    | false => exact .admitted op (.inr (.inl rfl)) (post_admitted s op)
    | true =>
      rcases post_refused s op with ⟨hcalm, hstack⟩ | ⟨hadmitted, hop⟩
      · exact .calm hcalm fun x hx _ => hstack ▸ hx
      · exact .admitted op (.inr (.inr hop)) hadmitted
  | postSetRetry enabled =>
    cases hs
    exact .calm (.push [] (by simp) rfl rfl rfl rfl rfl) fun _ hx _ => hx
  | control op =>
    cases hs
    exact .posted op rfl
  | shutdownConnection =>
    obtain ⟨conn, -, hs⟩ := Option.bind_eq_some_iff.mp hs
    rw [Option.ite_none_right_eq_some] at hs
    cases hs.2
    exact .calm (.push [] (by simp) rfl rfl rfl rfl rfl) fun _ hx _ => hx
  | closeConnection =>
    obtain ⟨conn, -, hs⟩ := Option.bind_eq_some_iff.mp hs
    rw [Option.ite_none_right_eq_some] at hs
    cases hs.2
    exact .calm (.push [_, _, _] (by simp [Frame.isControl]) rfl rfl rfl rfl rfl) fun _ hx _ =>
      .tail _ (.tail _ (.tail _ hx))
  | driveControl =>
    simp only [step, Option.ite_none_right_eq_some] at hs
    cases hs.2
    exact .driven hs.1.1 rfl
  | run =>
    simp only [step] at hs
    split at hs
    case h_1 task queue hstack _ =>
      cases hs
      refine hnil hstack ?_
      cases task with
      | setRetry enabled => exact .push [] (by simp) rfl rfl rfl rfl rfl
      | connect r g => exact .push [_] (by simp [Frame.isControl]) rfl rfl rfl rfl rfl
      | disconnect g => exact .push [_] (by simp [Frame.isControl]) rfl rfl rfl rfl rfl
      | stop g => exact .push [_] (by simp [Frame.isControl]) rfl rfl rfl rfl rfl
    case h_2 => cases hs
  | writable channel probe =>
    simp only [step, Option.ite_none_right_eq_some] at hs
    cases hs.2
    exact hnil hs.1.1 (drive_calm _ _)
  | error channel =>
    simp only [step, Option.ite_none_right_eq_some] at hs
    cases hs.2
    exact hnil hs.1.1 (drive_calm _ _)
  | fire timer =>
    simp only [step, Option.ite_none_right_eq_some] at hs
    cases hs.2
    exact hnil hs.1.1 (drive_calm _ _)
  | resume answer =>
    simp only [step] at hs
    split at hs
    case h_1 => cases hs
    case h_2 frame rest hstack =>
      cases hs
      exact .resume h hstack answer

theorem step_notified {lab : Label} (h : Inv s) (hnotified : Notified s)
    (hs : step s lab = some s') : Notified s' := by
  cases step_moved h hs with
  | calm hcalm hstack => exact hcalm.notified hnotified fun hmem => hstack _ hmem rfl
  | admitted op hlab hadmitted => exact hadmitted.notified hnotified
  | posted op hs =>
    subst hs
    exact fun _ => .inl rfl
  | driven hnil hs =>
    subst hs
    exact fun _ => .inr (.head _)
  | taken op rest hstack hpending hs =>
    subst hs
    exact fun hne => absurd rfl hne
  | returned rest hstack hpending hs =>
    subst hs
    exact fun hne => absurd hpending hne
  | performed op rest hstack s₁ hadmitted hs =>
    subst hs
    -- The node is not being driven, so it is marked.
    intro hne
    have hne : s.pendingOperation ≠ none := hadmitted.pendingOperation ▸ hne
    refine .inl (hadmitted.dirty.trans ((hnotified hne).resolve_right fun hmem => ?_))
    cases h.eq_top_of_control hstack hmem rfl

theorem step_inOrder {lab : Label} (h : Inv s) (horder : InOrder s) (hc : Ordered s lab)
    (hs : step s lab = some s') : InOrder s' := by
  cases step_moved h hs with
  | calm hcalm hstack => exact hcalm.inOrder horder fun op hmem => hstack _ hmem rfl
  | admitted op hlab hadmitted =>
    refine hadmitted.inOrder fun hne => ?_
    rcases hlab with rfl | rfl | hop
    · exact hc hne
    · exact hc hne
    · exact absurd hop hne
  | posted op hs =>
    subst hs
    refine ⟨fun he heq => ?_, nofun, nofun⟩
    cases heq
    rcases he with he | he <;> cases he
  | driven hnil hs =>
    subst hs
    refine ⟨horder.pending, fun _ _ hmem => ?_, fun he hnone _ => ?_⟩
    · rcases List.mem_singleton.mp hmem
    · refine horder.done he hnone fun op hmem => ?_
      rw [hnil] at hmem
      cases hmem
  | taken op rest hstack hpending hs =>
    subst hs
    refine ⟨nofun, fun he _ hmem => ?_, fun _ _ hno => absurd (.head _) (hno op)⟩
    rcases List.mem_cons.mp hmem with heq | hmem
    · cases heq
      exact horder.pending he hpending
    · cases h.eq_top_of_control hstack (by rw [hstack]; exact .tail _ hmem) rfl
  | returned rest hstack hpending hs =>
    subst hs
    have hno : ∀ op, .control op ∉ s.stack := by
      intro op hmem
      cases h.eq_top_of_control hstack hmem rfl
    refine ⟨horder.pending, fun _ _ hmem => ?_, fun he _ _ => horder.done he hpending hno⟩
    exact hno .connect (by rw [hstack]; exact .tail _ hmem)
  | performed op rest hstack s₁ hadmitted hs =>
    subst hs
    have hpending : s₁.pendingOperation = s.pendingOperation := hadmitted.pendingOperation
    have hrest : ∀ op, .control op ∉ s₁.stack := by
      intro op' hmem
      have hmem : .control op' ∈ rest := (hadmitted.stack _ rfl).mp hmem
      have hresting := h.rest_resting hstack _ hmem
      cases hresting
    refine ⟨fun he => ?_, fun _ _ => hrest .connect, fun he hnone _ => ?_⟩
    · show s₁.pendingOperation ≠ _
      rw [hpending]
      exact horder.pending he
    · have hnone : s.pendingOperation = none := hpending ▸ hnone
      have hop : op ≠ .connect := by
        rintro rfl
        exact horder.taken he hnone (by rw [hstack]; exact .head _)
      rcases hadmitted.outcome with ⟨hlatest, -⟩ | ⟨hconnect, -⟩
      · show s₁.latest = _ ∨ s₁.latest = _
        rw [hlatest]
        cases op with
        | connect => exact absurd rfl hop
        | disconnect => exact .inl rfl
        | stop => exact .inr rfl
      · exact absurd hconnect hop

theorem reach_notified {C : State → Label → Prop} (h : Reach Init step C s) : Notified s := by
  refine Reach.invariant_with (P := Notified) (fun h => reach_inv h) (fun s hi => ?_)
    (fun _ _ _ hinv hn _ hs => step_notified hinv hn hs) h
  obtain ⟨retry, connectTimeout, rfl⟩ := hi
  exact fun hne => absurd rfl hne

theorem reach_inOrder (h : Reach Init step Ordered s) : InOrder s := by
  refine Reach.invariant_with (P := InOrder) (fun h => reach_inv h) (fun s hi => ?_)
    (fun _ _ _ hinv ho hc hs => step_inOrder hinv ho hc hs) h
  obtain ⟨retry, connectTimeout, rfl⟩ := hi
  exact ⟨nofun, nofun, by rintro (he | he) <;> cases he⟩

/-! ## A client at rest -/

namespace State

/-- No code runs on the owner thread, no functor is queued and the lifecycle node is not marked. -/
def Settled (s : State) : Prop := s.stack = [] ∧ s.queue = [] ∧ s.dirty = false

/-- The client holds a connection that has not ended, or its connector tries to get one for the
    active request. -/
def Serves (s : State) : Prop :=
  (∃ conn, s.connection = some conn ∧ conn.state ≠ .disconnected) ∨
    s.connectorRequestId = s.activeConnectRequestId ∧
      (s.connector.state = .connecting ∨ s.connector.awaitsRetry)

/-- The connector neither connects nor waits to retry. -/
def Rests (s : State) : Prop := s.connector.state ≠ .connecting ∧ ¬s.connector.awaitsRetry

instance (s : State) : Decidable s.Settled := inferInstanceAs (Decidable (_ ∧ _))

instance (s : State) : Decidable s.Rests :=
  inferInstanceAs (Decidable (_ ∧ ¬∃ t ∈ s.connector.timers,
    t.kind = .retry ∧ t.generation = s.connector.requestGeneration))

end State

theorem Inv.serves (h : Inv s) (hsettled : s.Settled) (hne : s.activeConnectRequestId ≠ 0) :
    s.Serves := by
  obtain ⟨hstack, hqueue, -⟩ := hsettled
  have hduties := h.duties_of_resting (by rw [hstack]; exact nofun)
  rcases hduties.served hne with hq | ⟨hsome, -⟩ | ⟨heq, hcarried⟩ | hfalse
  · rw [State.Queued, hqueue] at hq
    cases hq
  · obtain ⟨conn, hconn⟩ := Option.ne_none_iff_exists'.mp hsome
    refine .inl ⟨conn, hconn, fun hstate => ?_⟩
    obtain ⟨id, hid⟩ := h.ended conn hconn hstate
    rw [hstack] at hid
    cases hid
  · rw [State.Carries, hstack] at hcarried
    rcases hcarried with ⟨hchannel | hretry | ⟨f, hf, -⟩⟩
    · exact .inr ⟨heq, .inl (h.good.channels.connecting.mpr hchannel)⟩
    · exact .inr ⟨heq, .inr hretry⟩
    · cases hf
  · exact hfalse.elim

theorem Inv.rests (h : Inv s) (hsettled : s.Settled) (hhalted : s.Halted) : s.Rests := by
  obtain ⟨hstack, hqueue, -⟩ := hsettled
  have hduties := h.duties_of_resting (by rw [hstack]; exact nofun)
  obtain ⟨-, (hq | hq) | ⟨-, hnot⟩ | hfalse⟩ := hduties.halted hhalted
  · rw [hqueue] at hq
    cases hq
  · rw [hqueue] at hq
    cases hq
  · exact ⟨fun hstate => hnot ⟨.inl (h.good.channels.connecting.mp hstate)⟩,
      fun hretry => hnot ⟨.inr (.inl hretry)⟩⟩
  · exact hfalse.elim

/-- At rest, an active request is served in every run. After a stop or a disconnect the connector is at
    rest too: in every run if it has the latest generation, and in an ordered one if it was accepted
    last. -/
theorem client_serves_requests (h : Reach Init step Any s) (hsettled : s.Settled) :
    (s.activeConnectRequestId ≠ 0 → s.Serves) ∧
      (s.latest = some .stop ∨ s.latest = some .disconnect → s.Rests) ∧
      (Reach Init step Ordered s →
        s.accepted = some .stop ∨ s.accepted = some .disconnect → s.Rests) := by
  have hinv := reach_inv h
  refine ⟨hinv.serves hsettled, fun hlatest => hinv.rests hsettled hlatest.symm,
    fun hordered haccepted => ?_⟩
  have horder := reach_inOrder hordered
  have hrests := hinv.rests hsettled
  obtain ⟨hstack, -, hdirty⟩ := hsettled
  have hnone : s.pendingOperation = none := by
    by_contra hne
    rcases reach_notified h hne with hmarked | hmem
    · rw [hdirty] at hmarked
      cases hmarked
    · rw [hstack] at hmem
      cases hmem
  refine hrests (horder.done haccepted.symm hnone fun op hmem => ?_)
  rw [hstack] at hmem
  cases hmem

end

/-- A connect and then a stop through `TcpClientControl`, and a disconnect of the facade while the stop
    is in the mailbox. -/
theorem client_serves_requests_stopped :
    ∃ s : State, s.accepted = some .disconnect ∧ s.nextOperationGeneration = 4 ∧ s.Rests := by
  obtain ⟨s, hreach, hsettled, haccepted, hnext⟩ := Reach.of_run Init step Ordered
    (fun s => s.Settled ∧ s.accepted = some .disconnect ∧ s.nextOperationGeneration = 4)
    { connector := { retryEnabled := true, connectTimeout := true }, retry := true } ⟨true, true, rfl⟩
    ([.control .connect, .driveControl] ++ List.replicate 5 (.resume {}) ++ [.control .stop,
      .call .disconnect, .resume {}, .resume {}, .driveControl] ++ List.replicate 4 (.resume {}))
    (by decide +kernel)
  have hany := hreach.weaken (D := Any) fun _ _ _ => trivial
  exact ⟨s, haccepted, hnext, (client_serves_requests hany hsettled).2.2 hreach (.inr haccepted)⟩

/-- A connect through `TcpClientControl` is accepted, then a stop of the facade, which runs at once. The
    connect is taken from the mailbox after that, and the client at rest is connecting. -/
theorem stop_undone_by_earlier_connect :
    ∃ s : State, Reach Init step Any s ∧ s.Settled ∧ s.accepted = some .stop ∧
      s.connector.state = .connecting := by
  exact Reach.of_run Init step Any
    (fun s => s.Settled ∧ s.accepted = some .stop ∧ s.connector.state = .connecting)
    { connector := { retryEnabled := true, connectTimeout := true }, retry := true } ⟨true, true, rfl⟩
    ([.control .connect, .call .stop, .resume {}, .resume {}, .driveControl] ++
      List.replicate 5 (.resume {}))
    (by decide +kernel)

end GameNet.TcpClient
