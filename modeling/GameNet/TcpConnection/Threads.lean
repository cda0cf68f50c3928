import GameNet.Stacks
import GameNet.TcpConnection.Model

/- What one step does to the threads of a connection: one of them replaces the operations
   on the top of its stack, together with a change of the connection. Every invariant of
   the connection is proved from the three lemmas here (`step_move`, `Move.ops`,
   `exec_cases`). -/
namespace GameNet.TcpConnection

/-- The operations of all threads. -/
def State.ops (s : State) : List Op := s.owner ++ s.remotes.flatten

/-- A thread turns `olds` into `news` and the connection `c` into `c'`; `n` counts the payloads
    named so far. -/
inductive Act (o : Options) : Caller → Nat → Conn → List Op → Nat → Conn → List Op → Prop
  | exec {caller : Caller} {n : Nat} {c c' : Conn} {op : Op} {env : Env} {news : List Op}
      (h : exec o c caller op env = some (c', news)) : Act o caller n c [op] n c' news
  | call (caller : Caller) (n : Nat) (c : Conn) (k : Call) :
      Act o caller n c [] (n + 1) c (k.ops n)
  | destroy (n : Nat) (c : Conn) : Act o .owner n c [] n c [.destroy]
  | start {n : Nat} {c c' : Conn} {e : Event} {news : List Op}
      (h : c.start e = some (c', news)) : Act o .owner n c [] n c' news
  | ret (n : Nat) (c : Conn) (source : CallbackSource) (threw : Bool) :
      Act o .owner n c [.user source] n c (source.next threw)
  | retrieve (n : Nat) (c : Conn) (k : Nat) :
      Act o .owner n c [] n { c with input := c.input.retrieve k } []
  | quit (n : Nat) (c : Conn) : Act o .owner n c [] n { c with running := false } []

/-- Which thread a step belongs to. The owner starts something new only where user code runs. -/
inductive Move (o : Options) (s s' : State) : Prop
  | owner (olds news rest : List Op)
      (act : Act o .owner s.sends s.conn olds s'.sends s'.conn news)
      (old : s.owner = olds ++ rest) (new : s'.owner = news ++ rest)
      (remotes : s'.remotes = s.remotes)
      (push : olds = [] → news = [] ∨ userRuns rest)
  | remote (olds news R : List Op)
      (act : Act o .remote s.sends s.conn olds s'.sends s'.conn news)
      (old : s.remotes.flatten.Perm (olds ++ R)) (new : s'.remotes.flatten.Perm (news ++ R))
      (owner : s'.owner = s.owner)

/-- What a step takes from the top of the owner's stack. -/
def State.popped (s : State) : Label → List Op
  | .own _ | .ret _ => s.owner.take 1
  | _ => []

/-- What it puts there. -/
def State.pushed (o : Options) (s : State) : Label → List Op
  | .event e => ((s.conn.start e).map Prod.snd).getD []
  | .own env =>
    match s.owner with
    | op :: _ => ((exec o s.conn .owner op env).map Prod.snd).getD []
    | [] => []
  | .ownCall c => c.ops s.sends
  | .ownDestroy => [.destroy]
  | .ret threw =>
    match s.owner with
    | .user source :: _ => source.next threw
    | _ => []
  | _ => []

/-- A step with its label: the owner turns what it pops into what it pushes, or leaves its stack
    to another thread's step. -/
inductive MoveBy (o : Options) (s : State) (l : Label) (s' : State) : Prop
  | owner (rest : List Op)
      (act : Act o .owner s.sends s.conn (s.popped l) s'.sends s'.conn (s.pushed o l))
      (old : s.owner = s.popped l ++ rest) (new : s'.owner = s.pushed o l ++ rest)
      (remotes : s'.remotes = s.remotes)
      (push : s.popped l = [] → s.pushed o l = [] ∨ userRuns rest)
  | remote (olds news R : List Op)
      (act : Act o .remote s.sends s.conn olds s'.sends s'.conn news)
      (old : s.remotes.flatten.Perm (olds ++ R)) (new : s'.remotes.flatten.Perm (news ++ R))
      (owner : s'.owner = s.owner) (popped : s.popped l = []) (pushed : s.pushed o l = [])

theorem step_moveBy {o : Options} {s s' : State} {l : Label} (h : step o s l = some s') :
    MoveBy o s l s' := by
  cases l with
  | call c =>
    obtain rfl : _ = s' := Option.some.inj h
    refine .remote [] (c.ops s.sends) s.remotes.flatten (.call _ _ _ c) (.refl _) ?_ rfl rfl rfl
    simpa using List.perm_append_comm
  | remote i env =>
    simp only [step] at h
    split at h
    case h_2 => cases h
    case h_1 op rest hi =>
      obtain ⟨r, hr, rfl⟩ := Option.map_eq_some_iff.mp h
      have hi' : s.remotes[i]? = some ([op] ++ rest) := hi
      obtain ⟨R, hold, hnew⟩ := Stacks.flatten_set hi' r.2
      exact .remote [op] r.2 R (.exec hr) hold hnew rfl rfl rfl
  | event e =>
    simp only [step] at h
    split at h
    case isFalse => cases h
    case isTrue hidle =>
      obtain ⟨r, hr, rfl⟩ := Option.map_eq_some_iff.mp h
      have hpushed : s.pushed o (.event e) = r.2 := by simp [State.pushed, hr]
      exact .owner [] (by rw [hpushed]; exact .start hr) hidle (by simp [hpushed]) rfl
        (fun _ => .inr rfl)
  | own env =>
    simp only [step] at h
    split at h
    case h_2 => cases h
    case h_1 op rest hop =>
      obtain ⟨r, hr, rfl⟩ := Option.map_eq_some_iff.mp h
      have hpopped : s.popped (.own env) = [op] := by simp [State.popped, hop]
      have hpushed : s.pushed o (.own env) = r.2 := by simp [State.pushed, hop, hr]
      refine .owner rest (by rw [hpopped, hpushed]; exact .exec hr) (by rw [hpopped]; exact hop)
        (by rw [hpushed]) rfl ?_
      rw [hpopped]
      exact fun h => by cases h
  | ownCall c =>
    simp only [step] at h
    split at h
    case isFalse => cases h
    case isTrue huser =>
      obtain rfl : _ = s' := Option.some.inj h
      exact .owner s.owner (.call _ _ _ c) rfl rfl rfl (fun _ => .inr huser)
  | ownDestroy =>
    simp only [step] at h
    split at h
    case isFalse => cases h
    case isTrue huser =>
      obtain rfl : _ = s' := Option.some.inj h
      exact .owner s.owner (.destroy _ _) rfl rfl rfl (fun _ => .inr huser)
  | retrieve n =>
    simp only [step] at h
    split at h
    case h_2 => cases h
    case h_1 =>
      obtain rfl : _ = s' := Option.some.inj h
      exact .owner s.owner (.retrieve _ _ n) rfl rfl rfl (fun _ => .inl rfl)
  | ret threw =>
    simp only [step] at h
    split at h
    case h_2 => cases h
    case h_1 source rest hop =>
      obtain rfl : _ = s' := Option.some.inj h
      have hpopped : s.popped (.ret threw) = [.user source] := by simp [State.popped, hop]
      have hpushed : s.pushed o (.ret threw) = source.next threw := by simp [State.pushed, hop]
      refine .owner rest (by rw [hpopped, hpushed]; exact .ret _ _ source threw)
        (by rw [hpopped]; exact hop) (by rw [hpushed]) rfl ?_
      rw [hpopped]
      exact fun h => by cases h
  | quit =>
    obtain rfl : _ = s' := Option.some.inj h
    exact .owner s.owner (.quit _ _) rfl rfl rfl (fun _ => .inl rfl)

theorem step_move {o : Options} {s s' : State} {l : Label} (h : step o s l = some s') :
    Move o s s' := by
  cases step_moveBy h with
  | owner rest act old new remotes push => exact .owner _ _ rest act old new remotes push
  | remote olds news R act old new owner _ _ => exact .remote olds news R act old new owner

/-- The operations of all threads, with those of the other threads rearranged. -/
theorem ops_remote {s s' : State} {ops R : List Op} (howner : s'.owner = s.owner)
    (hremotes : s'.remotes.flatten.Perm (ops ++ R)) : s'.ops.Perm (ops ++ (s.owner ++ R)) := by
  rw [State.ops, howner]
  exact (hremotes.append_left _).trans (List.perm_append_comm_assoc _ _ _)

/-- Over all threads together, a step replaces `olds` by `news`. -/
theorem Move.ops {o : Options} {s s' : State} (h : Move o s s') :
    ∃ caller olds news R, Act o caller s.sends s.conn olds s'.sends s'.conn news ∧
      s.ops.Perm (olds ++ R) ∧ s'.ops.Perm (news ++ R) := by
  cases h with
  | owner olds news rest act old new remotes _ =>
    refine ⟨.owner, olds, news, rest ++ s.remotes.flatten, act, ?_, ?_⟩
    · simp [State.ops, old]
    · simp [State.ops, new, remotes]
  | remote olds news R act old new owner =>
    exact ⟨.remote, olds, news, s.owner ++ R, act, ops_remote rfl old, ops_remote owner new⟩

/-- The four groups of operations. -/
theorem exec_cases {o : Options} {c : Conn} {caller : Caller} {op : Op} {env : Env}
    {r : Conn × List Op} (h : exec o c caller op env = some r) :
    execSend o c caller op env = some r ∨ execOutput o c op env = some r ∨
      execRequest c caller op env = some r ∨ execOwner o c op env = some r := by
  unfold exec at h
  cases hsend : execSend o c caller op env with
  | some r' => exact .inl (by rw [hsend] at h; exact h)
  | none =>
    rw [hsend] at h
    cases hout : execOutput o c op env with
    | some r' => exact .inr (.inl (by rw [hout] at h; exact h))
    | none =>
      rw [hout] at h
      cases hreq : execRequest c caller op env with
      | some r' => exact .inr (.inr (.inl (by rw [hreq] at h; exact h)))
      | none => exact .inr (.inr (.inr (by rw [hreq] at h; exact h)))

inductive Group where
  | send
  | output
  | request
  | owner
  deriving DecidableEq, Repr

def Op.group : Op → Group
  | .sendCheckSealed _ | .sendCheckGraceful _ | .sendCheckForce _ | .sendCheckConnected _
  | .reserveLoad _ | .reserveOverload _ _ | .reserveClear _ | .reserveCas _ _
  | .reserveBudgets _ | .sendDispatch _ | .setOverloaded | .retSend _ _ => .send
  | .sendFunctor _ | .sendReserved _ | .bufferRest _ | .queueWriteComplete | .queueHighWaterMark
  | .release _ | .clearOverloaded | .handleWrite _ | .writeDone => .output
  | .closeCheck _ | .closeSeal _ | .closePublish _ _ | .closeFlag _ _ | .signalLifecycle _
  | .retClose _ _ | .signal | .driveForce | .forceClose | .clearForce | .driveGraceful
  | .driveState | .shutdownInLoop | .shutdownLoad | .shutdownWrite | .clearGraceful => .request
  | _ => .owner

section
variable {o : Options} {c : Conn} {caller : Caller} {op : Op} {env : Env} {r : Conn × List Op}

theorem execSend_group (h : execSend o c caller op env = some r) : op.group = .send := by
  revert h
  fun_cases execSend o c caller op env
  all_goals first | exact fun _ => rfl | exact fun h => nomatch h

theorem execOutput_group (h : execOutput o c op env = some r) : op.group = .output := by
  revert h
  fun_cases execOutput o c op env
  all_goals first | exact fun _ => rfl | exact fun h => nomatch h

theorem execRequest_group (h : execRequest c caller op env = some r) : op.group = .request := by
  revert h
  fun_cases execRequest c caller op env
  all_goals first | exact fun _ => rfl | exact fun h => nomatch h

theorem execOwner_group (h : execOwner o c op env = some r) : op.group = .owner := by
  revert h
  fun_cases execOwner o c op env
  all_goals first | exact fun _ => rfl | exact fun h => nomatch h

/-- An operation is executed by the function of its group. -/
theorem exec_group (h : exec o c caller op env = some r) :
    (match op.group with
      | .send => execSend o c caller op env
      | .output => execOutput o c op env
      | .request => execRequest c caller op env
      | .owner => execOwner o c op env) = some r := by
  rcases exec_cases h with h | h | h | h
  · rw [execSend_group h]
    exact h
  · rw [execOutput_group h]
    exact h
  · rw [execRequest_group h]
    exact h
  · rw [execOwner_group h]
    exact h

end

end GameNet.TcpConnection
