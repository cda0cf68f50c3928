import GameNet.Machine
import GameNet.SessionManager.Model

/- The indexes, the idle deadlines and the bindings of SessionManager stay coherent over every
   sequence of calls, also of calls from inside `requestClose`. `Core` is the coherence of the two
   indexes with the session objects, and `expected` the token that each transport must have in the
   deadline queue, or among the entries that an expiration has taken from it and not come to.
   Every call changes one session object and the places where it is indexed; `Core.change` says
   what such a change must respect. -/
namespace GameNet.SessionManager

open DeadlineQueue (Token Entry Queue Tokens)
open Function (update update_self update_of_ne)
open Machine (Reach Any)

/-! ## The indexes -/

structure Core (c : Config) (s : Manager) : Prop where
  named : ∀ i x, s.sessions i = some x → x.sessionId = i
  player : ∀ p i, s.byPlayer.lookup p = some i → ∃ x, s.sessions i = some x ∧ x.playerId = p
  transport : ∀ t i, s.byTransport.lookup t = some i →
    ∃ x, s.sessions i = some x ∧ c.transportId x.endpoint = t
  /-- The two indexes hold the same sessions. -/
  same : ∀ i x, s.sessions i = some x →
    (s.byPlayer.lookup x.playerId = some i ↔ s.byTransport.lookup (c.transportId x.endpoint) = some i)
  online : ∀ i x, s.sessions i = some x → s.byPlayer.lookup x.playerId = some i →
    x.state = .online ∧ x.currentGeneration = x.generation
  gone : ∀ i x, s.sessions i = some x → s.byPlayer.lookup x.playerId ≠ some i →
    x.state = .offline ∧ x.currentGeneration = 0
  fresh : ∀ i x, s.sessions i = some x →
    i < s.nextSessionId ∧ 0 < x.generation ∧ x.generation < s.nextBindingGeneration
  positive : 0 < s.nextBindingGeneration

/-- What a changed session must respect. -/
structure Changed (c : Config) (s s' : Manager) (x : PlayerSession) : Prop where
  sessions : s'.sessions = update s.sessions x.sessionId (some x)
  byPlayer : ∀ p i, i ≠ x.sessionId →
    (s'.byPlayer.lookup p = some i ↔ s.byPlayer.lookup p = some i)
  byTransport : ∀ t i, i ≠ x.sessionId →
    (s'.byTransport.lookup t = some i ↔ s.byTransport.lookup t = some i)
  player : ∀ p, s'.byPlayer.lookup p = some x.sessionId → x.playerId = p
  transport : ∀ t, s'.byTransport.lookup t = some x.sessionId → c.transportId x.endpoint = t
  same : s'.byPlayer.lookup x.playerId = some x.sessionId ↔
    s'.byTransport.lookup (c.transportId x.endpoint) = some x.sessionId
  online : s'.byPlayer.lookup x.playerId = some x.sessionId →
    x.state = .online ∧ x.currentGeneration = x.generation
  gone : s'.byPlayer.lookup x.playerId ≠ some x.sessionId →
    x.state = .offline ∧ x.currentGeneration = 0
  fresh : x.sessionId < s'.nextSessionId ∧ 0 < x.generation ∧
    x.generation < s'.nextBindingGeneration
  nextSessionId : s.nextSessionId ≤ s'.nextSessionId
  nextBindingGeneration : s.nextBindingGeneration ≤ s'.nextBindingGeneration

section
variable {c : Config} {s s' : Manager} {x : PlayerSession}

theorem Core.change (h : Core c s) (hc : Changed c s s' x) : Core c s' := by
  -- a session is the changed one or as it was
  have hcases (i : Nat) (y : PlayerSession) (hy : s'.sessions i = some y) :
      i = x.sessionId ∧ y = x ∨ i ≠ x.sessionId ∧ s.sessions i = some y := by
    rw [hc.sessions] at hy
    by_cases hi : i = x.sessionId
    · rw [hi, update_self] at hy
      exact .inl ⟨hi, (Option.some.inj hy).symm⟩
    · rw [update_of_ne hi] at hy
      exact .inr ⟨hi, hy⟩
  have hself : s'.sessions x.sessionId = some x := by rw [hc.sessions, update_self]
  have hother (i : Nat) (hi : i ≠ x.sessionId) : s'.sessions i = s.sessions i := by
    rw [hc.sessions, update_of_ne hi]
  refine ⟨fun i y hy => ?_, fun p i hp => ?_, fun t i ht => ?_, fun i y hy => ?_,
    fun i y hy hp => ?_, fun i y hy hp => ?_, fun i y hy => ?_, ?_⟩
  · rcases hcases i y hy with ⟨rfl, rfl⟩ | ⟨-, hy⟩
    · rfl
    · exact h.named i y hy
  · by_cases hi : i = x.sessionId
    · subst hi
      exact ⟨x, hself, hc.player p hp⟩
    · rw [hother i hi]
      exact h.player p i ((hc.byPlayer p i hi).mp hp)
  · by_cases hi : i = x.sessionId
    · subst hi
      exact ⟨x, hself, hc.transport t ht⟩
    · rw [hother i hi]
      exact h.transport t i ((hc.byTransport t i hi).mp ht)
  · rcases hcases i y hy with ⟨rfl, rfl⟩ | ⟨hi, hy⟩
    · exact hc.same
    · rw [hc.byPlayer _ i hi, hc.byTransport _ i hi]
      exact h.same i y hy
  · rcases hcases i y hy with ⟨rfl, rfl⟩ | ⟨hi, hy⟩
    · exact hc.online hp
    · exact h.online i y hy ((hc.byPlayer _ i hi).mp hp)
  · rcases hcases i y hy with ⟨rfl, rfl⟩ | ⟨hi, hy⟩
    · exact hc.gone hp
    · exact h.gone i y hy fun hin => hp ((hc.byPlayer _ i hi).mpr hin)
  · have := hc.nextSessionId
    have := hc.nextBindingGeneration
    rcases hcases i y hy with ⟨rfl, rfl⟩ | ⟨-, hy⟩
    · exact hc.fresh
    · have := h.fresh i y hy
      omega
  · exact h.positive.trans_le hc.nextBindingGeneration

/-- An indexed session is under one transport. -/
theorem Core.transport_unique (h : Core c s) {i t : Nat} (hx : s.sessions i = some x)
    (ht : s.byTransport.lookup t = some i) : t = c.transportId x.endpoint := by
  obtain ⟨y, hy, hty⟩ := h.transport t i ht
  rw [hx] at hy
  rw [Option.some.inj hy, hty]

variable {p : String}

theorem Core.player_unique (h : Core c s) {i : Nat} (hx : s.sessions i = some x)
    (hp : s.byPlayer.lookup p = some i) : p = x.playerId := by
  obtain ⟨y, hy, hpy⟩ := h.player p i hp
  rw [hx] at hy
  rw [Option.some.inj hy, hpy]

/-- The object `x` is an indexed session. -/
def Live (c : Config) (s : Manager) (x : PlayerSession) : Prop :=
  s.sessions x.sessionId = some x ∧
    s.byTransport.lookup (c.transportId x.endpoint) = some x.sessionId

theorem Core.live_of_find {t : Nat} (h : Core c s) (hfind : s.findMutableByTransport t = some x) :
    Live c s x ∧ c.transportId x.endpoint = t := by
  obtain ⟨i, hi, hx⟩ := Option.bind_eq_some_iff.mp hfind
  have hid := h.named i x hx
  have ht := h.transport_unique hx hi
  subst hid
  exact ⟨⟨hx, ht ▸ hi⟩, ht.symm⟩

theorem Core.live_of_player (h : Core c s) {i : Nat}
    (hp : s.byPlayer.lookup p = some i) (hx : s.sessions i = some x) :
    Live c s x ∧ x.sessionId = i ∧ x.playerId = p := by
  have hid := h.named i x hx
  have hpx := h.player_unique hx hp
  subst hid hpx
  exact ⟨⟨hx, (h.same _ x hx).mp hp⟩, rfl, rfl⟩

/-- What an indexed session is. -/
theorem Core.live (h : Core c s) (hx : Live c s x) :
    s.byPlayer.lookup x.playerId = some x.sessionId ∧ x.state = .online ∧
      x.currentGeneration = x.generation := by
  have hp := (h.same _ x hx.1).mpr hx.2
  exact ⟨hp, h.online _ x hx.1 hp⟩

/-- No index has the name of the next session. -/
theorem Core.unnamed (h : Core c s) :
    (∀ p, s.byPlayer.lookup p ≠ some s.nextSessionId) ∧
      ∀ t, s.byTransport.lookup t ≠ some s.nextSessionId := by
  have hnew (x : PlayerSession) : s.sessions s.nextSessionId ≠ some x := fun hx =>
    absurd (h.fresh _ x hx).1 (lt_irrefl _)
  refine ⟨fun p hl => ?_, fun t hl => ?_⟩
  · obtain ⟨x, hx, -⟩ := h.player p _ hl
    exact hnew x hx
  · obtain ⟨x, hx, -⟩ := h.transport t _ hl
    exact hnew x hx

/-! ## Changes of one session -/

section
variable {α : Type} [DecidableEq α] {l : AList fun _ : α => Nat} {k k' : α} {i j : Nat}

theorem lookup_insert_other (hk : l.lookup k = none) (hi : i ≠ j) :
    (l.insert k j).lookup k' = some i ↔ l.lookup k' = some i := by
  by_cases hk' : k' = k
  · rw [hk', AList.lookup_insert, hk]
    exact ⟨fun heq => absurd (Option.some.inj heq).symm hi, nofun⟩
  · rw [AList.lookup_insert_ne hk']

theorem lookup_insert_own (hj : ∀ k, l.lookup k ≠ some j)
    (h : (l.insert k j).lookup k' = some j) : k = k' := by
  by_contra hk
  rw [AList.lookup_insert_ne (Ne.symm hk)] at h
  exact hj k' h

theorem lookup_erase_other (hk : l.lookup k = some j) (hi : i ≠ j) :
    (l.erase k).lookup k' = some i ↔ l.lookup k' = some i := by
  by_cases hk' : k' = k
  · rw [hk', AList.lookup_erase, hk]
    exact ⟨nofun, fun heq => absurd (Option.some.inj heq).symm hi⟩
  · rw [AList.lookup_erase_ne hk']

theorem lookup_erase_own (hj : ∀ k', l.lookup k' = some j → k' = k) :
    (l.erase k).lookup k' ≠ some j := fun hl => by
  by_cases hk : k' = k
  · rw [hk, AList.lookup_erase] at hl
    cases hl
  · rw [AList.lookup_erase_ne hk] at hl
    exact hk (hj k' hl)

end

variable {now : Int} {endpoint : Nat} {q : Queue} {token : Token}

/-- An indexed session is renewed on its endpoint. -/
theorem Core.renewed (h : Core c s) (hlive : Live c s x) (q : Queue) (token : Token) (now : Int)
    {n g : Nat} (hn : s.nextBindingGeneration ≤ n) (hgen : 0 < g ∧ g < n) :
    Changed c s
      (Manager.put { s with nextBindingGeneration := n, idleDeadlines := q }
        { x.refreshBinding g now with idleDeadline := token })
      { x.refreshBinding g now with idleDeadline := token } where
  sessions := rfl
  byPlayer _ _ _ := .rfl
  byTransport _ _ _ := .rfl
  player _ hl := (h.player_unique hlive.1 hl).symm
  transport _ hl := (h.transport_unique hlive.1 hl).symm
  same := iff_of_true (h.live hlive).1 hlive.2
  online _ := ⟨rfl, rfl⟩
  gone hne := absurd (h.live hlive).1 hne
  fresh := ⟨(h.fresh _ x hlive.1).1, hgen⟩
  nextSessionId := le_rfl
  nextBindingGeneration := hn

/-- `markOnline` of the session that `createSession` makes. -/
def newSession (s : Manager) (p : String) (endpoint : Nat) (now : Int) : PlayerSession :=
  PlayerSession.markOnline
    { sessionId := s.nextSessionId, playerId := p, endpoint := endpoint, lastActivity := now,
      generation := s.nextBindingGeneration } now

/-- A player without a session gets one on a free transport. -/
theorem Core.created (h : Core c s) (hp : s.byPlayer.lookup p = none)
    (ht : s.byTransport.lookup (c.transportId endpoint) = none) :
    Changed c s
      (Manager.put { s with
        nextSessionId := s.nextSessionId + 1
        nextBindingGeneration := s.nextBindingGeneration + 1
        idleDeadlines := q
        byTransport := s.byTransport.insert (c.transportId endpoint) s.nextSessionId
        byPlayer := s.byPlayer.insert p s.nextSessionId }
        { newSession s p endpoint now with idleDeadline := token })
      { newSession s p endpoint now with idleDeadline := token } where
  sessions := rfl
  byPlayer _ _ hi := lookup_insert_other hp hi
  byTransport _ _ hi := lookup_insert_other ht hi
  player _ hl := lookup_insert_own h.unnamed.1 hl
  transport _ hl := lookup_insert_own h.unnamed.2 hl
  same := iff_of_true (AList.lookup_insert _) (AList.lookup_insert _)
  online _ := ⟨rfl, rfl⟩
  gone hne := absurd (AList.lookup_insert _) hne
  fresh := ⟨Nat.lt_succ_self _, h.positive, Nat.lt_succ_self _⟩
  nextSessionId := Nat.le_succ _
  nextBindingGeneration := Nat.le_succ _

/-- No index has an indexed session any more. -/
theorem Core.lookup_erase (h : Core c s) (hlive : Live c s x) :
    (∀ p, (s.byPlayer.erase x.playerId).lookup p ≠ some x.sessionId) ∧
      ∀ t, (s.byTransport.erase (c.transportId x.endpoint)).lookup t ≠ some x.sessionId :=
  ⟨fun _ => lookup_erase_own fun _ hl => h.player_unique hlive.1 hl,
    fun _ => lookup_erase_own fun _ hl => h.transport_unique hlive.1 hl⟩

/-- An indexed session is taken out of the indexes. -/
theorem Core.erased (h : Core c s) (hlive : Live c s x) :
    Changed c s
      (Manager.put { s with
        idleDeadlines := q
        byTransport := s.byTransport.erase (c.transportId x.endpoint)
        byPlayer := s.byPlayer.erase x.playerId }
        (PlayerSession.markOffline { x with idleDeadline := {} }))
      (PlayerSession.markOffline { x with idleDeadline := {} }) where
  sessions := rfl
  byPlayer _ _ hi := lookup_erase_other (h.live hlive).1 hi
  byTransport _ _ hi := lookup_erase_other hlive.2 hi
  player p hl := absurd hl ((h.lookup_erase hlive).1 p)
  transport t hl := absurd hl ((h.lookup_erase hlive).2 t)
  same := iff_of_false ((h.lookup_erase hlive).1 _) ((h.lookup_erase hlive).2 _)
  online hl := absurd hl ((h.lookup_erase hlive).1 _)
  gone _ := ⟨rfl, rfl⟩
  fresh := h.fresh _ x hlive.1
  nextSessionId := le_rfl
  nextBindingGeneration := le_rfl

/-- An indexed session moves to another endpoint on a free transport. -/
theorem Core.rebound (h : Core c s) (hlive : Live c s x)
    (ht : s.byTransport.lookup (c.transportId endpoint) = none) :
    Changed c s
      (Manager.closeEndpoint (Manager.put { s with
        idleDeadlines := q
        nextBindingGeneration := s.nextBindingGeneration + 1
        byTransport := (s.byTransport.erase (c.transportId x.endpoint)).insert
          (c.transportId endpoint) x.sessionId }
        { x.rebind endpoint s.nextBindingGeneration now with idleDeadline := token })
        x.endpoint .replaced)
      { x.rebind endpoint s.nextBindingGeneration now with idleDeadline := token } := by
  have hfree : (s.byTransport.erase (c.transportId x.endpoint)).lookup (c.transportId endpoint) =
      none := by
    rw [AList.lookup_erase_ne, ht]
    intro heq
    rw [heq, hlive.2] at ht
    cases ht
  exact {
    sessions := rfl
    byPlayer := fun _ _ _ => .rfl
    byTransport := fun _ _ hi =>
      (lookup_insert_other hfree hi).trans (lookup_erase_other hlive.2 hi)
    player := fun _ hl => (h.player_unique hlive.1 hl).symm
    transport := fun _ hl => lookup_insert_own (h.lookup_erase hlive).2 hl
    same := iff_of_true (h.live hlive).1 (AList.lookup_insert _)
    online := fun _ => ⟨rfl, rfl⟩
    gone := fun hne => absurd (h.live hlive).1 hne
    fresh := ⟨(h.fresh _ x hlive.1).1, h.positive, Nat.lt_succ_self _⟩
    nextSessionId := le_rfl
    nextBindingGeneration := Nat.le_succ _ }

/-! ## The idle deadlines -/

/-- The token that a transport must have. -/
def expected (s : Manager) (t : Nat) : Option Token :=
  (s.findMutableByTransport t).map PlayerSession.idleDeadline

variable {t : Nat}

theorem expected_of {i : Nat} (ht : s.byTransport.lookup t = some i)
    (hx : s.sessions i = some x) : expected s t = some x.idleDeadline := by
  rw [expected, Manager.findMutableByTransport, ht, Option.bind_some, hx]
  rfl

theorem expected_none (ht : s.byTransport.lookup t = none) : expected s t = none := by
  rw [expected, Manager.findMutableByTransport, ht]
  rfl

/-- Only the tokens of the changed session change. -/
theorem Changed.expected (hc : Changed c s s' x) (t : Nat) :
    expected s' t =
      if s'.byTransport.lookup t = some x.sessionId then some x.idleDeadline
      else if s.byTransport.lookup t = some x.sessionId then none else expected s t := by
  split_ifs with hin hwas
  · exact expected_of hin (by rw [hc.sessions, update_self])
  · refine expected_none (Option.eq_none_iff_forall_ne_some.mpr fun i hi => hin ?_)
    by_contra hne
    have hne : i ≠ x.sessionId := fun heq => hne (heq ▸ hi)
    rw [(hc.byTransport t i hne).mp hi] at hwas
    exact hne (Option.some.inj hwas)
  · have hsame : s'.byTransport.lookup t = s.byTransport.lookup t := by
      ext i
      by_cases hi : i = x.sessionId
      · rw [hi]
        exact iff_of_false hin hwas
      · exact hc.byTransport t i hi
    cases hl : s.byTransport.lookup t with
    | none => rw [expected_none hl, expected_none (hsame.trans hl)]
    | some i =>
      have hi : i ≠ x.sessionId := fun heq => hwas (heq ▸ hl)
      rw [SessionManager.expected, SessionManager.expected, Manager.findMutableByTransport,
        Manager.findMutableByTransport, hsame, hl, Option.bind_some, Option.bind_some,
        hc.sessions, update_of_ne hi]

/-- Coherence with the tokens that expirations have taken. -/
structure Sound (c : Config) (taken : List Token) (s : Manager) : Prop where
  core : Core c s
  idle : Tokens c.idle s.idleDeadlines taken (SessionManager.expected s)

variable {taken : List Token} {tok : Nat → Option Token}

theorem Sound.closeEndpoint (h : Sound c taken s) (endpoint : Nat) (reason : CloseReason) :
    Sound c taken (s.closeEndpoint endpoint reason) := ⟨{ h.core with }, h.idle⟩

/-- The changed session is indexed; the others have the tokens `tok`. -/
theorem Sound.change_in (h : Core c s) (hc : Changed c s s' x)
    (hin : s'.byTransport.lookup (c.transportId x.endpoint) = some x.sessionId)
    (htok : ∀ t, t ≠ c.transportId x.endpoint →
      tok t = if s.byTransport.lookup t = some x.sessionId then none else expected s t)
    (hidle : Tokens c.idle s'.idleDeadlines taken
      (update tok (c.transportId x.endpoint) (some x.idleDeadline))) :
    Sound c taken s' := by
  have hexpected : expected s' = update tok (c.transportId x.endpoint) (some x.idleDeadline) := by
    funext t
    rw [hc.expected]
    by_cases ht : t = c.transportId x.endpoint
    · rw [ht, if_pos hin, update_self]
    · rw [if_neg fun hl => ht (hc.transport t hl).symm, update_of_ne ht, htok t ht]
  exact ⟨h.change hc, hexpected ▸ hidle⟩

/-- The changed session is not indexed. -/
theorem Sound.change_out (h : Core c s) (hc : Changed c s s' x)
    (hout : ∀ t, s'.byTransport.lookup t ≠ some x.sessionId)
    (htok : ∀ t, tok t = if s.byTransport.lookup t = some x.sessionId then none else expected s t)
    (hidle : Tokens c.idle s'.idleDeadlines taken tok) : Sound c taken s' := by
  have hexpected : expected s' = tok := by
    funext t
    rw [hc.expected, if_neg (hout t), htok]
  exact ⟨h.change hc, hexpected ▸ hidle⟩

theorem Core.expected_without (h : Core c s) (hlive : Live c s x) (t : Nat) :
    update (expected s) (c.transportId x.endpoint) none t =
      if s.byTransport.lookup t = some x.sessionId then none else expected s t := by
  by_cases ht : t = c.transportId x.endpoint
  · rw [ht, update_self, if_pos hlive.2]
  · rw [update_of_ne ht, if_neg fun hl => ht (h.transport_unique hlive.1 hl)]

/-- What scheduling the deadline of a session does. -/
theorem scheduleIdle_spec {deadline : Int} (h : s.scheduleIdle c x deadline = some s') :
    ∃ q token, s' = Manager.put { s with idleDeadlines := q } { x with idleDeadline := token } ∧
      ∀ taken tok, Tokens c.idle s.idleDeadlines taken tok → token ∉ taken ∧
        Tokens c.idle q taken (update tok (c.transportId x.endpoint) (some token)) := by
  unfold Manager.scheduleIdle at h
  split at h
  case h_1 q token hcall =>
    cases h
    exact ⟨q, token, rfl, fun _ _ htok => htok.schedule hcall⟩
  case h_2 => cases h

/-- An indexed session has its token, which can be cancelled. -/
theorem Sound.cancel (h : Sound c taken s) (hlive : Live c s x) :
    ∃ q b, DeadlineQueue.cancel s.idleDeadlines x.idleDeadline = .ok (q, b) ∧
      Tokens c.idle q taken (update (expected s) (c.transportId x.endpoint) none) := by
  have hin := expected_of hlive.2 hlive.1
  have hkey := h.idle.keyed _ _ hin
  obtain ⟨q, b, hcall, hidle⟩ := h.idle.cancel (t := x.idleDeadline) (hkey ▸ hin)
  exact ⟨q, b, hcall, hkey ▸ hidle⟩

theorem Sound.renew (h : Sound c taken s) (hlive : Live c s x) {n g : Nat} {deadline : Int}
    (hn : s.nextBindingGeneration ≤ n) (hgen : 0 < g ∧ g < n)
    (hcall : Manager.scheduleIdle c { s with nextBindingGeneration := n }
      (x.refreshBinding g now) deadline = some s') :
    Sound c taken s' ∧ ∃ token ∉ taken, expected s' (c.transportId x.endpoint) = some token ∧
      s'.sessions = update s.sessions x.sessionId
        (some { x.refreshBinding g now with idleDeadline := token }) := by
  obtain ⟨q, token, rfl, hspec⟩ := scheduleIdle_spec hcall
  obtain ⟨hfresh, hidle⟩ := hspec taken _ h.idle
  have hchanged := h.core.renewed hlive q token now hn hgen
  refine ⟨.change_in h.core hchanged hlive.2 (fun t ht => ?_) hidle, token, hfresh,
    (hchanged.expected _).trans (if_pos hlive.2), rfl⟩
  exact (if_neg fun hl => ht (h.core.transport_unique (x := x) hlive.1 hl)).symm

variable {r : AuthenticateResult}

theorem Sound.createSession (h : Sound c taken s) (hp : s.byPlayer.lookup p = none)
    (ht : s.byTransport.lookup (c.transportId endpoint) = none)
    (hcall : s.createSession c p endpoint now = some (s', r)) :
    Sound c taken s' ∧ r.status = .created ∧
      ∃ x, s'.sessions = update s.sessions s.nextSessionId (some x) := by
  obtain ⟨s₁, hschedule, heq⟩ := Option.map_eq_some_iff.mp hcall
  cases heq
  obtain ⟨q, token, rfl, hspec⟩ := scheduleIdle_spec hschedule
  exact ⟨.change_in h.core (h.core.created hp ht) (AList.lookup_insert _)
    (fun t _ => (if_neg (h.core.unnamed.2 t)).symm) (hspec taken _ h.idle).2, rfl, _, rfl⟩

theorem Sound.eraseSession (h : Sound c taken s) (hlive : Live c s x)
    (hcall : s.eraseSession c x = some s') :
    Sound c taken s' ∧ expected s' (c.transportId x.endpoint) = none ∧
      s'.sessions = update s.sessions x.sessionId
        (some (PlayerSession.markOffline { x with idleDeadline := {} })) := by
  obtain ⟨q, b, hcancel, hidle⟩ := h.cancel hlive
  unfold Manager.eraseSession at hcall
  simp only [hcancel, if_pos (h.core.live hlive).1] at hcall
  cases hcall
  exact ⟨.change_out h.core (h.core.erased hlive) (h.core.lookup_erase hlive).2
    (h.core.expected_without (x := x) hlive) hidle, expected_none (AList.lookup_erase _ _), rfl⟩

theorem Sound.rebindSession (h : Sound c taken s) (hlive : Live c s x)
    (ht : s.byTransport.lookup (c.transportId endpoint) = none)
    (hcall : s.rebindSession c x endpoint now = some (s', r)) :
    Sound c taken s' ∧ r.status = .rebound ∧ r.session = some x.sessionId ∧
      ∃ x', s'.sessions = update s.sessions x.sessionId (some x') ∧
        x'.generation = s.nextBindingGeneration ∧ x'.currentGeneration = x'.generation := by
  obtain ⟨q, b, hcancel, hidle⟩ := h.cancel hlive
  unfold Manager.rebindSession at hcall
  simp only [hcancel] at hcall
  obtain ⟨s₁, hschedule, heq⟩ := Option.map_eq_some_iff.mp hcall
  cases heq
  obtain ⟨q, token, rfl, hspec⟩ := scheduleIdle_spec hschedule
  exact ⟨.change_in h.core (h.core.rebound hlive ht) (AList.lookup_insert _)
    (fun t _ => h.core.expected_without hlive t) (hspec taken _ hidle).2, rfl, rfl, _, rfl, rfl,
    rfl⟩

/-! ## What a call does to the generations -/

/-- Every generation is kept, and a session is at most marked offline. -/
def Kept (s s' : Manager) : Prop :=
  ∀ i x, s.sessions i = some x → ∃ x', s'.sessions i = some x' ∧ x'.generation = x.generation ∧
    (x'.currentGeneration = x.currentGeneration ∨ x'.currentGeneration = 0)

/-- The session `i` gets a new generation. -/
def Renewed (s s' : Manager) (i : Nat) : Prop :=
  ∃ x', s'.sessions = update s.sessions i (some x') ∧
    x'.generation = s.nextBindingGeneration ∧ x'.currentGeneration = x'.generation

theorem Kept.refl (s : Manager) : Kept s s := fun _ x hx => ⟨x, hx, rfl, .inl rfl⟩

theorem Kept.update {x₀ x' : PlayerSession} {i : Nat} (hx₀ : s.sessions i = some x₀)
    (hs : s'.sessions = update s.sessions i (some x'))
    (hgen : x'.generation = x₀.generation)
    (hcur : x'.currentGeneration = x₀.currentGeneration ∨ x'.currentGeneration = 0) :
    Kept s s' := by
  intro j x hx
  by_cases hj : j = i
  · subst hj
    rw [hx₀] at hx
    cases hx
    exact ⟨x', by rw [hs, update_self], hgen, hcur⟩
  · exact ⟨x, by rw [hs, update_of_ne hj]; exact hx, rfl, .inl rfl⟩

/-! ## Authentication -/

theorem Core.free_or_same (h : Core c s)
    (hother : s.otherBinding c p endpoint = none) :
    s.byTransport.lookup (c.transportId endpoint) = none ∨
      ∃ x, Live c s x ∧ x.playerId = p ∧ x.endpoint = endpoint := by
  cases hl : s.byTransport.lookup (c.transportId endpoint) with
  | none => exact .inl rfl
  | some i =>
    obtain ⟨x, hx, -⟩ := h.transport _ i hl
    have hfind : s.findMutableByTransport (c.transportId endpoint) = some x := by
      rw [Manager.findMutableByTransport, hl, Option.bind_some, hx]
    rw [Manager.otherBinding, hfind, Option.filter_eq_none_iff] at hother
    have hsame := hother x rfl
    simp only [decide_not, Bool.not_eq_true', decide_eq_false_iff_not, not_not] at hsame
    exact .inr ⟨x, (h.live_of_find hfind).1, hsame⟩

/-- What `authenticate` can do. -/
inductive Authenticates (c : Config) (s : Manager) (p : String) (now : Int) :
    Manager → AuthenticateResult → Prop where
  | rejected {s' : Manager} {r : AuthenticateResult} :
      s' = s ∨ (∃ endpoint, s' = s.closeEndpoint endpoint .protocolError) →
      r.status = .rejected → Authenticates c s p now s' r
  | created {s' : Manager} {r : AuthenticateResult} {endpoint : Nat} :
      s.byPlayer.lookup p = none → s.byTransport.lookup (c.transportId endpoint) = none →
      s.createSession c p endpoint now = some (s', r) → Authenticates c s p now s' r
  | existing {s' : Manager} {x : PlayerSession} : Live c s x →
      Manager.scheduleIdle c { s with nextBindingGeneration := s.nextBindingGeneration + 1 }
        (x.refreshBinding s.nextBindingGeneration now) (now + c.idleTimeout) = some s' →
      Authenticates c s p now s'
        { status := .existing, session := some x.sessionId, dispatch := .accepted }
  | rebound {s' : Manager} {r : AuthenticateResult} {x : PlayerSession} {endpoint : Nat} :
      Live c s x → s.byTransport.lookup (c.transportId endpoint) = none →
      s.rebindSession c x endpoint now = some (s', r) → Authenticates c s p now s' r

theorem Core.authenticate (h : Core c s) {endpoint : Option Nat}
    (hcall : s.authenticate c p endpoint now = some (s', r)) :
    Authenticates c s p now s' r := by
  unfold Manager.authenticate at hcall
  split at hcall
  · cases hcall
    exact .rejected (.inl rfl) rfl
  split at hcall
  · cases hcall
    exact .rejected (.inl rfl) rfl
  rename_i endpoint
  split at hcall
  · cases hcall
    exact .rejected (.inl rfl) rfl
  split at hcall
  · cases hcall
    refine .rejected ?_ rfl
    split
    · exact .inr ⟨endpoint, rfl⟩
    · exact .inl rfl
  rename_i hother
  have hfree := h.free_or_same hother
  split at hcall
  case h_1 hp =>
    -- a player without a session
    refine .created hp (hfree.resolve_right ?_) hcall
    rintro ⟨x, hlive, rfl, -⟩
    rw [(h.live hlive).1] at hp
    cases hp
  case h_2 i hp =>
    obtain ⟨x, hx, hcall⟩ := Option.bind_eq_some_iff.mp hcall
    obtain ⟨hlive, rfl, hplayer⟩ := h.live_of_player hp hx
    split at hcall
    · -- the same endpoint
      obtain ⟨s₁, hschedule, heq⟩ := Option.map_eq_some_iff.mp hcall
      cases heq
      exact .existing hlive hschedule
    · rename_i hmoved
      split at hcall
      · cases hcall
        exact .rejected (.inl rfl) rfl
      · -- another endpoint
        refine .rebound hlive (hfree.resolve_right ?_) hcall
        rintro ⟨y, hy, hyp, rfl⟩
        have hids := (h.live hy).1
        rw [hyp, hp] at hids
        have hxy : some x = some y := by
          rw [← hx, ← hy.1, Option.some.inj hids]
        exact hmoved (by rw [Option.some.inj hxy])

theorem Sound.authenticate (h : Sound c taken s) {endpoint : Option Nat}
    (hcall : s.authenticate c p endpoint now = some (s', r)) :
    Sound c taken s' ∧ (r.status ≠ .existing ∧ r.status ≠ .rebound ∧ Kept s s' ∨
      (r.status = .existing ∨ r.status = .rebound) ∧ ∃ i, r.session = some i ∧ Renewed s s' i) := by
  cases h.core.authenticate hcall with
  | rejected hs hstatus =>
    rw [hstatus]
    rcases hs with rfl | ⟨e, rfl⟩
    · exact ⟨h, .inl ⟨nofun, nofun, Kept.refl _⟩⟩
    · exact ⟨h.closeEndpoint _ _, .inl ⟨nofun, nofun, Kept.refl s⟩⟩
  | created hp ht hcreate =>
    obtain ⟨hsound, hstatus, x, hsessions⟩ := h.createSession hp ht hcreate
    rw [hstatus]
    refine ⟨hsound, .inl ⟨nofun, nofun, fun i y hy => ?_⟩⟩
    have hi : i ≠ s.nextSessionId := (h.core.fresh i y hy).1.ne
    exact ⟨y, by rw [hsessions, update_of_ne hi]; exact hy, rfl, .inl rfl⟩
  | @existing x hlive hschedule =>
    obtain ⟨hsound, token, -, -, hsessions⟩ :=
      h.renew hlive (Nat.le_succ _) ⟨h.core.positive, Nat.lt_succ_self _⟩ hschedule
    exact ⟨hsound, .inr ⟨.inl rfl, x.sessionId, rfl, _, hsessions, rfl, rfl⟩⟩
  | @rebound _ x _ hlive ht hrebind =>
    obtain ⟨hsound, hstatus, hsession, hrenewed⟩ := h.rebindSession hlive ht hrebind
    exact ⟨hsound, .inr ⟨.inr hstatus, x.sessionId, hsession, hrenewed⟩⟩

/-! ## The other calls -/

/-- An indexed session goes offline. -/
theorem Sound.erase (h : Sound c taken s) (hlive : Live c s x)
    (hcall : s.eraseSession c x = some s') :
    Sound c taken s' ∧ Kept s s' ∧ expected s' (c.transportId x.endpoint) = none := by
  obtain ⟨hsound, hnone, hsessions⟩ := h.eraseSession hlive hcall
  exact ⟨hsound, Kept.update hlive.1 hsessions rfl (.inr rfl), hnone⟩

/-- A session keeps its generation when its deadline is scheduled anew. -/
theorem Sound.reschedule (h : Sound c taken s) (hlive : Live c s x) {deadline : Int}
    (hcall : s.scheduleIdle c (x.heartbeat now) deadline = some s') :
    Sound c taken s' ∧ Kept s s' ∧
      ∃ token ∉ taken, expected s' (c.transportId x.endpoint) = some token := by
  obtain ⟨-, hstate, hcur⟩ := h.core.live hlive
  have hsame : x.heartbeat now = x.refreshBinding x.generation now := by
    simp only [PlayerSession.heartbeat, PlayerSession.refreshBinding, PlayerSession.markOnline,
      ← hstate, ← hcur]
  rw [hsame] at hcall
  obtain ⟨hsound, token, hfresh, hnew, hsessions⟩ :=
    h.renew hlive le_rfl (h.core.fresh _ x hlive.1).2 hcall
  exact ⟨hsound, Kept.update hlive.1 hsessions rfl (.inl hcur.symm), token, hfresh, hnew⟩

theorem Sound.offline (h : Sound c taken s) {b : Bool}
    (hcall : s.offline c t = some (s', b)) : Sound c taken s' ∧ Kept s s' := by
  unfold Manager.offline at hcall
  split at hcall
  · cases hcall
    exact ⟨h, Kept.refl s⟩
  split at hcall
  · cases hcall
    exact ⟨h, Kept.refl s⟩
  rename_i x hfind
  split at hcall
  · cases hcall
    exact ⟨h, Kept.refl s⟩
  obtain ⟨s₁, herase, heq⟩ := Option.map_eq_some_iff.mp hcall
  cases heq
  obtain ⟨hsound, hkept, -⟩ := h.erase (h.core.live_of_find hfind).1 herase
  exact ⟨hsound, hkept⟩

theorem Sound.heartbeat (h : Sound c taken s) {b : Bool}
    (hcall : s.heartbeat c t now = some (s', b)) : Sound c taken s' ∧ Kept s s' := by
  unfold Manager.heartbeat at hcall
  split at hcall
  · cases hcall
    exact ⟨h, Kept.refl s⟩
  split at hcall
  · cases hcall
    exact ⟨h, Kept.refl s⟩
  rename_i x hfind
  split at hcall
  · cases hcall
    exact ⟨h, Kept.refl s⟩
  obtain ⟨s₁, hschedule, heq⟩ := Option.map_eq_some_iff.mp hcall
  cases heq
  obtain ⟨hsound, hkept, -⟩ := h.reschedule (h.core.live_of_find hfind).1 hschedule
  exact ⟨hsound, hkept⟩

/-- The tokens that a batch has taken and not come to. -/
def Batch.tokens (b : Batch) : List Token := b.ready.map Entry.token

theorem Sound.expireIdleBatch (h : Sound c taken s) {earlier : Option Nat} {b : Batch}
    (hcall : s.expireIdleBatch c now earlier = some (s', b)) :
    Sound c (b.tokens ++ taken) s' ∧ Kept s s' := by
  unfold Manager.expireIdleBatch at hcall
  split at hcall
  · cases hcall
    exact ⟨h, Kept.refl s⟩
  obtain ⟨q, ready, hadvance, htokens⟩ := h.idle.advance now
  simp only [hadvance] at hcall
  cases hcall
  exact ⟨⟨{ h.core with }, htokens⟩, Kept.refl s⟩

/-- The loop comes to an entry: the token is that of a session, or the entry is left alone. -/
theorem Sound.expireEntry {e : Entry} (h : Sound c (e.token :: taken) s) {closed : Bool}
    (hcall : s.expireEntry c now e = some (s', closed)) : Sound c taken s' ∧ Kept s s' := by
  -- in every case no session has the token afterwards
  have hcome (s' : Manager) (h' : Sound c (e.token :: taken) s')
      (hne : expected s' e.token.key ≠ some e.token) : Sound c taken s' :=
    ⟨h'.core, h'.idle.come hne⟩
  unfold Manager.expireEntry at hcall
  split at hcall
  case h_1 hfind =>
    cases hcall
    refine ⟨hcome _ h ?_, Kept.refl _⟩
    rw [expected, hfind]
    exact nofun
  case h_2 x hfind =>
    obtain ⟨hlive, hkey⟩ := h.core.live_of_find hfind
    split at hcall
    case isTrue hother =>
      cases hcall
      refine ⟨hcome _ h ?_, Kept.refl _⟩
      rw [expected, hfind]
      exact fun heq => hother (Option.some.inj heq)
    case isFalse =>
      split at hcall
      · obtain ⟨s₁, hschedule, heq⟩ := Option.map_eq_some_iff.mp hcall
        cases heq
        replace hschedule : s.scheduleIdle c (x.heartbeat x.lastActivity) _ = _ := hschedule
        obtain ⟨hsound, hkept, token, hfresh, hnew⟩ := h.reschedule hlive hschedule
        refine ⟨hcome _ hsound ?_, hkept⟩
        rw [← hkey, hnew]
        exact fun heq => hfresh (Option.some.inj heq ▸ .head _)
      · obtain ⟨s₁, herase, heq⟩ := Option.map_eq_some_iff.mp hcall
        cases heq
        obtain ⟨hsound, hkept, hnone⟩ := h.erase hlive herase
        refine ⟨(hcome _ hsound ?_).closeEndpoint _ _, hkept⟩
        rw [← hkey, hnone]
        exact nofun

theorem Sound.expireNext {b : Batch} {b' : Option Batch}
    (h : Sound c (b.tokens ++ taken) s) (hcall : s.expireNext c b = some (s', b')) :
    Sound c (b'.toList.flatMap Batch.tokens ++ taken) s' ∧ Kept s s' := by
  unfold Manager.expireNext at hcall
  split at hcall
  case h_1 e ready hready =>
    obtain ⟨⟨s₁, closed⟩, hentry, heq⟩ := Option.map_eq_some_iff.mp hcall
    cases heq
    rw [Batch.tokens, hready] at h
    have hnext := Sound.expireEntry h hentry
    simpa [Batch.tokens] using hnext
  case h_2 hready =>
    have hdone : Sound c taken s := by simpa [Batch.tokens, hready] using h
    split at hcall
    · cases hcall
      exact ⟨hdone, Kept.refl _⟩
    split at hcall
    · obtain ⟨⟨s₁, b₁⟩, hbatch, heq⟩ := Option.map_eq_some_iff.mp hcall
      cases heq
      have hnext := hdone.expireIdleBatch hbatch
      simpa using hnext
    · cases hcall
      exact ⟨hdone, Kept.refl _⟩

theorem markAllOffline_apply (sessions : Nat → Option PlayerSession)
    (entries : List (Sigma fun _ : String => Nat)) (i : Nat) :
    Manager.markAllOffline sessions entries i =
      if ∃ e ∈ entries, e.2 = i then (sessions i).map PlayerSession.markOffline
      else sessions i := by
  induction entries generalizing sessions with
  | nil => simp [Manager.markAllOffline]
  | cons e entries ih =>
    obtain ⟨p, j⟩ := e
    rw [Manager.markAllOffline, ih]
    by_cases hi : i = j
    · -- marking twice is marking once
      subst hi
      cases sessions i <;> simp [PlayerSession.markOffline]
    · rw [update_of_ne hi]
      refine if_congr ⟨fun ⟨e, he, heq⟩ => ⟨e, .tail _ he, heq⟩, fun ⟨e, he, heq⟩ => ?_⟩ rfl rfl
      rcases List.mem_cons.mp he with rfl | he
      · exact absurd heq.symm hi
      · exact ⟨e, he, heq⟩

theorem Sound.shutdown (h : Sound c taken s) : Sound c taken s.shutdown ∧ Kept s s.shutdown := by
  unfold Manager.shutdown
  split
  · exact ⟨h, Kept.refl s⟩
  -- a session was indexed and is marked now, or was not indexed
  have hcases (i : Nat) (y : PlayerSession)
      (hy : Manager.markAllOffline s.sessions s.byPlayer.entries i = some y) :
      ∃ x, s.sessions i = some x ∧ (y = x.markOffline ∨
        y = x ∧ s.byPlayer.lookup x.playerId ≠ some i) := by
    rw [markAllOffline_apply] at hy
    split at hy
    · obtain ⟨x, hx, rfl⟩ := Option.map_eq_some_iff.mp hy
      exact ⟨x, hx, .inl rfl⟩
    · rename_i hnone
      exact ⟨y, hy, .inr ⟨rfl, fun hl => hnone ⟨_, AList.mem_lookup_iff.mp hl, rfl⟩⟩⟩
  refine ⟨⟨⟨fun i y hy => ?_, nofun, nofun, fun _ _ _ => ⟨nofun, nofun⟩, nofun,
    fun i y hy _ => ?_, fun i y hy => ?_, h.core.positive⟩, ?_⟩, fun i x hx => ?_⟩
  · obtain ⟨x, hx, rfl | ⟨rfl, -⟩⟩ := hcases i y hy
    · exact h.core.named i x hx
    · exact h.core.named i _ hx
  · obtain ⟨x, hx, rfl | ⟨rfl, hgone⟩⟩ := hcases i y hy
    · exact ⟨rfl, rfl⟩
    · exact h.core.gone i _ hx hgone
  · obtain ⟨x, hx, rfl | ⟨rfl, -⟩⟩ := hcases i y hy
    · exact h.core.fresh i x hx
    · exact h.core.fresh i _ hx
  · exact h.idle.clear
  · show ∃ x', Manager.markAllOffline s.sessions s.byPlayer.entries i = some x' ∧ _
    rw [markAllOffline_apply, hx]
    split
    · exact ⟨_, rfl, rfl, .inr rfl⟩
    · exact ⟨_, rfl, rfl, .inl rfl⟩

end

/-! ## Runs

The bindings that were handed out are kept, each with a mark that a later authentication has
rebound or refreshed its session. -/

structure Handed where
  binding : SessionBinding
  superseded : Bool := false

structure State where
  manager : Manager := {}
  /-- The expirations that are in their loops, the innermost first. -/
  batches : List Batch := []
  handed : List Handed := []

/-- A call is made from outside or from inside `closeEndpoint`. -/
def State.callable (s : State) : Bool := s.batches.head?.all Batch.closing

/-- The tokens that expirations have taken from the queue and not come to. -/
def State.taken (s : State) : List Token := s.batches.flatMap Batch.tokens

inductive Call where
  | authenticate (playerId : String) (endpoint : Option Nat) (now : Int)
  | offline (transportId : Nat)
  | heartbeat (transportId : Nat) (now : Int)
  | expireIdle (now : Int)
  | expireIdleBatch (now : Int)
  | shutdown
  /-- A binding is taken from a session object that someone holds. -/
  | binding (sessionId : Nat)

inductive Label where
  | call (l : Call)
  /-- The innermost expiration goes on. -/
  | expire

def supersede (sessionId : Nat) (handed : List Handed) : List Handed :=
  handed.map fun h => if h.binding.sessionId = sessionId then { h with superseded := true } else h

/-- An authentication that found a session has refreshed or rebound it. -/
def noteAuthentication (r : AuthenticateResult) (handed : List Handed) : List Handed :=
  if r.status = .existing ∨ r.status = .rebound then
    r.session.elim handed fun sessionId => supersede sessionId handed
  else handed

def State.call (c : Config) (s : State) : Call → Option State
  | .authenticate playerId endpoint now =>
    (s.manager.authenticate c playerId endpoint now).map fun (m, r) =>
      { s with manager := m, handed := noteAuthentication r s.handed }
  | .offline transportId =>
    (s.manager.offline c transportId).map fun (m, _) => { s with manager := m }
  | .heartbeat transportId now =>
    (s.manager.heartbeat c transportId now).map fun (m, _) => { s with manager := m }
  | .expireIdle now =>
    (s.manager.expireIdle c now).map fun (m, b) =>
      { s with manager := m, batches := b :: s.batches }
  | .expireIdleBatch now =>
    (s.manager.expireIdleBatch c now none).map fun (m, b) =>
      { s with manager := m, batches := b :: s.batches }
  | .shutdown => some { s with manager := s.manager.shutdown }
  | .binding sessionId =>
    (s.manager.binding c sessionId).map fun b => { s with handed := ⟨b, false⟩ :: s.handed }

def step (c : Config) (s : State) : Label → Option State
  | .call l => if s.callable then s.call c l else none
  | .expire =>
    match s.batches with
    | [] => none
    | b :: outer =>
      (s.manager.expireNext c b).map fun (m, b) =>
        { s with manager := m, batches := b.toList ++ outer }

/-- A handed-out binding has the generation of its session unless it was superseded. -/
def Handed.Ok (m : Manager) (h : Handed) : Prop :=
  ∃ x, m.sessions h.binding.sessionId = some x ∧ 0 < h.binding.generation ∧
    h.binding.generation ≤ x.generation ∧
    (h.superseded = false ↔ h.binding.generation = x.generation)

structure Inv (c : Config) (s : State) : Prop where
  sound : Sound c s.taken s.manager
  handed : ∀ h ∈ s.handed, h.Ok s.manager

section
variable {c : Config} {s s' : State} {m m' : Manager}

theorem Handed.Ok.kept {h : Handed} (hok : h.Ok m) (hkept : Kept m m') : h.Ok m' := by
  obtain ⟨x, hx, hpos, hle, hiff⟩ := hok
  obtain ⟨x', hx', hgen, -⟩ := hkept _ x hx
  exact ⟨x', hx', hpos, hgen ▸ hle, hgen ▸ hiff⟩

theorem Handed.Ok.renewed {h : Handed} {i : Nat} (hcore : Core c m) (hok : h.Ok m)
    (hrenewed : Renewed m m' i) :
    Handed.Ok m' (if h.binding.sessionId = i then { h with superseded := true } else h) := by
  obtain ⟨x, hx, hpos, hle, hiff⟩ := hok
  obtain ⟨x', hsessions, hgen, -⟩ := hrenewed
  have hfresh := hcore.fresh _ x hx
  split
  · rename_i hi
    refine ⟨x', by rw [hsessions, ← hi, update_self], hpos, ?_, ⟨nofun, fun heq => ?_⟩⟩
    · show h.binding.generation ≤ x'.generation
      omega
    · replace heq : h.binding.generation = x'.generation := heq
      omega
  · rename_i hi
    exact ⟨x, by rw [hsessions, update_of_ne hi]; exact hx, hpos, hle, hiff⟩

/-- What a call does to the generations. -/
def Moves (m m' : Manager) : Prop := Kept m m' ∨ ∃ i, Renewed m m' i

theorem Inv.authenticate (hi : Inv c s) {p : String} {endpoint : Option Nat} {now : Int}
    (h : s.call c (.authenticate p endpoint now) = some s') :
    Inv c s' ∧ Moves s.manager s'.manager := by
  obtain ⟨⟨m, r⟩, hcall, heq⟩ := Option.map_eq_some_iff.mp h
  cases heq
  show Inv c { s with manager := m, handed := noteAuthentication r s.handed } ∧ Moves s.manager m
  obtain ⟨hsound, ⟨hexisting, hrebound, hkept⟩ | ⟨hstatus, i, hsession, hrenewed⟩⟩ :=
    hi.sound.authenticate hcall
  · have hnote : noteAuthentication r s.handed = s.handed :=
      if_neg fun hstatus => hstatus.elim hexisting hrebound
    rw [hnote]
    exact ⟨⟨hsound, fun h hh => (hi.handed h hh).kept hkept⟩, .inl hkept⟩
  · have hnote : noteAuthentication r s.handed = supersede i s.handed := by
      rw [noteAuthentication, if_pos hstatus, hsession]
      rfl
    rw [hnote]
    refine ⟨⟨hsound, fun h hh => ?_⟩, .inr ⟨i, hrenewed⟩⟩
    obtain ⟨h₀, hh₀, rfl⟩ := List.mem_map.mp hh
    exact (hi.handed h₀ hh₀).renewed hi.sound.core hrenewed

theorem Inv.move {l : Label} (hi : Inv c s) (h : step c s l = some s') :
    Inv c s' ∧ Moves s.manager s'.manager := by
  -- a step that keeps the generations
  have hquiet {m : Manager} {batches : List Batch}
      (hm : Sound c (batches.flatMap Batch.tokens) m ∧ Kept s.manager m) :
      Inv c { s with manager := m, batches := batches } ∧ Moves s.manager m :=
    ⟨⟨hm.1, fun h hh => (hi.handed h hh).kept hm.2⟩, .inl hm.2⟩
  cases l with
  | expire =>
    simp only [step] at h
    split at h
    case h_1 => cases h
    case h_2 b outer hbatches =>
      obtain ⟨⟨m, b'⟩, hnext, heq⟩ := Option.map_eq_some_iff.mp h
      cases heq
      have hsound := hi.sound
      rw [State.taken, hbatches, List.flatMap_cons] at hsound
      refine hquiet ?_
      rw [List.flatMap_append]
      exact hsound.expireNext hnext
  | call l =>
  replace h := (Option.ite_none_right_eq_some.mp h).2
  cases l with
  | authenticate p endpoint now => exact hi.authenticate h
  | offline t =>
    obtain ⟨⟨m, b⟩, hcall, heq⟩ := Option.map_eq_some_iff.mp h
    cases heq
    exact hquiet (hi.sound.offline hcall)
  | heartbeat t now =>
    obtain ⟨⟨m, b⟩, hcall, heq⟩ := Option.map_eq_some_iff.mp h
    cases heq
    exact hquiet (hi.sound.heartbeat hcall)
  | expireIdle now =>
    obtain ⟨⟨m, b⟩, hcall, heq⟩ := Option.map_eq_some_iff.mp h
    cases heq
    exact hquiet (hi.sound.expireIdleBatch hcall)
  | expireIdleBatch now =>
    obtain ⟨⟨m, b⟩, hcall, heq⟩ := Option.map_eq_some_iff.mp h
    cases heq
    exact hquiet (hi.sound.expireIdleBatch hcall)
  | shutdown =>
    cases h
    exact hquiet hi.sound.shutdown
  | binding i =>
    obtain ⟨b, hb, heq⟩ := Option.map_eq_some_iff.mp h
    cases heq
    obtain ⟨x, hx, rfl⟩ := Option.map_eq_some_iff.mp hb
    refine ⟨⟨hi.sound, fun h hh => ?_⟩, .inl (Kept.refl _)⟩
    rcases List.mem_cons.mp hh with rfl | hh
    · have hid := hi.sound.core.named i x hx
      subst hid
      exact ⟨x, hx, (hi.sound.core.fresh _ x hx).2.1, le_rfl, ⟨fun _ => rfl, fun _ => rfl⟩⟩
    · exact hi.handed h hh

theorem inv_init (c : Config) : Inv c {} :=
  ⟨⟨⟨nofun, nofun, nofun, nofun, nofun, nofun, nofun, Nat.one_pos⟩, DeadlineQueue.tokens_init c.idle⟩,
    nofun⟩

theorem reach_inv (h : Reach (· = {}) (step c) Any s) : Inv c s :=
  Reach.invariant (by rintro s rfl; exact inv_init c) (fun _ _ _ hi _ hs => (hi.move hs).1) h

theorem isCurrent_iff {b : SessionBinding} {x : PlayerSession} (hpos : 0 < b.generation)
    (hx : m.sessions b.sessionId = some x) :
    m.isCurrent b = true ↔ x.currentGeneration = b.generation := by
  rw [Manager.isCurrent, hx, Option.any_some, beq_eq_false_iff_ne.mpr hpos.ne', Bool.false_or,
    beq_iff_eq]

/-- A binding that is not current does not become current. -/
theorem Inv.stale {l : Label} (hi : Inv c s) (h : step c s l = some s') {b : Handed}
    (hb : b ∈ s.handed) (hcur : s'.manager.isCurrent b.binding = true) :
    s.manager.isCurrent b.binding = true := by
  obtain ⟨x, hx, hpos, hle, -⟩ := hi.handed b hb
  rw [isCurrent_iff hpos hx]
  have hfresh := hi.sound.core.fresh _ x hx
  rcases (hi.move h).2 with hkept | ⟨i, x', hsessions, hgen, hsame⟩
  · obtain ⟨x', hx', -, hcases⟩ := hkept _ x hx
    rw [isCurrent_iff hpos hx'] at hcur
    omega
  · by_cases hid : b.binding.sessionId = i
    · -- a new generation is newer than the binding
      have hx' : s'.manager.sessions b.binding.sessionId = some x' := by
        rw [hsessions, hid, update_self]
      rw [isCurrent_iff hpos hx'] at hcur
      omega
    · have hx' : s'.manager.sessions b.binding.sessionId = some x := by
        rw [hsessions, update_of_ne hid]
        exact hx
      rw [isCurrent_iff hpos hx'] at hcur
      exact hcur

/-- The session object is in the index of players. -/
def Indexed (m : Manager) (i : Nat) : Prop := ∃ p, m.byPlayer.lookup p = some i

theorem Core.indexed_iff (h : Core c m) {i : Nat} {x : PlayerSession} (hx : m.sessions i = some x) :
    Indexed m i ↔ m.byPlayer.lookup x.playerId = some i := by
  constructor
  · rintro ⟨p, hp⟩
    rw [← h.player_unique hx hp]
    exact hp
  · exact fun hp => ⟨_, hp⟩

theorem Inv.isCurrent_iff_indexed (hi : Inv c s) {b : Handed} (hb : b ∈ s.handed) :
    s.manager.isCurrent b.binding = true ↔
      Indexed s.manager b.binding.sessionId ∧ b.superseded = false := by
  obtain ⟨x, hx, hpos, -, hiff⟩ := hi.handed b hb
  rw [isCurrent_iff hpos hx, hi.sound.core.indexed_iff hx, hiff]
  by_cases hp : s.manager.byPlayer.lookup x.playerId = some b.binding.sessionId
  · obtain ⟨-, hcur⟩ := hi.sound.core.online _ x hx hp
    rw [hcur]
    exact ⟨fun heq => ⟨hp, heq.symm⟩, fun ⟨_, heq⟩ => heq.symm⟩
  · obtain ⟨-, hcur⟩ := hi.sound.core.gone _ x hx hp
    rw [hcur]
    exact ⟨fun heq => absurd heq hpos.ne, fun ⟨hin, _⟩ => absurd hin hp⟩

/-- Over every sequence of calls, also of calls from inside `requestClose`: the two indexes hold the
    same sessions, each under its own player and the id of its endpoint; the deadline queue has
    exactly one entry for each of them, with the token that the session keeps, unless a running
    expiration has taken that entry and not come to it; a session is online if it is indexed and
    offline if not; and a binding is current exactly as long as its session is indexed and was not
    rebound or refreshed since, never again afterwards. -/
theorem sessions_stay_coherent (c : Config) {s : State}
    (h : Reach (· = {}) (step c) Any s) :
    (∀ p i, s.manager.byPlayer.lookup p = some i → ∃ x, s.manager.sessions i = some x ∧
      x.playerId = p ∧ s.manager.byTransport.lookup (c.transportId x.endpoint) = some i) ∧
    (∀ t i, s.manager.byTransport.lookup t = some i → ∃ x, s.manager.sessions i = some x ∧
      c.transportId x.endpoint = t ∧ s.manager.byPlayer.lookup x.playerId = some i) ∧
    (∀ t i x, s.manager.byTransport.lookup t = some i → s.manager.sessions i = some x →
      (∃ b ∈ s.batches, x.idleDeadline ∈ b.tokens) ∨
      ∃! e, e ∈ Buckets.flat s.manager.idleDeadlines.buckets ∧ e.token = x.idleDeadline ∧
        e.token.key = t) ∧
    (∀ e ∈ Buckets.flat s.manager.idleDeadlines.buckets, ∃ i x,
      s.manager.byTransport.lookup e.token.key = some i ∧ s.manager.sessions i = some x ∧
        x.idleDeadline = e.token) ∧
    (∀ i x, s.manager.sessions i = some x →
      (Indexed s.manager i → x.state = .online) ∧ (¬ Indexed s.manager i → x.state = .offline)) ∧
    (∀ b ∈ s.handed, s.manager.isCurrent b.binding = true ↔
      Indexed s.manager b.binding.sessionId ∧ b.superseded = false) ∧
    (∀ l s', step c s l = some s' → ∀ b ∈ s.handed, s'.manager.isCurrent b.binding = true →
      s.manager.isCurrent b.binding = true) := by
  have hi := reach_inv h
  have hcore := hi.sound.core
  have hidle := hi.sound.idle
  refine ⟨fun p i hp => ?_, fun t i ht => ?_, fun t i x ht hx => ?_, fun e he => ?_,
    fun i x hx => ⟨fun hin => ?_, fun hout => ?_⟩, fun b hb => hi.isCurrent_iff_indexed hb,
    fun l s' hstep b hb => hi.stale hstep hb⟩
  · obtain ⟨x, hx, rfl⟩ := hcore.player p i hp
    exact ⟨x, hx, rfl, (hcore.same i x hx).mp hp⟩
  · obtain ⟨x, hx, rfl⟩ := hcore.transport t i ht
    exact ⟨x, hx, rfl, (hcore.same i x hx).mpr ht⟩
  · refine or_iff_not_imp_left.mpr fun hnot => ?_
    have hrest : x.idleDeadline ∉ s.taken := fun hin => hnot (List.mem_flatMap.mp hin)
    obtain ⟨e, he, htoken, hkey⟩ := hidle.entry.mp ⟨expected_of ht hx, hrest⟩
    refine ⟨e, ⟨he, htoken, htoken ▸ hkey⟩, fun e' ⟨he', _, hkey'⟩ => hidle.unique he' he ?_⟩
    rw [hkey', htoken, hkey]
  · obtain ⟨hkept, -⟩ := hidle.entry.mpr ⟨e, he, rfl, rfl⟩
    obtain ⟨x, hfind, hdeadline⟩ := Option.map_eq_some_iff.mp hkept
    obtain ⟨i, hi, hx⟩ := Option.bind_eq_some_iff.mp hfind
    exact ⟨i, x, hi, hx, hdeadline⟩
  · exact (hcore.online i x hx ((hcore.indexed_iff hx).mp hin)).1
  · exact (hcore.gone i x hx fun hp => hout ⟨_, hp⟩).1

end

/-- Endpoints are their own ids; two expirations a batch. -/
def plain : Config :=
  ⟨id, .replaceExisting, 5, by decide, ⟨1, 2, by decide, Nat.two_pos⟩⟩

/-- A player moves to another endpoint after a binding was taken, and times out together with a
    second player, who authenticates again while the first one's endpoint is asked to close. -/
def reconnect : List Label :=
  [.call (.authenticate "a" (some 10) 0), .call (.binding 1), .call (.authenticate "a" (some 11) 1),
    .call (.authenticate "b" (some 12) 1), .call (.expireIdleBatch 9), .expire,
    .call (.authenticate "b" (some 12) 9), .expire, .expire]

theorem sessions_stay_coherent_reconnect :
    ∃ s : State, s.manager.byTransport.lookup 11 = none ∧
      s.manager.byTransport.lookup 12 = some 2 ∧ s.batches = [] ∧
      s.handed.map (fun b => s.manager.isCurrent b.binding) = [false] ∧
      ∀ b ∈ s.handed, s.manager.isCurrent b.binding = true ↔
        Indexed s.manager b.binding.sessionId ∧ b.superseded = false := by
  obtain ⟨s, hreach, hgone, hstays, hdone, hcur⟩ := Reach.of_run (· = {}) (step plain) Any
    (fun s => s.manager.byTransport.lookup 11 = none ∧
      s.manager.byTransport.lookup 12 = some 2 ∧ s.batches = [] ∧
      s.handed.map (fun b => s.manager.isCurrent b.binding) = [false]) {} rfl reconnect
    (by decide +kernel)
  exact ⟨s, hgone, hstays, hdone, hcur, (sessions_stay_coherent plain hreach).2.2.2.2.2.1⟩

end GameNet.SessionManager
