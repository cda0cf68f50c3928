import Mathlib.Data.List.AList
import GameNet.DeadlineQueue

/- SessionManager (`SessionManager.cc`, `PlayerSession.cc`): players and their transports, on one
   loop. A session is indexed by its player and by the id of its endpoint, has one entry in the
   idle deadline queue, and hands out bindings that say whether they are current.

   A session object is named by its session id, which no other object has; the two indexes map
   to that name. An endpoint is named by a number, and its id is a function of it. An exception
   that leaves a call ends the run: the only one is the exhaustion of a 64-bit generation. Times
   are exact.

   `requestClose` is the endpoint's and may call the manager again. In `authenticate` and
   `shutdown` nothing of the manager is read or written after it, so that such a call is one that
   comes later; the loop of `expireIdleBatch` goes on after it and is taken turn by turn. -/
namespace GameNet.SessionManager

open DeadlineQueue (Token Entry Queue)

/-! ## Sessions -/

inductive SessionState where
  | authenticating
  | online
  | offline
  deriving DecidableEq, Repr

structure PlayerSession where
  sessionId : Nat
  playerId : String
  state : SessionState := .authenticating
  endpoint : Nat
  lastActivity : Int
  generation : Nat
  /-- `bindingState_->currentGeneration`, which every binding of the session shares. -/
  currentGeneration : Nat := generation
  idleDeadline : Token := {}
  deriving DecidableEq

namespace PlayerSession

def markOnline (x : PlayerSession) (now : Int) : PlayerSession :=
  { x with state := .online, lastActivity := now }

def markOffline (x : PlayerSession) : PlayerSession :=
  { x with currentGeneration := 0, state := .offline }

def rebind (x : PlayerSession) (endpoint generation : Nat) (now : Int) : PlayerSession :=
  { x with endpoint := endpoint, generation := generation, currentGeneration := generation }
    |>.markOnline now

def refreshBinding (x : PlayerSession) (generation : Nat) (now : Int) : PlayerSession :=
  { x with generation := generation, currentGeneration := generation } |>.markOnline now

def heartbeat (x : PlayerSession) (now : Int) : PlayerSession := { x with lastActivity := now }

end PlayerSession

/-- `SessionBinding`; its state is that of the session object. -/
structure SessionBinding where
  sessionId : Nat
  transportId : Nat
  generation : Nat
  deriving DecidableEq

/-! ## The manager -/

inductive DuplicateLoginPolicy where
  | replaceExisting
  | rejectNew
  deriving DecidableEq

inductive AuthenticateStatus where
  | created
  | existing
  | rebound
  | rejected
  deriving DecidableEq, Repr

inductive DispatchResult where
  | accepted
  | queueFull
  | ownerUnavailable
  | shutdown
  | endpointClosed
  | endpointOverloaded
  | policyRejected
  deriving DecidableEq, Repr

inductive CloseReason where
  | normal
  | goingAway
  | protocolError
  | replaced
  | idleTimeout
  | overloaded
  deriving DecidableEq, Repr

/-- `AuthenticateResult`; a session is given by its id. -/
structure AuthenticateResult where
  status : AuthenticateStatus := .rejected
  session : Option Nat := none
  dispatch : DispatchResult := .policyRejected
  deriving DecidableEq

/-- `SessionManager::Options` as the constructor accepts them, and the ids of the endpoints. -/
structure Config where
  /-- `endpoint->id().value` -/
  transportId : Nat → Nat
  duplicateLogin : DuplicateLoginPolicy
  idleTimeout : Int
  idleTimeout_pos : 0 < idleTimeout
  idle : DeadlineQueue.Options

structure Manager where
  /-- `lifecycleState_ == LifecycleState::Running` -/
  running : Bool := true
  idleDeadlines : Queue := {}
  nextSessionId : Nat := 1
  nextBindingGeneration : Nat := 1
  byPlayer : AList (fun _ : String => Nat) := ∅
  byTransport : AList (fun _ : Nat => Nat) := ∅
  /-- The session objects. -/
  sessions : Nat → Option PlayerSession := fun _ => none
  /-- The close requests made so far, newest first. -/
  closeRequests : List (Nat × CloseReason) := []

/-- A call of `expireIdleBatch` in its loop, with what it will return. -/
structure Batch where
  now : Int
  /-- The part of `ready.expired` that the loop has not come to. -/
  ready : List Entry := []
  expired : Nat := 0
  readyRemaining : Bool := false
  /-- What `expireIdle` has counted before, if that is the caller. -/
  earlier : Option Nat := none
  /-- The loop is inside `closeEndpoint`. -/
  closing : Bool := false
  deriving DecidableEq

namespace Manager

def put (s : Manager) (x : PlayerSession) : Manager :=
  { s with sessions := Function.update s.sessions x.sessionId (some x) }

def closeEndpoint (s : Manager) (endpoint : Nat) (reason : CloseReason) : Manager :=
  { s with closeRequests := (endpoint, reason) :: s.closeRequests }

/-- `session->idleDeadline_ = idleDeadlines_->schedule(session->transportId().value, deadline)` -/
def scheduleIdle (c : Config) (s : Manager) (x : PlayerSession) (deadline : Int) :
    Option Manager :=
  match DeadlineQueue.schedule c.idle s.idleDeadlines (c.transportId x.endpoint) deadline with
  | .ok (q, token) => some ({ s with idleDeadlines := q }.put { x with idleDeadline := token })
  | .error _ => none

def findMutableByTransport (s : Manager) (transportId : Nat) : Option PlayerSession :=
  (s.byTransport.lookup transportId).bind s.sessions

def eraseSession (c : Config) (s : Manager) (x : PlayerSession) : Option Manager :=
  match DeadlineQueue.cancel s.idleDeadlines x.idleDeadline with
  | .ok (q, _) =>
    some ({ s with
      idleDeadlines := q
      byTransport := s.byTransport.erase (c.transportId x.endpoint)
      byPlayer :=
        if s.byPlayer.lookup x.playerId = some x.sessionId then s.byPlayer.erase x.playerId
        else s.byPlayer }.put (PlayerSession.markOffline { x with idleDeadline := {} }))
  | .error _ => none

/-- The first half of `authenticate`: the session that has the transport, unless it is the
    same player on the same endpoint. -/
def otherBinding (c : Config) (s : Manager) (playerId : String) (endpoint : Nat) :
    Option PlayerSession :=
  (s.findMutableByTransport (c.transportId endpoint)).filter fun bound =>
    ¬ (bound.playerId = playerId ∧ bound.endpoint = endpoint)

/-- `authenticate` of a player without a session. -/
def createSession (c : Config) (s : Manager) (playerId : String) (endpoint : Nat) (now : Int) :
    Option (Manager × AuthenticateResult) :=
  let x : PlayerSession :=
    { sessionId := s.nextSessionId
      playerId := playerId
      endpoint := endpoint
      lastActivity := now
      generation := s.nextBindingGeneration }
  let s := { s with
    nextSessionId := s.nextSessionId + 1
    nextBindingGeneration := s.nextBindingGeneration + 1 }
  (s.scheduleIdle c (x.markOnline now) (now + c.idleTimeout)).map fun s =>
    ({ s with
      byTransport := s.byTransport.insert (c.transportId endpoint) x.sessionId
      byPlayer := s.byPlayer.insert playerId x.sessionId },
    { status := .created, session := some x.sessionId, dispatch := .accepted })

/-- `authenticate` of a player whose session moves to another endpoint. -/
def rebindSession (c : Config) (s : Manager) (x : PlayerSession) (endpoint : Nat) (now : Int) :
    Option (Manager × AuthenticateResult) :=
  match DeadlineQueue.cancel s.idleDeadlines x.idleDeadline with
  | .ok (q, _) =>
    let moved := x.rebind endpoint s.nextBindingGeneration now
    let s := { s with
      idleDeadlines := q
      byTransport := s.byTransport.erase (c.transportId x.endpoint)
      nextBindingGeneration := s.nextBindingGeneration + 1 }
    (s.scheduleIdle c moved (now + c.idleTimeout)).map fun s =>
      ({ s with
        byTransport := s.byTransport.insert (c.transportId endpoint) x.sessionId }.closeEndpoint
        x.endpoint .replaced,
      { status := .rebound, session := some x.sessionId, dispatch := .accepted })
  | .error _ => none

def authenticate (c : Config) (s : Manager) (playerId : String) (endpoint : Option Nat)
    (now : Int) : Option (Manager × AuthenticateResult) :=
  if s.running = false then some (s, { dispatch := .shutdown })
  else
    match endpoint with
    | none => some (s, { dispatch := .policyRejected })
    | some endpoint =>
      if playerId.isEmpty then some (s, { dispatch := .policyRejected })
      else
        match s.otherBinding c playerId endpoint with
        | some bound =>
          some (if bound.endpoint ≠ endpoint then s.closeEndpoint endpoint .protocolError else s,
            { status := .rejected, dispatch := .policyRejected })
        | none =>
          match s.byPlayer.lookup playerId with
          | none => s.createSession c playerId endpoint now
          | some sessionId =>
            (s.sessions sessionId).bind fun x =>
            if c.transportId x.endpoint = c.transportId endpoint then
              ({ s with nextBindingGeneration := s.nextBindingGeneration + 1 }.scheduleIdle c
                (x.refreshBinding s.nextBindingGeneration now) (now + c.idleTimeout)).map fun s =>
              (s, { status := .existing, session := some sessionId, dispatch := .accepted })
            else if c.duplicateLogin = .rejectNew then
              some (s, { status := .rejected, session := some sessionId,
                         dispatch := .policyRejected })
            else s.rebindSession c x endpoint now

def offline (c : Config) (s : Manager) (transportId : Nat) : Option (Manager × Bool) :=
  if s.running = false then some (s, false)
  else
    match s.findMutableByTransport transportId with
    | none => some (s, false)
    | some x =>
      if c.transportId x.endpoint ≠ transportId then some (s, false)
      else (s.eraseSession c x).map fun s => (s, true)

def heartbeat (c : Config) (s : Manager) (transportId : Nat) (now : Int) :
    Option (Manager × Bool) :=
  if s.running = false then some (s, false)
  else
    match s.findMutableByTransport transportId with
    | none => some (s, false)
    | some x =>
      if c.transportId x.endpoint ≠ transportId then some (s, false)
      else (s.scheduleIdle c (x.heartbeat now) (now + c.idleTimeout)).map fun s => (s, true)

/-- `expireIdleBatch` up to its loop. -/
def expireIdleBatch (c : Config) (s : Manager) (now : Int) (earlier : Option Nat) :
    Option (Manager × Batch) :=
  if s.running = false then some (s, { now := now, earlier := earlier })
  else
    match DeadlineQueue.advance c.idle s.idleDeadlines now with
    | .ok (q, ready) =>
      some ({ s with idleDeadlines := q },
        { now := now, ready := ready.expired, readyRemaining := ready.readyRemaining,
          earlier := earlier })
    | .error _ => none

/-- `expireIdle` up to the loop of its first batch. -/
def expireIdle (c : Config) (s : Manager) (now : Int) : Option (Manager × Batch) :=
  s.expireIdleBatch c now (some 0)

/-- The body of the loop of `expireIdleBatch`, and whether it closes an endpoint. -/
def expireEntry (c : Config) (s : Manager) (now : Int) (e : Entry) : Option (Manager × Bool) :=
  match s.findMutableByTransport e.token.key with
  | none => some (s, false)
  | some x =>
    if x.idleDeadline ≠ e.token then some (s, false)
    else if now - x.lastActivity < c.idleTimeout then
      (s.scheduleIdle c x (x.lastActivity + c.idleTimeout)).map fun s => (s, false)
    else (s.eraseSession c x).map fun s => (s.closeEndpoint x.endpoint .idleTimeout, true)

/-- The next turn of the loop of `expireIdleBatch`, or its end: there `expireIdle` has the next
    batch or returns too. -/
def expireNext (c : Config) (s : Manager) (b : Batch) : Option (Manager × Option Batch) :=
  match b.ready with
  | e :: ready =>
    (s.expireEntry c b.now e).map fun (s, closed) =>
      (s, some { b with ready := ready, expired := b.expired + closed.toNat, closing := closed })
  | [] =>
    match b.earlier with
    | none => some (s, none)
    | some n =>
      if b.readyRemaining then
        (s.expireIdleBatch c b.now (some (n + b.expired))).map fun (s, b) => (s, some b)
      else some (s, none)

/-- The loop of `shutdown` over `byPlayer_`: the sessions are marked offline. -/
def markAllOffline (sessions : Nat → Option PlayerSession) :
    List (Sigma fun _ : String => Nat) → Nat → Option PlayerSession
  | [] => sessions
  | ⟨_, sessionId⟩ :: rest =>
    markAllOffline
      (Function.update sessions sessionId ((sessions sessionId).map PlayerSession.markOffline)) rest

def shutdown (s : Manager) : Manager :=
  if s.running = false then s
  else
    let endpoints := s.byPlayer.entries.filterMap fun entry =>
      (s.sessions entry.2).map PlayerSession.endpoint
    { s with
      running := false
      sessions := markAllOffline s.sessions s.byPlayer.entries
      byTransport := ∅
      byPlayer := ∅
      idleDeadlines := DeadlineQueue.clear s.idleDeadlines
      closeRequests := (endpoints.map fun e => (e, CloseReason.goingAway)).reverse ++
        s.closeRequests }

/-- `PlayerSession::binding` -/
def binding (c : Config) (s : Manager) (sessionId : Nat) : Option SessionBinding :=
  (s.sessions sessionId).map fun x => ⟨x.sessionId, c.transportId x.endpoint, x.generation⟩

/-- `SessionBinding::isCurrent` -/
def isCurrent (s : Manager) (b : SessionBinding) : Bool :=
  b.generation == 0 || (s.sessions b.sessionId).any fun x => x.currentGeneration == b.generation

end Manager

end GameNet.SessionManager
