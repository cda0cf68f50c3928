import Mathlib.Algebra.Group.Int.Defs
import Mathlib.Algebra.GroupWithZero.Nat
import Mathlib.Logic.Function.Basic

/- The result and phase enumerations that the scheduling facades of the core
   share (`PostResult.h`, `EventLoop.h`). -/
namespace GameNet

/-- `PostResult`: the typed admission result of a bounded scheduling facade. -/
inductive PostResult where
  | accepted
  | queueFull
  | ownerUnavailable
  | shutdown
  deriving DecidableEq, Repr

/-- `EventLoopPhase`. -/
inductive EventLoopPhase where
  | running
  | quiescing
  | finalDraining
  | shutdown
  deriving DecidableEq, Repr

/-- The thread that makes a call, as `EventLoop::isInLoopThread` tells them apart. -/
inductive Caller where
  | owner
  | remote
  deriving DecidableEq, Repr

end GameNet
