import A2ABroker.Verify.Errors
import A2ABroker.Verify.Uniform

/-! # Refused requests

The checks of a route read the state and write nothing, and an operation that is refused leaves the
state as it was. So does a request that is answered with one of the broker's codes (`handle_refused`),
unless it posts a thread message: that is stored before the work that it asks for is done. -/

namespace A2ABroker

open Prog

variable {s s' : State} {env : Env}

/-- The request posts a thread message. -/
def Route.posts : Route → Bool
  | addExchangeMessage _ _ => true
  | internal op => op.isMessage
  | _ => false

theorem toOp_returns (config : ServerConfig) (caller : Caller) (route : Route) :
    Returns (·.isMessage = route.posts) (route.toOp config caller) := by
  cases route with
  | internal op => exact returns_pure rfl
  | evidence id body =>
    refine returns_bind fun body => ?_
    unfold TaskEvidenceRequest.op
    split
    · exact returns_pure rfl
    · exact returns_pure rfl
    · exact returns_pure rfl
    · exact returns_pure rfl
    · intro s a s' h
      cases h
  | _ =>
    unfold Route.toOp
    dsimp only
    repeat' with_reducible refine returns_bind fun _ => ?_
    exact returns_pure rfl

/-- A request that fails with an error of the broker, in its checks or in its operation, leaves the
state as it was, unless it posts a thread message. -/
theorem handle_refused {config : ServerConfig} {caller : Caller} {route : Route} {e : BrokerError}
    (hroute : route.posts = false) (h : route.handle env config caller s = .error (.broker e) s') :
    s' = s := by
  unfold Route.handle at h
  rcases bind_eq_error h with hfail | ⟨op, s₁, hrun, hrest⟩
  · exact (isGuard_toOp route).error_state hfail
  · obtain rfl := (isGuard_toOp route).ok_state hrun
    have hop : op.isMessage = false := (toOp_returns config caller route _ _ _ hrun).trans hroute
    exact refused_unchanged hop hrest

/-- A claim of a task that does not exist. -/
theorem handle_refused_claim : finalState ((Route.claim "task" (some ⟨"worker"⟩)).handle
    (Env.numbered {}) {} {} (initial (Env.numbered {}))) = initial (Env.numbered {}) := by
  have h : (Route.claim "task" (some ⟨"worker"⟩)).handle (Env.numbered {}) {} {}
      (initial (Env.numbered {})) = .error (.broker ⟨.notFound, "task not found"⟩)
        (initial (Env.numbered {})) := rfl
  rw [h]
  exact handle_refused rfl h

end A2ABroker
