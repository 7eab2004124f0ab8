import AgenticSecurity.Models

namespace AgenticSecurity.Lifecycle

open Models Python

def allowed : AvailabilityState → List AvailabilityState
  | .unknown =>
    [.unknown, .privatePreview, .limitedPublicPreview, .publicPreview, .ga, .deprecated]
  | .privatePreview => [.limitedPublicPreview, .publicPreview, .ga, .deprecated]
  | .limitedPublicPreview => [.publicPreview, .ga, .deprecated]
  | .publicPreview => [.ga, .deprecated]
  | .ga => [.deprecated]
  | .deprecated => []

/-- The type and the id of the entity; an empty system id is followed by the agent's. -/
def entity (event : LifecycleEvent) : String × String :=
  (if event.systemId.isSome then "system" else "agent",
    if truthy event.systemId then event.systemId.getD "" else event.agentId.getD "")

def validateTransition (history : List LifecycleEvent) (event : LifecycleEvent) :
    Except String Unit :=
  match history.getLast? with
  | none => .ok ()
  | some previous =>
    if entity previous ≠ entity event then .error "lifecycle history contains a different entity"
    else if event.state ∉ allowed previous.state then
      .error ("invalid lifecycle transition " ++ previous.state.value ++ " -> " ++
        event.state.value)
    else if event.retrievedAt.instant < previous.retrievedAt.instant then
      .error "lifecycle history must be append-only by retrieval time"
    else .ok ()

end AgenticSecurity.Lifecycle
