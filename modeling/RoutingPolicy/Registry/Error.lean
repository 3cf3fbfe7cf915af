import RoutingPolicy.Text.Numeral

/-!
# Failures of registry requests

The registry refuses a request with a status, or the request does not get through at all.
-/

namespace RoutingPolicy

/-- A failure of a registry request. -/
inductive RegistryError where
  | badRequest
  | queryLimitExceeded
  | notFound
  | integrityViolation
  | internalServerError
  /-- A status without a meaning of its own. -/
  | unknown (status : UInt16)
  /-- The request did not get through or its reply did not come back. -/
  | transport (reason : Text)
deriving DecidableEq

namespace RegistryError

def ofStatus (status : UInt16) : RegistryError :=
  if status = 400 then badRequest
  else if status = 403 then queryLimitExceeded
  else if status = 404 then notFound
  else if status = 409 then integrityViolation
  else if status = 500 then internalServerError
  else unknown status

/-- The status behind a failure, if the registry answered at all. -/
def status? : RegistryError → Option UInt16
  | badRequest => some 400
  | queryLimitExceeded => some 403
  | notFound => some 404
  | integrityViolation => some 409
  | internalServerError => some 500
  | unknown status => some status
  | transport _ => none

def message : RegistryError → Text
  | badRequest => "registry is unable to understand and process the request (400)".toList
  | queryLimitExceeded => "registry query limit exceeded (403)".toList
  | notFound => "registry found no objects (404)".toList
  | integrityViolation => "registry integrity constraint violated (409)".toList
  | internalServerError => "registry internal server error (500)".toList
  | unknown status =>
    "unknown registry response (".toList ++ Text.decimal status.toNat ++ [')']
  | transport reason => "failed to send registry request: ".toList ++ reason

/-- A status other than that of an unknown failure is told back by the failure. -/
theorem status?_ofStatus (status : UInt16) : (ofStatus status).status? = some status := by
  unfold ofStatus
  repeat' split
  all_goals simp_all [status?]

end RegistryError

end RoutingPolicy
