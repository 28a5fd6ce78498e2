import ClavenarSdk.Serde
import ClavenarSdk.Execution.Records

/-!
# Errors

`error.rs`. The errors of `reqwest` and `serde_json` are represented by what they display
and by why decoding failed.
-/

namespace ClavenarSdk

/-- `ClavenarError`. -/
inductive ClavenarError where
  | veto (intentCategory : String) (reasons reviewReasons : List String)
      (correlationId : Option String) (raw : String)
  | unauthorized (body : String)
  | badRequest (body : String)
  | server (status : ℕ) (body : String)
  | transport (error : String)
  | decode (error : DecodeError)
  | responseTooLarge (limit : ℕ)
  | invalidResponse (message : String)
  | executionUncertain (uncertain : UncertainExecution)
  | executionAlreadyCompleted (authorizationId idempotencyId : Uuid)
  | invalidConfig (message : String)
  deriving DecidableEq

end ClavenarSdk
