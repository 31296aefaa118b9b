import Flowline.Json.Decode
import Flowline.Json.Writer

/-!
# Requests and responses

What a client sends and what it gets back. A body that is no JSON, or not JSON of the right shape,
is rejected before anything happens, for the fault that stands first in it.
-/

namespace Flowline.Api

/-- A request. -/
structure Request where
  method : String
  target : String
  /-- The content type says that the body is JSON. -/
  declaresJson : Bool
  body : String

/-- The body of a response. -/
inductive Body where
  | none
  | text (s : String)
  | json (value : Json)

/-- A response. -/
structure Response where
  status : Nat
  body : Body

namespace Response

/-- A response without a body. -/
def bare (status : Nat) : Response := ⟨status, .none⟩

/-- Success with a value. -/
def ok (value : Json) : Response := ⟨200, .json value⟩

/-- A failure in words. -/
def failure (status : Nat) (message : String) : Response :=
  ⟨status, .json (.obj [("error", .str message)])⟩

/-- The same response without its body. -/
def withoutBody (r : Response) : Response := { r with body := .none }

end Response

/-- Why a request is not understood. -/
inductive Rejection where
  /-- The content type does not say that the body is JSON. -/
  | undeclared
  | malformed
  | wrongShape
  /-- An encoded part of the path is no text. -/
  | badPath
deriving DecidableEq

namespace Rejection

def status : Rejection → Nat
  | undeclared => 415
  | malformed => 400
  | wrongShape => 422
  | badPath => 400

/-- The rejection in words. -/
def message : Rejection → String
  | undeclared => "Expected request with `Content-Type: application/json`"
  | malformed => "Failed to parse the request body as JSON"
  | wrongShape => "Failed to deserialize the JSON body into the target type"
  | badPath => "Invalid URL: Invalid UTF-8 in `id`"

def response (r : Rejection) : Response := ⟨r.status, .text r.message⟩

end Rejection

/-- The rejection of a body with a fault. -/
def Rejection.ofFault : Json.TextFault → Rejection
  | .malformed => .malformed
  | .wrongShape => .wrongShape

/-- The body of a request, decoded. -/
def Request.content {α : Type} (r : Request) (d : Decoder α) : Except Rejection α :=
  if r.declaresJson then (d.readText r.body).mapError .ofFault else .error .undeclared

end Flowline.Api
