import AuditTrail.Failure
import AuditTrail.Json.Record
import AuditTrail.Json.Wire

/-!
# Requests and responses

An exchange with a server as plain data. A response of any status is a response; only where none
was received there is a failure.
-/

namespace AuditTrail.Http

/-- The methods in use. -/
inductive Method
  | get
  | post
  deriving DecidableEq, Repr

/-- The name of a method. -/
def Method.name : Method → String
  | .get => "GET"
  | .post => "POST"

/-- What a request carries. -/
inductive Body
  | empty
  | json (value : Json)
  /-- Fields of a form, in order. -/
  | form (fields : List (String × String))

/-- A request. -/
structure Request where
  method : Method
  url : String
  /-- The token that authorizes the request. -/
  bearer : Option String
  body : Body

namespace Request

/-- A request for what is at a URL. -/
def get (url : String) : Request := ⟨.get, url, none, .empty⟩

/-- A request that sends a value. -/
def postJson (url : String) (value : Json) : Request := ⟨.post, url, none, .json value⟩

/-- A request that sends a form. -/
def postForm (url : String) (fields : List (String × String)) : Request :=
  ⟨.post, url, none, .form fields⟩

/-- The same request with another token, or with none. -/
def withBearer (r : Request) (token : Option String) : Request := { r with bearer := token }

end Request

/-- A response. -/
structure Response where
  status : Nat
  body : String
  deriving DecidableEq, Repr

namespace Response

/-- Whether the status says that the request was accepted. -/
def isSuccess (r : Response) : Bool := decide (200 ≤ r.status ∧ r.status < 300)

/-- The failure to make sense of the response from a URL. -/
def unreadable (url : String) : Failure :=
  .transport url "response body is not valid JSON: not of the expected form"

/-- The value in the body of a response from a URL. -/
def json (r : Response) (url : String) : Except Failure Json :=
  match Json.read? r.body with
  | some v => .ok v
  | none => .error (unreadable url)

/-- The record in the body of a response from a URL. -/
def record {α : Type} (r : Response) (url : String)
    (read : (room : Nat) → Json.Tree → Option α) : Except Failure α :=
  match Json.readAs? read r.body with
  | some a => .ok a
  | none => .error (unreadable url)

end Response

/-- What comes of a request: a response, or the failure to get one. -/
abbrev Reply := Except Failure Response

end AuditTrail.Http
