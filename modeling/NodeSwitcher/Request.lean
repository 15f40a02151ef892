/-!
# Requests and responses

A request to the server has a method, a path and a query of key-value pairs in
order. A response has a status and a body; it is a success when the status is
from 200 to 299.
-/

namespace NodeSwitcher

/-- How a request is sent. -/
inductive Method where
  | get
  | post
  deriving DecidableEq, Repr

/-- The name of a method as HTTP writes it. -/
def Method.name : Method → String
  | .get => "GET"
  | .post => "POST"

/-- A request to the server. -/
structure Request where
  method : Method
  path : String
  query : List (String × String)
  deriving DecidableEq, Repr

/-- The value of the first query pair with the key `key`. -/
def Request.queryValue (r : Request) (key : String) : Option String :=
  (r.query.find? fun kv => kv.1 == key).map Prod.snd

/-- The value of the first query pair, which the server's script is keyed by. -/
def Request.firstValue (r : Request) : Option String :=
  r.query.head?.map Prod.snd

/-- An answer of the server. -/
structure Response where
  status : UInt16
  body : String
  deriving DecidableEq, Repr

/-- Whether a status means success: from 200 to 299. -/
def isSuccess (status : UInt16) : Bool :=
  200 ≤ status && status < 300

end NodeSwitcher
