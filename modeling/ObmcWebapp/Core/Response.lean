/-
# Responses

The response a request is answered with: its status code, its headers and the values
pushed to its body.
-/

import ObmcWebapp.Core.Exceptions

namespace ObmcWebapp.Core

/-- The status codes the program sets. -/
inductive Code
  | ok
  | unauthorized
  | notFound
  deriving DecidableEq, Repr

/-- A response. Everything pushed to the body is a dumped JSON value, kept as the
value. -/
structure Response where
  status : Code := .notFound
  headers : List (String × String) := []
  body : List Json := []

namespace Response

def setStatus (response : Response) (status : Code) : Response := { response with status := status }

def setHeader (response : Response) (name value : String) : Response :=
  { response with headers := response.headers ++ [(name, value)] }

def push (response : Response) (buffer : Json) : Response :=
  { response with body := response.body ++ [buffer] }

end Response

end ObmcWebapp.Core
