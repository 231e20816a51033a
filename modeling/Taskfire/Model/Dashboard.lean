import Taskfire.Model.Api

/-!
# The dashboard's client

`api.jobs.create` of `dashboard/src/api/client.ts`.  The network between the client and the API is a
choice for every attempt (`Transport`): it may lose the request, lose the answer or deliver both.
The client sees an error of axios for a lost message and for an answer outside 2xx; `axios-retry`
repeats the request at most three times while `retryCondition` holds of the error.  It does so through
the instance, so that the error of the last attempt passes the interceptor that normalises errors once
for every attempt.
-/

namespace Taskfire

open Taskfire.Library

namespace Dashboard

/-- What axios rejects with: `axiosRetry.isNetworkError` of the error, whether a request was made, and
the answer if there is one. -/
structure AxiosError where
  isNetworkError : Bool
  request : Bool
  response : Option Response
  message : String

/-- What the network does to one attempt; the error is what the client sees of a loss, an answer of
a gateway included. -/
inductive Transport where
  | requestLost (error : AxiosError)
  | responseLost (error : AxiosError)
  | delivered

/-- The API gets the request. -/
def Transport.reaches : Transport → Bool
  | .requestLost _ => false
  | .responseLost _ | .delivered => true

def Transport.losesResponse : Transport → Bool
  | .responseLost _ => true
  | .requestLost _ | .delivered => false

def retries : Nat := 3

def retryCondition (error : AxiosError) : Bool :=
  if error.isNetworkError then true
  else
    match error.response with
    | none => false
    | some response => decide (500 ≤ response.status)

/-- `validateStatus` of axios: a promise resolves for an answer in 2xx only. -/
def settle (response : Response) : Except AxiosError Response :=
  if 200 ≤ response.status ∧ response.status < 300 then .ok response
  else
    let message := "Request failed with status code " ++ toString response.status
    .error ⟨false, true, some response, message⟩

def attempt (request : Api.PostRequest) : Transport → Prog (Except AxiosError Response)
  | .requestLost error => pure (.error error)
  | .responseLost error => do
    let _ ← request.handle
    pure (.error error)
  | .delivered => do
    let response ← request.handle
    pure (settle response)

/-- The condition of `axios-retry`: there is an error and it can be retried. -/
def again : Except AxiosError Response → Bool
  | .ok _ => false
  | .error error => retryCondition error

/-- The request with its retries, and how many there were; the network's choice for attempt `n` is
`transport n`. -/
def send (transport : Nat → Transport) (request : Api.PostRequest) :
    Prog (Nat × Except AxiosError Response) :=
  Program.retrying (fun outcome => again outcome.2) (fun n => do
    let outcome ← attempt request (transport n)
    pure (n, outcome)) retries 0

structure ApiError where
  status : Nat
  code : String
  message : String
  deriving DecidableEq, Repr

/-- What the interceptor that normalises errors is called with. -/
inductive Rejection where
  | axios (error : AxiosError)
  | api (error : ApiError)

/-- An `ApiError` has neither a response nor a request. -/
def normalise : Rejection → ApiError
  | .axios error =>
    match error.response with
    | some response =>
      match response.body with
      | .error code message => ⟨response.status, code, message⟩
      | .empty | .job _ _ =>
        ⟨response.status, "api_error", "Request failed with status " ++ toString response.status⟩
    | none =>
      if error.request then
        ⟨0, "network_error", "Network request failed — the server may be unreachable"⟩
      else ⟨0, "client_error", error.message⟩
  | .api error => ⟨0, "client_error", error.message⟩

/-- The error that is left after so many retries. -/
def rejected (error : AxiosError) : Nat → ApiError
  | 0 => normalise (.axios error)
  | retried + 1 => normalise (.api (rejected error retried))

/-- `api.jobs.create`, with what the API's schema makes of the body. -/
def create (transport : Nat → Transport) (parsed : Option CreateJobInput) :
    Prog (Except ApiError Body) := do
  match ← send transport (.create parsed) with
  | (retried, .error error) => pure (.error (rejected error retried))
  | (_, .ok response) => pure (.ok response.body)

end Dashboard

end Taskfire
