import MiraDriver.Docker

/-!
# The two drivers

A `DockerDriver` on a socket or a TCP endpoint, and `PortainerDriver`, its subclass that
reads through a Portainer instance. They make the same requests and differ in the client
that sends them: its base URL and its credential.
-/
namespace MiraDriver.Drivers

open MiraDriver.Text MiraDriver.Base MiraDriver.Http MiraDriver.Program

/-- `str.rstrip` of one character. -/
def rstrip (c : Char) (s : Str) : Str := (s.reverse.dropWhile (· = c)).reverse

/-- A `ValueError` out of a constructor. -/
structure ValueError where
  message : Str
  deriving DecidableEq, Repr

inductive Driver where
  | docker (reference endpoint : Str)
  | portainer (reference endpoint apiKey : Str)
  deriving DecidableEq, Repr

/-- An `httpx.Client` as a driver opens it. -/
structure Client where
  baseUrl : Str
  headers : List (Str × Str)
  uds : Option Str
  deriving DecidableEq, Repr

/-- A request as a client sends it. -/
structure Sent where
  method : Str
  url : Str
  params : List (Str × Str)
  headers : List (Str × Str)
  deriving DecidableEq, Repr

/-- `PortainerDriver(...)`. -/
def Driver.ofPortainer (reference portainerUrl : Str) (endpointId : Int) (apiKey : Str) :
    Except ValueError Driver :=
  if !((lit "http://").isPrefixOf portainerUrl || (lit "https://").isPrefixOf portainerUrl) then
    .error ⟨lit "portainer_url must be an http(s) URL"⟩
  else if endpointId < 1 then
    .error ⟨lit "endpoint_id must be a positive Portainer endpoint id"⟩
  else if apiKey = [] then .error ⟨lit "api_key must not be empty"⟩
  else
    .ok (.portainer reference (rstrip '/' portainerUrl ++ lit "/api/endpoints/" ++
      (toString endpointId).toList ++ lit "/docker") apiKey)

namespace Driver

def reference : Driver → Str
  | .docker reference _ => reference
  | .portainer reference _ _ => reference

/-- `_client`, where no client factory is given. -/
def client : Driver → Client
  | .docker _ endpoint =>
    if (lit "unix://").isPrefixOf endpoint then
      ⟨lit "http://docker/", [], some (removePrefix (lit "unix://") endpoint)⟩
    else ⟨rstrip '/' endpoint ++ ['/'], [], none⟩
  | .portainer _ endpoint apiKey => ⟨endpoint ++ ['/'], [(lit "X-API-Key", apiKey)], none⟩

end Driver

/-- `client.stream("GET", path, params=params)`: a relative path is appended to the base
URL. -/
def Client.stream (client : Client) (request : Request) : Sent :=
  ⟨lit "GET", client.baseUrl ++ request.path, request.params, client.headers⟩

/-- What a driver has sent in an interaction. -/
def Driver.sent (driver : Driver) (t : List (Exchange http)) : List Sent :=
  t.map fun x => driver.client.stream x.1

end MiraDriver.Drivers
