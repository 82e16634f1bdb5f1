import Pooler.Spec.Config.Route

/-! Route selection at run time: the first route in compiled order that accepts a request. -/

namespace Pooler

open Lib

variable (http : HttpCrate)

/-- The metadata that selects a route. Host, content type and upgrade state may be given apart from
the headers. -/
structure RouteRequest where
  listener : String
  method : Text
  method_valid : http.validMethod method = true
  path : Text
  host : Option Text := none
  headers : List (String × http.HeaderValue) := []
  contentType : Option Text := none
  websocket : Option Bool := none

inductive RouteMatchError where
  | noMatch (listener : String) (path : Text)
  | methodNotAllowed (listener : String) (method path : Text)
  | contentTypeNotAllowed (listener : String) (contentType path : Text)
  deriving DecidableEq

variable {http} (headers : List (String × http.HeaderValue))

/-- `HeaderMap::get_all`. -/
def getAll (name : String) : List http.HeaderValue := (headers.filter (fun header => header.1 = name)).map Prod.snd

def headerText (name : String) : Option Text := (getAll headers name).head?.bind http.toStr

def routePath (path : Text) : Text := path.takeWhile (· ≠ '?')

def pathMatches (pattern : PathPattern) (path : Text) : Bool :=
  match pattern with
  | .exact expected => expected.text = path
  | .template template => templateMatches template.text path
  | .pathPrefix start => prefixMatches start.text path
  | .any => true

def hostMatches (expected explicit : Option Text) (headers : List (String × http.HeaderValue)) : Bool :=
  match expected with
  | none => true
  | some expected =>
    match normalizeAuthority http expected with
    | none => false
    | some (expectedHost, expectedPort) =>
      ((explicit.or (headerText headers "host")).bind (normalizeAuthority http)).any
        (fun (actualHost, actualPort) => actualHost = expectedHost &&
          expectedPort.all (fun port => actualPort = some port))

def headersMatch (expected : Table String Text) (headers : List (String × http.HeaderValue)) : Bool :=
  expected.toList.all (fun (name, expected) =>
    (getAll headers name).any (fun value => (http.toStr value).any (fun text => trim text = expected)))

def methodMatchesRoute (methods : List (RouteMethod http)) (method : Text) : Bool :=
  methods.isEmpty || methods.any (fun expected => expected.text = method)

def mediaTypeWildcardMatches (expected actual : Text) : Bool :=
  expected = "*/*".toList ||
    (stripSuffix "/*".toList expected).any (fun start => start.isPrefixOf actual && actual[start.length]? = some '/')

def contentTypeMatches (expected : List MediaType) (actual : Option Text) : Bool :=
  if expected.isEmpty then true
  else match actual.map normalizeContentType with
    | none => false
    | some actual => (expected.map (fun m => normalizeContentType m.text)).any
        (fun value => value = actual || mediaTypeWildcardMatches value actual)

variable (request : RouteRequest http)

def requestContentType : Option Text :=
  (request.contentType.or (headerText request.headers "content-type")).map normalizeContentType

def websocketMatches (expected : Option Bool) (actual : Bool) : Bool := expected.all (· = actual)

def requestWebsocketHeaders (headers : List (String × http.HeaderValue)) : Bool :=
  let upgrade := (headerText headers "upgrade").any (fun value => lowercase value = "websocket".toList)
  let connection := (headerText headers "connection").map (fun value =>
    (value.splitOn ',').any (fun part => lowercase (trim part) = "upgrade".toList))
  upgrade && connection.getD true

def requestWebsocket : Bool := request.websocket.getD (requestWebsocketHeaders request.headers)

variable (route : RoutePlan http)

/-- The checks before the method: listener, path, host, headers and upgrade state. -/
def structuralMatch : Bool :=
  route.listener = request.listener &&
    pathMatches route.matcher.path (routePath request.path) &&
    hostMatches route.matcher.host request.host request.headers &&
    headersMatch route.matcher.headers request.headers &&
    websocketMatches route.matcher.websocket (requestWebsocket request)

def methodMatch : Bool := methodMatchesRoute route.matcher.methods (uppercase request.method)

def contentTypeMatch : Bool := contentTypeMatches route.matcher.contentTypes (requestContentType request)

/-- The loop of `match_route_request`, with its two flags. -/
def matchRouteFrom (request : RouteRequest http) : List (RoutePlan http) → Bool → Bool →
    Except RouteMatchError (RoutePlan http)
  | [], structural, method =>
    .error (
      if !structural then .noMatch request.listener (routePath request.path)
      else if !method then .methodNotAllowed request.listener (uppercase request.method) (routePath request.path)
      else .contentTypeNotAllowed request.listener ((requestContentType request).getD []) (routePath request.path))
  | route :: routes, structural, method =>
    if !structuralMatch request route then matchRouteFrom request routes structural method
    else if !methodMatch request route then matchRouteFrom request routes true method
    else if contentTypeMatch request route then .ok route
    else matchRouteFrom request routes true true

def matchRouteRequest (routes : List (RoutePlan http)) (request : RouteRequest http) :
    Except RouteMatchError (RoutePlan http) :=
  matchRouteFrom request routes false false

def routeMatches : Bool := structuralMatch request route && methodMatch request route && contentTypeMatch request route

end Pooler
