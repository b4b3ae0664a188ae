import Chinwag.Lib.UrlPath

/-!
# A request on its way to a backend

From the URL the client asks for, past the ingress and the gateway, to the URL a backend checks
proofs against. What the headers hold otherwise is left out.
-/
namespace Chinwag.Gateway

open UrlPath

structure ServiceRoute where
  routePrefix : String
  suffix : String
  methods : List String
  targetURL : String
  stripPrefix : Bool
deriving DecidableEq

/-- The routes `LoadConfig` reads from the environment, where an unset variable is empty. -/
def loadRoutes (getenv : String → String) : List ServiceRoute :=
  let authURL := getenv "AUTH_SERVICE_URL"
  let roomURL := getenv "ROOM_SERVICE_URL"
  let chatCommandURL :=
    if getenv "CHAT_COMMAND_SERVICE_URL" = "" then getenv "CHAT_SERVICE_URL" else getenv "CHAT_COMMAND_SERVICE_URL"
  let chatQueryURL :=
    if getenv "CHAT_QUERY_SERVICE_URL" = "" then chatCommandURL else getenv "CHAT_QUERY_SERVICE_URL"
  (if authURL = "" then [] else [⟨"/auth", "", [], authURL, true⟩]) ++
    (if roomURL = "" then []
      else [⟨"/rooms", "", [], roomURL, false⟩, ⟨"/users", "", [], roomURL, false⟩,
        ⟨"/admin/rooms", "", [], roomURL, false⟩, ⟨"/admin/users/", "", [], roomURL, false⟩,
        ⟨"/admin/stats/rooms", "", [], roomURL, false⟩]) ++
    (if chatCommandURL = "" then []
      else [⟨"/chat", "", ["POST", "PUT", "DELETE"], chatCommandURL, false⟩,
        ⟨"/chat/rooms/", "/ws", ["GET"], chatCommandURL, false⟩]) ++
    (if chatQueryURL = "" then [] else [⟨"/chat", "", ["GET"], chatQueryURL, false⟩])

def ServiceRoute.accepts (r : ServiceRoute) (path : Bytes) (method : String) : Bool :=
  (bytes r.routePrefix).isPrefixOf path && (r.suffix = "" || (bytes r.suffix).isSuffixOf path) &&
    (r.methods = [] || r.methods.contains method)

/-- The loop of `setupRoutes`: the first route that takes the request. -/
def routeFor (routes : List ServiceRoute) (path : Bytes) (method : String) : Option ServiceRoute :=
  routes.find? fun r => r.accepts path method

/-- The part of a request that matters here; an absent header is empty. -/
structure Request where
  url : Url
  host : Bytes
  tls : Bool
  forwardedProto : Bytes
  forwardedHost : Bytes
  forwardedPrefix : Bytes

/-- `joinURLPath` of `httputil`. -/
def joinURLPath (a b : Url) : Bytes × Bytes :=
  let aslash := (bytes "/").isSuffixOf a.path
  let bslash := (bytes "/").isPrefixOf b.path
  if a.rawPath = [] ∧ b.rawPath = [] then
    (if aslash && bslash then a.path ++ b.path.drop 1
      else if !aslash && !bslash then a.path ++ byte '/' :: b.path else a.path ++ b.path, [])
  else if (bytes "/").isSuffixOf a.escapedPath && (bytes "/").isPrefixOf b.escapedPath then
    (a.path ++ b.path.drop 1, a.escapedPath ++ b.escapedPath.drop 1)
  else if !(bytes "/").isSuffixOf a.escapedPath && !(bytes "/").isPrefixOf b.escapedPath then
    (a.path ++ byte '/' :: b.path, a.escapedPath ++ byte '/' :: b.escapedPath)
  else (a.path ++ b.path, a.escapedPath ++ b.escapedPath)

/-- The URL of a backend: the target URLs are a scheme and a host. -/
def targetRoot : Url := ⟨[], [], none⟩

/-- `NewSingleHostReverseProxy`'s own Director. -/
def originalDirector (url : Url) : Url :=
  { url with path := (joinURLPath targetRoot url).1, rawPath := (joinURLPath targetRoot url).2 }

/-- `strings.TrimPrefix`. -/
def trimPrefix (s pre : Bytes) : Bytes := if pre.isPrefixOf s then s.drop pre.length else s

def stripped (path : Bytes) (routePrefix : Bytes) : Bytes :=
  if trimPrefix path routePrefix = [] then bytes "/" else trimPrefix path routePrefix

/-- The Director of `newReverseProxy`. -/
def director (route : ServiceRoute) (req : Request) : Request :=
  let url := originalDirector req.url
  let req := { req with
    forwardedProto :=
      if req.forwardedProto = [] then (if req.tls then bytes "https" else bytes "http") else req.forwardedProto
    forwardedHost := if req.forwardedHost = [] then req.host else req.forwardedHost }
  if route.stripPrefix then
    { req with
      url := { url with path := stripped url.path (bytes route.routePrefix) }
      forwardedPrefix := bytes route.routePrefix }
  else { req with url := url, forwardedPrefix := [] }

/-- `RequestHTU`. -/
def requestHTU (r : Request) : Bytes :=
  let proto := if r.forwardedProto = [] then (if r.tls then bytes "https" else bytes "http") else r.forwardedProto
  let host := if r.forwardedHost = [] then r.host else r.forwardedHost
  proto ++ bytes "://" ++ host ++ r.forwardedPrefix ++ r.url.path

/-- What `new URL` makes of an address of the client's API: the path is kept as it is sent. -/
structure ClientURL where
  protocol : Bytes
  host : Bytes
  pathname : Bytes
  search : Option Bytes
  hash : Option Bytes
  protocol_ne : protocol ≠ []
  host_ne : host ≠ []
  pathname_wire : pathname.all wireByte = true
  search_wire : WireQuery search

def ClientURL.origin (u : ClientURL) : Bytes := u.protocol ++ bytes "://" ++ u.host

/-- `normalizeHtu`, of a URL that the browser could read or not. -/
def normalizeHtu (url : Bytes) : Option ClientURL → Bytes
  | none => url
  | some u =>
    let path :=
      if (bytes "/api").isPrefixOf u.pathname then
        (if u.pathname.drop 4 = [] then bytes "/" else u.pathname.drop 4)
      else u.pathname
    u.origin ++ path

/-- The address is `API_BASE` or one below it. -/
def UnderApiBase (u : ClientURL) : Prop := ∃ rest, u.pathname = bytes "/api" ++ rest ∧ (rest = [] ∨ ∃ p, rest = byte '/' :: p)

/-- The path the ingress passes on: without `/api`, and never empty. -/
def ingressPath (u : ClientURL) : Bytes := if u.pathname.drop 4 = [] then bytes "/" else u.pathname.drop 4

section Hops

variable (validAuthority : Bytes → Bool)

/-- The request as the gateway receives it. -/
def atGateway (u : ClientURL) : Option Request :=
  (parseRequest validAuthority (ingressPath u ++ queryText u.search)).map fun url =>
    { url := url, host := u.host, tls := false, forwardedProto := u.protocol, forwardedHost := u.host
      forwardedPrefix := bytes "/api" }

/-- The request as a backend receives it from the gateway. -/
def atBackend (route : ServiceRoute) (req : Request) : Option Request :=
  (parseRequest validAuthority (director route req).url.requestURI).map fun url =>
    { director route req with url := url, host := bytes route.targetURL, tls := false }

/-- The address the backend of the route reconstructs, if the request gets there. -/
def reconstructed (routes : List ServiceRoute) (method : String) (u : ClientURL) : Option Bytes := do
  let req ← atGateway validAuthority u
  let route ← routeFor routes req.url.path method
  let received ← atBackend validAuthority route req
  return requestHTU received

end Hops

end Chinwag.Gateway
