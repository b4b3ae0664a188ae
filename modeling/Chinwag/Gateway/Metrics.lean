import Chinwag.Lib.Middleware
import Chinwag.Gateway.Proxy

/-!
# What the gateway counts

The two chains of `main`, with the counter `http_requests_total`. The headers the layers set and
the lines they log are left out.
-/
namespace Chinwag.Gateway

open UrlPath Middleware

/-- One increment of `http_requests_total`, by its labels. -/
structure Counted where
  service : String
  method : String
  code : ℕ
deriving DecidableEq

/-- A request with its response so far; the status is zero until one is written. -/
structure Exchange where
  path : Bytes
  method : String
  status : ℕ
  total : List Counted
  proxied : Option ServiceRoute
deriving DecidableEq

def metricsPath : Bytes := bytes "/metrics"

def pathPrefixMatch (path : Bytes) (pathPrefix : String) : Bool :=
  path = bytes pathPrefix || (bytes (pathPrefix ++ "/")).isPrefixOf path

def serviceForPath (path : Bytes) : String :=
  if pathPrefixMatch path "/auth" then "auth"
  else if pathPrefixMatch path "/rooms" then "rooms"
  else if pathPrefixMatch path "/users" then "users"
  else if pathPrefixMatch path "/chat" then "chat"
  else if pathPrefixMatch path "/admin" then "admin"
  else if path = bytes "/health" then "health"
  else if path = metricsPath then "metrics"
  else "gateway"

def metricsMiddleware : Layer Exchange := fun next x =>
  if x.path = metricsPath then next x
  else
    let y := next x
    let status := if y.status = 0 then 500 else y.status
    { y with total := y.total ++ [⟨serviceForPath x.path, x.method, status⟩] }

/-- What a request meets that its path and method do not decide. -/
structure Surroundings where
  /-- The status with which the CORS layer answers by itself. -/
  cors : Bytes → String → Option ℕ
  rateLimitEnabled : Bool
  withinLimit : Bool
  /-- The status a backend answers with, or that of `ErrorHandler`. -/
  backend : ServiceRoute → ℕ
  /-- The status the gateway's own handlers leave. -/
  router : Bytes → String → ℕ

namespace Surroundings

variable (env : Surroundings)

def corsAnswer (x : Exchange) : Option Exchange :=
  (env.cors x.path x.method).map fun status => { x with status := status }

def rateLimitSkipper (x : Exchange) : Bool :=
  x.path = bytes "/health" || x.path = bytes "/metrics" || x.method = "OPTIONS"

/-- `RateLimit`, which answers with `deny429` or not at all. -/
def rateLimitAnswer (x : Exchange) : Option Exchange :=
  if !env.rateLimitEnabled || rateLimitSkipper x || env.withinLimit then none else some { x with status := 429 }

/-- The layer of `setupRoutes`. -/
def proxyAnswer (routes : List ServiceRoute) (x : Exchange) : Option Exchange :=
  (routeFor routes x.path x.method).map fun route =>
    { x with status := env.backend route, proxied := some route }

/-- The layers of the `Pre` chain, which runs before the router. -/
def preAnswers (routes : List ServiceRoute) : List (Exchange → Option Exchange) :=
  [env.corsAnswer, env.rateLimitAnswer, env.proxyAnswer routes]

/-- The `Use` chain: `RequestID` and `AccessLogger` neither answer nor count. -/
def useChain : List (Layer Exchange) := [through, through, metricsMiddleware]

def routed (x : Exchange) : Exchange := { x with status := env.router x.path x.method }

/-- A request to the gateway, with the counter as it stood. -/
def serve (routes : List ServiceRoute) (path : Bytes) (method : String) (total : List Counted) : Exchange :=
  chain ((env.preAnswers routes).map gate) (chain useChain env.routed) ⟨path, method, 0, total, none⟩

end Surroundings

/-- The counter went up by one, under the label of the route's service. -/
def CountedOnce (label : ServiceRoute → String) (route : ServiceRoute) (method : String) (before after : List Counted) :
    Prop :=
  ∃ code, after = before ++ [⟨label route, method, code⟩]

section Chains

variable (env : Surroundings)

/-- No layer of the `Pre` chain counts what it answers. -/
theorem preAnswers_total {routes : List ServiceRoute} {x y : Exchange} {answer : Exchange → Option Exchange}
    (hmem : answer ∈ env.preAnswers routes) (h : answer x = some y) : y.total = x.total := by
  unfold Surroundings.preAnswers at hmem
  rcases List.mem_cons.mp hmem with rfl | hmem
  · obtain ⟨status, -, rfl⟩ := Option.map_eq_some_iff.mp h
    rfl
  rcases List.mem_cons.mp hmem with rfl | hmem
  · unfold Surroundings.rateLimitAnswer at h
    split at h
    · cases h
    · cases h
      rfl
  · rw [List.mem_singleton.mp hmem] at h
    obtain ⟨route, -, rfl⟩ := Option.map_eq_some_iff.mp h
    rfl

/-- The `Use` chain counts all but the scrapes, by the path alone. -/
theorem useChain_total (x : Exchange) :
    (chain Surroundings.useChain env.routed x).total =
      x.total ++ if x.path = metricsPath then [] else
        [⟨serviceForPath x.path, x.method, if env.router x.path x.method = 0 then 500 else env.router x.path x.method⟩] := by
  show (metricsMiddleware env.routed x).total = _
  unfold metricsMiddleware
  split
  · exact (List.append_nil _).symm
  · rfl

theorem useChain_proxied (x : Exchange) : (chain Surroundings.useChain env.routed x).proxied = x.proxied := by
  show (metricsMiddleware env.routed x).proxied = _
  unfold metricsMiddleware
  split <;> rfl

/-- A request is answered before the router and not counted, or the router's chain has it as it came. -/
theorem serve_cases (routes : List ServiceRoute) (path : Bytes) (method : String) (total : List Counted) :
    (env.serve routes path method total).total = total ∨
      env.serve routes path method total = chain Surroundings.useChain env.routed ⟨path, method, 0, total, none⟩ := by
  obtain ⟨answer, hmem, hanswer⟩ | ⟨-, hlast⟩ := chain_gates_cases (env.preAnswers routes)
    (chain Surroundings.useChain env.routed) ⟨path, method, 0, total, none⟩
  · exact .inl (preAnswers_total env hmem hanswer)
  · exact .inr hlast

/-- What the counter does count: the requests no layer of the `Pre` chain answers. -/
theorem unanswered_counted {routes : List ServiceRoute} {path : Bytes} {method : String} (total : List Counted)
    (h : ∀ answer ∈ env.preAnswers routes, answer ⟨path, method, 0, total, none⟩ = none) (hpath : path ≠ metricsPath) :
    ∃ code, (env.serve routes path method total).total = total ++ [⟨serviceForPath path, method, code⟩] := by
  obtain ⟨answer, hmem, hanswer⟩ | ⟨-, hlast⟩ := chain_gates_cases (env.preAnswers routes)
    (chain Surroundings.useChain env.routed) ⟨path, method, 0, total, none⟩
  · rw [h answer hmem] at hanswer
    cases hanswer
  · refine ⟨if env.router path method = 0 then 500 else env.router path method, ?_⟩
    unfold Surroundings.serve
    rw [hlast, useChain_total, if_neg hpath]

/-- A request that is proxied is counted under no name its service could have. -/
theorem proxied_uncounted (label : ServiceRoute → String) {routes : List ServiceRoute} {path : Bytes} {method : String}
    (total : List Counted) {route : ServiceRoute}
    (h : (env.serve routes path method total).proxied = some route) :
    ¬ CountedOnce label route method total (env.serve routes path method total).total := by
  rintro ⟨code, hcounted⟩
  obtain hsame | hpassed := serve_cases env routes path method total
  · rw [hsame] at hcounted
    exact absurd (congrArg List.length hcounted) (by simp)
  · rw [hpassed, useChain_proxied] at h
    cases h

end Chains

/-- A gateway in front of an answering service, with no limit in the way. -/
def calm : Surroundings := ⟨fun _ _ => none, true, true, fun _ => 200, fun _ _ => 404⟩

def authRoute : ServiceRoute := ⟨"/auth", "", [], "http://auth:8080", true⟩

theorem proxied_uncounted_login :
    ¬ CountedOnce (fun _ => "auth") authRoute "POST" [] (calm.serve [authRoute] (bytes "/auth/login") "POST" []).total :=
  proxied_uncounted calm (fun _ => "auth") [] (by decide)

/-- A login reaches the auth service, and the counter stays empty. -/
theorem login_uncounted :
    (calm.serve [authRoute] (bytes "/auth/login") "POST" []).proxied = some authRoute ∧
      ¬ CountedOnce (fun r => r.routePrefix) authRoute "POST" []
        (calm.serve [authRoute] (bytes "/auth/login") "POST" []).total := by
  refine ⟨by decide, ?_⟩
  have hempty : (calm.serve [authRoute] (bytes "/auth/login") "POST" []).total = [] := by decide
  rintro ⟨code, hcounted⟩
  rw [hempty] at hcounted
  cases hcounted

end Chinwag.Gateway
