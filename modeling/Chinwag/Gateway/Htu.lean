import Chinwag.Gateway.Proxy

/-!
# The address a proof is for, on both sides

The client signs the path as it stands in the URL, a backend compares it with a decoded path behind
the prefix of the route. The two are the same text where there is nothing to decode and the
route's prefix ends at a slash.
-/
namespace Chinwag.Gateway

open UrlPath

variable {validAuthority : Bytes → Bool} {u : ClientURL} {route : ServiceRoute} {req : Request} {url : Url}
  {path p : Bytes}

theorem escapedPath_root : targetRoot.escapedPath = [] := rfl

/-- A target without a path joins to the path itself. -/
theorem originalDirector_rooted (h : Rooted url) :
    (originalDirector url).path = url.path ∧ Rooted (originalDirector url) ∧
      (originalDirector url).query = url.query := by
  obtain ⟨q, hq⟩ := h.path
  obtain ⟨e, he, -, -⟩ := escapedPath_rooted h
  have hslash : ∀ s : Bytes, (bytes "/").isPrefixOf (byte '/' :: s) = true := by
    intro s
    simp [bytes]
  have hempty : (bytes "/").isSuffixOf [] = false := by decide
  unfold originalDirector joinURLPath
  split
  · rename_i hraw
    simp only [targetRoot, hempty, hq, hslash, Bool.false_and, Bool.not_true, Bool.and_false, Bool.false_eq_true,
      if_false, List.nil_append]
    exact ⟨trivial, ⟨⟨q, rfl⟩, .inl rfl⟩, trivial⟩
  · rw [escapedPath_root, hempty, he, hslash]
    simp only [targetRoot, Bool.false_and, Bool.not_true, Bool.and_false, Bool.false_eq_true, if_false,
      List.nil_append]
    exact ⟨trivial, ⟨⟨q, hq⟩, .inr ⟨e, rfl⟩⟩, trivial⟩

theorem accepts_prefix {method : String} (h : route.accepts path method = true) :
    ∃ x, path = bytes route.routePrefix ++ x := by
  simp only [ServiceRoute.accepts, Bool.and_eq_true] at h
  obtain ⟨x, hx⟩ := List.isPrefixOf_iff_prefix.mp h.1.1
  exact ⟨x, hx.symm⟩

theorem routeFor_accepts {routes : List ServiceRoute} {method : String}
    (h : routeFor routes path method = some route) : route.accepts path method = true := by
  have haccepts := List.find?_some (p := fun r => ServiceRoute.accepts r path method) h
  exact haccepts

theorem stripped_append (a x : Bytes) : stripped (a ++ x) a = if x = [] then bytes "/" else x := by
  have htrim : trimPrefix (a ++ x) a = x := by
    unfold trimPrefix
    rw [if_pos (List.isPrefixOf_iff_prefix.mpr (List.prefix_append a x)), List.drop_left]
  unfold stripped
  rw [htrim]

/-- A path without its slash is not what an encoded text beside it can decode to. -/
theorem escapedPath_unrooted {x : Bytes} (hpath : url.path = x) (hslash : ∀ q, x ≠ byte '/' :: q)
    (hraw : url.rawPath = [] ∨ ∃ q, url.rawPath = byte '/' :: q) :
    url.escapedPath = if x = bytes "*" then bytes "*" else escape x := by
  unfold Url.escapedPath
  split
  · rename_i hdecoded
    obtain ⟨q, hq⟩ := hraw.resolve_left hdecoded.1
    rw [hq] at hdecoded
    obtain ⟨out, hout, -⟩ := unescape_head (by decide) hdecoded.2.2
    exact absurd (hpath.symm.trans hout) (hslash out)
  · rw [hpath]

/-- The path a backend behind a stripping route receives is shorter than what the route cut off
from, unless that begins with a slash. -/
theorem received_unrooted {x : Bytes} {url url' : Url} (hpath : url.path = x) (hx : x ≠ [])
    (hslash : ∀ q, x ≠ byte '/' :: q) (hraw : url.rawPath = [] ∨ ∃ q, url.rawPath = byte '/' :: q)
    (h : parseRequest validAuthority url.requestURI = some url') :
    (x = bytes "*" ∧ url.query = none ∧ url'.path = x) ∨
      ¬ (x = bytes "*" ∧ url.query = none) ∧ url'.path.length < x.length := by
  have hne : (if x = bytes "*" then bytes "*" else escape x) ≠ [] := by
    split
    · decide
    · intro heq
      have hback := unescape_escape x
      rw [heq] at hback
      exact hx (Option.some.inj hback).symm
  unfold Url.requestURI at h
  rw [escapedPath_unrooted hpath hslash hraw, if_neg hne] at h
  by_cases hstar : x = bytes "*"
  · subst hstar
    rw [if_pos rfl] at h
    cases hquery : url.query with
    | none =>
      rw [hquery] at h
      have hparsed : parseRequest validAuthority (bytes "*" ++ queryText none) = some ⟨bytes "*", [], none⟩ := rfl
      obtain rfl := Option.some.inj (hparsed.symm.trans h)
      exact .inl ⟨rfl, rfl, rfl⟩
    | some query =>
      rw [hquery] at h
      refine .inr ⟨fun hand => (nomatch hand.2),
        parseRequest_unrooted h ?_ (fun q heq => absurd (List.cons.inj heq).1 (by decide)) rfl rfl⟩
      exact fun heq => nomatch (List.cons.inj heq).2
  · rw [if_neg hstar] at h
    refine .inr ⟨fun hand => hstar hand.1, parseRequest_unrooted h ?_ ?_ (wire_escape x) (unescape_escape x)⟩
    · intro heq
      have hback := unescape_escape x
      rcases List.append_eq_singleton_iff.mp heq with ⟨hnil, -⟩ | ⟨hone, -⟩
      · rw [hnil] at hback
        exact hx (Option.some.inj hback).symm
      · rw [hone] at hback
        exact hstar (Option.some.inj hback).symm
    · intro q heq
      have hback := unescape_escape x
      rw [heq] at hback
      obtain ⟨out, hout, -⟩ := unescape_head (by decide) hback
      exact hslash out hout

/-- The path goes on with a slash after the prefix of the route, or is the prefix and a star. -/
def GoesOn (route : ServiceRoute) (u : ClientURL) : Prop :=
  (∃ q, ingressPath u = bytes route.routePrefix ++ byte '/' :: q) ∨
    ingressPath u = bytes route.routePrefix ++ bytes "*" ∧ u.search = none

theorem ingressPath_rooted (h : UnderApiBase u) : ∃ q, ingressPath u = byte '/' :: q ∧ q.all wireByte = true := by
  obtain ⟨rest, hpath, hrest⟩ := h
  have hwire := u.pathname_wire
  rw [hpath, List.all_append, Bool.and_eq_true] at hwire
  have hdrop : u.pathname.drop 4 = rest := by
    rw [hpath]
    rfl
  unfold ingressPath
  rw [hdrop]
  rcases hrest with rfl | ⟨q, rfl⟩
  · exact ⟨[], rfl, rfl⟩
  · rw [List.all_cons, Bool.and_eq_true] at hwire
    exact ⟨q, if_neg nofun, hwire.2.2⟩

theorem normalizeHtu_under (h : UnderApiBase u) (text : Bytes) :
    normalizeHtu text (some u) = u.origin ++ ingressPath u := by
  obtain ⟨rest, hpath, -⟩ := h
  have hprefix : (bytes "/api").isPrefixOf u.pathname = true := by
    rw [hpath]
    exact List.isPrefixOf_iff_prefix.mpr (List.prefix_append _ _)
  unfold normalizeHtu ingressPath
  dsimp only
  rw [if_pos hprefix]

theorem mem_ingressPath (h : UnderApiBase u) : byte '%' ∈ u.pathname ↔ byte '%' ∈ ingressPath u := by
  obtain ⟨rest, hpath, hrest⟩ := h
  have hdrop : u.pathname.drop 4 = rest := by
    rw [hpath]
    rfl
  have hapi : byte '%' ∉ bytes "/api" := by decide
  unfold ingressPath
  rw [hdrop, hpath, List.mem_append, or_iff_right hapi]
  rcases hrest with rfl | ⟨q, rfl⟩
  · exact ⟨fun hmem => absurd hmem (List.not_mem_nil), fun hmem => absurd hmem (by decide)⟩
  · rw [if_neg nofun]

/-- The request as it reaches the gateway, with its path decoded. -/
theorem atGateway_eq (h : UnderApiBase u) : atGateway validAuthority u =
    (setPath (ingressPath u) u.search).map fun url =>
      ⟨url, u.host, false, u.protocol, u.host, bytes "/api"⟩ := by
  obtain ⟨q, hq, hwire⟩ := ingressPath_rooted h
  unfold atGateway
  rw [hq, parseRequest_rooted validAuthority hwire u.search_wire]

/-- What a backend reconstructs of a request the gateway has received. -/
theorem requestHTU_received {url' : Url}
    (h : atBackend validAuthority route ⟨url, u.host, false, u.protocol, u.host, bytes "/api"⟩ = some req)
    (hurl : parseRequest validAuthority
      (director route ⟨url, u.host, false, u.protocol, u.host, bytes "/api"⟩).url.requestURI = some url') :
    requestHTU req = u.origin ++ ((if route.stripPrefix then bytes route.routePrefix else []) ++ url'.path) := by
  unfold atBackend at h
  rw [hurl, Option.map_some, Option.some.injEq] at h
  subst h
  unfold requestHTU director
  cases route.stripPrefix <;> simp [u.protocol_ne, u.host_ne, ClientURL.origin]

theorem unescape_eq_iff {s : Bytes} (h : unescape s = some path) : path = s ↔ byte '%' ∉ s := by
  constructor
  · rintro rfl hmem
    have hshort := (length_unescape h).2 hmem
    omega
  · intro hplain
    exact Option.some.inj (h.symm.trans (unescape_plain hplain))

/-- What a request is on the way to the backend of a route, and what is left of its path there. -/
theorem reconstructed_eq {routes : List ServiceRoute} {method : String} (h : UnderApiBase u)
    (hurl : setPath (ingressPath u) u.search = some url) (hroute : routeFor routes url.path method = some route) :
    reconstructed validAuthority routes method u =
      (parseRequest validAuthority
        (director route ⟨url, u.host, false, u.protocol, u.host, bytes "/api"⟩).url.requestURI).map fun url' =>
          u.origin ++ ((if route.stripPrefix then bytes route.routePrefix else []) ++ url'.path) := by
  unfold reconstructed
  rw [atGateway_eq h, hurl]
  simp only [Option.map_some, Option.bind_eq_bind, Option.bind_some, hroute]
  cases hparsed : parseRequest validAuthority
      (director route ⟨url, u.host, false, u.protocol, u.host, bytes "/api"⟩).url.requestURI with
  | none =>
    unfold atBackend
    rw [hparsed]
    rfl
  | some url' =>
    have hreq : atBackend validAuthority route ⟨url, u.host, false, u.protocol, u.host, bytes "/api"⟩ = some
        { director route ⟨url, u.host, false, u.protocol, u.host, bytes "/api"⟩ with
          url := url', host := bytes route.targetURL, tls := false } := by
      unfold atBackend
      rw [hparsed]
      rfl
    rw [hreq, Option.bind_some, requestHTU_received hreq hparsed]
    rfl

/-- The rest of a path that a stripping route hands on unchanged. -/
def HandedOn (x : Bytes) (query : Option Bytes) : Prop := (∃ q, x = byte '/' :: q) ∨ x = bytes "*" ∧ query = none

theorem goesOn_iff {x : Bytes} (hplain : ingressPath u = bytes route.routePrefix ++ x) :
    GoesOn route u ↔ HandedOn x u.search := by
  unfold GoesOn HandedOn
  rw [hplain, List.append_right_inj]
  exact or_congr_left (exists_congr fun q => List.append_right_inj _)

section Stripping

variable {v : Url} {x : Bytes}

theorem received_handedOn (validAuthority : Bytes → Bool) (hv : Rooted v) (hquery : WireQuery v.query) (hx : HandedOn x v.query) :
    ∃ url', parseRequest validAuthority { v with path := x }.requestURI = some url' ∧ url'.path = x := by
  rcases hx with ⟨q, rfl⟩ | ⟨rfl, hnone⟩
  · have hrooted : Rooted { v with path := byte '/' :: q } := ⟨⟨q, rfl⟩, hv.rawPath⟩
    exact received_rooted validAuthority hrooted hquery
  · have hslash : ∀ q, bytes "*" ≠ byte '/' :: q := fun q heq => absurd (List.cons.inj heq).1 (by decide)
    have hescaped : Url.escapedPath { v with path := bytes "*" } = bytes "*" :=
      (escapedPath_unrooted (rfl : Url.path { v with path := bytes "*" } = _) hslash hv.rawPath).trans (if_pos rfl)
    have huri : Url.requestURI { v with path := bytes "*" } = bytes "*" ++ queryText none := by
      unfold Url.requestURI
      rw [hescaped, hnone]
      rfl
    rw [huri]
    exact ⟨_, rfl, rfl⟩

/-- Anything else is refused or arrives with another length. -/
theorem received_strayed {url' : Url} (hv : Rooted v) (hquery : WireQuery v.query) (hx : ¬ HandedOn x v.query)
    (h : parseRequest validAuthority { v with path := if x = [] then bytes "/" else x }.requestURI = some url') :
    url'.path.length = x.length + 1 ∨ url'.path.length < x.length := by
  split at h
  · rename_i hempty
    subst hempty
    have hrooted : Rooted { v with path := bytes "/" } := ⟨⟨[], rfl⟩, hv.rawPath⟩
    obtain ⟨url'', hparsed, hsame⟩ := received_rooted validAuthority hrooted hquery
    obtain rfl := Option.some.inj (h.symm.trans hparsed)
    rw [hsame]
    exact .inl rfl
  · rename_i hne
    rcases received_unrooted (rfl : (Url.mk x v.rawPath v.query).path = x) hne (fun q heq => hx (.inl ⟨q, heq⟩)) hv.rawPath h with ⟨hstar, hnone, -⟩ | ⟨-, hlt⟩
    · exact absurd (.inr ⟨hstar, hnone⟩) hx
    · exact .inr hlt

end Stripping

/-- The two sides agree exactly where the path has no escape and, behind a stripping route, goes on
with a slash. -/
theorem htu_agrees_iff {getenv : String → String} {method : String} {url : Url} {route : ServiceRoute}
    (validAuthority : Bytes → Bool) (text : Bytes) {u : ClientURL} (h : UnderApiBase u)
    (hurl : setPath (ingressPath u) u.search = some url)
    (hroute : routeFor (loadRoutes getenv) url.path method = some route) :
    reconstructed validAuthority (loadRoutes getenv) method u = some (normalizeHtu text (some u)) ↔
      byte '%' ∉ u.pathname ∧ (route.stripPrefix = true → GoesOn route u) := by
  obtain ⟨q, hq, -⟩ := ingressPath_rooted h
  have hrooted : Rooted url := by
    rw [hq] at hurl
    exact rooted_setPath hurl
  have hdecoded := setPath_path hurl
  have hquery : url.query = u.search := by
    obtain ⟨_, -, rfl⟩ := Option.map_eq_some_iff.mp hurl
    rfl
  obtain ⟨hpath, hdirected, hkept⟩ := originalDirector_rooted hrooted
  rw [hquery] at hkept
  have hsearch : WireQuery (originalDirector url).query := by
    rw [hkept]
    exact u.search_wire
  rw [reconstructed_eq h hurl hroute, normalizeHtu_under h, mem_ingressPath h, ← unescape_eq_iff hdecoded]
  cases hstrip : route.stripPrefix with
  | false =>
    -- the path arrives as it was decoded
    have hurl' : (director route ⟨url, u.host, false, u.protocol, u.host, bytes "/api"⟩).url =
        originalDirector url := by
      simp [director, hstrip]
    obtain ⟨url', hparsed, hsame⟩ := received_rooted validAuthority hdirected hsearch
    rw [hurl', hparsed, Option.map_some, hsame, hpath, Option.some.injEq, List.append_right_inj]
    simp
  | true =>
    obtain ⟨x, hx⟩ := accepts_prefix (routeFor_accepts hroute)
    have hurl' : (director route ⟨url, u.host, false, u.protocol, u.host, bytes "/api"⟩).url =
        { originalDirector url with path := if x = [] then bytes "/" else x } := by
      simp [director, hstrip, hpath, hx, stripped_append]
    rw [hurl']
    by_cases hgoes : HandedOn x u.search
    · have hne : x ≠ [] := by
        rintro rfl
        rcases hgoes with ⟨q, heq⟩ | ⟨heq, -⟩ <;> cases heq
      obtain ⟨url', hparsed, hsame⟩ := received_handedOn validAuthority hdirected hsearch
        (hkept ▸ hgoes)
      rw [if_neg hne, hparsed, Option.map_some, hsame, Option.some.injEq, List.append_right_inj, if_pos rfl, ← hx]
      exact ⟨fun heq => ⟨heq, fun _ => (goesOn_iff (heq ▸ hx)).mpr hgoes⟩, And.left⟩
    · constructor
      · intro heq
        obtain ⟨url', hparsed, hsame⟩ := Option.map_eq_some_iff.mp heq
        rw [List.append_right_inj, if_pos rfl] at hsame
        have hstrayed := received_strayed hdirected hsearch (hkept ▸ hgoes) hparsed
        have hlong : (ingressPath u).length = (bytes route.routePrefix).length + url'.path.length := by
          rw [← hsame, List.length_append]
        have hshort : url.path.length = (bytes route.routePrefix).length + x.length := by
          rw [hx, List.length_append]
        have hlength := length_unescape hdecoded
        by_cases hmem : byte '%' ∈ ingressPath u
        · have hescaped := hlength.2 hmem
          omega
        · have hplain := congrArg List.length ((unescape_eq_iff hdecoded).mpr hmem)
          omega
      · rintro ⟨heq, hstripped⟩
        exact absurd ((goesOn_iff (heq ▸ hx)).mp (hstripped rfl)) hgoes

section Samples

def sampleEnv (name : String) : String :=
  if name = "AUTH_SERVICE_URL" then "http://auth:8081" else if name = "ROOM_SERVICE_URL" then "http://room:8082" else ""

def sampleURL (pathname : Bytes) (h : pathname.all wireByte = true) : ClientURL :=
  { protocol := bytes "https", host := bytes "chat.local", pathname := pathname, search := none, hash := none
    protocol_ne := by decide, host_ne := by decide, pathname_wire := h, search_wire := fun _ hq => nomatch hq }

def loginURL : ClientURL := sampleURL (bytes "/api/auth/login") (by decide +kernel)

def spacedURL : ClientURL := sampleURL (bytes "/api/rooms/a%20b") (by decide +kernel)

theorem login_agrees :
    reconstructed (fun _ => true) (loadRoutes sampleEnv) "POST" loginURL =
      some (normalizeHtu (bytes "/api/auth/login") (some loginURL)) := by
  have hunder : UnderApiBase loginURL := ⟨bytes "/auth/login", rfl, .inr ⟨_, rfl⟩⟩
  have hurl : setPath (ingressPath loginURL) loginURL.search = some ⟨bytes "/auth/login", [], none⟩ := by
    decide +kernel
  have hroute : routeFor (loadRoutes sampleEnv) (bytes "/auth/login") "POST" =
      some ⟨"/auth", "", [], "http://auth:8081", true⟩ := by
    decide +kernel
  refine (htu_agrees_iff (fun _ => true) (bytes "/api/auth/login") hunder hurl hroute).mpr ⟨by decide +kernel, ?_⟩
  exact fun _ => .inl ⟨bytes "login", by decide +kernel⟩

/-- The client signs the escape, the backend rebuilds the address with a blank in it. -/
theorem spaced_differs : UnderApiBase spacedURL ∧
    normalizeHtu (bytes "/api/rooms/a%20b") (some spacedURL) = bytes "https://chat.local/rooms/a%20b" ∧
    reconstructed (fun _ => true) (loadRoutes sampleEnv) "GET" spacedURL =
      some (bytes "https://chat.local/rooms/a b") ∧
    reconstructed (fun _ => true) (loadRoutes sampleEnv) "GET" spacedURL ≠
      some (normalizeHtu (bytes "/api/rooms/a%20b") (some spacedURL)) :=
  ⟨⟨bytes "/rooms/a%20b", rfl, .inr ⟨_, rfl⟩⟩, by decide +kernel, by decide +kernel, by decide +kernel⟩

end Samples

end Chinwag.Gateway
