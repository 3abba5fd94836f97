/-
  SearchGateway.Proofs.Session

  What a gateway does over a whole session.  The gateway keeps no state between
  requests, so a session is settled one visit at a time; what stands behind the
  gateway may change from visit to visit.
-/
import SearchGateway.Proofs.Calls

namespace SearchGateway.Gateway

open SearchGateway.Backend (Call Script Service Transport)
open SearchGateway.Config (Settings)
open SearchGateway.Http (Request Response)
open SearchGateway.Query (Collection SearchRequest)

/-! ## Sessions -/

/-- What stands behind a gateway. -/
inductive Backing where
  | scripted (script : Script)
  /-- The client that the settings configure, if they configure one, on a transport. -/
  | configured (transport : Transport)

/-- The server of some settings. -/
def Backing.server? (settings : Settings) : Backing → Option Server
  | scripted script => Server.make? settings.port settings.corsOrigins (some script.service)
  | configured transport => Server.ofSettings? settings transport

/-- A request with all that its response may depend on. -/
structure Visit where
  backing : Backing
  uptimeSecs : Nat
  now : Timestamp
  request : Request

/-- A request, its response and the calls that are made in between. -/
structure Exchange where
  request : Request
  response : Response
  calls : List Call

/-- What a server does for one visit. -/
def Visit.exchange (visit : Visit) (server : Server) : Exchange :=
  let (response, call) := server.handle visit.uptimeSecs visit.now visit.request
  ⟨visit.request, response, call.toList⟩

/-- What the gateway of some settings does over a session; none when it cannot be set up. -/
def record (settings : Settings) : List Visit → Option (List Exchange)
  | [] => some []
  | visit :: visits => do
    let server ← visit.backing.server? settings
    let exchanges ← record settings visits
    some (visit.exchange server :: exchanges)

/-! ## One visit -/

/-- A code of an error that the gateway finds by itself. -/
def IsLocalCode (code : String) : Prop :=
  "CRM_QUERY_".toList <+: code.toList ∨ code = "CRM_GATEWAY_INVALID_BODY" ∨
    code = "CRM_BACKEND_CREDENTIAL_MISSING"

/-- An exchange in which the backend is called in order. -/
structure Exchange.Orderly (exchange : Exchange) : Prop where
  atMostOne : exchange.calls.length ≤ 1
  named : ∀ call ∈ exchange.calls, Names exchange.request.method exchange.request.path call
  bounded : ∀ collection request, .search collection request ∈ exchange.calls →
    collection ∈ Collection.all ∧ SearchRequest.Bounded request
  refused : (400 ≤ exchange.response.status ∧ exchange.response.status < 500) ∨
    exchange.response.status = 503 → exchange.calls = []
  faulty : ∀ code, errorCode? exchange.response = some code → IsLocalCode code →
    exchange.calls = []

theorem not_isLocalCode_downstream : ¬ IsLocalCode "CRM_BACKEND_DOWNSTREAM_FAILURE" := by
  rintro (hquery | hbody | hmissing)
  · exact absurd hquery (by decide)
  · exact absurd hbody (by decide)
  · exact absurd hmissing (by decide)

/-- Calls that are named and within bounds, and that come with a response to what the backend said,
    make an exchange orderly. -/
theorem Exchange.Orderly.of_call {request : Request} {response : Response} {call : Option Call}
    (h : ∀ made ∈ call, (Names request.method request.path made ∧ InBounds made) ∧
      Answered response) :
    (Exchange.mk request response call.toList).Orderly := by
  cases call with
  | none =>
    exact ⟨Nat.zero_le _, fun _ hmem => (nomatch hmem), fun _ _ hmem => (nomatch hmem),
      fun _ => rfl, fun _ _ _ => rfl⟩
  | some made =>
    obtain ⟨⟨hnames, hbounds⟩, hstatus, hcode⟩ := h made rfl
    refine ⟨Nat.le_refl _, fun call hmem => ?_, fun collection search hmem => ?_,
      fun hrefused => ?_, fun code hfound hlocal => ?_⟩
    · obtain rfl := List.mem_singleton.mp hmem
      exact hnames
    · rw [← List.mem_singleton.mp hmem] at hbounds
      exact hbounds
    · -- a response after a call has a status that no refusal has
      have hstatus : response.status = 200 ∨ response.status = 500 := hstatus
      have hrefused : (400 ≤ response.status ∧ response.status < 500) ∨ response.status = 503 :=
        hrefused
      omega
    · rw [hcode code hfound] at hlocal
      exact absurd hlocal not_isLocalCode_downstream

/-- Headers and the form of the content that is sent change neither status nor error code. -/
theorem answered_congr {response response' : Response}
    (hstatus : response'.status = response.status) (hcontent : response'.content = response.content) (h : Answered response) :
    Answered response' := by
  have hcode : errorCode? response' = errorCode? response := by
    rw [errorCode?, hcontent, errorCode?]
  rw [Answered, hstatus, hcode]
  exact h

/-- Whatever a server with a backend that is there does for a visit is orderly. -/
theorem Visit.exchange_orderly {server : Server}
    (hbackend : ∀ service ∈ server.backend, Present service) (visit : Visit) :
    (visit.exchange server).Orderly := by
  unfold Visit.exchange Server.handle
  by_cases hoptions : visit.request.method = .options
  · rw [if_pos hoptions]
    exact .of_call fun _ hmem => nomatch hmem
  · rw [if_neg hoptions]
    have hrun := (Server.plan_guarded (server.status visit.uptimeSecs visit.now)
      visit.request).run hbackend
    refine .of_call fun call hmem => ?_
    obtain ⟨hcall, hanswered⟩ := hrun call hmem
    refine ⟨hcall, ?_⟩
    split
    · exact answered_congr rfl rfl hanswered
    · exact answered_congr rfl rfl hanswered

/-! ## Whole sessions -/

/-- The policy of origins among which the wildcard is not. -/
theorem Cors.ofOrigins?_eq {origins : List String} (h : "*" ∉ origins) :
    ofOrigins? origins =
      some (if origins = [] then any else listed (origins.filter Http.isHeaderValue)) := by
  have hlegal : (origins.filter Http.isHeaderValue).contains "*" = false := by
    rw [List.contains_eq_mem, decide_eq_false_iff_not]
    exact fun hmem => h (List.mem_filter.mp hmem).1
  unfold ofOrigins?
  cases origins with
  | nil => rfl
  | cons origin origins =>
    rw [if_neg (List.cons_ne_nil _ _)]
    simp only [List.isEmpty_cons, hlegal, Bool.false_eq_true, if_false]

/-- Without the wildcard a server is set up, and a backend of it is there. -/
theorem Backing.server?_spec {settings : Settings} (h : "*" ∉ settings.corsOrigins)
    (backing : Backing) :
    ∃ server, backing.server? settings = some server ∧
      ∀ service ∈ server.backend, Present service := by
  obtain ⟨cors, hcors⟩ : ∃ cors, Cors.ofOrigins? settings.corsOrigins = some cors :=
    ⟨_, Cors.ofOrigins?_eq h⟩
  have hmake (backend : Option Service) :
      Server.make? settings.port settings.corsOrigins backend =
        some ⟨settings.port, cors, backend⟩ := by
    rw [Server.make?, hcors]
    rfl
  cases backing with
  | scripted script =>
    refine ⟨_, hmake _, fun service hservice => ?_⟩
    obtain rfl := Option.some.inj hservice
    exact present_script script
  | configured transport =>
    refine ⟨_, hmake _, fun service hservice => ?_⟩
    obtain ⟨client, -, rfl⟩ := Option.map_eq_some_iff.mp hservice
    exact present_client client transport

/-- A gateway whose origins do not list the wildcard goes through every session, and in each
    exchange it calls the backend in order: at most once, as the route names it, within the bounds,
    and not at all for a request that it refuses. -/
theorem record_orderly {settings : Settings} (h : "*" ∉ settings.corsOrigins)
    (visits : List Visit) :
    ∃ exchanges, record settings visits = some exchanges ∧
      exchanges.map (·.request) = visits.map (·.request) ∧
      ∀ exchange ∈ exchanges, exchange.Orderly := by
  -- nothing is carried from one visit to the next, so the induction hypothesis is enough
  induction visits with
  | nil => exact ⟨[], rfl, rfl, fun _ hmem => nomatch hmem⟩
  | cons visit visits ih =>
    obtain ⟨exchanges, hrecord, hrequests, horderly⟩ := ih
    obtain ⟨server, hserver, hbackend⟩ := Backing.server?_spec h visit.backing
    refine ⟨visit.exchange server :: exchanges, ?_, ?_, ?_⟩
    · rw [record, hserver, hrecord]
      rfl
    · rw [List.map_cons, List.map_cons, hrequests]
      rfl
    · intro exchange hmem
      rcases List.mem_cons.mp hmem with rfl | hrest
      · exact Visit.exchange_orderly hbackend visit
      · exact horderly exchange hrest

/-- Settings that list one origin. -/
def guardedSettings : Settings where
  corsOrigins := ["https://app.example"]

/-- A session in front of a script: a search by text, one that names no collection, one of a
    collection that is not supported, an update, and a preflight. -/
def guardedSession : List Visit :=
  let visit (request : Request) : Visit := ⟨.scripted {}, 0, ⟨0⟩, request⟩
  [visit ⟨.post, "/graphql".toList, [],
      Text.Utf8.ofString "\x7b\"query\": \"\x7b deals \x7b total \x7d \x7d\"\x7d"⟩,
    visit ⟨.post, "/graphql".toList, [], Text.Utf8.ofString "\x7b\x7d"⟩,
    visit ⟨.post, "/api/search/nothing".toList, [], []⟩,
    visit ⟨.patch, "/api/hubspot/deals/7?x=1".toList, [("content-type", "application/json")],
      Text.Utf8.ofString "\x7b\x7d"⟩,
    visit ⟨.options, "/graphql".toList, [], []⟩]

theorem record_orderly_guarded :
    "*" ∉ guardedSettings.corsOrigins ∧
      ∃ exchanges, record guardedSettings guardedSession = some exchanges ∧
        exchanges.map (·.calls.length) = [1, 0, 0, 1, 0] ∧
        ∀ exchange ∈ exchanges, exchange.Orderly := by
  have horigins : "*" ∉ guardedSettings.corsOrigins := by decide
  have hcounts : (record guardedSettings guardedSession).map (·.map (·.calls.length)) =
      some [1, 0, 0, 1, 0] := by decide +kernel
  obtain ⟨exchanges, hrecord, -, horderly⟩ := record_orderly horigins guardedSession
  rw [hrecord] at hcounts
  exact ⟨horigins, exchanges, hrecord, Option.some.inj hcounts, horderly⟩

end SearchGateway.Gateway
