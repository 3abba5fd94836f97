/-
  SearchGateway.Proofs.Answers

  The answer to a search, whichever way it is asked for.  A search passes through
  stages that stand in an order: its text has to be readable and to be accepted, a
  backend has to be there, and the backend has to find something.  The first stage
  that fails settles the answer, and only the last one makes a call.
-/
import SearchGateway.Proofs.Calls
import SearchGateway.Proofs.Verdict

namespace SearchGateway.Gateway

open SearchGateway.Backend (BackendError Call Item Script SearchResponse Service)
open SearchGateway.Http (Request Response)
open SearchGateway.Json (Value)
open SearchGateway.Query (Collection QueryError Search SearchBody)

/-- A member of the JSON object that a response carries. -/
def field? (name : String) (response : Response) : Option Value :=
  match response.content with
  | .json content => member? name content
  | _ => none

/-! ## Requests with content -/

/-- A request that asks neither for options nor for headers alone is answered as its route plans,
    with the headers for its origin. -/
theorem Server.handle_route {server : Server} {request : Request} {route : Route}
    (hoptions : request.method ≠ .options) (hhead : request.method ≠ .head)
    (hroute : Route.ofPath? request.path = some route) (uptimeSecs : Nat) (now : Timestamp) :
    server.handle uptimeSecs now request =
      let run := (route.plan (server.status uptimeSecs now) request).run server.backend
      (run.1.withHeaders (server.cors.responseHeaders request), run.2) := by
  rw [Server.handle, if_neg hoptions, Server.plan, hroute]
  simp only [if_neg hhead]

theorem Server.handle_post {server : Server} {request : Request} {route : Route}
    (hmethod : request.method = .post) (hroute : Route.ofPath? request.path = some route)
    (uptimeSecs : Nat) (now : Timestamp) :
    server.handle uptimeSecs now request =
      let run := (route.plan (server.status uptimeSecs now) request).run server.backend
      (run.1.withHeaders (server.cors.responseHeaders request), run.2) :=
  Server.handle_route (by rw [hmethod]; exact nofun) (by rw [hmethod]; exact nofun) hroute
    uptimeSecs now

/-- A body of at most 2097152 bytes is read. -/
theorem isTooLarge_eq_false {body : List UInt8} (h : body.length ≤ 2097152) :
    isTooLarge body = false := by
  rw [isTooLarge, decide_eq_false_iff_not]
  exact Nat.not_lt.mpr h

/-! ## Structured searches -/

/-- A response that refuses a search of an endpoint. -/
structure Refuses (endpoint : String) (status : Nat) (code message : String)
    (supported : Option (List String)) (response : Response) : Prop where
  status : response.status = status
  code : field? "code" response = some (.string code)
  message : field? "error" response = some (.string message)
  endpoint : field? "endpoint" response = some (.string endpoint)
  supported : field? "supported_endpoints" response = supported.map Value.strings

/-- A JSON object that holds an object of the backend: its id and all of its properties, and nothing
    else. -/
structure HoldsObject (item : Item) (data : Value) : Prop where
  id : member? "id" data = some (.string item.id)
  properties : member? "properties" data = some (.object item.properties)
  others : ∀ name ∉ ["id", "properties"], member? name data = none

/-- A JSON object that holds what a search has found: the total, where it is known, the objects in
    their order, the paging information, where there is some, and nothing else. -/
structure HoldsFound (found : SearchResponse) (data : Value) : Prop where
  total : member? "total" data = found.total.map .ofNat
  results : ∃ items, member? "results" data = some (.array items) ∧
    List.Forall₂ HoldsObject found.results items
  paging : member? "paging" data = found.paging
  others : ∀ name ∉ ["total", "results", "paging"], member? name data = none

/-- A response that shows what a search of an endpoint has found. -/
structure Shows (endpoint : String) (search : Search) (found : SearchResponse)
    (response : Response) : Prop where
  status : response.status = 200
  success : field? "success" response = some (.bool true)
  data : field? "data" response = some found.toJson
  holds : HoldsFound found found.toJson
  endpoint : field? "endpoint" response = some (.string endpoint)
  size : field? "request_body_size" response =
    some (.ofNat (Text.Utf8.ofString search.request.wire).length)
  supported : field? "supported_endpoints" response = none

/-- What the body of a structured search holds; a body of whitespace holds an empty search. -/
inductive Holds (body : List UInt8) : SearchBody → Prop
  | nothing (blank : body.all isAsciiSpace = true) : Holds body {}
  | parsed {searchBody : SearchBody} (shown : body.all isAsciiSpace = false)
      (parses : SearchBody.parse body = .ok searchBody) : Holds body searchBody

/-- The search that a body asks for at an endpoint. -/
def Asks (endpoint : String) (body : List UInt8) (search : Search) : Prop :=
  ∃ searchBody, Holds body searchBody ∧ Query.validate endpoint searchBody = .ok search

/-- The answer to a structured search and the call that is made for it: the first stage that fails
    settles them.  A backend that is asked may itself be without a credential.  The message of a
    fault leaves out its line and column. -/
inductive SearchAnswer (backend : Option Service) (endpoint : String) (body : List UInt8) :
    Response × Option Call → Prop
  | unsupported {response : Response} (unknown : endpoint ∉ Collection.identifiers)
      (refuses : Refuses endpoint 400 "CRM_QUERY_UNSUPPORTED_ENDPOINT"
        ("Unsupported endpoint '" ++ endpoint ++ "'") (some Collection.identifiers) response) :
      SearchAnswer backend endpoint body (response, none)
  | unreadable {response : Response} {fault : Json.Fault}
      (known : endpoint ∈ Collection.identifiers) (shown : body.all isAsciiSpace = false)
      (faulty : SearchBody.parse body = .error fault)
      (refuses : Refuses endpoint 400 "CRM_GATEWAY_INVALID_BODY"
        ("Invalid request body: " ++ fault.message) none response) :
      SearchAnswer backend endpoint body (response, none)
  | rejected {response : Response} {searchBody : SearchBody} {e : QueryError}
      (known : endpoint ∈ Collection.identifiers) (holds : Holds body searchBody)
      (rejects : Query.validate endpoint searchBody = .error e)
      (refuses : Refuses endpoint 400 e.code e.message none response) :
      SearchAnswer backend endpoint body (response, none)
  | unconfigured {response : Response} {search : Search} (asks : Asks endpoint body search)
      (absent : backend = none)
      (refuses : Refuses endpoint 503 "CRM_BACKEND_CREDENTIAL_MISSING" "HubSpot not configured"
        none response) :
      SearchAnswer backend endpoint body (response, none)
  | failed {response : Response} {search : Search} {service : Service} {message : String}
      (asks : Asks endpoint body search) (present : backend = some service)
      (fails : service (.search search.collection search.request) = .error (.downstream message))
      (refuses : Refuses endpoint 500 "CRM_BACKEND_DOWNSTREAM_FAILURE" message none response) :
      SearchAnswer backend endpoint body
        (response, some (.search search.collection search.request))
  | withheld {response : Response} {search : Search} {service : Service}
      (asks : Asks endpoint body search) (present : backend = some service)
      (fails : service (.search search.collection search.request) = .error .credentialMissing)
      (refuses : Refuses endpoint 503 "CRM_BACKEND_CREDENTIAL_MISSING" "HubSpot not configured"
        none response) :
      SearchAnswer backend endpoint body
        (response, some (.search search.collection search.request))
  | found {response : Response} {search : Search} {service : Service} {found : SearchResponse}
      (asks : Asks endpoint body search) (present : backend = some service)
      (finds : service (.search search.collection search.request) = .ok found)
      (shows : Shows endpoint search found response) :
      SearchAnswer backend endpoint body
        (response, some (.search search.collection search.request))

theorem refuses_searchFailure (endpoint : String) (error : GatewayError) :
    Refuses endpoint error.status error.code error.message error.supportedEndpoints
      (searchFailure endpoint error) := by
  refine ⟨rfl, rfl, rfl, rfl, ?_⟩
  -- the names are the last member, and only if there are some
  cases hnames : error.supportedEndpoints with
  | none =>
    rw [searchFailure, hnames]
    rfl
  | some names =>
    rw [searchFailure, hnames]
    rfl

theorem member?_eq_none {name : String} {members : List (String × Value)}
    (h : name ∉ members.map Prod.fst) : member? name (.object members) = none := by
  refine List.lookup_eq_none_iff.mpr fun entry hentry => ?_
  refine bne_iff_ne.mpr ?_
  rintro rfl
  exact h (List.mem_map_of_mem hentry)

theorem holdsObject_toJson (item : Item) : HoldsObject item item.toJson :=
  ⟨rfl, rfl, fun _ h => member?_eq_none h⟩

theorem holdsFound_toJson (found : SearchResponse) : HoldsFound found found.toJson := by
  have hitems : List.Forall₂ HoldsObject found.results (found.results.map Item.toJson) := by
    rw [List.forall₂_map_right_iff, List.forall₂_same]
    exact fun item _ => holdsObject_toJson item
  have hnames : ∀ name ∉ ["total", "results", "paging"], member? name found.toJson = none := by
    intro name hname
    refine member?_eq_none fun hmem => hname ?_
    simp only [List.map_append, List.mem_append, List.mem_map, Option.mem_toList,
      Option.map_eq_some_iff] at hmem
    rcases hmem with (⟨_, ⟨_, -, rfl⟩, rfl⟩ | ⟨_, hresults, rfl⟩) | ⟨_, ⟨_, -, rfl⟩, rfl⟩
    · simp
    · simp [List.mem_singleton.mp hresults]
    · simp
  obtain ⟨total, results, paging⟩ := found
  -- a member is found behind those that may be left out
  cases total <;> cases paging <;> exact ⟨rfl, ⟨_, rfl, hitems⟩, rfl, hnames⟩

theorem shows_searchSuccess (endpoint : String) (search : Search) (found : SearchResponse) :
    Shows endpoint search found (searchSuccess endpoint search found) :=
  ⟨rfl, rfl, rfl, holdsFound_toJson found, rfl, rfl, rfl⟩

theorem Refuses.withHeaders {endpoint code message : String} {status : Nat}
    {supported : Option (List String)} {response : Response}
    (h : Refuses endpoint status code message supported response) (headers : Http.Headers) :
    Refuses endpoint status code message supported (response.withHeaders headers) :=
  ⟨h.status, h.code, h.message, h.endpoint, h.supported⟩

theorem Shows.withHeaders {endpoint : String} {search : Search} {found : SearchResponse}
    {response : Response} (h : Shows endpoint search found response) (headers : Http.Headers) :
    Shows endpoint search found (response.withHeaders headers) :=
  ⟨h.status, h.success, h.data, h.holds, h.endpoint, h.size, h.supported⟩

/-- A body holds what is read from it. -/
theorem parseSearchBody_eq_ok_iff {body : List UInt8} {searchBody : SearchBody} :
    parseSearchBody body = .ok searchBody ↔ Holds body searchBody := by
  unfold parseSearchBody
  constructor
  · intro h
    split at h
    · rename_i hblank
      obtain rfl := Except.ok.inj h
      exact .nothing hblank
    · rename_i hshown
      exact .parsed (by simpa using hshown) (eq_ok_of_mapError h)
  · intro h
    cases h with
    | nothing blank => rw [if_pos blank]
    | parsed shown parses =>
      rw [shown, if_neg Bool.false_ne_true, parses]
      rfl

theorem parameter_of_spells {part : List Char} {text : String} (h : Spells part text)
    (name : String) : parameter name part = .ok text := by
  rw [parameter, h.2]
  exact congrArg Except.ok (String.ofList_toList)

/-- A cap that is broken is no matter of the endpoint. -/
theorem supportedEndpoints_of_breach {groups : List Query.FilterGroup} {e : QueryError}
    (h : Query.Breach groups e) : e.supportedEndpoints = none := by
  cases h with
  | groups count => rfl
  | filters count found size first => rfl
  | total count sizes sum => rfl

/-- A rejection at an endpoint that is known names no endpoints. -/
theorem supportedEndpoints_of_known {endpoint : String} {searchBody : SearchBody} {e : QueryError}
    (hknown : endpoint ∈ Collection.identifiers)
    (h : Query.validate endpoint searchBody = .error e) : e.supportedEndpoints = none := by
  cases Query.validate_eq_iff_verdict.mp h with
  | unsupported unknown => exact absurd hknown unknown
  | breach known breaks => exact supportedEndpoints_of_breach breaks

theorem SearchAnswer.withHeaders {backend : Option Service} {endpoint : String}
    {body : List UInt8} {response : Response} {call : Option Call}
    (h : SearchAnswer backend endpoint body (response, call)) (headers : Http.Headers) :
    SearchAnswer backend endpoint body (response.withHeaders headers, call) := by
  cases h with
  | unsupported unknown refuses => exact .unsupported unknown (refuses.withHeaders headers)
  | unreadable known shown faulty refuses =>
    exact .unreadable known shown faulty (refuses.withHeaders headers)
  | rejected known holds rejects refuses =>
    exact .rejected known holds rejects (refuses.withHeaders headers)
  | unconfigured asks absent refuses =>
    exact .unconfigured asks absent (refuses.withHeaders headers)
  | failed asks present fails refuses =>
    exact .failed asks present fails (refuses.withHeaders headers)
  | withheld asks present fails refuses =>
    exact .withheld asks present fails (refuses.withHeaders headers)
  | found asks present finds shows =>
    exact .found asks present finds (shows.withHeaders headers)

section Search

variable {backend : Option Service} {part : List Char} {endpoint : String} {body : List UInt8}

/-- The plan of a search at an endpoint that is spelled, for a body that is not too large. -/
theorem searchPlan_of_spells (hspells : Spells part endpoint) (hsize : body.length ≤ 2097152) :
    searchPlan part body =
      match validateBody endpoint body with
      | .error e => .answer (searchFailure endpoint e)
      | .ok search =>
        .ask (.search search.collection search.request) fun
          | .error e => searchFailure endpoint (.backend e)
          | .ok response => searchSuccess endpoint search response := by
  rw [searchPlan, parameter_of_spells hspells, Plan.need, isTooLarge_eq_false hsize]
  rfl

/-- At an endpoint that is known the body is read and then validated. -/
theorem validateBody_of_known (hknown : endpoint ∈ Collection.identifiers)
    (body : List UInt8) :
    validateBody endpoint body =
      match parseSearchBody body with
      | .error e => .error e
      | .ok searchBody => (Query.validate endpoint searchBody).mapError .query := by
  obtain ⟨found, hid⟩ := Query.exists_id_of_mem hknown
  have hresolve := Query.resolveCollection_eq_ok_iff.mpr hid
  cases hparsed : parseSearchBody body with
  | error e => simp only [validateBody, hresolve, hparsed]
  | ok searchBody => simp only [validateBody, hresolve, hparsed]

/-- A body that is not read is not blank and does not parse. -/
theorem parseSearchBody_eq_error {error : GatewayError} (h : parseSearchBody body = .error error) :
    body.all isAsciiSpace = false ∧
      ∃ fault, SearchBody.parse body = .error fault ∧ error = invalidBody fault := by
  unfold parseSearchBody at h
  split at h
  · exact nomatch h
  · rename_i hshown
    cases hparsed : SearchBody.parse body with
    | error fault =>
      rw [hparsed] at h
      exact ⟨by simpa using hshown, fault, rfl, (Except.error.inj h).symm⟩
    | ok searchBody =>
      rw [hparsed] at h
      exact nomatch h

/-- A search that is refused without a look at the backend. -/
theorem searchAnswer_of_error {error : GatewayError}
    (h : validateBody endpoint body = .error error) :
    SearchAnswer backend endpoint body (searchFailure endpoint error, none) := by
  have hrefuses := refuses_searchFailure endpoint error
  by_cases hknown : endpoint ∈ Collection.identifiers
  · -- the body fails to be read, or what is read from it is rejected
    rw [validateBody_of_known hknown] at h
    cases hparsed : parseSearchBody body with
    | error e =>
      obtain ⟨hshown, fault, hfaulty, rfl⟩ := parseSearchBody_eq_error hparsed
      rw [hparsed] at h
      obtain rfl := Except.error.inj h
      exact .unreadable hknown hshown hfaulty hrefuses
    | ok searchBody =>
      rw [hparsed] at h
      have h : (Query.validate endpoint searchBody).mapError .query = .error error := h
      cases hvalid : Query.validate endpoint searchBody with
      | error e =>
        rw [hvalid] at h
        obtain rfl : GatewayError.query e = error := Except.error.inj h
        have hsupported : (GatewayError.query e).supportedEndpoints = none :=
          supportedEndpoints_of_known hknown hvalid
        rw [hsupported] at hrefuses
        exact .rejected hknown (parseSearchBody_eq_ok_iff.mp hparsed) hvalid hrefuses
      | ok search =>
        rw [hvalid] at h
        exact nomatch h
  · rw [validateBody, Query.resolveCollection_of_notMem hknown] at h
    obtain rfl := Except.error.inj h
    exact .unsupported hknown hrefuses

/-- A body that is accepted asks for its search. -/
theorem asks_of_validateBody {search : Search} (h : validateBody endpoint body = .ok search) :
    Asks endpoint body search := by
  unfold validateBody at h
  split at h
  · exact nomatch h
  · split at h
    · exact nomatch h
    · rename_i searchBody hparsed
      exact ⟨searchBody, parseSearchBody_eq_ok_iff.mp hparsed, eq_ok_of_mapError h⟩

/-- What the plan of a search does in front of a backend is settled by the first stage that
    fails. -/
theorem searchPlan_answer (hspells : Spells part endpoint) (hsize : body.length ≤ 2097152) :
    SearchAnswer backend endpoint body ((searchPlan part body).run backend) := by
  rw [searchPlan_of_spells hspells hsize]
  cases hvalid : validateBody endpoint body with
  | error error => exact searchAnswer_of_error hvalid
  | ok search =>
    have hasks := asks_of_validateBody hvalid
    cases hservice : backend with
    | none =>
      have hrefuses := refuses_searchFailure endpoint (.backend .credentialMissing)
      exact .unconfigured hasks rfl hrefuses
    | some service =>
      simp only [Plan.run]
      cases houtcome : service (.search search.collection search.request) with
      | error e =>
        cases e with
        | credentialMissing =>
          have hrefuses := refuses_searchFailure endpoint (.backend .credentialMissing)
          exact .withheld hasks rfl houtcome hrefuses
        | downstream message =>
          have hrefuses := refuses_searchFailure endpoint (.backend (.downstream message))
          exact .failed hasks rfl houtcome hrefuses
      | ok found => exact .found hasks rfl houtcome (shows_searchSuccess _ _ _)

end Search

section Members

variable {backend : Option Service} {endpoint : String} {body : List UInt8} {response : Response}
  {call : Option Call}

/-- Every answer names the endpoint as it was given. -/
theorem SearchAnswer.names_endpoint (h : SearchAnswer backend endpoint body (response, call)) :
    field? "endpoint" response = some (.string endpoint) := by
  cases h with
  | unsupported unknown refuses => exact refuses.endpoint
  | unreadable known shown faulty refuses => exact refuses.endpoint
  | rejected known holds rejects refuses => exact refuses.endpoint
  | unconfigured asks absent refuses => exact refuses.endpoint
  | failed asks present fails refuses => exact refuses.endpoint
  | withheld asks present fails refuses => exact refuses.endpoint
  | found asks present finds shows => exact shows.endpoint

/-- An answer lists endpoints only where the endpoint is not one of them. -/
theorem SearchAnswer.supported_eq_none
    (h : SearchAnswer backend endpoint body (response, call))
    (hknown : endpoint ∈ Collection.identifiers) :
    field? "supported_endpoints" response = none := by
  cases h with
  | unsupported unknown refuses => exact absurd hknown unknown
  | unreadable known shown faulty refuses => exact refuses.supported
  | rejected known holds rejects refuses => exact refuses.supported
  | unconfigured asks absent refuses => exact refuses.supported
  | failed asks present fails refuses => exact refuses.supported
  | withheld asks present fails refuses => exact refuses.supported
  | found asks present finds shows => exact shows.supported

/-- A backend that never says that it is missing is asked with success or fails with 500. -/
theorem SearchAnswer.status_of_present
    (h : SearchAnswer backend endpoint body (response, call))
    (hbackend : ∀ service ∈ backend, Present service) (hcall : call.isSome = true) :
    response.status = 200 ∨ response.status = 500 := by
  cases h with
  | unsupported unknown refuses => exact nomatch hcall
  | unreadable known shown faulty refuses => exact nomatch hcall
  | rejected known holds rejects refuses => exact nomatch hcall
  | unconfigured asks absent refuses => exact nomatch hcall
  | failed asks present fails refuses => exact .inr refuses.status
  | withheld asks present fails refuses => exact absurd fails (hbackend _ present _)
  | found asks present finds shows => exact .inl shows.status

end Members

/-- A structured search of at most 2097152 bytes is answered by the first stage that fails, whatever
    its headers: the endpoint, the body, the caps, the credential, the backend.  The endpoints are
    listed only where the given one is none of them, and every answer names the given one.  After a
    call the status is 200 or 500, unless a backend that is there says that it is missing; neither
    a script nor a client does. -/
theorem search_answered {server : Server} {request : Request} {part : List Char}
    {endpoint : String} (hmethod : request.method = .post)
    (hpath : request.path = "/api/search/".toList ++ part) (hne : part ≠ [])
    (hspells : Spells part endpoint) (hsize : request.body.length ≤ 2097152) (uptimeSecs : Nat)
    (now : Timestamp) :
    let exchange := server.handle uptimeSecs now request
    SearchAnswer server.backend endpoint request.body exchange ∧
      Collection.identifiers.length = 20 ∧
      (endpoint ∈ Collection.identifiers → field? "supported_endpoints" exchange.1 = none) ∧
      field? "endpoint" exchange.1 = some (.string endpoint) ∧
      ((∀ service ∈ server.backend, Present service) → exchange.2.isSome = true →
        exchange.1.status = 200 ∨ exchange.1.status = 500) := by
  have hproper : (Route.search part).Proper := ⟨hne, hspells.1⟩
  have hroute : Route.ofPath? request.path = some (.search part) := by
    rw [hpath]
    exact Route.ofPath?_path hproper
  have hplan : (Route.search part).plan (server.status uptimeSecs now) request =
      searchPlan part request.body := by
    simp only [Route.plan, hmethod]
  rw [Server.handle_post hmethod hroute, hplan]
  have hplanned : SearchAnswer server.backend endpoint request.body
      ((searchPlan part request.body).run server.backend) := searchPlan_answer hspells hsize
  have hanswer := hplanned.withHeaders (server.cors.responseHeaders request)
  exact ⟨hanswer, rfl, hanswer.supported_eq_none, hanswer.names_endpoint,
    hanswer.status_of_present⟩

/-- The gateway of a script. -/
def scriptedServer (script : Script) : Server where
  port := 3000
  cors := .any
  backend := some script.service

/-- A search at an endpoint with an escaped underscore and a body of whitespace. -/
def escapedRequest : Request where
  method := .post
  target := "/api/search/line%5Fitems?x=1".toList
  body := Text.Utf8.ofString " \n"

theorem search_answered_escaped :
    Spells "line%5Fitems".toList "line_items" ∧ escapedRequest.body.length ≤ 2097152 ∧
      SearchAnswer (scriptedServer {}).backend "line_items" escapedRequest.body
        ((scriptedServer {}).handle 0 ⟨0⟩ escapedRequest) ∧
      ((scriptedServer {}).handle 0 ⟨0⟩ escapedRequest).2.isSome = true ∧
      (((scriptedServer {}).handle 0 ⟨0⟩ escapedRequest).1.status = 200 ∨
        ((scriptedServer {}).handle 0 ⟨0⟩ escapedRequest).1.status = 500) := by
  have hbackend : ∀ service ∈ (scriptedServer {}).backend, Present service := by
    rintro service hservice
    obtain rfl := Option.some.inj hservice
    exact present_script {}
  have hpath : escapedRequest.path = "/api/search/".toList ++ "line%5Fitems".toList := by decide
  have hspells : Spells "line%5Fitems".toList "line_items" := ⟨by decide, by decide +kernel⟩
  have hsize : escapedRequest.body.length ≤ 2097152 := by decide
  have hcalled : ((scriptedServer {}).handle 0 ⟨0⟩ escapedRequest).2.isSome = true := by
    decide +kernel
  obtain ⟨hanswer, -, -, -, hstatus⟩ :=
    @search_answered (scriptedServer {}) _ _ _ rfl hpath (by decide) hspells hsize 0 ⟨0⟩
  exact ⟨hspells, hsize, hanswer, hcalled, hstatus hbackend hcalled⟩

end SearchGateway.Gateway
