/-
  SearchGateway.Proofs.TextAnswers

  The answer to query text.  It always has the same status, and it holds either the
  items that were found or one error: that of the first stage that fails.  Beside
  the text nothing in the body has a say.
-/
import SearchGateway.Proofs.Answers

namespace SearchGateway.Gateway

open SearchGateway.Backend (BackendError Call Script SearchResponse Service)
open SearchGateway.Http (Request Response)
open SearchGateway.Query (QueryError Search)

/-! ## Answers -/

/-- A response that lists one error, and on which no points have been spent. -/
structure ListsError (code message : String) (response : Response) : Prop where
  status : response.status = 200
  data : field? "data" response = none
  errors : field? "errors" response =
    some (.array [.object [("message", .string message),
      ("extensions", .object [("code", .string code)])]])
  cost : field? "extensions" response =
    some (.object [("query_complexity", .object [("used", .ofNat 0), ("max", .ofNat 30000)])])

/-- A response that holds the items that a search has found, with the points spent on them. -/
structure HoldsItems (search : Search) (found : SearchResponse) (response : Response) : Prop where
  status : response.status = 200
  errors : field? "errors" response = none
  data : field? "data" response =
    some (.object [(search.collection.id,
      .object [("items", .array (found.select search.request.properties)),
        ("total", .ofNat (found.total.getD found.results.length))])])
  cost : field? "extensions" response =
    some (.object [("query_complexity", .object [
      ("used", .ofNat (found.cost search.request.properties).used), ("max", .ofNat 30000)])])

/-- The answer to query text and the call that is made for it: the first stage that fails settles
    them.  The message of a fault leaves out its line and column. -/
inductive TextAnswer (backend : Option Service) (body : List UInt8) : Response × Option Call → Prop
  | unreadable {response : Response} {fault : Json.Fault}
      (faulty : Json.read TextQuery.shape.read body = .error fault)
      (lists : ListsError "CRM_GATEWAY_INVALID_BODY" ("Invalid request body: " ++ fault.message)
        response) :
      TextAnswer backend body (response, none)
  | rejected {response : Response} {query : TextQuery} {e : QueryError}
      (reads : TextQuery.parse body = .ok query) (rejects : Query.translate query.query = .error e)
      (lists : ListsError e.code e.message response) :
      TextAnswer backend body (response, none)
  | unconfigured {response : Response} {query : TextQuery} {search : Search}
      (reads : TextQuery.parse body = .ok query)
      (accepts : Query.translate query.query = .ok search) (absent : backend = none)
      (lists : ListsError "CRM_BACKEND_CREDENTIAL_MISSING" "HubSpot not configured" response) :
      TextAnswer backend body (response, none)
  | failed {response : Response} {query : TextQuery} {search : Search} {service : Service}
      {e : BackendError} (reads : TextQuery.parse body = .ok query)
      (accepts : Query.translate query.query = .ok search) (present : backend = some service)
      (fails : service (.search search.collection search.request) = .error e)
      (lists : ListsError e.code e.message response) :
      TextAnswer backend body (response, some (.search search.collection search.request))
  | found {response : Response} {query : TextQuery} {search : Search} {service : Service}
      {found : SearchResponse} (reads : TextQuery.parse body = .ok query)
      (accepts : Query.translate query.query = .ok search) (present : backend = some service)
      (finds : service (.search search.collection search.request) = .ok found)
      (holds : HoldsItems search found response) :
      TextAnswer backend body (response, some (.search search.collection search.request))

theorem listsError_graphqlFailure (error : GatewayError) :
    ListsError error.code error.message (graphqlFailure error) :=
  ⟨rfl, rfl, rfl, rfl⟩

theorem holdsItems_graphqlSuccess (search : Search) (found : SearchResponse) :
    HoldsItems search found
      (graphqlSuccess (.ofResponse search.collection search.request.properties found)) :=
  ⟨rfl, rfl, rfl, rfl⟩

theorem ListsError.withHeaders {code message : String} {response : Response}
    (h : ListsError code message response) (headers : Http.Headers) :
    ListsError code message (response.withHeaders headers) :=
  ⟨h.status, h.data, h.errors, h.cost⟩

theorem HoldsItems.withHeaders {search : Search} {found : SearchResponse} {response : Response}
    (h : HoldsItems search found response) (headers : Http.Headers) :
    HoldsItems search found (response.withHeaders headers) :=
  ⟨h.status, h.errors, h.data, h.cost⟩

section Text

variable {backend : Option Service} {body : List UInt8} {response : Response} {call : Option Call}

theorem TextAnswer.withHeaders (h : TextAnswer backend body (response, call))
    (headers : Http.Headers) : TextAnswer backend body (response.withHeaders headers, call) := by
  cases h with
  | unreadable faulty lists => exact .unreadable faulty (lists.withHeaders headers)
  | rejected reads rejects lists => exact .rejected reads rejects (lists.withHeaders headers)
  | unconfigured reads accepts absent lists =>
    exact .unconfigured reads accepts absent (lists.withHeaders headers)
  | failed reads accepts present fails lists =>
    exact .failed reads accepts present fails (lists.withHeaders headers)
  | found reads accepts present finds holds =>
    exact .found reads accepts present finds (holds.withHeaders headers)

/-- A body of query text is rejected when it does not parse or is not translated. -/
theorem textAnswer_of_error {error : GatewayError} (h : translateBody body = .error error) :
    TextAnswer backend body (graphqlFailure error, none) := by
  unfold translateBody at h
  cases hparsed : TextQuery.parse body with
  | error e =>
    rw [hparsed] at h
    obtain rfl : e = error := Except.error.inj h
    -- an error of parsing is the fault of the body
    cases hread : Json.read TextQuery.shape.read body with
    | error fault =>
      rw [TextQuery.parse, hread] at hparsed
      obtain rfl : invalidBody fault = e := Except.error.inj hparsed
      exact .unreadable hread (listsError_graphqlFailure (invalidBody fault))
    | ok query =>
      rw [TextQuery.parse, hread] at hparsed
      exact nomatch hparsed
  | ok query =>
    rw [hparsed] at h
    have h : (Query.translate query.query).mapError .query = .error error := h
    cases htranslated : Query.translate query.query with
    | error e =>
      rw [htranslated] at h
      obtain rfl : GatewayError.query e = error := Except.error.inj h
      exact .rejected hparsed htranslated (listsError_graphqlFailure (.query e))
    | ok search =>
      rw [htranslated] at h
      exact nomatch h

/-- Query text that is accepted is what the body parses to. -/
theorem reads_of_translateBody {search : Search} (h : translateBody body = .ok search) :
    ∃ query, TextQuery.parse body = .ok query ∧ Query.translate query.query = .ok search := by
  unfold translateBody at h
  cases hparsed : TextQuery.parse body with
  | error e =>
    rw [hparsed] at h
    exact nomatch h
  | ok query =>
    rw [hparsed] at h
    exact ⟨query, rfl, eq_ok_of_mapError h⟩

/-- What the plan of query text does in front of a backend is settled by the first stage that
    fails. -/
theorem graphqlPlan_answer (hsize : body.length ≤ 2097152) :
    TextAnswer backend body ((graphqlPlan body).run backend) := by
  rw [graphqlPlan, isTooLarge_eq_false hsize, if_neg Bool.false_ne_true]
  cases htranslated : translateBody body with
  | error error => exact textAnswer_of_error htranslated
  | ok search =>
    obtain ⟨query, hreads, haccepts⟩ := reads_of_translateBody htranslated
    cases hservice : backend with
    | none =>
      have hlists := listsError_graphqlFailure (.backend .credentialMissing)
      exact .unconfigured hreads haccepts rfl hlists
    | some service =>
      simp only [Plan.run]
      cases houtcome : service (.search search.collection search.request) with
      | error e =>
        have hlists := listsError_graphqlFailure (.backend e)
        exact .failed hreads haccepts rfl houtcome hlists
      | ok found => exact .found hreads haccepts rfl houtcome (holdsItems_graphqlSuccess _ _)

theorem TextAnswer.status (h : TextAnswer backend body (response, call)) :
    response.status = 200 := by
  cases h with
  | unreadable faulty lists => exact lists.status
  | rejected reads rejects lists => exact lists.status
  | unconfigured reads accepts absent lists => exact lists.status
  | failed reads accepts present fails lists => exact lists.status
  | found reads accepts present finds holds => exact holds.status

/-- The search that a body asks for has found something. -/
def Finds (backend : Option Service) (body : List UInt8) : Prop :=
  ∃ query search service found, TextQuery.parse body = .ok query ∧
    Query.translate query.query = .ok search ∧ backend = some service ∧
    service (.search search.collection search.request) = .ok found

/-- An answer holds data of a search that has found something, or else one error. -/
theorem TextAnswer.data_or_error (h : TextAnswer backend body (response, call)) :
    (Finds backend body ∧ (field? "data" response).isSome = true ∧
        field? "errors" response = none) ∨
      (¬ Finds backend body ∧ field? "data" response = none ∧
        ∃ code message, ListsError code message response) := by
  cases h with
  | @unreadable response fault faulty lists =>
    refine .inr ⟨?_, lists.data, _, _, lists⟩
    rintro ⟨query, search, service, found, hreads, -⟩
    rw [TextQuery.parse, faulty] at hreads
    exact nomatch hreads
  | @rejected response query e reads rejects lists =>
    refine .inr ⟨?_, lists.data, _, _, lists⟩
    rintro ⟨query', search, service, found, hreads, haccepts, -⟩
    rw [reads] at hreads
    obtain rfl := Except.ok.inj hreads
    rw [rejects] at haccepts
    exact nomatch haccepts
  | @unconfigured response query search reads accepts absent lists =>
    refine .inr ⟨?_, lists.data, _, _, lists⟩
    rintro ⟨query', search', service, found, -, -, hpresent, -⟩
    rw [absent] at hpresent
    exact nomatch hpresent
  | @failed response query search service e reads accepts present fails lists =>
    refine .inr ⟨?_, lists.data, _, _, lists⟩
    rintro ⟨query', search', service', found, hreads, haccepts, hpresent, hfinds⟩
    -- the backend has been asked for this very search
    rw [reads] at hreads
    obtain rfl := Except.ok.inj hreads
    rw [accepts] at haccepts
    obtain rfl := Except.ok.inj haccepts
    rw [present] at hpresent
    obtain rfl := Option.some.inj hpresent
    rw [fails] at hfinds
    exact nomatch hfinds
  | found reads accepts present finds holds =>
    refine .inl ⟨⟨_, _, _, _, reads, accepts, present, finds⟩, ?_, holds.errors⟩
    rw [holds.data, Option.isSome_some]

/-- Only the text of a body has a say in its search. -/
theorem translateBody_congr {other : List UInt8} {query query' : TextQuery}
    (h : TextQuery.parse body = .ok query) (h' : TextQuery.parse other = .ok query')
    (hsame : query'.query = query.query) : translateBody other = translateBody body := by
  rw [translateBody, translateBody, h, h']
  simp only [hsame]

end Text

/-- A post to the route of query text is answered as its body plans. -/
theorem Server.handle_graphql (server : Server) {request : Request}
    (hmethod : request.method = .post) (hpath : request.path = "/graphql".toList)
    (uptimeSecs : Nat) (now : Timestamp) :
    server.handle uptimeSecs now request =
      let run := (graphqlPlan request.body).run server.backend
      (run.1.withHeaders (server.cors.responseHeaders request), run.2) := by
  have hroute : Route.ofPath? request.path = some .graphql := by
    rw [hpath]
    rfl
  have hplan : Route.graphql.plan (server.status uptimeSecs now) request =
      graphqlPlan request.body := by
    simp only [Route.plan, hmethod]
  rw [Server.handle_post hmethod hroute, hplan]

/-- Query text in a body of at most 2097152 bytes is answered with status 200 by the first stage
    that fails, whatever the headers: the body, the translation, the credential, the backend.  The
    answer holds data exactly if none fails, and one error if one does.  Bodies that parse and have
    the same text are answered alike, whatever the bindings of their variables.  Bindings that are
    no JSON value, or one that is nested too deep or has a number out of range, keep their body from
    parsing: it is answered with the error of an invalid body, whatever its text. -/
theorem text_answered (server : Server) {request : Request} (hmethod : request.method = .post)
    (hpath : request.path = "/graphql".toList) (hsize : request.body.length ≤ 2097152)
    (uptimeSecs : Nat) (now : Timestamp) :
    let exchange := server.handle uptimeSecs now request
    TextAnswer server.backend request.body exchange ∧
      exchange.1.status = 200 ∧
      ((Finds server.backend request.body ∧ (field? "data" exchange.1).isSome = true ∧
          field? "errors" exchange.1 = none) ∨
        (¬ Finds server.backend request.body ∧ field? "data" exchange.1 = none ∧
          ∃ code message, ListsError code message exchange.1)) ∧
      ∀ body query query', body.length ≤ 2097152 → TextQuery.parse request.body = .ok query →
        TextQuery.parse body = .ok query' → query'.query = query.query →
          server.handle uptimeSecs now { request with body := body } = exchange := by
  have hplan : TextAnswer server.backend request.body
      ((graphqlPlan request.body).run server.backend) := graphqlPlan_answer hsize
  have hanswer := hplan.withHeaders (server.cors.responseHeaders request)
  rw [Server.handle_graphql server hmethod hpath]
  refine ⟨hanswer, hanswer.status, hanswer.data_or_error, ?_⟩
  intro body query query' hbody hreads hreads' hsame
  -- the other request has the same target and headers, so it differs in its plan at most
  have hpost : ({ request with body := body } : Request).method = .post := hmethod
  have hother : ({ request with body := body } : Request).path = "/graphql".toList := hpath
  have hsmall : isTooLarge body = false := isTooLarge_eq_false hbody
  have hsmall' : isTooLarge request.body = false := isTooLarge_eq_false hsize
  have hplans : graphqlPlan body = graphqlPlan request.body := by
    rw [graphqlPlan, graphqlPlan, hsmall, hsmall', translateBody_congr hreads hreads' hsame]
  rw [Server.handle_graphql server hpost hother, hplans]
  rfl

/-- A search by query text with bindings. -/
def boundRequest : Request where
  method := .post
  target := "/graphql".toList
  body := Text.Utf8.ofString
    "\x7b\"query\": \"\x7b deals \x7b total \x7d \x7d\", \"variables\": \x7b\"a\": [1]\x7d\x7d"

theorem text_answered_bound :
    boundRequest.body.length ≤ 2097152 ∧
      TextAnswer (scriptedServer {}).backend boundRequest.body
        ((scriptedServer {}).handle 0 ⟨0⟩ boundRequest) ∧
      (field? "data" ((scriptedServer {}).handle 0 ⟨0⟩ boundRequest).1).isSome = true := by
  have hsize : boundRequest.body.length ≤ 2097152 := by decide +kernel
  have hanswer := text_answered (scriptedServer {}) rfl (by decide) hsize 0 ⟨0⟩
  exact ⟨hsize, hanswer.1, by decide +kernel⟩

end SearchGateway.Gateway
