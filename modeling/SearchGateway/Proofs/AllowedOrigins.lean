/-
  SearchGateway.Proofs.AllowedOrigins

  Which origin a response allows.  No route says anything about origins, so what a
  response says comes from the policy alone and is the same whatever is asked and
  however it is answered.  A policy that lists origins allows an origin only if it is
  listed and can stand in a header; if no entry can, no origin is allowed.
-/
import SearchGateway.Proofs.Session

namespace SearchGateway.Gateway

open SearchGateway.Backend (BackendError Service)
open SearchGateway.Http (Headers Request Response)
open SearchGateway.Json (Value)

/-! ## What headers say about origins -/

/-- The origins that some headers allow, one for each header that allows one. -/
def originsIn (headers : Headers) : List String :=
  (headers.filter fun header => header.1 == "access-control-allow-origin").map Prod.snd

/-- The origins that a response allows. -/
def allowedOrigins (response : Response) : List String :=
  originsIn response.headers

theorem originsIn_append (headers headers' : Headers) :
    originsIn (headers ++ headers') = originsIn headers ++ originsIn headers' := by
  rw [originsIn, List.filter_append, List.map_append]
  rfl

/-- A response that says nothing about origins. -/
def Silent (response : Response) : Prop :=
  allowedOrigins response = []

/-- The header of a response that allows an origin is the first of them. -/
theorem header?_eq_head? (response : Response) :
    response.header? "access-control-allow-origin" = (allowedOrigins response).head? := by
  have hlookup : ∀ headers : Headers,
      headers.lookup "access-control-allow-origin" = (originsIn headers).head? := by
    intro headers
    induction headers with
    | nil => rfl
    | cons header headers ih =>
      obtain ⟨name, value⟩ := header
      by_cases hname : name = "access-control-allow-origin"
      · subst hname
        simp [originsIn]
      · have hname' : ("access-control-allow-origin" == name) = false :=
          beq_eq_false_iff_ne.mpr fun heq => hname heq.symm
        rw [List.lookup_cons, hname', originsIn, List.filter_cons_of_neg (by simpa using hname)]
        exact ih
  simp only [Response.header?, Http.Headers.get?, hlookup, allowedOrigins]
  rfl

/-! ## Routes -/

/-- A plan all of whose responses say nothing about origins. -/
abbrev Plan.Silent : Plan → Prop :=
  Plan.Always Gateway.Silent

theorem silent_of_parameter {name : String} {part : List Char} (response : Response)
    (h : parameter name part = .error response) : Silent response := by
  obtain ⟨text, rfl⟩ := eq_ofText_of_parameter h
  rfl

theorem silent_of_readJson {request : Request} (response : Response)
    (h : readJson request = .error response) : Silent response := by
  obtain ⟨status, text, rfl⟩ := eq_ofText_of_readJson h
  rfl

theorem silent_objectResponse (outcome : Except BackendError Value) :
    Silent (objectResponse outcome) := by
  cases outcome <;> rfl

theorem searchPlan_silent (part : List Char) (body : List UInt8) :
    (searchPlan part body).Silent := by
  refine .need silent_of_parameter fun endpoint => ?_
  split
  · rfl
  · split
    · rfl
    · rintro (e | found) <;> rfl

theorem graphqlPlan_silent (body : List UInt8) : (graphqlPlan body).Silent := by
  unfold graphqlPlan
  split
  · rfl
  · split
    · rfl
    · rintro (e | found) <;> rfl

theorem listPlan_silent (part : List Char) : (listPlan part).Silent :=
  .need silent_of_parameter fun _ => silent_objectResponse

theorem createPlan_silent (part : List Char) (request : Request) :
    (createPlan part request).Silent :=
  .need silent_of_parameter fun _ => .need silent_of_readJson fun _ => silent_objectResponse

theorem updatePlan_silent (part idPart : List Char) (request : Request) :
    (updatePlan part idPart request).Silent :=
  .need silent_of_parameter fun _ => .need silent_of_parameter fun _ =>
    .need silent_of_readJson fun _ => silent_objectResponse

theorem deletePlan_silent (part idPart : List Char) : (deletePlan part idPart).Silent := by
  refine .need silent_of_parameter fun _ => .need silent_of_parameter fun _ => ?_
  rintro (e | _) <;> rfl

theorem webhookPlan_silent (part : List Char) (status : Status) (body : List UInt8) :
    (webhookPlan part status body).Silent := by
  refine .need silent_of_parameter fun _ => ?_
  split <;> rfl

theorem webhookUrlPlan_silent (part : List Char) (status : Status) :
    (webhookUrlPlan part status).Silent :=
  .need silent_of_parameter fun _ => rfl

theorem Route.plan_silent (route : Route) (status : Status) (request : Request) :
    (route.plan status request).Silent := by
  unfold Route.plan
  split
  case h_5 => exact graphqlPlan_silent _
  case h_6 => exact searchPlan_silent _ _
  case h_7 => exact listPlan_silent _
  case h_8 => exact listPlan_silent _
  case h_9 => exact createPlan_silent _ _
  case h_10 => exact updatePlan_silent _ _ _
  case h_11 => exact deletePlan_silent _ _
  case h_12 => exact webhookPlan_silent _ _ _
  case h_13 => exact webhookUrlPlan_silent _ _
  case h_14 => exact webhookUrlPlan_silent _ _
  -- the index, the health check and the refusal of a method are answered at once
  all_goals rfl

/-- Nothing that the routes answer says anything about origins. -/
theorem Server.plan_silent (status : Status) (request : Request) :
    (Server.plan status request).Silent := by
  unfold Server.plan
  split
  · rfl
  · exact Route.plan_silent _ status request

/-! ## Policies -/

theorem Cors.originsIn_originHeaders (cors : Cors) (request : Request) :
    originsIn (cors.originHeaders request) = (cors.allowedOrigin? request).toList := by
  unfold Cors.originHeaders
  cases cors.allowedOrigin? request <;> rfl

/-- A response allows the origin that the policy allows to its request, whatever the request is. -/
theorem Server.allowedOrigins_handle (server : Server) (uptimeSecs : Nat) (now : Timestamp)
    (request : Request) :
    allowedOrigins (server.handle uptimeSecs now request).1 =
      (server.cors.allowedOrigin? request).toList := by
  have hvary : originsIn [Cors.varyHeader] = [] := rfl
  unfold Server.handle
  by_cases hoptions : request.method = .options
  · have hallow : originsIn ((Route.ofPath? request.path).toList.map fun route =>
        ("allow", route.allow)) = [] := by
      cases Route.ofPath? request.path <;> rfl
    rw [if_pos hoptions]
    simp only [preflight, allowedOrigins, Cors.preflightHeaders, originsIn_append, hallow,
      Cors.originsIn_originHeaders, List.append_nil]
    exact List.append_nil _
  · have hsilent : originsIn ((plan (server.status uptimeSecs now) request).run
        server.backend).1.headers = [] :=
      (plan_silent (server.status uptimeSecs now) request).run server.backend
    have hheaders : originsIn (((plan (server.status uptimeSecs now) request).run
        server.backend).1.withHeaders (server.cors.responseHeaders request)).headers =
          (server.cors.allowedOrigin? request).toList := by
      rw [Response.withHeaders, originsIn_append, hsilent, Cors.responseHeaders, originsIn_append,
        Cors.originsIn_originHeaders, hvary, List.append_nil, List.nil_append]
    rw [if_neg hoptions]
    -- leaving the content out changes no header
    simp only
    split
    · exact hheaders
    · exact hheaders

theorem Cors.allowedOrigin?_listed_eq_some_iff {legal : List String} {request : Request}
    {origin : String} :
    (listed legal).allowedOrigin? request = some origin ↔
      request.headers.get? "origin" = some origin ∧ origin ∈ legal := by
  simp [allowedOrigin?, Option.filter_eq_some_iff]

/-! ## Responses -/

/-- **A list of origins never fails open.**  A gateway whose origins do not list the wildcard is set
    up.  If no origins are listed, each of its responses allows any origin, by one header.  If some
    are, a response never says the wildcard; it allows at most one origin, and it allows an origin
    exactly if its request comes from it and it is a listed one that can stand in a header.  So it
    is for every request, and if no listed origin can stand in a header none is allowed. -/
theorem origins_allowed {origins : List String} (h : "*" ∉ origins) (port : Nat)
    (backend : Option Service) :
    ∃ server, Server.make? port origins backend = some server ∧
      ∀ (uptimeSecs : Nat) (now : Timestamp) (request : Request),
        let response := (server.handle uptimeSecs now request).1
        let header := response.header? "access-control-allow-origin"
        (origins = [] → allowedOrigins response = ["*"] ∧ header = some "*") ∧
        (origins ≠ [] →
          (allowedOrigins response).length ≤ 1 ∧ header ≠ some "*" ∧
          (∀ origin, header = some origin ↔ request.headers.get? "origin" = some origin ∧
            origin ∈ origins ∧ Http.isHeaderValue origin = true) ∧
          ((∀ origin ∈ origins, Http.isHeaderValue origin = false) → header = none)) := by
  refine ⟨_, by rw [Server.make?, Cors.ofOrigins?_eq h]; rfl, fun uptimeSecs now request => ?_⟩
  dsimp only
  rw [header?_eq_head?, Server.allowedOrigins_handle]
  constructor
  · intro hnone
    rw [if_pos hnone]
    exact ⟨rfl, rfl⟩
  · intro hsome
    have hiff (origin : String) :
        (Cors.listed (origins.filter Http.isHeaderValue)).allowedOrigin? request = some origin ↔
          request.headers.get? "origin" = some origin ∧ origin ∈ origins ∧
            Http.isHeaderValue origin = true := by
      rw [Cors.allowedOrigin?_listed_eq_some_iff, List.mem_filter]
    rw [if_neg hsome, Option.head?_toList]
    refine ⟨?_, fun hwildcard => h ((hiff "*").mp hwildcard).2.1, hiff, fun hillegal => ?_⟩
    · cases (Cors.listed (origins.filter Http.isHeaderValue)).allowedOrigin? request <;> simp
    · rw [Option.eq_none_iff_forall_ne_some]
      intro origin horigin
      obtain ⟨-, hmem, hlegal⟩ := (hiff origin).mp horigin
      exact absurd hlegal (by rw [hillegal origin hmem]; exact Bool.false_ne_true)

/-- A preflight request from a listed origin for a path without a route, a refused search from an
    origin that is not listed, and a list of which no entry can stand in a header. -/
theorem origins_allowed_guarded :
    (∃ server, Server.make? 3000 ["https://app.example", "a\nb"] none = some server ∧
      (server.handle 0 ⟨0⟩ ⟨.options, "/nowhere".toList, [("origin", "https://app.example")],
        []⟩).1.header? "access-control-allow-origin" = some "https://app.example" ∧
      (server.handle 0 ⟨0⟩ ⟨.post, "/api/search/nothing".toList, [("origin", "https://other")],
        []⟩).1.header? "access-control-allow-origin" = none) ∧
    ∃ server, Server.make? 3000 ["a\nb"] none = some server ∧ ∀ request,
      (server.handle 0 ⟨0⟩ request).1.header? "access-control-allow-origin" = none := by
  constructor
  · have horigins : "*" ∉ ["https://app.example", "a\nb"] := by decide
    obtain ⟨server, hserver, hallowed⟩ := origins_allowed horigins 3000 none
    refine ⟨server, hserver, ?_, ?_⟩
    · exact (((hallowed 0 ⟨0⟩ _).2 (List.cons_ne_nil _ _)).2.2.1 _).mpr
        ⟨rfl, List.mem_cons_self, by decide +kernel⟩
    · rw [Option.eq_none_iff_forall_ne_some]
      intro origin horigin
      obtain ⟨hfrom, hlisted, -⟩ :=
        (((hallowed 0 ⟨0⟩ _).2 (List.cons_ne_nil _ _)).2.2.1 origin).mp horigin
      obtain rfl : "https://other" = origin := Option.some.inj hfrom
      exact absurd hlisted (by decide)
  · have horigins : "*" ∉ ["a\nb"] := by decide
    have hillegal : ∀ origin ∈ ["a\nb"], Http.isHeaderValue origin = false := by decide +kernel
    obtain ⟨server, hserver, hallowed⟩ := origins_allowed horigins 3000 none
    exact ⟨server, hserver, fun request =>
      ((hallowed 0 ⟨0⟩ request).2 (List.cons_ne_nil _ _)).2.2.2 hillegal⟩

end SearchGateway.Gateway
