/-
  SearchGateway.Proofs.Calls

  Which requests lead to a call to the backend, and to which one.  Every check of a
  request comes before its call, so a request that is refused has made none, and a
  search that is made is within the caps.
-/
import SearchGateway.Gateway.Server
import SearchGateway.Backend.Scripted
import SearchGateway.Proofs.Bounds
import SearchGateway.Proofs.Scanning

namespace SearchGateway.Gateway

open SearchGateway.Backend (BackendError Call Client Script Service Transport)
open SearchGateway.Config (Settings)
open SearchGateway.Http (Method Request Response)
open SearchGateway.Json (Value)
open SearchGateway.Query (Collection Search SearchBody)

/-! ## Paths -/

namespace Route

/-- The path of a route. -/
def path : Route → List Char
  | index => "/".toList
  | health => "/health".toList
  | graphql => "/graphql".toList
  | search part => "/api/search/".toList ++ part
  | objects part => "/api/hubspot/".toList ++ part
  | object collection id => "/api/hubspot/".toList ++ collection ++ '/' :: id
  | webhook part => "/webhooks/".toList ++ part
  | webhookUrl part => "/webhooks/url/".toList ++ part

/-- Whether no open part of a route holds a slash and the one at the end of its path is not
    empty. -/
def Proper : Route → Prop
  | index | health | graphql => True
  | search part | objects part | webhook part | webhookUrl part => part ≠ [] ∧ '/' ∉ part
  | object collection id => '/' ∉ collection ∧ id ≠ [] ∧ '/' ∉ id

/-- The parts of a path that read as some names are the characters of these names. -/
theorem parts_eq_of_map {parts : List (List Char)} {names : List String}
    (h : parts.map String.ofList = names) : parts = names.map String.toList := by
  rw [← h, List.map_map]
  exact (List.map_id'' (fun _ => String.toList_ofList) parts).symm

/-- A path that has a route is the path of that route. -/
theorem ofPath?_spec {p : List Char} {route : Route} (h : ofPath? p = some route) :
    p = route.path ∧ route.Proper := by
  obtain ⟨parts, hparts, hroute⟩ := Option.bind_eq_some_iff.mp h
  obtain ⟨hjoin, hclosed⟩ : p = parts.flatMap ('/' :: ·) ∧ ∀ part ∈ parts, '/' ∉ part := by
    unfold parts? at hparts
    split at hparts
    · obtain rfl := Option.some.inj hparts
      exact ⟨(Text.flatMap_split _ _).symm, fun _ => Text.notMem_of_mem_split⟩
    · exact nomatch hparts
  -- the names before the open parts are fixed, so each case has `parts` of one shape
  split at hroute
  · rename_i hnames
    obtain rfl := Option.some.inj hroute
    rw [hjoin, parts_eq_of_map hnames]
    exact ⟨rfl, trivial⟩
  · rename_i hnames
    obtain rfl := Option.some.inj hroute
    rw [hjoin, parts_eq_of_map hnames]
    exact ⟨rfl, trivial⟩
  · rename_i hnames
    obtain rfl := Option.some.inj hroute
    rw [hjoin, parts_eq_of_map hnames]
    exact ⟨rfl, trivial⟩
  · rename_i api kind part hnames
    obtain ⟨hne, rfl⟩ : part ≠ [] ∧ search part = route := by simpa using hroute
    obtain ⟨hapi, hkind⟩ := List.cons.inj (parts_eq_of_map hnames)
    rw [hjoin, hapi, (List.cons.inj hkind).1]
    refine ⟨?_, hne, hclosed part (by simp)⟩
    show _ = "/api/search/".toList ++ part
    simp
  · rename_i api kind part hnames
    obtain ⟨hne, rfl⟩ : part ≠ [] ∧ objects part = route := by simpa using hroute
    obtain ⟨hapi, hkind⟩ := List.cons.inj (parts_eq_of_map hnames)
    rw [hjoin, hapi, (List.cons.inj hkind).1]
    refine ⟨?_, hne, hclosed part (by simp)⟩
    show _ = "/api/hubspot/".toList ++ part
    simp
  · rename_i api kind collection id hnames
    obtain ⟨hne, rfl⟩ : id ≠ [] ∧ object collection id = route := by simpa using hroute
    obtain ⟨hapi, hkind⟩ := List.cons.inj (parts_eq_of_map hnames)
    rw [hjoin, hapi, (List.cons.inj hkind).1]
    refine ⟨?_, hclosed collection (by simp), hne, hclosed id (by simp)⟩
    show _ = "/api/hubspot/".toList ++ collection ++ '/' :: id
    simp
  · rename_i kind part hnames
    obtain ⟨hne, rfl⟩ : part ≠ [] ∧ webhook part = route := by simpa using hroute
    rw [hjoin, (List.cons.inj (parts_eq_of_map hnames)).1]
    refine ⟨?_, hne, hclosed part (by simp)⟩
    show _ = "/webhooks/".toList ++ part
    simp
  · rename_i kind url part hnames
    obtain ⟨hne, rfl⟩ : part ≠ [] ∧ webhookUrl part = route := by simpa using hroute
    obtain ⟨hkind, hurl⟩ := List.cons.inj (parts_eq_of_map hnames)
    rw [hjoin, hkind, (List.cons.inj hurl).1]
    refine ⟨?_, hne, hclosed part (by simp)⟩
    show _ = "/webhooks/url/".toList ++ part
    simp
  · exact nomatch hroute

/-- The parts of a path are found as they were written. -/
theorem parts?_flatMap (parts : List (List Char)) {last : List Char}
    (hparts : ∀ part ∈ parts, '/' ∉ part) (hlast : '/' ∉ last) :
    parts? (parts.flatMap ('/' :: ·) ++ '/' :: last) = some (parts ++ [last]) := by
  rw [← Text.split_of_notMem hlast, ← Text.split_flatMap hparts]
  cases parts with
  | nil => rfl
  | cons part parts => rfl

/-- A proper route is the route of its path. -/
theorem ofPath?_path {route : Route} (h : route.Proper) : ofPath? route.path = some route := by
  cases route with
  | index => rfl
  | health => rfl
  | graphql => rfl
  | search part =>
    have hparts : parts? (search part).path = some ["api".toList, "search".toList, part] :=
      parts?_flatMap ["api".toList, "search".toList] (by decide) h.2
    simp [ofPath?, hparts, h.1]
  | objects part =>
    have hparts : parts? (objects part).path = some ["api".toList, "hubspot".toList, part] :=
      parts?_flatMap ["api".toList, "hubspot".toList] (by decide) h.2
    simp [ofPath?, hparts, h.1]
  | object collection id =>
    have hclosed : ∀ part ∈ ["api".toList, "hubspot".toList, collection], '/' ∉ part := by
      rw [List.forall_mem_cons, List.forall_mem_cons, List.forall_mem_singleton]
      exact ⟨by decide, by decide, h.1⟩
    have hpath : (object collection id).path =
        ["api".toList, "hubspot".toList, collection].flatMap ('/' :: ·) ++ '/' :: id := by
      show "/api/hubspot/".toList ++ collection ++ '/' :: id = _
      simp
    have hparts := parts?_flatMap _ hclosed h.2.2
    rw [ofPath?, hpath, hparts]
    simp [h.2.1]
  | webhook part =>
    have hparts : parts? (webhook part).path = some ["webhooks".toList, part] :=
      parts?_flatMap ["webhooks".toList] (by decide) h.2
    simp [ofPath?, hparts, h.1]
  | webhookUrl part =>
    have hparts : parts? (webhookUrl part).path = some ["webhooks".toList, "url".toList, part] :=
      parts?_flatMap ["webhooks".toList, "url".toList] (by decide) h.2
    simp [ofPath?, hparts, h.1]

end Route

/-- The open part of a path spells a text: it holds no slash, and the text is what it stands for
    when it is unescaped. -/
def Spells (part : List Char) (text : String) : Prop :=
  '/' ∉ part ∧
    Text.Utf8.decode? (Text.Percent.decode (Text.Utf8.encode part)) = some text.toList

/-- A parameter that is read is spelled by its part of the path. -/
theorem spells_of_parameter {name text : String} {part : List Char} (hpart : '/' ∉ part)
    (h : parameter name part = .ok text) : Spells part text := by
  refine ⟨hpart, ?_⟩
  unfold parameter at h
  split at h
  · rename_i cs hdecoded
    rw [hdecoded, ← Except.ok.inj h, String.toList_ofList]
  · exact nomatch h

/-! ## Calls that a request names -/

/-- The call that a method and a path name. -/
inductive Names : Method → List Char → Call → Prop where
  | search {part endpoint collection request} (hne : part ≠ []) (hpart : Spells part endpoint)
      (hcollection : Query.resolveCollection endpoint = .ok collection) :
      Names .post ("/api/search/".toList ++ part) (.search collection request)
  | graphql {collection request} :
      Names .post "/graphql".toList (.search collection request)
  | list {method part collection} (hmethod : method = .get ∨ method = .head) (hne : part ≠ [])
      (hpart : Spells part collection) :
      Names method ("/api/hubspot/".toList ++ part) (.list collection)
  | create {part collection body} (hne : part ≠ []) (hpart : Spells part collection) :
      Names .post ("/api/hubspot/".toList ++ part) (.create collection body)
  | update {part collection idPart id body} (hpart : Spells part collection)
      (hne : idPart ≠ []) (hid : Spells idPart id) :
      Names .patch ("/api/hubspot/".toList ++ part ++ '/' :: idPart) (.update collection id body)
  | delete {part collection idPart id} (hpart : Spells part collection)
      (hne : idPart ≠ []) (hid : Spells idPart id) :
      Names .delete ("/api/hubspot/".toList ++ part ++ '/' :: idPart) (.delete collection id)

/-- A search names a collection that is supported and is within the bounds; the other calls carry no
    search. -/
def InBounds : Call → Prop
  | .search collection request => collection ∈ Collection.all ∧ request.Bounded
  | .list _ | .create _ _ | .update _ _ _ | .delete _ _ => True

/-! ## Responses after a call -/

/-- The member of an object. -/
def member? (name : String) : Value → Option Value
  | .object members => members.lookup name
  | _ => none

/-- The code of the first error that a response lists. -/
def errorCode? (response : Response) : Option String :=
  match response.content with
  | .json content =>
    match member? "errors" content with
    | some (.array (error :: _)) =>
      match (member? "extensions" error).bind (member? "code") with
      | some (.string code) => some code
      | _ => none
    | _ => none
  | _ => none

/-- A response to what a backend said: a success or a downstream failure. -/
def Answered (response : Response) : Prop :=
  (response.status = 200 ∨ response.status = 500) ∧
    ∀ code, errorCode? response = some code → code = "CRM_BACKEND_DOWNSTREAM_FAILURE"

theorem answered_ofJson {status : Nat} {members : List (String × Value)}
    (hstatus : status = 200 ∨ status = 500) (herrors : members.lookup "errors" = none) :
    Answered (.ofJson status (.object members)) := by
  refine ⟨hstatus, fun code h => ?_⟩
  have hmember : member? "errors" (.object members) = none := herrors
  simp only [errorCode?, Response.ofJson, hmember] at h
  exact nomatch h

/-- A backend that is there never says that it is missing. -/
def Present (service : Service) : Prop :=
  ∀ call, service call ≠ .error .credentialMissing

theorem present_script (script : Script) : Present script.service := by
  intro call h
  unfold Script.service at h
  split at h <;> nomatch h

theorem present_client (client : Client) (transport : Transport) :
    Present (client.service transport) := by
  intro call h
  cases hrequest : client.request? call with
  | none =>
    rw [Client.service_of_unbuildable hrequest] at h
    exact nomatch h
  | some request =>
    rw [Client.service_of_request hrequest] at h
    unfold Client.outcome at h
    split at h
    · exact nomatch h
    · split at h
      · split at h <;> nomatch h
      · exact nomatch h

/-! ## Plans -/

/-- A plan whose call satisfies a condition, and which answers what a backend says to that call. -/
def Plan.Guarded (condition : Call → Prop) : Plan → Prop
  | .answer _ => True
  | .ask call respond =>
    condition call ∧ ∀ outcome, outcome ≠ .error .credentialMissing → Answered (respond outcome)

variable {condition : Call → Prop}

theorem Plan.Guarded.need {α : Type} {value : Except Response α} {plan : α → Plan}
    (h : ∀ x, value = .ok x → (plan x).Guarded condition) :
    (Plan.need value plan).Guarded condition := by
  cases value with
  | error response => exact trivial
  | ok x => exact h x rfl

/-- What running a guarded plan against a backend does. -/
theorem Plan.Guarded.run {plan : Plan} (h : plan.Guarded condition) {backend : Option Service}
    (hbackend : ∀ service ∈ backend, Present service) :
    ∀ call ∈ (plan.run backend).2, condition call ∧ Answered (plan.run backend).1 := by
  cases plan with
  | answer response => exact fun call hcall => nomatch hcall
  | ask asked respond =>
    cases backend with
    -- without a backend the missing credential is answered before anything is called
    | none => exact fun call hcall => nomatch hcall
    | some service =>
      intro call hcall
      obtain rfl : asked = call := Option.some.inj hcall
      exact ⟨h.1, h.2 _ (hbackend service rfl asked)⟩

/-- A plan all of whose responses satisfy a condition. -/
def Plan.Always (holds : Response → Prop) : Plan → Prop
  | .answer response => holds response
  | .ask _ respond => ∀ outcome, holds (respond outcome)

theorem Plan.Always.need {holds : Response → Prop} {α : Type} {value : Except Response α}
    {plan : α → Plan} (hrefused : ∀ response, value = .error response → holds response)
    (h : ∀ x, (plan x).Always holds) : (Plan.need value plan).Always holds := by
  cases value with
  | error response => exact hrefused response rfl
  | ok x => exact h x

theorem Plan.Always.run {holds : Response → Prop} {plan : Plan} (h : plan.Always holds)
    (backend : Option Service) : holds (plan.run backend).1 := by
  cases plan with
  | answer response => exact h
  | ask call respond =>
    cases backend with
    | none => exact h (.error .credentialMissing)
    | some service => exact h (service call)

/-- An open part of a path that is refused is answered with plain text. -/
theorem eq_ofText_of_parameter {name : String} {part : List Char} {response : Response}
    (h : parameter name part = .error response) : ∃ text, response = .ofText 400 text := by
  unfold parameter at h
  split at h
  · exact nomatch h
  · exact ⟨_, (Except.error.inj h).symm⟩

/-- A body that is refused as JSON is answered with plain text. -/
theorem eq_ofText_of_readJson {request : Request} {response : Response}
    (h : readJson request = .error response) : ∃ status text, response = .ofText status text := by
  unfold readJson at h
  split at h
  · exact ⟨_, _, (Except.error.inj h).symm⟩
  · split at h
    · exact ⟨_, _, (Except.error.inj h).symm⟩
    · cases hread : Json.readPrefix Json.value request.body with
      | error fault =>
        rw [hread] at h
        exact ⟨_, _, (Except.error.inj h).symm⟩
      | ok v =>
        rw [hread] at h
        exact nomatch h

/-- A body that is accepted is read and then validated for its endpoint. -/
theorem validate_of_validateBody {endpoint : String} {body : List UInt8} {search : Search}
    (h : validateBody endpoint body = .ok search) :
    ∃ searchBody, Query.validate endpoint searchBody = .ok search := by
  unfold validateBody at h
  split at h
  · exact nomatch h
  · split at h
    · exact nomatch h
    · rename_i searchBody hparsed
      exact ⟨searchBody, eq_ok_of_mapError h⟩

/-- A body of query text that is accepted is read and then translated. -/
theorem translate_of_translateBody {body : List UInt8} {search : Search}
    (h : translateBody body = .ok search) : ∃ raw, Query.translate raw = .ok search := by
  unfold translateBody at h
  split at h
  · exact nomatch h
  · rename_i request hparsed
    exact ⟨request.query, eq_ok_of_mapError h⟩

theorem searchPlan_guarded {part : List Char} (hne : part ≠ []) (hpart : '/' ∉ part)
    (body : List UInt8) :
    (searchPlan part body).Guarded fun call =>
      Names .post ("/api/search/".toList ++ part) call ∧ InBounds call := by
  refine .need fun endpoint hendpoint => ?_
  split
  · exact trivial
  · split
    · exact trivial
    · rename_i search hsearch
      obtain ⟨searchBody, hvalid⟩ := validate_of_validateBody hsearch
      have hcollection := (Query.validate_eq_ok_iff.mp hvalid).1
      refine ⟨⟨.search hne (spells_of_parameter hpart hendpoint) hcollection, Collection.mem_all _,
        Query.validate_bounded hvalid⟩, fun outcome houtcome => ?_⟩
      match outcome with
      | .ok response => exact answered_ofJson (.inl rfl) rfl
      | .error (.downstream message) => exact answered_ofJson (.inr rfl) rfl
      | .error .credentialMissing => exact absurd rfl houtcome

theorem graphqlPlan_guarded (body : List UInt8) :
    (graphqlPlan body).Guarded fun call =>
      Names .post "/graphql".toList call ∧ InBounds call := by
  unfold graphqlPlan
  split
  · exact trivial
  · split
    · exact trivial
    · rename_i search hsearch
      obtain ⟨raw, htranslated⟩ := translate_of_translateBody hsearch
      refine ⟨⟨.graphql, Collection.mem_all _, Query.translate_bounded htranslated⟩,
        fun outcome houtcome => ?_⟩
      match outcome with
      | .ok response => exact answered_ofJson (.inl rfl) rfl
      | .error (.downstream message) =>
        -- the one response after a call that lists errors
        exact ⟨.inl rfl, fun code hcode => (Option.some.inj hcode).symm⟩
      | .error .credentialMissing => exact absurd rfl houtcome

theorem answered_objectResponse {outcome : Except BackendError Value}
    (h : outcome ≠ .error .credentialMissing) : Answered (objectResponse outcome) := by
  match outcome with
  | .ok data => exact answered_ofJson (.inl rfl) rfl
  | .error (.downstream message) => exact answered_ofJson (.inr rfl) rfl
  | .error .credentialMissing => exact absurd rfl h

theorem listPlan_guarded {method : Method} (hmethod : method = .get ∨ method = .head)
    {part : List Char} (hne : part ≠ []) (hpart : '/' ∉ part) :
    (listPlan part).Guarded fun call =>
      Names method ("/api/hubspot/".toList ++ part) call ∧ InBounds call := by
  refine .need fun collection hcollection => ?_
  exact ⟨⟨.list hmethod hne (spells_of_parameter hpart hcollection), trivial⟩,
    fun _ => answered_objectResponse⟩

theorem createPlan_guarded {part : List Char} (hne : part ≠ []) (hpart : '/' ∉ part)
    (request : Request) :
    (createPlan part request).Guarded fun call =>
      Names .post ("/api/hubspot/".toList ++ part) call ∧ InBounds call := by
  refine .need fun collection hcollection => .need fun body _ => ?_
  exact ⟨⟨.create hne (spells_of_parameter hpart hcollection), trivial⟩,
    fun _ => answered_objectResponse⟩

theorem updatePlan_guarded {part idPart : List Char} (hpart : '/' ∉ part) (hne : idPart ≠ [])
    (hid : '/' ∉ idPart) (request : Request) :
    (updatePlan part idPart request).Guarded fun call =>
      Names .patch ("/api/hubspot/".toList ++ part ++ '/' :: idPart) call ∧ InBounds call := by
  refine .need fun collection hcollection => .need fun id hidText => .need fun body _ => ?_
  exact ⟨⟨.update (spells_of_parameter hpart hcollection) hne (spells_of_parameter hid hidText),
    trivial⟩, fun _ => answered_objectResponse⟩

theorem deletePlan_guarded {part idPart : List Char} (hpart : '/' ∉ part) (hne : idPart ≠ [])
    (hid : '/' ∉ idPart) :
    (deletePlan part idPart).Guarded fun call =>
      Names .delete ("/api/hubspot/".toList ++ part ++ '/' :: idPart) call ∧ InBounds call := by
  refine .need fun collection hcollection => .need fun id hidText => ?_
  refine ⟨⟨.delete (spells_of_parameter hpart hcollection) hne (spells_of_parameter hid hidText),
    trivial⟩, fun outcome houtcome => ?_⟩
  match outcome with
  | .ok () => exact answered_ofJson (.inl rfl) rfl
  | .error (.downstream message) => exact answered_ofJson (.inr rfl) rfl
  | .error .credentialMissing => exact absurd rfl houtcome

theorem webhookPlan_guarded (source : List Char) (status : Status) (body : List UInt8) :
    (webhookPlan source status body).Guarded condition := by
  refine .need fun name _ => ?_
  split <;> exact trivial

theorem webhookUrlPlan_guarded (source : List Char) (status : Status) :
    (webhookUrlPlan source status).Guarded condition :=
  .need fun _ _ => trivial

/-- What a route does for a request is guarded by what the method and the path name. -/
theorem Route.plan_guarded {route : Route} (hroute : route.Proper) (status : Status)
    (request : Request) :
    (route.plan status request).Guarded fun call =>
      Names request.method route.path call ∧ InBounds call := by
  unfold Route.plan
  -- the index, the health check and the webhooks never ask the backend
  split
  · exact trivial
  · exact trivial
  · exact trivial
  · exact trivial
  · rename_i hmethod
    rw [hmethod]
    exact graphqlPlan_guarded _
  · rename_i hmethod
    rw [hmethod]
    exact searchPlan_guarded hroute.1 hroute.2 _
  · rename_i hmethod
    exact listPlan_guarded (.inl hmethod) hroute.1 hroute.2
  · rename_i hmethod
    exact listPlan_guarded (.inr hmethod) hroute.1 hroute.2
  · rename_i hmethod
    rw [hmethod]
    exact createPlan_guarded hroute.1 hroute.2 request
  · rename_i hmethod
    rw [hmethod]
    exact updatePlan_guarded hroute.1 hroute.2.1 hroute.2.2 request
  · rename_i hmethod
    rw [hmethod]
    exact deletePlan_guarded hroute.1 hroute.2.1 hroute.2.2
  · exact webhookPlan_guarded _ _ _
  · exact webhookUrlPlan_guarded _ _
  · exact webhookUrlPlan_guarded _ _
  · exact trivial

/-- So is what the whole gateway does; a path without a route is answered at once. -/
theorem Server.plan_guarded (status : Status) (request : Request) :
    (Server.plan status request).Guarded fun call =>
      Names request.method request.path call ∧ InBounds call := by
  unfold Server.plan
  cases hroute : Route.ofPath? request.path with
  | none => exact trivial
  | some route =>
    obtain ⟨hpath, hproper⟩ := Route.ofPath?_spec hroute
    rw [hpath]
    exact Route.plan_guarded hproper status request

end SearchGateway.Gateway
