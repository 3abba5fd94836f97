/-
  SearchGateway.Proofs.ClientRequests

  What a client sends for a call and what it makes of the reply.  The client is made
  from an address with a path of simple names and slashes behind it, and from a token
  with whitespace around it.
-/
import SearchGateway.Proofs.ObjectAddresses
import SearchGateway.Proofs.RequestText

namespace SearchGateway.Backend

open SearchGateway.Http (Url)
open SearchGateway.Query (Collection SearchRequest)
open SearchGateway.Text (trim trimEnd)

/-! ## Base addresses with slashes behind them -/

/-- A path of simple names, each after a slash, with any number of slashes behind it. -/
structure IsPathSuffix (suffix : List Char) : Prop where
  front : suffix = [] ∨ suffix.head? = some '/'
  chars : ∀ c ∈ suffix, c = '/' ∨ Url.isNameChar c = true

theorem IsPathSuffix.exists_base {suffix : List Char} (h : IsPathSuffix suffix) :
    ∃ base : List (List Char), (∀ segment ∈ base, Url.IsPlain segment) ∧
      trimEnd (· == '/') suffix = base.flatMap ('/' :: ·) := by
  have hbeginning := Text.trimEnd_isPrefix (· == '/') suffix
  cases htrimmed : Text.trimEnd (· == '/') suffix with
  | nil => exact ⟨[], by simp, rfl⟩
  | cons c path =>
    rw [htrimmed] at hbeginning
    obtain rfl : c = '/' := by
      obtain ⟨rest, rfl⟩ := hbeginning
      simpa using h.front
    refine ⟨Text.split '/' path, fun segment hsegment => ?_, (Text.flatMap_split '/' path).symm⟩
    refine Url.isPlain_of_isNameChar (List.all_eq_true.mpr fun c hc => ?_)
    have hmem : c ∈ (Text.split '/' path).flatMap ('/' :: ·) :=
      List.mem_flatMap.mpr ⟨segment, hsegment, List.mem_cons_of_mem _ hc⟩
    rw [Text.flatMap_split] at hmem
    refine (h.chars c (hbeginning.subset hmem)).resolve_left ?_
    rintro rfl
    exact Text.notMem_of_mem_split hsegment hc

/-- A token that can be used: something is left of it without the whitespace around it, and that can
    stand in a header. -/
structure IsUsable (token : String) : Prop where
  nonempty : trim token.toList ≠ []
  legal : Http.isHeaderValue (String.ofList (trim token.toList)) = true

/-- The client of an origin, a path behind it and a token. -/
def clientOf (origin suffix token : String) : Client :=
  ⟨String.ofList (origin.toList ++ trimEnd (· == '/') suffix.toList),
    String.ofList (trim token.toList)⟩

theorem Client.make_eq {origin suffix token : String} (horigin : Url.IsFront origin.toList)
    (htoken : IsUsable token) :
    Client.make (origin ++ suffix) (some token) = .ok (clientOf origin suffix token) := by
  have husable : usableToken? (some token) = some (String.ofList (trim token.toList)) := by
    simp only [usableToken?]
    rw [if_neg (by simpa using htoken.nonempty)]
  have hlast := horigin.getLast?_ne
  rw [make, husable, String.toList_append, Text.trimEnd_append hlast.1 hlast.2]
  rfl

theorem isHeaderValue_bearer {token : String} (h : Http.isHeaderValue token = true) :
    Http.isHeaderValue ("Bearer " ++ token) = true := by
  rw [Http.isHeaderValue, Text.Utf8.ofString, String.toList_append, Text.Utf8.encode_append,
    List.all_append, Bool.and_eq_true]
  exact ⟨by decide, h⟩

/-! ## What is sent -/

/-- A client with a base address that can be read and a token that can stand in a header. -/
structure Client.Configured (client : Client) (home : Url) (front : List Char)
    (base : List (List Char)) : Prop extends client.HasBase front base where
  reads : Url.ofText? (front ++ ['/']) = some home
  legal : Http.isHeaderValue ("Bearer " ++ client.token) = true

theorem clientOf_configured {origin suffix token : String} {home : Url}
    (horigin : Url.IsFront origin.toList) (hhome : Url.ofText? (origin.toList ++ ['/']) = some home)
    (hsuffix : IsPathSuffix suffix.toList) (htoken : IsUsable token) :
    ∃ base : List (List Char), trimEnd (· == '/') suffix.toList = base.flatMap ('/' :: ·) ∧
      (clientOf origin suffix token).Configured home origin.toList base := by
  obtain ⟨base, hplain, hbase⟩ := hsuffix.exists_base
  refine ⟨base, hbase, ⟨⟨horigin, hplain, ?_⟩, hhome, isHeaderValue_bearer htoken.legal⟩⟩
  rw [clientOf, String.toList_ofList, hbase]

section Sent

variable {client : Client} {home : Url} {front : List Char} {base : List (List Char)}

/-- Every call has an address below the path of all objects. -/
theorem Client.exists_address (client : Client) (call : Call) :
    ∃ rest, (client.address call).toList =
      client.baseUrl.toList ++ ("/crm/v3/objects/".toList ++ rest) := by
  cases call with
  | list collection | create collection _ =>
    exact ⟨collection.toList, client.toList_objectsAddress collection⟩
  | search collection _ =>
    refine ⟨collection.id.toList ++ "/search".toList, ?_⟩
    rw [address, String.toList_append, toList_objectsAddress]
    simp only [List.append_assoc]
  | update collection id _ | delete collection id =>
    refine ⟨collection.toList ++ ("/".toList ++ id.toList), ?_⟩
    rw [address, String.toList_append, String.toList_append, toList_objectsAddress]
    simp only [List.append_assoc]

/-- Every call has a request, and it goes to the origin of the base address whatever names the call
    has. -/
theorem Client.Configured.exists_request (h : client.Configured home front base) (call : Call) :
    ∃ request, client.request? call = some request ∧ request.url.origin = home.origin := by
  obtain ⟨rest, hrest⟩ := client.exists_address call
  have hurl := Url.ofText?_path h.isFront (isPlain_stem h.isPlain) rest
  rw [h.reads, Option.map_some, ← h.objects, ← hrest] at hurl
  exact ⟨_, Client.request?_eq_some_iff.mpr ⟨_, hurl, h.legal, rfl⟩, rfl⟩

/-- The request of a search. -/
theorem Client.Configured.request?_search (h : client.Configured home front base)
    (collection : Collection) (search : SearchRequest) :
    client.request? (.search collection search) = some
      ⟨.post, home.withSegments (stem base ++ [collection.id.toList, "search".toList]) [],
        "Bearer " ++ client.token, some search.wire⟩ := by
  have hcollection : Url.IsPlain collection.id.toList :=
    Url.isPlain_of_isNameChar (by cases collection <;> decide)
  have hsearch : Url.IsPlain "search".toList := Url.isPlain_of_isNameChar (by decide)
  have hplain : ∀ segment ∈ stem base ++ [collection.id.toList], Url.IsPlain segment := by
    rw [List.forall_mem_append, List.forall_mem_singleton]
    exact ⟨isPlain_stem h.isPlain, hcollection⟩
  have hurl := Url.ofText?_plain h.isFront hplain hsearch
  have hpath : (stem base ++ [collection.id.toList]).flatMap ('/' :: ·) ++ '/' :: "search".toList =
      (stem base).flatMap ('/' :: ·) ++ '/' :: (collection.id.toList ++ "/search".toList) := by
    rw [List.flatMap_append, List.flatMap_singleton, List.append_assoc]
    rfl
  have haddress : (client.address (.search collection search)).toList = client.baseUrl.toList ++
      ("/crm/v3/objects/".toList ++ (collection.id.toList ++ "/search".toList)) := by
    rw [Client.address, String.toList_append, toList_objectsAddress]
    simp only [List.append_assoc]
  rw [h.reads, Option.map_some, hpath, ← h.objects, ← haddress, List.append_assoc,
    List.singleton_append] at hurl
  exact Client.request?_eq_some_iff.mpr ⟨_, hurl, h.legal, rfl⟩

end Sent

/-! ## Replies -/

/-- What the body of a reply has to say to a call: a search result, any JSON value, or nothing in
    particular. -/
def Parses : (call : Call) → List UInt8 → call.Reply → Prop
  | .search _ _, body, reply => SearchResponse.parse body = .ok reply
  | .list _, body, reply | .create _ _, body, reply | .update _ _ _, body, reply =>
    Json.read Json.value body = .ok reply
  | .delete _ _, _, _ => True

/-- What a call returns for the status and the body of a reply. -/
inductive Replied (call : Call) (status : Nat) (body : List UInt8) :
    Except BackendError call.Reply → Prop where
  | refused (hstatus : status < 200 ∨ 300 ≤ status) :
      Replied call status body (.error (.downstream
        ("HubSpot API error (" ++ String.ofList (Nat.toDigits 10 status) ++ " " ++
          Http.reason status ++ "): " ++ String.ofList (Text.Utf8.decodeLossy body))))
  | returned {reply : call.Reply} (hstatus : 200 ≤ status ∧ status < 300)
      (hbody : Parses call body reply) : Replied call status body (.ok reply)
  | unreadable (hstatus : 200 ≤ status ∧ status < 300) (hbody : ∀ reply, ¬ Parses call body reply) :
      Replied call status body (.error (.downstream
        "Failed to parse HubSpot response: error decoding response body"))

theorem toOption_eq_some_iff {ε α : Type} {x : Except ε α} {a : α} :
    x.toOption = some a ↔ x = .ok a := by
  cases x with
  | error e => exact ⟨fun h => (nomatch h), fun h => (nomatch h)⟩
  | ok b => exact ⟨fun h => congrArg _ (Option.some.inj h), fun h => congrArg _ (Except.ok.inj h)⟩

theorem readReply_eq_some_iff {call : Call} {body : List UInt8} {reply : call.Reply} :
    Client.readReply call body = some reply ↔ Parses call body reply := by
  cases call with
  | search _ _ | list _ | create _ _ | update _ _ _ => exact toOption_eq_some_iff
  | delete _ _ => exact ⟨fun _ => trivial, fun _ => rfl⟩

/-- Every reply is turned into what it means. -/
theorem outcome_replied (call : Call) (url : Url) (status : Nat) (body : List UInt8) :
    Replied call status body (Client.outcome call url (.reply status body)) := by
  rw [Client.outcome]
  split
  · rename_i hsuccess
    have hstatus : 200 ≤ status ∧ status < 300 := by
      simpa [Http.isSuccess] using hsuccess
    cases hread : Client.readReply call body with
    | some reply => exact .returned hstatus (readReply_eq_some_iff.mp hread)
    | none =>
      refine .unreadable hstatus fun reply hparses => ?_
      rw [readReply_eq_some_iff.mpr hparses] at hread
      exact nomatch hread
  · rename_i hfailure
    have hstatus : status < 200 ∨ 300 ≤ status := by
      rw [Http.isSuccess, Bool.and_eq_true, decide_eq_true_eq, decide_eq_true_eq] at hfailure
      omega
    have hrefused := @Replied.refused call status body hstatus
    simpa only [Client.apiError, Http.statusLine, String.append_assoc] using hrefused

/-! ## Clients in use -/

/-- A search as the backend receives it. -/
structure SentSearch (suffix token : String) (collection : Collection) (search : SearchRequest)
    (request : Outgoing) : Prop where
  verb : request.verb = .post
  target : request.url.target =
    trimEnd (· == '/') suffix.toList ++ "/crm/v3/objects/".toList ++ collection.id.toList ++
      "/search".toList
  authorization : request.authorization = "Bearer " ++ String.ofList (trim token.toList)
  contentType : request.contentType = some "application/json"
  body : request.body = some search.wire
  readBack : SearchRequest.parse (Text.Utf8.ofString search.wire) = .ok search

theorem Client.Configured.sentSearch {client : Client} {home : Url} {front : List Char}
    {base : List (List Char)} (h : client.Configured home front base) {suffix token : String}
    (hbase : trimEnd (· == '/') suffix.toList = base.flatMap ('/' :: ·))
    (htoken : client.token = String.ofList (trim token.toList)) {collection : Collection}
    {search : SearchRequest} (hlimit : Json.IsInt64 search.limit) {request : Outgoing}
    (hrequest : client.request? (.search collection search) = some request) :
    SentSearch suffix token collection search request := by
  rw [h.request?_search, htoken] at hrequest
  obtain rfl := Option.some.inj hrequest
  have hread := SearchRequest.parse_spelled search.spelledBy_toJson hlimit
  refine ⟨rfl, ?_, rfl, rfl, rfl, hread⟩
  have hpath : (stem base ++ [collection.id.toList, "search".toList]).flatMap ('/' :: ·) =
      base.flatMap ('/' :: ·) ++ "/crm/v3/objects/".toList ++ collection.id.toList ++
        "/search".toList := by
    rw [stem, List.append_assoc, List.flatMap_append, List.append_assoc, List.append_assoc]
    simp
  rw [hbase, ← hpath]
  exact List.append_nil _

/-- What a client does for a call: it sends one request, which goes to its origin, and makes of the
    reply what its status and its body mean. -/
structure Client.Serves (client : Client) (home : Url) (suffix token : String) (call : Call)
    (request : Outgoing) : Prop where
  written : client.request? call = some request
  origin : request.url.origin = home.origin
  search : ∀ collection search, call = .search collection search → Json.IsInt64 search.limit →
    SentSearch suffix token collection search request
  sends : ∀ transport earlier, Id.run ((client.exchange transport call).run earlier) =
    (Client.outcome call request.url (transport request), earlier ++ [request])
  returns : ∀ transport, client.service transport call =
    Client.outcome call request.url (transport request)
  replied : ∀ transport status body, transport request = .reply status body →
    200 ≤ status → status ≤ 599 → Replied call status body (client.service transport call)

/-- **What a client sends and returns.**  A client is made from a readable origin, a path of simple
    names with slashes behind it and a token that can be used, and it serves every call. -/
theorem Client.make_serves {origin suffix token : String} {home : Url}
    (horigin : Url.IsFront origin.toList) (hhome : Url.ofText? (origin.toList ++ ['/']) = some home)
    (hsuffix : IsPathSuffix suffix.toList) (htoken : IsUsable token) :
    ∃ client, Client.make (origin ++ suffix) (some token) = .ok client ∧
      ∀ call, ∃ request, client.Serves home suffix token call request := by
  obtain ⟨base, hbase, hconfigured⟩ := clientOf_configured horigin hhome hsuffix htoken
  refine ⟨_, Client.make_eq horigin htoken, fun call => ?_⟩
  obtain ⟨request, hrequest, horiginal⟩ := hconfigured.exists_request call
  refine ⟨request, hrequest, horiginal, ?_, Client.exchange_of_request hrequest,
    Client.service_of_request hrequest, ?_⟩
  · rintro collection search rfl hlimit
    exact hconfigured.sentSearch hbase rfl hlimit hrequest
  · intro transport status body hreply _ _
    rw [Client.service_of_request hrequest, hreply]
    exact outcome_replied call request.url status body

theorem Client.make_serves_slashes :
    Url.IsFront "http://127.0.0.1:3100".toList ∧ IsPathSuffix "/base//".toList ∧
      IsUsable " pat-test\n" ∧
      ∃ client, Client.make ("http://127.0.0.1:3100" ++ "/base//") (some " pat-test\n") =
          .ok client ∧
        ∀ call, ∃ request, client.Serves
          ⟨.http, "127.0.0.1".toList, some 3100, [[]], none, none⟩ "/base//" " pat-test\n" call
          request := by
  have horigin : Url.IsFront "http://127.0.0.1:3100".toList :=
    ⟨"http".toList, "//".toList, "127.0.0.1:3100".toList, by decide, by decide,
      Text.forall_mem_of_all (by decide), ⟨'1', by decide, by decide⟩,
      Text.forall_mem_of_all (by decide)⟩
  have hhome : Url.ofText? ("http://127.0.0.1:3100".toList ++ ['/']) =
      some ⟨.http, "127.0.0.1".toList, some 3100, [[]], none, none⟩ := by decide +kernel
  have hsuffix : IsPathSuffix "/base//".toList :=
    ⟨by decide, Text.forall_mem_of_all (by decide)⟩
  have htoken : IsUsable " pat-test\n" := ⟨by decide, by decide +kernel⟩
  exact ⟨horigin, hsuffix, htoken, Client.make_serves horigin hhome hsuffix htoken⟩

end SearchGateway.Backend
