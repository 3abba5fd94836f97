/-
  SearchGateway.Proofs.Deliveries

  Where deliveries to the address of a webhook arrive.  A source is unescaped when
  its address is asked for and put into the address as it is, so the address leads
  back to the receiver of that source only if the source stays inside one segment of
  a path.
-/
import Mathlib.Data.List.TakeWhile
import SearchGateway.Proofs.Answers
import SearchGateway.Proofs.Decimals
import SearchGateway.Proofs.ObjectAddresses

namespace SearchGateway.Gateway

open SearchGateway.Backend (Confined StandsFor standsFor_encode_iff notMem_iff)
open SearchGateway.Http (Request Response Url)
open SearchGateway.Json (Value)
open SearchGateway.Text.Percent (EscapeFree)

/-! ## The receiver -/

/-- A response by which the receiver takes a delivery for a source. -/
structure Takes (source : String) (now : Timestamp) (response : Response) : Prop where
  status : response.status = 200
  success : field? "success" response = some (.bool true)
  received : field? "received" response = some (.string now.text)
  source : field? "source" response = some (.string source)

/-- A response that names no source. -/
def Sourceless (response : Response) : Prop :=
  field? "source" response = none

theorem searchPlan_sourceless (part : List Char) (body : List UInt8) :
    (searchPlan part body).Always Sourceless := by
  refine .need (fun response h => ?_) fun endpoint => ?_
  · obtain ⟨text, rfl⟩ := eq_ofText_of_parameter h
    rfl
  · have hfailure (error : GatewayError) : Sourceless (searchFailure endpoint error) := by
      cases hnames : error.supportedEndpoints <;> rw [Sourceless, searchFailure, hnames] <;> rfl
    split
    · rfl
    · split
      · exact hfailure _
      · rintro (e | found)
        · exact hfailure _
        · rfl

theorem graphqlPlan_sourceless (body : List UInt8) : (graphqlPlan body).Always Sourceless := by
  unfold graphqlPlan
  split
  · rfl
  · split
    · rfl
    · rintro (e | found) <;> rfl

theorem createPlan_sourceless (part : List Char) (request : Request) :
    (createPlan part request).Always Sourceless := by
  refine .need (fun response h => ?_) fun _ => .need (fun response h => ?_) ?_
  · obtain ⟨text, rfl⟩ := eq_ofText_of_parameter h
    rfl
  · obtain ⟨status, text, rfl⟩ := eq_ofText_of_readJson h
    rfl
  · rintro _ (e | data) <;> rfl

/-- A post is answered with a source only by the receiver. -/
theorem Route.plan_sourceless {route : Route} {request : Request} (hmethod : request.method = .post)
    (hroute : ∀ part, route ≠ .webhook part) (status : Status) :
    (route.plan status request).Always Sourceless := by
  cases route with
  | webhook part => exact absurd rfl (hroute part)
  | graphql =>
    simp only [Route.plan, hmethod]
    exact graphqlPlan_sourceless request.body
  | search part =>
    simp only [Route.plan, hmethod]
    exact searchPlan_sourceless part request.body
  | objects part =>
    simp only [Route.plan, hmethod]
    exact createPlan_sourceless part request
  | index | health | object _ _ | webhookUrl _ =>
    simp only [Route.plan, hmethod]
    rfl

section Receiver

variable {server : Server} {request : Request} {source : String}

/-- A post to a path without a route is answered with 404. -/
theorem Server.handle_post_nowhere (hmethod : request.method = .post)
    (hroute : Route.ofPath? request.path = none) (uptimeSecs : Nat) (now : Timestamp) :
    (server.handle uptimeSecs now request).1.status = 404 := by
  have hoptions : request.method ≠ .options := by
    rw [hmethod]
    exact nofun
  rw [Server.handle, if_neg hoptions, Server.plan, hroute]
  dsimp only
  split <;> rfl

/-- The receiver takes what its open part spells. -/
theorem takes_webhookPlan_iff {part : List Char} (hpart : '/' ∉ part) {body : List UInt8}
    (hsize : body.length ≤ 2097152) (status : Status) (headers : Http.Headers)
    (backend : Option Backend.Service) :
    Takes source status.now
        (((webhookPlan part status body).run backend).1.withHeaders headers) ↔
      Spells part source := by
  cases hread : parameter "source" part with
  | error response =>
    obtain ⟨text, rfl⟩ := eq_ofText_of_parameter hread
    rw [webhookPlan, hread]
    constructor
    · intro h
      have hstatus : 400 = 200 := h.status
      exact absurd hstatus (by decide)
    · intro hspells
      rw [parameter_of_spells hspells] at hread
      exact nomatch hread
  | ok text =>
    rw [webhookPlan, hread, Plan.need, isTooLarge_eq_false hsize]
    constructor
    · intro h
      obtain rfl : text = source := by
        have hsource : some (Value.string text) = some (.string source) := h.source
        simpa using hsource
      exact spells_of_parameter hpart hread
    · intro hspells
      obtain rfl : source = text :=
        Except.ok.inj ((parameter_of_spells hspells "source").symm.trans hread)
      exact ⟨rfl, rfl, rfl, rfl⟩

/-- A part that spells a text leads to the receiver. -/
theorem ofPath?_webhook {part : List Char} (hne : part ≠ []) (hspells : Spells part source) :
    Route.ofPath? ("/webhooks/".toList ++ part) = some (.webhook part) := by
  have hproper : (Route.webhook part).Proper := ⟨hne, hspells.1⟩
  exact Route.ofPath?_path hproper

/-- A post within the size limit is taken for a source exactly if its path spells the source at the
    place of the receiver. -/
theorem takes_iff (hmethod : request.method = .post) (hsize : request.body.length ≤ 2097152)
    (uptimeSecs : Nat) (now : Timestamp) :
    Takes source now (server.handle uptimeSecs now request).1 ↔
      ∃ part, request.path = "/webhooks/".toList ++ part ∧ part ≠ [] ∧ Spells part source := by
  have hstatus : (server.status uptimeSecs now).now = now := rfl
  cases hroute : Route.ofPath? request.path with
  | none =>
    have hnowhere := @Server.handle_post_nowhere server request hmethod hroute uptimeSecs now
    constructor
    · intro h
      exact absurd (h.status.symm.trans hnowhere) (by decide)
    · rintro ⟨part, hpath, hne, hspells⟩
      rw [hpath, ofPath?_webhook hne hspells] at hroute
      cases hroute
  | some route =>
    rw [Server.handle_post hmethod hroute]
    by_cases hwebhook : ∃ part, route = .webhook part
    · obtain ⟨part, rfl⟩ := hwebhook
      obtain ⟨hpath, hne, hpart⟩ := Route.ofPath?_spec hroute
      have htakes := @takes_webhookPlan_iff source part hpart request.body hsize
        (server.status uptimeSecs now) (server.cors.responseHeaders request) server.backend
      simp only [Route.plan, hmethod]
      rw [hstatus] at htakes
      rw [htakes, hpath]
      constructor
      · intro hspells
        exact ⟨part, rfl, hne, hspells⟩
      · rintro ⟨other, hother, -, hspells⟩
        rwa [List.append_cancel_left hother]
    · rw [not_exists] at hwebhook
      have hsourceless := (Route.plan_sourceless hmethod hwebhook
        (server.status uptimeSecs now)).run server.backend
      constructor
      · intro h
        have hnone : field? "source" _ = none := hsourceless
        cases hnone.symm.trans h.source
      · rintro ⟨part, hpath, hne, hspells⟩
        rw [hpath, ofPath?_webhook hne hspells] at hroute
        exact absurd (Option.some.inj hroute).symm (hwebhook part)

end Receiver

/-! ## Addresses -/

/-- The address of a webhook up to its path. -/
def localFront (port : Nat) : List Char :=
  "http://localhost:".toList ++ Nat.toDigits 10 port

/-- The address of the gateway itself. -/
def localUrl (port : Nat) : Url where
  scheme := .http
  host := "localhost".toList
  port := if port = Http.Scheme.http.defaultPort then none else some port
  segments := [[]]
  query := none
  fragment := none

theorem toList_webhookAddress (port : Nat) (source : String) :
    (webhookAddress port source).toList =
      localFront port ++ ("/webhooks/".toList ++ source.toList) := by
  unfold webhookAddress localFront
  simp only [String.toList_append, String.toList_ofList, List.append_assoc]

/-- The digits of a port are none of the characters that an address treats in its own way. -/
theorem notMem_of_mem_port {port : Nat} {c : Char} (hc : c ∈ Nat.toDigits 10 port) :
    c ∉ ":@/\\?#".toList :=
  Json.of_mem_toDigits (p := fun c => c ∉ ":@/\\?#".toList) (by decide) hc

theorem forall_mem_localhost {p : Char → Prop} (hname : ∀ c ∈ "localhost:".toList, p c)
    (hmarks : ∀ c, c ∉ ":@/\\?#".toList → p c) (port : Nat) :
    ∀ c ∈ "localhost:".toList ++ Nat.toDigits 10 port, p c := by
  rw [List.forall_mem_append]
  exact ⟨hname, fun c hc => hmarks c (notMem_of_mem_port hc)⟩

theorem notMem_of_mem_authority (port : Nat) :
    ∀ c ∈ "localhost:".toList ++ Nat.toDigits 10 port, c ∉ "/\\?#".toList := by
  have hmarks : "/\\?#".toList ⊆ ":@/\\?#".toList := by decide
  exact forall_mem_localhost (Text.forall_mem_of_all (by decide))
    (fun c hc hmem => hc (hmarks hmem)) port

theorem isFront_localFront (port : Nat) : Url.IsFront (localFront port) :=
  ⟨"http".toList, "//".toList, "localhost:".toList ++ Nat.toDigits 10 port, rfl, by decide,
    Text.forall_mem_of_all (by decide), ⟨'l', List.mem_append_left _ (by decide), by decide⟩,
    notMem_of_mem_authority port⟩

/-- No credentials stand in front of the local host. -/
theorem withoutCredentials_localhost (port : Nat) :
    Url.withoutCredentials ("localhost:".toList ++ Nat.toDigits 10 port) =
      "localhost:".toList ++ Nat.toDigits 10 port := by
  have hall : ∀ c ∈ "localhost:".toList ++ Nat.toDigits 10 port, (c != '@') = true := by
    refine forall_mem_localhost (Text.forall_mem_of_all (by decide)) (fun c hc => ?_) port
    rw [bne_iff_ne]
    rintro rfl
    exact hc (by decide)
  have htake : ("localhost:".toList ++ Nat.toDigits 10 port).reverse.takeWhile (· != '@') =
      ("localhost:".toList ++ Nat.toDigits 10 port).reverse :=
    List.takeWhile_eq_self_iff.mpr fun c hc => hall c (List.mem_reverse.mp hc)
  rw [Url.withoutCredentials, htake, List.reverse_reverse]

/-- The authority of an address names the local host and the port. -/
theorem home?_localhost {port : Nat} (h : port ≤ 65535) :
    Url.home? "http".toList ("localhost:".toList ++ Nat.toDigits 10 port) =
      some { localUrl port with segments := [] } := by
  have hname : ∀ c ∈ "localhost".toList, (c != ':') = true := Text.forall_mem_of_all (by decide)
  have hhost : ("localhost:".toList ++ Nat.toDigits 10 port).takeWhile (· != ':') =
      "localhost".toList := Text.takeWhile_run hname (by decide) (Nat.toDigits 10 port)
  have hport : ("localhost:".toList ++ Nat.toDigits 10 port).dropWhile (· != ':') =
      ':' :: Nat.toDigits 10 port := Text.dropWhile_run hname (by decide) (Nat.toDigits 10 port)
  have hdigits : (Nat.toDigits 10 port).all Char.isDigit = true :=
    List.all_eq_true.mpr (Json.isDigit_toDigits port)
  have hnonempty : (Nat.toDigits 10 port).isEmpty = false :=
    List.isEmpty_eq_false_iff.mpr Nat.toDigits_ne_nil
  have hvalue : (Nat.toDigits 10 port).foldl (fun n c => n * 10 + (c.toNat - 48)) 0 = port := by
    rw [Json.foldl_eq_ofDigitChars, Nat.ofDigitChars_ten_toDigits]
  have hauthority : Url.hostPort? .http ("localhost:".toList ++ Nat.toDigits 10 port) =
      some ("localhost".toList, (localUrl port).port) := by
    have hlegal : ("localhost".toList.isEmpty || "localhost".toList.any Url.isForbiddenInHost) =
      false := by decide
    have hlower : "localhost".toList.map Char.toLower = "localhost".toList := by decide
    simp only [Url.hostPort?, hhost, hport, hlegal, hlower, hdigits, hnonempty, hvalue,
      Bool.false_or, localUrl, if_pos h, beq_iff_eq, Bool.false_eq_true, if_false, if_true]
    split <;> rfl
  have hscheme : Http.Scheme.ofName? "http".toList = some .http := by decide
  rw [Url.home?, hscheme, withoutCredentials_localhost]
  simp only [Option.bind_eq_bind, Option.bind_some, hauthority]
  rfl

theorem cleaned_localFront (port : Nat) :
    Url.cleaned (localFront port ++ ['/']) = localFront port ++ ['/'] := by
  have hvisible : ∀ c ∈ localFront port ++ ['/'], Url.isControlOrSpace c = false := by
    unfold localFront
    rw [List.forall_mem_append, List.forall_mem_append]
    exact ⟨⟨Text.forall_mem_of_all (by decide), fun c => Json.of_mem_toDigits
      (p := fun c => Url.isControlOrSpace c = false) (by decide)⟩,
      Text.forall_mem_of_all (by decide)⟩
  rw [Url.cleaned, Text.trimBy_eq_self (fun c hc => hvisible c (List.mem_of_head? hc))
    (fun c hc => hvisible c (List.mem_of_getLast? hc))]
  exact List.filter_eq_self.mpr fun c hc => Url.isKept_of_isControlOrSpace (hvisible c hc)

/-- The front of an address leads to the gateway itself. -/
theorem ofText?_localFront {port : Nat} (h : port ≤ 65535) :
    Url.ofText? (localFront port ++ ['/']) = some (localUrl port) := by
  have hparts : localFront port ++ ['/'] = "http".toList ++ ':' :: ("//".toList ++
      ("localhost:".toList ++ Nat.toDigits 10 port ++ '/' :: [])) := rfl
  rw [Url.ofText?_of_cleaned ((cleaned_localFront port).trans hparts) (by decide)
    (Text.forall_mem_of_all (by decide)) (by simp) (notMem_of_mem_authority port),
    home?_localhost h]
  rfl

/-- The segments of the path of an address in normal form. -/
def webhookSegments (source : List Char) : List (List Char) :=
  Url.resolve ["webhooks".toList]
    ((Text.split '/' (Url.placeOf (Url.readable source))).map
      (Text.Percent.encode Url.isPlainInPath))

/-- The address of a webhook in normal form. -/
theorem ofText?_webhookAddress {port : Nat} (h : port ≤ 65535) (source : String) :
    Url.ofText? (webhookAddress port source).toList =
      some ((localUrl port).withSegments (webhookSegments source.toList)
        (Url.behindPlace (Url.readable source.toList))) := by
  have hplain : ∀ segment ∈ ["webhooks".toList], Url.IsPlain segment :=
    List.forall_mem_singleton.mpr (Url.isPlain_of_isNameChar (by decide))
  have hpath := Url.ofText?_path (isFront_localFront port) hplain source.toList
  rw [ofText?_localFront h] at hpath
  rw [toList_webhookAddress]
  exact hpath

/-- The path of an address, as it is written. -/
theorem path_webhookAddress (port : Nat) (source : String) :
    Http.Target.path (webhookAddress port source).toList =
      "/webhooks/".toList ++ Http.Target.leadingPath source.toList := by
  have hparts : (webhookAddress port source).toList = "http".toList ++ ("://".toList ++
      ("localhost:".toList ++ Nat.toDigits 10 port ++ ("/webhooks/".toList ++ source.toList))) :=
    toList_webhookAddress port source
  have hscheme : ∀ c ∈ "http".toList, Http.Target.isSchemeChar c = true :=
    Text.forall_mem_of_all (by decide)
  have hauthority : ∀ c ∈ "localhost:".toList ++ Nat.toDigits 10 port,
      (!Http.Target.endsAuthority c) = true := by
    refine forall_mem_localhost (Text.forall_mem_of_all (by decide)) (fun c hc => ?_) port
    simp at hc
    simp [Http.Target.endsAuthority, Http.Target.endsPath, hc]
  have hafter : Http.Target.afterAuthority? (webhookAddress port source).toList =
      some ("/webhooks/".toList ++ source.toList) := by
    have hcolon (rest : List Char) :
        ("://".toList ++ rest).dropWhile Http.Target.isSchemeChar = "://".toList ++ rest := rfl
    rw [Http.Target.afterAuthority?, hparts, List.dropWhile_append_of_pos hscheme, hcolon,
      Text.after?_append, Option.map_some, List.dropWhile_append_of_pos hauthority]
    rfl
  have hleading : Http.Target.leadingPath ("/webhooks/".toList ++ source.toList) =
      "/webhooks/".toList ++ Http.Target.leadingPath source.toList :=
    List.takeWhile_append_of_pos (Text.forall_mem_of_all (by decide))
  rw [Http.Target.path, hafter]
  simp only [hleading]
  rfl

/-! ## Sources that arrive -/

/-- A source that is found again in the path of its address as it is written. -/
structure Verbatim (source : List Char) : Prop where
  chars : ∀ c ∈ source, c ∉ "/?#".toList
  free : EscapeFree source

/-- A source that is found again in the path of its address in normal form: it stays inside its
    segment, and it ends as an address may. -/
structure Deliverable (source : List Char) : Prop extends Confined source where
  last : ∀ c ∈ source.getLast?, Url.isControlOrSpace c = false

theorem keepsEscapes_all : Text.Percent.KeepsEscapes fun _ => true :=
  ⟨rfl, fun _ _ => rfl⟩

theorem escaped_all (cs : List Char) :
    Text.Percent.escaped (fun _ => true) cs = Text.Utf8.encode cs := by
  have hencode : Text.Percent.encode (fun _ => true) cs = cs := by
    induction cs with
    | nil => rfl
    | cons c cs ih =>
      rw [Text.Percent.encode, List.flatMap_cons, if_pos rfl, List.singleton_append]
      congr 1
  rw [Text.Percent.escaped, hencode]

/-- A part of a path is not shorter than the source it spells, and if it is as long it is the
    source. -/
theorem length_le_of_spells {part : List Char} {source : String} (h : Spells part source) :
    source.toList.length ≤ part.length ∧ (source.toList.length = part.length →
      EscapeFree part ∧ source.toList = part) :=
  Text.Percent.length_le_of_decode? keepsEscapes_all ((escaped_all part).symm ▸ h.2)

/-- A source spells itself if it has neither slashes nor escapes. -/
theorem spells_self_iff {source : String} :
    Spells source.toList source ↔ '/' ∉ source.toList ∧ EscapeFree source.toList := by
  rw [Spells, ← escaped_all, Text.Percent.decode?_escaped_iff keepsEscapes_all]

/-- The path of an address spells the source behind the place of the receiver exactly if the source
    has no slash, no mark that ends a path and no escape. -/
theorem spells_leadingPath_iff {source : String} :
    Spells (Http.Target.leadingPath source.toList) source ↔ Verbatim source.toList := by
  have hmarks (c : Char) : c ∉ "/?#".toList ↔ c ≠ '/' ∧ (!Http.Target.endsPath c) = true := by
    simp [Http.Target.endsPath]
  constructor
  · intro h
    -- the part is the beginning of the source, so it is all of it
    obtain ⟨hle, hsame⟩ := length_le_of_spells h
    have hbeginning : Http.Target.leadingPath source.toList <+: source.toList :=
      List.takeWhile_prefix _
    obtain ⟨hfree, heq⟩ := hsame (Nat.le_antisymm hle hbeginning.length_le)
    refine ⟨fun c hc => (hmarks c).mpr ?_, heq ▸ hfree⟩
    rw [heq] at hc
    constructor
    · rintro rfl
      exact h.1 hc
    · exact List.all_eq_true.mp List.all_takeWhile c hc
  · intro h
    have hwhole : Http.Target.leadingPath source.toList = source.toList :=
      List.takeWhile_eq_self_iff.mpr fun c hc => ((hmarks c).mp (h.chars c hc)).2
    rw [hwhole, spells_self_iff]
    exact ⟨fun hmem => ((hmarks _).mp (h.chars _ hmem)).1 rfl, h.free⟩

theorem notMem_encode {plain : Char → Bool} {cs : List Char} (h : '/' ∉ cs) :
    '/' ∉ Text.Percent.encode plain cs := by
  have hdigit : ∀ n < 16, Text.Percent.hexDigit n ≠ '/' := by decide
  rw [Text.Percent.encode, List.mem_flatMap]
  rintro ⟨c, hc, hmem⟩
  split at hmem
  · rw [List.mem_singleton] at hmem
    exact h (hmem ▸ hc)
  · obtain ⟨b, -, hb⟩ := List.mem_flatMap.mp hmem
    have hlt := b.toNat_lt
    simp only [Text.Percent.encodeByte, List.mem_cons, List.not_mem_nil, or_false] at hb
    rcases hb with hb | hb | hb
    · exact absurd hb (by decide)
    · exact hdigit _ (by omega) hb.symm
    · exact hdigit _ (by omega) hb.symm

/-- No segment of an address holds a slash. -/
theorem notMem_of_mem_webhookSegments {source segment : List Char}
    (h : segment ∈ webhookSegments source) : '/' ∉ segment := by
  rcases Url.mem_of_mem_resolve h with h | h | rfl
  · rw [List.mem_singleton] at h
    rw [h]
    decide
  · obtain ⟨name, hname, rfl⟩ := List.mem_map.mp h
    exact notMem_encode (Text.notMem_of_mem_split hname)
  · exact List.not_mem_nil

/-- A path has one list of segments. -/
theorem eq_of_flatMap_eq {segments : List (List Char)} (h : ∀ segment ∈ segments, '/' ∉ segment)
    {part : List Char} (hpart : '/' ∉ part)
    (hpath : segments.flatMap ('/' :: ·) = "/webhooks/".toList ++ part) :
    segments = ["webhooks".toList, part] := by
  have hwebhooks : Route.parts? ("/webhooks/".toList ++ part) = some ["webhooks".toList, part] :=
    Route.parts?_flatMap ["webhooks".toList] (by decide) hpart
  rcases List.eq_nil_or_concat segments with rfl | ⟨front, last, rfl⟩
  · exact nomatch hpath
  · rw [List.concat_eq_append] at h hpath ⊢
    rw [List.forall_mem_append, List.forall_mem_singleton] at h
    have hparts := Route.parts?_flatMap front h.1 h.2
    rw [List.flatMap_append, List.flatMap_singleton] at hpath
    rw [hpath, hwebhooks] at hparts
    exact (Option.some.inj hparts).symm

/-- A source without slashes is read as it is if it has none of the characters that an address treats
    in its own way and ends as an address may. -/
theorem isClean_iff {source : List Char} :
    (Url.IsClean source ∧ '/' ∉ source) ↔
      (∀ c ∈ source, c ∉ "/\\?#\t\n\r".toList) ∧
        ∀ c ∈ source.getLast?, Url.isControlOrSpace c = false := by
  simp only [notMem_iff]
  constructor
  · rintro ⟨hclean, hslash⟩
    refine ⟨fun c hc => ⟨?_, hclean.chars c hc⟩, hclean.last⟩
    rintro rfl
    exact hslash hc
  · rintro ⟨hchars, hlast⟩
    exact ⟨⟨fun c hc => (hchars c hc).2, hlast⟩, fun hc => (hchars _ hc).1 rfl⟩

/-- The segments of an address whose source is read as it is. -/
theorem webhookSegments_of_isClean {source : List Char} (hclean : Url.IsClean source)
    (hslash : '/' ∉ source) :
    webhookSegments source =
      Url.resolve ["webhooks".toList] [Text.Percent.encode Url.isPlainInPath source] := by
  rw [webhookSegments, hclean.readable_eq, hclean.placeOf_eq, Text.split_of_notMem hslash]
  rfl

/-- A source is deliverable if a segment behind the place of the receiver spells it. -/
theorem deliverable_of_spells {source : String} {part : List Char} (hpart : part ≠ [])
    (hsegments : webhookSegments source.toList = ["webhooks".toList, part])
    (hspells : Spells part source) : Deliverable source.toList := by
  have hlast : (webhookSegments source.toList).getLast? ≠ some [] := by
    rw [hsegments]
    simpa using hpart
  obtain ⟨kept, pushed, heq, hkept, hpushed⟩ :=
    Url.resolve_eq_append (by simpa using Text.split_ne_nil '/' _) ["webhooks".toList] hlast
  -- the segment is one of the pieces, because only the first segment was there before
  have hmem : part ∈ pushed := by
    have hlist : kept ++ pushed = ["webhooks".toList, part] := heq.symm.trans hsegments
    have hlength : kept.length ≤ 1 := hkept.length_le
    cases kept with
    | nil =>
      rw [List.nil_append] at hlist
      exact hlist ▸ List.mem_cons_of_mem _ List.mem_cons_self
    | cons first kept =>
      obtain rfl : kept = [] := by simpa using hlength
      rw [List.singleton_append] at hlist
      exact (List.cons.inj hlist).2 ▸ List.mem_cons_self
  obtain ⟨name, hname, rfl⟩ := List.mem_map.mp (hpushed.subset hmem)
  -- the piece is not shorter than the source, so it is all that is read, and that is the source
  obtain ⟨hle, hsame⟩ :=
    Text.Percent.length_le_of_decode? Url.keepsEscapes_isPlainInPath hspells.2
  obtain ⟨hnameLe, hwhole⟩ := Text.length_le_of_mem_split hname
  have hplace := Url.length_place_le source.toList
  obtain ⟨hfree, rfl⟩ := hsame (by omega)
  have hclean := Url.isClean_of_placeOf (hwhole (by omega)).symm
  have hslash : '/' ∉ source.toList := Text.notMem_of_mem_split hname
  obtain ⟨hchars, hend⟩ := isClean_iff.mp ⟨hclean, hslash⟩
  -- a dot segment would leave an empty one
  rw [webhookSegments_of_isClean hclean hslash] at hlast
  have hdots : ¬ (Url.isSingleDot (Text.Percent.encode Url.isPlainInPath source.toList) = true ∨
      Url.isDoubleDot (Text.Percent.encode Url.isPlainInPath source.toList) = true) :=
    fun hdot => hlast (Url.getLast?_resolve_dot hdot ["webhooks".toList])
  rw [not_or, Bool.not_eq_true, Bool.not_eq_true] at hdots
  obtain ⟨hdot, hdots⟩ := Url.ne_dots_of_encode hdots
  exact ⟨⟨hchars, hfree, hdot, hdots⟩, hend⟩

/-- The path of an address in normal form spells the source behind the place of the receiver exactly
    if the source is deliverable. -/
theorem spells_webhookSegments_iff {source : String} (hne : source ≠ "") :
    (∃ part, (webhookSegments source.toList).flatMap ('/' :: ·) = "/webhooks/".toList ++ part ∧
      part ≠ [] ∧ Spells part source) ↔ Deliverable source.toList := by
  constructor
  · rintro ⟨part, hpath, hpart, hspells⟩
    exact deliverable_of_spells hpart
      (eq_of_flatMap_eq (fun _ => notMem_of_mem_webhookSegments) hspells.1 hpath) hspells
  · intro h
    obtain ⟨hclean, hslash⟩ := isClean_iff.mpr ⟨h.chars, h.last⟩
    have hstands := standsFor_encode_iff.mpr h.free
    refine ⟨Text.Percent.encode Url.isPlainInPath source.toList, ?_,
      Backend.ne_nil_of_standsFor hstands (by simpa using hne), notMem_encode hslash, hstands⟩
    rw [webhookSegments_of_isClean hclean hslash, Url.resolve_eq_self
      (List.forall_mem_singleton.mpr (Url.isDot_encode_eq_false h.free h.dot h.dots)),
      List.flatMap_append, List.flatMap_singleton]
    rfl

/-! ## Where addresses lead -/

/-- A response that tells the address for a source. -/
structure Tells (address source : String) (response : Response) : Prop where
  status : response.status = 200
  success : field? "success" response = some (.bool true)
  address : field? "webhook_url" response = some (.string address)
  source : field? "source" response = some (.string source)

/-- The address of a source that is spelled is told to everyone who asks for it. -/
theorem tells_of_spells {server : Server} {part : List Char} {source : String} (hne : part ≠ [])
    (hspells : Spells part source) {request : Request} (hmethod : request.method = .get)
    (hpath : request.path = "/webhooks/url/".toList ++ part) (uptimeSecs : Nat) (now : Timestamp) :
    Tells (webhookAddress server.port source) source
      (server.handle uptimeSecs now request).1 := by
  have hproper : (Route.webhookUrl part).Proper := ⟨hne, hspells.1⟩
  have hroute : Route.ofPath? request.path = some (.webhookUrl part) := by
    rw [hpath]
    exact Route.ofPath?_path hproper
  have hplan : (Route.webhookUrl part).plan (server.status uptimeSecs now) request =
      webhookUrlPlan part (server.status uptimeSecs now) := by
    simp only [Route.plan, hmethod]
  rw [Server.handle_route (by rw [hmethod]; decide) (by rw [hmethod]; decide)
    hroute, hplan, webhookUrlPlan, parameter_of_spells hspells]
  exact ⟨rfl, rfl, rfl, rfl⟩

theorem decode_ne_nil {bytes : List UInt8} (h : bytes ≠ []) : Text.Percent.decode bytes ≠ [] := by
  fun_cases Text.Percent.decode bytes <;> simp_all

/-- A part that is not empty spells no empty source. -/
theorem ne_empty_of_spells {part : List Char} {source : String} (hne : part ≠ [])
    (hspells : Spells part source) : source ≠ "" := by
  rintro rfl
  have hempty := Text.Utf8.decode?_eq_some_iff.mp hspells.2
  have hbytes : Text.Utf8.encode part = [] := by
    by_contra hbytes
    exact decode_ne_nil hbytes hempty
  exact hne (Text.Utf8.encode_injective hbytes)

/-- **Where the address of a webhook leads.**  The address of every source that a segment spells is
    told.  A delivery of any content within the size limit to the path of that address is taken for
    the source exactly if the source has no slash, no question mark, no hash and no escape, where the
    path is sent as it is written; where the address is brought into normal form first, the source
    may have no backslash, tab or line end either, may be neither `.` nor `..`, and may not end in a
    control character or a space. -/
theorem webhookAddress_delivers_iff {server : Server} (hport : server.port ≤ 65535)
    {part : List Char} {source : String} (hne : part ≠ []) (hspells : Spells part source) :
    let address := webhookAddress server.port source
    (∀ (uptimeSecs : Nat) (now : Timestamp) (request : Request), request.method = .get →
      request.path = "/webhooks/url/".toList ++ part →
        Tells address source (server.handle uptimeSecs now request).1) ∧
    ∃ url : Url, Url.ofText? address.toList = some url ∧
      (url.scheme = .http ∧ url.host = "localhost".toList ∧ url.port.getD 80 = server.port) ∧
      ∀ (uptimeSecs : Nat) (now : Timestamp) (request : Request), request.method = .post →
        request.body.length ≤ 2097152 →
        let response := (server.handle uptimeSecs now request).1
        (request.path = Http.Target.path address.toList →
          (Takes source now response ↔ Verbatim source.toList)) ∧
        (request.path = url.path → (Takes source now response ↔ Deliverable source.toList)) := by
  have hsource := ne_empty_of_spells hne hspells
  refine ⟨fun uptimeSecs now request hmethod hpath =>
    tells_of_spells hne hspells hmethod hpath uptimeSecs now, _,
    ofText?_webhookAddress hport source, ⟨rfl, rfl, ?_⟩, ?_⟩
  · show (if server.port = 80 then none else some server.port).getD 80 = server.port
    split
    · rename_i hdefault
      exact hdefault.symm
    · rfl
  · intro uptimeSecs now request hmethod hsize
    have htakes := @takes_iff server request source hmethod hsize uptimeSecs now
    constructor
    · intro hpath
      rw [htakes, hpath, path_webhookAddress, ← spells_leadingPath_iff]
      constructor
      · rintro ⟨other, hother, -, hread⟩
        rwa [List.append_cancel_left hother]
      · intro hread
        refine ⟨_, rfl, ?_, hread⟩
        intro hnil
        rw [hnil] at hread
        have hempty : Spells [] "" := ⟨List.not_mem_nil, Text.Utf8.decode?_encode []⟩
        exact hsource (String.toList_inj.mp (Option.some.inj (hread.2.symm.trans hempty.2)))
    · intro hpath
      rw [htakes, hpath]
      exact spells_webhookSegments_iff hsource

/-- A gateway without a backend. -/
def bareServer (port : Nat) : Server where
  port := port
  cors := .any
  backend := none

/-- A source with a percent sign and a space is delivered to, because no escape begins with the
    percent sign. -/
theorem webhookAddress_delivers_iff_discount :
    (bareServer 8088).port ≤ 65535 ∧ Spells "50%25%20off".toList "50% off" ∧
      Tells "http://localhost:8088/webhooks/50% off" "50% off"
        ((bareServer 8088).handle 0 ⟨0⟩ ⟨.get, "/webhooks/url/50%25%20off".toList, [], []⟩).1 ∧
      Takes "50% off" ⟨0⟩ ((bareServer 8088).handle 0 ⟨0⟩
        ⟨.post, "/webhooks/50%%20off".toList, [], Text.Utf8.ofString "\x7b\x7d"⟩).1 := by
  have hport : (bareServer 8088).port ≤ 65535 := by decide
  have hspells : Spells "50%25%20off".toList "50% off" := ⟨by decide, by decide +kernel⟩
  have hsource : Deliverable "50% off".toList := by
    refine ⟨⟨Text.forall_mem_of_all (by decide), standsFor_encode_iff.mp (by decide +kernel),
      by decide, by decide⟩, fun c hc => ?_⟩
    obtain rfl : 'f' = c := Option.some.inj hc
    decide
  obtain ⟨htells, url, hurl, -, htakes⟩ :=
    webhookAddress_delivers_iff hport (by decide : "50%25%20off".toList ≠ []) hspells
  have hpath : (Url.ofText? (webhookAddress 8088 "50% off").toList).map Url.path =
      some "/webhooks/50%%20off".toList := by decide +kernel
  have hurl' : Url.ofText? (webhookAddress 8088 "50% off").toList = some url := hurl
  rw [hurl', Option.map_some, Option.some.injEq] at hpath
  exact ⟨hport, hspells, htells 0 ⟨0⟩ _ rfl (by decide +kernel),
    ((htakes 0 ⟨0⟩ _ rfl (by decide)).2 (by rw [hpath]; decide +kernel)).mpr hsource⟩

/-- The address of a source with a slash leads nowhere. -/
theorem not_delivered_slash :
    Spells "a%2Fb".toList "a/b" ∧
      Tells "http://localhost:3000/webhooks/a/b" "a/b"
        ((bareServer 3000).handle 0 ⟨0⟩ ⟨.get, "/webhooks/url/a%2Fb".toList, [], []⟩).1 ∧
      Http.Target.path "http://localhost:3000/webhooks/a/b".toList = "/webhooks/a/b".toList ∧
      (Url.ofText? "http://localhost:3000/webhooks/a/b".toList).map Url.path =
        some "/webhooks/a/b".toList ∧
      ((bareServer 3000).handle 0 ⟨0⟩ ⟨.post, "/webhooks/a/b".toList, [], []⟩).1.status = 404 := by
  have hspells : Spells "a%2Fb".toList "a/b" := ⟨by decide, by decide +kernel⟩
  have haddress : webhookAddress (bareServer 3000).port "a/b" =
      "http://localhost:3000/webhooks/a/b" := by decide +kernel
  refine ⟨hspells, haddress ▸ tells_of_spells (by decide) hspells rfl (by decide +kernel) 0 ⟨0⟩,
    by decide +kernel, by decide +kernel, ?_⟩
  exact Server.handle_post_nowhere rfl (by decide +kernel) 0 ⟨0⟩

end SearchGateway.Gateway
