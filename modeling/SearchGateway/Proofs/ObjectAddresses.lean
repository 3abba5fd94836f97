/-
  SearchGateway.Proofs.ObjectAddresses

  Where the request for an object goes.  Collection and id are put into the address
  as they are, so the request goes to that object only if both names stay inside
  their segments.
-/
import SearchGateway.Backend.Client
import SearchGateway.Proofs.Addresses

namespace SearchGateway.Backend

open SearchGateway.Http (Url)
open SearchGateway.Text.Percent (EscapeFree)

/-! ## Requests -/

/-- What it takes to write a request, and how it is written. -/
theorem Client.request?_eq_some_iff {client : Client} {call : Call} {request : Outgoing} :
    client.request? call = some request ↔
      ∃ url, Url.ofText? (client.address call).toList = some url ∧
        Http.isHeaderValue ("Bearer " ++ client.token) = true ∧
        request = ⟨verb call, url, "Bearer " ++ client.token, body call⟩ := by
  simp only [Client.request?]
  constructor
  · intro h
    split at h
    · exact nomatch h
    · rename_i url hurl
      split at h
      · rename_i hvalue
        exact ⟨url, hurl, hvalue, (Option.some.inj h).symm⟩
      · exact nomatch h
  · rintro ⟨url, hurl, hvalue, rfl⟩
    rw [hurl]
    exact if_pos hvalue

theorem Client.toList_objectsAddress (client : Client) (collection : String) :
    (client.objectsAddress collection).toList =
      client.baseUrl.toList ++ ("/crm/v3/objects/".toList ++ collection.toList) := by
  rw [Client.objectsAddress, String.toList_append, String.toList_append, List.append_assoc]

/-! ## Base addresses -/

/-- The base address of a client is a front and a path of plain segments. -/
structure Client.HasBase (client : Client) (front : List Char) (base : List (List Char)) :
    Prop where
  isFront : Url.IsFront front
  isPlain : ∀ segment ∈ base, Url.IsPlain segment
  eq : client.baseUrl.toList = front ++ base.flatMap ('/' :: ·)

/-- The segments of the path of all objects. -/
def stem (base : List (List Char)) : List (List Char) :=
  base ++ ["crm".toList, "v3".toList, "objects".toList]

theorem isPlain_stem {base : List (List Char)} (h : ∀ segment ∈ base, Url.IsPlain segment) :
    ∀ segment ∈ stem base, Url.IsPlain segment := by
  rw [stem, List.forall_mem_append]
  refine ⟨h, ?_⟩
  simp only [List.forall_mem_cons]
  exact ⟨Url.isPlain_of_isNameChar (by decide), Url.isPlain_of_isNameChar (by decide),
    Url.isPlain_of_isNameChar (by decide), fun _ hmem => nomatch hmem⟩

theorem Client.HasBase.objects {client : Client} {front : List Char} {base : List (List Char)}
    (h : client.HasBase front base) (rest : List Char) :
    client.baseUrl.toList ++ ("/crm/v3/objects/".toList ++ rest) =
      front ++ ((stem base).flatMap ('/' :: ·) ++ '/' :: rest) := by
  rw [h.eq, stem, List.flatMap_append, List.append_assoc, List.append_assoc]
  rfl

/-! ## Objects -/

/-- The collection and the id of the object that a call changes. -/
def Call.object? : Call → Option (String × String)
  | .update collection id _ | .delete collection id => some (collection, id)
  | .search _ _ | .list _ | .create _ _ => none

/-- A segment of a path stands for a name. -/
def StandsFor (segment : List Char) (name : String) : Prop :=
  Text.Utf8.decode? (Text.Percent.decode (Text.Utf8.encode segment)) = some name.toList

instance (segment : List Char) (name : String) : Decidable (StandsFor segment name) :=
  inferInstanceAs (Decidable (_ = _))

/-- A request goes to an object below a base path. -/
def Outgoing.Reaches (request : Outgoing) (base : List (List Char)) (collection id : String) :
    Prop :=
  request.url.query = none ∧ ∃ x y,
    request.url.segments = base ++ ["crm".toList, "v3".toList, "objects".toList, x, y] ∧
      StandsFor x collection ∧ StandsFor y id

/-- A name that stays inside its segment. -/
structure Confined (name : List Char) : Prop where
  chars : ∀ c ∈ name, c ∉ "/\\?#\t\n\r".toList
  free : EscapeFree name
  dot : name ≠ ".".toList
  dots : name ≠ "..".toList

/-- Two names that both stay inside their segments; the id is also the end of the address. -/
structure ConfinedPair (collection id : List Char) : Prop where
  first : Confined collection
  second : Confined id
  last : ∀ c ∈ id.getLast?, Url.isControlOrSpace c = false

theorem notMem_iff (c : Char) :
    c ∉ "/\\?#\t\n\r".toList ↔
      c ≠ '/' ∧ Url.isKept c = true ∧ Url.isInPlace c = true ∧ c ≠ '\\' := by
  simp only [Url.isKept, Url.isInPlace, Bool.and_eq_true, bne_iff_ne]
  constructor
  · intro hmem
    refine ⟨?_, ⟨⟨?_, ?_⟩, ?_⟩, ⟨?_, ?_⟩, ?_⟩ <;>
    · rintro rfl
      exact hmem (by decide)
  · rintro ⟨hslash, ⟨⟨htab, hline⟩, hreturn⟩, ⟨hquestion, hhash⟩, hbackslash⟩ hmem
    simp at hmem
    rcases hmem with h | h | h | h | h | h | h <;> contradiction

/-- A collection and an id are read as they are if they have none of the characters that an address
    treats in its own way and the id ends as an address may. -/
theorem isClean_pair_iff {collection id : List Char} (hne : id ≠ []) :
    (Url.IsClean (collection ++ '/' :: id) ∧ '/' ∉ collection ∧ '/' ∉ id) ↔
      (∀ c ∈ collection, c ∉ "/\\?#\t\n\r".toList) ∧ (∀ c ∈ id, c ∉ "/\\?#\t\n\r".toList) ∧
        ∀ c ∈ id.getLast?, Url.isControlOrSpace c = false := by
  have hlast : (collection ++ '/' :: id).getLast? = id.getLast? := by
    obtain ⟨front, last, rfl⟩ := (List.eq_nil_or_concat id).resolve_left hne
    have hassoc : collection ++ '/' :: (front ++ [last]) =
        (collection ++ '/' :: front) ++ [last] := by
      rw [List.append_assoc, List.cons_append]
    rw [List.concat_eq_append, hassoc, List.getLast?_concat, List.getLast?_concat]
  have hslash : Url.isKept '/' = true ∧ Url.isInPlace '/' = true ∧ '/' ≠ '\\' := by decide
  simp only [notMem_iff]
  constructor
  · rintro ⟨hclean, hcollection, hid⟩
    refine ⟨fun c hc => ⟨?_, hclean.chars c (List.mem_append_left _ hc)⟩,
      fun c hc => ⟨?_, hclean.chars c (List.mem_append_right _ (List.mem_cons_of_mem _ hc))⟩,
      hlast ▸ hclean.last⟩
    · rintro rfl
      exact hcollection hc
    · rintro rfl
      exact hid hc
  · rintro ⟨hcollection, hid, hend⟩
    refine ⟨⟨?_, hlast ▸ hend⟩, fun hc => (hcollection _ hc).1 rfl, fun hc => (hid _ hc).1 rfl⟩
    rw [List.forall_mem_append, List.forall_mem_cons]
    exact ⟨fun c hc => (hcollection c hc).2, hslash, fun c hc => (hid c hc).2⟩

/-! ## Where a request goes -/

/-- The segments that two names become. -/
def pieces (collection id : List Char) : List (List Char) :=
  (Text.split '/' (Url.placeOf (Url.readable (collection ++ '/' :: id)))).map
    (Text.Percent.encode Url.isPlainInPath)

theorem standsFor_encode_iff {name : String} :
    StandsFor (Text.Percent.encode Url.isPlainInPath name.toList) name ↔
      EscapeFree name.toList :=
  Text.Percent.decode?_escaped_iff Url.keepsEscapes_isPlainInPath

theorem ne_nil_of_standsFor {segment : List Char} {name : String} (h : StandsFor segment name)
    (hne : name.toList ≠ []) : segment ≠ [] := by
  rintro rfl
  have hempty : StandsFor [] "" := Text.Utf8.decode?_encode []
  exact hne (Option.some.inj (h.symm.trans hempty))

/-- Names that are confined make two segments, which stand for them. -/
theorem pieces_of_confined {collection id : List Char} (hne : id ≠ [])
    (h : ConfinedPair collection id) :
    pieces collection id = [Text.Percent.encode Url.isPlainInPath collection,
      Text.Percent.encode Url.isPlainInPath id] ∧
    Url.behindPlace (Url.readable (collection ++ '/' :: id)) = [] := by
  obtain ⟨hclean, hcollection, hid⟩ :=
    (isClean_pair_iff hne).mpr ⟨h.first.chars, h.second.chars, h.last⟩
  rw [hclean.readable_eq, hclean.behindPlace_eq]
  refine ⟨?_, rfl⟩
  rw [pieces, hclean.readable_eq, hclean.placeOf_eq, Text.split_append hcollection,
    Text.split_of_notMem hid]
  rfl

/-- Two of the segments of two names stand for them only if the names are read as they are and have
    no escapes. -/
theorem split_eq_of_standsFor {collection id : String} {x y : List Char}
    (h : [x, y].Sublist (pieces collection.toList id.toList))
    (hx : StandsFor x collection) (hy : StandsFor y id) :
    Url.placeOf (Url.readable (collection.toList ++ '/' :: id.toList)) =
        collection.toList ++ '/' :: id.toList ∧
      Text.split '/' (collection.toList ++ '/' :: id.toList) = [collection.toList, id.toList] ∧
      EscapeFree collection.toList ∧ EscapeFree id.toList := by
  obtain ⟨names, hnames, hpair⟩ := List.sublist_map_iff.mp h
  obtain ⟨first, second, rfl⟩ : ∃ first second, names = [first, second] := by
    have hlength := congrArg List.length hpair
    rw [List.length_map] at hlength
    match names, hlength with
    | [first, second], _ => exact ⟨first, second, rfl⟩
  obtain ⟨rfl, rfl⟩ : x = Text.Percent.encode Url.isPlainInPath first ∧
      y = Text.Percent.encode Url.isPlainInPath second := by
    simpa using hpair
  -- neither name is longer than its segment, and the segments fill at most the text of the names
  obtain ⟨hfirst, hfirstEq⟩ :=
    Text.Percent.length_le_of_decode? Url.keepsEscapes_isPlainInPath hx
  obtain ⟨hsecond, hsecondEq⟩ :=
    Text.Percent.length_le_of_decode? Url.keepsEscapes_isPlainInPath hy
  have hplace := Url.length_place_le (collection.toList ++ '/' :: id.toList)
  rw [List.length_append, List.length_cons] at hplace
  obtain ⟨hsplit, hnamesEq⟩ := Text.split_eq_pair hnames (by omega)
  have hlength := congrArg List.length hnamesEq
  rw [List.length_append, List.length_cons] at hlength
  obtain ⟨hfirstFree, rfl⟩ := hfirstEq (by omega)
  obtain ⟨hsecondFree, rfl⟩ := hsecondEq (by omega)
  rw [hnamesEq] at hsplit
  exact ⟨hnamesEq, hsplit, hfirstFree, hsecondFree⟩

/-- Names are confined if two segments at the end of the path stand for them. -/
theorem confined_of_resolve {base : List (List Char)} {collection id : String} (hid : id ≠ "")
    {x y : List Char}
    (hpath : Url.resolve (stem base).reverse (pieces collection.toList id.toList) =
      stem base ++ [x, y])
    (hx : StandsFor x collection) (hy : StandsFor y id) :
    ConfinedPair collection.toList id.toList := by
  have hidNe : id.toList ≠ [] := by simpa using hid
  have hyNe := ne_nil_of_standsFor hy hidNe
  have hpiecesNe : pieces collection.toList id.toList ≠ [] := by
    simpa [pieces] using Text.split_ne_nil '/' _
  have hsublist := Url.pair_sublist_of_resolve hpiecesNe hyNe
    (hpath.trans (by rw [List.reverse_reverse]))
  obtain ⟨hplace, hsplit, hcollectionFree, hidFree⟩ := split_eq_of_standsFor hsublist hx hy
  obtain ⟨hcollectionChars, hidChars, hlast⟩ := (isClean_pair_iff hidNe).mp
    ⟨Url.isClean_of_placeOf hplace,
      Text.notMem_of_mem_split (hsplit ▸ List.mem_cons_self),
      Text.notMem_of_mem_split (hsplit ▸ List.mem_cons_of_mem _ List.mem_cons_self)⟩
  -- the two segments are all there is, so neither of them is a dot segment
  have hpieces : pieces collection.toList id.toList =
      [Text.Percent.encode Url.isPlainInPath collection.toList,
        Text.Percent.encode Url.isPlainInPath id.toList] := by
    rw [pieces, hplace, hsplit]
    rfl
  rw [hpieces] at hsublist hpath
  rw [hsublist.eq_of_length rfl] at hpath
  obtain ⟨hcollectionDot, hidDot⟩ := Url.isDot_eq_false_of_resolve
    (ne_nil_of_standsFor (standsFor_encode_iff.mpr hidFree) hidNe)
    (hpath.trans (by rw [List.reverse_reverse]))
  obtain ⟨hcollectionNeDot, hcollectionNeDots⟩ := Url.ne_dots_of_encode hcollectionDot
  obtain ⟨hidNeDot, hidNeDots⟩ := Url.ne_dots_of_encode hidDot
  exact ⟨⟨hcollectionChars, hcollectionFree, hcollectionNeDot, hcollectionNeDots⟩,
    ⟨hidChars, hidFree, hidNeDot, hidNeDots⟩, hlast⟩

/-- The two segments stand for names that are confined. -/
theorem resolve_of_confined {collection id : String} (hid : id ≠ "")
    (h : ConfinedPair collection.toList id.toList) (done : List (List Char)) :
    ∃ x y, Url.resolve done (pieces collection.toList id.toList) = done.reverse ++ [x, y] ∧
      StandsFor x collection ∧ StandsFor y id := by
  have hpieces := (pieces_of_confined (by simpa using hid) h).1
  have hdots := Url.isDot_encode_eq_false h.first.free h.first.dot h.first.dots
  have hidDots := Url.isDot_encode_eq_false h.second.free h.second.dot h.second.dots
  refine ⟨_, _, ?_, standsFor_encode_iff.mpr h.first.free, standsFor_encode_iff.mpr h.second.free⟩
  rw [hpieces]
  exact Url.resolve_eq_self
    (List.forall_mem_cons.mpr ⟨hdots, List.forall_mem_singleton.mpr hidDots⟩) done

/-- The request for an object. -/
theorem Client.request?_object {client : Client} {front : List Char} {base : List (List Char)}
    (hbase : client.HasBase front base) {call : Call} {collection id : String}
    (hcall : call.object? = some (collection, id)) {request : Outgoing}
    (hrequest : client.request? call = some request) :
    ∃ home : Url, request.url = home.withSegments
      (Url.resolve (stem base).reverse (pieces collection.toList id.toList))
      (Url.behindPlace (Url.readable (collection.toList ++ '/' :: id.toList))) := by
  have haddress : (client.address call).toList = client.baseUrl.toList ++
      ("/crm/v3/objects/".toList ++ (collection.toList ++ '/' :: id.toList)) := by
    have hwritten : client.address call = client.objectsAddress collection ++ "/" ++ id := by
      cases call with
      | update _ _ _ =>
        obtain ⟨rfl, rfl⟩ := Prod.mk.inj (Option.some.inj hcall)
        rfl
      | delete _ _ =>
        obtain ⟨rfl, rfl⟩ := Prod.mk.inj (Option.some.inj hcall)
        rfl
      | search _ _ | list _ | create _ _ => exact nomatch hcall
    rw [hwritten, String.toList_append, String.toList_append, client.toList_objectsAddress]
    simp only [List.append_assoc]
    rfl
  obtain ⟨url, hurl, -, rfl⟩ := Client.request?_eq_some_iff.mp hrequest
  rw [haddress, hbase.objects, Url.ofText?_path hbase.isFront (isPlain_stem hbase.isPlain)] at hurl
  obtain ⟨home, -, hhome⟩ := Option.map_eq_some_iff.mp hurl
  exact ⟨home, hhome.symm⟩

/-- **Only confined names reach their object.**  The request of an update or a deletion goes to the
    object with the given collection and id exactly if neither name contains a slash, a backslash, a
    question mark, a hash, a tab, a line end or an escape, neither is `.` or `..`, and the id does
    not end in a control character or a space. -/
theorem Client.request?_reaches_iff {client : Client} {front : List Char}
    {base : List (List Char)} (hbase : client.HasBase front base) {call : Call}
    {collection id : String} (hcall : call.object? = some (collection, id)) (hid : id ≠ "")
    {request : Outgoing} (hrequest : client.request? call = some request) :
    request.Reaches base collection id ↔ ConfinedPair collection.toList id.toList := by
  obtain ⟨home, hurl⟩ := client.request?_object hbase hcall hrequest
  have hpath : ∀ x y, base ++ ["crm".toList, "v3".toList, "objects".toList, x, y] =
      stem base ++ [x, y] := by
    intro x y
    rw [stem, List.append_assoc]
    rfl
  constructor
  · rintro ⟨-, x, y, hsegments, hx, hy⟩
    rw [hurl, hpath] at hsegments
    exact confined_of_resolve hid hsegments hx hy
  · intro hconfined
    have hbehind := (pieces_of_confined (by simpa using hid) hconfined).2
    obtain ⟨x, y, hsegments, hx, hy⟩ := resolve_of_confined hid hconfined (stem base).reverse
    rw [List.reverse_reverse] at hsegments
    refine ⟨?_, x, y, ?_, hx, hy⟩
    · rw [hurl, hbehind]
      rfl
    · rw [hurl, hpath]
      exact hsegments

/-- A client of a backend whose base address has a path. -/
def pathClient : Client :=
  ⟨"https://api.hubapi.com/base", "pat-test"⟩

theorem hasBase_pathClient :
    pathClient.HasBase "https://api.hubapi.com".toList ["base".toList] where
  isFront := ⟨"https".toList, "//".toList, "api.hubapi.com".toList, by decide, by decide,
    Text.forall_mem_of_all (by decide), ⟨'a', by decide, by decide⟩,
    Text.forall_mem_of_all (by decide)⟩
  isPlain := List.forall_mem_singleton.mpr (Url.isPlain_of_isNameChar (by decide))
  eq := by decide

/-- A percent sign does not lead away from an object if no escape begins with it. -/
theorem request?_reaches_iff_discount :
    ∃ request, pathClient.request? (.delete "contacts" "50% off") = some request ∧
      request.Reaches ["base".toList] "contacts" "50% off" := by
  have hfree : EscapeFree "contacts".toList ∧ EscapeFree "50% off".toList :=
    ⟨standsFor_encode_iff.mp (by decide +kernel), standsFor_encode_iff.mp (by decide +kernel)⟩
  have hconfined : ConfinedPair "contacts".toList "50% off".toList :=
    ⟨⟨Text.forall_mem_of_all (by decide), hfree.1, by decide, by decide⟩,
      ⟨Text.forall_mem_of_all (by decide), hfree.2, by decide, by decide⟩, by
        intro c hc
        obtain rfl : 'f' = c := Option.some.inj hc
        decide⟩
  obtain ⟨request, hrequest⟩ := Option.isSome_iff_exists.mp
    (by decide +kernel : (pathClient.request? (.delete "contacts" "50% off")).isSome = true)
  exact ⟨request, hrequest, (Client.request?_reaches_iff hasBase_pathClient rfl (by decide)
    hrequest).mpr hconfined⟩

/-- An id that begins with two dots and a slash leads to an object of another collection. -/
theorem not_reaches_above :
    pathClient.HasBase "https://api.hubapi.com".toList ["base".toList] ∧
    ∃ request, pathClient.request? (.delete "contacts" "../deals/7") = some request ∧
      request.verb = .delete ∧
      request.url.target = "/base/crm/v3/objects/deals/7".toList ∧
      ¬ request.Reaches ["base".toList] "contacts" "../deals/7" := by
  have hsent : (pathClient.request? (.delete "contacts" "../deals/7")).map
      (fun request => (request.verb, request.url.target, request.url.segments)) =
      some (.delete, "/base/crm/v3/objects/deals/7".toList,
        ["base", "crm", "v3", "objects", "deals", "7"].map String.toList) := by decide +kernel
  obtain ⟨request, hrequest, hparts⟩ := Option.map_eq_some_iff.mp hsent
  simp only [Prod.mk.injEq] at hparts
  obtain ⟨hverb, htarget, hsegments⟩ := hparts
  refine ⟨hasBase_pathClient, request, hrequest, hverb, htarget, ?_⟩
  rintro ⟨-, x, y, hpath, hx, -⟩
  -- the segment in the place of the collection names another one
  obtain rfl : "deals".toList = x := by
    rw [hsegments] at hpath
    simp only [List.map_cons, List.cons_append, List.nil_append, List.cons.injEq] at hpath
    exact hpath.2.2.2.2.1
  exact absurd hx (by decide +kernel)

end SearchGateway.Backend
