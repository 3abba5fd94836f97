/-
  SearchGateway.Proofs.CommandReports

  What the commands that translate and validate leave behind.  The output is one
  line, which is read back as a JSON object with the search or with the code and the
  message of the rejection, whatever characters these hold.  The exit code and the
  error text agree with the object.
-/
import SearchGateway.Proofs.FrontEnds
import SearchGateway.Proofs.Resubmission
import SearchGateway.Proofs.ValueText

namespace SearchGateway.Query

open SearchGateway.Json (Value)

/-! ## The objects of searches -/

theorem fits_strings (depth : Nat) (texts : List String) :
    (Value.array (texts.map .string)).Fits (depth + 1) := by
  refine .array fun v hv => ?_
  obtain ⟨s, -, rfl⟩ := List.mem_map.mp hv
  exact .string

theorem RawPredicate.fits_toJson {raw : RawPredicate} (hvalue : ∀ v ∈ raw.value, ∃ s, v = .string s)
    (hvalues : ∀ vs ∈ raw.values, ∃ texts : List String, vs = texts.map .string)
    (hhigh : ∀ v ∈ raw.highValue, ∃ s, v = .string s) : raw.toJson.Fits 2 := by
  refine .object fun m hm => ?_
  simp only [List.mem_append, List.mem_cons, List.not_mem_nil, or_false, Option.mem_toList,
    Option.map_eq_some_iff] at hm
  rcases hm with (((rfl | rfl) | ⟨v, hv, rfl⟩) | ⟨vs, hvs, rfl⟩) | ⟨v, hv, rfl⟩
  · exact .string
  · exact .string
  · obtain ⟨s, rfl⟩ := hvalue v hv
    exact .string
  · obtain ⟨texts, rfl⟩ := hvalues vs hvs
    exact fits_strings 0 texts
  · obtain ⟨s, rfl⟩ := hhigh v hv
    exact .string

theorem Predicate.fits_toJson (p : Predicate) : p.toJson.Fits 2 := by
  refine RawPredicate.fits_toJson ?_ ?_ ?_ <;>
  obtain ⟨property, condition⟩ := p <;>
  cases condition <;>
  simp [Predicate.toRaw]

theorem FilterGroup.fits_toJson (group : FilterGroup) : group.toJson.Fits 4 := by
  refine .object fun m hm => ?_
  obtain rfl := List.mem_singleton.mp hm
  refine .array fun v hv => ?_
  obtain ⟨p, -, rfl⟩ := List.mem_map.mp hv
  exact p.fits_toJson

theorem SearchRequest.mem_unlessEmpty {key : String} {items : List Value} {m : String × Value}
    (h : m ∈ unlessEmpty key items) : m = (key, .array items) := by
  unfold unlessEmpty at h
  split at h
  · exact absurd h List.not_mem_nil
  · exact List.mem_singleton.mp h

theorem SearchRequest.fits_toJson {request : SearchRequest} (hlimit : Json.IsInt64 request.limit) :
    request.toJson.Fits 6 := by
  refine .object fun m hm => ?_
  simp only [List.mem_append, List.mem_cons, List.not_mem_nil, or_false, Option.mem_toList,
    Option.map_eq_some_iff] at hm
  rcases hm with (((⟨text, -, rfl⟩ | hm) | hm) | rfl) | ⟨cursor, -, rfl⟩
  · exact .string
  · obtain rfl := mem_unlessEmpty hm
    refine .array fun v hv => ?_
    obtain ⟨group, -, rfl⟩ := List.mem_map.mp hv
    exact group.fits_toJson
  · obtain rfl := mem_unlessEmpty hm
    exact fits_strings 4 request.properties
  · exact .int hlimit.1 (Int.lt_trans hlimit.2 (by decide))
  · exact .string

end SearchGateway.Query

namespace SearchGateway.CommandLine

open SearchGateway.Json (OneLine Value)
open SearchGateway.Query (Collection Search SearchBody SearchRequest)
open SearchGateway.Text (isBlank)
open SearchGateway.Text.Utf8 (ofString)

theorem fits_searchJson {search : Search} (hlimit : Json.IsInt64 search.request.limit) :
    (searchJson search).Fits 8 := by
  refine .object fun m hm => ?_
  rw [List.mem_pair] at hm
  rcases hm with rfl | rfl
  · exact .string
  · refine .object fun m hm => ?_
    rw [List.mem_pair] at hm
    rcases hm with rfl | rfl
    · exact .string
    · exact SearchRequest.fits_toJson hlimit

theorem Rejection.fits_toJson (rejection : Rejection) : rejection.toJson.Fits 1 := by
  refine .object fun m hm => ?_
  simp only [List.mem_cons, List.not_mem_nil, or_false] at hm
  rcases hm with rfl | rfl | rfl <;> exact .string

theorem Rejection.sorted_toJson (rejection : Rejection) : rejection.toJson.sorted = .object [
    ("code", .string rejection.code),
    ("message", .string rejection.message),
    ("status", .string "error")] := by
  have hcode : ("code" : String) < "status" := by decide
  have hmessage : ¬("message" : String) < "code" := by decide
  have hstatus : ("message" : String) < "status" := by decide
  simp [toJson, Value.sorted, Json.sortedMembers, Json.sortMembers, Json.insertMember, hcode,
    hmessage, hstatus]

/-! ## Tasks -/

/-- What is asked for: the translation of a text, or the validation of a text as a search of a
    collection. -/
inductive Task where
  | translate (text : String)
  | validate (collection text : String)
  deriving DecidableEq, Repr

/-- The task of a command with an input.  A query that is given stands for the input. -/
inductive Task.IsOf (input : List UInt8) : Command → Task → Prop
  | given {query : String} : IsOf input (.translate (some query)) (.translate query)
  | translate {text : String} (read : input = ofString text) :
      IsOf input (.translate none) (.translate text)
  | validate {collection text : String} (read : input = ofString text) :
      IsOf input (.validate collection) (.validate collection text)

/-- What a text is as a search body.  A text of whitespace asks for nothing in particular. -/
inductive IsBody (text : String) : Except Json.Fault SearchBody → Prop
  | blank (blank : isBlank text.toList = true) : IsBody text (.ok {})
  | parsed {outcome : Except Json.Fault SearchBody} (visible : isBlank text.toList = false)
      (parsed : SearchBody.parse (ofString text) = outcome) : IsBody text outcome

/-- The search that comes of a task. -/
inductive Task.Accepts : Task → Search → Prop
  | translated {text : String} {search : Search} (translated : Query.translate text = .ok search) :
      Accepts (.translate text) search
  | validated {collection text : String} {body : SearchBody} {search : Search}
      (read : IsBody text (.ok body)) (verdict : Query.Verdict collection body (.ok search)) :
      Accepts (.validate collection text) search

/-- The code and the message with which a task is rejected.  A collection is rejected whatever the
    text is.  The message of a fault leaves out its line and column. -/
inductive Task.Rejects : Task → Rejection → Prop
  | untranslated {text : String} {e : Query.QueryError}
      (rejected : Query.translate text = .error e) :
      Rejects (.translate text) ⟨e.code, e.message⟩
  | unsupported {collection text : String} (unknown : collection ∉ Collection.identifiers) :
      Rejects (.validate collection text)
        ⟨"CRM_QUERY_UNSUPPORTED_ENDPOINT", "Unsupported endpoint '" ++ collection ++ "'"⟩
  | unreadable {collection text : String} {fault : Json.Fault}
      (known : collection ∈ Collection.identifiers) (read : IsBody text (.error fault)) :
      Rejects (.validate collection text)
        ⟨"CRM_GATEWAY_INVALID_BODY", "Invalid request body: " ++ fault.message⟩
  | breach {collection text : String} {body : SearchBody} {e : Query.QueryError}
      (known : collection ∈ Collection.identifiers) (read : IsBody text (.ok body))
      (breaks : Query.Breach body.groups e) :
      Rejects (.validate collection text) ⟨e.code, e.message⟩

/-- What is left behind by a task: the exit code, the error text and the members of the object that
    is shown.  The object of a search holds its request with all members in some order. -/
inductive Task.Leaves (task : Task) : Nat → String → List (String × Value) → Prop
  | accepted {search : Search} {request : Value} (accepts : task.Accepts search)
      (spelled : search.request.SpelledBy request) :
      Leaves task 0 "" [
        ("data", .object [("collection", .string search.collection.id), ("request", request)]),
        ("status", .string "ok")]
  | rejected {rejection : Rejection} (rejects : task.Rejects rejection) :
      Leaves task 1 ("CRM_CLI_REJECTED: " ++ rejection.message ++ "\n") [
        ("code", .string rejection.code), ("message", .string rejection.message),
        ("status", .string "error")]

/-- The output is one line, and what is read from it is an object with some members. -/
structure Outcome.Shows (outcome : Outcome) (ms : List (String × Value)) : Prop where
  output : outcome.output = (Value.object ms).print ++ "\n"
  oneLine : OneLine (Value.object ms).print.toList
  read : Json.read Json.value (ofString outcome.output) = .ok (.object ms)

/-! ## Lines -/

/-- The line of an object that fits shows the sorted members of the object. -/
theorem shows_line {outcome : Outcome} {v : Value} {ms : List (String × Value)}
    (hfits : v.Fits Json.maxDepth) (hsorted : v.sorted = .object ms)
    (houtput : outcome.output = line v) : outcome.Shows ms := by
  have honeLine : OneLine v.sorted.print.toList := by
    rw [Value.print, String.toList_ofList]
    exact hfits.sorted.oneLine
  have hread := hfits.read_line
  rw [hsorted] at honeLine hread
  rw [line, hsorted] at houtput
  exact ⟨houtput, honeLine, houtput ▸ hread⟩

theorem report_accepted_shows {search : Search} (hlimit : Json.IsInt64 search.request.limit) :
    (report (.ok search)).Shows [
      ("data", .object [
        ("collection", .string search.collection.id),
        ("request", search.request.toJson.sorted)]),
      ("status", .string "ok")] :=
  shows_line ((fits_searchJson hlimit).mono (by decide)) (Query.sorted_searchJson search) rfl

theorem report_rejected_shows (rejection : Rejection) : (report (.error rejection)).Shows [
    ("code", .string rejection.code), ("message", .string rejection.message),
    ("status", .string "error")] :=
  shows_line (rejection.fits_toJson.mono (by decide)) rejection.sorted_toJson rfl

/-! ## Outcomes -/

/-- The search that a task gives, or its rejection. -/
def Task.outcome : Task → Except Rejection Search
  | translate text => translateText text
  | validate collection text => validateText collection text

theorem exists_isBody (text : String) : ∃ read, IsBody text read := by
  cases hblank : isBlank text.toList with
  | true => exact ⟨_, .blank hblank⟩
  | false => exact ⟨_, .parsed hblank rfl⟩

theorem IsBody.parseSearchText {text : String} {read : Except Json.Fault SearchBody}
    (h : IsBody text read) : parseSearchText text = read.mapError .ofFault := by
  unfold CommandLine.parseSearchText
  cases h with
  | blank hblank =>
    rw [if_pos hblank]
    rfl
  | parsed hvisible hparsed => rw [if_neg (by rw [hvisible]; decide), hparsed]

theorem IsBody.isInt64 {text : String} {body : SearchBody} (h : IsBody text (.ok body)) :
    ∀ n ∈ body.limit, Json.IsInt64 n := by
  cases h with
  | blank => exact fun n hn => nomatch hn
  | parsed _ hparsed => exact Query.isInt64_of_parse hparsed

/-- A text that is read as a body is validated in a known collection. -/
theorem validateText_of_isBody {collection text : String} {read : Except Json.Fault SearchBody}
    (hknown : collection ∈ Collection.identifiers) (hread : IsBody text read) :
    validateText collection text =
      (read.mapError Rejection.ofFault).bind fun body =>
        (Query.validate collection body).mapError .ofQuery := by
  obtain ⟨found, hresolve⟩ := resolveCollection_of_mem hknown
  rw [validateText, hresolve, hread.parseSearchText]
  cases read <;> rfl

theorem mem_identifiers_of_validateText {collection text : String} {search : Search}
    (h : validateText collection text = .ok search) : collection ∈ Collection.identifiers := by
  by_contra hunknown
  rw [(outcomes_of_unsupported hunknown text).1] at h
  exact nomatch h

theorem Task.accepts_of_outcome {task : Task} {search : Search} (h : task.outcome = .ok search) :
    task.Accepts search := by
  cases task with
  | translate text => exact .translated (eq_ok_of_mapError h)
  | validate collection text =>
    obtain ⟨read, hread⟩ := exists_isBody text
    have hknown := mem_identifiers_of_validateText h
    rw [outcome, validateText_of_isBody hknown hread] at h
    cases read with
    | error fault => exact nomatch h
    | ok body =>
      exact .validated hread (Query.validate_eq_iff_verdict.mp (eq_ok_of_mapError h))

theorem Task.rejects_of_outcome {task : Task} {rejection : Rejection}
    (h : task.outcome = .error rejection) : task.Rejects rejection := by
  cases task with
  | translate text =>
    obtain ⟨e, he, rfl⟩ := exists_error_of_mapError h
    exact .untranslated he
  | validate collection text =>
    by_cases hknown : collection ∈ Collection.identifiers
    · obtain ⟨read, hread⟩ := exists_isBody text
      rw [outcome, validateText_of_isBody hknown hread] at h
      cases read with
      | error fault =>
        obtain rfl := Except.error.inj h
        exact .unreadable hknown hread
      | ok body =>
        obtain ⟨e, he, rfl⟩ := exists_error_of_mapError h
        cases Query.validate_eq_iff_verdict.mp he with
        | unsupported unknown => exact absurd hknown unknown
        | breach _ breaks => exact .breach hknown hread breaks
    · rw [outcome, (outcomes_of_unsupported hknown text).1] at h
      obtain rfl := Except.error.inj h
      exact .unsupported hknown

/-- The page size of an accepted search is an integer of 64 bits. -/
theorem Task.Accepts.isInt64 {task : Task} {search : Search} (h : task.Accepts search) :
    Json.IsInt64 search.request.limit := by
  cases h with
  | translated translated => exact Query.isInt64_of_translate translated
  | validated read verdict => exact Query.isInt64_of_validate read.isInt64 verdict.validate

/-! ## Runs -/

/-- A command reports what comes of its task. -/
theorem Task.IsOf.run_eq {surroundings : Surroundings} {command : Command} {task : Task}
    (h : task.IsOf surroundings.input command) :
    command.run surroundings = report task.outcome := by
  have hdecode (text : String) :
      Text.Utf8.decode? (ofString text) = some text.toList := Text.Utf8.decode?_encode text.toList
  cases h with
  | given => rfl
  | translate read | validate read =>
    rw [Command.run, withInput, read, hdecode]
    simp only [String.ofList_toList]
    rfl

theorem report_outcome_leaves (task : Task) :
    ∃ ms, (report task.outcome).Shows ms ∧
      task.Leaves (report task.outcome).exit (report task.outcome).errors ms := by
  cases h : task.outcome with
  | ok search =>
    have haccepts := task.accepts_of_outcome h
    exact ⟨_, report_accepted_shows haccepts.isInt64,
      .accepted haccepts search.request.spelledBy_sorted⟩
  | error rejection =>
    exact ⟨_, report_rejected_shows rejection, .rejected (task.rejects_of_outcome h)⟩

/-- The object that is shown tells whether the exit code is zero. -/
theorem Task.Leaves.status_eq_ok_iff {task : Task} {exit : Nat} {errors : String}
    {ms : List (String × Value)} (h : task.Leaves exit errors ms) :
    ms.lookup "status" = some (.string "ok") ↔ exit = 0 := by
  cases h with
  | accepted => exact iff_of_true rfl rfl
  | rejected =>
    refine iff_of_false (fun hlookup => ?_) (by decide)
    have hstatus : ("error" : String) = "ok" := Value.string.inj (Option.some.inj hlookup)
    exact absurd hstatus (by decide)

/-- **One line for every text.**  A command that translates or validates shows one line without
    control characters, and what is read from it is an object: of status `ok` with the search that is
    asked for and exit code zero, or of status `error` with the code and the message of the rejection,
    exit code one, and the message once more in the error text. -/
theorem run_leaves {surroundings : Surroundings} {arguments : List String} {command : Command}
    {task : Task} (harguments : Invocation.ofArguments arguments = .run command)
    (htask : task.IsOf surroundings.input command) :
    ∃ ms, (run surroundings arguments).Shows ms ∧
      task.Leaves (run surroundings arguments).exit (run surroundings arguments).errors ms ∧
      (ms.lookup "status" = some (.string "ok") ↔ (run surroundings arguments).exit = 0) := by
  have hrun : run surroundings arguments = report task.outcome := by
    rw [run, harguments]
    exact htask.run_eq
  rw [hrun]
  obtain ⟨ms, hshows, hleaves⟩ := report_outcome_leaves task
  exact ⟨ms, hshows, hleaves, hleaves.status_eq_ok_iff⟩

/-- A program that is started with a text as its input. -/
def piped (text : String) : Surroundings where
  input := ofString text
  environment := fun _ => none
  file := fun _ => .missing
  listen := fun _ _ => ""

/-- Query text in whose filter stand a quote, a control character and a letter beyond ASCII. -/
def oddText : String :=
  "\x7b contacts(filter: \x7b email__eq: \"a\\\"\x01é\" \x7d) \x7d"

/-- Text that has to be escaped comes back from the line, be it in a search or in a message. -/
theorem run_leaves_escaped :
    (Invocation.ofArguments ["translate"] = .run (.translate none) ∧
      (Task.translate oddText).IsOf (piped oddText).input (.translate none) ∧
      ∃ ms, (run (piped oddText) ["translate"]).Shows ms ∧
        (Task.translate oddText).Leaves (run (piped oddText) ["translate"]).exit
          (run (piped oddText) ["translate"]).errors ms ∧
        (ms.lookup "status" = some (.string "ok") ↔
          (run (piped oddText) ["translate"]).exit = 0)) ∧
    (Invocation.ofArguments ["validate", "a\n\"b"] = .run (.validate "a\n\"b") ∧
      (Task.validate "a\n\"b" "").IsOf (piped "").input (.validate "a\n\"b") ∧
      (run (piped "") ["validate", "a\n\"b"]).output =
        "\x7b\"code\":\"CRM_QUERY_UNSUPPORTED_ENDPOINT\"," ++
          "\"message\":\"Unsupported endpoint 'a\\n\\\"b'\",\"status\":\"error\"\x7d\n" ∧
      ∃ ms, (run (piped "") ["validate", "a\n\"b"]).Shows ms ∧
        (Task.validate "a\n\"b" "").Leaves (run (piped "") ["validate", "a\n\"b"]).exit
          (run (piped "") ["validate", "a\n\"b"]).errors ms ∧
        (ms.lookup "status" = some (.string "ok") ↔
          (run (piped "") ["validate", "a\n\"b"]).exit = 0)) := by
  have htranslate : Invocation.ofArguments ["translate"] = .run (.translate none) := by
    decide +kernel
  have hvalidate : Invocation.ofArguments ["validate", "a\n\"b"] = .run (.validate "a\n\"b") := by
    decide +kernel
  exact ⟨⟨htranslate, .translate rfl, run_leaves htranslate (.translate rfl)⟩,
    hvalidate, .validate rfl, by decide +kernel, run_leaves hvalidate (.validate rfl)⟩

end SearchGateway.CommandLine
