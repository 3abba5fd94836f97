/-
  SearchGateway.Proofs.SettingsFile

  What a settings file says, field by field.  A file is accepted exactly when it holds
  settings, and the settings that are read have in each field what the file says about
  it, or the default; what settings are written as holds them again.
-/
import SearchGateway.Config.Settings
import SearchGateway.Proofs.IntegerText
import SearchGateway.Proofs.Members
import SearchGateway.Proofs.Reading
import SearchGateway.Proofs.RecordParts
import SearchGateway.Proofs.StringText

namespace SearchGateway.Config

open SearchGateway.Json

/-! ## Values -/

section Values

variable {parts : List Part} (hvalues : ∀ {name text}, text ∈ textsOf name parts → IsValue text)
  {name : String}
include hvalues

theorem gives_string_iff {default s : String} :
    Gives (IsReadAs string) name default parts s ↔ Gives HoldsString name default parts s :=
  Gives.congr_iff fun _ htext _ => settles_string_iff (hvalues htext)

theorem gives_natural_iff {width : Nat} (hwidth : width ≤ 64) (expected : String)
    {default n : Nat} : Gives (IsReadAs (natural width expected)) name default parts n ↔
      Gives (HoldsNatural width) name default parts n :=
  Gives.congr_iff fun _ htext _ => settles_natural_iff hwidth (hvalues htext)

theorem gives_option_iff {default x : Option String} :
    Gives (IsReadAs (Json.optional string)) name default parts x ↔
      Gives (HoldsOption HoldsString) name default parts x :=
  Gives.congr_iff fun _ htext _ => isReadAs_optional_iff settled_string (hvalues htext)
    (settles_string_iff (hvalues htext))

theorem gives_list_iff (depth : Nat) {default xs : List String} :
    Gives (IsReadAs (Json.list (fun _ => string) (depth + 1))) name default parts xs ↔
      Gives (HoldsList HoldsString) name default parts xs := by
  have hlist {text : List UInt8} {xs : List String} :
      (IsValue text ∧ IsReadAs (Json.list (fun _ => string) (depth + 1)) text xs) ↔
        HoldsList HoldsString text xs :=
    isReadAs_list_iff settled_string settles_string_iff
  exact Gives.congr_iff fun _ htext _ => (and_iff_right (hvalues htext)).symm.trans hlist

end Values

/-! ## The backend -/

/-- What the parts of a text say about the backend. -/
structure BackendSettings.GivenBy (parts : List Part) (settings : BackendSettings) : Prop where
  baseUrl : Gives HoldsString "base_url" "https://api.hubapi.com" parts settings.baseUrl
  token : Gives (HoldsOption HoldsString) "token" none parts settings.token
  timeoutSecs : Gives (HoldsNatural 64) "timeout_secs" 10 parts settings.timeoutSecs

/-- A text holds the settings of the backend. -/
def HoldsBackend (text : List UInt8) (settings : BackendSettings) : Prop :=
  ∃ parts, ListsParts ["base_url", "token", "timeout_secs"] text parts ∧ settings.GivenBy parts

namespace BackendSettings

theorem lenient : shape.Lenient where
  settled := by
    simp only [shape, List.forall_mem_cons]
    refine ⟨fun _ => ?_, fun _ => ?_, fun _ => ?_, fun _ h => absurd h List.not_mem_nil⟩
    · exact Field.settled_optional settled_string
    · exact Field.settled_optional settled_string.optional
    · exact Field.settled_optional (settled_natural 64 "u64")
  optional := by
    simp only [shape, List.forall_mem_cons]
    exact ⟨rfl, rfl, rfl, fun _ h => absurd h List.not_mem_nil⟩
  nodup := by decide
  ne := List.cons_ne_nil _ _

theorem takesValues (depth : Nat) : TakesValues (shape.read depth) := by
  refine Shape.takesValues ?_ depth
  simp only [shape, List.forall_mem_cons]
  refine ⟨fun _ => ?_, fun _ => ?_, fun _ => ?_, fun _ h => absurd h List.not_mem_nil⟩
  · exact Field.takesValues_optional takesValues_string
  · exact Field.takesValues_optional takesValues_string.optional
  · exact Field.takesValues_optional (takesValues_natural 64 "u64")

theorem owns_baseUrl : shape.Owns "base_url" (fun _ => string) baseUrl where
  field := ⟨_, rfl, fun _ _ => rfl⟩
  others := by
    simp only [shape, List.forall_mem_cons]
    exact ⟨fun hne => absurd rfl hne, fun _ => .optional fun _ _ => rfl,
      fun _ => .optional fun _ _ => rfl, fun _ h => absurd h List.not_mem_nil⟩

theorem owns_token : shape.Owns "token" (fun _ => Json.optional string) token where
  field := ⟨_, rfl, fun _ _ => rfl⟩
  others := by
    simp only [shape, List.forall_mem_cons]
    exact ⟨fun _ => .optional fun _ _ => rfl, fun hne => absurd rfl hne,
      fun _ => .optional fun _ _ => rfl, fun _ h => absurd h List.not_mem_nil⟩

theorem owns_timeoutSecs : shape.Owns "timeout_secs" (fun _ => natural 64 "u64") timeoutSecs where
  field := ⟨_, rfl, fun _ _ => rfl⟩
  others := by
    simp only [shape, List.forall_mem_cons]
    exact ⟨fun _ => .optional fun _ _ => rfl, fun _ => .optional fun _ _ => rfl,
      fun hne => absurd rfl hne, fun _ h => absurd h List.not_mem_nil⟩

/-- Parts make the settings that they give. -/
theorem takes_iff {parts : List Part}
    (hvalues : ∀ {name text}, text ∈ textsOf name parts → IsValue text) {depth : Nat}
    {settings : BackendSettings} :
    shape.Takes depth parts shape.initial settings ↔ settings.GivenBy parts := by
  have hwidth : 64 ≤ 64 := Nat.le_refl 64
  refine Shape.takes_iff (fun htakes => ?_) (fun hgiven field hfield => ?_) fun hgiven hgiven' => ?_
  · exact {
      baseUrl := (gives_string_iff hvalues).mp (htakes.gives owns_baseUrl)
      token := (gives_option_iff hvalues).mp (htakes.gives owns_token)
      timeoutSecs := (gives_natural_iff hvalues hwidth "u64").mp (htakes.gives owns_timeoutSecs) }
  · simp only [shape, List.mem_cons, List.not_mem_nil, or_false] at hfield
    rcases hfield with rfl | rfl | rfl
    · exact owns_baseUrl.admits ((gives_string_iff hvalues).mpr hgiven.baseUrl) rfl
    · exact owns_token.admits ((gives_option_iff hvalues).mpr hgiven.token) rfl
    · exact owns_timeoutSecs.admits
        ((gives_natural_iff hvalues hwidth "u64").mpr hgiven.timeoutSecs) rfl
  · have hbaseUrl := ((gives_string_iff hvalues).mpr hgiven.baseUrl).unique
      ((gives_string_iff hvalues).mpr hgiven'.baseUrl)
    have htoken := ((gives_option_iff hvalues).mpr hgiven.token).unique
      ((gives_option_iff hvalues).mpr hgiven'.token)
    have htimeoutSecs := ((gives_natural_iff hvalues hwidth "u64").mpr hgiven.timeoutSecs).unique
      ((gives_natural_iff hvalues hwidth "u64").mpr hgiven'.timeoutSecs)
    exact congr (congr (congrArg mk hbaseUrl) htoken) htimeoutSecs

/-- The settings of the backend are read from the texts that hold them. -/
theorem isReadAs_iff (depth : Nat) {text : List UInt8} {settings : BackendSettings} :
    (IsValue text ∧ IsReadAs (shape.read (depth + 1)) text settings) ↔
      HoldsBackend text settings :=
  lenient.isReadAs_iff.trans <| exists_congr fun _ => and_congr_right fun hlists =>
    takes_iff hlists.isValue

end BackendSettings

/-! ## All settings -/

/-- What the parts of a text say about the settings. -/
structure Settings.GivenBy (parts : List Part) (settings : Settings) : Prop where
  host : Gives HoldsString "host" "0.0.0.0" parts settings.host
  port : Gives (HoldsNatural 16) "port" 3000 parts settings.port
  corsOrigins : Gives (HoldsList HoldsString) "cors_origins" [] parts settings.corsOrigins
  logFilter : Gives HoldsString "log_filter" "info" parts settings.logFilter
  backend : Gives HoldsBackend "crm"
    { baseUrl := "https://api.hubapi.com", token := none, timeoutSecs := 10 } parts settings.backend

/-- A text holds settings. -/
def HoldsSettings (text : List UInt8) (settings : Settings) : Prop :=
  ∃ parts, ListsParts ["host", "port", "cors_origins", "log_filter", "crm"] text parts ∧
    settings.GivenBy parts

namespace Settings

theorem lenient : shape.Lenient where
  settled := by
    simp only [shape, List.forall_mem_cons]
    refine ⟨fun _ => ?_, fun _ => ?_, fun depth => ?_, fun _ => ?_, fun depth => ?_,
      fun _ h => absurd h List.not_mem_nil⟩
    · exact Field.settled_optional settled_string
    · exact Field.settled_optional (settled_natural 16 "u16")
    · exact Field.settled_optional (settled_list (fun _ => settled_string) depth)
    · exact Field.settled_optional settled_string
    · exact Field.settled_optional (BackendSettings.lenient.settled_read depth)
  optional := by
    simp only [shape, List.forall_mem_cons]
    exact ⟨rfl, rfl, rfl, rfl, rfl, fun _ h => absurd h List.not_mem_nil⟩
  nodup := by decide
  ne := List.cons_ne_nil _ _

theorem takesValues (depth : Nat) : TakesValues (shape.read depth) := by
  refine Shape.takesValues ?_ depth
  simp only [shape, List.forall_mem_cons]
  refine ⟨fun _ => ?_, fun _ => ?_, fun depth => ?_, fun _ => ?_, fun depth => ?_,
    fun _ h => absurd h List.not_mem_nil⟩
  · exact Field.takesValues_optional takesValues_string
  · exact Field.takesValues_optional (takesValues_natural 16 "u16")
  · exact Field.takesValues_optional (TakesValues.list (fun _ => takesValues_string) depth)
  · exact Field.takesValues_optional takesValues_string
  · exact Field.takesValues_optional (BackendSettings.takesValues depth)

theorem owns_host : shape.Owns "host" (fun _ => string) host where
  field := ⟨_, rfl, fun _ _ => rfl⟩
  others := by
    simp only [shape, List.forall_mem_cons]
    exact ⟨fun hne => absurd rfl hne, fun _ => .optional fun _ _ => rfl,
      fun _ => .optional fun _ _ => rfl, fun _ => .optional fun _ _ => rfl,
      fun _ => .optional fun _ _ => rfl, fun _ h => absurd h List.not_mem_nil⟩

theorem owns_port : shape.Owns "port" (fun _ => natural 16 "u16") port where
  field := ⟨_, rfl, fun _ _ => rfl⟩
  others := by
    simp only [shape, List.forall_mem_cons]
    exact ⟨fun _ => .optional fun _ _ => rfl, fun hne => absurd rfl hne,
      fun _ => .optional fun _ _ => rfl, fun _ => .optional fun _ _ => rfl,
      fun _ => .optional fun _ _ => rfl, fun _ h => absurd h List.not_mem_nil⟩

theorem owns_corsOrigins :
    shape.Owns "cors_origins" (Json.list fun _ => string) corsOrigins where
  field := ⟨_, rfl, fun _ _ => rfl⟩
  others := by
    simp only [shape, List.forall_mem_cons]
    exact ⟨fun _ => .optional fun _ _ => rfl, fun _ => .optional fun _ _ => rfl,
      fun hne => absurd rfl hne, fun _ => .optional fun _ _ => rfl,
      fun _ => .optional fun _ _ => rfl, fun _ h => absurd h List.not_mem_nil⟩

theorem owns_logFilter : shape.Owns "log_filter" (fun _ => string) logFilter where
  field := ⟨_, rfl, fun _ _ => rfl⟩
  others := by
    simp only [shape, List.forall_mem_cons]
    exact ⟨fun _ => .optional fun _ _ => rfl, fun _ => .optional fun _ _ => rfl,
      fun _ => .optional fun _ _ => rfl, fun hne => absurd rfl hne,
      fun _ => .optional fun _ _ => rfl, fun _ h => absurd h List.not_mem_nil⟩

theorem owns_backend : shape.Owns "crm" BackendSettings.shape.read backend where
  field := ⟨_, rfl, fun _ _ => rfl⟩
  others := by
    simp only [shape, List.forall_mem_cons]
    exact ⟨fun _ => .optional fun _ _ => rfl, fun _ => .optional fun _ _ => rfl,
      fun _ => .optional fun _ _ => rfl, fun _ => .optional fun _ _ => rfl,
      fun hne => absurd rfl hne, fun _ h => absurd h List.not_mem_nil⟩

/-- Parts make the settings that they give. -/
theorem takes_iff {parts : List Part}
    (hvalues : ∀ {name text}, text ∈ textsOf name parts → IsValue text) {depth : Nat}
    {settings : Settings} :
    shape.Takes (depth + 1) parts shape.initial settings ↔ settings.GivenBy parts := by
  have hwidth : 16 ≤ 64 := by decide
  have hbackend {backend : BackendSettings} :
      Gives (IsReadAs (BackendSettings.shape.read (depth + 1))) "crm" {} parts backend ↔
        Gives HoldsBackend "crm" {} parts backend :=
    Gives.congr_iff fun text htext backend =>
      (and_iff_right (hvalues htext)).symm.trans (BackendSettings.isReadAs_iff depth)
  refine Shape.takes_iff (fun htakes => ?_) (fun hgiven field hfield => ?_) fun hgiven hgiven' => ?_
  · exact {
      host := (gives_string_iff hvalues).mp (htakes.gives owns_host)
      port := (gives_natural_iff hvalues hwidth "u16").mp (htakes.gives owns_port)
      corsOrigins := (gives_list_iff hvalues depth).mp (htakes.gives owns_corsOrigins)
      logFilter := (gives_string_iff hvalues).mp (htakes.gives owns_logFilter)
      backend := hbackend.mp (htakes.gives owns_backend) }
  · simp only [shape, List.mem_cons, List.not_mem_nil, or_false] at hfield
    rcases hfield with rfl | rfl | rfl | rfl | rfl
    · exact owns_host.admits ((gives_string_iff hvalues).mpr hgiven.host) rfl
    · exact owns_port.admits ((gives_natural_iff hvalues hwidth "u16").mpr hgiven.port) rfl
    · exact owns_corsOrigins.admits ((gives_list_iff hvalues depth).mpr hgiven.corsOrigins) rfl
    · exact owns_logFilter.admits ((gives_string_iff hvalues).mpr hgiven.logFilter) rfl
    · exact owns_backend.admits (hbackend.mpr hgiven.backend) rfl
  · have hhost := ((gives_string_iff hvalues).mpr hgiven.host).unique
      ((gives_string_iff hvalues).mpr hgiven'.host)
    have hport := ((gives_natural_iff hvalues hwidth "u16").mpr hgiven.port).unique
      ((gives_natural_iff hvalues hwidth "u16").mpr hgiven'.port)
    have horigins := ((gives_list_iff hvalues depth).mpr hgiven.corsOrigins).unique
      ((gives_list_iff hvalues depth).mpr hgiven'.corsOrigins)
    have hfilter := ((gives_string_iff hvalues).mpr hgiven.logFilter).unique
      ((gives_string_iff hvalues).mpr hgiven'.logFilter)
    have hbackend := (hbackend.mpr hgiven.backend).unique (hbackend.mpr hgiven'.backend)
    exact congr (congr (congr (congr (congrArg mk hhost) hport) horigins) hfilter) hbackend

/-- A file is accepted when it holds settings between blanks, and these are the settings that are
    read. -/
theorem parse_eq_ok_iff {bytes : List UInt8} {settings : Settings} :
    parse bytes = .ok settings ↔ ∃ (before behind : Blanks) (text : List UInt8),
      bytes = before.val ++ (text ++ behind.val) ∧ HoldsSettings text settings := by
  have hholds {text : List UInt8} :
      (IsValue text ∧ IsReadAs (shape.read maxDepth) text settings) ↔ HoldsSettings text settings :=
    lenient.isReadAs_iff.trans <| exists_congr fun _ => and_congr_right fun hlists =>
      takes_iff hlists.isValue
  rw [parse, read_eq_ok_iff (takesValues maxDepth) (lenient.settled_read maxDepth)]
  simp only [hholds]

end Settings

/-! ## Written settings -/

/-- The numbers have the sizes that a file allows. -/
structure Settings.IsSized (settings : Settings) : Prop where
  port : settings.port < UInt16.size
  timeoutSecs : settings.backend.timeoutSecs < UInt64.size

/-- Settings that are read from a file are sized. -/
theorem Settings.isSized_of_parse {bytes : List UInt8} {settings : Settings}
    (h : parse bytes = .ok settings) : settings.IsSized := by
  obtain ⟨-, -, text, -, parts, -, hgiven⟩ := parse_eq_ok_iff.mp h
  have hport : settings.port < UInt16.size :=
    hgiven.port.holds (p := (· < UInt16.size)) (by decide) fun _ _ hn => hn.1
  have htimeoutSecs : settings.backend.timeoutSecs < UInt64.size := by
    refine hgiven.backend.holds (p := (·.timeoutSecs < UInt64.size)) (by decide) ?_
    rintro text backend ⟨parts, -, hgiven⟩
    exact hgiven.timeoutSecs.holds (p := (· < UInt64.size)) (by decide) fun _ _ hn => hn.1
  exact ⟨hport, htimeoutSecs⟩

namespace BackendSettings

theorem reads_token (token : Option String) : Reads (Json.optional string)
    (match token with
      | none => Value.null
      | some token => .string token) token := by
  cases token with
  | none => exact fun _ _ => rfl
  | some token => exact (reads_string token).optional (head?_string token)

/-- The settings of the backend are read from their members in any order. -/
theorem reads_object {settings : BackendSettings} (hsize : settings.timeoutSecs < UInt64.size)
    {ms : List (String × Value)} (hperm : ms.Perm settings.toJson.members) (depth : Nat) :
    Reads (shape.read (depth + 1)) (.object ms) settings := by
  have hbaseUrl : shape.Sets depth ("base_url", .string settings.baseUrl)
      fun s => { s with baseUrl := settings.baseUrl } :=
    Shape.sets_optional (fun _ => string)
      (fun baseUrl (s : BackendSettings) => { s with baseUrl }) rfl
      (reads_string settings.baseUrl)
  have htoken : shape.Sets depth ("token", _) fun s => { s with token := settings.token } :=
    Shape.sets_optional (fun _ => Json.optional string)
      (fun token (s : BackendSettings) => { s with token }) rfl
      (reads_token settings.token)
  have htimeoutSecs : shape.Sets depth ("timeout_secs", .ofNat settings.timeoutSecs)
      fun s => { s with timeoutSecs := settings.timeoutSecs } :=
    Shape.sets_optional (fun _ => natural 64 "u64")
      (fun timeoutSecs (s : BackendSettings) => { s with timeoutSecs }) rfl
      (reads_natural "u64" hsize (by decide))
  refine Reads.record_perm (.cons hbaseUrl (.cons htoken (.cons htimeoutSecs .nil))) (by simp)
    (fun field hfield hrequired => ?_) (by simp) hperm
  rw [lenient.optional field hfield] at hrequired
  cases hrequired

end BackendSettings

namespace Settings

/-- A value is the object of some settings, with the members of both objects in any order. -/
def SpelledBy (settings : Settings) (v : Value) : Prop :=
  ∃ inner ms, v = .object ms ∧ inner.Perm settings.backend.toJson.members ∧
    ms.Perm [("host", .string settings.host), ("port", .ofNat settings.port),
      ("cors_origins", .strings settings.corsOrigins), ("log_filter", .string settings.logFilter),
      ("crm", .object inner)]

theorem spelledBy_toJson (settings : Settings) : settings.SpelledBy settings.toJson :=
  ⟨settings.backend.toJson.members, _, rfl, .refl _, .refl _⟩

theorem spelledBy_sorted (settings : Settings) : settings.SpelledBy settings.toJson.sorted := by
  have hkeys : (settings.toJson.members.map Prod.fst).Nodup := by simp [toJson, Value.members]
  have hkeys' : (settings.backend.toJson.members.map Prod.fst).Nodup := by
    simp [BackendSettings.toJson, Value.members]
  obtain ⟨ms, hms, hperm⟩ := sorted_object hkeys
  obtain ⟨inner, hinner, hperm'⟩ := sorted_object hkeys'
  -- apart from the backend, the members hold texts, numbers and a list of texts
  have hscalars : settings.backend.toJson.members.map (fun m => (m.1, m.2.sorted)) =
      settings.backend.toJson.members := by
    obtain ⟨-, -, -, -, baseUrl, token, timeoutSecs⟩ := settings
    cases token <;> rfl
  have horigins : (Value.strings settings.corsOrigins).sorted = .strings settings.corsOrigins := by
    simp [Value.strings, Value.sorted, sortedItems_eq_map]
  rw [hscalars] at hperm'
  refine ⟨inner, ms, hms, hperm', hperm.trans (.of_eq ?_)⟩
  have hbackend : settings.backend.toJson.sorted = .object inner := hinner
  simp only [toJson, Value.members, List.map_cons, List.map_nil, horigins, hbackend]
  rfl

/-- Settings are read from what they are written as. -/
theorem reads {settings : Settings} (hsize : settings.IsSized) {v : Value}
    (h : settings.SpelledBy v) (depth : Nat) : Reads (shape.read (depth + 2)) v settings := by
  obtain ⟨inner, ms, rfl, hinner, hperm⟩ := h
  have hhost : shape.Sets (depth + 1) ("host", .string settings.host)
      fun s => { s with host := settings.host } :=
    Shape.sets_optional (fun _ => string) (fun host (s : Settings) => { s with host }) rfl
      (reads_string settings.host)
  have hport : shape.Sets (depth + 1) ("port", .ofNat settings.port)
      fun s => { s with port := settings.port } :=
    Shape.sets_optional (fun _ => natural 16 "u16") (fun port (s : Settings) => { s with port }) rfl
      (reads_natural "u16" hsize.port (by decide))
  have horigins : shape.Sets (depth + 1) ("cors_origins", .strings settings.corsOrigins)
      fun s => { s with corsOrigins := settings.corsOrigins } :=
    Shape.sets_optional (Json.list fun _ => string)
      (fun corsOrigins (s : Settings) => { s with corsOrigins }) rfl
      (reads_strings depth settings.corsOrigins)
  have hfilter : shape.Sets (depth + 1) ("log_filter", .string settings.logFilter)
      fun s => { s with logFilter := settings.logFilter } :=
    Shape.sets_optional (fun _ => string) (fun logFilter (s : Settings) => { s with logFilter }) rfl
      (reads_string settings.logFilter)
  have hbackend : shape.Sets (depth + 1) ("crm", .object inner)
      fun s => { s with backend := settings.backend } :=
    Shape.sets_optional BackendSettings.shape.read
      (fun backend (s : Settings) => { s with backend }) rfl
      (BackendSettings.reads_object hsize.timeoutSecs hinner depth)
  refine Reads.record_perm
    (.cons hhost (.cons hport (.cons horigins (.cons hfilter (.cons hbackend .nil))))) (by simp)
    (fun field hfield hrequired => ?_) (by simp) hperm
  rw [lenient.optional field hfield] at hrequired
  cases hrequired

end Settings

end SearchGateway.Config
