/-
  SearchGateway.Proofs.SettingsSources

  Where the settings come from.  For three of them a variable of the environment goes before
  the file; for all of them the file goes before the default.  A file that holds no settings
  is refused whatever the environment says, and so is a port of the environment that is none.
-/
import SearchGateway.Config.Load
import SearchGateway.Proofs.Decimals
import SearchGateway.Proofs.SettingsFile
import SearchGateway.Proofs.Utf8

namespace SearchGateway.Config

open SearchGateway.Json (Blanks)
open SearchGateway.Text.Utf8 (ofString)

/-! ## The port of the environment -/

/-- A text writes a port: ASCII digits, of which the first may follow a plus sign, with a value of at
    most 65535. -/
def WritesPort (text : String) (port : Nat) : Prop :=
  ∃ digits, (text.toList = digits ∨ text.toList = '+' :: digits) ∧ digits ≠ [] ∧
    (∀ c ∈ digits, c.isDigit = true) ∧ Nat.ofDigitChars 10 digits 0 = port ∧ port ≤ 65535

theorem portOfText?_eq_some_iff {text : String} {port : Nat} :
    portOfText? text = some port ↔ WritesPort text port := by
  unfold portOfText?
  extract_lets digits
  have hdigits : text.toList = '+' :: digits ∨ text.toList = digits ∧ digits.head? ≠ some '+' := by
    simp only [digits]
    split
    · exact .inl ‹_›
    · rename_i hplus
      refine .inr ⟨rfl, fun hhead => ?_⟩
      obtain ⟨digits, heq⟩ := List.head?_eq_some_iff.mp hhead
      exact hplus digits heq
  have hplus {cs : List Char} : ¬ ∀ c ∈ '+' :: cs, c.isDigit = true := fun hall =>
    absurd (hall '+' List.mem_cons_self) (by decide)
  have hread : (if digits.isEmpty || !digits.all Char.isDigit then none
      else
        if digits.foldl (fun n c => n * 10 + (c.toNat - 48)) 0 < UInt16.size then
          some (digits.foldl (fun n c => n * 10 + (c.toNat - 48)) 0)
        else none) = some port ↔
      digits ≠ [] ∧ (∀ c ∈ digits, c.isDigit = true) ∧ Nat.ofDigitChars 10 digits 0 = port ∧
        port ≤ 65535 := by
    have hsize : UInt16.size = 65536 := rfl
    rw [Json.foldl_eq_ofDigitChars, hsize]
    grind
  refine hread.trans ⟨fun h => ?_, fun ⟨digits', htext, h⟩ => ?_⟩
  · rcases hdigits with htext | ⟨htext, -⟩
    · exact ⟨digits, .inr htext, h⟩
    · exact ⟨digits, .inl htext, h⟩
  · suffices heq : digits' = digits from heq ▸ h
    rcases htext with rfl | htext
    · rcases hdigits with hsign | ⟨heq, -⟩
      · exact absurd (hsign ▸ h.2.1) hplus
      · exact heq
    · rcases hdigits with hsign | ⟨heq, hhead⟩
      · exact (List.cons.inj (htext.symm.trans hsign)).2
      · rw [← heq, htext] at hhead
        exact absurd rfl hhead

theorem portOver_eq_ok_iff {port : Nat} {written : Option String} {found : Nat} :
    portOver port written = .ok found ↔
      (written = none ∧ found = port) ∨ ∃ text, written = some text ∧ WritesPort text found := by
  cases written with
  | none => simp [portOver, eq_comm]
  | some text =>
    rw [portOver]
    simp only [Option.some.injEq, exists_eq_left', ← portOfText?_eq_some_iff]
    cases portOfText? text <;> simp

/-! ## The environment -/

/-- Settings are those of a file but for what the environment sets.  A variable with an empty text
    counts as set. -/
structure Settings.Overrides (file : Settings) (lookup : Environment) (settings : Settings) :
    Prop where
  host : settings.host = file.host
  port : (lookup "PORT" = none ∧ settings.port = file.port) ∨
    ∃ text, lookup "PORT" = some text ∧ WritesPort text settings.port
  corsOrigins : settings.corsOrigins = file.corsOrigins
  logFilter : settings.logFilter = file.logFilter
  baseUrl : settings.backend.baseUrl = (lookup "HUBSPOT_BASE_URL").getD file.backend.baseUrl
  token : settings.backend.token =
    (lookup "HUBSPOT_PRIVATE_APP_TOKEN").or file.backend.token
  timeoutSecs : settings.backend.timeoutSecs = file.backend.timeoutSecs

theorem withEnvironment_eq_ok_iff {file settings : Settings} {lookup : Environment} :
    file.withEnvironment lookup = .ok settings ↔ file.Overrides lookup settings := by
  rw [Settings.withEnvironment]
  constructor
  · intro h
    cases hport : portOver file.port (lookup "PORT") with
    | error e =>
      rw [hport] at h
      cases h
    | ok port =>
      rw [hport] at h
      obtain rfl := Except.ok.inj h
      exact ⟨rfl, portOver_eq_ok_iff.mp hport, rfl, rfl, rfl, rfl, rfl⟩
  · rintro ⟨hhost, hport, horigins, hfilter, hurl, htoken, htimeout⟩
    rw [portOver_eq_ok_iff.mpr hport]
    obtain ⟨host, port, origins, filter, url, token, timeout⟩ := settings
    simp only at hhost hport horigins hfilter hurl htoken htimeout
    simp only [hhost, horigins, hfilter, hurl, htoken, htimeout]

/-- The environment is refused when its port is none. -/
theorem withEnvironment_eq_error {file : Settings} {lookup : Environment} {text : String}
    (htext : lookup "PORT" = some text) (hport : ∀ port, ¬ WritesPort text port) :
    file.withEnvironment lookup = .error (.invalidPort text) := by
  have hnone : portOfText? text = none :=
    Option.eq_none_iff_forall_ne_some.mpr fun port h => hport port (portOfText?_eq_some_iff.mp h)
  rw [Settings.withEnvironment, htext, portOver, hnone]

theorem exists_overrides (file : Settings) {lookup : Environment}
    (h : ∀ text, lookup "PORT" = some text → ∃ port, WritesPort text port) :
    ∃ settings, file.Overrides lookup settings := by
  suffices hport : ∃ port, portOver file.port (lookup "PORT") = .ok port by
    obtain ⟨port, hport⟩ := hport
    have hresult : ∃ settings, file.withEnvironment lookup = .ok settings := by
      rw [Settings.withEnvironment, hport]
      exact ⟨_, rfl⟩
    exact hresult.imp fun _ => withEnvironment_eq_ok_iff.mp
  cases htext : lookup "PORT" with
  | none => exact ⟨file.port, rfl⟩
  | some text =>
    obtain ⟨port, hport⟩ := h text htext
    exact ⟨port, portOver_eq_ok_iff.mpr (.inr ⟨text, rfl, hport⟩)⟩

/-- What the environment sets, it sets again. -/
theorem Settings.Overrides.again {file settings : Settings} {lookup : Environment}
    (h : file.Overrides lookup settings) : settings.Overrides lookup settings where
  host := rfl
  port := h.port.imp (fun hnone => ⟨hnone.1, rfl⟩) id
  corsOrigins := rfl
  logFilter := rfl
  baseUrl := by
    rw [h.baseUrl]
    cases lookup "HUBSPOT_BASE_URL" <;> rfl
  token := by
    rw [h.token]
    cases lookup "HUBSPOT_PRIVATE_APP_TOKEN" <;> simp
  timeoutSecs := rfl

/-! ## Files and the environment -/

/-- The text of a file holds settings, between blanks. -/
def FileHolds (text : String) (settings : Settings) : Prop :=
  ∃ (before behind : Blanks) (content : List UInt8),
    ofString text = before.val ++ (content ++ behind.val) ∧ HoldsSettings content settings

section Load

variable {path text : String} {lookup : Environment}

theorem load_of_parse_error {fault : Json.Fault} (h : Settings.parse (ofString text) = .error fault) :
    load path (.content (ofString text)) lookup = .error (.invalid path fault) := by
  rw [ofString] at h ⊢
  rw [load, ofFile, Text.Utf8.decode?_encode, h]
  rfl

theorem load_of_parse_ok {file : Settings} (h : Settings.parse (ofString text) = .ok file) :
    load path (.content (ofString text)) lookup = file.withEnvironment lookup := by
  rw [ofString] at h ⊢
  rw [load, ofFile, Text.Utf8.decode?_encode, h]
  rfl

/-- Settings that are loaded from a text are sized. -/
theorem isSized_of_load {settings : Settings}
    (h : load path (.content (ofString text)) lookup = .ok settings) : settings.IsSized := by
  cases hfile : Settings.parse (ofString text) with
  | error fault =>
    rw [load_of_parse_error hfile] at h
    cases h
  | ok file =>
    rw [load_of_parse_ok hfile] at h
    have hover := withEnvironment_eq_ok_iff.mp h
    have hsized := Settings.isSized_of_parse hfile
    refine ⟨?_, hover.timeoutSecs ▸ hsized.timeoutSecs⟩
    rcases hover.port with ⟨-, hport⟩ | ⟨written, -, digits, -, -, -, -, hport⟩
    · exact hport ▸ hsized.port
    · exact Nat.lt_succ_of_le hport

end Load

/-- Written settings are loaded again. -/
theorem load_print {settings : Settings} (hsize : settings.IsSized) {v : Json.Value}
    (h : settings.SpelledBy v) (path : String) :
    load path (.content (ofString v.print)) (fun _ => none) = .ok settings := by
  have hparse : Settings.parse (ofString v.print) = .ok settings :=
    Json.read_print (Settings.reads hsize h 125)
  exact load_of_parse_ok hparse

/-- **Where settings come from.**  Loading a text and an environment fails with the fault of the
    text, whatever the environment, when the text holds no settings, and with the port of the
    environment when that is none.  Otherwise port, token and base address are those of the
    environment when it sets them, and what it does not set is as the text says, or else the
    default.  What the environment sets, it sets again; and sized settings, which are the ones that
    can be loaded, are loaded from what they are written as. -/
theorem load_sources (path text : String) :
    (∀ file, Settings.parse (ofString text) = .ok file ↔ FileHolds text file) ∧
    ((∀ file, ¬ FileHolds text file) → ∃ fault, Settings.parse (ofString text) = .error fault ∧
      ∀ lookup, load path (.content (ofString text)) lookup = .error (.invalid path fault)) ∧
    (∀ file, FileHolds text file → ∀ lookup,
      (∀ value, lookup "PORT" = some value → (∀ port, ¬ WritesPort value port) →
        load path (.content (ofString text)) lookup = .error (.invalidPort value)) ∧
      ((∀ value, lookup "PORT" = some value → ∃ port, WritesPort value port) →
        ∃ settings, load path (.content (ofString text)) lookup = .ok settings ∧
          file.Overrides lookup settings ∧ settings.IsSized)) ∧
    (∀ (settings : Settings) lookup settings', settings.withEnvironment lookup = .ok settings' →
      settings'.withEnvironment lookup = .ok settings') ∧
    ∀ settings : Settings, settings.IsSized →
      load path (.content (ofString settings.toJson.print)) (fun _ => none) = .ok settings ∧
        load path (.content (ofString settings.toJson.sorted.print)) (fun _ => none) =
          .ok settings := by
  have hparse (file : Settings) : Settings.parse (ofString text) = .ok file ↔ FileHolds text file :=
    Settings.parse_eq_ok_iff
  refine ⟨hparse, fun hnone => ?_, fun file hfile lookup => ⟨?_, ?_⟩, ?_, fun settings hsize => ?_⟩
  · cases hresult : Settings.parse (ofString text) with
    | ok file => exact absurd ((hparse file).mp hresult) (hnone file)
    | error fault => exact ⟨fault, rfl, fun lookup => load_of_parse_error hresult⟩
  · intro value hvalue hport
    rw [load_of_parse_ok ((hparse file).mpr hfile), withEnvironment_eq_error hvalue hport]
  · intro hport
    obtain ⟨settings, hover⟩ := exists_overrides file hport
    have hload : load path (.content (ofString text)) lookup = .ok settings := by
      rw [load_of_parse_ok ((hparse file).mpr hfile), withEnvironment_eq_ok_iff.mpr hover]
    exact ⟨settings, hload, hover, isSized_of_load hload⟩
  · intro settings lookup settings' h
    exact withEnvironment_eq_ok_iff.mpr (withEnvironment_eq_ok_iff.mp h).again
  · exact ⟨load_print hsize settings.spelledBy_toJson path,
      load_print hsize settings.spelledBy_sorted path⟩

/-- The text of a file with two settings. -/
def partialText : String :=
  "\x7b\"port\": 8080, \"crm\": \x7b\"timeout_secs\": 3\x7d\x7d"

/-- The port of the environment replaces the one of a file, or is refused. -/
theorem load_sources_partial :
    load "crmgate.json" (.content (ofString partialText)) (fun _ => some "65536") =
        .error (.invalidPort "65536") ∧
      ∃ settings, load "crmgate.json" (.content (ofString partialText))
          (fun name => if name = "PORT" then some "+65535" else none) = .ok settings ∧
        settings.port = 65535 ∧ settings.backend.timeoutSecs = 3 ∧
        load "crmgate.json" (.content (ofString settings.toJson.print)) (fun _ => none) =
          .ok settings := by
  obtain ⟨hparse, -, hfile, -, hwritten⟩ := load_sources "crmgate.json" partialText
  have hholds : FileHolds partialText { port := 8080, backend := { timeoutSecs := 3 } } :=
    (hparse _).mp (by decide +kernel)
  have hrefused (port : Nat) : ¬ WritesPort "65536" port := by
    rw [← portOfText?_eq_some_iff]
    have hnone : portOfText? "65536" = none := by decide
    simp [hnone]
  have hport : WritesPort "+65535" 65535 := portOfText?_eq_some_iff.mp (by decide)
  obtain ⟨settings, hload, hover, hsize⟩ := (hfile _ hholds
    (fun name => if name = "PORT" then some "+65535" else none)).2 fun value hvalue => by
      obtain rfl := Option.some.inj hvalue
      exact ⟨65535, hport⟩
  refine ⟨(hfile _ hholds _).1 "65536" rfl hrefused, settings, hload, ?_, hover.timeoutSecs, ?_⟩
  · rcases hover.port with ⟨hnone, -⟩ | ⟨value, hvalue, hwrites⟩
    · cases hnone
    · obtain rfl := Option.some.inj hvalue
      exact Option.some.inj ((portOfText?_eq_some_iff.mpr hwrites).symm.trans
        (portOfText?_eq_some_iff.mpr hport))
  · exact (hwritten settings hsize).1

end SearchGateway.Config
