import Reckoner.Outer.Lax
import Reckoner.Proofs.Settings.Reading
import Reckoner.Proofs.Text.Utf8
import Reckoner.Settings.File

/-!
# What comes of loading settings

A file is meant to hold settings, and everything else is meant to be ignored: what cannot be
opened, what is no document, what is a document of no settings. Three files are not ignored but end
the program: one whose octets are no UTF-8 (`Storage.IsGarbled`), and one where nothing but what is
well formed comes before an integer of too many digits (`Storage.IsOverlong`) or a bracket that is
nested too deep (`Storage.IsTooDeep`).

Which documents there are settings in is for the loader to say, and so is how deep they may be
nested. Whatever it says, `Loads` lists what comes of each kind of place. There is no seventh
(`Settings.load_spec`), and no loading changes a place where something is.
-/

namespace Reckoner

open Text.Utf8 JsonValue Settings

variable {loader : Loader} {storage : Storage} {settings : Settings}

/-- **A file that holds settings**: the octets of a document with entries, the precision among them
not negative. -/
def Storage.HoldsSettings (loader : Loader) (storage : Storage) (settings : Settings) : Prop :=
  ∃ cs document entries, storage = .file (encode cs) ∧ IsDocument loader.nesting cs document
    ∧ loader.validate document = some entries ∧ entries.settings? = some settings

/-- **A file that is no text.** -/
def Storage.IsGarbled (storage : Storage) : Prop :=
  ∃ octets, storage = .file octets ∧ ∀ cs, encode cs ≠ octets

/-- **A file with an integer of too many digits**, where everything before it is well formed. -/
def Storage.IsOverlong (loader : Loader) (storage : Storage) : Prop :=
  ∃ cs, storage = .file (encode cs) ∧ IsStopped .longInteger loader.nesting cs

/-- **A file with a bracket that is nested too deep**, where everything before it is well formed. -/
def Storage.IsTooDeep (loader : Loader) (storage : Storage) : Prop :=
  ∃ cs, storage = .file (encode cs) ∧ IsStopped .tooDeep loader.nesting cs

/-- **What comes of loading.** -/
inductive Loads (loader : Loader) : Storage → Loading → Prop
  /-- Settings are found. -/
  | found {storage : Storage} {settings : Settings}
      (holds : storage.HoldsSettings loader settings) :
      Loads loader storage ⟨.ok settings, [logged .info], storage⟩
  /-- Nothing is found, and a file with the initial settings is written. -/
  | written : Loads loader .missing ⟨.ok initial, [logged .info], .file initial.fileOctets⟩
  /-- What is found is ignored, and a warning is given. -/
  | ignored {storage : Storage} (ne_missing : storage ≠ .missing)
      (no_settings : ∀ settings, ¬ storage.HoldsSettings loader settings)
      (not_garbled : ¬ storage.IsGarbled) (not_overlong : ¬ storage.IsOverlong loader)
      (not_tooDeep : ¬ storage.IsTooDeep loader) :
      Loads loader storage ⟨.ok initial, [logged .warning], storage⟩
  | garbled {storage : Storage} (is_garbled : storage.IsGarbled) :
      Loads loader storage ⟨.error .notUtf8, [], storage⟩
  | overlong {storage : Storage} (is_overlong : storage.IsOverlong loader) :
      Loads loader storage ⟨.error .longInteger, [], storage⟩
  | deep {storage : Storage} (is_tooDeep : storage.IsTooDeep loader) :
      Loads loader storage ⟨.error .tooDeep, [], storage⟩

namespace Settings

theorem ofOctets_encode (cs : List Char) :
    ofOctets loader (encode cs) = match JsonValue.ofText loader.nesting cs with
      | .error .malformed => .ok none
      | .error .longInteger => .error .longInteger
      | .error .tooDeep => .error .tooDeep
      | .ok document => .ok ((loader.validate document).bind Entries.settings?) := by
  unfold ofOctets
  split
  case h_1 h => cases (decode?_eq_some_iff.mpr rfl).symm.trans h
  case h_2 h =>
    obtain rfl := Option.some.inj ((decode?_eq_some_iff.mpr rfl).symm.trans h)
    rfl

/-- **Settings that a file holds are loaded.** -/
theorem load_of_holdsSettings (h : storage.HoldsSettings loader settings) :
    load loader storage = ⟨.ok settings, [logged .info], storage⟩ := by
  obtain ⟨cs, document, entries, rfl, hdocument, hentries, hsettings⟩ := h
  have hoctets : ofOctets loader (encode cs) = .ok (some settings) := by
    rw [ofOctets_encode, ofText_eq_ok_iff.mpr hdocument]
    dsimp only
    rw [hentries, Option.bind_some, hsettings]
  rw [load, hoctets]

theorem load_of_isGarbled (h : storage.IsGarbled) :
    load loader storage = ⟨.error .notUtf8, [], storage⟩ := by
  obtain ⟨octets, rfl, hoctets⟩ := h
  have hnone : decode? octets = none :=
    Option.eq_none_iff_forall_ne_some.mpr fun cs hcs => hoctets cs (decode?_eq_some_iff.mp hcs)
  rw [load, ofOctets, hnone]

theorem load_of_isOverlong (h : storage.IsOverlong loader) :
    load loader storage = ⟨.error .longInteger, [], storage⟩ := by
  obtain ⟨cs, rfl, hoverlong⟩ := h
  rw [load, ofOctets_encode, (ofText_eq_error_iff (by decide)).mpr hoverlong]

theorem load_of_isTooDeep (h : storage.IsTooDeep loader) :
    load loader storage = ⟨.error .tooDeep, [], storage⟩ := by
  obtain ⟨cs, rfl, htooDeep⟩ := h
  rw [load, ofOctets_encode, (ofText_eq_error_iff (by decide)).mpr htooDeep]

/-- **Everything else is ignored**, unless nothing is there. -/
theorem load_of_ignored (ne_missing : storage ≠ .missing)
    (no_settings : ∀ settings, ¬ storage.HoldsSettings loader settings)
    (not_garbled : ¬ storage.IsGarbled) (not_overlong : ¬ storage.IsOverlong loader)
    (not_tooDeep : ¬ storage.IsTooDeep loader) :
    load loader storage = ⟨.ok initial, [logged .warning], storage⟩ := by
  cases storage with
  | missing => exact absurd rfl ne_missing
  | directory => rfl
  | blocked => rfl
  | file octets =>
    obtain ⟨cs, rfl⟩ : ∃ cs, encode cs = octets :=
      not_forall_not.mp fun h => not_garbled ⟨octets, rfl, h⟩
    have hnone : ofOctets loader (encode cs) = .ok none := by
      rw [ofOctets_encode]
      cases htext : JsonValue.ofText loader.nesting cs with
      | error fault =>
        cases fault with
        | malformed => rfl
        | longInteger =>
          exact absurd ⟨cs, rfl, (ofText_eq_error_iff (by decide)).mp htext⟩ not_overlong
        | tooDeep => exact absurd ⟨cs, rfl, (ofText_eq_error_iff (by decide)).mp htext⟩ not_tooDeep
      | ok document =>
        dsimp only
        congr 1
        refine Option.bind_eq_none_iff.mpr fun entries hentries => ?_
        refine Option.eq_none_iff_forall_ne_some.mpr fun settings hsettings => ?_
        exact no_settings settings
          ⟨cs, document, entries, rfl, ofText_eq_ok_iff.mp htext, hentries, hsettings⟩
    rw [load, hnone]

theorem load_of_loads {loading : Loading} (h : Loads loader storage loading) :
    load loader storage = loading := by
  cases h with
  | found holds => exact load_of_holdsSettings holds
  | written => rfl
  | ignored ne_missing no_settings not_garbled not_overlong not_tooDeep =>
    exact load_of_ignored ne_missing no_settings not_garbled not_overlong not_tooDeep
  | garbled is_garbled => exact load_of_isGarbled is_garbled
  | overlong is_overlong => exact load_of_isOverlong is_overlong
  | deep is_tooDeep => exact load_of_isTooDeep is_tooDeep

theorem exists_loads (loader : Loader) (storage : Storage) :
    ∃ loading, Loads loader storage loading := by
  by_cases hmissing : storage = .missing
  · rw [hmissing]
    exact ⟨_, .written⟩
  by_cases hgarbled : storage.IsGarbled
  · exact ⟨_, .garbled hgarbled⟩
  by_cases hoverlong : storage.IsOverlong loader
  · exact ⟨_, .overlong hoverlong⟩
  by_cases htooDeep : storage.IsTooDeep loader
  · exact ⟨_, .deep htooDeep⟩
  by_cases hfound : ∃ settings, storage.HoldsSettings loader settings
  · obtain ⟨settings, hsettings⟩ := hfound
    exact ⟨_, .found hsettings⟩
  · exact ⟨_, .ignored hmissing (not_exists.mp hfound) hgarbled hoverlong htooDeep⟩

/-- **Loading** gives settings for every place but a garbled file, one with an integer of too many
digits and one that is nested too deep. What they are is said by `Loads`, and nothing else comes of
it, however values are understood and however deep documents may be nested. -/
theorem load_spec (loader : Loader) (storage : Storage) :
    (∀ loading, load loader storage = loading ↔ Loads loader storage loading)
      ∧ ((∃ settings, (load loader storage).result = .ok settings)
        ↔ ¬ storage.IsGarbled ∧ ¬ storage.IsOverlong loader ∧ ¬ storage.IsTooDeep loader) := by
  obtain ⟨loading, hloading⟩ := exists_loads loader storage
  have hload := load_of_loads hloading
  refine ⟨fun other => ⟨fun h => ?_, load_of_loads⟩, ⟨?_, ?_⟩⟩
  · exact h ▸ hload.symm ▸ hloading
  · rintro ⟨settings, hsettings⟩
    refine ⟨fun hgarbled => ?_, fun hoverlong => ?_, fun htooDeep => ?_⟩
    · rw [load_of_isGarbled hgarbled] at hsettings
      cases hsettings
    · rw [load_of_isOverlong hoverlong] at hsettings
      cases hsettings
    · rw [load_of_isTooDeep htooDeep] at hsettings
      cases hsettings
  · rintro ⟨not_garbled, not_overlong, not_tooDeep⟩
    rw [hload]
    cases hloading with
    | found => exact ⟨_, rfl⟩
    | written => exact ⟨_, rfl⟩
    | ignored => exact ⟨_, rfl⟩
    | garbled h => exact absurd h not_garbled
    | overlong h => exact absurd h not_overlong
    | deep h => exact absurd h not_tooDeep

/-- **One octet that begins no character** ends the program. -/
theorem load_loneOctet :
    load Lax.loader (.file [0xFF]) = ⟨.error .notUtf8, [], .file [0xFF]⟩ := rfl

/-- **Opening brackets alone** end the program, if there are more of them than may be nested: it is
never asked for the closing ones. -/
theorem load_brackets (loader : Loader) {n : ℕ} (h : loader.nesting < n) :
    (load loader (.file (encode (List.replicate n '[')))).result = .error .tooDeep := by
  have hstops : Stops .tooDeep loader.nesting (.one .value) (List.replicate n '[') := by
    obtain ⟨more, rfl⟩ := Nat.exists_eq_add_of_lt h
    induction loader.nesting with
    | zero => exact .bracket .value (List.replicate (0 + more) '[')
    | succ room ih =>
      rw [Nat.add_right_comm room 1 more, List.replicate_succ]
      exact .enclosed isGap_nil (.first ih)
  have htooDeep : (Storage.file (encode (List.replicate n '['))).IsTooDeep loader :=
    ⟨_, rfl, [], _, rfl, isGap_nil, hstops⟩
  rw [load_of_isTooDeep htooDeep]

end Settings

end Reckoner
