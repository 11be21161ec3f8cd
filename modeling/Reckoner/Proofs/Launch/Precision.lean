import Mathlib.Order.Lattice
import Reckoner.Launch.Basic
import Reckoner.Outer.Lax
import Reckoner.Search.Bar

/-!
# Settings that can be run

Whatever natural number is written as the precision is accepted, in a settings file and
among the options. Arithmetic ends earlier: there is no context above
`Context.maxPrecision`. So settings are accepted that cannot be run
(`Launch.startConsole_aboveMaximum`).

That is the only thing that stands in the way. Settings up to the largest precision give
a console and a search bar that calculate with the internal precision, whichever way the
settings came to be; settings above it give neither, and the start that was to use them
ends with a fault of precision (`Settings.start_cases`).
-/

namespace Reckoner

variable {loader : Loader} {settings : Settings} {options : Launch.Options} {storage : Storage}

/-- A context has the internal precision of the settings. The floor is applied twice,
which does no harm. -/
theorem Settings.ofPrecision_internalPrecision
    (h : settings.decimalPrecision ≤ Context.maxPrecision) :
    Context.ofPrecision settings.internalPrecision = .ok (.working settings.internalPrecision) := by
  have hfloor : max settings.internalPrecision minPrecision = settings.internalPrecision :=
    max_eq_left (le_max_right _ _)
  rw [Context.ofPrecision, hfloor]
  exact if_pos (max_le h (by decide))

/-- Above the largest precision there is no context. -/
theorem Settings.exists_ofPrecision_eq_error
    (h : Context.maxPrecision < settings.decimalPrecision) :
    ∃ fault, Context.ofPrecision settings.internalPrecision = .error fault := by
  have habove : ¬ max settings.internalPrecision minPrecision ≤ Context.maxPrecision :=
    not_le.mpr (h.trans_le ((le_max_left _ _).trans (le_max_left _ _)))
  rw [Context.ofPrecision, if_neg habove]
  split <;> exact ⟨_, rfl⟩

namespace Launch

/-- **The settings that a start uses**: those that are loaded, with the precision of the
options imposed on them. -/
def Uses (loader : Loader) (options : Options) (storage : Storage) (settings : Settings) : Prop :=
  ∃ loaded, options.config ≠ some none ∧ (Settings.load loader storage).result = .ok loaded
    ∧ imposePrecision loaded options.precision = .ok settings

/-- A start that has come to its settings only starts the console. -/
theorem Uses.result_startConsole (h : Uses loader options storage settings)
    (levelName : Option String) : (startConsole loader options levelName storage).result
      = (Console.start settings).mapError .precision := by
  obtain ⟨loaded, hconfig, hload, himpose⟩ := h
  have hloaded : (loadSettings loader options storage).1 = .ok loaded := by
    rw [loadSettings, if_neg hconfig]
    show (Settings.load loader storage).result.mapError Failure.load = _
    rw [hload]
    rfl
  have hused : (loadSettings loader options storage).1.bind (imposePrecision · options.precision)
      = .ok settings := by
    rw [hloaded]
    exact himpose
  rw [startConsole]
  dsimp only
  rw [hused]

end Launch

/-- **Settings can be run exactly up to the largest precision** of arithmetic. Up to
there a console and a search bar start, and so does any start that uses the settings;
all of them calculate with the chosen precision, or with fifty digits if that is less.
Above it each of them fails. -/
theorem Settings.start_cases (settings : Settings) (field : Option Search.Field) :
    (settings.decimalPrecision ≤ Context.maxPrecision ∧ ∃ console bar,
      Console.start settings = .ok console ∧ Search.Bar.start settings field = .ok bar
        ∧ console.session.context = .working (max settings.decimalPrecision minPrecision)
        ∧ bar.session.context = .working (max settings.decimalPrecision minPrecision)
        ∧ ∀ loader options levelName storage, Launch.Uses loader options storage settings →
          (Launch.startConsole loader options levelName storage).result = .ok console)
    ∨ (Context.maxPrecision < settings.decimalPrecision ∧ ∃ fault,
      Console.start settings = .error fault ∧ Search.Bar.start settings field = .error fault
        ∧ ∀ loader options levelName storage, Launch.Uses loader options storage settings →
          (Launch.startConsole loader options levelName storage).result
            = .error (.precision fault)) := by
  rcases Nat.lt_or_ge Context.maxPrecision settings.decimalPrecision with habove | hwithin
  · right
    obtain ⟨fault, hfault⟩ := exists_ofPrecision_eq_error habove
    have hconsole : Console.start settings = .error fault := by
      rw [Console.start, Session.start, hfault]
      rfl
    refine ⟨habove, fault, hconsole, ?_, fun loader options levelName storage huses => ?_⟩
    · rw [Search.Bar.start, Session.start, hfault]
      rfl
    · rw [huses.result_startConsole, hconsole]
      rfl
  · left
    have hctx := ofPrecision_internalPrecision hwithin
    have hconsole : Console.start settings
        = .ok ⟨settings, .empty (.working settings.internalPrecision)⟩ := by
      rw [Console.start, Session.start, hctx]
      rfl
    have hbar : Search.Bar.start settings field
        = .ok ⟨settings, field, .empty (.working settings.internalPrecision), "", none, none⟩ := by
      rw [Search.Bar.start, Session.start, hctx]
      rfl
    refine ⟨hwithin, _, _, hconsole, hbar, rfl, rfl,
      fun loader options levelName storage huses => ?_⟩
    rw [huses.result_startConsole, hconsole]
    rfl

/-- **A settings file is accepted that no console runs with**: one that asks for one
digit more than the largest precision has. -/
theorem Launch.startConsole_aboveMaximum :
    let storage : Storage :=
      .file (Text.Utf8.encode "\x7b\"decimal_precision\": 1000000000000000000\x7d".toList)
    let settings : Settings := { Settings.initial with decimalPrecision := 1000000000000000000 }
    Launch.Uses Lax.loader {} storage settings
      ∧ (Launch.startConsole Lax.loader {} none storage).result = .error (.precision .aboveMaximum)
      ∧ Console.start settings = .error .aboveMaximum := by
  intro storage settings
  have hload : (Settings.load Lax.loader storage).result = .ok settings := by
    decide +kernel
  have huses : Launch.Uses Lax.loader {} storage settings := ⟨settings, by decide, hload, rfl⟩
  have hstart : Console.start settings = .error .aboveMaximum := rfl
  refine ⟨huses, ?_, hstart⟩
  rw [huses.result_startConsole, hstart]
  rfl

end Reckoner
