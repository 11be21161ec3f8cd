import Mathlib
import Reckoner.Proofs.Search.InPlace
import Reckoner.Proofs.Session.Line
import Reckoner.Proofs.Session.Log

/-!
# The state of a search bar over a run

The place of a walk, the shown result and the last input are written by requests of
many kinds, by some of them through the look they take at an entry, while the history
grows, drops its oldest lines and is emptied. `Bar.IsSound` says what is true of the
bar all the same. The place is one of the history as it is now; and a result that is
shown is the value of the last input, as it was in a session of the run, written in
the way the settings ask for.

Both are kept by a look, hence by every request (`Bar.Served.isPlaced`,
`Bar.IsSound.step`) and by every run. That a run never meets a place the history does
not have is `Bar.serve_ne_noEntry`, and `Bar.after_spec` collects what a host can rely
on. The field of the host plays no part in any of this: whatever it stores, what is
looked at is what it has stored.
-/

namespace Reckoner

/-! ## The length of a history -/

/-- A line that is written down makes the history no shorter, as long as no more lines
are kept than should be, and keeps it so. -/
theorem History.length_record {history : History} (h : history.length ≤ capacity)
    (line : String) :
    history.length ≤ (record history line).length
      ∧ (record history line).length ≤ capacity := by
  rw [record]
  split
  · exact ⟨le_rfl, h⟩
  · rw [lastN, List.length_drop, List.length_append, List.length_singleton]
    omega

/-- A request to a session makes the history no shorter, unless it empties it. -/
theorem Session.Served.length_history {s s' : Session} {request : Session.Request}
    {outcome : Session.Outcome} (hserved : Session.Served s request outcome s')
    (hkeeps : request.forgetsHistory = false) (h : s.history.length ≤ History.capacity) :
    s.history.length ≤ s'.history.length ∧ s'.history.length ≤ History.capacity := by
  cases hserved with
  | committed => exact History.length_record h _
  | recorded => exact History.length_record h _
  | assignedLine => exact History.length_record h _
  | cleared => cases hkeeps
  | reset => cases hkeeps
  | _ => exact ⟨le_rfl, h⟩

namespace Search

/-- No request that is one to the session empties the history. -/
theorem forgetsHistory_of_session? {request : Request} {inner : Session.Request}
    (hinner : request.session? = some inner) : inner.forgetsHistory = false := by
  cases request with
  | calculate text =>
    rw [← Option.some.inj hinner]
    rfl
  | setVariable name value =>
    rw [← Option.some.inj hinner]
    rfl
  | _ => cases hinner

namespace Bar

variable {start bar bar' : Bar} {requests : List Request} {request : Request}
  {outcome : Outcome} {input : String}

/-! ## What is true of a bar -/

/-- **The place of a walk as an index**, which is `-1` while there is no walk. -/
def index (bar : Bar) : ℤ := bar.place.elim (-1) fun i => i

/-- **A walk is at a place that the history has**, which is no longer than it should be. -/
structure IsPlaced (bar : Bar) : Prop where
  length_history_le : bar.session.history.length ≤ History.capacity
  place_lt : ∀ i ∈ bar.place, i < bar.session.history.length

/-- **A bar is sound** after requests to the bar `start`. -/
structure IsSound (start : Bar) (requests : List Request) (bar : Bar) : Prop
    extends IsPlaced bar where
  settings_eq : bar.settings = start.settings
  /-- What is shown is the value that the last input has had in the run. -/
  shown_eq : ∀ shown ∈ bar.shown, bar.showsResultFor bar.lastInput = true
    ∧ ∃ earlier later x, requests = earlier ++ later
      ∧ (start.after earlier).session.compute (some bar.lastInput) = .ok x
      ∧ x.grouped? start.settings.enableCommaFormatting = some shown

/-- A look does not change the history. -/
theorem Looked.history_eq (h : Looked bar input bar') :
    bar'.session.history = bar.session.history := by
  cases h <;> rfl

namespace IsPlaced

/-- The place may be another one the history has. -/
theorem withPlace (h : bar.IsPlaced) {place : Option ℕ}
    (hplace : ∀ i ∈ place, i < bar.session.history.length) : IsPlaced { bar with place } :=
  ⟨h.length_history_le, hplace⟩

/-- A request to the session does not empty the history. -/
theorem ask (h : bar.IsPlaced) {inner : Session.Request}
    (hinner : request.session? = some inner) :
    IsPlaced { bar with session := (bar.session.serve inner).2 } := by
  obtain ⟨hgrown, hle⟩ := (Session.served bar.session inner).length_history
    (forgetsHistory_of_session? hinner) h.length_history_le
  exact ⟨hle, fun i hi => (h.place_lt i hi).trans_le hgrown⟩

/-- A look ends a walk, if it does anything. -/
theorem look (h : bar.IsPlaced) (hlooked : Looked bar input bar') : bar'.IsPlaced := by
  cases hlooked with
  | same => exact h
  | hidden => exact ⟨h.length_history_le, nofun⟩
  | evaluated => exact ⟨h.length_history_le, nofun⟩

end IsPlaced

/-- **A request leaves a walk at a place that the history has.** -/
theorem Served.isPlaced (hserved : Served bar request outcome bar') (h : bar.IsPlaced) :
    bar'.IsPlaced := by
  cases hserved with
  | updated text => exact h.look (looked bar text)
  | asked hinner => exact h.ask hinner
  | rested => exact h
  | @walked _ field place entry hwalks hplace =>
    obtain ⟨looking, hlooked, hshown⟩ := exists_looked_showEntry bar field place entry
    have hentry : (bar.withEntry field entry).IsPlaced := ⟨h.length_history_le, h.place_lt⟩
    rw [hshown]
    refine (hentry.look hlooked).withPlace ?_
    rw [hlooked.history_eq]
    exact hplace
  | @walkStopped _ field place entry hwalks hplace =>
    have hentry : (withEntry { bar with place } field entry).IsPlaced :=
      ⟨h.length_history_le, hplace⟩
    exact hentry.look (looked _ _)
  | lost hplace hlost => exact absurd (h.place_lt _ hplace) (by omega)
  | cleared => exact ⟨Nat.zero_le _, nofun⟩
  | reset => exact ⟨h.length_history_le, nofun⟩
  | changed field => exact ⟨h.length_history_le, h.place_lt⟩

namespace IsSound

/-- What has been shown in a run has been shown in a longer one. -/
theorem later (h : IsSound start requests bar) (request : Request) :
    IsSound start (requests ++ [request]) bar := by
  refine { h with shown_eq := fun shown hshown => ?_ }
  obtain ⟨hshows, earlier, later, x, rfl, hx⟩ := h.shown_eq shown hshown
  exact ⟨hshows, earlier, later ++ [request], x, List.append_assoc _ _ _, hx⟩

/-- **A look keeps a bar sound.** -/
theorem look (h : IsSound start requests bar)
    (hsession : bar.session = (start.after requests).session) (hlooked : Looked bar input bar')
    (request : Request) : IsSound start (requests ++ [request]) bar' := by
  have hplaced := h.toIsPlaced.look hlooked
  cases hlooked with
  | same => exact h.later request
  | hidden => exact ⟨hplaced, h.settings_eq, nofun⟩
  | evaluated hnew hshows hx =>
    refine ⟨hplaced, h.settings_eq, fun shown hshown => ?_⟩
    rw [hsession] at hx
    rw [h.settings_eq] at hshown
    exact ⟨hshows, requests, [request], _, rfl, hx, hshown⟩

end IsSound

/-! ## One request and many -/

/-- **A request keeps a bar sound.** -/
theorem IsSound.step (h : IsSound start requests (start.after requests))
    (hserved : Served (start.after requests) request outcome bar') :
    IsSound start (requests ++ [request]) bar' := by
  have hplaced := hserved.isPlaced h.toIsPlaced
  cases hserved with
  | updated text => exact h.look rfl (looked _ text) _
  | asked hinner => exact ⟨hplaced, h.settings_eq, (h.later _).shown_eq⟩
  | rested => exact h.later _
  | @walked _ field place entry hwalks hplace =>
    obtain ⟨looking, hlooked, hshown⟩ :=
      exists_looked_showEntry (start.after requests) field place entry
    have hentry : IsSound start requests ((start.after requests).withEntry field entry) :=
      { h with }
    rw [hshown] at hplaced ⊢
    exact ⟨hplaced, (hentry.look rfl hlooked request).settings_eq,
      (hentry.look rfl hlooked request).shown_eq⟩
  | @walkStopped _ field place entry hwalks hplace =>
    have hentry : IsSound start requests
        (withEntry { start.after requests with place } field entry) :=
      ⟨⟨h.length_history_le, hplace⟩, h.settings_eq, h.shown_eq⟩
    exact hentry.look rfl (looked _ _) _
  | lost hplace hlost => exact absurd (h.place_lt _ hplace) (by omega)
  | cleared => exact ⟨hplaced, h.settings_eq, (h.later _).shown_eq⟩
  | reset => exact ⟨hplaced, h.settings_eq, nofun⟩
  | changed field => exact ⟨hplaced, h.settings_eq, (h.later _).shown_eq⟩

theorem after_concat (bar : Bar) (requests : List Request) (request : Request) :
    bar.after (requests ++ [request]) = ((bar.after requests).serve request).2 :=
  List.foldl_concat _ _ _ _

/-- A new bar has the settings it was made with, and is sound. -/
theorem isSound_start {settings : Settings} {field : Option Field}
    (hstart : Bar.start settings field = .ok start) :
    start.settings = settings ∧ IsSound start [] start := by
  obtain ⟨session, hsession, rfl⟩ := exists_of_map_eq_ok hstart
  obtain ⟨context, -, rfl⟩ := exists_of_map_eq_ok hsession
  exact ⟨rfl, ⟨Nat.zero_le _, nofun⟩, rfl, nofun⟩

/-- **Every run keeps a bar sound.** -/
theorem IsSound.run (h : IsSound start [] start) (requests : List Request) :
    IsSound start requests (start.after requests) := by
  -- The run is told from its end, since what is shown comes from an earlier session.
  induction requests using List.reverseRecOn with
  | nil => exact h
  | append_singleton requests request ih =>
    rw [after_concat]
    exact ih.step (served _ request)

/-- **No request meets a place the history does not have**, as long as the walk is at one
it has. -/
theorem Served.ne_noEntry (h : Served bar request outcome bar')
    (hplace : ∀ i ∈ bar.place, i < bar.session.history.length) (place : ℕ) :
    outcome ≠ .error (.noEntry place) := by
  cases h with
  | updated text =>
    cases hend : bar.lookEnd (cleaned text) with
    | ok => nofun
    | error stop =>
      rw [lookEnd_eq_error hend]
      nofun
  | @asked _ inner => cases (bar.session.serve inner).1 <;> nofun
  | lost hi hlost => exact absurd (hplace _ hi) (by omega)
  | _ => nofun

/-- A look at a text and a step of a walk leave the history as it was. -/
theorem Served.history_eq (h : Served bar request outcome bar')
    (hinner : request.session? = none) (hclear : request ≠ .clearHistory) :
    bar'.session.history = bar.session.history := by
  cases h with
  | updated text => exact (looked bar text).history_eq
  | asked hinner' => rw [hinner] at hinner'; cases hinner'
  | @walked _ field place entry =>
    obtain ⟨looking, hlooked, hshown⟩ := exists_looked_showEntry bar field place entry
    rw [hshown]
    exact hlooked.history_eq
  | @walkStopped _ field place entry =>
    exact (looked (withEntry { bar with place } field entry)
      (some (field.write entry).text)).history_eq
  | cleared => exact absurd rfl hclear
  | _ => rfl

/-- The index of a sound bar is that of a place of the history, or none. -/
theorem IsSound.index_mem (h : IsSound start requests bar) :
    -1 ≤ bar.index ∧ bar.index < bar.session.history.length := by
  rw [index]
  cases hplace : bar.place with
  | none =>
    show (-1 : ℤ) ≤ -1 ∧ (-1 : ℤ) < _
    omega
  | some i =>
    have hlt : i < bar.session.history.length := h.place_lt i hplace
    show (-1 : ℤ) ≤ i ∧ (i : ℤ) < _
    omega

/-- **What a host can rely on**, after any requests to a new bar. The index of the walk
is `-1` or a place of the history, and no request meets a place that is not. Looking at
a text and walking leave the history as it was. And where a result is shown, results
are wanted, the last input looks like a calculation and is complete, and the result is
the value it had in a session of this run, grouped as the settings ask for. -/
theorem after_spec {settings : Settings} {field : Option Field}
    (hstart : Bar.start settings field = .ok start) (requests : List Request) :
    (-1 ≤ (start.after requests).index
        ∧ (start.after requests).index < (start.after requests).session.history.length)
      ∧ (∀ request place, ((start.after requests).serve request).1 ≠ .error (.noEntry place))
      ∧ (∀ request, request = .back ∨ request = .forth ∨ (∃ text, request = .update text) →
        ((start.after requests).serve request).2.session.history
          = (start.after requests).session.history)
      ∧ ∀ shown, (start.after requests).shown = some shown →
        settings.showInlineResults = true
          ∧ looksLikeCalculation (start.after requests).lastInput.toList = true
          ∧ isComplete (start.after requests).lastInput.toList = true
          ∧ ∃ earlier later x, requests = earlier ++ later
            ∧ (start.after earlier).session.compute (some (start.after requests).lastInput)
              = .ok x
            ∧ x.grouped? settings.enableCommaFormatting = some shown := by
  obtain ⟨hsettings, hnew⟩ := isSound_start hstart
  have hsound := hnew.run requests
  refine ⟨hsound.index_mem, fun request => (served _ request).ne_noEntry hsound.place_lt, ?_, ?_⟩
  · rintro request (rfl | rfl | ⟨text, rfl⟩)
    · exact (served _ _).history_eq rfl nofun
    · exact (served _ _).history_eq rfl nofun
    · exact (served _ _).history_eq rfl nofun
  · intro shown hshown
    obtain ⟨hshows, hvalue⟩ := hsound.shown_eq shown hshown
    rw [showsResultFor, Bool.and_eq_true, Bool.and_eq_true, hsound.settings_eq, hsettings] at hshows
    rw [hsettings] at hvalue
    exact ⟨hshows.1.1, hshows.1.2, hshows.2, hvalue⟩

/-- A bar starts with the default settings. -/
theorem start_default (field : Option Field) :
    Bar.start {} field = .ok ⟨{}, field, .empty (.working 50), "", none, none⟩ := by
  rw [Bar.start, Session.start, Context.ofPrecision, if_pos (by decide)]
  rfl

/-- A new bar with a field that keeps three characters. -/
def narrow : Bar := ⟨{}, some (.limited "" 3), .empty (.working 50), "", none, none⟩

/-- The bar after a line was committed. -/
def committed : Bar :=
  ⟨{}, some (.limited "" 3), ⟨.working 50, [], ["+-57"], .finite ⟨true, 57, 0⟩⟩, "", none, none⟩

theorem narrow_after_calculate : narrow.after [.calculate "+-57"] = committed := by cbv

/-- A line is committed, and what the field has kept of it is looked at. -/
theorem after_calculate_update :
    Bar.start {} (some (.limited "" 3)) = .ok narrow
      ∧ (narrow.after [.calculate "+-57", .update (some "+-5")]).shown = some "-5"
      ∧ (narrow.after [.calculate "+-57", .update (some "+-5")]).index < 1
      ∧ looksLikeCalculation "+-5".toList = true ∧ isComplete "+-5".toList = true := by
  have hstart : Bar.start {} (some (.limited "" 3)) = .ok narrow := start_default _
  have hclean : cleaned (some "+-5") = "+-5" := by cbv
  have hshows : committed.showsResultFor "+-5" = true := by decide +kernel
  have htree : (tokenize "+-5".toList).map (Expr.ofTokens · 3)
      = .ok (.negate (.number ⟨['5'], none⟩)) := by cbv
  have hvalue : committed.session.compute (some "+-5") = .ok (.finite ⟨true, 5, 0⟩) := by
    rw [committed.session.compute_eq_eval (by decide) htree]
    rfl
  have hafter : narrow.after [.calculate "+-57", .update (some "+-5")]
      = committed.update (some "+-5") := by
    show (narrow.after ([.calculate "+-57"] ++ [.update (some "+-5")])) = _
    rw [after_concat, narrow_after_calculate, serve_update]
  rw [← hclean] at hshows hvalue
  have hupdate := update_of_compute (by rw [hclean]; decide) hshows hvalue
  obtain ⟨⟨-, hindex⟩, -, -, hshown⟩ := after_spec hstart [.calculate "+-57", .update (some "+-5")]
  have htext : (committed.update (some "+-5")).shown = some "-5" := by
    rw [hupdate]
    cbv
  have hinput : (committed.update (some "+-5")).lastInput = "+-5" := by
    rw [hupdate, hclean]
  have hlength : (committed.update (some "+-5")).session.history.length = 1 := by
    rw [hupdate]
    rfl
  rw [hafter] at hindex hshown ⊢
  rw [hinput] at hshown
  rw [hlength] at hindex
  obtain ⟨-, hlooks, hcomplete, -⟩ := hshown "-5" htext
  exact ⟨hstart, htext, hindex, hlooks, hcomplete⟩

end Bar

end Search

end Reckoner
