import Reckoner.Proofs.Search.Cursor
import Reckoner.Proofs.Unicode.Blank

/-!
# Looking at a text once more

Looking at a text is not harmless: its value becomes the last answer, so `ans+1` would count up
if it were looked at twice. But a bar looks only at what is new to it. A text is new if its
cleaned form is, and cleaning is done once and for all (`cleaned_cleaned`), so a text that was
looked at can be handed in again, cleaned or not, and nothing is changed.

The bar writes into the field itself when it shows an entry of the history, and looks at what
the field has made of it. A host that echoes every change of its field hands in this very text
(`Shows.lastInput_eq`). `serve_update_echo` is both: no echo changes anything, and so none ends a
walk.
-/

namespace Reckoner.Search

open Unicode (isFormat trim)

/-- **A text is cleaned once and for all.** -/
theorem clean_clean (text : List Char) : clean (clean text) = clean text := by
  have hformat : (clean text).filter (fun c => !isFormat c) = clean text := by
    refine List.filter_eq_self.mpr fun c hc => ?_
    have hsub : clean text ⊆ text.filter fun c => !isFormat c := by
      rw [clean, trim]
      exact List.Subset.trans (List.rdropWhile_prefix _ _).subset
        (List.dropWhile_sublist _).subset
    exact (List.mem_filter.mp (hsub hc)).2
  rw [clean, hformat, clean, Unicode.trim_trim]

namespace Bar

variable {start bar bar' : Bar} {request : Request} {outcome : Outcome} {text text' : Option String}

theorem cleaned_cleaned (text : Option String) : cleaned (some (cleaned text)) = cleaned text := by
  show String.ofList (clean (cleaned text).toList) = _
  rw [cleaned, String.toList_ofList, clean_clean]

/-- A text that was looked at is not looked at again. -/
theorem serve_update_of_eq (h : cleaned text = bar.lastInput) :
    bar.serve (.update text) = (.ok (.text (cleaned text)), bar) := by
  rw [serve_update, update_of_eq h, lookEnd, if_neg fun hnew => hnew.1 h]
  rfl

/-- A look gives back the cleaned text, if it gives back anything. -/
theorem reply_eq_of_serve_update {reply : Reply}
    (h : (bar.serve (.update text)).1 = .ok reply) : reply = .text (cleaned text) := by
  rw [serve_update] at h
  obtain ⟨_, -, rfl⟩ := exists_of_map_eq_ok h
  rfl

/-- **A step shows an entry**, or the empty text behind the newest one: there is a history to
be walked, and a step forth has a walk to go on with. -/
structure Shows (bar : Bar) (request : Request) : Prop where
  walks : request.walks = true
  walkable : bar.walkable?.isSome = true
  goesOn : request = .forth → bar.place.isSome = true

/-- What is shown stands in the field, and has been looked at. -/
theorem lastInput_eq_of_run_showEntry (bar : Bar) (field : Field) (entry : String) :
    ((Steps.showEntry field entry).run.run bar).2.field = some (field.write entry)
      ∧ ((Steps.showEntry field entry).run.run bar).2.lastInput
        = cleaned (some (field.write entry).text) := by
  obtain ⟨looking, hlooked, ⟨hrun, -⟩ | ⟨hrun, -⟩⟩ := run_showEntry_looked bar field entry
  · rw [hrun]
    exact ⟨hlooked.field_eq, hlooked.lastInput_eq⟩
  · rw [hrun]
    exact ⟨hlooked.field_eq, hlooked.lastInput_eq⟩

/-- The field that is walkable is that of the bar. -/
theorem field_eq_of_walkable? {field : Field} {history : History}
    (h : bar.walkable? = some (field, history)) : bar.field = some field := by
  rw [walkable?] at h
  split at h
  · next hfield =>
    split at h
    · rw [hfield, (Prod.mk.inj (Option.some.inj h)).1]
    · cases h
  · cases h

/-- **A step that shows an entry** writes the one it comes to into the field, with the place of the
new cursor put in beforehand. -/
theorem Shows.exists_run_showEntry (h : bar.Shows request)
    (hplace : ∀ i ∈ bar.place, i < bar.session.history.length) :
    ∃ (field : Field) (place : Option ℕ), bar.field = some field
      ∧ (∀ i ∈ place, i < bar.session.history.length)
      ∧ place.getD bar.session.history.length
        = request.move bar.session.history.length bar.cursor
      ∧ (bar.serve request).2
        = ((Steps.showEntry field (bar.entryAt (request.move bar.session.history.length
            bar.cursor))).run.run { bar with place }).2 := by
  obtain ⟨⟨field, history⟩, hwalk⟩ := Option.isSome_iff_exists.mp h.walkable
  have hgoes : ¬ (request = .forth ∧ bar.cursor = bar.session.history.length) := by
    rintro ⟨hforth, hend⟩
    obtain ⟨i, hi⟩ := Option.isSome_iff_exists.mp (h.goesOn hforth)
    rw [cursor, hi] at hend
    exact (hplace i hi).ne hend
  obtain ⟨place, hlt, hmove, -, hserve⟩ := Bar.exists_run_showEntry hwalk hplace h.walks hgoes
  refine ⟨field, place, field_eq_of_walkable? hwalk, hlt, hmove, ?_⟩
  rw [hserve]

/-- **A step that shows an entry** leaves the field with a text that has been looked at. -/
theorem Shows.lastInput_eq (h : bar.Shows request)
    (hplace : ∀ i ∈ bar.place, i < bar.session.history.length) :
    ∃ field, (bar.serve request).2.field = some field
      ∧ (bar.serve request).2.lastInput = cleaned (some field.text) := by
  obtain ⟨field, place, -, -, -, hserve⟩ := h.exists_run_showEntry hplace
  obtain ⟨hfield, hinput⟩ := lastInput_eq_of_run_showEntry { bar with place } field
    (bar.entryAt (request.move bar.session.history.length bar.cursor))
  rw [hserve]
  exact ⟨_, hfield, hinput⟩

/-- **No echo changes anything**, in any bar in use. A text that has the cleaned form of the one
that was just looked at, this cleaned form itself among others, gives back the same text and
leaves the bar as it is. So does the text that stands in the field behind a step which shows an
entry, whatever the field makes of an entry; so an echo does not end a walk. -/
theorem serve_update_echo {settings : Settings} {field : Option Field}
    (hstart : Bar.start settings field = .ok start) {requests : List Request}
    (hbar : start.after requests = bar) :
    (∀ text text', cleaned text' = cleaned text →
        (∀ reply, (bar.serve (.update text)).1 = .ok reply → reply = .text (cleaned text))
          ∧ (bar.serve (.update text)).2.serve (.update text')
            = (.ok (.text (cleaned text)), (bar.serve (.update text)).2))
      ∧ (∀ text, cleaned (some (cleaned text)) = cleaned text)
      ∧ ∀ request, bar.Shows request →
        ∃ field, (bar.serve request).2.field = some field
          ∧ (bar.serve request).2.serve (.update (some field.text))
            = (.ok (.text (cleaned (some field.text))), (bar.serve request).2) := by
  obtain ⟨-, hnew⟩ := isSound_start hstart
  have hplace := (hnew.run requests).place_lt
  rw [hbar] at hplace
  refine ⟨fun text text' hsame => ⟨fun reply => reply_eq_of_serve_update, ?_⟩, cleaned_cleaned,
    fun request hshows => ?_⟩
  · have hinput : cleaned text' = (bar.serve (.update text)).2.lastInput := by
      rw [serve_update, hsame]
      exact (looked bar text).lastInput_eq.symm
    rw [serve_update_of_eq hinput, hsame]
  · obtain ⟨field, hfield, hinput⟩ := hshows.lastInput_eq hplace
    exact ⟨field, hfield, serve_update_of_eq hinput.symm⟩

/-- A field that keeps three characters echoes what it has kept of an entry, and a text that was
typed is cleaned and handed in again. -/
theorem serve_update_echo_narrow :
    Bar.start {} (some (.limited "" 3)) = .ok narrow
      ∧ narrow.after [.calculate "+-57"] = committed
      ∧ cleaned (some "1+1") = cleaned (some " 1+1\u200b")
      ∧ (committed.serve (.update (some " 1+1\u200b"))).2.serve (.update (some "1+1"))
        = (.ok (.text (cleaned (some " 1+1\u200b"))),
            (committed.serve (.update (some " 1+1\u200b"))).2)
      ∧ committed.Shows .back
      ∧ ∃ field, (committed.serve .back).2.field = some field
        ∧ (committed.serve .back).2.serve (.update (some field.text))
          = (.ok (.text (cleaned (some field.text))), (committed.serve .back).2) := by
  have hstart : Bar.start {} (some (.limited "" 3)) = .ok narrow := start_default _
  have hclean : cleaned (some "1+1") = cleaned (some " 1+1\u200b") := by cbv
  have hshows : committed.Shows .back := ⟨rfl, rfl, by rintro ⟨⟩⟩
  obtain ⟨htyped, -, hshown⟩ := serve_update_echo hstart narrow_after_calculate
  exact ⟨hstart, narrow_after_calculate, hclean, (htyped _ _ hclean).2, hshows, hshown .back hshows⟩

end Bar

end Reckoner.Search
