import Reckoner.Proofs.Search.Echo

/-!
# The entry a walk has come to

The place of a walk is an index into the history, and the history changes while the walk
stands still: a line that is committed is written down behind the newest entry, and if the
history is full, the oldest one is dropped. Then every entry moves one index down, the one that
stands in the field among them, and the place of the walk does not. So the index means the
entry that was shown last as long as none is dropped; behind `d` requests that drop one, this
entry stands `d` indices below (`entry_after`).

`entry_after_full` is a run in which they differ: the entry of the index is not the one that is
shown, and a step back shows again what is shown already.
-/

namespace Reckoner

/-! ## A history that drops an entry -/

namespace History

variable {history : History}

/-- **How many entries are dropped** where a history becomes another one: the oldest, if there
was no room for the one that was written down. -/
def droppedFor (history history' : History) : ℕ :=
  if history.length = capacity ∧ history' ≠ history then 1 else 0

theorem drop_droppedFor_self (history : History) :
    history.drop (history.droppedFor history) = history := by
  rw [droppedFor, if_neg fun h => h.2 rfl, List.drop_zero]

/-- **What a history keeps** when a line is written down: the entries it had, in their order, but
for the oldest if there is no room. -/
theorem drop_isPrefix_record (h : history.length ≤ capacity) (line : String) :
    history.drop (history.droppedFor (record history line)) <+: record history line := by
  by_cases hsame : record history line = history
  · rw [hsame, drop_droppedFor_self]
  · have hnew : record history line = (history ++ [line]).drop (history.length + 1 - capacity) := by
      rw [record] at hsame ⊢
      split at hsame
      · exact absurd rfl hsame
      · next hlast => rw [if_neg hlast, lastN, List.length_append, List.length_singleton]
    have hdrop : history.droppedFor (record history line) = history.length + 1 - capacity := by
      rw [droppedFor]
      split
      · next hfull => omega
      · next hroom =>
        have hlt : history.length ≠ capacity := fun hfull => hroom ⟨hfull, hsame⟩
        omega
    rw [hdrop, hnew]
    exact (List.prefix_append history [line]).drop _

end History

/-- **What a session keeps of its history** in a request that does not empty it. -/
theorem Session.Served.drop_isPrefix {s s' : Session} {request : Session.Request}
    {outcome : Session.Outcome} (hserved : Session.Served s request outcome s')
    (hkeeps : request.forgetsHistory = false) (h : s.history.length ≤ History.capacity) :
    s.history.drop (s.history.droppedFor s'.history) <+: s'.history := by
  cases hserved with
  | committed => exact History.drop_isPrefix_record h _
  | recorded => exact History.drop_isPrefix_record h _
  | assignedLine => exact History.drop_isPrefix_record h _
  | cleared => cases hkeeps
  | reset => cases hkeeps
  | _ => exact (History.drop_droppedFor_self s.history).symm ▸ List.prefix_rfl

namespace Search.Bar

variable {start bar bar' : Bar} {requests : List Request} {request : Request} {i : ℕ}

/-- **How many entries requests drop**, one after another. -/
def dropped (bar : Bar) : List Request → ℕ
  | [] => 0
  | request :: later =>
    bar.session.history.droppedFor (bar.serve request).2.session.history
      + dropped (bar.serve request).2 later

theorem dropped_concat (bar : Bar) (requests : List Request) (request : Request) :
    bar.dropped (requests ++ [request])
      = bar.dropped requests + (bar.after requests).session.history.droppedFor
          (bar.after (requests ++ [request])).session.history := by
  induction requests generalizing bar with
  | nil => rw [List.nil_append, dropped, dropped, dropped, Nat.add_comm]; rfl
  | cons first requests ih =>
    rw [List.cons_append, dropped, dropped, ih, Nat.add_assoc]
    rfl

/-! ## What a request does to a walk -/

/-- **A request writes an entry** into the field. -/
def Writes (bar : Bar) (request : Request) (entry : String) : Prop :=
  ∃ field, bar.field = some field ∧ (bar.serve request).2.field = some (field.write entry)

/-- Something is walkable where navigation is enabled, and there are a field and an entry. -/
theorem isSome_walkable?_iff : bar.walkable?.isSome = true
    ↔ bar.settings.enableHistoryNavigation = true ∧ bar.field.isSome = true
      ∧ bar.session.history ≠ [] := by
  rw [walkable?]
  cases bar.field with
  | none => simp
  | some field => cases bar.settings.enableHistoryNavigation <;> simp

/-- **The entry a step comes to**, or the empty text behind the newest one. -/
def entryOf (bar : Bar) (step : Request) : String :=
  bar.entryAt (step.move bar.session.history.length bar.cursor)

/-- **A step that shows an entry** writes the one it comes to, and this is the entry of its
place, unless the walk is over. -/
theorem Shows.writes (h : bar.Shows request)
    (hplace : ∀ i ∈ bar.place, i < bar.session.history.length) :
    bar.Writes request (bar.entryOf request)
      ∧ ∀ i ∈ (bar.serve request).2.place,
        (bar.serve request).2.session.history[i]? = some (bar.entryOf request) := by
  obtain ⟨field, place, hfield, hlt, hmove, hserve⟩ := h.exists_run_showEntry hplace
  obtain ⟨looking, hlooked, ⟨hrun, -⟩ | ⟨hrun, hend⟩⟩ :=
    run_showEntry_looked { bar with place } field (bar.entryOf request)
  · rw [entryOf] at hrun
    rw [hrun] at hserve
    refine ⟨⟨field, hfield, hserve ▸ hlooked.field_eq⟩, fun i hi => ?_⟩
    rw [hserve] at hi ⊢
    have hhistory : looking.session.history = bar.session.history := hlooked.history_eq
    have hi : place = some i := hi
    have hmove : i = request.move bar.session.history.length bar.cursor := by
      rw [← hmove, hi, Option.getD_some]
    show looking.session.history[i]? = _
    rw [hhistory, entryOf, ← hmove, entryAt, List.getD_eq_getElem _ _ (hlt i hi),
      List.getElem?_eq_getElem (hlt i hi)]
  · rw [entryOf] at hrun
    rw [hrun] at hserve
    refine ⟨⟨field, hfield, hserve ▸ hlooked.field_eq⟩, fun i hi => ?_⟩
    rw [hserve, hlooked.place_eq (ne_lastInput_of_lookEnd hend)] at hi
    cases hi

/-- A look keeps the place of a walk or ends it. -/
theorem Looked.place_eq_some {input : String} (h : Looked bar input bar')
    (hi : bar'.place = some i) : bar.place = some i := by
  cases h with
  | same => exact hi
  | hidden => cases hi
  | evaluated => cases hi

/-- **A request that is no step** ends a walk or leaves it at its place, and the history keeps
its entries in their order, but for one that is dropped. -/
theorem Served.place_eq_some {outcome : Outcome} (h : Served bar request outcome bar')
    (hle : bar.session.history.length ≤ History.capacity) (hrests : request.walks = false)
    (hi : bar'.place = some i) :
    bar.place = some i
      ∧ bar.session.history.drop (bar.session.history.droppedFor bar'.session.history)
        <+: bar'.session.history := by
  have hsame (hhistory : bar'.session.history = bar.session.history) :
      bar.session.history.drop (bar.session.history.droppedFor bar'.session.history)
        <+: bar'.session.history := by
    rw [hhistory, History.drop_droppedFor_self]
  cases h with
  | updated text =>
    have hlooked := looked bar text
    exact ⟨hlooked.place_eq_some hi, hsame hlooked.history_eq⟩
  | @asked _ inner hinner =>
    refine ⟨hi, (Session.served bar.session inner).drop_isPrefix ?_ hle⟩
    exact forgetsHistory_of_session? hinner
  | changed field => exact ⟨hi, hsame rfl⟩
  | cleared => cases hi
  | reset => cases hi
  | rested hwalks => exact absurd (hrests.symm.trans hwalks) Bool.false_ne_true
  | walked hwalks => exact absurd (hrests.symm.trans hwalks) Bool.false_ne_true
  | walkStopped hwalks => exact absurd (hrests.symm.trans hwalks) Bool.false_ne_true
  | lost => cases hrests

/-! ## The step that came to the place -/

theorem Served.settings_eq {outcome : Outcome} (h : Served bar request outcome bar') :
    bar'.settings = bar.settings := by
  cases h with
  | updated text => exact (looked bar text).settings_eq
  | @walked _ field place entry =>
    obtain ⟨looking, hlooked, hshown⟩ := exists_looked_showEntry bar field place entry
    rw [hshown]
    exact hlooked.settings_eq
  | @walkStopped _ field place entry => exact (looked _ _).settings_eq
  | _ => rfl

/-- A bar with a field keeps one. -/
theorem Served.isSome_field {outcome : Outcome} (h : Served bar request outcome bar')
    (hfield : bar.field.isSome = true) : bar'.field.isSome = true := by
  cases h with
  | updated text =>
    rw [(looked bar text).field_eq]
    exact hfield
  | @walked _ field place entry =>
    obtain ⟨looking, hlooked, hshown⟩ := exists_looked_showEntry bar field place entry
    rw [hshown]
    exact Option.isSome_of_mem hlooked.field_eq
  | @walkStopped _ field place entry =>
    exact Option.isSome_of_mem (looked (withEntry { bar with place } field entry) _).field_eq
  | changed field => exact Option.isSome_map.trans hfield
  | _ => exact hfield

/-- A bar whose history can be walked stays one, as long as there is an entry. -/
theorem Served.isSome_walkable? {outcome : Outcome} (h : Served bar request outcome bar')
    (hwalk : bar.walkable?.isSome = true) (hne : bar'.session.history ≠ []) :
    bar'.walkable?.isSome = true := by
  obtain ⟨henabled, hfield, -⟩ := isSome_walkable?_iff.mp hwalk
  exact isSome_walkable?_iff.mpr ⟨h.settings_eq ▸ henabled, h.isSome_field hfield, hne⟩

theorem place_start {settings : Settings} {field : Option Field}
    (hstart : Bar.start settings field = .ok start) : start.place = none := by
  obtain ⟨session, -, rfl⟩ := exists_of_map_eq_ok hstart
  rfl

/-- **Where there is a walk, the history can be walked**, in a bar in use. -/
theorem isSome_walkable?_of_place {settings : Settings} {field : Option Field}
    (hstart : Bar.start settings field = .ok start) (hi : (start.after requests).place = some i) :
    (start.after requests).walkable?.isSome = true := by
  obtain ⟨-, hnew⟩ := isSound_start hstart
  induction requests using List.reverseRecOn generalizing i with
  | nil =>
    have hnone : start.place = some i := hi
    rw [place_start hstart] at hnone
    cases hnone
  | append_singleton requests request ih =>
    have hlt := (hnew.run (requests ++ [request])).place_lt i hi
    rw [after_concat] at hi hlt ⊢
    have hserved := served (start.after requests) request
    refine hserved.isSome_walkable? ?_ (List.ne_nil_of_length_pos (Nat.zero_lt_of_lt hlt))
    cases hwalks : request.walks with
    | false =>
      exact ih (hserved.place_eq_some (hnew.run requests).length_history_le hwalks hi).1
    | true =>
      by_contra hnone
      rw [serve_of_walkable?_eq_none (Option.not_isSome_iff_eq_none.mp hnone) hwalks] at hi
      exact hnone (ih hi)

/-- **Requests that are no steps** leave a walk at its place if they do not end it, and the
history keeps its entries in their order, but for those that are dropped. -/
theorem IsSound.place_eq_some (hnew : IsSound start [] start) {earlier later : List Request}
    (hrests : ∀ request ∈ later, request.walks = false)
    (hi : (start.after (earlier ++ later)).place = some i) :
    (start.after earlier).place = some i
      ∧ (start.after earlier).session.history.drop ((start.after earlier).dropped later)
        <+: (start.after (earlier ++ later)).session.history := by
  induction later using List.reverseRecOn with
  | nil =>
    rw [List.append_nil] at hi ⊢
    exact ⟨hi, List.prefix_rfl⟩
  | append_singleton later request ih =>
    obtain ⟨hlater, hrequest⟩ := List.forall_mem_append.mp hrests
    have hafter (requests : List Request) :
        (start.after earlier).after requests = start.after (earlier ++ requests) :=
      List.foldl_append.symm
    have hserved := served (start.after (earlier ++ later)) request
    rw [← after_concat, List.append_assoc] at hserved
    obtain ⟨hplace, hkeeps⟩ := hserved.place_eq_some (hnew.run (earlier ++ later)).length_history_le
      (hrequest request (List.mem_singleton_self request)) hi
    obtain ⟨hcame, hkept⟩ := ih hlater hplace
    refine ⟨hcame, ?_⟩
    rw [dropped_concat, hafter, hafter, ← List.drop_drop]
    exact (hkept.drop _).trans hkeeps

/-- **A step after which there is a walk shows an entry**, if a walk there was before had a
history to be walked. -/
theorem shows_of_place (hwalks : request.walks = true)
    (hwalk : bar.place.isSome = true → bar.walkable?.isSome = true)
    (hi : (bar.serve request).2.place = some i) : bar.Shows request := by
  refine ⟨hwalks, ?_, ?_⟩
  · by_contra hnone
    rw [serve_of_walkable?_eq_none (Option.not_isSome_iff_eq_none.mp hnone) hwalks] at hi
    exact hnone (hwalk (Option.isSome_of_mem hi))
  · rintro rfl
    by_contra hnone
    rw [serve_forth_of_place_eq_none (Option.not_isSome_iff_eq_none.mp hnone)] at hi
    exact hnone (Option.isSome_of_mem hi)

/-- Requests contain a last step, unless there is none. -/
theorem exists_last_step (requests : List Request) :
    (∀ request ∈ requests, request.walks = false)
      ∨ ∃ earlier step later, requests = earlier ++ step :: later ∧ step.walks = true
        ∧ ∀ request ∈ later, request.walks = false := by
  induction requests using List.reverseRecOn with
  | nil => exact .inl nofun
  | append_singleton requests request ih =>
    cases hwalks : request.walks with
    | true => exact .inr ⟨requests, request, [], rfl, hwalks, nofun⟩
    | false =>
      have hlast : ∀ r ∈ [request], r.walks = false := List.forall_mem_singleton.mpr hwalks
      obtain hnone | ⟨earlier, step, later, rfl, hstep, hrests⟩ := ih
      · exact .inl (List.forall_mem_append.mpr ⟨hnone, hlast⟩)
      · exact .inr ⟨earlier, step, later ++ [request], List.append_assoc _ _ _, hstep,
          List.forall_mem_append.mpr ⟨hrests, hlast⟩⟩

/-- **A walk has been brought to its place** by the last of the steps, which has shown an entry;
and behind it the history keeps its entries in their order, but for those that are dropped. -/
theorem exists_shows_of_place {settings : Settings} {field : Option Field}
    (hstart : Bar.start settings field = .ok start) (hi : (start.after requests).place = some i) :
    ∃ earlier step later, requests = earlier ++ step :: later
      ∧ step.walks = true ∧ (∀ request ∈ later, request.walks = false)
      ∧ (start.after earlier).Shows step
      ∧ (start.after (earlier ++ [step])).place = some i
      ∧ (start.after (earlier ++ [step])).session.history.drop
          ((start.after (earlier ++ [step])).dropped later)
        <+: (start.after requests).session.history := by
  obtain ⟨-, hnew⟩ := isSound_start hstart
  obtain hnone | ⟨earlier, step, later, rfl, hwalks, hrests⟩ := exists_last_step requests
  · -- without a step the walk would have begun before the first request
    have hbegan : (start.after ([] ++ requests)).place = some i := hi
    have hnever : start.place = some i := (hnew.place_eq_some hnone hbegan).1
    rw [place_start hstart] at hnever
    cases hnever
  · rw [List.append_cons] at hi ⊢
    obtain ⟨hcame, hkept⟩ := hnew.place_eq_some hrests hi
    refine ⟨earlier, step, later, (List.append_cons _ _ _).symm, hwalks, hrests, ?_, hcame, hkept⟩
    rw [after_concat] at hcame
    refine shows_of_place hwalks (fun hbefore => ?_) hcame
    obtain ⟨j, hj⟩ := Option.isSome_iff_exists.mp hbefore
    exact isSome_walkable?_of_place hstart hj

/-- **The entry at the place of a walk**, in any bar in use. Some step was the last, and it wrote
an entry into the field. The requests behind it may have dropped entries of the history: if they
dropped none, this is the entry at the place, and otherwise it stands below the place by as many.
The next step writes the neighbour of the place, an older or a newer one. -/
theorem entry_after {settings : Settings} {field : Option Field}
    (hstart : Bar.start settings field = .ok start) (hbar : start.after requests = bar)
    (hplace : bar.place = some i) :
    ∃ earlier step later, requests = earlier ++ step :: later
      ∧ step.walks = true ∧ (∀ request ∈ later, request.walks = false)
      ∧ (start.after earlier).Writes step ((start.after earlier).entryOf step)
      ∧ ((start.after (earlier ++ [step])).dropped later ≤ i →
        bar.session.history[i - (start.after (earlier ++ [step])).dropped later]?
          = some ((start.after earlier).entryOf step))
      ∧ bar.Writes .back (bar.entryAt (i - 1))
      ∧ bar.Writes .forth (bar.entryAt (i + 1)) := by
  obtain ⟨-, hnew⟩ := isSound_start hstart
  subst hbar
  have hlt := (hnew.run requests).place_lt
  obtain ⟨earlier, step, later, hsplit, hwalks, hrests, hshows, hcame, newer, hkept⟩ :=
    exists_shows_of_place hstart hplace
  obtain ⟨hwrites, hentry⟩ := hshows.writes (hnew.run earlier).place_lt
  rw [← after_concat] at hentry
  refine ⟨earlier, step, later, hsplit, hwalks, hrests, hwrites, fun hle => ?_, ?_⟩
  · -- the entry has moved down with all the others
    rw [← hkept, List.getElem?_append_left, List.getElem?_drop, Nat.add_sub_cancel' hle]
    · exact hentry i hcame
    · rw [List.length_drop]
      have hi := (hnew.run (earlier ++ [step])).place_lt i hcame
      omega
  · have hwalk := isSome_walkable?_of_place hstart hplace
    have hback : (start.after requests).Shows .back := ⟨rfl, hwalk, nofun⟩
    have hforth : (start.after requests).Shows .forth :=
      ⟨rfl, hwalk, fun _ => Option.isSome_of_mem hplace⟩
    have hcursor : (start.after requests).cursor = i := by rw [cursor, hplace, Option.getD_some]
    have hwrites := And.intro (hback.writes hlt).1 (hforth.writes hlt).1
    rw [entryOf, entryOf, hcursor, Request.move, Request.move, min_eq_left (hlt i hplace)] at hwrites
    exact hwrites

/-- Fifteen lines, which fill a history. -/
def fifteen : History :=
  ["1", "2", "3", "4", "5", "6", "7", "8", "9", "10", "11", "12", "13", "14", "15"]

/-- The bar after these lines were committed. -/
def filled : Bar :=
  ⟨{}, some (.plain ""), ⟨.working 50, [], fifteen, .finite ⟨false, 15, 0⟩⟩, "", none, none⟩

/-- The bar that shows the newest of them. -/
def atNewest : Bar := { filled with field := some (.plain "15"), lastInput := "15", place := some 14 }

/-- The bar after one more line was committed then. -/
def overfilled : Bar :=
  { atNewest with session := ⟨.working 50, [], fifteen.tail ++ ["16"], .finite ⟨false, 16, 0⟩⟩ }

theorem plain_after_fifteen : plain.after (fifteen.map .calculate) = filled := by cbv

theorem filled_back : (filled.serve .back).2 = atNewest := by cbv

theorem atNewest_calculate : (atNewest.serve (.calculate "16")).2 = overfilled := by cbv

/-- A walk in a history that has dropped an entry goes on from the place, to the entry that was
shown, or out of the history. -/
theorem entry_after_overfilled :
    Bar.start {} (some (.plain "")) = .ok plain
      ∧ plain.after (fifteen.map .calculate ++ [.back, .calculate "16"]) = overfilled
      ∧ overfilled.place = some 14
      ∧ overfilled.Writes .back "15" ∧ overfilled.Writes .forth "" := by
  have hstart : Bar.start {} (some (.plain "")) = .ok plain := start_default _
  have hbar : plain.after (fifteen.map .calculate ++ [.back, .calculate "16"]) = overfilled := by
    rw [List.append_cons, after_concat, after_concat, plain_after_fifteen, filled_back,
      atNewest_calculate]
  obtain ⟨-, -, -, -, -, -, -, -, hback, hforth⟩ := entry_after hstart hbar rfl
  exact ⟨hstart, hbar, rfl, hback, hforth⟩

/-- **A full history drops the oldest entry while the newest is shown.** Then another entry is at
the place of the walk, and the next step back writes the same entry once more. -/
theorem entry_after_full :
    Bar.start {} (some (.plain "")) = .ok plain
      ∧ plain.after (fifteen.map .calculate) = filled
      ∧ filled.Writes .back "15"
      ∧ filled.after [.back, .calculate "16"] = overfilled
      ∧ overfilled.place = some 14 ∧ overfilled.session.history[14]? = some "16"
      ∧ overfilled.Writes .back "15" := by
  have hshown : (filled.serve .back).2.field = some (.plain "15") := by
    rw [filled_back]
    rfl
  have hafter : filled.after [.back, .calculate "16"] = overfilled := by
    rw [← List.singleton_append, after_concat]
    exact (congrArg (fun bar => (serve bar _).2) filled_back).trans atNewest_calculate
  have hagain : (overfilled.serve .back).2.field = some (.plain "15") := by cbv
  exact ⟨start_default _, plain_after_fifteen, ⟨.plain "", rfl, hshown⟩, hafter, rfl, rfl,
    ⟨.plain "15", rfl, hagain⟩⟩

end Search.Bar

end Reckoner
