import Reckoner.Proofs.Search.Machine
import Reckoner.Proofs.Session.Finite

/-!
# A walk through the history moves a cursor

A bar keeps the place of a walk as an index into the history, and no index while there
is no walk. A step looks at the entry it comes to as if it had been typed, which ends
the walk, and then puts the index back. `Bar.cursor` forgets about all of this: it is a
position among the `n` entries and the empty text behind the newest of them, and
`Request.move` takes it one position back or forth, as far as there are any.

`Bar.Moves` says that a step does this and displays the text it comes to. Not every step
does. A look fails if the text is too much for the machine, or if its value is a special
one, which cannot be shown (`Bar.LookFails`); and behind a look that fails the index is
not put back (`Bar.IsStopped`). It does not take much: an entry that was no trouble when
it was committed may be too much a little later, since the last answer is another one
(`Bar.cursor_lost`).

`Bar.cursor_after` collects what holds of a bar in use, on every machine. If no special
value was handed in, every walk is carried out step by step on a machine that is large
enough (`Bar.exists_succeeds`).
-/

namespace Reckoner

/-! ## Sessions of numbers in use -/

namespace Session

/-- **A request that hands in no special value.** -/
def Request.HandsInNumbers : Request → Prop
  | .setVariable _ (.decimal x) => x.IsFinite
  | _ => True

/-- **A session of numbers stays one**, as long as no special value is handed in. -/
theorem Served.isFinite {s s' : Session} {request : Request} {outcome : Outcome}
    (hserved : Served s request outcome s') (h : s.IsFinite)
    (hnumbers : request.HandsInNumbers) : s'.IsFinite := by
  cases hserved with
  | refused => exact h
  | quiet hx => exact ⟨isFinite_of_compute h hx, h.bindings⟩
  | committed hx => exact ⟨isFinite_of_compute h hx, h.bindings⟩
  | recorded => exact ⟨h.answer, h.bindings⟩
  | assignedLine hx =>
    have hfinite := isFinite_of_compute h hx
    exact IsFinite.assign ⟨hfinite, h.bindings⟩ hfinite
  | assignedDecimal name x => exact h.assign hnumbers
  | assignedInteger name n => exact h.assign (.finite _)
  | cleared => exact ⟨h.answer, h.bindings⟩
  | reset => exact isFinite_empty _

end Session

namespace Search

/-- **A request that hands in no special value.** -/
def Request.HandsInNumbers (request : Request) : Prop :=
  ∀ inner ∈ request.session?, inner.HandsInNumbers

/-- **Where a step takes a cursor** that stands at one of `n` entries, or at `n` behind
them. -/
def Request.move (n : ℕ) : Request → ℕ → ℕ
  | .back, c => c - 1
  | .forth, c => min (c + 1) n
  | _, c => c

instance : ∀ request : Request, Decidable (request = .forth)
  | .forth => isTrue rfl
  | .update _ | .calculate _ | .setVariable _ _ | .back | .clearHistory | .reset
  | .changeField _ => isFalse Request.noConfusion

namespace Bar

variable {bar bar' : Bar} {request : Request} {outcome : Outcome} {input entry : String}
  {machine : Machine} {field : Field} {place : Option ℕ}

/-! ## What a look leaves as it was -/

theorem Looked.settings_eq (h : Looked bar input bar') : bar'.settings = bar.settings := by
  cases h <;> rfl

theorem Looked.field_eq (h : Looked bar input bar') : bar'.field = bar.field := by
  cases h <;> rfl

/-- What was looked at is the last input. -/
theorem Looked.lastInput_eq (h : Looked bar input bar') : bar'.lastInput = input := by
  cases h with
  | same hsame => exact hsame.symm
  | hidden => rfl
  | evaluated => rfl

theorem Looked.isFinite (h : Looked bar input bar') (hfinite : bar.session.IsFinite) :
    bar'.session.IsFinite := by
  cases h with
  | same => exact hfinite
  | hidden => exact hfinite
  | evaluated _ _ hx => exact ⟨Session.isFinite_of_compute hfinite hx, hfinite.bindings⟩

/-- **The session of a bar stays one of numbers**, as long as no special value is handed
in. -/
theorem Served.isFinite (h : Served bar request outcome bar') (hfinite : bar.session.IsFinite)
    (hnumbers : request.HandsInNumbers) : bar'.session.IsFinite := by
  cases h with
  | updated text => exact (looked bar text).isFinite hfinite
  | asked hinner => exact (Session.served _ _).isFinite hfinite (hnumbers _ hinner)
  | @walked _ field place entry =>
    obtain ⟨looking, hlooked, hshown⟩ := exists_looked_showEntry bar field place entry
    rw [hshown]
    exact hlooked.isFinite hfinite
  | @walkStopped _ field place entry =>
    have hlooked := looked (withEntry { bar with place } field entry)
      (some (field.write entry).text)
    exact hlooked.isFinite hfinite
  | cleared => exact ⟨hfinite.answer, hfinite.bindings⟩
  | _ => exact hfinite

theorem isFinite_after (h : bar.session.IsFinite) {requests : List Request}
    (hnumbers : ∀ request ∈ requests, request.HandsInNumbers) :
    (bar.after requests).session.IsFinite := by
  induction requests generalizing bar with
  | nil => exact h
  | cons request requests ih =>
    obtain ⟨hfirst, hlater⟩ := List.forall_mem_cons.mp hnumbers
    exact ih ((served bar request).isFinite h hfirst) hlater

/-! ## The cursor -/

/-- **The position of a walk**: a place of the history, or the end behind the newest
entry while there is no walk. -/
def cursor (bar : Bar) : ℕ := bar.place.getD bar.session.history.length

/-- **The text at a position**: an entry, or the empty text at the end. -/
def entryAt (bar : Bar) (position : ℕ) : String := bar.session.history.getD position ""

/-- **The history can be walked**: this is enabled, there is a field, which stores what
it is given, and there is an entry. -/
structure CanWalk (bar : Bar) : Prop where
  enabled : bar.settings.enableHistoryNavigation = true
  exists_field : ∃ field, bar.field = some field ∧ ∀ text, field.accept text = text
  ne_nil : bar.session.history ≠ []

/-- **A text is displayed**: it stands in the field, and its cleaned form is the last
input. -/
def Displays (bar : Bar) (text : String) : Prop :=
  (∃ field, bar.field = some field ∧ field.text = text)
    ∧ bar.lastInput = cleaned (some text)

/-- **A step fails** on a machine: the look at the text it comes to fails. From the end there is no
step forth, and so nothing to fail. -/
def StepFails (bar : Bar) (machine : Machine) (request : Request) : Prop :=
  ¬ (request = .forth ∧ bar.cursor = bar.session.history.length)
    ∧ bar.LookFails machine
      (cleaned (some (bar.entryAt (request.move bar.session.history.length bar.cursor))))

instance : Decidable (bar.StepFails machine request) := inferInstanceAs (Decidable (_ ∧ _))

/-- **No step of a walk fails** on a machine. -/
def Succeeds (machine : Machine) : Bar → List Request → Prop
  | _, [] => True
  | bar, request :: walk =>
    ¬ bar.StepFails machine request ∧ Succeeds machine (bar.serveOn machine request).2 walk

instance decidableSucceeds (machine : Machine) :
    ∀ bar walk, Decidable (Succeeds machine bar walk)
  | _, [] => inferInstanceAs (Decidable True)
  | bar, request :: walk =>
    have := decidableSucceeds machine (bar.serveOn machine request).2 walk
    inferInstanceAs (Decidable (_ ∧ _))

/-- **A step moves the cursor** and displays the text it comes to. From the end there is
no step forth, and nothing is changed. -/
structure Moves (bar : Bar) (machine : Machine) (request : Request) : Prop where
  rests : request = .forth → bar.cursor = bar.session.history.length →
    bar.serveOn machine request = (some (.ok .nothing), bar)
  goes : ¬ (request = .forth ∧ bar.cursor = bar.session.history.length) →
    (bar.serveOn machine request).1 = some (.ok .nothing)
      ∧ (bar.serveOn machine request).2.cursor
        = request.move bar.session.history.length bar.cursor
      ∧ (bar.serveOn machine request).2.Displays
        (bar.entryAt (request.move bar.session.history.length bar.cursor))

/-- **A step is stopped** or cut short at a text. The text is displayed all the same, and the walk
is over. -/
structure IsStopped (bar : Bar) (machine : Machine) (request : Request) : Prop where
  outcome_eq : (bar.serveOn machine request).1 = none
    ∨ (bar.serveOn machine request).1 = some (.error .noText)
  cursor_eq : (bar.serveOn machine request).2.cursor = bar.session.history.length
  displays : (bar.serveOn machine request).2.Displays
    (bar.entryAt (request.move bar.session.history.length bar.cursor))

/-! ## Where a step leads -/

/-- Where the history cannot be walked, nothing is walkable. -/
theorem walkable?_eq_none (h : bar.settings.enableHistoryNavigation = false ∨ bar.field = none
    ∨ bar.session.history = []) : bar.walkable? = none := by
  rw [walkable?]
  split
  · next field hfield =>
    refine if_neg fun hwalks => ?_
    rw [Bool.and_eq_true, Bool.not_eq_true', List.isEmpty_eq_false_iff] at hwalks
    obtain h | h | h := h
    · rw [h] at hwalks
      exact Bool.false_ne_true hwalks.1
    · rw [h] at hfield
      cases hfield
    · exact hwalks.2 h
  · rfl

theorem step?_of_walkable?_eq_none (h : bar.walkable? = none) (request : Request) :
    bar.step? request = none := by
  unfold step?
  rw [h]
  cases request <;> rfl

theorem step?_forth_of_place_eq_none (h : bar.place = none) : bar.step? .forth = none := by
  unfold step?
  rw [h]
  cases bar.walkable? <;> rfl

/-- **Where nothing is walkable a step changes nothing.** -/
theorem serve_of_walkable?_eq_none (h : bar.walkable? = none) (hwalks : request.walks = true) :
    bar.serve request = (.ok .nothing, bar) := by
  cases request with
  | back =>
    rw [serve, Request.steps, run_nothing, Steps.back, run_get_bind, h]
    rfl
  | forth =>
    rw [serve, Request.steps, run_nothing, Steps.forth, run_get_bind, h]
    rfl
  | _ => cases hwalks

/-- **Without a walk there is no step forth.** -/
theorem serve_forth_of_place_eq_none (h : bar.place = none) :
    bar.serve .forth = (.ok .nothing, bar) := by
  rw [serve, Request.steps, run_nothing, Steps.forth, run_get_bind, h]
  cases bar.walkable? <;> rfl

/-- **A step that moves the cursor leads to the entry it comes to**, and shows it with the place of
the new cursor put in beforehand. -/
theorem exists_run_showEntry {history : History}
    (hwalk : bar.walkable? = some (field, history))
    (hplace : ∀ i ∈ bar.place, i < bar.session.history.length) (hwalks : request.walks = true)
    (hgoes : ¬ (request = .forth ∧ bar.cursor = bar.session.history.length)) :
    ∃ place : Option ℕ, (∀ i ∈ place, i < bar.session.history.length)
      ∧ place.getD bar.session.history.length
        = request.move bar.session.history.length bar.cursor
      ∧ bar.step? request = some (field, place,
          bar.entryAt (request.move bar.session.history.length bar.cursor))
      ∧ bar.serve request
        = (((Steps.showEntry field (bar.entryAt (request.move bar.session.history.length
              bar.cursor))).run.run { bar with place }).1.map fun _ => .nothing,
            ((Steps.showEntry field (bar.entryAt (request.move bar.session.history.length
              bar.cursor))).run.run { bar with place }).2) := by
  obtain ⟨rfl, hne⟩ := of_walkable?_eq_some hwalk
  unfold step?
  rw [hwalk]
  have hpos : 0 < bar.session.history.length := List.length_pos_iff.mpr hne
  have hentry (i : ℕ) (hi : i < bar.session.history.length) :
      bar.session.history[i]? = some (bar.entryAt i) := by
    rw [entryAt, List.getD_eq_getElem _ _ hi, List.getElem?_eq_getElem hi]
  cases request with
  | back =>
    rw [serve, Request.steps, run_nothing, Steps.back, run_get_bind, hwalk, cursor]
    cases hi : bar.place with
    | none =>
      refine ⟨some (bar.session.history.length - 1), ?_, rfl, ?_⟩
      · rintro _ ⟨⟩
        omega
      dsimp only
      rw [run_walkTo, hentry _ (by omega)]
      exact ⟨rfl, rfl⟩
    | some i =>
      have hlt := hplace i hi
      refine ⟨some (i - 1), ?_, rfl, ?_⟩
      · rintro _ ⟨⟩
        omega
      dsimp only
      rw [run_walkTo, hentry _ (by omega)]
      exact ⟨rfl, rfl⟩
  | forth =>
    rw [serve, Request.steps, run_nothing, Steps.forth, run_get_bind, hwalk]
    cases hi : bar.place with
    | none =>
      refine absurd ⟨rfl, ?_⟩ hgoes
      rw [cursor, hi]
      rfl
    | some i =>
      have hlt := hplace i hi
      rw [cursor, hi]
      dsimp only [Option.getD_some, Request.move]
      by_cases hnext : i + 1 < bar.session.history.length
      · refine ⟨some (i + 1), ?_, (min_eq_left hnext.le).symm, ?_⟩
        · rintro _ ⟨⟩
          exact hnext
        rw [if_pos hnext, if_pos hnext, run_walkTo, hentry _ hnext, min_eq_left hnext.le]
        exact ⟨rfl, rfl⟩
      · have hend : min (i + 1) bar.session.history.length = bar.session.history.length :=
          min_eq_right (by omega)
        have hempty : bar.entryAt bar.session.history.length = "" :=
          List.getD_eq_default _ _ le_rfl
        refine ⟨none, ?_, hend.symm, ?_⟩
        · rintro _ ⟨⟩
        rw [if_neg hnext, if_neg hnext, run_walkOut, hend, hempty]
        exact ⟨rfl, rfl⟩
  | _ => cases hwalks

namespace CanWalk

/-- A bar with the same settings, field and history can be walked as well. -/
theorem of_eq (h : bar.CanWalk) (hsettings : bar'.settings = bar.settings)
    (hfield : ∃ field, bar'.field = some field ∧ ∀ text, field.accept text = text)
    (hhistory : bar'.session.history = bar.session.history) : bar'.CanWalk :=
  ⟨hsettings ▸ h.enabled, hfield, hhistory ▸ h.ne_nil⟩

theorem walkable?_eq (h : bar.CanWalk) (hfield : bar.field = some field) :
    bar.walkable? = some (field, bar.session.history) := by
  rw [walkable?, hfield]
  refine if_pos ?_
  rw [h.enabled, Bool.true_and, Bool.not_eq_true', List.isEmpty_eq_false_iff]
  exact h.ne_nil

end CanWalk

/-! ## One step -/

/-- A look that is stopped is one at a new text. -/
theorem ne_lastInput_of_lookEnd {stop : Stop} (h : bar.lookEnd input = .error stop) :
    input ≠ bar.lastInput := by
  rw [lookEnd] at h
  split at h
  · next hnew => exact hnew.1
  · cases h

/-- Looking at a new text ends a walk. -/
theorem Looked.place_eq (h : Looked bar input bar') (hnew : input ≠ bar.lastInput) :
    bar'.place = none := by
  cases h with
  | same hsame => exact absurd hsame hnew
  | hidden => rfl
  | evaluated => rfl

/-- An entry that was written into a field which stores what it is given, and then looked
at, is displayed. -/
theorem Looked.displays (haccept : ∀ text, field.accept text = text)
    (h : Looked (bar.withEntry field entry) (cleaned (some (field.write entry).text)) bar') :
    bar'.Displays entry := by
  have htext : (field.write entry).text = entry := haccept entry
  refine ⟨⟨field.write entry, h.field_eq, htext⟩, ?_⟩
  rw [h.lastInput_eq, htext]

/-- **An entry is shown** by looking at what the field has made of it. The place is put back
unless the look is stopped. -/
theorem run_showEntry_looked (bar : Bar) (field : Field) (entry : String) :
    ∃ looking, Looked (bar.withEntry field entry) (cleaned (some (field.write entry).text)) looking
      ∧ ((Steps.showEntry field entry).run.run bar = (.ok (), { looking with place := bar.place })
          ∧ (bar.withEntry field entry).lookEnd (cleaned (some (field.write entry).text)) = .ok ()
        ∨ (Steps.showEntry field entry).run.run bar = (.error .noText, looking)
          ∧ (bar.withEntry field entry).lookEnd (cleaned (some (field.write entry).text))
            = .error .noText) := by
  have hlooked := looked (bar.withEntry field entry) (some (field.write entry).text)
  rw [run_showEntry, showEntry]
  change Looked (bar.withEntry field entry) _
    (update { bar with field := some (field.write entry) } _) at hlooked
  rw [withEntry] at hlooked ⊢
  generalize update { bar with field := some (field.write entry) }
    (some (field.write entry).text) = looking at hlooked ⊢
  refine ⟨looking, hlooked, ?_⟩
  cases hend : lookEnd { bar with field := some (field.write entry) }
      (cleaned (some (field.write entry).text)) with
  | ok _ => exact .inl ⟨rfl, rfl⟩
  | error stop =>
    obtain rfl := lookEnd_eq_error hend
    exact .inr ⟨rfl, rfl⟩

/-- **A step displays the entry it leads to**, in a field that stores what it is given. It comes to
the place there, unless the look at the entry fails. -/
theorem exists_serveOn_eq (haccept : ∀ text, field.accept text = text)
    (hwalks : request.walks = true) (hstep : bar.step? request = some (field, place, entry))
    (hserve : bar.serve request
      = (((Steps.showEntry field entry).run.run { bar with place }).1.map fun _ => .nothing,
          ((Steps.showEntry field entry).run.run { bar with place }).2)) (machine : Machine) :
    ∃ bar', bar'.Displays entry ∧ bar'.settings = bar.settings
      ∧ bar'.field = some (field.write entry) ∧ bar'.session.history = bar.session.history
      ∧ (¬ bar.LookFails machine (cleaned (some entry))
          ∧ bar.serveOn machine request = (some (.ok .nothing), bar') ∧ bar'.place = place
        ∨ bar.LookFails machine (cleaned (some entry))
          ∧ (bar.serveOn machine request = (none, bar')
            ∨ bar.serveOn machine request = (some (.error .noText), bar'))
          ∧ bar'.place = none) := by
  have htext : (field.write entry).text = entry := haccept entry
  have hshort := short?_of_step? hstep hwalks machine
  rw [← lookFails_withEntry bar field place entry, lookFails_iff]
  cases hlook : (withEntry { bar with place } field entry).lookShortage? machine
      (cleaned (some (field.write entry).text)) with
  | some shortage =>
    obtain ⟨answer, hleft⟩ := exists_leftByLook_eq (withEntry { bar with place } field entry)
      (cleaned (some (field.write entry).text)) shortage
    rw [hlook, Option.map_some, hleft] at hshort
    rw [htext] at hlook
    refine ⟨_, ?_, ?_, ?_, ?_, .inr ⟨.inl ?_, .inl (serveOn_of_short?_eq_some hshort), ?_⟩⟩
    · exact ⟨⟨field.write entry, rfl, htext⟩, congrArg (cleaned <| some ·) htext⟩
    · rfl
    · rfl
    · rfl
    · rw [hlook]
      rfl
    · rfl
  | none =>
    rw [hlook, Option.map_none] at hshort
    have hserveOn := serveOn_of_short?_eq_none hshort
    obtain ⟨looking, hlooked, ⟨hrun, hend⟩ | ⟨hrun, hend⟩⟩ :=
      run_showEntry_looked { bar with place } field entry
    · have hdisplays : looking.Displays entry := hlooked.displays haccept
      rw [hserve, hrun] at hserveOn
      rw [htext] at hlook hend
      refine ⟨{ looking with place }, hdisplays, hlooked.settings_eq, hlooked.field_eq,
        hlooked.history_eq, .inl ⟨?_, hserveOn, rfl⟩⟩
      rw [hlook, hend]
      rintro (h | h)
      · cases h
      · cases h
    · have hplace := hlooked.place_eq (ne_lastInput_of_lookEnd hend)
      rw [hserve, hrun] at hserveOn
      rw [htext] at hend
      exact ⟨looking, hlooked.displays haccept, hlooked.settings_eq, hlooked.field_eq,
        hlooked.history_eq, .inr ⟨.inr hend, .inr hserveOn, hplace⟩⟩

/-- **A step leaves a bar that can be walked**, with the same history. It moves the cursor unless
it fails, and is stopped if it does. -/
theorem CanWalk.step (h : bar.CanWalk)
    (hplace : ∀ i ∈ bar.place, i < bar.session.history.length) (hwalks : request.walks = true)
    (machine : Machine) :
    (bar.serveOn machine request).2.CanWalk
      ∧ (bar.serveOn machine request).2.session.history = bar.session.history
      ∧ (¬ bar.StepFails machine request ∧ bar.Moves machine request
        ∨ bar.StepFails machine request ∧ bar.IsStopped machine request) := by
  by_cases hend : request = .forth ∧ bar.cursor = bar.session.history.length
  · have hrest : bar.serveOn machine request = (some (.ok .nothing), bar) := by
      obtain ⟨rfl, hcursor⟩ := hend
      have hnone : bar.place = none := by
        refine Option.eq_none_iff_forall_not_mem.mpr fun i hi => ?_
        have hlt := hplace i hi
        rw [cursor, Option.mem_def.mp hi] at hcursor
        exact hlt.ne hcursor
      exact serveOn_of_step?_eq_none (step?_forth_of_place_eq_none hnone) rfl
        (serve_forth_of_place_eq_none hnone) machine
    rw [hrest]
    exact ⟨h, rfl, .inl ⟨fun hfails => hfails.1 hend, fun _ _ => hrest,
      fun hgoes => absurd hend hgoes⟩⟩
  · obtain ⟨field, hfield, haccept⟩ := h.exists_field
    obtain ⟨place, hlt, hmove, hstep, hserve⟩ :=
      exists_run_showEntry (h.walkable?_eq hfield) hplace hwalks hend
    obtain ⟨bar', hdisplays, hsettings, hfield', hhistory,
      ⟨hlooks, hon, hplace'⟩ | ⟨hfails, hon, hplace'⟩⟩ :=
        exists_serveOn_eq haccept hwalks hstep hserve machine
    · rw [hon]
      refine ⟨h.of_eq hsettings ⟨_, hfield', haccept⟩ hhistory, hhistory,
        .inl ⟨fun hfails => hlooks hfails.2, fun hforth hcursor => absurd ⟨hforth, hcursor⟩ hend,
          fun _ => ?_⟩⟩
      rw [hon, cursor, hplace', hhistory]
      exact ⟨rfl, hmove, hdisplays⟩
    · have hbar : (bar.serveOn machine request).2 = bar' := by
        obtain hon | hon := hon
        · rw [hon]
        · rw [hon]
      rw [hbar]
      refine ⟨h.of_eq hsettings ⟨_, hfield', haccept⟩ hhistory, hhistory,
        .inr ⟨⟨hend, hfails⟩, hon.imp (congrArg Prod.fst) (congrArg Prod.fst), ?_, ?_⟩⟩
      · rw [hbar, cursor, hplace', hhistory, Option.getD_none]
      · rw [hbar]
        exact hdisplays

/-- A step that does not fail moves the cursor. -/
theorem CanWalk.moves (h : bar.CanWalk) (hplaced : bar.IsPlaced) (hwalks : request.walks = true)
    (hstep : ¬ bar.StepFails machine request) : bar.Moves machine request := by
  obtain ⟨-, -, ⟨-, hmoves⟩ | ⟨hfails, -⟩⟩ := h.step hplaced.place_lt hwalks machine
  · exact hmoves
  · exact absurd hfails hstep

/-! ## A walk -/

/-- **A bar keeps a position** of a history that can be walked. -/
structure Keeps (bar : Bar) (history : History) (position : ℕ) : Prop extends IsPlaced bar where
  canWalk : bar.CanWalk
  history_eq : bar.session.history = history
  cursor_eq : bar.cursor = position

/-- **A step of a walk** that does not fail comes to the position the cursor is moved to. -/
theorem Keeps.step {history : History} {position : ℕ} (h : bar.Keeps history position)
    (hwalks : request.walks = true) (hstep : ¬ bar.StepFails machine request) :
    (bar.serveOn machine request).2.Keeps history (request.move history.length position) := by
  obtain ⟨hplaced, hcan, rfl, rfl⟩ := h
  obtain ⟨hcan', hhistory, -⟩ := hcan.step hplaced.place_lt hwalks machine
  have hmoves := hcan.moves hplaced hwalks hstep
  refine ⟨hplaced.serveOn machine request, hcan', hhistory, ?_⟩
  by_cases hend : request = .forth ∧ bar.cursor = bar.session.history.length
  · obtain ⟨rfl, hcursor⟩ := hend
    rw [hmoves.rests rfl hcursor, Request.move, hcursor, min_eq_right (Nat.le_succ _)]
  · exact (hmoves.goes hend).2.1

/-- **A walk** moves the cursor step by step, as long as no step fails. -/
theorem Keeps.walk {history : History} {position : ℕ} (h : bar.Keeps history position)
    {walk : List Request} (hwalk : ∀ request ∈ walk, request.walks = true)
    (hsucceeds : Succeeds machine bar walk) :
    (bar.afterOn machine walk).Keeps history
      (walk.foldl (fun c request => request.move history.length c) position) := by
  induction walk generalizing bar position with
  | nil => exact h
  | cons request walk ih =>
    obtain ⟨hfirst, hlater⟩ := List.forall_mem_cons.mp hwalk
    obtain ⟨hstep, hrest⟩ := hsucceeds
    exact ih (h.step hfirst hstep) hlater hrest

/-- A step hands in no value at all. -/
theorem handsInNumbers_of_walks (hwalks : request.walks = true) : request.HandsInNumbers := by
  cases request with
  | back => exact nofun
  | forth => exact nofun
  | _ => cases hwalks

/-- **A walk in a session of numbers succeeds** on a machine that is large enough. -/
theorem exists_succeeds (hfinite : bar.session.IsFinite) {walk : List Request}
    (hwalk : ∀ request ∈ walk, request.walks = true) :
    ∃ size, ∀ machine : Machine, machine.HasSize size → Succeeds machine bar walk := by
  induction walk generalizing bar with
  | nil => exact ⟨0, fun _ _ => trivial⟩
  | cons request walk ih =>
    obtain ⟨hfirst, hlater⟩ := List.forall_mem_cons.mp hwalk
    have hfinite' := (served bar request).isFinite hfinite (handsInNumbers_of_walks hfirst)
    obtain ⟨n, hn⟩ := bar.exists_short?_eq_none request
    obtain ⟨m, hm⟩ := bar.session.exists_shortage?_eq_none
      (cleaned (some (bar.entryAt (request.move bar.session.history.length bar.cursor))))
    obtain ⟨l, hl⟩ := ih hfinite' hlater
    refine ⟨max n (max m l), fun machine hsize => ⟨?_, ?_⟩⟩
    · rintro ⟨-, -, hshort | ⟨x, hx, hspecial⟩⟩
      · rw [hm machine (hsize.mono (by omega))] at hshort
        cases hshort
      · exact hspecial (Session.isFinite_of_compute hfinite hx)
    · rw [serveOn_of_short?_eq_none (hn machine (hsize.mono (by omega)))]
      exact hl machine (hsize.mono (by omega))

/-- The index of a walk is its position, or `-1` at the end. -/
theorem index_eq (hplace : ∀ i ∈ bar.place, i < bar.session.history.length) :
    bar.cursor ≤ bar.session.history.length
      ∧ bar.index = if bar.cursor = bar.session.history.length then -1 else (bar.cursor : ℤ) := by
  rw [cursor, index]
  cases hi : bar.place with
  | none => exact ⟨le_rfl, (if_pos rfl).symm⟩
  | some i =>
    have hlt := hplace i hi
    exact ⟨hlt.le, (if_neg hlt.ne).symm⟩

/-- **A walk through the history moves a cursor**, from any bar that is in use, on any machine.

The cursor stands at an entry or behind the newest of them, where the index is `-1`. If
navigation is not enabled, or there is no field or no entry, a step changes nothing. If
there is a field which stores what it is given, a step moves the cursor and displays the
text it comes to, unless the look at this text fails; then the text is displayed, but the
walk is over. After a walk no step of which fails, the cursor is where the steps have
moved it, and the walk can go on.

Whether a step fails depends on the machine, and on special values that were handed in.
If there were none, no step of a walk fails on a machine that is large enough, and this
machine also carries out all requests before the walk. -/
theorem cursor_after {settings : Settings} {field : Option Field} {start : Bar}
    (hstart : Bar.start settings field = .ok start) (requests : List Request) :
    (∀ (machine : Machine) (bar : Bar), start.afterOn machine requests = bar →
      (bar.cursor ≤ bar.session.history.length
          ∧ bar.index = if bar.cursor = bar.session.history.length then -1 else (bar.cursor : ℤ))
        ∧ (bar.settings.enableHistoryNavigation = false ∨ bar.field = none
            ∨ bar.session.history = [] →
          ∀ request, request.walks = true →
            bar.serveOn machine request = (some (.ok .nothing), bar))
        ∧ (bar.CanWalk → ∀ request, request.walks = true →
          (bar.serveOn machine request).2.session.history = bar.session.history
            ∧ (bar.StepFails machine request → bar.IsStopped machine request)
            ∧ (¬ bar.StepFails machine request → bar.Moves machine request))
        ∧ (bar.CanWalk → ∀ walk, (∀ request ∈ walk, request.walks = true) →
          Succeeds machine bar walk →
            (bar.afterOn machine walk).session.history = bar.session.history
              ∧ (bar.afterOn machine walk).cursor
                = walk.foldl (fun c request => request.move bar.session.history.length c)
                    bar.cursor
              ∧ ∀ request, request.walks = true →
                ¬ (bar.afterOn machine walk).StepFails machine request →
                  (bar.afterOn machine walk).Moves machine request))
      ∧ ((∀ request ∈ requests, request.HandsInNumbers) →
        ∀ walk, (∀ request ∈ walk, request.walks = true) →
          ∃ size, ∀ machine : Machine, machine.HasSize size →
            start.afterOn machine requests = start.after requests
              ∧ Succeeds machine (start.after requests) walk) := by
  obtain ⟨-, hnew⟩ := isSound_start hstart
  refine ⟨?_, fun hnumbers walk hwalk => ?_⟩
  · rintro machine bar rfl
    have hplaced := isPlaced_afterOn hnew.toIsPlaced machine requests
    refine ⟨index_eq hplaced.place_lt, fun hcannot request hwalks => ?_,
      fun hcan request hwalks => ?_, fun hcan walk hwalk hsucceeds => ?_⟩
    · have hnone := walkable?_eq_none hcannot
      exact serveOn_of_step?_eq_none (step?_of_walkable?_eq_none hnone request) hwalks
        (serve_of_walkable?_eq_none hnone hwalks) machine
    · obtain ⟨-, hhistory, ⟨hgoes, hmoves⟩ | ⟨hfails, hstopped⟩⟩ :=
        hcan.step hplaced.place_lt hwalks machine
      · exact ⟨hhistory, fun hfails => absurd hfails hgoes, fun _ => hmoves⟩
      · exact ⟨hhistory, fun _ => hstopped, fun hgoes => absurd hfails hgoes⟩
    · have hkeeps : Keeps _ _ _ := ⟨hplaced, hcan, rfl, rfl⟩
      have hwalked := hkeeps.walk hwalk hsucceeds
      exact ⟨hwalked.history_eq, hwalked.cursor_eq, fun request hwalks =>
        hwalked.canWalk.moves hwalked.toIsPlaced hwalks⟩
  · have hempty : start.session.IsFinite := by
      obtain ⟨session, hsession, rfl⟩ := exists_of_map_eq_ok hstart
      obtain ⟨context, -, rfl⟩ := exists_of_map_eq_ok hsession
      exact Session.isFinite_empty context
    obtain ⟨n, hn⟩ := start.exists_afterOn_eq requests
    obtain ⟨m, hm⟩ := exists_succeeds (isFinite_after hempty hnumbers) hwalk
    exact ⟨max n m, fun machine hsize => ⟨hn machine (hsize.mono (le_max_left n m)),
      hm machine (hsize.mono (le_max_right n m))⟩⟩

/-- A new bar with a plain field. -/
def plain : Bar := ⟨{}, some (.plain ""), .empty (.working 50), "", none, none⟩

/-- The bar after a line was committed. -/
def plainCommitted : Bar :=
  ⟨{}, some (.plain ""), ⟨.working 50, [], ["+-57"], .finite ⟨true, 57, 0⟩⟩, "", none, none⟩

theorem plain_after_calculate : plain.after [.calculate "+-57"] = plainCommitted := by cbv

/-- Two steps back come to the oldest entry, from where a step forth comes to the end. -/
theorem cursor_after_back_back :
    Bar.start {} (some (.plain "")) = .ok plain
      ∧ plain.afterOn .usual [.calculate "+-57"] = plainCommitted
      ∧ plainCommitted.CanWalk
      ∧ (plainCommitted.afterOn .usual [.back, .back]).cursor = 0
      ∧ (plainCommitted.afterOn .usual [.back, .back]).Moves .usual .forth
      ∧ ∃ size, ∀ machine : Machine, machine.HasSize size →
        Succeeds machine plainCommitted [.back, .back, .forth] := by
  have hstart : Bar.start {} (some (.plain "")) = .ok plain := start_default _
  have hshort : plain.short? .usual (.calculate "+-57") = none :=
    Option.isNone_iff_eq_none.mp (by decide +kernel)
  have hbar : plain.afterOn .usual [.calculate "+-57"] = plainCommitted := by
    rw [afterOn_cons hshort]
    exact plain_after_calculate
  have hcan : plainCommitted.CanWalk :=
    ⟨rfl, ⟨.plain "", rfl, fun _ => rfl⟩, List.cons_ne_nil _ _⟩
  have hnumbers : ∀ request ∈ [Request.calculate "+-57"], request.HandsInNumbers := by
    rintro _ (_ | ⟨_, ⟨⟩⟩) _ ⟨⟩
    trivial
  obtain ⟨hmachine, hlarge⟩ := cursor_after hstart [.calculate "+-57"]
  obtain ⟨-, -, -, hwalk⟩ := hmachine .usual plainCommitted hbar
  obtain ⟨-, hcursor, hmoves⟩ := hwalk hcan [.back, .back] (by decide) (by decide +kernel)
  obtain ⟨size, hsize⟩ := hlarge hnumbers [.back, .back, .forth] (by decide)
  rw [plain_after_calculate] at hsize
  exact ⟨hstart, hbar, hcan, hcursor, hmoves .forth rfl (by decide +kernel), size,
    fun machine h => (hsize machine h).2⟩

/-- A text whose value has so many places behind the point that nothing can be added to it. -/
def minute : String := "(((((.1^100)^1000)^1000)^1000)^1000)^1000"

/-- The bar after `ans+1` was committed. -/
def plainOne : Bar :=
  ⟨{}, some (.plain ""), ⟨.working 50, [], ["ans+1"], .finite ⟨false, 1, 0⟩⟩, "", none, none⟩

/-- The bar after a minute value was looked at. -/
def plainMinute : Bar :=
  ⟨{}, some (.plain ""), ⟨.working 50, [], ["ans+1"], .finite ⟨false, 1, -10 ^ 17⟩⟩, minute,
    some "0", none⟩

/-- The bar after an infinite variable was committed. -/
def plainInfinite : Bar :=
  ⟨{}, some (.plain ""), ⟨.working 50, [("x", .infinite false)], ["$x"], .infinite false⟩, "",
    none, none⟩

theorem plain_calculate : plain.serve (.calculate "ans+1")
    = (.ok (.value (.finite ⟨false, 1, 0⟩)), plainOne) := by
  have hvalue : plain.session.evaluate (some (cleaned (some "ans+1")))
      = .ok (.finite ⟨false, 1, 0⟩, plainOne.session) := by decide +kernel
  rw [serve_calculate, calculate, hvalue]
  rfl

theorem plainOne_update : plainOne.serve (.update (some minute))
    = (.ok (.text minute), plainMinute) := by
  have hclean : cleaned (some minute) = minute := by decide +kernel
  have hnew : cleaned (some minute) ≠ plainOne.lastInput := by decide +kernel
  have hshows : plainOne.showsResultFor (cleaned (some minute)) = true := by decide +kernel
  have hvalue : plainOne.session.compute (some (cleaned (some minute)))
      = .ok (.finite ⟨false, 1, -10 ^ 17⟩) := by decide +kernel
  have htext : (Decimal.finite ⟨false, 1, -10 ^ 17⟩).grouped?
      plainOne.settings.enableCommaFormatting = some "0" := by decide +kernel
  have hend : plainOne.lookEnd minute = .ok () := by decide +kernel
  rw [serve_update, update_of_compute hnew hshows hvalue, hclean, hend, htext]
  rfl

/-- **A step back from the end stays at the end** if the look at its entry fails, and the cursor
is not at `0`. The entry `ans+1` has a value as long as the last answer is not minute, and an
infinite value has no text. -/
theorem cursor_lost :
    Bar.start {} (some (.plain "")) = .ok plain
      ∧ (plain.afterOn .usual [.calculate "ans+1", .update (some minute)] = plainMinute
        ∧ plainMinute.CanWalk ∧ plainMinute.cursor = 1
        ∧ (plainMinute.serveOn .usual .back).1 = none
        ∧ (plainMinute.serveOn .usual .back).2.cursor = 1)
      ∧ plain.afterOn .usual [.setVariable "x" (.decimal (.infinite false)), .calculate "$x"]
          = plainInfinite
        ∧ plainInfinite.CanWalk ∧ plainInfinite.cursor = 1
        ∧ (plainInfinite.serveOn .usual .back).1 = some (.error .noText)
        ∧ (plainInfinite.serveOn .usual .back).2.cursor = 1 := by
  refine ⟨start_default _, ⟨?_, ?_, rfl, by decide +kernel, by decide +kernel⟩,
    ?_, ?_, rfl, by decide +kernel, by decide +kernel⟩
  · have hshort : plain.short? .usual (.calculate "ans+1") = none :=
      Option.isNone_iff_eq_none.mp (by decide +kernel)
    have hshort' : plainOne.short? .usual (.update (some minute)) = none :=
      Option.isNone_iff_eq_none.mp (by decide +kernel)
    rw [afterOn_cons hshort, plain_calculate, afterOn_cons hshort', plainOne_update]
    rfl
  · exact ⟨rfl, ⟨.plain "", rfl, fun _ => rfl⟩, List.cons_ne_nil _ _⟩
  · have hshort : plain.short? .usual (.setVariable "x" (.decimal (.infinite false))) = none :=
      rfl
    have hshort' : (plain.serve (.setVariable "x" (.decimal (.infinite false)))).2.short? .usual
        (.calculate "$x") = none := Option.isNone_iff_eq_none.mp (by decide +kernel)
    rw [afterOn_cons hshort, afterOn_cons hshort']
    cbv
  · exact ⟨rfl, ⟨.plain "", rfl, fun _ => rfl⟩, List.cons_ne_nil _ _⟩

end Bar

end Search

end Reckoner
