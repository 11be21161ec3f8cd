import Reckoner.Proofs.Expr.Finite
import Reckoner.Proofs.Search.Walk
import Reckoner.Proofs.Session.Machine
import Reckoner.Search.Machine

/-!
# A search bar on a machine

A request may be cut short because a line is too much for its machine. By then a committed line has
changed nothing, and a look has ended the walk, put down its text as the last input, and possibly
given the session another answer; it has not touched the history (`exists_leftByLook_eq`). So a walk
is at a place that the history has on every machine (`isPlaced_afterOn`).

A look can also be carried out and still be stopped, at a value that is no number. For a host this
comes to much the same, and `LookFails` is either.

Every run is what it is without limits if the machine is large enough (`exists_afterOn_eq`). How
large it has to be depends on the run.
-/

namespace Reckoner

/-- Numbers have a text, and special values have none. -/
theorem Decimal.isSome_grouped?_iff {x : Decimal} {grouping : Bool} :
    (x.grouped? grouping).isSome = true ↔ x.IsFinite := by
  cases x with
  | finite y => exact ⟨fun _ => .finite y, fun _ => rfl⟩
  | infinite _ => exact ⟨nofun, nofun⟩
  | nan _ _ _ => exact ⟨nofun, nofun⟩

namespace Search

namespace Bar

variable {bar looking left : Bar} {machine : Machine} {request : Request} {input entry : String}
  {field : Field} {place : Option ℕ}

/-! ## Looks that fail -/

/-- **A look at a text fails** on a machine: the text is new and a result is to be shown for it,
but it is too much for the machine, or its value is no number. -/
def LookFails (bar : Bar) (machine : Machine) (input : String) : Prop :=
  (input ≠ bar.lastInput ∧ bar.showsResultFor input = true)
    ∧ ((machine.shortage? bar.session input).isSome = true
      ∨ ∃ x, bar.session.compute (some input) = .ok x ∧ ¬ x.IsFinite)

theorem isSome_lookShortage?_iff :
    (bar.lookShortage? machine input).isSome = true
      ↔ (input ≠ bar.lastInput ∧ bar.showsResultFor input = true)
        ∧ (machine.shortage? bar.session input).isSome = true := by
  rw [lookShortage?]
  split
  · next hlooks => exact (and_iff_right hlooks).symm
  · next hlooks => exact ⟨nofun, fun h => absurd h.1 hlooks⟩

/-- A look that is carried out is stopped at a value which is no number. -/
theorem lookEnd_eq_error_iff :
    bar.lookEnd input = .error .noText
      ↔ (input ≠ bar.lastInput ∧ bar.showsResultFor input = true)
        ∧ ∃ x, bar.session.compute (some input) = .ok x ∧ ¬ x.IsFinite := by
  have hgoes : (.ok () : Except Stop Unit) ≠ .error .noText := by
    intro h
    cases h
  rw [lookEnd]
  split
  · next hlooks =>
    rw [and_iff_right hlooks, liveEnd]
    split
    · next x hx =>
      rw [hx]
      split
      · next htext =>
        refine iff_of_false hgoes ?_
        rintro ⟨_, hvalue, hspecial⟩
        rw [← Except.ok.inj hvalue] at hspecial
        exact hspecial (Decimal.isSome_grouped?_iff.mp htext)
      · next htext => exact iff_of_true rfl ⟨x, rfl, mt Decimal.isSome_grouped?_iff.mpr htext⟩
    · next fault hx =>
      rw [hx]
      refine iff_of_false hgoes ?_
      rintro ⟨_, hvalue, -⟩
      cases hvalue
  · next hlooks => exact iff_of_false hgoes fun h => hlooks h.1

/-- **A look fails** because it is cut short or because it is stopped. -/
theorem lookFails_iff :
    bar.LookFails machine input
      ↔ (bar.lookShortage? machine input).isSome = true ∨ bar.lookEnd input = .error .noText := by
  rw [isSome_lookShortage?_iff, lookEnd_eq_error_iff, ← and_or_left, LookFails]

instance : Decidable (bar.LookFails machine input) := decidable_of_iff' _ lookFails_iff

/-- Writing an entry into the field does not matter to whether a look fails. -/
theorem lookFails_withEntry (bar : Bar) (field : Field) (place : Option ℕ) (entry : String) :
    (withEntry { bar with place } field entry).LookFails machine input
      ↔ bar.LookFails machine input := Iff.rfl

/-! ## What is left behind -/

/-- **A look that is cut short** has begun with its text, and has changed nothing else but the last
answer. -/
theorem exists_leftByLook_eq (bar : Bar) (input : String) (shortage : Shortage) :
    ∃ answer, bar.leftByLook input shortage
      = { bar.anew input with session := { bar.session with answer } } := by
  cases shortage with
  | evaluating => exact ⟨bar.session.answer, rfl⟩
  | showing =>
    rw [leftByLook, Session.evaluateQuietly]
    cases bar.session.compute (some input) with
    | ok x => exact ⟨x, rfl⟩
    | error fault => exact ⟨bar.session.answer, rfl⟩

/-- A request looks at a text in the session it finds. -/
theorem session_eq_of_look? (h : bar.look? request = some (looking, input)) :
    looking.session = bar.session := by
  cases request with
  | update text => rw [← (Prod.mk.inj (Option.some.inj h)).1]
  | _ =>
    rw [look?, Option.map_eq_some_iff] at h
    · obtain ⟨⟨field, place, entry⟩, -, hlooking⟩ := h
      rw [← (Prod.mk.inj hlooking).1, withEntry]
    · intro text hupdate
      cases hupdate

/-- A request is cut short at the line it commits, or at the text it looks at. -/
theorem eq_or_of_short?_eq_some (h : bar.short? machine request = some left) :
    left = bar ∨ ∃ looking input shortage, bar.look? request = some (looking, input)
      ∧ left = looking.leftByLook input shortage := by
  rw [short?] at h
  split at h
  · split at h
    · cases h
    · exact .inl (Option.some.inj h).symm
  · next looking input _ hlook =>
    obtain ⟨shortage, -, hleft⟩ := Option.map_eq_some_iff.mp h
    exact .inr ⟨looking, input, shortage, hlook, hleft.symm⟩
  · cases h

theorem serveOn_of_short?_eq_none (h : bar.short? machine request = none) :
    bar.serveOn machine request = (some (bar.serve request).1, (bar.serve request).2) := by
  rw [serveOn, h]

theorem serveOn_of_short?_eq_some (h : bar.short? machine request = some left) :
    bar.serveOn machine request = (none, left) := by
  rw [serveOn, h]

/-- **A request leaves a walk at a place that the history has**, whether it comes to its end or
not. -/
theorem IsPlaced.serveOn (h : bar.IsPlaced) (machine : Machine) (request : Request) :
    (bar.serveOn machine request).2.IsPlaced := by
  cases hshort : bar.short? machine request with
  | none =>
    rw [serveOn_of_short?_eq_none hshort]
    exact (served bar request).isPlaced h
  | some left =>
    rw [serveOn_of_short?_eq_some hshort]
    obtain rfl | ⟨looking, input, shortage, hlook, rfl⟩ := eq_or_of_short?_eq_some hshort
    · exact h
    · obtain ⟨answer, hleft⟩ := exists_leftByLook_eq looking input shortage
      rw [hleft]
      refine ⟨?_, nofun⟩
      show looking.session.history.length ≤ _
      rw [session_eq_of_look? hlook]
      exact h.length_history_le

/-- A run goes on behind a request that is not cut short. -/
theorem afterOn_cons (h : bar.short? machine request = none) (requests : List Request) :
    bar.afterOn machine (request :: requests) = (bar.serve request).2.afterOn machine requests := by
  show (bar.serveOn machine request).2.afterOn machine requests = _
  rw [serveOn_of_short?_eq_none h]

theorem isPlaced_afterOn (h : bar.IsPlaced) (machine : Machine) (requests : List Request) :
    (bar.afterOn machine requests).IsPlaced := by
  induction requests generalizing bar with
  | nil => exact h
  | cons request requests ih => exact ih (h.serveOn machine request)

/-! ## Steps through the history -/

/-- A step commits no line. -/
theorem committed?_of_walks (hwalks : request.walks = true) : request.committed? = none := by
  cases request with
  | back => rfl
  | forth => rfl
  | _ => cases hwalks

/-- A step looks at the entry it leads to, if it leads anywhere. -/
theorem look?_of_walks (hwalks : request.walks = true) :
    bar.look? request
      = (bar.step? request).map fun step =>
          (withEntry { bar with place := step.2.1 } step.1 step.2.2,
            cleaned (some (step.1.write step.2.2).text)) := by
  cases request with
  | back => rfl
  | forth => rfl
  | _ => cases hwalks

/-- A step that leads nowhere is not cut short. -/
theorem short?_of_step?_eq_none (h : bar.step? request = none) (hwalks : request.walks = true) :
    bar.short? machine request = none := by
  rw [short?, committed?_of_walks hwalks, look?_of_walks hwalks, h]
  rfl

/-- **A step is cut short** in its look at the entry it leads to. -/
theorem short?_of_step? (h : bar.step? request = some (field, place, entry))
    (hwalks : request.walks = true) (machine : Machine) :
    bar.short? machine request
      = ((withEntry { bar with place } field entry).lookShortage? machine
            (cleaned (some (field.write entry).text))).map
          ((withEntry { bar with place } field entry).leftByLook
            (cleaned (some (field.write entry).text))) := by
  rw [short?, committed?_of_walks hwalks, look?_of_walks hwalks, h]
  rfl

/-- **A step that leads nowhere changes nothing**, on any machine. -/
theorem serveOn_of_step?_eq_none (h : bar.step? request = none) (hwalks : request.walks = true)
    (hserve : bar.serve request = (.ok .nothing, bar)) (machine : Machine) :
    bar.serveOn machine request = (some (.ok .nothing), bar) := by
  rw [serveOn_of_short?_eq_none (short?_of_step?_eq_none h hwalks), hserve]

/-! ## Machines that are large enough -/

/-- **No request is too much for all machines.** -/
theorem exists_short?_eq_none (bar : Bar) (request : Request) :
    ∃ size, ∀ machine : Machine, machine.HasSize size → bar.short? machine request = none := by
  cases hline : request.committed? with
  | some line =>
    obtain ⟨size, hsize⟩ := bar.session.exists_evaluates line
    refine ⟨size, fun machine hmachine => ?_⟩
    rw [short?, hline]
    exact if_pos (hsize machine hmachine)
  | none =>
    cases hlook : bar.look? request with
    | none =>
      refine ⟨0, fun machine _ => ?_⟩
      rw [short?, hline, hlook]
    | some look =>
      obtain ⟨looking, input⟩ := look
      obtain ⟨size, hsize⟩ := looking.session.exists_shortage?_eq_none input
      refine ⟨size, fun machine hmachine => ?_⟩
      rw [short?, hline, hlook]
      dsimp only
      rw [lookShortage?, hsize machine hmachine, ite_self, Option.map_none]

/-- **A run is as without limits** on every machine that is large enough for it. -/
theorem exists_afterOn_eq (bar : Bar) (requests : List Request) :
    ∃ size, ∀ machine : Machine, machine.HasSize size →
      bar.afterOn machine requests = bar.after requests := by
  induction requests generalizing bar with
  | nil => exact ⟨0, fun _ _ => rfl⟩
  | cons request requests ih =>
    obtain ⟨n, hn⟩ := bar.exists_short?_eq_none request
    obtain ⟨m, hm⟩ := ih (bar.serve request).2
    refine ⟨max n m, fun machine hmachine => ?_⟩
    rw [afterOn_cons (hn machine (hmachine.mono (le_max_left n m)))]
    exact hm machine (hmachine.mono (le_max_right n m))

end Bar

end Search

end Reckoner
