import Reckoner.Proofs.Search.Complete
import Reckoner.Proofs.Search.InPlace

/-!
# What is shown is what would be committed

A text is evaluated in two ways. While it is typed its value is shown beside the field:
the text is first looked at character by character, it is evaluated only if it may be a
complete calculation, and a fault is not shown. When it is finished it is committed,
unseen, and a fault is reported. `Bar.shown_iff_calculate` says that the two agree, for
every bar and every text that is new to it and does not refer to the last answer: a
result is shown exactly if the text looks like a calculation and would be committed
with that value, and having looked at the text makes no difference to committing it.

The first half rests on `Session.isComplete_of_compute`: no value is kept back because the text
seems unfinished. The second rests on `Session.compute_withAnswer`, since a live value becomes
the last answer, and nothing else in the session is touched.
-/

namespace Reckoner.Search.Bar

variable {bar bar' : Bar} {input : String}

/-- **How a calculation ends** is decided by the value of the text. -/
theorem serve_calculate_fst (bar : Bar) (text : String) :
    (bar.serve (.calculate text)).1
      = ((bar.session.compute (some (cleaned (some text)))).map .value).mapError .fault := by
  rw [serve_calculate, calculate, Session.evaluate, Session.evaluateQuietly]
  cases bar.session.compute (some (cleaned (some text))) <;> rfl

/-- A calculation succeeds with the value of its text. -/
theorem serve_calculate_eq_ok_iff {text : String} {x : Decimal} :
    (bar.serve (.calculate text)).1 = .ok (.value x)
      ↔ bar.session.compute (some (cleaned (some text))) = .ok x := by
  rw [serve_calculate_fst]
  cases bar.session.compute (some (cleaned (some text))) with
  | error fault => exact ⟨nofun, nofun⟩
  | ok y =>
    constructor
    · rintro ⟨⟩
      rfl
    · rintro ⟨⟩
      rfl

/-- A look does not change the value of a text that does not refer to the last
answer. -/
theorem Looked.compute_eq (h : Looked bar input bar') {text : String}
    (hanswer : ¬ RefersToAnswer text.toList) :
    bar'.session.compute (some text) = bar.session.compute (some text) := by
  cases h with
  | same => rfl
  | hidden => rfl
  | evaluated => exact bar.session.compute_withAnswer hanswer _

/-- A look at a new text shows its value, if it looks like a calculation. -/
theorem Looked.shown_iff (h : Looked bar input bar') (hnew : input ≠ bar.lastInput)
    (hinline : bar.settings.showInlineResults = true) {shown : String} :
    bar'.shown = some shown
      ↔ looksLikeCalculation input.toList = true
        ∧ ∃ x, bar.session.compute (some input) = .ok x
          ∧ x.grouped? bar.settings.enableCommaFormatting = some shown := by
  -- a text with a value is complete, so the value is not kept back
  have hshows : ∀ x, bar.session.compute (some input) = .ok x →
      (bar.showsResultFor input = true ↔ looksLikeCalculation input.toList = true) := by
    intro x hx
    rw [showsResultFor, hinline, Session.isComplete_of_compute hx, Bool.true_and, Bool.and_true]
  cases h with
  | same hsame => exact absurd hsame hnew
  | hidden _ hnone =>
    refine ⟨nofun, ?_⟩
    rintro ⟨hlooks, x, hx, -⟩
    exact absurd hx (hnone x ((hshows x hx).mpr hlooks))
  | @evaluated x _ hshown hx =>
    constructor
    · exact fun htext => ⟨(hshows x hx).mp hshown, x, hx, htext⟩
    · rintro ⟨-, y, hy, htext⟩
      obtain rfl := Except.ok.inj (hx.symm.trans hy)
      exact htext

/-- **A result is shown exactly if it would be committed.** Where results are wanted, a
text that is new and does not refer to the last answer is shown with a result exactly if
it looks like a calculation and committing it would have given that value; and
committing it after it was looked at ends as it would have before, with the same value
or the same fault. -/
theorem shown_iff_calculate (bar : Bar) (text : String)
    (hinline : bar.settings.showInlineResults = true)
    (hnew : cleaned (some text) ≠ bar.lastInput)
    (hanswer : ¬ RefersToAnswer (cleaned (some text)).toList) :
    (∀ shown, (bar.serve (.update (some text))).2.shown = some shown
        ↔ looksLikeCalculation (cleaned (some text)).toList = true
          ∧ ∃ x, (bar.serve (.calculate text)).1 = .ok (.value x)
            ∧ x.grouped? bar.settings.enableCommaFormatting = some shown)
      ∧ ((bar.serve (.update (some text))).2.serve (.calculate text)).1
        = (bar.serve (.calculate text)).1 := by
  have hlooked := looked bar (some text)
  rw [serve_update]
  refine ⟨fun shown => ?_, ?_⟩
  · simp only [serve_calculate_eq_ok_iff]
    exact hlooked.shown_iff hnew hinline
  · rw [serve_calculate_fst, serve_calculate_fst, hlooked.compute_eq hanswer]

/-- A new bar without a field, and a text with blanks and an invisible character. -/
theorem shown_iff_calculate_negated :
    let bar : Bar := ⟨{}, none, .empty (.working 50), "", none, none⟩
    (bar.serve (.update (some " -(5)\u200b"))).2.shown = some "-5"
      ∧ ((bar.serve (.update (some " -(5)\u200b"))).2.serve (.calculate " -(5)\u200b")).1
        = .ok (.value (.finite ⟨true, 5, 0⟩)) := by
  intro bar
  have hclean : cleaned (some " -(5)\u200b") = "-(5)" := by cbv
  have htokens : tokenize "-(5)".toList = .ok [⟨.operator .subtract, ['-'], 0⟩,
      ⟨.opening, ['('], 1⟩, ⟨.number ⟨['5'], none⟩, ['5'], 2⟩, ⟨.closing, [')'], 3⟩] := by cbv
  have hanswer : ¬ RefersToAnswer "-(5)".toList := by
    rintro ⟨tokens, h, hfound⟩
    obtain rfl := Except.ok.inj (htokens.symm.trans h)
    revert hfound
    decide
  have htree : (tokenize "-(5)".toList).map (Expr.ofTokens · 4)
      = .ok (.negate (.number ⟨['5'], none⟩)) := by cbv
  have hvalue : bar.session.compute (some "-(5)") = .ok (.finite ⟨true, 5, 0⟩) := by
    rw [bar.session.compute_eq_eval (by decide) htree]
    rfl
  have hnew : cleaned (some " -(5)\u200b") ≠ bar.lastInput := by
    rw [hclean]
    decide
  rw [← hclean] at hanswer hvalue
  obtain ⟨hshown, hsame⟩ := shown_iff_calculate bar " -(5)\u200b" rfl hnew hanswer
  have hcalculate := serve_calculate_eq_ok_iff.mpr hvalue
  refine ⟨(hshown "-5").mpr ⟨?_, _, hcalculate, by cbv⟩, hsame.trans hcalculate⟩
  rw [hclean]
  decide +kernel

end Reckoner.Search.Bar
