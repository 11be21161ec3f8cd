import Reckoner.Proofs.Settings.Steps

/-!
# Documents are read as they are spelled

What is spelled is read back, by induction on the spelling (`Spells.readsBack`); so are the places
that stop the reader with a fault (`Stops.read_eq`). Conversely, whatever the reader says about a
text is explained by the grammar (`explains`), which goes through the reader once, with its own
measure. A reading that ends in a plain mistake says nothing.

Together they give the meaning of the whole reader: `ofText_eq_ok_iff` and `ofText_eq_error_iff`.
-/

namespace Reckoner.JsonValue

variable {cs rest tail : List Char} {room : ℕ} {fault : JsonFault}

/-! ## What is spelled is read -/

/-- **A part of a document is read back**: one element in front of anything that does not go on
with it, a row in front of its closing bracket. -/
def ReadsBack (room : ℕ) : (k : Fragment) → List Char → k.Meaning → Prop
  | .one e, cs, m => ∀ tail, ¬ GoesOn tail → read room (.one e) (cs ++ tail) = .ok (m, tail)
  | .row e, cs, ms => ∀ gap tail, IsGap gap →
      read room (.row e) (cs ++ (gap ++ e.closer :: tail)) = .ok (ms, tail)

theorem read_number (negative : Bool) {digits : List Char} (h : IsWhole digits)
    (rest : List Char) :
    read room (.one .value) (minus negative ++ (digits ++ rest))
      = unbounded (readPlain (minus negative ++ (digits ++ rest))) := by
  cases negative with
  | true => exact read_plain room (by decide) (fun e => by cases e <;> decide) _
  | false =>
    obtain ⟨c, more, rfl⟩ := List.exists_cons_of_ne_nil h.ne_nil
    have hc := h.digits c List.mem_cons_self
    exact read_plain room (ne_of_isDigit hc rfl)
      (fun e => by cases e <;> exact ne_of_isDigit hc rfl) _

theorem readsBack_number (negative : Bool) {digits ps es : List Char}
    {places : Option (List Char)} {exponent : Option ℤ} {v : JsonValue} (hdigits : IsWhole digits)
    (hps : IsPlaces ps places) (hes : IsExponent es exponent)
    (hv : numberOf negative digits places exponent = .ok v) :
    ReadsBack room (.one .value) (minus negative ++ (digits ++ (ps ++ es))) v := by
  intro tail htail
  rw [List.append_assoc, List.append_assoc, List.append_assoc, read_number negative hdigits,
    unbounded_readPlain_append negative hdigits hps hes htail, hv]
  rfl

theorem read_word {w : String × JsonValue} (mem : w ∈ words) (rest : List Char) :
    read room (.one .value) (w.1.toList ++ rest) = .ok (w.2, rest) := by
  obtain ⟨c, more, heq, -, ne_quote, hne⟩ := exists_cons_of_mem_words mem
  rw [← unbounded_readPlain_word mem, heq]
  exact read_plain room ne_quote (fun e => (hne e).1) _

theorem readOn_closer (e : Element) (m : e.Meaning) {gap : List Char} (hgap : IsGap gap)
    (tail : List Char) : readOn room e m (skipGap (gap ++ e.closer :: tail)) = .ok ([m], tail) := by
  rw [skipGap_append hgap, skipGap_cons (by cases e <;> rfl)]
  exact if_pos rfl

theorem readOn_comma (e : Element) (m : e.Meaning) {gap : List Char} (hgap : IsGap gap)
    (tail : List Char) :
    readOn room e m (skipGap (gap ++ ',' :: tail))
      = (read room (.row e) (skipGap tail)).map fun (ms, rest) => (m :: ms, rest) := by
  rw [skipGap_append hgap, skipGap_cons rfl]
  exact (if_neg (by cases e <;> decide)).trans (if_pos rfl)

theorem readEnclosed_of_begins (e : Element) (h : Begins cs) :
    readEnclosed room e cs
      = (read room (.row e) cs).map fun (ms, rest) => (e.enclose ms, rest) := by
  obtain ⟨-, ne_closer, rest⟩ := h
  exact if_neg (ne_closer e)

theorem readMember_append {key : List Char} {k : Option String} (hkey : IsText key k)
    {gap : List Char} (hgap : IsGap gap) (rest : List Char) :
    readMember room (key ++ (gap ++ ':' :: rest))
      = (read room (.one .value) (skipGap rest)).map fun (v, after) => ((k, v), after) := by
  obtain ⟨spelled⟩ := hkey
  rw [List.cons_append, List.append_assoc, List.singleton_append, readMember, if_pos rfl,
    unbounded_readText (readPoints_append spelled _)]
  show readValueOf room _ (skipGap (gap ++ ':' :: rest)) = _
  rw [skipGap_append hgap, skipGap_cons rfl, readValueOf, if_pos rfl]
  rfl

/-- **What is spelled is read back.** -/
theorem Spells.readsBack {k : Fragment} {m : k.Meaning} (h : Spells room k cs m) :
    ReadsBack room k cs m := by
  induction h with
  | text is_text =>
    obtain ⟨spelled⟩ := is_text
    intro tail _
    rw [List.cons_append, List.append_assoc, read_text, List.singleton_append,
      readPoints_append spelled]
    rfl
  | word mem => exact fun tail _ => read_word mem tail
  | @integer room negative digits is_whole length_le =>
    have hnumber : numberOf negative digits none none
        = .ok (.integer (signed negative (digitsValue digits))) := if_neg (Nat.not_lt.mpr length_le)
    have hread : ReadsBack room (.one .value) _ _ :=
      readsBack_number negative is_whole .none .none hnumber
    rwa [List.append_nil, List.append_nil] at hread
  | fraction negative is_whole is_places is_exponent isSome =>
    exact readsBack_number negative is_whole is_places is_exponent (numberOf_of_isSome isSome)
  | @empty room e gap is_gap =>
    intro tail _
    rw [List.cons_append, List.append_assoc, List.singleton_append, read_opener,
      skipGap_append is_gap, skipGap_cons (by cases e <;> rfl)]
    exact if_pos rfl
  | @enclosed room e before cs after ms before_gap spelled after_gap ih =>
    intro tail _
    have hbegins := spelled.begins.append (after ++ e.closer :: tail)
    have hassoc : e.opener :: (before ++ (cs ++ (after ++ [e.closer]))) ++ tail
        = e.opener :: (before ++ (cs ++ (after ++ e.closer :: tail))) := by
      simp
    rw [hassoc, read_opener, hbegins.skipGap_append before_gap, readEnclosed_of_begins e hbegins,
      ih after tail after_gap]
    rfl
  | @member room key before after cs k v key_text before_gap after_gap spelled ih =>
    intro tail htail
    have hassoc : key ++ (before ++ ':' :: (after ++ cs)) ++ tail
        = key ++ (before ++ ':' :: (after ++ (cs ++ tail))) := by
      simp
    rw [hassoc]
    show readMember room _ = _
    rw [readMember_append key_text before_gap,
      (spelled.begins.append tail).skipGap_append after_gap, ih tail htail]
    rfl
  | @last room e cs m spelled ih =>
    intro gap tail hgap
    rw [read_row, ih _ (not_goesOn_gap_append hgap (not_goesOn_closer e tail))]
    exact readOn_closer e m hgap tail
  | @more room e cs before after rest m ms spelled before_gap after_gap others ih ih' =>
    intro gap tail hgap
    have hbegins := others.begins.append (gap ++ e.closer :: tail)
    have hassoc : cs ++ (before ++ ',' :: (after ++ rest)) ++ (gap ++ e.closer :: tail)
        = cs ++ (before ++ ',' :: (after ++ (rest ++ (gap ++ e.closer :: tail)))) := by
      simp
    rw [hassoc, read_row, ih _ (not_goesOn_gap_append before_gap (not_goesOn_comma _))]
    refine (readOn_comma e m before_gap _).trans ?_
    rw [hbegins.skipGap_append after_gap, ih' gap tail hgap]
    rfl

/-- **A fault stops the reader** where it stands. -/
theorem Stops.read_eq {k : Fragment} (h : Stops fault room k cs) :
    read room k cs = .error fault := by
  induction h with
  | @integer room negative digits rest is_whole lt_length ends =>
    have hread := unbounded_readPlain_append negative is_whole .none .none ends
    rw [read_number negative is_whole]
    exact hread.trans (congrArg (Except.map _) (if_pos lt_length))
  | bracket e rest => exact read_opener_zero e rest
  | @enclosed fault room e gap cs is_gap inside ih =>
    have hbegins := inside.begins
    rw [read_opener, hbegins.skipGap_append is_gap, readEnclosed_of_begins e hbegins, ih]
    rfl
  | @member fault room key before after cs k key_text before_gap after_gap inside ih =>
    show readMember room _ = _
    rw [readMember_append key_text before_gap, inside.begins.skipGap_append after_gap, ih]
    rfl
  | first _ ih =>
    rw [read_row, ih]
    rfl
  | @later fault room e cs before after rest m spelled before_gap after_gap inside ih =>
    rw [read_row, spelled.readsBack _ (not_goesOn_gap_append before_gap (not_goesOn_comma _))]
    refine (readOn_comma e m before_gap _).trans ?_
    rw [inside.begins.skipGap_append after_gap, ih]
    rfl

/-! ## What is read is spelled -/

/-- A part of a document, read from the front of a text: one element up to its end, a row up to
its closing bracket. -/
def IsFront (room : ℕ) : (k : Fragment) → List Char → k.Meaning → List Char → Prop
  | .one e, cs, m, rest => ∃ spelled, Spells room (.one e) spelled m ∧ cs = spelled ++ rest
  | .row e, cs, ms, rest => ∃ spelled gap, Spells room (.row e) spelled ms ∧ IsGap gap
      ∧ cs = spelled ++ (gap ++ e.closer :: rest)

/-- **What an outcome of the reader says about the text.** -/
inductive Explains (room : ℕ) (k : Fragment) (cs : List Char) :
    Except JsonFault (k.Meaning × List Char) → Prop
  | read {m : k.Meaning} {rest : List Char} (front : IsFront room k cs m rest) :
      Explains room k cs (.ok (m, rest))
  | stopped {fault : JsonFault} (stops : Stops fault room k cs) :
      Explains room k cs (.error fault)
  | malformed : Explains room k cs (.error .malformed)

theorem Explains.map {room' : ℕ} {k k' : Fragment} {cs' : List Char} {f : k.Meaning → k'.Meaning}
    {x : Except JsonFault (k.Meaning × List Char)} (h : Explains room k cs x)
    (front : ∀ {m rest}, IsFront room k cs m rest → IsFront room' k' cs' (f m) rest)
    (stops : ∀ {fault}, Stops fault room k cs → Stops fault room' k' cs') :
    Explains room' k' cs' (x.map fun (m, rest) => (f m, rest)) := by
  cases h with
  | read h => exact .read (front h)
  | stopped h => exact .stopped (stops h)
  | malformed => exact .malformed

theorem explains_text (cs : List Char) :
    Explains room (.one .value) ('"' :: cs) (read room (.one .value) ('"' :: cs)) := by
  rw [read_text]
  cases h : readPoints cs with
  | error fault =>
    obtain rfl := eq_malformed_of_readPoints h
    exact .malformed
  | ok p =>
    obtain ⟨points, after⟩ := p
    obtain ⟨spelled, hspelled, rfl⟩ := exists_isPoints h
    exact .read ⟨_, .text (.quoted hspelled), by simp⟩

theorem explains_plain (cs : List Char) :
    Explains room (.one .value) cs (unbounded (readPlain cs)) := by
  cases h : unbounded (readPlain cs) with
  | error fault =>
    by_cases hfault : fault = .malformed
    · rw [hfault]
      exact .malformed
    · exact .stopped (stops_of_readPlain h hfault)
  | ok p => exact .read (exists_spells_of_readPlain h)

theorem explains_enclosed (e : Element) (cs : List Char)
    (h : Explains room (.row e) (skipGap cs) (read room (.row e) (skipGap cs))) :
    Explains (room + 1) (.one .value) (e.opener :: cs) (readEnclosed room e (skipGap cs)) := by
  obtain ⟨gap, hgap, heq⟩ := exists_gap cs
  cases hs : skipGap cs with
  | nil => exact .malformed
  | cons d after =>
    rw [hs] at h heq
    rw [readEnclosed]
    split
    · next hd =>
      rw [heq, hd]
      exact .read ⟨_, .empty e hgap, by simp⟩
    · rw [heq]
      refine h.map ?_ (.enclosed hgap)
      rintro ms rest ⟨spelled, gap', hspelled, hgap', heq'⟩
      exact ⟨_, .enclosed hgap hspelled hgap', by rw [heq']; simp⟩

/-- What comes behind a character between two gaps. -/
theorem exists_behind {d : Char} {after : List Char} (h : skipGap rest = d :: after) :
    ∃ gap gap', IsGap gap ∧ IsGap gap' ∧ rest = gap ++ d :: (gap' ++ skipGap after)
      ∧ (skipGap after).length < rest.length := by
  obtain ⟨gap, hgap, heq⟩ := exists_gap rest
  obtain ⟨gap', hgap', heq'⟩ := exists_gap after
  rw [h] at heq
  refine ⟨gap, gap', hgap, hgap', by rw [← heq', ← heq], ?_⟩
  have := length_skipGap_le after
  rw [heq, List.length_append, List.length_cons]
  omega

theorem explains_readOn {e : Element} {m : e.Meaning} {spelled : List Char}
    (hspelled : Spells room (.one e) spelled m) (rest : List Char)
    (h : ∀ after, after.length < rest.length →
      Explains room (.row e) after (read room (.row e) after)) :
    Explains room (.row e) (spelled ++ rest) (readOn room e m (skipGap rest)) := by
  cases hs : skipGap rest with
  | nil => exact .malformed
  | cons d after =>
    rw [readOn]
    split
    · next hd =>
      obtain ⟨gap, hgap, heq⟩ := exists_gap rest
      rw [heq, hs, hd]
      exact .read ⟨_, gap, .last hspelled, hgap, rfl⟩
    split
    · next hd =>
      obtain ⟨gap, gap', hgap, hgap', heq, hlt⟩ := exists_behind hs
      rw [heq, hd]
      refine (h _ hlt).map ?_ (.later hspelled hgap hgap')
      rintro ms after' ⟨others, gap'', hothers, hgap'', heq'⟩
      exact ⟨_, gap'', .more hspelled hgap hgap' hothers, hgap'', by rw [heq']; simp⟩
    · exact .malformed

theorem explains_valueOf {key : List Char} {k : Option String} (hkey : IsText key k)
    (rest : List Char) (h : ∀ after, after.length < rest.length →
      Explains room (.one .value) after (read room (.one .value) after)) :
    Explains room (.one .member) (key ++ rest) (readValueOf room k (skipGap rest)) := by
  cases hs : skipGap rest with
  | nil => exact .malformed
  | cons d after =>
    rw [readValueOf]
    split
    · next hd =>
      obtain ⟨gap, gap', hgap, hgap', heq, hlt⟩ := exists_behind hs
      rw [heq, hd]
      refine (h _ hlt).map ?_ (.member hkey hgap hgap')
      rintro v after' ⟨spelled, hspelled, heq'⟩
      exact ⟨_, .member hkey hgap hgap' hspelled, by rw [heq']; simp⟩
    · exact .malformed

/-- A member, where values in what is left are explained. -/
theorem explains_member (c : Char) (start : List Char)
    (h : ∀ after, after.length < start.length →
      Explains room (.one .value) after (read room (.one .value) after)) :
    Explains room (.one .member) (c :: start) (read room (.one .member) (c :: start)) := by
  show Explains room (.one .member) (c :: start) (readMember room (c :: start))
  rw [readMember]
  split
  · next hc =>
    cases hp : readPoints start with
    | error fault =>
      obtain rfl := eq_malformed_of_readPoints hp
      rw [unbounded_readText hp]
      exact .malformed
    | ok p =>
      obtain ⟨points, afterKey⟩ := p
      have hlt := length_lt_of_readPoints hp
      obtain ⟨spelled, hspelled, heq⟩ := exists_isPoints hp
      have hkey := explains_valueOf (.quoted hspelled) afterKey fun after hafter =>
        h after (hafter.trans hlt)
      rw [unbounded_readText hp, hc, heq]
      rwa [List.cons_append, List.append_assoc] at hkey
  · exact .malformed

/-- A value, where rows in what is left are explained, in whatever room. -/
theorem explains_value (c : Char) (start : List Char)
    (h : ∀ room e after, after.length ≤ start.length →
      Explains room (.row e) after (read room (.row e) after)) :
    Explains room (.one .value) (c :: start) (read room (.one .value) (c :: start)) := by
  by_cases htext : c = '"'
  · rw [htext]
    exact explains_text start
  by_cases hopener : ∃ e : Element, c = e.opener
  · obtain ⟨e, rfl⟩ := hopener
    cases room with
    | zero =>
      rw [read_opener_zero]
      exact .stopped (.bracket e start)
    | succ room =>
      rw [read_opener]
      exact explains_enclosed e start (h room e _ (length_skipGap_le start))
  · rw [read_plain room htext fun e heq => hopener ⟨e, heq⟩]
    exact explains_plain _

/-- A row, where its first element and rows in what is left are explained. -/
theorem explains_row (e : Element) (hone : Explains room (.one e) cs (read room (.one e) cs))
    (h : ∀ after, after.length < cs.length →
      Explains room (.row e) after (read room (.row e) after)) :
    Explains room (.row e) cs (read room (.row e) cs) := by
  rw [read_row]
  generalize read room (.one e) cs = x at hone
  cases hone with
  | @read m rest front =>
    obtain ⟨spelled, hspelled, rfl⟩ := front
    refine explains_readOn hspelled rest fun after hlt => h after ?_
    rw [List.length_append]
    omega
  | stopped h => exact .stopped (.first h)
  | malformed => exact .malformed

/-- A row is read by reading its first element in the same place. -/
def Fragment.depth : Fragment → ℕ
  | .one _ => 0
  | .row _ => 1

/-- **What the reader says about a text is so.** -/
theorem explains (room : ℕ) (k : Fragment) (cs : List Char) :
    Explains room k cs (read room k cs) :=
  match k, cs with
  | .one .value, [] => by
    rw [read_nil]
    exact .malformed
  | .one .value, c :: start =>
    explains_value c start fun room e after _ => explains room (.row e) after
  | .one .member, [] => .malformed
  | .one .member, c :: start =>
    explains_member c start fun after _ => explains room (.one .value) after
  | .row e, cs =>
    explains_row e (explains room (.one e) cs) fun after _ => explains room (.row e) after
termination_by 2 * cs.length + k.depth
decreasing_by all_goals simp only [Fragment.depth, List.length_cons]; omega

/-! ## Documents -/

theorem ofText_eq (room : ℕ) (cs : List Char) :
    ofText room cs = read room (.one .value) (skipGap cs) >>= fun (v, rest) =>
      if (skipGap rest).isEmpty then .ok v else .error .malformed := by
  show _ = unbounded (readValue room (skipGap cs)) >>= _
  rw [ofText]
  cases readValue room (skipGap cs) <;> rfl

/-- **A document is read** exactly as it is spelled. -/
theorem ofText_eq_ok_iff {v : JsonValue} : ofText room cs = .ok v ↔ IsDocument room cs v := by
  rw [ofText_eq]
  constructor
  · intro h
    obtain ⟨⟨v', rest⟩, hread, h⟩ := exists_of_bind_eq_ok h
    dsimp only at h
    split at h
    · next hrest =>
      obtain rfl := Except.ok.inj h
      have hspelled := explains room (.one .value) (skipGap cs)
      rw [hread] at hspelled
      obtain ⟨spelled, hspelled, heq⟩ := hspelled
      obtain ⟨before, hbefore, hcs⟩ := exists_gap cs
      rw [List.isEmpty_iff, skipGap_eq_nil_iff] at hrest
      exact ⟨before, spelled, rest, heq ▸ hcs, hbefore, hrest, hspelled⟩
    · cases h
  · rintro ⟨before, middle, after, rfl, hbefore, hafter, hspelled⟩
    have hends : ¬ GoesOn after := by
      have := not_goesOn_gap_append hafter not_goesOn_nil
      rwa [List.append_nil] at this
    rw [(hspelled.begins.append after).skipGap_append hbefore, hspelled.readsBack after hends]
    exact if_pos (by rw [skipGap_eq_nil_iff.mpr hafter]; rfl)

/-- **A document is refused for another fault** than a plain mistake exactly if it has that fault
behind nothing but what is well formed. -/
theorem ofText_eq_error_iff (hfault : fault ≠ .malformed) :
    ofText room cs = .error fault ↔ IsStopped fault room cs := by
  rw [ofText_eq]
  constructor
  · intro h
    rcases of_bind_eq_error h with hread | ⟨⟨v, rest⟩, -, h⟩
    · have hstops := explains room (.one .value) (skipGap cs)
      rw [hread] at hstops
      obtain ⟨before, hbefore, hcs⟩ := exists_gap cs
      cases hstops with
      | stopped h => exact ⟨before, _, hcs, hbefore, h⟩
      | malformed => exact absurd rfl hfault
    · dsimp only at h
      split at h
      · cases h
      · exact absurd (Except.error.inj h).symm hfault
  · rintro ⟨before, rest, rfl, hbefore, hstops⟩
    rw [hstops.begins.skipGap_append hbefore, hstops.read_eq]
    rfl

/-- **A document has one value.** -/
theorem IsDocument.eq {v w : JsonValue} (hv : IsDocument room cs v) (hw : IsDocument room cs w) :
    v = w :=
  Except.ok.inj ((ofText_eq_ok_iff.mpr hv).symm.trans (ofText_eq_ok_iff.mpr hw))

end Reckoner.JsonValue
