import Reckoner.Proofs.Settings.Scanning

/-!
# Reading a document, step by step

The recursive reader gives back what it leaves together with a proof that this is shorter. Here the
proofs are left out and each of its functions becomes one equation. Arrays and objects are read in
the same way (`read_opener`), and so are rows of values and of members (`read_row`); what an element
is does not matter. The room for brackets is that of the place where a part of the document stands;
it is less by one behind a bracket, and where there is none a bracket is refused
(`read_opener_zero`).
-/

namespace Reckoner.JsonValue

/-- What follows the key of a member, from the next character on that is no blank. -/
def readValueOf (room : ℕ) (key : Option String) :
    List Char → Except JsonFault ((Option String × JsonValue) × List Char)
  | [] => .error .malformed
  | d :: after =>
    if d = ':' then
      (unbounded (readValue room (skipGap after))).map fun (v, rest) => ((key, v), rest)
    else .error .malformed

/-- A member: its key, a colon and its value. -/
def readMember (room : ℕ) : List Char → Except JsonFault ((Option String × JsonValue) × List Char)
  | [] => .error .malformed
  | c :: start =>
    if c = '"' then
      unbounded (readText start) >>= fun (key, afterKey) => readValueOf room key (skipGap afterKey)
    else .error .malformed

/-- **The reader of a part of a document.** -/
def read (room : ℕ) : (k : Fragment) → List Char → Except JsonFault (k.Meaning × List Char)
  | .one .value, cs => unbounded (readValue room cs)
  | .one .member, cs => readMember room cs
  | .row .value, cs => unbounded (readItems room cs)
  | .row .member, cs => unbounded (readMembers room cs)

/-- What follows one element of a row, from the next character on that is no blank. -/
def readOn (room : ℕ) (e : Element) (m : e.Meaning) :
    List Char → Except JsonFault (List e.Meaning × List Char)
  | [] => .error .malformed
  | d :: after =>
    if d = e.closer then .ok ([m], after)
    else if d = ',' then (read room (.row e) (skipGap after)).map fun (ms, rest) => (m :: ms, rest)
    else .error .malformed

/-- What follows an opening bracket, from the next character on that is no blank. The room is that
behind the bracket. -/
def readEnclosed (room : ℕ) (e : Element) : List Char → Except JsonFault (JsonValue × List Char)
  | [] => .error .malformed
  | d :: after =>
    if d = e.closer then .ok (e.enclose [], after)
    else (read room (.row e) (d :: after)).map fun (ms, rest) => (e.enclose ms, rest)

theorem unbounded_map {α β : Type} {m n : ℕ} (x : Except JsonFault (Part α m)) (f : α → β)
    (h : m ≤ n) :
    unbounded (x.map fun p => (p.map f).relax h)
      = (unbounded x).map fun (a, rest) => (f a, rest) := by
  cases x <;> rfl

variable (room : ℕ)

theorem read_nil : read room (.one .value) [] = .error .malformed := by
  show unbounded (readValue room []) = _
  rw [readValue]
  rfl

theorem read_text (cs : List Char) :
    read room (.one .value) ('"' :: cs) = (readPoints cs).map fun (points, after) =>
      (.text ((charsOfPoints? points).map String.ofList), after) := by
  show unbounded (readValue room ('"' :: cs)) = _
  rw [readValue.eq_def]
  dsimp only
  rw [if_pos rfl, unbounded_map, unbounded_readText rfl]
  cases readPoints cs <;> rfl

/-- Where there is no room, a bracket is refused. -/
theorem read_opener_zero (e : Element) (cs : List Char) :
    read 0 (.one .value) (e.opener :: cs) = .error .tooDeep := by
  cases e with
  | value =>
    show unbounded (readValue 0 ('[' :: cs)) = _
    rw [readValue, if_neg (by decide), if_pos rfl]
    rfl
  | member =>
    show unbounded (readValue 0 ('\x7b' :: cs)) = _
    rw [readValue, if_neg (by decide), if_neg (by decide), if_pos rfl]
    rfl

/-- **A bracket is read** whatever stands between it and its partner. -/
theorem read_opener (e : Element) (cs : List Char) :
    read (room + 1) (.one .value) (e.opener :: cs) = readEnclosed room e (skipGap cs) := by
  cases e
  case' value =>
    show unbounded (readValue (room + 1) ('[' :: cs)) = _
    rw [readValue, if_neg (by decide), if_pos rfl]
  case' member =>
    show unbounded (readValue (room + 1) ('\x7b' :: cs)) = _
    rw [readValue, if_neg (by decide), if_neg (by decide), if_pos rfl]
  all_goals
    dsimp only
    split
    · next hs => exact (congrArg (readEnclosed room _) hs).symm
    · next d after hs =>
      refine Eq.trans ?_ (congrArg (readEnclosed room _) hs).symm
      split
      · next hd => exact (if_pos hd).symm
      · next hd => exact (unbounded_map _ _ _).trans (if_neg hd).symm

/-- What is neither a text nor a bracket is a word or a number. -/
theorem read_plain {c : Char} (htext : c ≠ '"') (hopener : ∀ e : Element, c ≠ e.opener)
    (cs : List Char) :
    read room (.one .value) (c :: cs) = unbounded (readPlain (c :: cs)) := by
  have harray : c ≠ '[' := hopener .value
  have hobject : c ≠ '\x7b' := hopener .member
  show unbounded (readValue room (c :: cs)) = _
  rw [readValue.eq_def]
  dsimp only
  rw [if_neg htext, if_neg harray, if_neg hobject]

/-- Items, by the first of them. -/
theorem unbounded_readItems (cs : List Char) :
    unbounded (readItems room cs)
      = unbounded (readValue room cs) >>= fun (v, rest) => readOn room .value v (skipGap rest) := by
  rw [readItems]
  rcases readValue room cs with fault | ⟨item, rest, h⟩
  · rfl
  show unbounded _ = readOn room .value item (skipGap rest)
  dsimp only
  split
  · next hs => exact (congrArg (readOn room .value item) hs).symm
  next d after hs =>
  refine Eq.trans ?_ (congrArg (readOn room .value item) hs).symm
  split
  · next hd => exact (if_pos hd).symm
  next hd =>
  refine Eq.trans ?_ (if_neg hd).symm
  split
  · exact unbounded_map _ _ _
  · rfl

/-- Members, by the first of them. -/
theorem unbounded_readMembers (cs : List Char) :
    unbounded (readMembers room cs)
      = readMember room cs >>= fun (m, rest) => readOn room .member m (skipGap rest) := by
  rw [readMembers.eq_def]
  split
  · rfl
  next c start =>
  rw [readMember]
  by_cases hc : c = '"'
  case neg =>
    rw [if_pos hc, if_neg hc]
    rfl
  rw [if_neg (not_not.mpr hc), if_pos hc]
  -- the key
  rcases readText start with fault | ⟨key, afterKey, hk⟩
  · rfl
  show unbounded _ = readValueOf room key (skipGap afterKey) >>= _
  dsimp only
  split
  · next hs => exact (congrArg (readValueOf room key · >>= _) hs).symm
  next d afterColon hs =>
  refine Eq.trans ?_ (congrArg (readValueOf room key · >>= _) hs).symm
  rw [readValueOf]
  by_cases hd : d = ':'
  case neg =>
    rw [if_pos hd, if_neg hd]
    rfl
  rw [if_neg (not_not.mpr hd), if_pos hd]
  -- its value
  rcases readValue room (skipGap afterColon) with fault | ⟨v, rest, h⟩
  · rfl
  show unbounded _ = readOn room .member (key, v) (skipGap rest)
  dsimp only
  split
  · next hs => exact (congrArg (readOn room .member (key, v)) hs).symm
  next d after hs =>
  refine Eq.trans ?_ (congrArg (readOn room .member (key, v)) hs).symm
  split
  · next hd => exact (if_pos hd).symm
  next hd =>
  refine Eq.trans ?_ (if_neg hd).symm
  split
  · exact unbounded_map _ _ _
  · rfl

/-- **A row is read** by its first element and what follows that. -/
theorem read_row (e : Element) (cs : List Char) :
    read room (.row e) cs
      = read room (.one e) cs >>= fun (m, rest) => readOn room e m (skipGap rest) := by
  cases e with
  | value => exact unbounded_readItems room cs
  | member => exact unbounded_readMembers room cs

end Reckoner.JsonValue
