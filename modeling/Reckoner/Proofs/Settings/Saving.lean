import Reckoner.Outer.Lax
import Reckoner.Proofs.Settings.Loading

/-!
# Saved settings are loaded again

A settings file is written line by line: each member indented on a line of its own, with a comma
behind all lines but the last. In the grammar of documents that is a row of members
(`exists_spells_intercalate`), whose keys need no escapes and whose values are the digits of a
number or one of two words. So a saved file is a document (`Settings.isDocument_fileText`).

Whether the settings it was saved from are in that document is for the loader to say. It has to take
members that have the right types as they are (`Loader.TakesPlain`), and then they are
(`Settings.holdsSettings_fileOctets`). The only other bound is that on the digits of the precision.
The loader of the program does so: its generosity is for values of other types.
-/

namespace Reckoner

open Text.Utf8 JsonValue

namespace JsonValue

/-- No character is half of a surrogate pair. -/
theorem charsOfPoints?_map_toNat (cs : List Char) :
    charsOfPoints? (cs.map Char.toNat) = some cs := by
  have hhalf (c : Char) : isHighHalf c.toNat = false ∧ isLowHalf c.toNat = false := by
    have hvalid : c.toNat.isValidChar := c.valid
    unfold Nat.isValidChar at hvalid
    simp only [isHighHalf, isLowHalf, Bool.and_eq_false_iff, decide_eq_false_iff_not]
    omega
  induction cs with
  | nil => rfl
  | cons c cs ih =>
    cases cs with
    | nil => simp [charsOfPoints?, hhalf c]
    | cons d cs =>
      rw [List.map_cons, List.map_cons, charsOfPoints?, ← List.map_cons, ih]
      simp [hhalf c]

/-- **Characters that stand for themselves** in a text. -/
def IsPlain (cs : List Char) : Prop := ∀ c ∈ cs, 0x20 ≤ c.toNat ∧ c ≠ '"' ∧ c ≠ '\\'

instance (cs : List Char) : Decidable (IsPlain cs) := List.decidableBAll _ cs

/-- A text of plain characters is spelled by them. -/
theorem isPoints_of_isPlain {cs : List Char} (h : IsPlain cs) :
    IsPoints cs (cs.map Char.toNat) := by
  induction cs with
  | nil => exact .nil
  | cons c cs ih =>
    obtain ⟨no_control, ne_quote, ne_backslash⟩ := h c List.mem_cons_self
    exact .cons (.plain no_control ne_quote ne_backslash)
      (ih fun d hd => h d (List.mem_cons_of_mem c hd))

/-- **A plain text between quotation marks** stands for itself. -/
theorem isText_of_isPlain {s : String} (h : IsPlain s.toList) :
    IsText ('"' :: (s.toList ++ ['"'])) (some s) := by
  have := IsText.quoted (isPoints_of_isPlain h)
  rw [charsOfPoints?_map_toNat] at this
  rwa [Option.map_some, String.ofList_toList] at this

/-- **A row written line by line** is a row: each element is indented, and a comma ends every
line but the last. -/
theorem exists_spells_intercalate {room : ℕ} {e : Element} (indent : List Char)
    (hindent : IsGap indent) {lines : List (List Char)} {ms : List e.Meaning}
    (h : List.Forall₂ (Spells room (.one e)) lines ms) (hne : lines ≠ []) :
    ∃ row, Spells room (.row e) row ms
      ∧ [',', '\n'].intercalate (lines.map (indent ++ ·)) = indent ++ row := by
  induction h with
  | nil => exact absurd rfl hne
  | @cons line m lines ms spelled others ih =>
    cases others with
    | nil => exact ⟨line, .last spelled, by simp [List.intercalate]⟩
    | cons =>
      obtain ⟨row, hrow, heq⟩ := ih (List.cons_ne_nil _ _)
      have hgap : IsGap ('\n' :: indent) := List.forall_mem_cons.mpr ⟨rfl, hindent⟩
      refine ⟨_, .more spelled isGap_nil hgap hrow, ?_⟩
      rw [List.map_cons] at heq ⊢
      rw [List.map_cons, List.intercalate_cons_cons, heq]
      simp

end JsonValue

/-! ## Plain members -/

/-- **Members that give entries plainly**: where there is a member with the key of an entry it has
the right type, and the entry is its value; where there is none the entry has its initial value. -/
structure Entries.IsPlain (entries : Entries) (members : List (Option String × JsonValue)) :
    Prop where
  decimalPrecision : (member? "decimal_precision" members).getD
    (.integer initial.decimalPrecision) = .integer entries.decimalPrecision
  showUnitSuggestions : (member? "show_unit_suggestions" members).getD
    (.flag initial.showUnitSuggestions) = .flag entries.showUnitSuggestions
  enableHistoryNavigation : (member? "enable_history_navigation" members).getD
    (.flag initial.enableHistoryNavigation) = .flag entries.enableHistoryNavigation
  showInlineResults : (member? "show_inline_results" members).getD
    (.flag initial.showInlineResults) = .flag entries.showInlineResults
  enableCommaFormatting : (member? "enable_comma_formatting" members).getD
    (.flag initial.enableCommaFormatting) = .flag entries.enableCommaFormatting

/-- **A loader that takes plain members as they are**, whatever other members there are. -/
structure Loader.TakesPlain (loader : Loader) : Prop where
  validate_eq : ∀ {members : List (Option String × JsonValue)} {entries : Entries},
    entries.IsPlain members → loader.validate (.object members) = some entries

namespace Lax

/-- An entry whose member is of a form that is read back, or that has none. -/
theorem entry_eq_ok {α : Type} (write : α → JsonValue) {read : JsonValue → Except Problem α}
    (hread : ∀ a, read (write a) = .ok a) {key : String} {initial a : α}
    {members : List (Option String × JsonValue)}
    (h : (member? key members).getD (write initial) = write a) :
    entry members key initial read = .ok a := by
  rw [entry]
  cases hmember : member? key members with
  | none =>
    rw [hmember, Option.getD_none] at h
    exact (hread initial).symm.trans (h ▸ hread a)
  | some v =>
    rw [hmember, Option.getD_some] at h
    exact h ▸ hread a

/-- **The generous loader takes plain members as they are.** -/
theorem takesPlain_loader : loader.TakesPlain := by
  refine ⟨fun {members entries} h => ?_⟩
  have hprecision : entry members "decimal_precision" Entries.initial.decimalPrecision toInteger
      = .ok entries.decimalPrecision := entry_eq_ok .integer (fun _ => rfl) h.decimalPrecision
  have hflag {key : String} {initial b : Bool}
      (h : (member? key members).getD (.flag initial) = .flag b) :
      entry members key initial toFlag = .ok b := entry_eq_ok .flag (fun _ => rfl) h
  show (read (.object members)).toOption = some entries
  rw [read, hprecision, hflag h.showUnitSuggestions, hflag h.enableHistoryNavigation,
    hflag h.showInlineResults, hflag h.enableCommaFormatting]
  rfl

end Lax

/-! ## The file -/

namespace Settings

/-- A member as it is saved. -/
def line (key : String) (value : List Char) : List Char :=
  '"' :: (key.toList ++ ['"']) ++ ([] ++ ':' :: ([' '] ++ value))

/-- A truth value as it is saved. -/
def flagText (b : Bool) : List Char := (if b then "true" else "false").toList

/-- **The members that are saved**, each in its line. -/
def savedLines (settings : Settings) : List (List Char) :=
  [line "decimal_precision" (digitChars settings.decimalPrecision),
    line "show_unit_suggestions" (flagText settings.showUnitSuggestions),
    line "enable_history_navigation" (flagText settings.enableHistoryNavigation),
    line "show_inline_results" (flagText settings.showInlineResults),
    line "enable_comma_formatting" (flagText settings.enableCommaFormatting)]

/-- What the members that are saved mean. -/
def savedMembers (settings : Settings) : List (Option String × JsonValue) :=
  [(some "decimal_precision", .integer settings.decimalPrecision),
    (some "show_unit_suggestions", .flag settings.showUnitSuggestions),
    (some "enable_history_navigation", .flag settings.enableHistoryNavigation),
    (some "show_inline_results", .flag settings.showInlineResults),
    (some "enable_comma_formatting", .flag settings.enableCommaFormatting)]

section Spelling

variable {room : ℕ}

theorem spells_line {key : String} {value : List Char} {v : JsonValue}
    (hkey : IsPlain key.toList) (hvalue : Spells room (.one .value) value v) :
    Spells room (.one .member) (line key value) (some key, v) :=
  .member (isText_of_isPlain hkey) isGap_nil (List.forall_mem_singleton.mpr rfl) hvalue

theorem spells_flagText (b : Bool) : Spells room (.one .value) (flagText b) (.flag b) := by
  cases b with
  | true => exact .word (w := ("true", .flag true)) (by simp [words])
  | false => exact .word (w := ("false", .flag false)) (by simp [words])

theorem spells_digitChars {n : ℕ} (h : (digitChars n).length ≤ maxIntegerDigits) :
    Spells room (.one .value) (digitChars n) (.integer n) := by
  have := @Spells.integer room false _ (isWhole_digitChars n) h
  rwa [digitsValue_digitChars] at this

/-- **Each line spells its member.** -/
theorem forall₂_savedLines (settings : Settings)
    (h : (digitChars settings.decimalPrecision).length ≤ maxIntegerDigits) :
    List.Forall₂ (Spells room (.one .member)) settings.savedLines settings.savedMembers :=
  .cons (spells_line (by decide) (spells_digitChars h)) <|
    .cons (spells_line (by decide) (spells_flagText _)) <|
    .cons (spells_line (by decide) (spells_flagText _)) <|
    .cons (spells_line (by decide) (spells_flagText _)) <|
    .cons (spells_line (by decide) (spells_flagText _)) .nil

end Spelling

/-- **The text of a settings file**, in lines. -/
theorem toList_fileText (settings : Settings) :
    settings.fileText.toList = '\x7b' :: '\n' ::
      ([',', '\n'].intercalate (settings.savedLines.map ("    ".toList ++ ·))
        ++ ['\n', '\x7d']) := by
  rw [fileText]
  simp only [String.toList_append, String.toList_intercalate, List.map_cons, List.map_nil]
  rfl

/-- **A settings file is a document** of the members that are saved, where brackets may be nested at
all. -/
theorem isDocument_fileText (settings : Settings)
    (h : (digitChars settings.decimalPrecision).length ≤ maxIntegerDigits) {room : ℕ}
    (hroom : 0 < room) :
    IsDocument room settings.fileText.toList (.object settings.savedMembers) := by
  obtain ⟨inner, rfl⟩ := Nat.exists_eq_succ_of_ne_zero hroom.ne'
  obtain ⟨row, hrow, heq⟩ := exists_spells_intercalate "    ".toList (by decide)
    (settings.forall₂_savedLines h) (List.cons_ne_nil _ _)
  have hspelled : Spells (inner + 1) (.one .value)
      (Element.member.opener :: ('\n' :: "    ".toList ++ (row ++ (['\n'] ++ ['\x7d']))))
      (.object settings.savedMembers) :=
    .enclosed (by decide) hrow (by decide)
  refine ⟨[], _, [], ?_, isGap_nil, isGap_nil, hspelled⟩
  rw [toList_fileText, heq]
  simp [Element.opener]

/-- The entries of settings. -/
def entries (settings : Settings) : Entries where
  decimalPrecision := settings.decimalPrecision
  showUnitSuggestions := settings.showUnitSuggestions
  enableHistoryNavigation := settings.enableHistoryNavigation
  showInlineResults := settings.showInlineResults
  enableCommaFormatting := settings.enableCommaFormatting

/-- **The members that are saved** give the entries of the settings plainly. -/
theorem isPlain_savedMembers (settings : Settings) :
    settings.entries.IsPlain settings.savedMembers := ⟨rfl, rfl, rfl, rfl, rfl⟩

theorem settings?_entries (settings : Settings) : settings.entries.settings? = some settings := by
  rw [Entries.settings?]
  exact if_neg (Int.not_lt.mpr (Int.natCast_nonneg _))

variable {loader : Loader}

/-- **A saved file holds the settings it was saved from.** -/
theorem holdsSettings_fileOctets (hloader : loader.TakesPlain) (settings : Settings)
    (h : (digitChars settings.decimalPrecision).length ≤ maxIntegerDigits) :
    (Storage.file settings.fileOctets).HoldsSettings loader settings :=
  ⟨_, _, settings.entries, rfl, settings.isDocument_fileText h loader.nesting_pos,
    hloader.validate_eq settings.isPlain_savedMembers, settings.settings?_entries⟩

/-- **Settings that are saved are loaded again**, wherever a file can be written and by any loader
that takes plain members as they are: whatever the flags are, and whatever the precision is as long
as it has no more digits than are read. So is the file that loading itself writes where nothing
is. -/
theorem load_save (hloader : loader.TakesPlain) (settings : Settings)
    (h : (digitChars settings.decimalPrecision).length ≤ maxIntegerDigits) :
    (∀ storage : Storage, storage ≠ .directory → storage ≠ .blocked →
      ∃ saved, settings.save storage = some saved
        ∧ load loader saved = ⟨.ok settings, [logged .info], saved⟩)
    ∧ (load loader (load loader .missing).storage).result = (load loader .missing).result := by
  have hload := load_of_holdsSettings (settings.holdsSettings_fileOctets hloader h)
  refine ⟨fun storage hdirectory hblocked => ⟨.file settings.fileOctets, ?_, hload⟩, ?_⟩
  · cases storage with
    | file | missing => rfl
    | directory => exact absurd rfl hdirectory
    | blocked => exact absurd rfl hblocked
  · show (load loader (.file initial.fileOctets)).result = .ok initial
    rw [load_of_holdsSettings (initial.holdsSettings_fileOctets hloader (by decide))]

/-- A precision of a hundred digits, and no commas, saved where nothing was. -/
theorem load_save_hundred_digits :
    let settings : Settings := { decimalPrecision := 100, enableCommaFormatting := false }
    Lax.loader.TakesPlain ∧ (digitChars settings.decimalPrecision).length ≤ maxIntegerDigits
      ∧ ∃ saved, settings.save .missing = some saved
        ∧ load Lax.loader saved = ⟨.ok settings, [logged .info], saved⟩ := by
  intro settings
  have h : (digitChars settings.decimalPrecision).length ≤ maxIntegerDigits := by decide
  exact ⟨Lax.takesPlain_loader, h,
    (load_save Lax.takesPlain_loader settings h).1 .missing nofun nofun⟩

end Settings

end Reckoner
