import Reckoner.Text.Utf8

/-!
# Reading octets is the inverse of encoding

A character is an opening octet followed by octets of six bits each (`lastOctets`). What is owed
after the opening octet describes the code points that may follow: their highest bits are those
already read, and the next six lie in a range (`Owed.Admits`). Reading on from there is reading
the last octets of one of these code points (`mapM_readFrom_some`).

Octets that open a character of several come in seven ranges (`opening`). For each of them the
admitted code points are exactly the characters that begin with that octet
(`admits_iff_of_opening`), so a text is the reading of its own octets and of no others
(`decode?_eq_some_iff`).
-/

namespace Reckoner.Text.Utf8

-- Powers are those of the core library, also where an algebra library is imported.
attribute [local instance (high)] instPowNat

/-! ## What is owed -/

/-- The last `count` octets of a code point: six bits each, the highest first. -/
def lastOctets (n : Nat) : Nat → List UInt8
  | 0 => []
  | count + 1 => UInt8.ofNat (0x80 + n / 64 ^ count % 64) :: lastOctets n count

/-- **The code points that may complete what is owed.** -/
structure Owed.Admits (owed : Owed) (n : Nat) : Prop where
  value : n / 64 ^ owed.count = owed.value
  low_le : owed.low ≤ 0x80 + n / 64 ^ (owed.count - 1) % 64
  le_high : 0x80 + n / 64 ^ (owed.count - 1) % 64 ≤ owed.high

/-- At least one octet is owed, and the next one has six bits of its own. -/
structure Owed.IsProper (owed : Owed) : Prop where
  one_le : 1 ≤ owed.count
  le_low : 0x80 ≤ owed.low
  high_le : owed.high ≤ 0xBF

theorem mapM_none_cons (reading : List (Option Char)) : (none :: reading).mapM id = none := by
  rw [List.mapM_cons]
  rfl

theorem mapM_some_cons (c : Char) (reading : List (Option Char)) :
    (some c :: reading).mapM id = (reading.mapM id).map (c :: ·) := by
  rw [List.mapM_cons]
  cases reading.mapM id <;> rfl

/-- The reading of octets after `count` more are owed, from anywhere in their range. -/
def readOwed (count value : Nat) (octets : List UInt8) : List (Option Char) :=
  if count = 0 then some (Char.ofNat value) :: readFrom none octets
  else readFrom (some ⟨count, 0x80, 0xBF, value⟩) octets

/-- An octet that does not fit ends the reading of a text. -/
theorem mapM_readFrom_of_not_fits {owed : Owed} {octet : UInt8} (octets : List UInt8)
    (h : ¬ (owed.low ≤ octet.toNat ∧ octet.toNat ≤ owed.high)) :
    (readFrom (some owed) (octet :: octets)).mapM id = none := by
  have hfits : (owed.low ≤ octet.toNat && octet.toNat ≤ owed.high : Bool) = false := by
    simpa using h
  rw [readFrom, hfits]
  cases opening octet.toNat <;> exact mapM_none_cons _

/-- An octet that fits adds its six bits. -/
theorem readFrom_of_fits {owed : Owed} {octet : UInt8} {k : Nat} (hk : owed.count = k + 1)
    (octets : List UInt8) (h : owed.low ≤ octet.toNat ∧ octet.toNat ≤ owed.high) :
    readFrom (some owed) (octet :: octets)
      = readOwed k (owed.value * 64 + octet.toNat % 64) octets := by
  have hfits : (owed.low ≤ octet.toNat && octet.toNat ≤ owed.high : Bool) = true := by
    simpa using h
  rw [readFrom, hfits, hk]
  cases k <;> rfl

theorem toNat_lastOctet (n k : Nat) :
    (UInt8.ofNat (0x80 + n / 64 ^ k % 64)).toNat = 0x80 + n / 64 ^ k % 64 := by
  rw [UInt8.toNat_ofNat']
  omega

/-- **The code points that are admitted** split by their next six bits, which are those
of the next octet. -/
theorem Owed.admits_iff {owed : Owed} (howed : owed.IsProper) {n k : Nat} {octet : UInt8}
    (hk : owed.count = k + 1) :
    owed.Admits n ∧ octet = UInt8.ofNat (0x80 + n / 64 ^ k % 64)
      ↔ (owed.low ≤ octet.toNat ∧ octet.toNat ≤ owed.high)
        ∧ n / 64 ^ k = owed.value * 64 + octet.toNat % 64 := by
  have hlow := howed.le_low
  have hhigh := howed.high_le
  have hdiv : n / 64 ^ owed.count = n / 64 ^ k / 64 := by
    rw [hk, Nat.pow_succ, Nat.div_div_eq_div_mul]
  constructor
  · rintro ⟨⟨hvalue, hle, hge⟩, rfl⟩
    rw [hk, Nat.add_sub_cancel] at hle hge
    rw [toNat_lastOctet]
    exact ⟨⟨hle, hge⟩, by omega⟩
  · rintro ⟨⟨hle, hge⟩, hvalue⟩
    have hoctet : octet.toNat = 0x80 + n / 64 ^ k % 64 := by omega
    refine ⟨⟨by omega, ?_, ?_⟩, by rw [← hoctet, UInt8.ofNat_toNat]⟩
    all_goals
      rw [hk, Nat.add_sub_cancel]
      omega

/-- What is read when the code points with given highest bits are to follow. -/
def ReadsOn (count : Nat) : Prop :=
  ∀ {value octets cs}, (readOwed count value octets).mapM id = some cs ↔
    ∃ n rest after, n / 64 ^ count = value ∧ octets = lastOctets n count ++ rest
      ∧ decode? rest = some after ∧ cs = Char.ofNat n :: after

/-- One octet is read, and then the others. -/
theorem ReadsOn.mapM_readFrom_some {k : Nat} (h : ReadsOn k) {owed : Owed}
    (howed : owed.IsProper) (hk : owed.count = k + 1) {octets : List UInt8} {cs : List Char} :
    (readFrom (some owed) octets).mapM id = some cs ↔ ∃ n rest after, owed.Admits n
      ∧ octets = lastOctets n owed.count ++ rest ∧ decode? rest = some after
      ∧ cs = Char.ofNat n :: after := by
  rw [hk]
  cases octets with
  | nil => simp [readFrom, lastOctets]
  | cons octet octets =>
    constructor
    · intro hread
      by_cases hfits : owed.low ≤ octet.toNat ∧ octet.toNat ≤ owed.high
      · rw [readFrom_of_fits hk octets hfits, h] at hread
        obtain ⟨n, rest, after, hvalue, rfl, hrest, rfl⟩ := hread
        obtain ⟨hadmits, rfl⟩ := (Owed.admits_iff howed hk).mpr ⟨hfits, hvalue⟩
        exact ⟨n, rest, after, hadmits, rfl, hrest, rfl⟩
      · rw [mapM_readFrom_of_not_fits octets hfits] at hread
        cases hread
    · rintro ⟨n, rest, after, hadmits, heq, hrest, rfl⟩
      obtain ⟨hoctet, rfl⟩ := List.cons.inj heq
      obtain ⟨hfits, hvalue⟩ := (Owed.admits_iff howed hk).mp ⟨hadmits, hoctet⟩
      rw [readFrom_of_fits hk _ hfits, h]
      exact ⟨n, rest, after, hvalue, rfl, hrest, rfl⟩

theorem readsOn (count : Nat) : ReadsOn count := by
  induction count with
  | zero =>
    intro value octets cs
    show (some (Char.ofNat value) :: readFrom none octets).mapM id = some cs ↔ _
    rw [mapM_some_cons, Option.map_eq_some_iff]
    simp [decode?, read, lastOctets, eq_comm]
  | succ k ih =>
    intro value octets cs
    have howed : Owed.IsProper ⟨k + 1, 0x80, 0xBF, value⟩ :=
      ⟨Nat.le_add_left _ _, Nat.le_refl _, Nat.le_refl _⟩
    show (readFrom (some ⟨k + 1, 0x80, 0xBF, value⟩) octets).mapM id = some cs ↔ _
    rw [ih.mapM_readFrom_some howed rfl]
    -- six bits lie in the whole range
    have hadmits (n : Nat) :
        Owed.Admits ⟨k + 1, 0x80, 0xBF, value⟩ n ↔ n / 64 ^ (k + 1) = value := by
      refine ⟨fun h => h.value, fun h => ⟨h, Nat.le_add_right _ _, ?_⟩⟩
      show 0x80 + n / 64 ^ k % 64 ≤ 0xBF
      omega
    simp only [hadmits]

/-- **Reading on** is reading the last octets of a code point that is admitted. -/
theorem mapM_readFrom_some {owed : Owed} (howed : owed.IsProper) {octets : List UInt8}
    {cs : List Char} :
    (readFrom (some owed) octets).mapM id = some cs ↔ ∃ n rest after, owed.Admits n
      ∧ octets = lastOctets n owed.count ++ rest ∧ decode? rest = some after
      ∧ cs = Char.ofNat n :: after :=
  ReadsOn.mapM_readFrom_some (readsOn _) howed (Nat.sub_add_cancel howed.one_le).symm

/-! ## Opening octets -/

/-- The code points with a given number of octets after the first. -/
def HasLastOctets (n : Nat) : Nat → Prop
  | 1 => 0x80 ≤ n ∧ n < 0x800
  | 2 => 0x800 ≤ n ∧ n < 0x10000
  | 3 => 0x10000 ≤ n ∧ n < 0x110000
  | _ => False

/-- The first octet of a code point, given the number of octets after it. -/
def firstOctet (n : Nat) : Nat → Nat
  | 1 => 0xC0 + n / 64
  | 2 => 0xE0 + n / 64 ^ (2 : Nat)
  | _ => 0xF0 + n / 64 ^ (3 : Nat)

/-- A character of the first 128 is its own octet. -/
theorem encodeChar_of_lt {c : Char} (h : c.toNat < 0x80) :
    encodeChar c = [UInt8.ofNat c.toNat] := by
  rw [encodeChar]
  dsimp only
  rw [if_pos h]
  rfl

/-- **Any other character** has a first octet and the octets of its last bits. -/
theorem encodeChar_of_hasLastOctets {c : Char} {count : Nat} (h : HasLastOctets c.toNat count) :
    encodeChar c = UInt8.ofNat (firstOctet c.toNat count) :: lastOctets c.toNat count := by
  rw [encodeChar]
  dsimp only
  match count, h with
  | 1, h =>
    rw [if_neg (Nat.not_lt.mpr h.1), if_pos h.2]
    rfl
  | 2, h =>
    obtain ⟨hle, hlt⟩ := h
    rw [if_neg (by omega), if_neg (by omega), if_pos hlt]
    rfl
  | 3, h =>
    obtain ⟨hle, hlt⟩ := h
    rw [if_neg (by omega), if_neg (by omega), if_neg (by omega)]
    rfl

/-- Every character above the first 128 has one to three octets after the first. -/
theorem exists_hasLastOctets {n : Nat} (hle : 0x80 ≤ n) (hvalid : n.isValidChar) :
    ∃ count, HasLastOctets n count := by
  have hlt : n < 0x110000 := by
    unfold Nat.isValidChar at hvalid
    omega
  by_cases h1 : n < 0x800
  · exact ⟨1, hle, h1⟩
  by_cases h2 : n < 0x10000
  · exact ⟨2, Nat.not_lt.mp h1, h2⟩
  · exact ⟨3, Nat.not_lt.mp h2, hlt⟩

/-- **What is owed after an opening octet** is proper, and it admits the characters that
begin with this octet. -/
theorem admits_iff_of_opening {o : Nat} {owed : Owed} (ho : o < 256)
    (h : opening o = .more owed) :
    owed.IsProper ∧ ∀ n, owed.Admits n ↔
      n.isValidChar ∧ HasLastOctets n owed.count ∧ o = firstOctet n owed.count := by
  -- the ranges of opening octets are left, each with its own bounds on the next octet
  unfold opening at h
  repeat' split at h
  all_goals cases h
  all_goals refine ⟨⟨by simp, by simp, by simp⟩, fun n =>
    ⟨fun ⟨hvalue, hle, hge⟩ => ?_, fun ⟨hvalid, hcount, hfirst⟩ => ⟨?_, ?_, ?_⟩⟩⟩
  all_goals dsimp only at *
  all_goals simp only [Nat.isValidChar, HasLastOctets, firstOctet, Nat.reducePow, Nat.reduceSub,
    Nat.div_one] at *
  all_goals omega

/-- The first octet tells how many others follow. -/
theorem firstOctet_mem {n count : Nat} (h : HasLastOctets n count) :
    (count = 1 ∧ 0xC2 ≤ firstOctet n count ∧ firstOctet n count < 0xE0)
      ∨ (count = 2 ∧ 0xE0 ≤ firstOctet n count ∧ firstOctet n count < 0xF0)
      ∨ (count = 3 ∧ 0xF0 ≤ firstOctet n count ∧ firstOctet n count < 0xF5) := by
  match count, h with
  | 1, ⟨hle, hlt⟩ => exact .inl ⟨rfl, by simp only [firstOctet]; omega⟩
  | 2, ⟨hle, hlt⟩ => exact .inr (.inl ⟨rfl, by simp only [firstOctet]; omega⟩)
  | 3, ⟨hle, hlt⟩ => exact .inr (.inr ⟨rfl, by simp only [firstOctet]; omega⟩)

/-- The first octet of a code point opens a character. -/
theorem exists_opening {n count : Nat} (h : HasLastOctets n count) :
    ∃ owed, opening (firstOctet n count) = .more owed ∧ owed.count = count := by
  have hmem := firstOctet_mem h
  generalize firstOctet n count = o at hmem
  unfold opening
  repeat' split
  all_goals first | omega | exact ⟨_, rfl, by dsimp only; omega⟩

/-! ## Texts -/

/-- A character of the first 128 is read by itself. -/
theorem decode?_cons_of_lt {octet : UInt8} (h : octet.toNat < 0x80) (octets : List UInt8) :
    decode? (octet :: octets) = (decode? octets).map (Char.ofNat octet.toNat :: ·) := by
  rw [decode?, read, readFrom, opening, if_pos h]
  exact mapM_some_cons _ _

/-- After an opening octet the reading goes on. -/
theorem decode?_cons_of_opening {octet : UInt8} {owed : Owed}
    (h : opening octet.toNat = .more owed) (octets : List UInt8) :
    decode? (octet :: octets) = (readFrom (some owed) octets).mapM id := by
  rw [decode?, read, readFrom, h]
  rfl

/-- **Encoding a text and reading it gives the text.** -/
theorem decode?_encode (cs : List Char) : decode? (encode cs) = some cs := by
  induction cs with
  | nil => rfl
  | cons c cs ih =>
    rw [encode, List.flatMap_cons, ← encode]
    rcases Nat.lt_or_ge c.toNat 0x80 with hlt | hge
    · have hoctet : (UInt8.ofNat c.toNat).toNat = c.toNat := by
        rw [UInt8.toNat_ofNat']
        omega
      rw [encodeChar_of_lt hlt, List.singleton_append,
        decode?_cons_of_lt (by rw [hoctet]; exact hlt), ih, hoctet, Char.ofNat_toNat]
      rfl
    · have hvalid : c.toNat.isValidChar := c.valid
      obtain ⟨count, hcount⟩ := exists_hasLastOctets hge hvalid
      obtain ⟨owed, hopening, rfl⟩ := exists_opening hcount
      have hoctet : (UInt8.ofNat (firstOctet c.toNat owed.count)).toNat
          = firstOctet c.toNat owed.count := by
        have := firstOctet_mem hcount
        rw [UInt8.toNat_ofNat']
        omega
      obtain ⟨howed, hadmits⟩ := admits_iff_of_opening (by have := firstOctet_mem hcount; omega)
        hopening
      rw [encodeChar_of_hasLastOctets hcount, List.cons_append,
        decode?_cons_of_opening (by rw [hoctet]; exact hopening), mapM_readFrom_some howed]
      exact ⟨_, _, cs, (hadmits _).mpr ⟨hvalid, hcount, rfl⟩, rfl, ih, by rw [Char.ofNat_toNat]⟩

theorem toNat_ofNat {n : Nat} (h : n.isValidChar) : (Char.ofNat n).toNat = n := by
  rw [Char.ofNat, dif_pos h]
  rfl

/-- From 128 on no octet is a character by itself. -/
theorem opening_ne_char {o : Nat} (h : 0x80 ≤ o) (c : Char) : opening o ≠ .char c := by
  unfold opening
  rw [if_neg (Nat.not_lt.mpr h)]
  repeat' split
  all_goals exact nofun

/-- **Only the octets of a text are read as that text.** -/
theorem encode_of_decode? {octets : List UInt8} {cs : List Char}
    (h : decode? octets = some cs) : encode cs = octets := by
  match octets with
  | [] =>
    obtain rfl : [] = cs := Option.some.inj h
    rfl
  | octet :: octets =>
    have ho := octet.toNat_lt
    rcases Nat.lt_or_ge octet.toNat 0x80 with hlt | hge
    · rw [decode?_cons_of_lt hlt, Option.map_eq_some_iff] at h
      obtain ⟨after, hafter, rfl⟩ := h
      have hvalue : (Char.ofNat octet.toNat).toNat = octet.toNat :=
        toNat_ofNat (.inl (by omega))
      rw [encode, List.flatMap_cons, ← encode, encode_of_decode? hafter,
        encodeChar_of_lt (by rw [hvalue]; exact hlt), hvalue, UInt8.ofNat_toNat,
        List.singleton_append]
    · cases hopening : opening octet.toNat with
      | char c => exact absurd hopening (opening_ne_char hge c)
      | invalid =>
        rw [decode?, read, readFrom, hopening] at h
        exact absurd ((mapM_none_cons _).symm.trans h) nofun
      | more owed =>
        rw [decode?_cons_of_opening hopening] at h
        obtain ⟨howed, hadmits⟩ := admits_iff_of_opening ho hopening
        obtain ⟨n, rest, after, hn, rfl, hrest, rfl⟩ := (mapM_readFrom_some howed).mp h
        obtain ⟨hvalid, hcount, hfirst⟩ := (hadmits n).mp hn
        have hvalue : (Char.ofNat n).toNat = n := toNat_ofNat hvalid
        rw [encode, List.flatMap_cons, ← encode, encode_of_decode? hrest,
          encodeChar_of_hasLastOctets (hvalue.symm ▸ hcount), hvalue, ← hfirst,
          UInt8.ofNat_toNat, List.cons_append]
termination_by octets.length

/-- **A text is the reading of its own octets** and of no others. -/
theorem decode?_eq_some_iff {octets : List UInt8} {cs : List Char} :
    decode? octets = some cs ↔ encode cs = octets :=
  ⟨encode_of_decode?, fun h => h ▸ decode?_encode cs⟩

end Reckoner.Text.Utf8
