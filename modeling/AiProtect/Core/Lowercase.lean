import AiProtect.Core.Text

/-! # Lowercasing and ASCII letters

What lowercasing makes of two texts that differ in the case of ASCII letters, whatever
else they contain. The only character whose lowercase form depends on its neighbours is
the capital sigma, and neither of its two forms is ASCII.
-/

namespace AiProtect

/-- Two texts that differ in the case of ASCII letters at most. -/
def SameButCase (text other : String) : Prop :=
  text.toList.map Char.toLower = other.toList.map Char.toLower

instance (text other : String) : Decidable (SameButCase text other) :=
  inferInstanceAs (Decidable (_ = _))

def IsAscii (text : String) : Prop := text.toList.all fun char => char.toNat < 128

instance (text : String) : Decidable (IsAscii text) := inferInstanceAs (Decidable (_ = _))

theorem toNat_toLower (char : Char) :
    char.toLower.toNat = if 65 ≤ char.toNat ∧ char.toNat ≤ 90 then char.toNat + 32 else char.toNat := by
  have upper : (char.val ≥ 'A'.val ∧ char.val ≤ 'Z'.val) ↔ (65 ≤ char.toNat ∧ char.toNat ≤ 90) := by
    simp only [ge_iff_le, UInt32.le_iff_toNat_le]
    rfl
  unfold Char.toLower
  by_cases letter : 65 ≤ char.toNat ∧ char.toNat ≤ 90
  · rw [dif_pos (upper.mpr letter), if_pos letter]
    have sum : (char.val + 32).toNat = (char.val.toNat + 32) % 2 ^ 32 := UInt32.toNat_add _ _
    have small : char.val.toNat ≤ 90 := letter.2
    calc (char.val + 32).toNat = (char.val.toNat + 32) % 2 ^ 32 := sum
      _ = char.val.toNat + 32 := Nat.mod_eq_of_lt (by omega)
  · rw [dif_neg fun inside => letter (upper.mp inside), if_neg letter]

theorem toLower_eq_self {char : Char} (other : ¬ (65 ≤ char.toNat ∧ char.toNat ≤ 90)) :
    char.toLower = char := by
  apply Char.toNat_inj.mp
  rw [toNat_toLower, if_neg other]

/-- Only a character itself is lowercased to one that is no ASCII lowercase letter. -/
theorem toLower_eq_iff {char mark : Char} (other : mark.toNat < 65 ∨ 122 < mark.toNat) :
    char.toLower = mark ↔ char = mark := by
  rw [← Char.toNat_inj, ← Char.toNat_inj, toNat_toLower]
  split <;> omega

theorem lt_of_toLower_eq {char other : Char} (same : char.toLower = other.toLower)
    (ascii : char.toNat < 128) : other.toNat < 128 := by
  have codes := Char.toNat_inj.mpr same
  rw [toNat_toLower, toNat_toLower] at codes
  split at codes <;> split at codes <;> omega

theorem SameButCase.symm {text other : String} (same : SameButCase text other) : SameButCase other text :=
  Eq.symm same

/-- The text before a separator that is no letter has the case differences of the whole. -/
theorem SameButCase.splitFirst {text other : String} (same : SameButCase text other) (separator : Char)
    (mark : separator.toNat < 65 ∨ 122 < separator.toNat) :
    SameButCase (splitFirst separator text) (splitFirst separator other) := by
  have before : ∀ chars : List Char, (chars.takeWhile fun char => char ≠ separator).map Char.toLower =
      (chars.map Char.toLower).takeWhile fun char => char ≠ separator := by
    intro chars
    rw [List.takeWhile_map]
    have test : (fun char : Char => decide (char ≠ separator)) =
        (fun char => decide (char ≠ separator)) ∘ Char.toLower := by
      funext char
      exact decide_eq_decide.mpr (not_congr (toLower_eq_iff mark).symm)
    rw [← test]
  unfold SameButCase at same
  simp only [SameButCase, AiProtect.splitFirst, String.toList_ofList, before, same]

namespace Unicode

variable {unicode : Unicode}

theorem lowerChar_congr {char other : Char} (same : char.toLower = other.toLower) :
    unicode.lowerChar char = unicode.lowerChar other := by
  unfold lowerChar
  by_cases ascii : char.toNat < 128
  · rw [if_pos ascii, if_pos (lt_of_toLower_eq same ascii), same]
  · have nonAscii : ¬ other.toNat < 128 := fun small => ascii (lt_of_toLower_eq same.symm small)
    have equal : char = other := by
      rwa [toLower_eq_self (by omega), toLower_eq_self (by omega)] at same
    rw [equal]

/-- Without a capital sigma, every character is lowercased on its own. -/
theorem lowerChars_eq_flatMap {text : List Char} (plain : 'Σ' ∉ text) (before : List Char) :
    unicode.lowerChars before text = text.flatMap unicode.lowerChar := by
  induction text generalizing before with
  | nil => rfl
  | cons char rest ih =>
      have other : ¬ char = 'Σ' := fun same => plain (same ▸ List.mem_cons_self)
      have later : 'Σ' ∉ rest := fun member => plain (List.mem_cons_of_mem _ member)
      simp only [lowerChars, if_neg other, ih later, List.flatMap_cons]

/-- A capital sigma leaves a character outside ASCII. -/
theorem lowerChars_sigma {text : List Char} (sigma : 'Σ' ∈ text) (before : List Char) :
    ∃ char ∈ unicode.lowerChars before text, ¬ char.toNat < 128 := by
  induction text generalizing before with
  | nil => cases sigma
  | cons char rest ih =>
      by_cases here : char = 'Σ'
      · refine ⟨unicode.lowerSigma before rest, ?_, ?_⟩
        · simp only [lowerChars, if_pos here, List.singleton_append, List.mem_cons, true_or]
        · unfold lowerSigma
          split <;> decide
      · have later : 'Σ' ∈ rest := (List.mem_cons.mp sigma).resolve_left (Ne.symm here)
        obtain ⟨found, member, outside⟩ := ih later (char :: before)
        refine ⟨found, ?_, outside⟩
        simp only [lowerChars, List.mem_append, member, or_true]

theorem sigma_mem_of_sameButCase {text other : List Char}
    (same : text.map Char.toLower = other.map Char.toLower) (sigma : 'Σ' ∈ text) : 'Σ' ∈ other := by
  have image : 'Σ' ∈ other.map Char.toLower := by
    rw [← same]
    exact List.mem_map.mpr ⟨'Σ', sigma, by decide⟩
  obtain ⟨char, member, lowered⟩ := List.mem_map.mp image
  rwa [(toLower_eq_iff (by decide)).mp lowered] at member

theorem flatMap_lowerChar_congr {text other : List Char}
    (same : text.map Char.toLower = other.map Char.toLower) :
    text.flatMap unicode.lowerChar = other.flatMap unicode.lowerChar := by
  induction text generalizing other with
  | nil =>
      cases other with
      | nil => rfl
      | cons _ _ => cases same
  | cons char rest ih =>
      cases other with
      | nil => cases same
      | cons char' rest' =>
          rw [List.map_cons, List.map_cons, List.cons.injEq] at same
          rw [List.flatMap_cons, List.flatMap_cons, lowerChar_congr same.1, ih same.2]

theorem toLowercase_eq_of_sameButCase {text other target : String} (same : SameButCase text other)
    (ascii : IsAscii target) (lowered : unicode.toLowercase text = target) :
    unicode.toLowercase other = target := by
  by_cases sigma : 'Σ' ∈ text.toList
  · obtain ⟨char, member, outside⟩ : ∃ char ∈ unicode.lowerChars [] text.toList, ¬ char.toNat < 128 :=
      lowerChars_sigma sigma []
    have inside : char ∈ target.toList := by
      rwa [← lowered, toLowercase, String.toList_ofList]
    exact absurd (of_decide_eq_true (List.all_eq_true.mp ascii char inside)) outside
  · have plain : 'Σ' ∉ other.toList := fun member => sigma (sigma_mem_of_sameButCase (Eq.symm same) member)
    rw [← lowered, toLowercase, toLowercase, lowerChars_eq_flatMap plain, lowerChars_eq_flatMap sigma,
      flatMap_lowerChar_congr same]

/-- Whether a text is lowercased to a given ASCII text does not depend on the case of its
    ASCII letters. -/
theorem toLowercase_eq_iff {text other target : String} (same : SameButCase text other)
    (ascii : IsAscii target) :
    unicode.toLowercase text = target ↔ unicode.toLowercase other = target :=
  ⟨toLowercase_eq_of_sameButCase same ascii, toLowercase_eq_of_sameButCase same.symm ascii⟩

theorem toLowercase_eq_self {text : String}
    (lower : text.toList.all fun char => char.toNat < 128 && char.toLower == char) :
    unicode.toLowercase text = text := by
  have each : ∀ char ∈ text.toList, char.toNat < 128 ∧ char.toLower = char := by
    intro char member
    simpa using List.all_eq_true.mp lower char member
  have plain : 'Σ' ∉ text.toList := fun member => absurd (each _ member).1 (by decide)
  have same : text.toList.flatMap unicode.lowerChar = text.toList := by
    have single : text.toList.map unicode.lowerChar = text.toList.map fun char => [char] := by
      apply List.map_congr_left
      intro char member
      rw [lowerChar, if_pos (each char member).1, (each char member).2]
    rw [List.flatMap_def, single, ← List.flatMap_def]
    exact List.flatMap_singleton' text.toList
  rw [toLowercase, lowerChars_eq_flatMap plain, same, String.ofList_toList]

/-- What the Unicode tables say about ASCII letters: the two cases of a letter are cased
    and ignorable alike, and nothing is lowercased to an ASCII capital. -/
structure Standard (unicode : Unicode) : Prop where
  cased : ∀ char, char.toNat < 128 → unicode.cased char.toLower = unicode.cased char
  caseIgnorable : ∀ char, char.toNat < 128 → unicode.caseIgnorable char.toLower = unicode.caseIgnorable char
  lower : ∀ char, ¬ char.toNat < 128 → ∀ lowered ∈ unicode.lower char,
    ¬ (65 ≤ lowered.toNat ∧ lowered.toNat ≤ 90)

theorem Standard.cased_toLower (standard : unicode.Standard) (char : Char) :
    unicode.cased char.toLower = unicode.cased char := by
  by_cases ascii : char.toNat < 128
  · exact standard.cased char ascii
  · rw [toLower_eq_self (by omega)]

theorem Standard.caseIgnorable_toLower (standard : unicode.Standard) (char : Char) :
    unicode.caseIgnorable char.toLower = unicode.caseIgnorable char := by
  by_cases ascii : char.toNat < 128
  · exact standard.caseIgnorable char ascii
  · rw [toLower_eq_self (by omega)]

/-- What a capital sigma sees around it does not depend on the case of ASCII letters. -/
theorem Standard.ignorableThenCased_congr (standard : unicode.Standard) {chars others : List Char}
    (same : chars.map Char.toLower = others.map Char.toLower) :
    unicode.ignorableThenCased chars = unicode.ignorableThenCased others := by
  induction chars generalizing others with
  | nil =>
      cases others with
      | nil => rfl
      | cons _ _ => cases same
  | cons char rest ih =>
      cases others with
      | nil => cases same
      | cons other otherRest =>
          obtain ⟨heads, tails⟩ := List.cons.inj same
          have ignorable : unicode.caseIgnorable char = unicode.caseIgnorable other := by
            rw [← standard.caseIgnorable_toLower char, heads, standard.caseIgnorable_toLower]
          have cased : unicode.cased char = unicode.cased other := by
            rw [← standard.cased_toLower char, heads, standard.cased_toLower]
          have later := ih tails
          unfold ignorableThenCased at later ⊢
          simp only [List.dropWhile_cons, ignorable]
          split
          · exact later
          · simp only [List.head?_cons, Option.any_some, cased]

theorem Standard.lowerChars_congr (standard : unicode.Standard) {text other before otherBefore : List Char}
    (same : text.map Char.toLower = other.map Char.toLower)
    (sameBefore : before.map Char.toLower = otherBefore.map Char.toLower) :
    unicode.lowerChars before text = unicode.lowerChars otherBefore other := by
  induction text generalizing other before otherBefore with
  | nil =>
      cases other with
      | nil => rfl
      | cons _ _ => cases same
  | cons char rest ih =>
      cases other with
      | nil => cases same
      | cons char' rest' =>
          obtain ⟨heads, tails⟩ := List.cons.inj same
          have later : unicode.lowerChars (char :: before) rest = unicode.lowerChars (char' :: otherBefore) rest' :=
            ih tails (by rw [List.map_cons, List.map_cons, heads, sameBefore])
          have sigma : char = 'Σ' ↔ char' = 'Σ' := by
            have lowered : char.toLower = 'Σ' ↔ char = 'Σ' := toLower_eq_iff (by decide)
            have lowered' : char'.toLower = 'Σ' ↔ char' = 'Σ' := toLower_eq_iff (by decide)
            rw [← lowered, heads, lowered']
          simp only [lowerChars, later, sigma, lowerSigma, standard.ignorableThenCased_congr tails,
            standard.ignorableThenCased_congr sameBefore, lowerChar_congr heads]

/-- Texts that differ in the case of ASCII letters have the same lowercase form. -/
theorem Standard.toLowercase_congr (standard : unicode.Standard) {text other : String}
    (same : SameButCase text other) : unicode.toLowercase text = unicode.toLowercase other :=
  congrArg String.ofList (standard.lowerChars_congr same rfl)

/-- No ASCII capital is left. -/
theorem Standard.not_capital (standard : unicode.Standard) {text before : List Char} {char : Char}
    (member : char ∈ unicode.lowerChars before text) : ¬ (65 ≤ char.toNat ∧ char.toNat ≤ 90) := by
  induction text generalizing before with
  | nil => cases member
  | cons first rest ih =>
      rw [lowerChars, List.mem_append] at member
      rcases member with here | later
      · split at here
        · rw [List.mem_singleton.mp here, lowerSigma]
          split <;> decide
        · unfold lowerChar at here
          split at here
          · rw [List.mem_singleton.mp here, toNat_toLower]
            split <;> omega
          · rename_i outside
            exact standard.lower first outside char here
      · exact ih later

end Unicode

end AiProtect
