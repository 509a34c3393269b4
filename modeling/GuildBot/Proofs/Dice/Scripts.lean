import GuildBot.Bot.Directory
import GuildBot.Listener.Dice
import GuildBot.Proofs.Dice.Judgement
import Mathlib.Data.List.Basic

/-!
# Digits of other scripts

A roll may be written in the digits of any script, but numbers are only read in those of ASCII. A
number with any other digit counts as one too great to be read, whatever it is.
-/

namespace GuildBot.Dice

open Directory Listener

/-- Digits of any scripts, and at least one. -/
structure AreDigits (cs : List Char) : Prop where
  nonempty : cs ≠ []
  digits : ∀ c ∈ cs, Text.isDigit c = true

def value (digits : List Char) : Nat :=
  digits.foldl (fun n c => 10 * n + (Text.digitValue? c).getD 0) 0

private theorem value_eq_number {digits : List Char} (h : ∀ c ∈ digits, c.isDigit = true) :
    value digits = number digits :=
  List.foldl_ext _ _ 0 fun n c hc => by rw [Text.digitValue?_of_isDigit (h c hc), Option.getD_some]

private theorem count_of_other_script {digits : List Char} (hother : ∃ c ∈ digits, c.isDigit = false) :
    count digits = Text.max32 := by
  have hnone : Text.digits? digits = none := by
    apply Option.eq_none_iff_forall_ne_some.2
    intro n hread
    obtain ⟨c, hc, hscript⟩ := hother
    have hascii := (Text.digits?_eq_some_iff.1 hread).2.1 c hc
    rw [hscript] at hascii
    cases hascii
  rw [count, hnone]
  rfl

namespace AreDigits

variable {digits : List Char} (h : AreDigits digits)

include h

private theorem count_of_ascii (hascii : ∀ c ∈ digits, c.isDigit = true) :
    count digits = min (value digits) Text.max32 := by
  have hrun : IsRun [] digits [] := ⟨h.nonempty, hascii, by simp, by simp⟩
  rw [hrun.count_eq, value_eq_number hascii]

private theorem count_eq_min_iff : count digits = min (value digits) Text.max32 ↔
    (∀ c ∈ digits, c.isDigit = true) ∨ Text.max32 ≤ value digits := by
  by_cases hascii : ∀ c ∈ digits, c.isDigit = true
  · exact iff_of_true (h.count_of_ascii hascii) (.inl hascii)
  · have hother : ∃ c ∈ digits, c.isDigit = false := by simpa using hascii
    rw [count_of_other_script hother, or_iff_right hascii]
    omega

private theorem lt_count_iff {limit : Nat} (hlimit : limit < Text.max32) (hvalue : value digits ≤ limit) :
    limit < count digits ↔ ∃ c ∈ digits, c.isDigit = false := by
  by_cases hascii : ∀ c ∈ digits, c.isDigit = true
  · have hnone : ¬ ∃ c ∈ digits, c.isDigit = false := by simpa using hascii
    rw [h.count_of_ascii hascii, iff_false_right hnone]
    omega
  · have hother : ∃ c ∈ digits, c.isDigit = false := by simpa using hascii
    rw [count_of_other_script hother, iff_true_right hother]
    exact hlimit

private theorem count_ne_zero (hvalue : value digits ≠ 0) : count digits ≠ 0 := by
  have hmax : Text.max32 ≠ 0 := by decide
  by_cases hascii : ∀ c ∈ digits, c.isDigit = true
  · rw [h.count_of_ascii hascii]
    omega
  · have hother : ∃ c ∈ digits, c.isDigit = false := by simpa using hascii
    rw [count_of_other_script hother]
    exact hmax

end AreDigits

private theorem areDigits_digitRun {cs : List Char} (h : (digitRun cs).1 ≠ []) : AreDigits (digitRun cs).1 :=
  ⟨h, fun _ hc => List.mem_takeWhile_imp hc⟩

private theorem Pattern.areDigits_of_at? {cs : List Char} {p : Pattern} (h : Pattern.at? cs = some p) :
    AreDigits p.dice ∧ AreDigits p.sides := by
  obtain ⟨tail, -, hdice, hsides, rfl⟩ := Pattern.of_at?_eq_some h
  exact ⟨areDigits_digitRun hdice, areDigits_digitRun hsides⟩

private theorem Pattern.areDigits_of_find? {cs : List Char} {p : Pattern} (h : Pattern.find? cs = some p) :
    AreDigits p.dice ∧ AreDigits p.sides := by
  induction cs with
  | nil => cases h
  | cons c cs ih =>
    rw [Pattern.find?, Option.or_eq_some_iff] at h
    cases h with
    | inl hhere => exact areDigits_of_at? hhere
    | inr hlater => exact ih hlater.2

private theorem Pattern.judge_eq_tooManyDice_iff {p : Pattern} :
    p.judge = .tooManyDice ↔ maxDice < count p.dice := by
  grind [Pattern.judge]

private theorem Pattern.judge_eq_tooManySides_iff {p : Pattern} (hdice : count p.dice ≠ 0) :
    p.judge = .tooManySides ↔ count p.dice ≤ maxDice ∧ maxSides < count p.sides := by
  grind [Pattern.judge]

private theorem text_of_respond_eq {m : Message} {emoji emoji' : Option String} {text text' : String}
    (h : respond tools m emoji text = respond tools m emoji' text') : text = text' := by
  injection h with hcall
  injection hcall with hcall
  injection hcall

private theorem react_ne_respond (m : Message) (emoji : String) (emoji' : Option String) (text : String) :
    react tools m emoji ≠ respond tools m emoji' text := by
  intro h
  injection h with hcall
  injection hcall with hcall
  injection hcall

/-- A text that is answered right away says which limit was exceeded. -/
private theorem exceeded_of_carryOut_eq_respond {m : Message} {request : String} {v : Verdict}
    {emoji : Option String} {text : String} (h : carryOut tools m request v = respond tools m emoji text) :
    v = .tooManyDice ∧ text = tooManyDiceText ∨ v = .tooManySides ∧ text = tooManySidesText ∨
      v = .offsetTooGreat ∧ text = offsetTooGreatText := by
  have htext {text' : String} (hv : carryOut tools m request v = respond tools m (some sad) text') :
      text = text' :=
    text_of_respond_eq (h.symm.trans hv)
  cases v with
  | malformed => cases h
  | tooManyDice => exact .inl ⟨rfl, htext rfl⟩
  | noDice => exact absurd h (react_ne_respond m _ _ _)
  | tooManySides => exact .inr (.inl ⟨rfl, htext rfl⟩)
  | noSides => exact absurd h (react_ne_respond m _ _ _)
  | offsetTooGreat => exact .inr (.inr ⟨rfl, htext rfl⟩)
  | accepted roll => cases h

private theorem carryOut_eq_tooManyDice_iff {m : Message} {request : String} {v : Verdict} :
    carryOut tools m request v = respond tools m (some sad) tooManyDiceText ↔ v = .tooManyDice := by
  refine ⟨fun h => ?_, fun h => h ▸ rfl⟩
  obtain ⟨hv, -⟩ | ⟨-, htext⟩ | ⟨-, htext⟩ := exceeded_of_carryOut_eq_respond h
  · exact hv
  · exact absurd htext (by decide)
  · exact absurd htext (by decide)

private theorem carryOut_eq_tooManySides_iff {m : Message} {request : String} {v : Verdict} :
    carryOut tools m request v = respond tools m (some sad) tooManySidesText ↔ v = .tooManySides := by
  refine ⟨fun h => ?_, fun h => h ▸ rfl⟩
  obtain ⟨-, htext⟩ | ⟨hv, -⟩ | ⟨-, htext⟩ := exceeded_of_carryOut_eq_respond h
  · exact absurd htext (by decide)
  · exact hv
  · exact absurd htext (by decide)

/-- Digits are read as the smaller of the number they write and the greatest of 32 bits, unless one of
them is not in ASCII: then they are read as the greatest, whatever they write. So a fit roll is refused
for its dice just if these have a digit of another script, and for its sides just if only these have. -/
theorem mistaken_iff_other_script {m : Message} {request : String} {p : Pattern}
    (hrequest : Requests m.content request) (hp : Pattern.find? request.toList = some p) :
    (∀ digits, AreDigits digits → (count digits = min (value digits) Text.max32 ↔
      (∀ c ∈ digits, c.isDigit = true) ∨ Text.max32 ≤ value digits)) ∧
    (AreDigits p.dice ∧ AreDigits p.sides) ∧
    ((1 ≤ value p.dice ∧ value p.dice ≤ 30) → (1 ≤ value p.sides ∧ value p.sides ≤ 100) →
      (answerRoll tools m = respond tools m (some "😢") "but I only have 30 dice... 😰" ↔
        ∃ c ∈ p.dice, c.isDigit = false) ∧
      (answerRoll tools m =
          respond tools m (some "😢") "but I only have dice with up to 100 sides... 😰" ↔
        (∀ c ∈ p.dice, c.isDigit = true) ∧ ∃ c ∈ p.sides, c.isDigit = false)) := by
  obtain ⟨hdice, hsides⟩ := Pattern.areDigits_of_find? hp
  refine ⟨fun digits h => h.count_eq_min_iff, ⟨hdice, hsides⟩, fun hfew hflat => ?_⟩
  have hanswer : answerRoll tools m = carryOut tools m request p.judge := by
    rw [answerRoll, request?_eq_some_iff.mpr hrequest]
    exact congrArg (carryOut tools m request) (by rw [judge, hp])
  have hmany : maxDice < count p.dice ↔ ∃ c ∈ p.dice, c.isDigit = false :=
    hdice.lt_count_iff (by decide) hfew.2
  have hwide : maxSides < count p.sides ↔ ∃ c ∈ p.sides, c.isDigit = false :=
    hsides.lt_count_iff (by decide) hflat.2
  have hnonzero : count p.dice ≠ 0 := hdice.count_ne_zero (by omega)
  rw [hanswer]
  refine ⟨carryOut_eq_tooManyDice_iff.trans (Pattern.judge_eq_tooManyDice_iff.trans hmany),
    carryOut_eq_tooManySides_iff.trans ((Pattern.judge_eq_tooManySides_iff hnonzero).trans
      (and_congr ?_ hwide))⟩
  rw [← Nat.not_lt, hmany]
  simp

/-- Three dice in the digits of Arabic are taken for more than thirty. -/
theorem mistaken_iff_other_script_arabic :
    let m : Message := ⟨none, { id := "7" }, { id := "42" }, "1", "!roll ٣d6"⟩
    Requests m.content "٣d6" ∧ Pattern.find? "٣d6".toList = some ⟨['٣'], ['6'], none⟩ ∧
      value ['٣'] = 3 ∧ value ['6'] = 6 ∧
      answerRoll tools m = respond tools m (some "😢") "but I only have 30 dice... 😰" := by
  intro m
  have hrequest : Requests m.content "٣d6" := ⟨⟨0, 0, by decide⟩, by decide, by decide⟩
  have hp : Pattern.find? "٣d6".toList = some ⟨['٣'], ['6'], none⟩ := by decide +kernel
  obtain ⟨-, -, hjudged⟩ := mistaken_iff_other_script hrequest hp
  obtain ⟨hdice, -⟩ := hjudged (by decide) (by decide)
  exact ⟨hrequest, hp, by decide, by decide, hdice.2 ⟨'٣', by decide, by decide⟩⟩

end GuildBot.Dice
