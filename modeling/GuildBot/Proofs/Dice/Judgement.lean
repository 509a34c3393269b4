import GuildBot.Proofs.Dice.Grammar
import GuildBot.Proofs.Text.Integer

/-!
# Rolls are judged by the numbers that are written

Numbers are read up to a limit that none of the bounds on a roll reaches, so it makes no difference
to the judgement. The offset is read where the grammar has it.
-/

namespace GuildBot.Dice

namespace IsRun

variable {before run after : List Char}

theorem digits?_eq (h : IsRun before run after) : Text.digits? run = some (number run) :=
  Text.digits?_eq_some_iff.2 ⟨h.nonempty, h.digits, rfl⟩

theorem count_eq (h : IsRun before run after) : count run = min (number run) Text.max32 := by
  rw [count, h.digits?_eq, Option.filter_some]
  by_cases hle : number run ≤ Text.max32
  · simp [hle]
  · simp [hle, (Nat.le_of_not_le hle)]

private theorem offset?_plus (h : IsRun before run after) :
    offset? ('+' :: run) =
      (some (number run : Int)).filter fun n => -(maxOffset : Int) ≤ n && n ≤ maxOffset := by
  simp [offset?, Text.signed?, h.digits?_eq]

private theorem offset?_minus (h : IsRun before run after) :
    offset? ('-' :: run) =
      (some (-number run : Int)).filter fun n => -(maxOffset : Int) ≤ n && n ≤ maxOffset := by
  simp [offset?, Text.signed?, h.digits?_eq]

end IsRun

private theorem signedRun?_eq {sign : Char} {digits after : List Char} (hsign : sign = '+' ∨ sign = '-')
    (h : IsRun [sign] digits after) (hascii : HasAsciiDigits after) :
    signedRun? (sign :: (digits ++ after)) = some (sign :: digits) := by
  rw [signedRun?, h.digitRun_eq hascii, if_pos ⟨hsign, h.nonempty⟩]

namespace Writing

variable {w : Writing} {cs : List Char}

private theorem Adds.offset_eq {sign : Char} {digits : List Char} (h : w.Adds sign digits)
    (hsign : sign = '+' ∨ sign = '-') (hascii : HasAsciiDigits w.rest) :
    w.pattern.offset = some (sign :: digits) := by
  obtain ⟨gap, after, hgap, hrest, hrun⟩ := h
  have hspace : Text.isSpace sign = false := by
    cases hsign with
    | inl hplus => exact hplus ▸ by decide
    | inr hminus => exact hminus ▸ by decide
  have hafter : HasAsciiDigits after := fun c hc => hascii c (by simp [hrest, hc])
  have hread : skipSpace w.rest = sign :: (digits ++ after) := by
    rw [hrest]
    exact hgap.skipSpace_eq (by simpa using hspace)
  rw [pattern, hread, signedRun?_eq hsign hrun hafter]

private theorem exists_adds {text : List Char} (h : w.pattern.offset = some text)
    (hascii : HasAsciiDigits w.rest) :
    ∃ sign digits, (sign = '+' ∨ sign = '-') ∧ w.Adds sign digits := by
  obtain ⟨gap, hgap, hrest⟩ := exists_gap w.rest
  simp only [pattern] at h
  cases hread : skipSpace w.rest with
  | nil => simp [hread, signedRun?] at h
  | cons sign rest =>
    rw [hread] at h hrest
    obtain ⟨⟨hsign, hdigits⟩, -⟩ : ((sign = '+' ∨ sign = '-') ∧ (digitRun rest).1 ≠ []) ∧
        sign :: (digitRun rest).1 = text := by
      simpa [signedRun?] using h
    have hrestAscii : HasAsciiDigits rest := fun c hc => hascii c (by
      rw [hrest]
      simp [hc])
    have hstart : ∀ c ∈ [sign].getLast?, c.isDigit = false := by
      cases hsign with
      | inl hplus => simp [hplus]
      | inr hminus => simp [hminus]
    refine ⟨sign, (digitRun rest).1, hsign, gap, (digitRun rest).2, hgap, ?_,
      digitRun_isRun hrestAscii hdigits hstart⟩
    rw [digitRun_append]
    exact hrest

private theorem exists_offset (w : Writing) : ∃ n, w.Offset n := by
  by_cases hplus : ∃ digits, w.Adds '+' digits
  · exact ⟨_, .plus hplus.choose_spec⟩
  · by_cases hminus : ∃ digits, w.Adds '-' digits
    · exact ⟨_, .minus hminus.choose_spec⟩
    · exact ⟨0, .nothing fun digits =>
        ⟨fun h => hplus ⟨digits, h⟩, fun h => hminus ⟨digits, h⟩⟩⟩

/-- An offset within the limit is read as what it is. No other is accepted. -/
theorem Offset.read {n : Int} (h : w.Offset n) (hascii : HasAsciiDigits w.rest) :
    (w.pattern.offset.elim (some 0) offset?) =
      (some n).filter fun n => -(maxOffset : Int) ≤ n && n ≤ maxOffset := by
  cases h with
  | plus h =>
    rw [h.offset_eq (.inl rfl) hascii]
    obtain ⟨_, _, _, _, hrun⟩ := h
    exact hrun.offset?_plus
  | minus h =>
    rw [h.offset_eq (.inr rfl) hascii]
    obtain ⟨_, _, _, _, hrun⟩ := h
    exact hrun.offset?_minus
  | nothing h =>
    have hnone : w.pattern.offset = none := by
      refine Option.eq_none_iff_forall_ne_some.mpr fun text htext => ?_
      obtain ⟨sign, digits, rfl | rfl, hadds⟩ := exists_adds htext hascii
      · exact (h digits).1 hadds
      · exact (h digits).2 hadds
    rw [hnone]
    decide

private theorem judge_offset {p : Pattern} (hdice : count p.dice ≤ maxDice ∧ 1 ≤ count p.dice)
    (hsides : count p.sides ≤ maxSides ∧ 1 ≤ count p.sides) :
    p.judge = match p.offset.elim (some 0) offset? with
      | some n => .accepted ⟨count p.dice, count p.sides, n⟩
      | none => .offsetTooGreat := by
  rw [Pattern.judge, if_neg (by omega), if_neg (by omega), if_neg (by omega), if_neg (by omega)]
  cases p.offset with
  | none => rfl
  | some text => rfl

private theorem judge_pattern {n : Int} (h : w.IsIn cs) (hoffset : w.Offset n) (hascii : HasAsciiDigits cs) :
    w.pattern.judge = assess (number w.dice) (number w.sides) n := by
  have hrest : HasAsciiDigits w.rest := fun c hc => hascii c (by
    rw [h.text, afterDice]
    simp [hc])
  have hdice : count w.pattern.dice = min (number w.dice) Text.max32 := h.dice.count_eq
  have hsides : count w.pattern.sides = min (number w.sides) Text.max32 := h.sides.count_eq
  have hlimits : maxDice = 30 ∧ maxSides = 100 ∧ 100 < Text.max32 := by decide
  by_cases hfit : (number w.dice ≤ 30 ∧ number w.dice ≠ 0) ∧ number w.sides ≤ 100 ∧ number w.sides ≠ 0
  · have hsame : count w.pattern.dice = number w.dice ∧ count w.pattern.sides = number w.sides := by
      omega
    rw [judge_offset (by omega) (by omega), hoffset.read hrest, hsame.1, hsame.2, assess,
      if_neg (by omega), if_neg (by omega), if_neg (by omega), if_neg (by omega),
      Option.filter_some]
    have hlimit : (-(maxOffset : Int) ≤ n && n ≤ maxOffset) = decide (-10000 ≤ n ∧ n ≤ 10000) := by
      rw [Bool.decide_and]
      rfl
    by_cases hn : -10000 ≤ n ∧ n ≤ 10000
    · rw [if_pos hn, if_pos (by rw [hlimit, decide_eq_true hn])]
    · rw [if_neg hn, if_neg (by rw [hlimit, decide_eq_false hn]; decide)]
  · -- An unfit number is found out before the offset is read.
    simp only [Pattern.judge, assess, hdice, hsides]
    split_ifs <;> first | rfl | omega

end Writing

/-- A request is judged by the first roll that is written in it. -/
theorem judge_eq {request : String} {v : Verdict} (h : Decides request.toList v)
    (hascii : HasAsciiDigits request.toList) : judge request = v := by
  cases h with
  | malformed h => rw [judge, Pattern.find?_of_not_isIn hascii h]
  | roll hw hoffset =>
    rw [judge, Pattern.find?_of_isFirst hascii hw]
    exact Writing.judge_pattern hw.isIn hoffset hascii

theorem exists_decides (request : List Char) : ∃ v, Decides request v := by
  by_cases h : ∃ w : Writing, w.IsIn request
  · obtain ⟨w, hw⟩ := h
    obtain ⟨first, hfirst⟩ := Writing.exists_isFirst hw
    obtain ⟨n, hn⟩ := first.exists_offset
    exact ⟨_, .roll hfirst hn⟩
  · exact ⟨.malformed, .malformed fun w hw => h ⟨w, hw⟩⟩

end GuildBot.Dice
