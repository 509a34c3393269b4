import GuildBot.Dice.Reply
import GuildBot.Dice.Sampling

namespace GuildBot.Dice

private theorem mul_div_words (sides x y : Nat) :
    (x * wordRange + y) * sides / (wordRange * wordRange) =
      x * sides / wordRange + (x * sides % wordRange + y * sides / wordRange) / wordRange := by
  have hpos : 0 < wordRange := by decide
  have hproduct : (x * wordRange + y) * sides = y * sides + wordRange * (x * sides) := by
    rw [Nat.add_mul, Nat.add_comm, Nat.mul_right_comm, Nat.mul_comm wordRange]
  have hcarry : y * sides / wordRange + x * sides =
      x * sides % wordRange + y * sides / wordRange + wordRange * (x * sides / wordRange) := by
    have := Nat.mod_add_div (x * sides) wordRange
    omega
  rw [← Nat.div_div_eq_div_mul, hproduct, Nat.add_mul_div_left _ _ hpos, hcarry,
    Nat.add_mul_div_left _ _ hpos, Nat.add_comm]

/-- A die shows the fraction of its sides that two words make. -/
theorem face_eq {sides x y : Nat} (hsome : 0 < sides) (hsides : sides ≤ wordRange)
    (hy : y < wordRange) :
    face sides x y = 1 + (x * wordRange + y) * sides / (wordRange * wordRange) := by
  have hpos : 0 < wordRange := by decide
  have hlow : x * sides % wordRange < wordRange := Nat.mod_lt _ hpos
  have hhigh : y * sides / wordRange < sides := by
    rw [Nat.div_lt_iff_lt_mul hpos, Nat.mul_comm sides]
    exact Nat.mul_lt_mul_of_pos_right hy hsome
  have hcarry : (x * sides % wordRange + y * sides / wordRange) / wordRange =
      (needsSecond sides x &&
        wordRange ≤ x * sides % wordRange + y * sides / wordRange).toNat := by
    by_cases hover : wordRange ≤ x * sides % wordRange + y * sides / wordRange
    · have hneeds : needsSecond sides x = true := decide_eq_true (by omega)
      rw [hneeds, decide_eq_true hover, Nat.div_eq_sub_div hpos hover, Nat.div_eq_of_lt (by omega)]
      rfl
    · rw [decide_eq_false hover, Bool.and_false]
      exact Nat.div_eq_of_lt (by omega)
  rw [mul_div_words, hcarry, ← Nat.add_assoc]
  rfl

theorem face_bounds {sides x y : Nat} (hsome : 0 < sides) (hsides : sides ≤ wordRange)
    (hx : x < wordRange) (hy : y < wordRange) : 1 ≤ face sides x y ∧ face sides x y ≤ sides := by
  have hpos : 0 < wordRange := by decide
  have hword : x * wordRange + y < wordRange * wordRange := by
    have := Nat.mul_le_mul_right wordRange hx
    rw [Nat.succ_mul] at this
    omega
  have hlt : (x * wordRange + y) * sides / (wordRange * wordRange) < sides := by
    rw [Nat.div_lt_iff_lt_mul (Nat.mul_pos hpos hpos), Nat.mul_comm sides]
    exact Nat.mul_lt_mul_of_pos_right hword hsome
  rw [face_eq hsome hsides hy]
  exact ⟨Nat.le_add_right 1 _, Nat.one_add_le_iff.mpr hlt⟩

/-- Every word of the stream has 32 bits. -/
def AreWords (words : List Nat) : Prop := ∀ x ∈ words, x < wordRange

theorem AreWords.next {words : List Nat} (h : AreWords words) :
    (nextWord words).1 < wordRange ∧ AreWords (nextWord words).2 := by
  cases words with
  | nil => exact ⟨by decide, h⟩
  | cons x rest => exact List.forall_mem_cons.mp h

theorem AreWords.rollDie {sides : Nat} (hsome : 0 < sides) (hsides : sides ≤ wordRange)
    {words : List Nat} (h : AreWords words) :
    (1 ≤ (rollDie sides words).1 ∧ (rollDie sides words).1 ≤ sides) ∧
      AreWords (rollDie sides words).2.2 := by
  obtain ⟨hx, hrest⟩ := h.next
  obtain ⟨hy, hlast⟩ := hrest.next
  cases hneeds : needsSecond sides (nextWord words).1 with
  | true =>
    simp only [Dice.rollDie, hneeds, if_true]
    exact ⟨face_bounds hsome hsides hx hy, hlast⟩
  | false =>
    simp only [Dice.rollDie, hneeds]
    exact ⟨face_bounds hsome hsides hx (by decide), hrest⟩

theorem rollAll_faces {sides : Nat} (hsome : 0 < sides) (hsides : sides ≤ wordRange) (dice : Nat)
    {words : List Nat} (h : AreWords words) :
    (rollAll sides dice words).1.length = dice ∧
      ∀ n ∈ (rollAll sides dice words).1, 1 ≤ n ∧ n ≤ sides := by
  induction dice generalizing words with
  | zero => exact ⟨rfl, by simp [rollAll]⟩
  | succ dice ih =>
    obtain ⟨hface, hrest⟩ := h.rollDie hsome hsides
    obtain ⟨hlength, hfaces⟩ := ih hrest
    exact ⟨congrArg Nat.succ hlength, List.forall_mem_cons.mpr ⟨hface, hfaces⟩⟩

private theorem total_cons (n : Nat) (faces : List Nat) : total (n :: faces) = n + total faces := rfl

theorem total_bounds {sides : Nat} {faces : List Nat} (h : ∀ n ∈ faces, 1 ≤ n ∧ n ≤ sides) :
    (faces.length : Int) ≤ total faces ∧ total faces ≤ (faces.length * sides : Nat) := by
  induction faces with
  | nil => exact ⟨Int.le_refl _, by simp [total]⟩
  | cons n faces ih =>
    obtain ⟨hn, hfaces⟩ := List.forall_mem_cons.mp h
    obtain ⟨hleast, hgreatest⟩ := ih hfaces
    rw [total_cons, List.length_cons, Nat.succ_mul]
    omega

end GuildBot.Dice
