import GuildBot.Proofs.Dice.Sampling
import Mathlib.Algebra.Order.Floor.Div
import Mathlib.Order.Interval.Finset.Nat

/-!
# Every face is as likely as another

The dice take their words from one stream, each one word or two. A face shows the fraction that the die's
first word and the word behind it make of `2 ^ 64`, whether or not the second is drawn. So the pairs of
words are shared out among the faces as evenly as their number allows.
-/

namespace GuildBot.Dice

def wordAt (words : List Nat) (place : Nat) : Nat := words[place]?.getD 0

/-- The number that the word at a place and the one behind it write. -/
def pairAt (words : List Nat) (place : Nat) : Nat :=
  wordAt words place * wordRange + wordAt words (place + 1)

/-- The number of words that so many dice draw. -/
def wordsDrawn (sides dice : Nat) (words : List Nat) : Nat := (rollAll sides dice words).2.1

/-- The number of words that a die draws whose first word is this. -/
def wordsFor (sides x : Nat) : Nat := if needsSecond sides x then 2 else 1

private theorem AreWords.wordAt_lt {words : List Nat} (h : AreWords words) (place : Nat) :
    wordAt words place < wordRange := by
  unfold wordAt
  cases hword : words[place]? with
  | none => decide
  | some x => exact h x (List.mem_of_getElem? hword)

private theorem wordAt_drop (words : List Nat) (n place : Nat) :
    wordAt (words.drop n) place = wordAt words (n + place) := by
  simp [wordAt]

private theorem wordAt_append {words : List Nat} {place : Nat} (h : place < words.length) (more : List Nat) :
    wordAt (words ++ more) place = wordAt words place := by
  unfold wordAt
  rw [List.getElem?_append_left h]

private theorem nextWord_eq (words : List Nat) : nextWord words = (wordAt words 0, words.drop 1) := by
  cases words with
  | nil => rfl
  | cons x rest => rfl

private theorem wordsFor_bounds (sides x : Nat) : wordsFor sides x = 1 ∨ wordsFor sides x = 2 := by
  unfold wordsFor
  split <;> simp

private theorem rollDie_eq (sides : Nat) (words : List Nat) :
    rollDie sides words = (face sides (wordAt words 0) (wordAt words 1),
      wordsFor sides (wordAt words 0), words.drop (wordsFor sides (wordAt words 0))) := by
  unfold rollDie wordsFor
  simp only [nextWord_eq, wordAt_drop]
  cases hneeds : needsSecond sides (wordAt words 0) with
  | true => simp
  | false => simp [face, hneeds]

private theorem rollAll_add (sides n m : Nat) (words : List Nat) :
    rollAll sides (n + m) words =
      ((rollAll sides n words).1 ++ (rollAll sides m (rollAll sides n words).2.2).1,
        (rollAll sides n words).2.1 + (rollAll sides m (rollAll sides n words).2.2).2.1,
        (rollAll sides m (rollAll sides n words).2.2).2.2) := by
  induction n generalizing words with
  | zero => simp [rollAll]
  | succ n ih =>
    rw [Nat.succ_add]
    simp [rollAll, ih, Nat.add_assoc]

private theorem rollAll_one (sides : Nat) (words : List Nat) :
    rollAll sides 1 words = ([face sides (wordAt words 0) (wordAt words 1)],
      wordsFor sides (wordAt words 0), words.drop (wordsFor sides (wordAt words 0))) := by
  simp [rollAll, rollDie_eq]

private theorem rest_rollAll (sides dice : Nat) (words : List Nat) :
    (rollAll sides dice words).2.2 = words.drop (wordsDrawn sides dice words) := by
  unfold wordsDrawn
  induction dice with
  | zero => rfl
  | succ dice ih =>
    rw [rollAll_add, ih, rollAll_one]
    simp

private theorem wordsDrawn_succ (sides dice : Nat) (words : List Nat) :
    wordsDrawn sides (dice + 1) words = wordsDrawn sides dice words +
      wordsFor sides (wordAt words (wordsDrawn sides dice words)) := by
  rw [wordsDrawn, rollAll_add, rest_rollAll, rollAll_one, wordAt_drop]
  rfl

/-- The dice before the last one only settle from where it draws. -/
private theorem rollAll_concat (sides dice : Nat) (words : List Nat) :
    rollAll sides (dice + 1) words =
      ((rollAll sides dice words).1 ++ [face sides (wordAt words (wordsDrawn sides dice words))
          (wordAt words (wordsDrawn sides dice words + 1))],
        wordsDrawn sides (dice + 1) words, words.drop (wordsDrawn sides (dice + 1) words)) := by
  rw [wordsDrawn_succ, rollAll_add, rest_rollAll, rollAll_one]
  simp [wordAt_drop, wordsDrawn]

private theorem wordsDrawn_bounds (sides dice : Nat) (words : List Nat) :
    dice ≤ wordsDrawn sides dice words ∧ wordsDrawn sides dice words ≤ 2 * dice := by
  induction dice with
  | zero => simp [wordsDrawn, rollAll]
  | succ dice ih =>
    have hone := wordsFor_bounds sides (wordAt words (wordsDrawn sides dice words))
    rw [wordsDrawn_succ]
    omega

private theorem length_rollAll (sides dice : Nat) (words : List Nat) :
    (rollAll sides dice words).1.length = dice := by
  induction dice with
  | zero => rfl
  | succ dice ih => simp [rollAll_concat, ih]

private theorem getElem?_rollAll {sides dice i : Nat} (hi : i < dice) (words : List Nat) :
    (rollAll sides dice words).1[i]? = some (face sides (wordAt words (wordsDrawn sides i words))
      (wordAt words (wordsDrawn sides i words + 1))) := by
  obtain ⟨later, rfl⟩ := Nat.exists_eq_add_of_le hi
  rw [rollAll_add, rollAll_concat]
  simp [length_rollAll]

private theorem rollAll_append {sides dice : Nat} {words : List Nat} (h : 2 * dice ≤ words.length)
    (more : List Nat) :
    rollAll sides dice (words ++ more) = ((rollAll sides dice words).1, wordsDrawn sides dice words,
      words.drop (wordsDrawn sides dice words) ++ more) := by
  induction dice with
  | zero => simp [rollAll, wordsDrawn]
  | succ dice ih =>
    have hdrawn := wordsDrawn_bounds sides dice words
    have hdrawn' := wordsDrawn_bounds sides (dice + 1) words
    have hsame : wordsDrawn sides dice (words ++ more) = wordsDrawn sides dice words := by
      rw [wordsDrawn, ih (by omega)]
    have hword (place : Nat) (hplace : place < 2 * (dice + 1)) :
        wordAt (words ++ more) place = wordAt words place := wordAt_append (by omega) more
    have hnext : wordsDrawn sides (dice + 1) (words ++ more) = wordsDrawn sides (dice + 1) words := by
      rw [wordsDrawn_succ, wordsDrawn_succ, hsame, hword _ (by omega)]
    rw [rollAll_concat, rollAll_concat sides dice words, ih (by omega), hsame, hnext,
      hword _ (by omega), hword _ (by omega), List.drop_append_of_le_length (by omega)]

/-- How many multiples of `sides` lie in a stretch of that length: the quotient, rounded down or up. -/
private theorem ceilDiv_sub_ceilDiv {sides : Nat} (hsome : 0 < sides) (start length : Nat) :
    (start + length) ⌈/⌉ sides - start ⌈/⌉ sides = length / sides ∨
      (start + length) ⌈/⌉ sides - start ⌈/⌉ sides = length ⌈/⌉ sides := by
  have hceil (n : Nat) : n ≤ sides * (n ⌈/⌉ sides) ∧ sides * (n ⌈/⌉ sides) < n + sides := by
    refine ⟨(ceilDiv_le_iff_le_mul hsome).1 le_rfl, ?_⟩
    have hdiv := Nat.div_add_mod (n + sides - 1) sides
    rw [Nat.ceilDiv_eq_add_pred_div]
    omega
  have hdiv := Nat.div_add_mod length sides
  have hmod := Nat.mod_lt length hsome
  obtain ⟨hstart, hstart'⟩ := hceil start
  obtain ⟨hend, hend'⟩ := hceil (start + length)
  obtain ⟨hlength, hlength'⟩ := hceil length
  have hspan : sides * ((start + length) ⌈/⌉ sides - start ⌈/⌉ sides) =
      sides * ((start + length) ⌈/⌉ sides) - sides * (start ⌈/⌉ sides) := Nat.mul_sub ..
  have hleast : length / sides ≤ (start + length) ⌈/⌉ sides - start ⌈/⌉ sides := by
    apply Nat.le_of_lt_succ
    apply Nat.lt_of_mul_lt_mul_left (a := sides)
    rw [Nat.mul_succ]
    omega
  have hgreatest : (start + length) ⌈/⌉ sides - start ⌈/⌉ sides ≤ length ⌈/⌉ sides := by
    apply Nat.le_of_lt_succ
    apply Nat.lt_of_mul_lt_mul_left (a := sides)
    rw [Nat.mul_succ]
    omega
  have hround : length ⌈/⌉ sides ≤ length / sides + 1 := by
    apply Nat.le_of_lt_succ
    apply Nat.lt_of_mul_lt_mul_left (a := sides)
    rw [Nat.mul_succ, Nat.mul_succ]
    omega
  omega

private theorem card_pairs {base start stop : Nat} (hpos : 0 < base) (hstop : stop ≤ base * base) :
    ((Finset.range base ×ˢ Finset.range base).filter fun p =>
      start ≤ p.1 * base + p.2 ∧ p.1 * base + p.2 < stop).card = stop - start := by
  rw [← Nat.card_Ico]
  apply Finset.card_nbij' (fun p => p.1 * base + p.2) fun k => (k / base, k % base)
  · intro p hp
    simpa using (Finset.mem_filter.1 hp).2
  · intro k hk
    have hlt : k < base * base := (Finset.mem_Ico.1 hk).2.trans_le hstop
    have hdigits : k / base < base ∧ k % base < base :=
      ⟨(Nat.div_lt_iff_lt_mul hpos).2 hlt, Nat.mod_lt k hpos⟩
    simpa [hdigits, Nat.div_add_mod'] using hk
  · rintro ⟨x, y⟩ hp
    obtain ⟨hdigits, -⟩ := Finset.mem_filter.1 hp
    have hy : y < base := Finset.mem_range.1 (Finset.mem_product.1 hdigits).2
    have hdiv : (x * base + y) / base = x := by
      rw [Nat.mul_comm, Nat.mul_add_div hpos, Nat.div_eq_of_lt hy, Nat.add_zero]
    have hmod : (x * base + y) % base = y := by
      rw [Nat.mul_comm, Nat.mul_add_mod, Nat.mod_eq_of_lt hy]
    simp [hdiv, hmod]
  · intro k _
    exact Nat.div_add_mod' k base

def pairsShowing (sides face : Nat) : Finset (Nat × Nat) :=
  (Finset.range wordRange ×ˢ Finset.range wordRange).filter fun p =>
    (rollAll sides 1 [p.1, p.2]).1 = [face]

private theorem shown_iff {sides f x y : Nat} (hsome : 0 < sides) (hsides : sides ≤ wordRange)
    (hf : 1 ≤ f) (hy : y < wordRange) :
    (rollAll sides 1 [x, y]).1 = [f] ↔
      ((f - 1) * (wordRange * wordRange)) ⌈/⌉ sides ≤ x * wordRange + y ∧
        x * wordRange + y < (f * (wordRange * wordRange)) ⌈/⌉ sides := by
  have hroll : (rollAll sides 1 [x, y]).1 = [face sides x y] := by rw [rollAll_one]; rfl
  have hpos : 0 < wordRange * wordRange := by decide
  have hface : face sides x y = f ↔
      (x * wordRange + y) * sides / (wordRange * wordRange) = f - 1 := by
    rw [face_eq hsome hsides hy]
    omega
  rw [hroll, List.singleton_inj, hface, ceilDiv_le_iff_le_mul hsome, ← not_le (b := x * wordRange + y),
    ceilDiv_le_iff_le_mul hsome, not_le, Nat.mul_comm sides]
  generalize wordRange * wordRange = range at hpos ⊢
  have hnext : f * range = (f - 1) * range + range := by
    rw [← Nat.succ_mul]
    congr 1
    omega
  rw [Nat.div_eq_iff hpos]
  omega

/-- Each face is shown of one share of the pairs of words, rounded down or up. -/
private theorem card_pairsShowing {sides f : Nat} (hsides : sides ≤ wordRange)
    (hf : 1 ≤ f) (hle : f ≤ sides) :
    (pairsShowing sides f).card = (wordRange * wordRange) / sides ∨
      (pairsShowing sides f).card = (wordRange * wordRange) ⌈/⌉ sides := by
  have hsome : 0 < sides := by omega
  have hpos : 0 < wordRange := by decide
  have hlast : (f * (wordRange * wordRange)) ⌈/⌉ sides ≤ wordRange * wordRange := by
    rw [ceilDiv_le_iff_le_mul hsome]
    exact Nat.mul_le_mul_right _ hle
  have hshown : pairsShowing sides f = (Finset.range wordRange ×ˢ Finset.range wordRange).filter
      fun p => ((f - 1) * (wordRange * wordRange)) ⌈/⌉ sides ≤ p.1 * wordRange + p.2 ∧
        p.1 * wordRange + p.2 < (f * (wordRange * wordRange)) ⌈/⌉ sides := by
    ext ⟨x, y⟩
    simp only [pairsShowing, Finset.mem_filter, Finset.mem_product, Finset.mem_range]
    apply and_congr_right
    intro hwords
    exact shown_iff hsome hsides hf hwords.2
  have hnext : f * (wordRange * wordRange) =
      (f - 1) * (wordRange * wordRange) + wordRange * wordRange := by
    rw [← Nat.succ_mul]
    congr 1
    omega
  rw [hshown, card_pairs hpos hlast, hnext]
  exact ceilDiv_sub_ceilDiv hsome _ _

/-- So many dice show as many faces, each by the die's first word and the word behind it, whether or not that
one is drawn. Each draws one word or two, and the next dice go on from there. The pairs of words are shared
out among the faces as evenly as their number allows. -/
theorem dice_nearly_uniform {sides : Nat} (hsome : 0 < sides) (hsides : sides < wordRange) :
    (∀ dice words, AreWords words → ∃ faces,
      roll? dice sides words = some (faces, wordsDrawn sides dice words,
        words.drop (wordsDrawn sides dice words)) ∧
      faces.length = dice ∧
      (∀ i < dice, ∃ face, faces[i]? = some face ∧ (1 ≤ face ∧ face ≤ sides) ∧
        face = 1 + pairAt words (wordsDrawn sides i words) * sides / (wordRange * wordRange) ∧
        (wordsDrawn sides (i + 1) words = wordsDrawn sides i words + 1 ∨
          wordsDrawn sides (i + 1) words = wordsDrawn sides i words + 2)) ∧
      (dice ≤ wordsDrawn sides dice words ∧ wordsDrawn sides dice words ≤ 2 * dice) ∧
      (2 * dice ≤ words.length → ∀ more, roll? dice sides (words ++ more) =
        some (faces, wordsDrawn sides dice words,
          words.drop (wordsDrawn sides dice words) ++ more))) ∧
    (∀ face, 1 ≤ face → face ≤ sides →
      (pairsShowing sides face).card = (wordRange * wordRange) / sides ∨
        (pairsShowing sides face).card = (wordRange * wordRange) ⌈/⌉ sides) ∧
    ∀ n m words, ∃ faces drawn rest more again last,
      roll? n sides words = some (faces, drawn, rest) ∧ roll? m sides rest = some (more, again, last) ∧
      roll? (n + m) sides words = some (faces ++ more, drawn + again, last) := by
  have hroll (dice : Nat) (words : List Nat) : roll? dice sides words =
      some (rollAll sides dice words) := if_neg (by omega)
  refine ⟨?_, ?_, ?_⟩
  · intro dice words hwords
    refine ⟨(rollAll sides dice words).1, ?_, length_rollAll .., ?_, wordsDrawn_bounds .., ?_⟩
    · rw [hroll, ← rest_rollAll, wordsDrawn]
    · intro i hi
      have hx := hwords.wordAt_lt (wordsDrawn sides i words)
      have hy := hwords.wordAt_lt (wordsDrawn sides i words + 1)
      have hnext := wordsFor_bounds sides (wordAt words (wordsDrawn sides i words))
      refine ⟨_, getElem?_rollAll hi words, face_bounds hsome hsides.le hx hy,
        face_eq hsome hsides.le hy, ?_⟩
      rw [wordsDrawn_succ]
      omega
    · intro hlength more
      rw [hroll, rollAll_append hlength]
  · intro face hleast hgreatest
    exact card_pairsShowing hsides.le hleast hgreatest
  · intro n m words
    refine ⟨_, _, _, _, _, _, hroll n words, hroll m _, ?_⟩
    rw [hroll, rollAll_add]

/-- The first of two dice with three sides draws two words, since the second word turns the scale. -/
theorem dice_nearly_uniform_threeSides :
    (0 < 3 ∧ 3 < wordRange) ∧ AreWords [1431655765, 2147483648, 7] ∧
    (∃ faces, roll? 2 3 [1431655765, 2147483648, 7] = some (faces, 3, []) ∧ faces.length = 2 ∧
      faces[0]? = some 2 ∧ faces[1]? = some 1) ∧
    ((pairsShowing 3 2).card = 6148914691236517205 ∨ (pairsShowing 3 2).card = 6148914691236517206) := by
  have hwords : AreWords [1431655765, 2147483648, 7] := by simp [AreWords, wordRange]
  have hsides : 0 < 3 ∧ 3 < wordRange := by decide
  obtain ⟨hrolls, hshares, -⟩ := dice_nearly_uniform hsides.1 hsides.2
  obtain ⟨faces, hroll, hlength, hfaces, -⟩ := hrolls 2 _ hwords
  obtain ⟨first, hfirst, -, rfl, -⟩ := hfaces 0 (by decide)
  obtain ⟨second, hsecond, -, rfl, -⟩ := hfaces 1 (by decide)
  exact ⟨hsides, hwords, ⟨faces, hroll, hlength, hfirst, hsecond⟩, hshares 2 (by decide) (by decide)⟩

end GuildBot.Dice
