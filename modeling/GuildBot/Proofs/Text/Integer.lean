import GuildBot.Text.Integer

namespace GuildBot.Text

/-- The text writes a number in digits of ASCII, perhaps with one `+` before them. -/
def Writes (s : String) (n : Nat) : Prop :=
  ∃ digits : List Char, digits ≠ [] ∧ (∀ c ∈ digits, c.isDigit = true) ∧
    (s.toList = digits ∨ s.toList = '+' :: digits) ∧ Nat.ofDigitChars 10 digits 0 = n

private theorem asciiDigit?_eq (c : Char) :
    asciiDigit? c = if c.isDigit = true then some (c.toNat - '0'.toNat) else none := by
  simp [asciiDigit?, Char.isDigit, Char.le_def]

private theorem digitsFrom_eq (acc : Nat) (cs : List Char) :
    digitsFrom acc cs =
      if cs.all Char.isDigit = true then some (Nat.ofDigitChars 10 cs acc) else none := by
  induction cs generalizing acc with
  | nil => rfl
  | cons c cs ih =>
    rw [digitsFrom, asciiDigit?_eq, List.all_cons]
    by_cases hc : c.isDigit = true
    · rw [if_pos hc, Option.bind_some, ih, hc, Bool.true_and, Nat.ofDigitChars_cons, Nat.mul_comm 10]
    · rw [if_neg hc, Option.bind_none, if_neg]
      simp [hc]

theorem digits?_eq_some_iff {cs : List Char} {n : Nat} :
    digits? cs = some n ↔
      cs ≠ [] ∧ (∀ c ∈ cs, c.isDigit = true) ∧ Nat.ofDigitChars 10 cs 0 = n := by
  cases cs with
  | nil => simp [digits?]
  | cons c cs => simp [digits?, digitsFrom_eq]

private theorem digits?_toDigits (n : Nat) : digits? (Nat.toDigits 10 n) = some n := by
  apply digits?_eq_some_iff.2
  refine ⟨Nat.toDigits_ne_nil, ?_, Nat.ofDigitChars_ten_toDigits⟩
  intro c hc
  exact Nat.isDigit_of_mem_toDigits (by decide) (by decide) hc

/-- A number is read from the texts that write it, if it is within the limit. -/
theorem unsigned?_eq_some_iff {limit n : Nat} {s : String} :
    unsigned? limit s = some n ↔ Writes s n ∧ n ≤ limit := by
  rw [unsigned?, Option.filter_eq_some_iff, decide_eq_true_iff]
  apply and_congr_left
  intro _
  split
  · next rest hs =>
    rw [digits?_eq_some_iff]
    constructor
    · rintro ⟨hrest, hdigits, hvalue⟩
      exact ⟨rest, hrest, hdigits, .inr hs, hvalue⟩
    · rintro ⟨digits, hne, hdigits, htext | htext, hvalue⟩
      · -- a sign is no digit
        have hplus : Char.isDigit '+' = true := hdigits '+' (by simp [← htext, hs])
        cases hplus
      · obtain rfl : rest = digits := by simpa [hs] using htext
        exact ⟨hne, hdigits, hvalue⟩
  · next hplus =>
    rw [digits?_eq_some_iff]
    constructor
    · rintro ⟨hne, hdigits, hvalue⟩
      exact ⟨s.toList, hne, hdigits, .inl rfl, hvalue⟩
    · rintro ⟨digits, hne, hdigits, htext | htext, hvalue⟩
      · rw [htext]
        exact ⟨hne, hdigits, hvalue⟩
      · exact absurd htext (hplus digits)

theorem unsigned?_toString {limit n : Nat} (h : n ≤ limit) : unsigned? limit (toString n) = some n := by
  apply unsigned?_eq_some_iff.2
  have hread := digits?_eq_some_iff.1 (digits?_toDigits n)
  refine ⟨⟨Nat.toDigits 10 n, hread.1, hread.2.1, .inl ?_, hread.2.2⟩, h⟩
  exact Nat.toList_repr

end GuildBot.Text
