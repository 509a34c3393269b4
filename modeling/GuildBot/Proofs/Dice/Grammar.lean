import GuildBot.Dice.Grammar
import GuildBot.Proofs.Text.Span
import Mathlib.Order.WellFounded

namespace GuildBot.Dice

private theorem eq_replicate_of_spaces {xs : List Char} (h : ∀ c ∈ xs, (c == ' ') = true) :
    ∃ n, xs = List.replicate n ' ' :=
  ⟨xs.length, List.eq_replicate_of_mem fun c hc => eq_of_beq (h c hc)⟩

private theorem trims_stripSpaces (cs : List Char) : Trims cs (stripSpaces cs) := by
  obtain ⟨left, tail, hcs, -, htail, hleft, hstart⟩ := span_eq (· == ' ') cs
  obtain ⟨right, inner, hrev, -, hinner, hright, hstop⟩ := span_eq (· == ' ') tail.reverse
  have hstrip : stripSpaces cs = inner.reverse := by rw [stripSpaces, htail, hinner]
  have hsplit : tail = inner.reverse ++ right.reverse := by
    rw [← List.reverse_append, ← hrev, List.reverse_reverse]
  obtain ⟨m, rfl⟩ := eq_replicate_of_spaces hleft
  obtain ⟨n, rfl⟩ := eq_replicate_of_spaces hright
  rw [hstrip]
  refine ⟨⟨m, n, ?_⟩, fun h => ?_, fun h => ?_⟩
  · rw [hcs, hsplit, List.reverse_replicate, List.append_assoc]
  · have : tail.head? = some ' ' := by rw [hsplit, List.head?_append, h]; rfl
    simpa using hstart ' ' this
  · rw [List.getLast?_reverse] at h
    simpa using hstop ' ' h

private theorem Trims.stripSpaces_eq {cs inner : List Char} (h : Trims cs inner) :
    stripSpaces cs = inner := by
  obtain ⟨⟨m, n, rfl⟩, hstart, hstop⟩ := h
  have hspaces : ∀ k, ∀ c ∈ List.replicate k ' ', (c == ' ') = true := fun k c hc => by
    simp [List.eq_of_mem_replicate hc]
  cases inner with
  | nil => simp [stripSpaces]
  | cons c cs =>
    have hfront : (List.replicate m ' ' ++ (c :: cs) ++ List.replicate n ' ').dropWhile (· == ' ') =
        c :: cs ++ List.replicate n ' ' := by
      rw [List.append_assoc]
      refine (span_append (hspaces m) fun d hd => ?_).2
      simp_all
    have hback : (List.replicate n ' ' ++ (c :: cs).reverse).dropWhile (· == ' ') =
        (c :: cs).reverse := by
      refine (span_append (hspaces n) fun d hd => ?_).2
      rw [List.head?_reverse] at hd
      simp_all
    rw [stripSpaces, hfront, List.reverse_append, List.reverse_replicate, hback,
      List.reverse_reverse]

/-- A message is taken for a request just when it is one. -/
theorem request?_eq_some_iff {content request : String} :
    request? content = some request ↔ Requests content request := by
  have hcommand : ∀ c ∈ command.toList, (c != ' ') = true := by simp [command]
  constructor
  · intro h
    have htrims := trims_stripSpaces content.toList
    obtain ⟨before, after, hsplit, hbefore, hafter, -, hspace⟩ :=
      span_eq (· != ' ') (stripSpaces content.toList)
    cases after with
    | nil => simp [request?, hafter] at h
    | cons c rest =>
      have hc : c = ' ' := by simpa using hspace c rfl
      obtain ⟨hb, rfl⟩ : before = command.toList ∧ String.ofList rest = request := by
        simpa [request?, hbefore, hafter] using h
      rw [hsplit, hb, hc] at htrims
      simpa [Requests] using htrims
  · intro h
    have hspace : ∀ c ∈ (' ' :: request.toList).head?, (c != ' ') = false := by simp
    obtain ⟨hbefore, hafter⟩ := span_append hcommand hspace
    simp only [request?, h.stripSpaces_eq, hbefore, hafter, if_true, String.ofList_toList]

private theorem isDigit_of_ascii {c : Char} (h : c.isDigit = true) : Text.isDigit c = true := by
  rw [Text.isDigit, Text.digitValue?_of_isDigit h]
  rfl

private theorem not_isSpace_of_isDigit {c : Char} (h : c.isDigit = true) :
    Text.isSpace c = false := by
  simp only [Char.isDigit, Bool.and_eq_true, decide_eq_true_eq] at h
  have hlow : 48 ≤ c.toNat := UInt32.le_iff_toNat_le.mp h.1
  have hhigh : c.toNat ≤ 57 := UInt32.le_iff_toNat_le.mp h.2
  simp only [Text.isSpace, Bool.or_eq_false_iff, Bool.and_eq_false_imp, decide_eq_true_eq,
    decide_eq_false_iff_not, beq_eq_false_iff_ne]
  omega

namespace HasAsciiDigits

variable {xs ys : List Char}

theorem left (h : HasAsciiDigits (xs ++ ys)) : HasAsciiDigits xs := fun c hc =>
  h c (List.mem_append_left ys hc)

theorem right (h : HasAsciiDigits (xs ++ ys)) : HasAsciiDigits ys := fun c hc =>
  h c (List.mem_append_right xs hc)

private theorem not_isDigit (h : HasAsciiDigits xs) :
    ∀ c ∈ xs.head?, c.isDigit = false → Text.isDigit c = false := fun c hc hdigit => by
  by_contra hnot
  simp [h c (List.mem_of_mem_head? hc) (by simpa using hnot)] at hdigit

end HasAsciiDigits

/-- A run of digits at the front of a text is what is read there. -/
theorem IsRun.digitRun_eq {before run after : List Char} (h : IsRun before run after)
    (hascii : HasAsciiDigits after) : digitRun (run ++ after) = (run, after) := by
  obtain ⟨htake, hdrop⟩ := span_append (fun c hc => isDigit_of_ascii (h.digits c hc)) fun c hc =>
    hascii.not_isDigit c hc (h.stop c hc)
  rw [digitRun, htake, hdrop]

theorem digitRun_isRun {cs before : List Char} (hascii : HasAsciiDigits cs)
    (hsome : (digitRun cs).1 ≠ []) (hstart : ∀ c ∈ before.getLast?, c.isDigit = false) :
    IsRun before (digitRun cs).1 (digitRun cs).2 := by
  obtain ⟨run, after, rfl, hrun, hafter, hdigits, hstop⟩ := span_eq Text.isDigit cs
  simp only [digitRun, hrun, hafter] at hsome ⊢
  refine ⟨hsome, fun c hc => hascii.left c hc (hdigits c hc), hstart, fun c hc => ?_⟩
  have := hstop c hc
  by_contra hnot
  simp [isDigit_of_ascii (by simpa using hnot)] at this

theorem digitRun_append (cs : List Char) : (digitRun cs).1 ++ (digitRun cs).2 = cs :=
  List.takeWhile_append_dropWhile

theorem IsGap.skipSpace_eq {gap cs : List Char} (h : IsGap gap)
    (hcs : ∀ c ∈ cs.head?, Text.isSpace c = false) : skipSpace (gap ++ cs) = cs :=
  (span_append h hcs).2

private theorem IsGap.not_isDigit {gap : List Char} (h : IsGap gap) :
    ∀ c ∈ ('d' :: gap).getLast?, c.isDigit = false := by
  intro c hc
  cases List.mem_cons.mp (List.mem_of_getLast? hc) with
  | inl hletter => exact hletter ▸ rfl
  | inr hmem =>
    by_contra hdigit
    have hspace := h c hmem
    simp [not_isSpace_of_isDigit (Bool.of_not_eq_false hdigit)] at hspace

theorem exists_gap (cs : List Char) : ∃ gap, IsGap gap ∧ cs = gap ++ skipSpace cs := by
  obtain ⟨gap, rest, hcs, -, hrest, hgap, -⟩ := span_eq Text.isSpace cs
  exact ⟨gap, hgap, by rw [skipSpace, hrest]; exact hcs⟩

theorem Pattern.of_at?_eq_some {cs : List Char} {p : Pattern} (h : Pattern.at? cs = some p) :
    ∃ tail, skipSpace (digitRun cs).2 = 'd' :: tail ∧ (digitRun cs).1 ≠ [] ∧
      (digitRun (skipSpace tail)).1 ≠ [] ∧
      p = ⟨(digitRun cs).1, (digitRun (skipSpace tail)).1,
        signedRun? (skipSpace (digitRun (skipSpace tail)).2)⟩ := by
  cases hd : skipSpace (digitRun cs).2 with
  | nil => simp [Pattern.at?, hd] at h
  | cons d tail =>
    have hletter : d = 'd' := by
      by_contra hne
      simp [Pattern.at?, hd, hne] at h
    subst hletter
    obtain ⟨hsome, rfl⟩ : ¬ ((digitRun cs).1 = [] ∨ (digitRun (skipSpace tail)).1 = []) ∧
        ⟨(digitRun cs).1, (digitRun (skipSpace tail)).1,
          signedRun? (skipSpace (digitRun (skipSpace tail)).2)⟩ = p := by
      simpa [Pattern.at?, hd] using h
    exact ⟨tail, rfl, fun hdice => hsome (.inl hdice), fun hsides => hsome (.inr hsides), rfl⟩

namespace Writing

variable {w : Writing} {cs : List Char}

def pattern (w : Writing) : Pattern := ⟨w.dice, w.sides, signedRun? (skipSpace w.rest)⟩

private theorem head?_sides (h : w.IsIn cs) : ∀ c ∈ (w.sides ++ w.rest).head?, Text.isSpace c = false := by
  intro c hc
  obtain ⟨d, ds, hsides⟩ := List.exists_cons_of_ne_nil h.sides.nonempty
  rw [hsides] at hc
  have hdigit := h.sides.digits d (by simp [hsides])
  simp at hc
  exact hc ▸ not_isSpace_of_isDigit hdigit

private theorem IsIn.at?_eq (h : w.IsIn cs) (hascii : HasAsciiDigits cs) (hbefore : w.before = []) :
    Pattern.at? cs = some w.pattern := by
  have htext : cs = w.dice ++ w.afterDice := by rw [h.text, hbefore, List.nil_append]
  have hafter : HasAsciiDigits w.afterDice := (htext ▸ hascii).right
  have hrest : HasAsciiDigits w.rest := by
    have : HasAsciiDigits ('d' :: (w.space ++ (w.sides ++ w.rest))) := hafter.right
    exact fun c hc => this c (by simp [hc])
  have hdice : digitRun cs = (w.dice, w.afterDice) := by rw [htext, h.dice.digitRun_eq hafter]
  have hgap : skipSpace w.afterDice = 'd' :: (w.space ++ (w.sides ++ w.rest)) :=
    h.gap.skipSpace_eq (by simp; decide)
  have hsides : digitRun (skipSpace (w.space ++ (w.sides ++ w.rest))) = (w.sides, w.rest) := by
    rw [h.space.skipSpace_eq (head?_sides h), h.sides.digitRun_eq hrest]
  simp only [Pattern.at?, hdice, hgap, hsides, h.dice.nonempty, h.sides.nonempty, or_self, if_false,
    pattern]

private theorem exists_of_at? {p : Pattern} (hascii : HasAsciiDigits cs) (h : Pattern.at? cs = some p) :
    ∃ w : Writing, w.before = [] ∧ w.IsIn cs ∧ w.pattern = p := by
  obtain ⟨tail, hd, hdice, hsides, rfl⟩ := Pattern.of_at?_eq_some h
  obtain ⟨gap, hgap, hafter⟩ := exists_gap (digitRun cs).2
  obtain ⟨space, hspace, htail⟩ := exists_gap tail
  rw [hd] at hafter
  have hcs : cs = (digitRun cs).1 ++ (gap ++ 'd' :: (space ++ skipSpace tail)) := by
    rw [← htail, ← hafter, digitRun_append]
  have hasciiTail : HasAsciiDigits (skipSpace tail) := fun c hc => hascii c (by
    rw [hcs]
    simp [hc])
  refine ⟨⟨[], (digitRun cs).1, gap, space, (digitRun (skipSpace tail)).1,
    (digitRun (skipSpace tail)).2⟩, rfl, ?_, rfl⟩
  have hrest : gap ++ 'd' :: (space ++ ((digitRun (skipSpace tail)).1 ++
      (digitRun (skipSpace tail)).2)) = (digitRun cs).2 := by
    rw [digitRun_append, ← htail, ← hafter]
  refine ⟨?_, ?_, hgap, hspace, digitRun_isRun hasciiTail hsides hspace.not_isDigit⟩
  · rw [afterDice, hrest, List.nil_append, digitRun_append]
  · rw [afterDice, hrest]
    exact digitRun_isRun hascii hdice (by simp)

/-- A roll in a text is still there when a character is put in front. It takes that character up
if its dice stand at the front and the character is a digit. -/
private theorem IsIn.exists_cons (h : w.IsIn cs) (c : Char) :
    ∃ v : Writing, v.IsIn (c :: cs) ∧ v.before.length ≤ w.before.length + 1 := by
  obtain ⟨htext, ⟨hsome, hdigits, hstart, hstop⟩, hgap, hspace, hsides⟩ := h
  cases hw : w.before with
  | nil =>
    cases hc : c.isDigit with
    | true =>
      refine ⟨{ w with before := [], dice := c :: w.dice }, ⟨?_, ?_, hgap, hspace, hsides⟩, by simp⟩
      · rw [htext, hw]
        rfl
      · exact ⟨by simp, List.forall_mem_cons.mpr ⟨hc, hdigits⟩, by simp, hstop⟩
    | false =>
      refine ⟨{ w with before := [c] }, ⟨?_, ⟨hsome, hdigits, ?_, hstop⟩, hgap, hspace, hsides⟩,
        by simp⟩
      · rw [htext, hw]
        rfl
      · simp [hc]
  | cons b before =>
    refine ⟨{ w with before := c :: b :: before },
      ⟨?_, ⟨hsome, hdigits, ?_, hstop⟩, hgap, hspace, hsides⟩, by simp⟩
    · rw [htext, hw]
      rfl
    · rw [hw] at hstart
      simpa using hstart

theorem IsIn.tail {c b : Char} {before : List Char} (h : w.IsIn (c :: cs))
    (hbefore : w.before = b :: before) : { w with before }.IsIn cs := by
  obtain ⟨htext, ⟨hsome, hdigits, hstart, hstop⟩, hgap, hspace, hsides⟩ := h
  rw [hbefore] at htext hstart
  obtain ⟨-, htail⟩ := List.cons.inj htext
  refine ⟨htail, ⟨hsome, hdigits, fun d hd => hstart d ?_, hstop⟩, hgap, hspace, hsides⟩
  rw [List.getLast?_cons, hd]
  rfl

theorem exists_isFirst (h : w.IsIn cs) : ∃ v : Writing, v.IsFirst cs := by
  obtain ⟨v, hv, hleast⟩ := (measure fun v : Writing => v.before.length).wf.has_min
    {v | v.IsIn cs} ⟨w, h⟩
  exact ⟨v, hv, fun u hu => not_lt.mp (hleast u hu)⟩

end Writing

/-- The scan stops at the first roll. -/
theorem Pattern.find?_of_isFirst {cs : List Char} (hascii : HasAsciiDigits cs) {w : Writing}
    (h : w.IsFirst cs) : Pattern.find? cs = some w.pattern := by
  induction cs generalizing w with
  | nil =>
    have htext := h.isIn.text
    simp [h.isIn.dice.nonempty] at htext
  | cons c cs ih =>
    cases hw : w.before with
    | nil => rw [Pattern.find?, h.isIn.at?_eq hascii hw, Option.some_or]
    | cons b before =>
      have hnone : Pattern.at? (c :: cs) = none := by
        refine Option.eq_none_iff_forall_ne_some.mpr fun p hp => ?_
        obtain ⟨v, hv, hin, -⟩ := Writing.exists_of_at? hascii hp
        have hle := h.least v hin
        simp [hw, hv] at hle
      have hfirst : { w with before }.IsFirst cs := by
        refine ⟨h.isIn.tail hw, fun v hv => ?_⟩
        obtain ⟨u, hu, hle⟩ := hv.exists_cons c
        have hleast := h.least u hu
        rw [hw, List.length_cons] at hleast
        exact Nat.le_of_succ_le_succ (hleast.trans hle)
      have hrest : HasAsciiDigits cs := fun d hd => hascii d (List.mem_cons_of_mem c hd)
      rw [Pattern.find?, hnone, Option.none_or, ih hrest hfirst]
      rfl

theorem Pattern.find?_of_not_isIn {cs : List Char} (hascii : HasAsciiDigits cs)
    (h : ∀ w : Writing, ¬ w.IsIn cs) : Pattern.find? cs = none := by
  induction cs with
  | nil => rfl
  | cons c cs ih =>
    have hnone : Pattern.at? (c :: cs) = none := by
      refine Option.eq_none_iff_forall_ne_some.mpr fun p hp => ?_
      obtain ⟨v, -, hin, -⟩ := Writing.exists_of_at? hascii hp
      exact h v hin
    have hrest : ∀ w : Writing, ¬ w.IsIn cs := fun w hw => by
      obtain ⟨v, hv, -⟩ := hw.exists_cons c
      exact h v hv
    rw [Pattern.find?, hnone, Option.none_or,
      ih (fun d hd => hascii d (List.mem_cons_of_mem c hd)) hrest]

end GuildBot.Dice
