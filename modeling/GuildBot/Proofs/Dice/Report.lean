import GuildBot.Dice.Report
import GuildBot.Proofs.Dice.Judgement
import Mathlib.Algebra.GroupWithZero.Nat

/-!
# The reply to a roll can be read back

A number in a reply ends where its digits do, and what follows the rolls goes on neither with a number nor
with another roll. So each part of a reply is read as it was written, and the reply tells the truth about
the rolls.
-/

namespace GuildBot.Dice

def EndsNumber (cs : List Char) : Prop := ∀ c ∈ cs.head?, c.isDigit = false

private theorem number?_toDigits (n : Nat) {rest : List Char} (h : EndsNumber rest) :
    number? (Nat.toDigits 10 n ++ rest) = some (n, rest) := by
  have hdigits : ∀ c ∈ Nat.toDigits 10 n, c.isDigit = true := by
    intro c hc
    exact Nat.isDigit_of_mem_toDigits (by decide) (by decide) hc
  have hrun : IsRun [] (Nat.toDigits 10 n) rest := ⟨Nat.toDigits_ne_nil, hdigits, by simp, h⟩
  have hvalue : number (Nat.toDigits 10 n) = n := Nat.ofDigitChars_toDigits (by decide) (by decide)
  obtain ⟨htake, hdrop⟩ := span_append hdigits h
  rw [number?, htake, hdrop, hrun.digits?_eq, hvalue, Option.map_some]

private theorem number?_eq_none {cs : List Char} (h : EndsNumber cs) : number? cs = none := by
  cases cs with
  | nil => rfl
  | cons c cs => simp [number?, h c rfl, Text.digits?]

private theorem toList_toString_int (n : Int) :
    (toString n).toList =
      if n < 0 then '-' :: Nat.toDigits 10 n.natAbs else Nat.toDigits 10 n.natAbs := by
  rw [show toString n = n.repr from rfl, Int.repr_eq_if]
  by_cases hn : n < 0
  · have habs : (-n).toNat = n.natAbs := by omega
    simp [hn, Int.not_le.2 hn, habs]
  · have habs : n.toNat = n.natAbs := by omega
    simp [hn, Int.not_lt.1 hn, habs]

private theorem integer?_toDigits (n : Nat) {rest : List Char} (h : EndsNumber rest) :
    integer? (Nat.toDigits 10 n ++ rest) = some ((n : Int), rest) := by
  have hread := number?_toDigits n h
  have hsign : ∀ c ∈ (Nat.toDigits 10 n ++ rest).head?, c ≠ '+' ∧ c ≠ '-' := by
    intro c hc
    obtain ⟨d, digits, hdigits⟩ := List.exists_cons_of_ne_nil (Nat.toDigits_ne_nil (n := n) (b := 10))
    have hmem : c ∈ Nat.toDigits 10 n := by
      rw [hdigits] at hc ⊢
      simp_all
    have hdigit := Nat.isDigit_of_mem_toDigits (by decide) (by decide) hmem
    constructor
    · rintro rfl
      cases hdigit
    · rintro rfl
      cases hdigit
  generalize Nat.toDigits 10 n ++ rest = cs at hread hsign
  unfold integer?
  split
  · exact absurd rfl (hsign _ rfl).1
  · exact absurd rfl (hsign _ rfl).2
  · rw [hread]
    rfl

private theorem integer?_toString (n : Int) {rest : List Char} (h : EndsNumber rest) :
    integer? ((toString n).toList ++ rest) = some (n, rest) := by
  rw [toList_toString_int]
  by_cases hn : n < 0
  · have habs : -(n.natAbs : Int) = n := by omega
    simp only [if_pos hn, List.cons_append, integer?, number?_toDigits n.natAbs h, Option.map_some, habs]
  · have habs : (n.natAbs : Int) = n := by omega
    rw [if_neg hn, integer?_toDigits n.natAbs h, habs]

private theorem toList_withSign (n : Int) :
    (withSign n).toList = (if n < 0 then '-' else '+') :: Nat.toDigits 10 n.natAbs := by
  unfold withSign
  by_cases hn : n < 0
  · rw [if_pos hn, toList_toString_int, if_pos hn, if_pos hn]
  · rw [if_neg hn, String.toList_append, toList_toString_int, if_neg hn, if_neg hn]
    rfl

private theorem integer?_withSign (n : Int) {rest : List Char} (h : EndsNumber rest) :
    integer? ((withSign n).toList ++ rest) = some (n, rest) := by
  rw [toList_withSign]
  by_cases hn : n < 0
  · have habs : -(n.natAbs : Int) = n := by omega
    simp only [if_pos hn, List.cons_append, integer?, number?_toDigits n.natAbs h, Option.map_some, habs]
  · have habs : (n.natAbs : Int) = n := by omega
    simp only [if_neg hn, List.cons_append, integer?, number?_toDigits n.natAbs h, Option.map_some, habs]

private theorem after?_append (mark : String) (rest : List Char) :
    after? mark (mark.toList ++ rest) = some rest := by
  simp [after?]

private theorem behind_append {α : Type} {mark : String} {read : List Char → Option (α × List Char)}
    {cs rest : List Char} {a : α} (h : read cs = some (a, rest)) :
    behind mark read (mark.toList ++ cs) = (some a, rest) := by
  simp [behind, after?_append, h]

private theorem behind_of_after? {α : Type} {mark : String} {read : List Char → Option (α × List Char)}
    {cs : List Char} (h : after? mark cs = none) : behind mark read cs = (none, cs) := by
  simp [behind, h]

/-- The text goes on neither with a digit nor with another roll. -/
structure EndsRolls (cs : List Char) : Prop where
  digits : EndsNumber cs
  comma : ∀ rest, after? ", " cs = some rest → number? rest = none
  last : after? " and " cs = none

private theorem number?_isSome_of_readRolls {fuel : Nat} {cs rest : List Char} {rolls : List Nat}
    (h : readRolls fuel cs = some (rolls, rest)) : (number? cs).isSome = true := by
  cases fuel with
  | zero => cases h
  | succ fuel =>
    cases hnumber : number? cs with
    | none => simp [readRolls, hnumber] at h
    | some p => rfl

private theorem readRolls_last {fuel n : Nat} {cs rest : List Char} (hn : number? cs = some (n, rest))
    (hrest : EndsRolls rest) : readRolls (fuel + 1) cs = some ([n], rest) := by
  have hcomma : (after? ", " rest).filter (fun cs => (number? cs).isSome) = none := by
    cases hafter : after? ", " rest with
    | none => rfl
    | some more => simp [hrest.comma more hafter]
  simp [readRolls, hn, hcomma, hrest.last]

private theorem readRolls_and {fuel n m : Nat} {cs more rest : List Char}
    (hn : number? cs = some (n, " and ".toList ++ more)) (hm : number? more = some (m, rest)) :
    readRolls (fuel + 1) cs = some ([n, m], rest) := by
  have hcomma : after? ", " (" and ".toList ++ more) = none := by simp [after?]
  rw [readRolls, hn, Option.bind_eq_bind, Option.bind_some]
  simp only [hcomma, Option.filter_none, after?_append, hm, Option.bind_some]

private theorem readRolls_comma {fuel n : Nat} {cs more rest : List Char} {ns : List Nat}
    (hn : number? cs = some (n, ", ".toList ++ more)) (hns : readRolls fuel more = some (ns, rest)) :
    readRolls (fuel + 1) cs = some (n :: ns, rest) := by
  have hmore := number?_isSome_of_readRolls hns
  rw [readRolls, hn, Option.bind_eq_bind, Option.bind_some]
  simp only [after?_append, Option.filter_some, hmore, if_true, hns, Option.bind_eq_bind,
    Option.bind_some]

private theorem readRolls_listing (n : Nat) (rolls : List Nat) {tail : List Char} (htail : EndsRolls tail)
    {fuel : Nat} (hfuel : ((listing ((n :: rolls).map toString)).toList ++ tail).length < fuel) :
    readRolls fuel ((listing ((n :: rolls).map toString)).toList ++ tail) =
      some (n :: rolls, tail) := by
  induction fuel generalizing n rolls with
  | zero => exact absurd hfuel (Nat.not_lt_zero _)
  | succ fuel ih =>
    rcases rolls with _ | ⟨m, _ | ⟨k, rest⟩⟩
    · apply readRolls_last _ htail
      simpa [listing] using number?_toDigits n htail.digits
    · refine readRolls_and ?_ (number?_toDigits m htail.digits)
      have hends : EndsNumber (" and ".toList ++ (Nat.toDigits 10 m ++ tail)) := by simp [EndsNumber]
      simpa [listing] using number?_toDigits n hends
    · have hmore := ih m (k :: rest) (by
        simp [listing] at hfuel ⊢
        omega)
      apply readRolls_comma _ hmore
      have hends : EndsNumber (", ".toList ++ ((listing ((m :: k :: rest).map toString)).toList ++ tail)) := by
        simp [EndsNumber]
      simpa [listing] using number?_toDigits n hends

/-- The end of a reply, which tells of the offset and the sum with it. -/
def offsetClause (offset newSum : Int) : List Char :=
  if offset = 0 then []
  else ", with ".toList ++ ((withSign offset).toList ++
    (" the total becomes ".toList ++ (toString newSum).toList))

def closing (rolls : List Nat) (offset : Int) : List Char :=
  if 1 < rolls.length then
    " for a total of ".toList ++ (Nat.toDigits 10 rolls.sum ++
      offsetClause offset (clamp (rolls.sum + offset)))
  else offsetClause offset (clamp (rolls.sum + offset))

private theorem total_eq_sum (rolls : List Nat) : total rolls = (rolls.sum : Int) := by
  rw [total, List.sum_eq_foldr]
  rfl

private theorem toList_describe (authorId : String) (rolls : List Nat) (offset : Int) :
    (describe authorId rolls offset).toList = ("<@" ++ authorId ++ "> rolled ").toList ++
      ((listing (rolls.map toString)).toList ++ closing rolls offset) := by
  have hsum : (total rolls).repr.toList = Nat.toDigits 10 rolls.sum := by
    rw [total_eq_sum]
    exact Nat.toList_repr
  unfold describe phrase closing offsetClause
  rw [← total_eq_sum, List.length_map]
  by_cases hcount : 1 < rolls.length
  · by_cases hoffset : offset = 0
    · simp [hcount, hoffset, hsum]
    · simp [hcount, hoffset, hsum]
  · by_cases hoffset : offset = 0
    · simp [hcount, hoffset]
    · simp [hcount, hoffset]

private theorem endsRolls_offsetClause (offset newSum : Int) : EndsRolls (offsetClause offset newSum) := by
  unfold offsetClause
  split
  · exact ⟨by simp [EndsNumber], by simp [after?], by simp [after?]⟩
  · refine ⟨by simp [EndsNumber], ?_, by simp [after?]⟩
    intro rest hrest
    apply number?_eq_none
    simp [after?] at hrest
    simp [← hrest, EndsNumber]

private theorem after?_sum_offsetClause (offset newSum : Int) :
    after? " for a total of " (offsetClause offset newSum) = none := by
  unfold offsetClause
  split <;> simp [after?]

private theorem endsRolls_closing (rolls : List Nat) (offset : Int) : EndsRolls (closing rolls offset) := by
  unfold closing
  split
  · exact ⟨by simp [EndsNumber], by simp [after?], by simp [after?]⟩
  · exact endsRolls_offsetClause _ _

private theorem behind_offsetClause (offset newSum : Int) : ∃ rest,
    behind ", with " integer? (offsetClause offset newSum) =
      (if offset = 0 then none else some offset, rest) ∧
    behind " the total becomes " integer? rest = (if offset = 0 then none else some newSum, []) := by
  unfold offsetClause
  by_cases hoffset : offset = 0
  · refine ⟨[], ?_, ?_⟩
    · simp [hoffset, behind, after?]
    · simp [hoffset, behind, after?]
  · refine ⟨" the total becomes ".toList ++ (toString newSum).toList, ?_, ?_⟩
    · rw [if_neg hoffset, if_neg hoffset]
      apply behind_append
      apply integer?_withSign
      simp [EndsNumber]
    · rw [if_neg hoffset]
      apply behind_append
      have hends : EndsNumber [] := by simp [EndsNumber]
      simpa using integer?_toString newSum hends

private theorem behind_closing (rolls : List Nat) (offset : Int) :
    behind " for a total of " number? (closing rolls offset) =
      (if 1 < rolls.length then some rolls.sum else none,
        offsetClause offset (clamp (rolls.sum + offset))) := by
  have hclause := endsRolls_offsetClause offset (clamp (rolls.sum + offset))
  unfold closing
  by_cases hcount : 1 < rolls.length
  · rw [if_pos hcount, if_pos hcount]
    apply behind_append
    exact number?_toDigits rolls.sum hclause.digits
  · rw [if_neg hcount, if_neg hcount]
    exact behind_of_after? (after?_sum_offsetClause ..)

private theorem readRolls_closing (rolls : List Nat) (offset : Int) {body : List Char}
    (hbody : body = (listing (rolls.map toString)).toList ++ closing rolls offset) :
    (readRolls (body.length + 1) body).getD ([], body) = (rolls, closing rolls offset) := by
  have hends := endsRolls_closing rolls offset
  cases rolls with
  | nil =>
    have hnone : readRolls (body.length + 1) body = none := by
      have hnumber : number? body = none := by
        rw [hbody]
        simpa [listing] using number?_eq_none hends.digits
      rw [readRolls, hnumber]
      rfl
    rw [hnone, hbody]
    simp [listing]
  | cons n rolls =>
    rw [hbody, readRolls_listing n rolls hends (Nat.lt_succ_self _)]
    rfl

private theorem Report.read?_describe (authorId : String) (rolls : List Nat) (offset : Int) :
    Report.read? authorId (describe authorId rolls offset) = some {
      rolls
      sum := if 1 < rolls.length then some rolls.sum else none
      offset := if offset = 0 then none else some offset
      newSum := if offset = 0 then none else some (clamp (rolls.sum + offset)) } := by
  obtain ⟨rest, hoffset, hnewSum⟩ := behind_offsetClause offset (clamp (rolls.sum + offset))
  rw [Report.read?, toList_describe, after?_append, Option.bind_eq_bind, Option.bind_some,
    readRolls_closing rolls offset rfl]
  simp only [behind_closing, hoffset, hnewSum, if_true]

private theorem readOffset_offsetClause (offset newSum : Int) :
    readOffset (offsetClause offset newSum) = offset := by
  unfold readOffset
  rw [after?_sum_offsetClause, Option.bind_none]
  unfold offsetClause
  by_cases hoffset : offset = 0
  · rw [if_pos hoffset, hoffset]
    rfl
  · have hends : EndsNumber (" the total becomes ".toList ++ (toString newSum).toList) := by
      simp [EndsNumber]
    have hnumber := number?_toDigits offset.natAbs hends
    rw [if_neg hoffset]
    dsimp only
    rw [after?_append, toList_withSign]
    by_cases hn : offset < 0
    · rw [if_pos hn, List.cons_append]
      simp only [hnumber, Option.map_some, Option.getD_some]
      omega
    · rw [if_neg hn, List.cons_append]
      simp only [hnumber, Option.map_some, Option.getD_some]
      omega

private theorem readOffset_closing (rolls : List Nat) (offset : Int) :
    readOffset (closing rolls offset) = offset := by
  have hoffset := readOffset_offsetClause offset (clamp (rolls.sum + offset))
  unfold closing
  by_cases hcount : 1 < rolls.length
  · have hnumber := number?_toDigits rolls.sum
      (endsRolls_offsetClause offset (clamp (rolls.sum + offset))).digits
    rw [if_pos hcount]
    unfold readOffset at hoffset ⊢
    rw [after?_sum_offsetClause, Option.bind_none] at hoffset
    rw [after?_append, Option.bind_some, hnumber]
    exact hoffset
  · rw [if_neg hcount, hoffset]

/-- The rolls and the offset are recovered from a reply by its author and its text. -/
private theorem read?_describe (authorId : String) (rolls : List Nat) (offset : Int) :
    read? authorId (describe authorId rolls offset) = some (rolls, offset) := by
  rw [read?, toList_describe, after?_append, Option.bind_eq_bind, Option.bind_some,
    readRolls_closing rolls offset rfl]
  simp only [readOffset_closing, if_true]

private theorem sumFrom?_eq {rolls : List Nat} {sum : Nat} (h : (sum + rolls.sum : Int) ≤ Text.maxSigned64) :
    sumFrom? sum rolls = some ((sum : Int) + rolls.sum) := by
  induction rolls generalizing sum with
  | nil => simp [sumFrom?]
  | cons n rolls ih =>
    rw [List.sum_cons] at h ⊢
    have hn : (sum : Int) + n ≤ Text.maxSigned64 := by omega
    have hlimit : ((sum + n : Nat) : Int) + rolls.sum ≤ Text.maxSigned64 := by omega
    have hrest := ih hlimit
    rw [sumFrom?, if_pos hn]
    push_cast at hrest ⊢
    rw [hrest, Int.add_assoc]

private theorem sum_le {rolls : List Nat} (h : ∀ n ∈ rolls, n ≤ Text.max32) :
    rolls.sum ≤ rolls.length * Text.max32 := by
  induction rolls with
  | nil => simp
  | cons n rolls ih =>
    obtain ⟨hn, hrolls⟩ := List.forall_mem_cons.1 h
    have hrest := ih hrolls
    rw [List.sum_cons, List.length_cons, Nat.succ_mul]
    omega

private theorem sumFrom?_rolls {rolls : List Nat} (hcount : rolls.length < 2147483648)
    (hrolls : ∀ n ∈ rolls, n ≤ Text.max32) : sumFrom? 0 rolls = some (rolls.sum : Int) := by
  have hsum := sum_le hrolls
  have hmost : rolls.length * Text.max32 ≤ 2147483647 * Text.max32 :=
    Nat.mul_le_mul_right _ (Nat.le_of_lt_succ hcount)
  have hlimit : ((0 : Nat) + rolls.sum : Int) ≤ Text.maxSigned64 := by
    rw [Text.max32] at hsum hmost
    rw [Text.maxSigned64]
    omega
  simpa using sumFrom?_eq hlimit

/-- The sum of the rolls is made without overflow. What a reply tells is every roll in order, the exact sum of
two rolls or more, the offset if there is one, and the sum with it as far as 64 bits go. So the rolls and
the offset can be recovered, and no other roll has the same reply. -/
theorem reply_tells_truth (authorId : String) (rolls : List Nat) (offset : Int) :
    (rolls.length < 2147483648 → (∀ n ∈ rolls, n ≤ Text.max32) →
      sumFrom? 0 rolls = some (rolls.sum : Int)) ∧
    Report.read? authorId (describe authorId rolls offset) = some {
      rolls
      sum := if 1 < rolls.length then some rolls.sum else none
      offset := if offset = 0 then none else some offset
      newSum := if offset = 0 then none
        else some (max (-9223372036854775808) (min 9223372036854775807 (rolls.sum + offset))) } ∧
    read? authorId (describe authorId rolls offset) = some (rolls, offset) ∧
    ∀ rolls' offset', describe authorId rolls' offset' = describe authorId rolls offset →
      rolls' = rolls ∧ offset' = offset := by
  have htold := Report.read?_describe authorId rolls offset
  rw [clamp, Text.minSigned64, Text.maxSigned64] at htold
  refine ⟨sumFrom?_rolls, htold, read?_describe .., ?_⟩
  intro rolls' offset' hsame
  have hread := read?_describe authorId rolls' offset'
  rw [hsame, read?_describe] at hread
  obtain ⟨hrolls, hoffset⟩ := Prod.mk.inj (Option.some.inj hread)
  exact ⟨hrolls.symm, hoffset.symm⟩

/-- The greatest roll and the greatest offset: the sum with the offset stops at the end of 64 bits. -/
theorem reply_tells_truth_clamped :
    (∀ n ∈ [4294967295, 1], n ≤ Text.max32) ∧ sumFrom? 0 [4294967295, 1] = some 4294967296 ∧
    describe "42" [4294967295, 1] 9223372036854775807 =
      "<@42> rolled 4294967295 and 1 for a total of 4294967296, " ++
        "with +9223372036854775807 the total becomes 9223372036854775807" ∧
    Report.read? "42" (describe "42" [4294967295, 1] 9223372036854775807) =
      some ⟨[4294967295, 1], some 4294967296, some 9223372036854775807, some 9223372036854775807⟩ := by
  have hrolls : ∀ n ∈ [4294967295, 1], n ≤ Text.max32 := by simp [Text.max32]
  obtain ⟨hsum, hread, -⟩ := reply_tells_truth "42" [4294967295, 1] 9223372036854775807
  refine ⟨hrolls, ?_, by decide +kernel, ?_⟩
  · simpa using hsum (by decide) hrolls
  · rw [hread]
    simp

end GuildBot.Dice
