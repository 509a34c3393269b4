import Mathlib.Data.List.TakeWhile

namespace GuildBot

theorem span_append {p : Char → Bool} {xs ys : List Char} (hxs : ∀ c ∈ xs, p c = true)
    (hys : ∀ c ∈ ys.head?, p c = false) :
    (xs ++ ys).takeWhile p = xs ∧ (xs ++ ys).dropWhile p = ys := by
  rw [List.takeWhile_append_of_pos hxs, List.dropWhile_append_of_pos hxs]
  cases ys with
  | nil => simp
  | cons c ys => simp [hys c rfl]

theorem head_dropWhile {p : Char → Bool} {cs : List Char} {c : Char} (h : c ∈ (cs.dropWhile p).head?) :
    p c = false := by
  have hstop := List.head?_dropWhile_not p cs
  rw [h] at hstop
  simpa using hstop

theorem span_eq (p : Char → Bool) (cs : List Char) :
    ∃ xs ys, cs = xs ++ ys ∧ cs.takeWhile p = xs ∧ cs.dropWhile p = ys ∧ (∀ c ∈ xs, p c = true) ∧
      ∀ c ∈ ys.head?, p c = false :=
  ⟨cs.takeWhile p, cs.dropWhile p, List.takeWhile_append_dropWhile.symm, rfl, rfl,
    fun _ hc => List.mem_takeWhile_imp hc, fun _ hc => head_dropWhile hc⟩

end GuildBot
