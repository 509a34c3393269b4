import Mathlib.Data.List.Basic

namespace GuildBot

variable {α β : Type} {P : α → Prop} {Q : β → Prop} {as : List α}

def AllButOne (P : α → Prop) (as : List α) : Prop :=
  ∀ (m n : Nat) (a b : α), m ≠ n → as[m]? = some a → as[n]? = some b → P a ∨ P b

namespace AllButOne

theorem of_pairwise (h : as.Pairwise fun a b => P a ∨ P b) : AllButOne P as := by
  have hlt {m n : Nat} {a b : α} (hmn : m < n) (ha : as[m]? = some a) (hb : as[n]? = some b) :
      P a ∨ P b := by
    obtain ⟨hm, rfl⟩ := List.getElem?_eq_some_iff.1 ha
    obtain ⟨hn, rfl⟩ := List.getElem?_eq_some_iff.1 hb
    exact List.pairwise_iff_getElem.1 h m n hm hn hmn
  intro m n a b hne ha hb
  rcases Nat.lt_or_gt_of_ne hne with hmn | hmn
  · exact hlt hmn ha hb
  · exact (hlt hmn hb ha).symm

theorem map {f : α → β} (h : AllButOne P as) (hf : ∀ a, P a → Q (f a)) :
    AllButOne Q (as.map f) := by
  intro m n b b' hne hb hb'
  rw [List.getElem?_map] at hb hb'
  obtain ⟨a, ha, rfl⟩ := Option.map_eq_some_iff.1 hb
  obtain ⟨a', ha', rfl⟩ := Option.map_eq_some_iff.1 hb'
  exact (h m n a a' hne ha ha').imp (hf a) (hf a')

theorem set {n : Nat} {a b : α} (h : AllButOne P as) (hn : as[n]? = some a) (hb : P a → P b) :
    AllButOne P (as.set n b) := by
  obtain ⟨hlen, -⟩ := List.getElem?_eq_some_iff.1 hn
  intro i j c d hij hc hd
  by_cases hin : i = n
  · subst hin
    rw [List.getElem?_set_self hlen] at hc
    rw [List.getElem?_set_ne hij] at hd
    cases hc
    exact (h i j a d hij hn hd).imp_left hb
  · rw [List.getElem?_set_ne (Ne.symm hin)] at hc
    by_cases hjn : j = n
    · subst hjn
      rw [List.getElem?_set_self hlen] at hd
      cases hd
      exact (h i j c a hij hc hn).imp_right hb
    · rw [List.getElem?_set_ne (Ne.symm hjn)] at hd
      exact h i j c d hij hc hd

end AllButOne

end GuildBot
