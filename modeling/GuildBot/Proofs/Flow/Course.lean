import GuildBot.Flow.Course
import GuildBot.Proofs.Flow.Rest

namespace GuildBot

variable {σ ℓ γ ε : Type} [DecidableEq ℓ] {answer : γ → Type} {δ β : Type}

namespace Machine

variable {respond : Respond σ answer} {record : σ → List ε} {m m' : Machine σ ℓ answer δ β}

theorem entries_of_step (h : m.step? respond = some m') (n : Nat) :
    entries respond record (n + 1) m = added record m m' ++ entries respond record n m' := by
  simp only [entries, h]

private theorem entries_of_rest (h : m.step? respond = none) (n : Nat) :
    entries respond record n m = [] := by
  cases n with
  | zero => rfl
  | succ n => simp only [entries, h]

private theorem entries_add (k n : Nat) (m : Machine σ ℓ answer δ β) :
    entries respond record (k + n) m =
      entries respond record k m ++ entries respond record n (m.run respond k) := by
  induction k generalizing m with
  | zero => rw [Nat.zero_add]; rfl
  | succ k ih =>
    rw [Nat.add_right_comm]
    cases hstep : m.step? respond with
    | none => rw [entries_of_rest hstep, entries_of_rest hstep, run_of_rest respond hstep,
        entries_of_rest hstep, List.append_nil]
    | some m' => rw [entries_of_step hstep, entries_of_step hstep, run_succ_of_step respond hstep,
        ih, List.append_assoc]

private theorem time_of_mem_entries {n : Nat} {e : Nat × ε} (he : e ∈ entries respond record n m) :
    ∃ i < n, e.1 = (m.run respond (i + 1)).hub.now := by
  induction n generalizing m with
  | zero => cases he
  | succ n ih =>
    cases hstep : m.step? respond with
    | none =>
      rw [entries_of_rest hstep] at he
      cases he
    | some m' =>
      rw [entries_of_step hstep, List.mem_append] at he
      rcases he with he | he
      · obtain ⟨x, -, rfl⟩ := List.mem_map.1 he
        refine ⟨0, Nat.succ_pos n, ?_⟩
        rw [run_succ_of_step respond hstep]
        rfl
      · obtain ⟨i, hi, heq⟩ := ih he
        refine ⟨i + 1, by omega, ?_⟩
        rw [run_succ_of_step respond hstep, heq]

theorem Takes.of_rest (record : σ → List ε) (h : m.step? respond = none) :
    m.Takes respond record ⟨m.ending?, m.hub.now, m.hub.state, []⟩ :=
  ⟨0, h, rfl⟩

theorem Takes.of_step (h : m.step? respond = some m') {c : Course σ ε β}
    (hc : m'.Takes respond record c) :
    m.Takes respond record { c with entries := added record m m' ++ c.entries } := by
  obtain ⟨n, hrest, rfl⟩ := hc
  refine ⟨n + 1, ?_, ?_⟩
  · rwa [run_succ_of_step respond h]
  · simp only [course, run_succ_of_step respond h, entries_of_step h]

/-- A machine takes one course. -/
theorem Takes.unique {c c' : Course σ ε β} (h : m.Takes respond record c)
    (h' : m.Takes respond record c') : c = c' := by
  obtain ⟨n, hn, rfl⟩ := h
  obtain ⟨n', hn', rfl⟩ := h'
  have hmore (a b : Nat) (ha : (m.run respond a).step? respond = none) (hab : a ≤ b) :
      m.course respond record b = m.course respond record a := by
    obtain ⟨k, rfl⟩ := Nat.exists_eq_add_of_le hab
    simp only [course, run_add, run_of_rest respond ha, entries_add, entries_of_rest ha,
      List.append_nil]
  rcases Nat.le_total n n' with hle | hle
  · exact (hmore n n' hn hle).symm
  · exact hmore n' n hn' hle

/-- Every machine takes some course. -/
theorem exists_takes (respond : Respond σ answer) (record : σ → List ε)
    (m : Machine σ ℓ answer δ β) : ∃ c, m.Takes respond record c := by
  obtain ⟨n, hn⟩ := m.comes_to_rest respond
  exact ⟨_, n, hn, rfl⟩

/-- A machine that has not ended when it has reached a time ends no earlier. What it has added to the
record by then it has added no later than that, and the rest no earlier. -/
theorem Reaches.entries_eq {time n : Nat} (hn : m.Reaches respond time n) {c : Course σ ε β}
    (hc : m.Takes respond record c) (hgoing : (m.run respond n).ending? = none) :
    (c.ending ≠ none → time ≤ c.time) ∧ ∃ later,
      c.entries = entries respond record n m ++ later ∧
        (∀ e ∈ entries respond record n m, e.1 ≤ time) ∧ ∀ e ∈ later, time ≤ e.1 := by
  obtain ⟨k, hk, rfl⟩ := hc
  have hbefore : ∀ e ∈ entries respond record n m, e.1 ≤ time := by
    intro e he
    obtain ⟨i, hi, heq⟩ := time_of_mem_entries he
    exact heq ▸ hn.before (i + 1) hi
  by_cases hrest : (m.run respond n).step? respond = none
  · -- Nothing is left to do: the machine waits for ever.
    have hc : m.course respond record k = m.course respond record n :=
      Takes.unique ⟨k, hk, rfl⟩ ⟨n, hrest, rfl⟩
    rw [hc]
    exact ⟨fun hending => absurd hgoing hending, [], by simp [course], hbefore, nofun⟩
  · have hlt : n < k := by
      by_contra hle
      obtain ⟨j, rfl⟩ := Nat.exists_eq_add_of_le (Nat.le_of_not_lt hle)
      rw [run_add, run_of_rest respond hk] at hrest
      exact hrest hk
    obtain ⟨j, rfl⟩ := Nat.exists_eq_add_of_lt hlt
    refine ⟨fun _ => (hn.after _ hlt).resolve_left hrest,
      entries respond record (j + 1) (m.run respond n), ?_, hbefore, ?_⟩
    · simp only [course]
      rw [Nat.add_assoc, entries_add]
    · intro e he
      obtain ⟨i, -, heq⟩ := time_of_mem_entries he
      rw [heq, ← run_add]
      exact (hn.after _ (by omega)).resolve_left hrest

end Machine

end GuildBot
