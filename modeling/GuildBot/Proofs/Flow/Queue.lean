import GuildBot.Flow.Crowd
import Mathlib.Data.List.Nodup

namespace GuildBot.Hub

variable {σ ℓ : Type}

@[simp] theorem wake_state (h : Hub σ ℓ) (s : Strand) : (h.wake s).state = h.state := by
  unfold wake; split <;> rfl

@[simp] theorem wake_claims (h : Hub σ ℓ) (s : Strand) : (h.wake s).claims = h.claims := by
  unfold wake; split <;> rfl

@[simp] theorem foldl_wake_state (ss : List Strand) (h : Hub σ ℓ) :
    (ss.foldl wake h).state = h.state := by
  induction ss generalizing h with
  | nil => rfl
  | cons s ss ih => rw [List.foldl_cons, ih, wake_state]

@[simp] theorem foldl_wake_claims (ss : List Strand) (h : Hub σ ℓ) :
    (ss.foldl wake h).claims = h.claims := by
  induction ss generalizing h with
  | nil => rfl
  | cons s ss ih => rw [List.foldl_cons, ih, wake_claims]

@[simp] theorem claim_state (h : Hub σ ℓ) (l : ℓ) (s : Strand) : (h.claim l s).state = h.state := rfl

@[simp] theorem setTimer_state (h : Hub σ ℓ) (time : Nat) (s : Strand) :
    (h.setTimer time s).state = h.state := rfl

@[simp] theorem arrive_state (h : Hub σ ℓ) (time : Nat) : (h.arrive time).state = h.state := by
  simp [arrive]

variable [DecidableEq ℓ]

/-- Those who asked for a lock, in that order. -/
def queueIn (claims : List (ℓ × Strand)) (l : ℓ) : List Strand :=
  (claims.filter fun claim => claim.1 = l).map Prod.snd

/-- Those who asked for a lock and have not given it back. -/
def queue (h : Hub σ ℓ) (l : ℓ) : List Strand := queueIn h.claims l

private theorem holderIn_eq (claims : List (ℓ × Strand)) (l : ℓ) :
    holderIn claims l = (queueIn claims l).head? := by
  simp [holderIn, queueIn]

theorem holder?_eq (h : Hub σ ℓ) (l : ℓ) : h.holder? l = (h.queue l).head? := holderIn_eq h.claims l

private theorem count_queueIn (claims : List (ℓ × Strand)) (l : ℓ) (s : Strand) :
    (queueIn claims l).count s = claims.count (l, s) := by
  induction claims with
  | nil => rfl
  | cons claim rest ih =>
    obtain ⟨l', s'⟩ := claim
    unfold queueIn at ih ⊢
    by_cases hl : l' = l
    · subst hl
      simp [List.count_cons, ih, Prod.ext_iff]
    · simp [hl, ih]

theorem grants_iff (h : Hub σ ℓ) (l : ℓ) (s : Strand) :
    h.grants l s = true ↔ (h.queue l).head? = some s ∧ (h.queue l).count s = 1 := by
  simp [grants, holder?_eq, queue, count_queueIn]

theorem queue_claim (h : Hub σ ℓ) (l l' : ℓ) (s : Strand) :
    (h.claim l s).queue l' = if l' = l then h.queue l' ++ [s] else h.queue l' := by
  by_cases hl : l = l'
  · subst hl; simp [claim, queue, queueIn]
  · simp [claim, queue, queueIn, hl, Ne.symm hl]

private theorem queueIn_erase (claims : List (ℓ × Strand)) (l l' : ℓ) (s : Strand) :
    queueIn (claims.erase (l, s)) l' =
      if l' = l then (queueIn claims l').erase s else queueIn claims l' := by
  induction claims with
  | nil => simp [queueIn]
  | cons claim rest ih =>
    obtain ⟨k, t⟩ := claim
    unfold queueIn at ih ⊢
    by_cases hk : (k, t) = (l, s)
    · obtain ⟨rfl, rfl⟩ := Prod.mk.inj hk
      by_cases hl : l' = k
      · subst hl; simp
      · simp [hl, Ne.symm hl]
    · rw [List.erase_cons_tail (by simpa using hk)]
      by_cases hl : l' = l
      · subst hl
        by_cases hkl : k = l'
        · subst hkl
          have ht : t ≠ s := fun h => hk (by rw [h])
          rw [if_pos rfl] at ih
          simp [List.erase_cons_tail, ht, ih]
        · rw [if_pos rfl] at ih
          simp [hkl, ih]
      · by_cases hkl : k = l' <;> simp_all

theorem mem_heirs {old new : List (ℓ × Strand)} {l : ℓ} {s : Strand}
    (hnew : (queueIn new l).head? = some s) (hold : (queueIn old l).head? ≠ some s) :
    s ∈ heirs old new := by
  have hmem : (l, s) ∈ new := by
    obtain ⟨⟨l', s'⟩, hmem, rfl⟩ := List.mem_map.1 (List.mem_of_mem_head? hnew)
    simp only [List.mem_filter, decide_eq_true_eq] at hmem
    exact hmem.2 ▸ hmem.1
  simp only [heirs, List.mem_map, List.mem_filter, decide_eq_true_eq, holderIn_eq]
  exact ⟨(l, s), ⟨hmem, hnew, hold⟩, rfl⟩

@[simp] theorem withdraw_state (h : Hub σ ℓ) (claims : List (ℓ × Strand)) :
    (h.withdraw claims).state = h.state := by simp [withdraw]

@[simp] theorem withdraw_claims (h : Hub σ ℓ) (claims : List (ℓ × Strand)) :
    (h.withdraw claims).claims = claims := by simp [withdraw]

@[simp] theorem release_state (h : Hub σ ℓ) (l : ℓ) (s : Strand) :
    (h.release l s).state = h.state := by simp [release]

theorem queue_release (h : Hub σ ℓ) (l l' : ℓ) (s : Strand) :
    (h.release l s).queue l' = if l' = l then (h.queue l').erase s else h.queue l' := by
  simp [release, queue, queueIn_erase]

@[simp] theorem forget_state (h : Hub σ ℓ) (task : Nat) : (h.forget task).state = h.state := by
  simp [forget]

theorem queue_forget (h : Hub σ ℓ) (task : Nat) (l : ℓ) :
    (h.forget task).queue l = (h.queue l).filter fun s => s.task ≠ task := by
  simp only [forget, queue, withdraw_claims, queueIn, List.filter_filter, List.filter_map]
  congr 1
  apply List.filter_congr
  intro claim _
  simp [Bool.and_comm]

@[simp] theorem queue_wake (h : Hub σ ℓ) (s : Strand) (l : ℓ) : (h.wake s).queue l = h.queue l := by
  simp [queue]

@[simp] theorem queue_setTimer (h : Hub σ ℓ) (time : Nat) (s : Strand) (l : ℓ) :
    (h.setTimer time s).queue l = h.queue l := rfl

@[simp] theorem queue_arrive (h : Hub σ ℓ) (time : Nat) (l : ℓ) :
    (h.arrive time).queue l = h.queue l := by
  simp [queue, arrive]

@[simp] theorem queue_setState (h : Hub σ ℓ) (state : σ) (l : ℓ) :
    ({ h with state } : Hub σ ℓ).queue l = h.queue l := rfl

/-- Nobody asks twice for a lock that they keep asking for, so whoever asks stands in the queue
once, at its end. -/
theorem grants_claim_iff {h : Hub σ ℓ} {l : ℓ} {s : Strand} (hs : s ∉ h.queue l) :
    (h.claim l s).grants l s = true ↔ h.queue l = [] := by
  rw [grants_iff, queue_claim, if_pos rfl]
  cases hq : h.queue l with
  | nil => simp
  | cons t rest =>
    have ht : t ≠ s := fun h => hs (by rw [hq, h]; exact List.mem_cons_self)
    simp [ht]

theorem grants_iff_head {h : Hub σ ℓ} {l : ℓ} {s : Strand} (hn : (h.queue l).Nodup) :
    h.grants l s = true ↔ (h.queue l).head? = some s := by
  rw [grants_iff, and_iff_left_iff_imp]
  intro hs
  exact List.count_eq_one_of_mem hn (List.mem_of_mem_head? hs)

end GuildBot.Hub
