import GuildBot.Flow.Machine
import GuildBot.Proofs.Flow.Queue

namespace GuildBot

variable {σ ℓ γ : Type} {answer : γ → Type} {δ β : Type}

namespace Hub

@[simp] theorem wake_now (h : Hub σ ℓ) (s : Strand) : (h.wake s).now = h.now := by
  unfold wake; split <;> rfl

@[simp] theorem wake_timers (h : Hub σ ℓ) (s : Strand) : (h.wake s).timers = h.timers := by
  unfold wake; split <;> rfl

theorem mem_woken_wake {h : Hub σ ℓ} {s s' : Strand} :
    s' ∈ (h.wake s).woken ↔ s' ∈ h.woken ∨ s' = s := by
  unfold wake
  split
  · next hs => exact ⟨.inl, fun h' => h'.elim id fun heq => heq ▸ hs⟩
  · simp

@[simp] theorem foldl_wake_now (ss : List Strand) (h : Hub σ ℓ) : (ss.foldl wake h).now = h.now := by
  induction ss generalizing h with
  | nil => rfl
  | cons s ss ih => rw [List.foldl_cons, ih, wake_now]

@[simp] theorem foldl_wake_timers (ss : List Strand) (h : Hub σ ℓ) :
    (ss.foldl wake h).timers = h.timers := by
  induction ss generalizing h with
  | nil => rfl
  | cons s ss ih => rw [List.foldl_cons, ih, wake_timers]

private theorem mem_woken_foldl_wake {ss : List Strand} {h : Hub σ ℓ} {s : Strand} :
    s ∈ (ss.foldl wake h).woken ↔ s ∈ h.woken ∨ s ∈ ss := by
  induction ss generalizing h with
  | nil => simp
  | cons s' ss ih => rw [List.foldl_cons, ih, mem_woken_wake, List.mem_cons, or_assoc]

@[simp] theorem arrive_now (h : Hub σ ℓ) (time : Nat) : (h.arrive time).now = time := by
  simp [arrive]

@[simp] theorem arrive_claims (h : Hub σ ℓ) (time : Nat) : (h.arrive time).claims = h.claims := by
  simp [arrive]

@[simp] theorem arrive_timers (h : Hub σ ℓ) (time : Nat) :
    (h.arrive time).timers = h.timers.filter fun timer => time < timer.1 := by
  simp [arrive]

theorem mem_woken_arrive {h : Hub σ ℓ} {time : Nat} {s : Strand} :
    s ∈ (h.arrive time).woken ↔ s ∈ h.woken ∨ ∃ t ≤ time, (t, s) ∈ h.timers := by
  simp [arrive, mem_woken_foldl_wake, and_comm]

variable [DecidableEq ℓ]

@[simp] theorem withdraw_now (h : Hub σ ℓ) (claims : List (ℓ × Strand)) :
    (h.withdraw claims).now = h.now := by simp [withdraw]

@[simp] theorem withdraw_timers (h : Hub σ ℓ) (claims : List (ℓ × Strand)) :
    (h.withdraw claims).timers = h.timers := by simp [withdraw]

theorem mem_woken_withdraw {h : Hub σ ℓ} {claims : List (ℓ × Strand)} {s : Strand} :
    s ∈ (h.withdraw claims).woken ↔ s ∈ h.woken ∨ s ∈ heirs h.claims claims := by
  simp [withdraw, mem_woken_foldl_wake]

@[simp] theorem forget_now (h : Hub σ ℓ) (task : Nat) : (h.forget task).now = h.now := by
  simp [forget]

end Hub

namespace Task

def due (t : Task σ ℓ answer δ β) (now : Nat) : Option Nat := t.deadline.or (t.limit.map (now + ·))

/-- Sets the timer of the task's deadline, if it was not known before. -/
def arm (t : Task σ ℓ answer δ β) (number : Nat) (due : Option Nat) (h : Hub σ ℓ) : Hub σ ℓ :=
  match t.deadline, due with
  | none, some time => h.setTimer time ⟨number, none⟩
  | _, _ => h

section

variable (t : Task σ ℓ answer δ β) (number : Nat) (due : Option Nat) (h : Hub σ ℓ)

theorem arm_cases : t.arm number due h = h ∨ ∃ time, due = some time ∧
    t.arm number due h = h.setTimer time ⟨number, none⟩ := by
  unfold arm
  split
  · next time _ => exact .inr ⟨time, rfl, rfl⟩
  · exact .inl rfl

@[simp] theorem arm_state : (t.arm number due h).state = h.state := by
  rcases t.arm_cases number due h with heq | ⟨time, -, heq⟩
  · rw [heq]
  · rw [heq]
    rfl

@[simp] theorem arm_claims : (t.arm number due h).claims = h.claims := by
  rcases t.arm_cases number due h with heq | ⟨time, -, heq⟩
  · rw [heq]
  · rw [heq]
    rfl

end

variable [DecidableEq ℓ]

theorem poll_cases (respond : Respond σ answer) (number : Nat) (woken : List Nat) (h : Hub σ ℓ)
    (t : Task σ ℓ answer δ β) {work : Work σ ℓ answer δ β} {h' : Hub σ ℓ}
    (hwork : t.work.poll respond number woken h = (work, h')) :
    (∃ result, work.ending? = some result ∧ t.poll respond number woken h =
      ({ t with
          work
          deadline := t.due h.now
          ending := some (result.elim .panicked .value) }, h'.forget number)) ∨
    (work.ending? = none ∧ (∃ time, t.due h.now = some time ∧ time ≤ h'.now) ∧
      t.poll respond number woken h =
        ({ t with work, deadline := t.due h.now, ending := some .timedOut },
          { h'.forget number with state := t.onTimeout h'.state })) ∨
    (work.ending? = none ∧ (∀ time, t.due h.now = some time → h'.now < time) ∧
      t.poll respond number woken h =
        ({ t with work, deadline := t.due h.now }, t.arm number (t.due h.now) h')) := by
  have hdue : t.deadline.or (t.limit.map (h.now + ·)) = t.due h.now := rfl
  simp only [poll, hwork, hdue]
  cases hending : work.ending? with
  | some result => cases result with
    | none => exact .inl ⟨none, rfl, rfl⟩
    | some b => exact .inl ⟨some b, rfl, rfl⟩
  | none =>
    cases htime : t.due h.now with
    | none =>
      have hnone : t.deadline = none := by
        cases hd : t.deadline with
        | none => rfl
        | some time => simp [due, hd] at htime
      refine .inr (.inr ⟨rfl, by simp, ?_⟩)
      simp only [arm, hnone]
    | some time =>
      by_cases hle : time ≤ h'.now
      · refine .inr (.inl ⟨rfl, ⟨time, rfl, hle⟩, ?_⟩)
        simp only [hle, if_true, Hub.forget_state]
      · refine .inr (.inr ⟨rfl, ?_, ?_⟩)
        · intro time' htime'
          obtain rfl := Option.some.inj htime'
          omega
        · cases hd : t.deadline with
          | none => simp [hle, arm, hd]
          | some time' =>
            obtain rfl : time' = time := by simpa [due, hd] using htime
            simp [hle, arm, hd]

end Task

namespace Machine

variable [DecidableEq ℓ] (respond : Respond σ answer)

theorem run_of_rest {m : Machine σ ℓ answer δ β} (h : m.step? respond = none) (n : Nat) :
    m.run respond n = m := by
  cases n with
  | zero => rfl
  | succ n => simp only [run, h]

theorem run_succ_of_step {m m' : Machine σ ℓ answer δ β} (h : m.step? respond = some m') (n : Nat) :
    m.run respond (n + 1) = m'.run respond n := by
  simp only [run, h]

theorem run_add (k n : Nat) (m : Machine σ ℓ answer δ β) :
    m.run respond (k + n) = (m.run respond k).run respond n := by
  induction k generalizing m with
  | zero => rw [Nat.zero_add]; rfl
  | succ k ih =>
    rw [Nat.add_right_comm]
    cases hstep : m.step? respond with
    | none => rw [run_of_rest respond hstep, run_of_rest respond hstep, run_of_rest respond hstep]
    | some m' => rw [run_succ_of_step respond hstep, run_succ_of_step respond hstep, ih]

end Machine

end GuildBot
