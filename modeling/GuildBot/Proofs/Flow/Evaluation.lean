import GuildBot.Proofs.Flow.Turn

/-!
# Programs on their own

A program with nobody beside it never waits in vain, unless for a lock that it holds itself. `eval`
is what it comes to if it never does, and `alone` keeps account of the locks that it holds. Programs
that are put together from unhindered ones are unhindered: for them the two agree.
-/

namespace GuildBot

variable {σ ℓ γ : Type} {answer : γ → Type} {α β : Type}

/-- What a program on its own comes to. It is stuck when it asks for a lock that it holds. -/
inductive Conclusion (α : Type) where
  | value (a : α)
  | panicked
  | stuck
  deriving DecidableEq

def Conclusion.ofOption : Option α → Conclusion α
  | some a => .value a
  | none => .panicked

/-- What a program on its own comes to, with the locks that it holds then and the state. -/
abbrev Result (σ ℓ α : Type) : Type := Conclusion α × List ℓ × σ

def Result.andThen (f : α → List ℓ → σ → Result σ ℓ β) : Result σ ℓ α → Result σ ℓ β
  | (.value a, held, s) => f a held s
  | (.panicked, held, s) => (.panicked, held, s)
  | (.stuck, held, s) => (.stuck, held, s)

def Result.andLast (last : List ℓ → σ → Result σ ℓ Unit) : Result σ ℓ α → Result σ ℓ α
  | (.value a, held, s) => Result.andThen (fun _ held s => (.value a, held, s)) (last held s)
  | (.panicked, held, s) => Result.andThen (fun _ held s => (.panicked, held, s)) (last held s)
  | (.stuck, held, s) => (.stuck, held, s)

def Result.orElse (instead : List ℓ → σ → Result σ ℓ α) : Result σ ℓ α → Result σ ℓ α
  | (.value a, held, s) => (.value a, held, s)
  | (.panicked, held, s) => instead held s
  | (.stuck, held, s) => (.stuck, held, s)

namespace Flow

/-- What a program comes to on its own, with every lock that it asks for free: a value, or none
after a panic. -/
def eval (respond : Respond σ answer) : Program σ ℓ answer α → σ → Option α × σ
  | .done a, s => (some a, s)
  | .panic, s => (none, s)
  | .act update next, s => eval respond (next s) (update s)
  | .ask (.lock _) next, s => eval respond (next ()) s
  | .ask (.unlock _) next, s => eval respond (next ()) s
  | .ask (.wait _) next, s => eval respond (next ()) s
  | .ask .pause next, s => eval respond (next ()) s
  | .ask (.call c) next, s => eval respond (next (respond s c).2.2) (respond s c).1

def alone [DecidableEq ℓ] (respond : Respond σ answer) :
    Program σ ℓ answer α → List ℓ → σ → Result σ ℓ α
  | .done a, held, s => (.value a, held, s)
  | .panic, held, s => (.panicked, held, s)
  | .act update next, held, s => alone respond (next s) held (update s)
  | .ask (.lock l) next, held, s =>
    if l ∈ held then (.stuck, held ++ [l], s) else alone respond (next ()) (held ++ [l]) s
  | .ask (.unlock l) next, held, s => alone respond (next ()) (held.erase l) s
  | .ask (.wait _) next, held, s => alone respond (next ()) held s
  | .ask .pause next, held, s => alone respond (next ()) held s
  | .ask (.call c) next, held, s => alone respond (next (respond s c).2.2) held (respond s c).1

/-- A program that makes no more than `n` requests, whatever the replies and the state. -/
def Brief : Program σ ℓ answer α → Nat → Prop
  | .done _, _ => True
  | .panic, _ => True
  | .act _ next, n => ∀ s, Brief (next s) n
  | .ask _ next, n => ∃ m, n = m + 1 ∧ ∀ x, Brief (next x) m

section

variable (respond : Respond σ answer)

@[simp] theorem eval_done (a : α) (s : σ) :
    eval respond (.done a : Program σ ℓ answer α) s = (some a, s) := rfl

@[simp] theorem eval_panic (s : σ) :
    eval respond (.panic : Program σ ℓ answer α) s = (none, s) := rfl

@[simp] theorem eval_act (update : σ → σ) (next : σ → Program σ ℓ answer α) (s : σ) :
    eval respond (.act update next) s = eval respond (next s) (update s) := rfl

theorem eval_bind (f : Program σ ℓ answer α) (g : α → Program σ ℓ answer β) (s : σ) :
    eval respond (f.bind g) s = match eval respond f s with
      | (some a, s) => eval respond (g a) s
      | (none, s) => (none, s) := by
  fun_induction eval respond f s <;> simp_all [Flow.bind, eval]

theorem eval_bind_done (f : Program σ ℓ answer α) (g : α → β) (s : σ) :
    eval respond (f.bind fun a => .done (g a)) s =
      ((eval respond f s).1.map g, (eval respond f s).2) := by
  rw [eval_bind]
  rcases eval respond f s with ⟨_ | a, s⟩
  · rfl
  · rfl

theorem eval_rescue (f instead : Program σ ℓ answer α) (s : σ) :
    eval respond (f.rescue instead) s = match eval respond f s with
      | (some a, s) => (some a, s)
      | (none, s) => eval respond instead s := by
  fun_induction eval respond f s <;> simp_all [Flow.rescue, eval]

private theorem eval_andFinally_unlock (f : Program σ ℓ answer α) (l : ℓ) (s : σ) :
    eval respond (f.andFinally (.ask (.unlock l) .done)) s = eval respond f s := by
  fun_induction eval respond f s <;> simp_all [Flow.andFinally, Flow.bind, eval]

@[simp] theorem eval_holding (l : ℓ) (body : Program σ ℓ answer α) (s : σ) :
    eval respond (Program.holding l body) s = eval respond body s :=
  eval_andFinally_unlock respond body l s

/-- Whether a program on its own comes to a value and a state of which `Q` holds, or else panics in a
state of which `P` holds. -/
def Ends (P : σ → Prop) (f : Program σ ℓ answer α) (s : σ) (Q : α → σ → Prop) : Prop :=
  match eval respond f s with
  | (some a, s) => Q a s
  | (none, s) => P s

namespace Ends

variable {respond} {P P' : σ → Prop} {f : Program σ ℓ answer α} {g : α → Program σ ℓ answer β}
  {s : σ} {Q Q' : α → σ → Prop} {R : β → σ → Prop}

theorem done {a : α} (h : Q a s) : Ends respond P (.done a : Program σ ℓ answer α) s Q := h

theorem bind (hf : Ends respond P f s Q) (hg : ∀ a s, Q a s → Ends respond P (g a) s R) :
    Ends respond P (f.bind g) s R := by
  unfold Ends at hf ⊢
  rw [eval_bind]
  generalize eval respond f s = r at hf ⊢
  obtain ⟨_ | a, s⟩ := r
  · exact hf
  · exact hg a s hf

theorem mono (h : Ends respond P f s Q) (hp : ∀ s, P s → P' s) (hq : ∀ a s, Q a s → Q' a s) :
    Ends respond P' f s Q' := by
  unfold Ends at h ⊢
  generalize eval respond f s = r at h ⊢
  obtain ⟨_ | a, s⟩ := r
  · exact hp s h
  · exact hq a s h

theorem of_eval {a : α} {s' : σ} (h : eval respond f s = (some a, s')) (hq : Q a s') :
    Ends respond P f s Q := by
  unfold Ends
  rw [h]
  exact hq

theorem bind_of_eval {a : α} {s' : σ} (h : eval respond f s = (some a, s'))
    (hg : Ends respond P (g a) s' R) : Ends respond P (f.bind g) s R := by
  unfold Ends at hg ⊢
  rw [eval_bind, h]
  exact hg

theorem of_value (hp : P (eval respond f s).2)
    (hq : ∀ a, (eval respond f s).1 = some a → Q a (eval respond f s).2) :
    Ends respond P f s Q := by
  unfold Ends
  generalize eval respond f s = r at hp hq ⊢
  obtain ⟨_ | a, s'⟩ := r
  · exact hp
  · exact hq a rfl

theorem of_state (h : P (eval respond f s).2) : Ends respond P f s fun _ => P := by
  unfold Ends
  generalize eval respond f s = r at h ⊢
  obtain ⟨_ | a, s'⟩ := r
  · exact h
  · exact h

theorem eval_eq (h : Ends respond (fun _ => False) f s Q) :
    ∃ a s', eval respond f s = (some a, s') ∧ Q a s' := by
  unfold Ends at h
  generalize eval respond f s = r at h ⊢
  obtain ⟨_ | a, s'⟩ := r
  · exact h.elim
  · exact ⟨a, s', rfl, h⟩

theorem state (h : Ends respond P f s fun _ => P) : P (eval respond f s).2 := by
  unfold Ends at h
  generalize eval respond f s = r at h ⊢
  obtain ⟨_ | a, s'⟩ := r
  · exact h
  · exact h

end Ends

variable [DecidableEq ℓ]

private theorem alone_bind (f : Program σ ℓ answer α) (g : α → Program σ ℓ answer β) (held : List ℓ)
    (s : σ) :
    alone respond (f.bind g) held s =
      (alone respond f held s).andThen fun a => alone respond (g a) := by
  fun_induction alone respond f held s <;> simp_all [Flow.bind, alone, Result.andThen]

private theorem alone_andFinally (f : Program σ ℓ answer α) (last : Program σ ℓ answer Unit)
    (held : List ℓ) (s : σ) :
    alone respond (f.andFinally last) held s =
      (alone respond f held s).andLast (alone respond last) := by
  fun_induction alone respond f held s <;>
    simp_all [Flow.andFinally, alone, alone_bind, Result.andLast]

private theorem alone_rescue (f instead : Program σ ℓ answer α) (held : List ℓ) (s : σ) :
    alone respond (f.rescue instead) held s =
      (alone respond f held s).orElse (alone respond instead) := by
  fun_induction alone respond f held s <;> simp_all [Flow.rescue, alone, Result.orElse]

end

theorem Brief.mono {f : Program σ ℓ answer α} {m n : Nat} (h : Brief f m) (hmn : m ≤ n) :
    Brief f n := by
  induction f generalizing m n with
  | done => trivial
  | panic => trivial
  | act update next ih => exact fun s => ih s (h s) hmn
  | ask request next ih =>
    obtain ⟨k, rfl, hk⟩ := h
    exact ⟨n - 1, by omega, fun x => ih x (hk x) (by omega)⟩

theorem Brief.bind {f : Program σ ℓ answer α} {g : α → Program σ ℓ answer β} {m n : Nat}
    (hf : Brief f m) (hg : ∀ a, Brief (g a) n) : Brief (f.bind g) (m + n) := by
  induction f generalizing m with
  | done a => exact (hg a).mono (by omega)
  | panic => trivial
  | act update next ih => exact fun s => ih s (hf s)
  | ask request next ih =>
    obtain ⟨k, rfl, hk⟩ := hf
    exact ⟨k + n, by omega, fun x => ih x (hk x)⟩

theorem Brief.andUnlock {f : Program σ ℓ answer α} {m : Nat} (hf : Brief f m) (l : ℓ) :
    Brief (f.andFinally (.ask (.unlock l) .done)) (m + 1) := by
  induction f generalizing m with
  | done a => exact ⟨m, rfl, fun _ => trivial⟩
  | panic => exact ⟨m, rfl, fun _ => trivial⟩
  | act update next ih => exact fun s => ih s (hf s)
  | ask request next ih =>
    obtain ⟨k, rfl, hk⟩ := hf
    exact ⟨k + 1, rfl, fun x => ih x (hk x)⟩

theorem Brief.rescue {f instead : Program σ ℓ answer α} {m n : Nat} (hf : Brief f m)
    (hi : Brief instead n) : Brief (f.rescue instead) (m + n) := by
  induction f generalizing m with
  | done a => trivial
  | panic => exact hi.mono (by omega)
  | act update next ih => exact fun s => ih s (hf s)
  | ask request next ih =>
    obtain ⟨k, rfl, hk⟩ := hf
    exact ⟨k + n, by omega, fun x => ih x (hk x)⟩

/-- A program that makes no more than `n` requests and never asks for a lock that it holds, if it
holds none of `uses` when it begins. -/
structure Unhindered [DecidableEq ℓ] (uses : List ℓ) (f : Program σ ℓ answer α) (n : Nat) : Prop where
  brief : Brief f n
  alone_eq : ∀ (respond : Respond σ answer) (held : List ℓ) (s : σ), (∀ l ∈ uses, l ∉ held) →
    alone respond f held s = (.ofOption (eval respond f s).1, held, (eval respond f s).2)

namespace Unhindered

variable [DecidableEq ℓ] {uses uses' : List ℓ} {m n : Nat}

theorem mono {f : Program σ ℓ answer α} (h : Unhindered uses f m) (hu : uses ⊆ uses')
    (hmn : m ≤ n) : Unhindered uses' f n :=
  ⟨h.brief.mono hmn, fun respond held s hheld =>
    h.alone_eq respond held s fun l hl => hheld l (hu hl)⟩

theorem done (a : α) : Unhindered uses (.done a : Program σ ℓ answer α) 0 :=
  ⟨trivial, fun _ _ _ _ => rfl⟩

theorem panic : Unhindered uses (.panic : Program σ ℓ answer α) 0 := ⟨trivial, fun _ _ _ _ => rfl⟩

theorem act (update : σ → σ) {next : σ → Program σ ℓ answer α} (h : ∀ s, Unhindered uses (next s) n) :
    Unhindered uses (.act update next) n :=
  ⟨fun s => (h s).brief, fun respond held s hheld => (h s).alone_eq respond held (update s) hheld⟩

theorem call (c : γ) : Unhindered uses (Program.call c : Program σ ℓ answer (answer c)) 1 :=
  ⟨⟨0, rfl, fun _ => trivial⟩, fun _ _ _ _ => rfl⟩

theorem bind {f : Program σ ℓ answer α} {g : α → Program σ ℓ answer β} (hf : Unhindered uses f m)
    (hg : ∀ a, Unhindered uses (g a) n) : Unhindered uses (f.bind g) (m + n) := by
  refine ⟨hf.brief.bind fun a => (hg a).brief, ?_⟩
  intro respond held s hheld
  rw [alone_bind, eval_bind, hf.alone_eq respond held s hheld]
  rcases eval respond f s with ⟨_ | a, s⟩
  · rfl
  · exact (hg a).alone_eq respond held s hheld

theorem rescue {f instead : Program σ ℓ answer α} (hf : Unhindered uses f m)
    (hi : Unhindered uses instead n) : Unhindered uses (f.rescue instead) (m + n) := by
  refine ⟨hf.brief.rescue hi.brief, ?_⟩
  intro respond held s hheld
  rw [alone_rescue, eval_rescue, hf.alone_eq respond held s hheld]
  rcases eval respond f s with ⟨_ | a, s⟩
  · exact hi.alone_eq respond held s hheld
  · rfl

theorem holding {l : ℓ} {body : Program σ ℓ answer α} (h : Unhindered uses body n)
    (hl : l ∉ uses) : Unhindered (l :: uses) (Program.holding l body) (n + 2) := by
  refine ⟨⟨n + 1, rfl, fun _ => h.brief.andUnlock l⟩, ?_⟩
  intro respond held s hheld
  have hfree : l ∉ held := hheld l List.mem_cons_self
  have hbody : ∀ l' ∈ uses, l' ∉ held ++ [l] := by
    intro l' hl' hmem
    rcases List.mem_append.1 hmem with hmem | hmem
    · exact hheld l' (List.mem_cons_of_mem l hl') hmem
    · exact hl (List.mem_singleton.1 hmem ▸ hl')
  have herase : (held ++ [l]).erase l = held := by
    rw [List.erase_append_right _ hfree]
    simp
  rw [eval_holding, Program.holding, alone, if_neg hfree, alone_andFinally,
    h.alone_eq respond (held ++ [l]) s hbody]
  rcases eval respond body s with ⟨_ | a, s⟩
  · simp [Conclusion.ofOption, Result.andLast, Result.andThen, alone, herase]
  · simp [Conclusion.ofOption, Result.andLast, Result.andThen, alone, herase]

end Unhindered

end Flow

end GuildBot
