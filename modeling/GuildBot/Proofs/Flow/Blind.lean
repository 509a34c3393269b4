import GuildBot.Proofs.Cache.Fetch

/-!
# Programs that cannot tell states apart

A program is blind to a relation of states if from states that are related it comes to the same result,
and again to states that are related. Programs that are put together from blind ones are blind.
-/

namespace GuildBot

variable {σ ℓ γ : Type} {answer : γ → Type} {α β : Type}

namespace Flow

/-- Whether a program on its own cannot tell apart states that `R` relates. -/
def Blind (respond : Respond σ answer) (R : σ → σ → Prop) (f : Program σ ℓ answer α) : Prop :=
  ∀ s s', R s s' → (eval respond f s).1 = (eval respond f s').1 ∧
    R (eval respond f s).2 (eval respond f s').2

namespace Blind

variable {respond : Respond σ answer} {R : σ → σ → Prop}

theorem done (a : α) : Blind respond R (.done a : Program σ ℓ answer α) := fun _ _ h => ⟨rfl, h⟩

theorem bind {f : Program σ ℓ answer α} {g : α → Program σ ℓ answer β} (hf : Blind respond R f)
    (hg : ∀ a, Blind respond R (g a)) : Blind respond R (f.bind g) := by
  intro s s' h
  obtain ⟨hvalue, hstate⟩ := hf s s' h
  rw [eval_bind, eval_bind]
  generalize eval respond f s = r at hvalue hstate ⊢
  generalize eval respond f s' = r' at hvalue hstate ⊢
  obtain ⟨value, s⟩ := r
  obtain ⟨value', s'⟩ := r'
  cases hvalue
  cases value with
  | none => exact ⟨rfl, hstate⟩
  | some a => exact hg a s s' hstate

theorem look {view : σ → α} (h : ∀ s s', R s s' → view s = view s') :
    Blind respond R (Flow.look view : Program σ ℓ answer α) :=
  fun s s' hR => ⟨congrArg some (h s s' hR), hR⟩

theorem change {update : σ → σ} (h : ∀ s s', R s s' → R (update s) (update s')) :
    Blind respond R (Flow.change update : Program σ ℓ answer Unit) :=
  fun s s' hR => ⟨rfl, h s s' hR⟩

theorem swap {f : σ → α × σ} (h : ∀ s s', R s s' → (f s).1 = (f s').1 ∧ R (f s).2 (f s').2) :
    Blind respond R (Flow.swap f : Program σ ℓ answer α) := by
  intro s s' hR
  obtain ⟨hvalue, hstate⟩ := h s s' hR
  exact ⟨congrArg some hvalue, hstate⟩

theorem holding {l : ℓ} {body : Program σ ℓ answer α} (h : Blind respond R body) :
    Blind respond R (Program.holding l body) := by
  intro s s' hR
  rw [eval_holding, eval_holding]
  exact h s s' hR

/-- A lookup through a cache is blind if its fetch is, and its key is found and stored alike. -/
theorem get {κ ε : Type} [Ord κ] [Std.TransOrd κ] {p : Cache.Place σ ℓ κ β} {key : κ}
    {fetch : Program σ ℓ answer (Except ε β)}
    (hpeek : ∀ s s', R s s' → (p.view s).peek (p.now s) key = (p.view s').peek (p.now s') key)
    (hstore : ∀ value, Blind respond R (p.store key value : Program σ ℓ answer Unit))
    (hfetch : Blind respond R fetch) : Blind respond R (p.get key fetch) := by
  have hlook : Blind respond R (p.peek key : Program σ ℓ answer (Option β)) := look hpeek
  apply hlook.bind
  intro live
  cases live with
  | some value => exact done _
  | none =>
    apply holding
    apply hlook.bind
    intro live
    cases live with
    | some value => exact done _
    | none =>
      apply hfetch.bind
      intro result
      cases result with
      | error e => exact done _
      | ok value => exact (hstore value).bind fun _ => done _

end Blind

end Flow

end GuildBot
