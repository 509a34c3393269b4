import GuildBot.Cache.Fetch
import GuildBot.Proofs.Flow.Evaluation

namespace GuildBot.Cache.Place

open Std Progress

variable {σ ℓ γ κ β ε : Type} {answer : γ → Type} [Ord κ] [TransOrd κ]

def fetching (p : Place σ ℓ κ β) (key : κ) (rest : Program σ ℓ answer (Except ε β)) :
    Program σ ℓ answer (Except ε β) :=
  (rest.bind (p.storeResult key)).andFinally (.ask (.unlock p.lock) .done)

def locked (p : Place σ ℓ κ β) (key : κ) (fetch : Program σ ℓ answer (Except ε β)) :
    Program σ ℓ answer (Except ε β) :=
  .act id fun s => match (p.view s).peek (p.now s) key with
    | some value => .ask (.unlock p.lock) fun _ => .done (.ok value)
    | none => p.fetching key fetch

private theorem get_eq (p : Place σ ℓ κ β) (key : κ) (fetch : Program σ ℓ answer (Except ε β)) :
    p.get key fetch = .act id fun s => match (p.view s).peek (p.now s) key with
      | some value => .done (.ok value)
      | none => .ask (.lock p.lock) fun _ => p.locked key fetch := by
  simp only [get, peek, Flow.look, Flow.bind_def, Flow.pure_def, Flow.bind, Program.holding,
    Flow.andFinally]
  congr 1
  funext s
  cases (p.view s).peek (p.now s) key with
  | some value => rfl
  | none =>
    simp only [locked]
    congr 2
    funext _
    congr 1
    funext s
    cases (p.view s).peek (p.now s) key <;> rfl

section

variable [DecidableEq ℓ] (respond : Respond σ answer) (me : Strand)

/-- What comes of a lookup when its fetch has had a turn. -/
def conclude (p : Place σ ℓ κ β) (key : κ) :
    Progress σ ℓ answer (Except ε β) × Hub σ ℓ → Progress σ ℓ answer (Except ε β) × Hub σ ℓ
  | (.waiting obstacle rest, h) => (.waiting obstacle (p.fetching key rest), h)
  | (.ended none, h) => (.ended none, h.release p.lock me)
  | (.ended (some (.error e)), h) => (.ended (some (.error e)), h.release p.lock me)
  | (.ended (some (.ok value)), h) =>
    match (p.view h.state).insert? (p.now h.state) key value with
    | some c =>
      (.ended (some (.ok value)), ({ h with state := p.put c h.state } : Hub σ ℓ).release p.lock me)
    | none => (.ended none, h.release p.lock me)

theorem run_fetching (p : Place σ ℓ κ β) (key : κ) (rest : Program σ ℓ answer (Except ε β))
    (h : Hub σ ℓ) :
    run respond me (p.fetching key rest) h = p.conclude me key (run respond me rest h) := by
  rw [fetching, run_andFinally, run_bind]
  rcases run respond me rest h with ⟨⟨obstacle, rest⟩ | ⟨_ | ⟨e | value⟩⟩, h⟩
  · rfl
  · simp [andThen, andLast, conclude, run, Flow.bind]
  · simp [andThen, andLast, conclude, run, Flow.bind, storeResult]
  · simp only [andThen, storeResult, store, Flow.bind_def, Flow.pure_def, Flow.bind, run, conclude]
    cases (p.view h.state).insert? (p.now h.state) key value <;> simp [andLast, run, Flow.bind]

theorem run_locked (p : Place σ ℓ κ β) (key : κ) (fetch : Program σ ℓ answer (Except ε β))
    (h : Hub σ ℓ) :
    run respond me (p.locked key fetch) h =
      match (p.view h.state).peek (p.now h.state) key with
      | some value => (.ended (some (.ok value)), h.release p.lock me)
      | none => p.conclude me key (run respond me fetch h) := by
  rw [locked, run]
  cases (p.view h.state).peek (p.now h.state) key with
  | some value => rfl
  | none => exact run_fetching respond me p key fetch h

theorem run_get (p : Place σ ℓ κ β) (key : κ) (fetch : Program σ ℓ answer (Except ε β))
    (h : Hub σ ℓ) :
    run respond me (p.get key fetch) h =
      match (p.view h.state).peek (p.now h.state) key with
      | some value => (.ended (some (.ok value)), h)
      | none =>
        if (h.claim p.lock me).grants p.lock me then
          run respond me (p.locked key fetch) (h.claim p.lock me)
        else (.waiting (.lock p.lock) (p.locked key fetch), h.claim p.lock me) := by
  rw [get_eq, run]
  cases (p.view h.state).peek (p.now h.state) key <;> rfl

end

variable (respond : Respond σ answer)

theorem eval_store (p : Place σ ℓ κ β) (key : κ) (value : β) (s : σ) :
    Flow.eval respond (p.store key value) s =
      match (p.view s).insert? (p.now s) key value with
      | some c => (some (), p.put c s)
      | none => (none, s) := by
  rw [store, Flow.eval_act]
  cases (p.view s).insert? (p.now s) key value <;> rfl

theorem eval_get (p : Place σ ℓ κ β) (key : κ) (fetch : Program σ ℓ answer (Except ε β)) (s : σ) :
    Flow.eval respond (p.get key fetch) s =
      match (p.view s).peek (p.now s) key with
      | some value => (some (.ok value), s)
      | none => match Flow.eval respond fetch s with
        | (some (.ok value), s) => match (p.view s).insert? (p.now s) key value with
          | some c => (some (.ok value), p.put c s)
          | none => (none, s)
        | (some (.error e), s) => (some (.error e), s)
        | (none, s) => (none, s) := by
  simp only [get, peek, Flow.look, Flow.bind_def, Flow.pure_def, Flow.bind, Flow.eval_act, id_eq]
  cases hpeek : (p.view s).peek (p.now s) key with
  | some value => rfl
  | none =>
    rw [Flow.eval_holding, Flow.eval_act, id_eq, hpeek, Flow.eval_bind]
    rcases Flow.eval respond fetch s with ⟨_ | e | value, s⟩
    · rfl
    · rfl
    · simp only [storeResult, Flow.bind_def, Flow.eval_bind, eval_store]
      cases (p.view s).insert? (p.now s) key value <;> rfl

theorem ends_get {P : σ → Prop} {Q : Except ε β → σ → Prop} (p : Place σ ℓ κ β) (key : κ)
    {fetch : Program σ ℓ answer (Except ε β)} {s : σ}
    (hlive : ∀ value, (p.view s).peek (p.now s) key = some value → Q (.ok value) s)
    (hmiss : (p.view s).peek (p.now s) key = none → Flow.Ends respond P fetch s fun r s' =>
      match r with
      | .ok value => match (p.view s').insert? (p.now s') key value with
        | some c => Q (.ok value) (p.put c s')
        | none => P s'
      | .error e => Q (.error e) s') :
    Flow.Ends respond P (p.get key fetch) s Q := by
  unfold Flow.Ends at hmiss ⊢
  rw [eval_get]
  cases hp : (p.view s).peek (p.now s) key with
  | some value => exact hlive value hp
  | none =>
    have h := hmiss hp
    generalize Flow.eval respond fetch s = r at h ⊢
    obtain ⟨_ | e | value, s'⟩ := r
    · exact h
    · exact h
    · dsimp only at h ⊢
      cases hi : (p.view s').insert? (p.now s') key value with
      | some c =>
        rw [hi] at h
        exact h
      | none =>
        rw [hi] at h
        exact h

variable [DecidableEq ℓ]

theorem unhindered_store (p : Place σ ℓ κ β) (key : κ) (value : β) {uses : List ℓ} :
    (p.store key value : Program σ ℓ answer Unit).Unhindered uses 0 := by
  refine .act _ ?_
  intro s
  split
  · exact .done ()
  · exact .panic

private theorem unhindered_storeResult (p : Place σ ℓ κ β) (key : κ) (r : Except ε β) {uses : List ℓ} :
    (p.storeResult key r : Program σ ℓ answer (Except ε β)).Unhindered uses 0 := by
  cases r with
  | error e => exact .done _
  | ok value => exact (unhindered_store p key value).bind fun _ => .done _

theorem unhindered_get (p : Place σ ℓ κ β) (key : κ) {fetch : Program σ ℓ answer (Except ε β)}
    {uses : List ℓ} {n : Nat} (hf : fetch.Unhindered uses n) (hl : p.lock ∉ uses) :
    (p.get key fetch).Unhindered (p.lock :: uses) (n + 2) := by
  have hpeek (f : Option β → Program σ ℓ answer (Except ε β)) {uses : List ℓ} {m : Nat}
      (h : ∀ v, (f v).Unhindered uses m) : ((p.peek key).bind f).Unhindered uses m :=
    .act _ fun s => h _
  apply hpeek _
  intro v
  cases v with
  | some value => exact (Flow.Unhindered.done _).mono (List.Subset.refl _) (Nat.zero_le _)
  | none =>
    refine .holding (hpeek _ ?_) hl
    intro v
    cases v with
    | some value => exact (Flow.Unhindered.done _).mono (List.Subset.refl _) (Nat.zero_le _)
    | none => exact hf.bind fun r => unhindered_storeResult p key r

end GuildBot.Cache.Place
