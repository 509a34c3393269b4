import GuildBot.Cache.Fetch
import GuildBot.Proofs.Flow.Crowd

/-!
# The stages of a program

A program that runs beside others finds another state at each of its turns. What it does all the same
goes through stages: whatever the state is when it makes a change, by itself or by a call, the change is
a step from one stage to the next.
-/

namespace GuildBot

open Relation (ReflTransGen)

variable {σ ℓ γ τ : Type} {answer : γ → Type} {α β : Type}

/-- Stages, and the changes of the state that are steps between them. -/
structure Stages (σ τ : Type) where
  /-- What programs can rely on, for no step takes it away. -/
  sound : σ → Prop
  step : τ → σ → σ → τ → Prop
  sound_step : ∀ {t s s' t'}, sound s → step t s s' t' → sound s'

namespace Stages

/-- Whether steps lead from a stage to another, and meanwhile from a state to another. -/
def Leads (g : Stages σ τ) (start finish : τ × σ) : Prop :=
  ReflTransGen (fun a b => g.step a.1 a.2 b.2 b.1) start finish

theorem Leads.sound {g : Stages σ τ} {start finish : τ × σ} (h : g.Leads start finish)
    (hs : g.sound start.2) : g.sound finish.2 := by
  induction h with
  | refl => exact hs
  | tail _ hstep ih => exact g.sound_step ih hstep

end Stages

namespace Flow

/-- Whether all changes that a program makes are steps, from the stage that it is at on. If it comes to
a result, `Q` holds of the last stage and of the result. -/
def Follows (g : Stages σ τ) (respond : Respond σ answer) (Q : τ → α → Prop) :
    τ → Program σ ℓ answer α → Prop
  | t, .done a => Q t a
  | _, .panic => True
  | t, .act update next => ∀ s, g.sound s →
    ∃ t', g.step t s (update s) t' ∧ Follows g respond Q t' (next s)
  | t, .ask (.call c) next => ∀ s, g.sound s →
    ∃ t', g.step t s (respond s c).1 t' ∧ Follows g respond Q t' (next (respond s c).2.2)
  | t, .ask _ next => ∀ x, Follows g respond Q t (next x)

namespace Follows

variable {g : Stages σ τ} {respond : Respond σ answer} {Q Q' : τ → α → Prop} {R : τ → β → Prop} {t : τ}

theorem bind {f : Program σ ℓ answer α} {f' : α → Program σ ℓ answer β} (hf : Follows g respond Q t f)
    (hf' : ∀ t' a, Q t' a → Follows g respond R t' (f' a)) : Follows g respond R t (f.bind f') := by
  induction f generalizing t with
  | done a => exact hf' t a hf
  | panic => trivial
  | act update next ih =>
    intro s hs
    obtain ⟨t', hstep, hnext⟩ := hf s hs
    exact ⟨t', hstep, ih s hnext⟩
  | ask request next ih =>
    cases request with
    | call c =>
      intro s hs
      obtain ⟨t', hstep, hnext⟩ := hf s hs
      exact ⟨t', hstep, ih _ hnext⟩
    | lock l => exact fun x => ih x (hf x)
    | unlock l => exact fun x => ih x (hf x)
    | wait n => exact fun x => ih x (hf x)
    | pause => exact fun x => ih x (hf x)

theorem mono {f : Program σ ℓ answer α} (hf : Follows g respond Q t f)
    (hQ : ∀ t' a, Q t' a → Q' t' a) : Follows g respond Q' t f := by
  have h : Follows g respond Q' t (f.bind .done) := hf.bind hQ
  rwa [bind_done] at h

theorem rescue {f instead : Program σ ℓ answer α} (hf : Follows g respond Q t f)
    (hi : ∀ t', Follows g respond Q t' instead) : Follows g respond Q t (f.rescue instead) := by
  induction f generalizing t with
  | done a => exact hf
  | panic => exact hi t
  | act update next ih =>
    intro s hs
    obtain ⟨t', hstep, hnext⟩ := hf s hs
    exact ⟨t', hstep, ih s hnext⟩
  | ask request next ih =>
    cases request with
    | call c =>
      intro s hs
      obtain ⟨t', hstep, hnext⟩ := hf s hs
      exact ⟨t', hstep, ih _ hnext⟩
    | lock l => exact fun x => ih x (hf x)
    | unlock l => exact fun x => ih x (hf x)
    | wait n => exact fun x => ih x (hf x)
    | pause => exact fun x => ih x (hf x)

theorem holding {l : ℓ} {body : Program σ ℓ answer α} (hbody : Follows g respond Q t body) :
    Follows g respond Q t (Program.holding l body) := by
  intro _
  induction body generalizing t with
  | done a => exact fun _ => hbody
  | panic => exact fun _ => trivial
  | act update next ih =>
    intro s hs
    obtain ⟨t', hstep, hnext⟩ := hbody s hs
    exact ⟨t', hstep, ih s hnext⟩
  | ask request next ih =>
    cases request with
    | call c =>
      intro s hs
      obtain ⟨t', hstep, hnext⟩ := hbody s hs
      exact ⟨t', hstep, ih _ hnext⟩
    | lock l => exact fun x => ih x (hbody x)
    | unlock l => exact fun x => ih x (hbody x)
    | wait n => exact fun x => ih x (hbody x)
    | pause => exact fun x => ih x (hbody x)

theorem look {view : σ → α} (hstep : ∀ s, g.sound s → g.step t s s t)
    (hQ : ∀ s, g.sound s → Q t (view s)) :
    Follows g respond Q t (Flow.look view : Program σ ℓ answer α) :=
  fun s hs => ⟨t, hstep s hs, hQ s hs⟩

theorem change {update : σ → σ} {Q : τ → Unit → Prop}
    (hstep : ∀ s, g.sound s → ∃ t', g.step t s (update s) t' ∧ Q t' ()) :
    Follows g respond Q t (Flow.change update : Program σ ℓ answer Unit) := hstep

theorem call {c : γ} {Q : τ → answer c → Prop}
    (hstep : ∀ s, g.sound s → ∃ t', g.step t s (respond s c).1 t' ∧ Q t' (respond s c).2.2) :
    Follows g respond Q t (Program.call c : Program σ ℓ answer (answer c)) := hstep

/-- A lookup through a cache comes to what a live value leads to, or else to what its fetch does. -/
theorem get {κ ε : Type} [Ord κ] [Std.TransOrd κ] {p : Cache.Place σ ℓ κ β} {key : κ}
    {fetch : Program σ ℓ answer (Except ε β)} {Q : τ → Except ε β → Prop}
    (hmiss : ∀ s, g.sound s → (p.view s).peek (p.now s) key = none → g.step t s s t)
    (hhit : ∀ s value, g.sound s → (p.view s).peek (p.now s) key = some value →
      ∃ t', g.step t s s t' ∧ Q t' (.ok value))
    (hfull : ∀ t' s value, g.sound s → Q t' (.ok value) → g.step t' s s t')
    (hstore : ∀ t' s c value, g.sound s → Q t' (.ok value) →
      (p.view s).insert? (p.now s) key value = some c → g.step t' s (p.put c s) t')
    (hfetch : Follows g respond Q t fetch) : Follows g respond Q t (p.get key fetch) := by
  have hfind : Follows g respond
      (fun t' live => live = none ∧ t' = t ∨ ∃ value, live = some value ∧ Q t' (.ok value)) t
      (p.peek key : Program σ ℓ answer (Option β)) := by
    intro s hs
    cases hp : (p.view s).peek (p.now s) key with
    | none => exact ⟨t, hmiss s hs hp, .inl ⟨hp, rfl⟩⟩
    | some value =>
      obtain ⟨t', hstep, hQ⟩ := hhit s value hs hp
      exact ⟨t', hstep, .inr ⟨value, hp, hQ⟩⟩
  refine hfind.bind fun t' live hlive => ?_
  obtain ⟨rfl, rfl⟩ | ⟨value, rfl, hQ⟩ := hlive
  case inr => exact hQ
  refine holding (hfind.bind fun t'' live hlive => ?_)
  obtain ⟨rfl, rfl⟩ | ⟨value, rfl, hQ⟩ := hlive
  case inr => exact hQ
  refine hfetch.bind fun t' result hresult => ?_
  cases result with
  | error e => exact hresult
  | ok value =>
    intro s hs
    refine ⟨t', ?_, ?_⟩
    · dsimp only
      split
      · next c hc => exact hstore t' s c value hs hresult hc
      · exact hfull t' s value hs hresult
    · dsimp only
      split
      · exact hresult
      · trivial

end Follows

end Flow

namespace Progress

variable {g : Stages σ τ} {respond : Respond σ answer} {Q : τ → α → Prop} {t : τ}

def Follows (g : Stages σ τ) (respond : Respond σ answer) (Q : τ → α → Prop) (t : τ) :
    Progress σ ℓ answer α → Prop
  | .waiting _ rest => rest.Follows g respond Q t
  | .ended (some a) => Q t a
  | .ended none => True

theorem Follows.abandon {p : Progress σ ℓ answer α} (hp : p.Follows g respond Q t) :
    p.abandon.Follows g respond Q t := by
  cases p with
  | waiting obstacle rest => trivial
  | ended result => exact hp

variable [DecidableEq ℓ]

private theorem run_follows (me : Strand) {f : Program σ ℓ answer α} (hf : f.Follows g respond Q t)
    {h : Hub σ ℓ} (hs : g.sound h.state) :
    ∃ t', (run respond me f h).1.Follows g respond Q t' ∧
      g.Leads (t, h.state) (t', (run respond me f h).2.state) := by
  induction f generalizing t h with
  | done a => exact ⟨t, hf, .refl⟩
  | panic => exact ⟨t, trivial, .refl⟩
  | act update next ih =>
    obtain ⟨t', hstep, hnext⟩ := hf h.state hs
    obtain ⟨t'', hfollows, hleads⟩ :=
      ih h.state hnext (h := { h with state := update h.state }) (g.sound_step hs hstep)
    exact ⟨t'', hfollows, .head hstep hleads⟩
  | ask request next ih =>
    cases request with
    | lock l =>
      simp only [run]
      split
      · exact ih () (hf ()) (h := h.claim l me) hs
      · exact ⟨t, hf (), .refl⟩
    | unlock l =>
      have hs' : g.sound (h.release l me).state := by rwa [Hub.release_state]
      simpa only [run, Hub.release_state] using ih () (hf ()) hs'
    | wait n =>
      cases n with
      | zero => exact ih () (hf ()) hs
      | succ n => exact ⟨t, hf (), .refl⟩
    | pause => exact ⟨t, hf (), by simpa only [run, Hub.wake_state] using .refl⟩
    | call c =>
      obtain ⟨t', hstep, hnext⟩ := hf h.state hs
      have hs' := g.sound_step hs hstep
      simp only [run]
      split
      · obtain ⟨t'', hfollows, hleads⟩ :=
          ih _ hnext (h := { h with state := (respond h.state c).1 }) hs'
        exact ⟨t'', hfollows, .head hstep hleads⟩
      · exact ⟨t', hnext, .single hstep⟩

theorem Follows.poll (me : Strand) {p : Progress σ ℓ answer α} (hp : p.Follows g respond Q t)
    {h : Hub σ ℓ} (hs : g.sound h.state) :
    ∃ t', (p.poll respond me h).1.Follows g respond Q t' ∧
      g.Leads (t, h.state) (t', (p.poll respond me h).2.state) := by
  cases p with
  | ended result => exact ⟨t, hp, .refl⟩
  | waiting obstacle rest =>
    simp only [Progress.poll]
    split
    · exact run_follows me hp hs
    · exact ⟨t, hp, .refl⟩

end Progress

end GuildBot
