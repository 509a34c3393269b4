import GuildBot.Proofs.Flow.Evaluation
import GuildBot.Proofs.Flow.Scene
import GuildBot.Proofs.Flow.Stages
import GuildBot.Proofs.Flow.Step

/-!
# Invariants of a machine

What every change of the state keeps, if it finds it kept, holds all along, whatever programs run side
by side and however their turns fall. A program can rely on it, and on how calls are then answered.
-/

namespace GuildBot

variable {σ ℓ γ : Type} {answer : γ → Type} {α β δ : Type} {I : σ → Prop} {respond : Respond σ answer}

/-- The only stage, at which an invariant holds. -/
def Stages.ofInvariant (I : σ → Prop) : Stages σ Unit where
  sound := I
  step _ _ s' _ := I s'
  sound_step _ h := h

namespace Flow

/-- Whether a program keeps an invariant, relying on it. If it comes to a result, `Q` holds of that. -/
def Keeps (I : σ → Prop) (respond : Respond σ answer) (Q : α → Prop) (f : Program σ ℓ answer α) :
    Prop :=
  f.Follows (.ofInvariant I) respond (fun _ => Q) ()

namespace Keeps

variable {Q Q' : α → Prop} {R : β → Prop}

theorem done {a : α} (h : Q a) : Keeps I respond Q (.done a : Program σ ℓ answer α) := h

theorem act {update : σ → σ} {next : σ → Program σ ℓ answer α} (hI : ∀ s, I s → I (update s))
    (hnext : ∀ s, I s → Keeps I respond Q (next s)) : Keeps I respond Q (.act update next) :=
  fun s hs => ⟨(), hI s hs, hnext s hs⟩

theorem bind {f : Program σ ℓ answer α} {g : α → Program σ ℓ answer β} (hf : Keeps I respond Q f)
    (hg : ∀ a, Q a → Keeps I respond R (g a)) : Keeps I respond R (f.bind g) :=
  Follows.bind hf fun _ a ha => hg a ha

theorem mono {f : Program σ ℓ answer α} (hf : Keeps I respond Q f) (hQ : ∀ a, Q a → Q' a) :
    Keeps I respond Q' f :=
  Follows.mono hf fun _ a ha => hQ a ha

theorem rescue {f instead : Program σ ℓ answer α} (hf : Keeps I respond Q f)
    (hi : Keeps I respond Q instead) : Keeps I respond Q (f.rescue instead) :=
  Follows.rescue hf fun _ => hi

theorem call {c : γ} {Q : answer c → Prop} (hI : ∀ s, I s → I (respond s c).1)
    (hQ : ∀ s, I s → Q (respond s c).2.2) :
    Keeps I respond Q (Program.call c : Program σ ℓ answer (answer c)) :=
  fun s hs => ⟨(), hI s hs, hQ s hs⟩

theorem get {κ ε : Type} [Ord κ] [Std.TransOrd κ] {p : Cache.Place σ ℓ κ β} {key : κ}
    {fetch : Program σ ℓ answer (Except ε β)} {P : Except ε β → Prop}
    (hpeek : ∀ s value, I s → (p.view s).peek (p.now s) key = some value → P (.ok value))
    (hstore : ∀ s c value, I s → P (.ok value) →
      (p.view s).insert? (p.now s) key value = some c → I (p.put c s))
    (hfetch : Keeps I respond P fetch) : Keeps I respond P (p.get key fetch) := by
  exact Follows.get (fun _ hs _ => hs) (fun s value hs hp => ⟨(), hs, hpeek s value hs hp⟩)
    (fun _ _ _ hs _ => hs) (fun _ s c value hs => hstore s c value hs) hfetch

/-- On its own a program comes to what it promises, if the invariant holds at first. -/
theorem ends {f : Program σ ℓ answer α} (hf : Keeps I respond Q f) {s : σ} (hI : I s) :
    Ends respond I f s fun a s' => Q a ∧ I s' := by
  induction f generalizing s with
  | done a => exact ⟨hf, hI⟩
  | panic => exact hI
  | act update next ih =>
    obtain ⟨_, hI', hnext⟩ := hf s hI
    exact ih s hnext hI'
  | ask request next ih =>
    cases request with
    | call c =>
      obtain ⟨_, hI', hnext⟩ := hf s hI
      exact ih _ hnext hI'
    | lock l => exact ih () (hf ()) hI
    | unlock l => exact ih () (hf ()) hI
    | wait n => exact ih () (hf ()) hI
    | pause => exact ih () (hf ()) hI

theorem of_eval {f : Program σ ℓ answer α} (hf : Keeps I respond Q f) {s s' : σ} {a : α} (hI : I s)
    (heval : eval respond f s = (some a, s')) : Q a := by
  have hends := hf.ends hI
  unfold Ends at hends
  rw [heval] at hends
  exact hends.1

end Keeps

end Flow

variable [DecidableEq ℓ]

namespace Progress

variable {Q : α → Prop} {p : Progress σ ℓ answer α} {h : Hub σ ℓ}

def Keeps (I : σ → Prop) (respond : Respond σ answer) (Q : α → Prop) (p : Progress σ ℓ answer α) :
    Prop :=
  p.Follows (.ofInvariant I) respond (fun _ => Q) ()

theorem Keeps.poll (hp : p.Keeps I respond Q) (me : Strand) (hI : I h.state) :
    (p.poll respond me h).1.Keeps I respond Q ∧ I (p.poll respond me h).2.state := by
  obtain ⟨_, hkeeps, hleads⟩ := Follows.poll me hp (g := .ofInvariant I) hI
  exact ⟨hkeeps, hleads.sound hI⟩

theorem Keeps.turns (hp : p.Keeps I respond Q) (me : Strand) {hubs : List (Hub σ ℓ)}
    (hI : ∀ h ∈ hubs, I h.state) : (p.turns respond me hubs).Keeps I respond Q := by
  induction hubs generalizing p with
  | nil => exact hp
  | cons h hubs ih =>
    have hfirst := hp.poll me (hI h List.mem_cons_self)
    exact ih hfirst.1 fun h' hmem => hI h' (List.mem_cons_of_mem h hmem)

end Progress

/-- Whether all programs of a plan keep an invariant, the closing one whatever the results. -/
structure Plan.Keeps (I : σ → Prop) (respond : Respond σ answer) (plan : Plan σ ℓ answer δ β) :
    Prop where
  branches : ∀ f ∈ plan.branches, f.Keeps I respond (fun _ => True)
  close : ∀ results, (plan.close results).Keeps I respond (fun _ => True)

namespace Work

variable {work : Work σ ℓ answer δ β} {h : Hub σ ℓ}

def Keeps (I : σ → Prop) (respond : Respond σ answer) : Work σ ℓ answer δ β → Prop
  | .lead p => p.Keeps I respond (Plan.Keeps I respond)
  | .fan ps close => (∀ p ∈ ps, p.Keeps I respond (fun _ => True)) ∧
    ∀ results, (close results).Keeps I respond (fun _ => True)
  | .closing p => p.Keeps I respond (fun _ => True)

variable (task : Nat)

private theorem pollBranches_keeps {ps : List (Progress σ ℓ answer δ)}
    (hps : ∀ p ∈ ps, p.Keeps I respond (fun _ => True)) (order : List Nat) (hI : I h.state) :
    (∀ p ∈ (pollBranches respond task order ps h).1, p.Keeps I respond (fun _ => True)) ∧
      I (pollBranches respond task order ps h).2.state := by
  induction order generalizing ps h with
  | nil => exact ⟨hps, hI⟩
  | cons n order ih =>
    rw [pollBranches]
    cases hn : ps[n]? with
    | none => exact ih hps hI
    | some p =>
      obtain ⟨hp, hI'⟩ := (hps p (List.mem_of_getElem? hn)).poll ⟨task, some n⟩ hI
      have hset : ∀ q ∈ ps.set n (p.poll respond ⟨task, some n⟩ h).1,
          q.Keeps I respond (fun _ => True) := by
        intro q hq
        rcases List.mem_or_eq_of_mem_set hq with hq | rfl
        · exact hps q hq
        · exact hp
      dsimp only
      split
      · exact ⟨hset, hI'⟩
      · exact ih hset hI'

private theorem pollFan_keeps (woken : List Nat) {ps : List (Progress σ ℓ answer δ)}
    {close : List δ → Program σ ℓ answer β} (hps : ∀ p ∈ ps, p.Keeps I respond (fun _ => True))
    (hclose : ∀ results, (close results).Keeps I respond (fun _ => True)) (hI : I h.state) :
    (pollFan respond task woken ps close h).1.Keeps I respond ∧
      I (pollFan respond task woken ps close h).2.state := by
  obtain ⟨hps', hI'⟩ := pollBranches_keeps task hps
    (if ps.length ≤ smallFan then List.range ps.length else woken) hI
  rw [pollFan]
  generalize pollBranches respond task _ ps h = r at hps' hI' ⊢
  dsimp only
  cases r.1.mapM (·.result?) with
  | none => exact ⟨⟨hps', hclose⟩, hI'⟩
  | some results => exact Progress.Keeps.poll (p := .start (close results)) (hclose results) _ hI'

/-- A turn of a piece of work keeps an invariant that all its programs keep. -/
theorem Keeps.poll (hw : work.Keeps I respond) (woken : List Nat) (hI : I h.state) :
    (work.poll respond task woken h).1.Keeps I respond ∧
      I (work.poll respond task woken h).2.state := by
  cases work with
  | fan ps close => exact pollFan_keeps task woken hw.1 hw.2 hI
  | closing p => exact Progress.Keeps.poll hw ⟨task, some 0⟩ hI
  | lead p =>
    obtain ⟨hp, hI'⟩ := Progress.Keeps.poll hw ⟨task, some 0⟩ hI
    rw [Work.poll]
    generalize p.poll respond ⟨task, some 0⟩ h = r at hp hI' ⊢
    dsimp only
    cases hresult : r.1.result? with
    | none => exact ⟨hp, hI'⟩
    | some plan =>
      rw [Progress.eq_ended_of_result? hresult] at hp
      refine pollFan_keeps task _ (fun q hq => ?_) hp.close hI'
      obtain ⟨f, hf, rfl⟩ := List.mem_map.1 hq
      exact hp.branches f hf

end Work

structure Task.Keeps (I : σ → Prop) (respond : Respond σ answer) (t : Task σ ℓ answer δ β) :
    Prop where
  work : t.work.Keeps I respond
  onTimeout : ∀ s, I s → I (t.onTimeout s)

theorem Task.Keeps.poll {t : Task σ ℓ answer δ β} (ht : t.Keeps I respond) (number : Nat)
    (woken : List Nat) {h : Hub σ ℓ} (hI : I h.state) :
    (t.poll respond number woken h).1.Keeps I respond ∧
      I (t.poll respond number woken h).2.state := by
  have hwork := ht.work.poll number woken hI
  rcases hr : t.work.poll respond number woken h with ⟨work, h'⟩
  rw [hr] at hwork
  obtain ⟨hkeeps, hI'⟩ := hwork
  rcases t.poll_cases respond number woken h hr with ⟨result, -, heq⟩ | ⟨-, -, heq⟩ | ⟨-, -, heq⟩
  · rw [heq]
    exact ⟨⟨hkeeps, ht.onTimeout⟩, (Hub.forget_state h' number).symm ▸ hI'⟩
  · rw [heq]
    exact ⟨⟨hkeeps, ht.onTimeout⟩, ht.onTimeout h'.state hI'⟩
  · rw [heq]
    exact ⟨⟨hkeeps, ht.onTimeout⟩, (t.arm_state number _ h').symm ▸ hI'⟩

namespace Machine

variable {m : Machine σ ℓ answer δ β}

structure Keeps (I : σ → Prop) (respond : Respond σ answer) (m : Machine σ ℓ answer δ β) : Prop where
  holds : I m.hub.state
  tasks : ∀ t ∈ m.tasks, t.Keeps I respond

theorem Keeps.spawn (hm : m.Keeps I respond) {t : Task σ ℓ answer δ β} (ht : t.Keeps I respond) :
    (m.spawn t).Keeps I respond := by
  refine ⟨by simpa [Machine.spawn] using hm.holds, fun t' ht' => ?_⟩
  rcases List.mem_append.1 ht' with ht' | ht'
  · exact hm.tasks t' ht'
  · exact List.mem_singleton.1 ht' ▸ ht

theorem Keeps.pollTask (hm : m.Keeps I respond) (number : Nat) :
    (m.pollTask respond number).Keeps I respond := by
  unfold Machine.pollTask
  dsimp only
  split
  · exact ⟨hm.holds, hm.tasks⟩
  · next t ht =>
    split
    · exact ⟨hm.holds, hm.tasks⟩
    · obtain ⟨hkeeps, hI⟩ := (hm.tasks t (List.mem_of_getElem? ht)).poll number
        ((m.hub.woken.filter fun s => s.task = number).filterMap (·.branch))
        (h := { m.hub with woken := m.hub.woken.filter fun s => s.task ≠ number }) hm.holds
      refine ⟨hI, fun t' ht' => ?_⟩
      rcases List.mem_or_eq_of_mem_set ht' with ht' | rfl
      · exact hm.tasks t' ht'
      · exact hkeeps

end Machine

end GuildBot
