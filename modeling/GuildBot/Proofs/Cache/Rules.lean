import GuildBot.Cache.Watch
import GuildBot.Proofs.Flow.Rules

namespace GuildBot.Cache

open Std

namespace Place

variable {σ ℓ γ κ β ε : Type} [DecidableEq ℓ] {answer : γ → Type} [Ord κ] [TransOrd κ]
  {rules : Rules σ ℓ} {base : List ℓ} (p : Place σ ℓ κ β) (key : κ)

/-- What storing a value does to the state. -/
def storing (value : β) (s : σ) : σ :=
  match (p.view s).insert? (p.now s) key value with
  | some c => p.put c s
  | none => s

theorem obeys_store {held : List ℓ} {value : β} (hstore : rules.allows (p.storing key value)) :
    (p.store key value : Program σ ℓ answer Unit).Obeys rules held (fun _ => True) held := by
  refine ⟨hstore, fun s => ?_⟩
  dsimp only
  split
  · exact ⟨rfl, trivial⟩
  · exact (show held = held from rfl)

theorem obeys_get {fetch : Program σ ℓ answer (Except ε β)} (hlook : rules.allows id)
    (hstore : ∀ value, rules.allows (p.storing key value))
    (hrank : ∀ k ∈ base, rules.rank k < rules.rank p.lock)
    (hfetch : fetch.Obeys rules (base ++ [p.lock]) (fun _ => True) (base ++ [p.lock])) :
    (p.get key fetch).Obeys rules base (fun _ => True) base := by
  have hpeek {held : List ℓ} {f : Option β → Program σ ℓ answer (Except ε β)}
      (hf : ∀ live, (f live).Obeys rules held (fun _ => True) held) :
      ((p.peek key).bind f).Obeys rules held (fun _ => True) held := ⟨hlook, fun s => hf _⟩
  refine hpeek fun live => ?_
  cases live with
  | some value => exact ⟨rfl, trivial⟩
  | none =>
    refine Flow.Obeys.holding hrank (hpeek fun live => ?_)
    cases live with
    | some value => exact ⟨rfl, trivial⟩
    | none =>
      refine hfetch.bind fun result _ => ?_
      cases result with
      | error e => exact ⟨rfl, trivial⟩
      | ok value => exact (p.obeys_store key (hstore value)).bind fun _ _ => ⟨rfl, trivial⟩

end Place

namespace Watched

variable {κ β ε : Type} [Ord κ]

/-- Lookups may do anything to a watched cache. -/
def rules : Rules (Watched κ β) Unit where
  rank _ := 0
  allows _ := True

private theorem obeys_suspend {base : List Unit} (suspensions : List Suspension) :
    (suspend suspensions : Action κ β Unit).Obeys rules base (fun _ => True) base := by
  induction suspensions with
  | nil => exact ⟨rfl, trivial⟩
  | cons suspension rest ih =>
    cases suspension with
    | pause => exact fun _ => ih
    | wait n => exact fun _ => ih

theorem obeys_lookUp [TransOrd κ] (s : Strand) (l : Lookup κ β ε) :
    (lookUp s l).Obeys rules [] (fun _ => True) [] := by
  have hfetch : (fetch s l).Obeys (rules (κ := κ) (β := β)) [()] (fun _ => True) [()] := by
    refine ⟨trivial, fun _ => (obeys_suspend l.suspensions).bind fun _ _ => ⟨trivial, fun _ => ?_⟩⟩
    cases l.outcome with
    | none => exact (show [()] = [()] from rfl)
    | some r => exact ⟨rfl, trivial⟩
  refine (place.obeys_get l.key trivial (fun _ => trivial) (by simp) hfetch).bind fun r _ => ?_
  cases r with
  | error e => exact ⟨rfl, trivial⟩
  | ok value => exact ⟨trivial, fun _ => ⟨rfl, trivial⟩⟩

end Watched

end GuildBot.Cache
