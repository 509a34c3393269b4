import GuildBot.Flow.Scene
import Mathlib.Data.List.Induction

namespace GuildBot

variable {σ ℓ γ : Type} [DecidableEq ℓ] {answer : γ → Type} {α δ β : Type}

section

omit [DecidableEq ℓ]

variable (part : Part) (vs ws : List (Visit σ ℓ))

theorem turnsOf_append : turnsOf part (vs ++ ws) = turnsOf part vs ++ turnsOf part ws :=
  List.filter_append vs ws

private theorem hubsOf_append : hubsOf part (vs ++ ws) = hubsOf part vs ++ hubsOf part ws := by
  simp [hubsOf, turnsOf_append]

end

namespace Progress

variable (respond : Respond σ answer) (me : Strand)

private theorem turns_snoc (p : Progress σ ℓ answer α) (hubs : List (Hub σ ℓ)) (h : Hub σ ℓ) :
    turns respond me p (hubs ++ [h]) = ((turns respond me p hubs).poll respond me h).1 := by
  simp [turns, List.foldl_append]

private theorem trace_snoc (p : Progress σ ℓ answer α) (hubs : List (Hub σ ℓ)) (h : Hub σ ℓ) :
    trace respond me p (hubs ++ [h]) =
      trace respond me p hubs ++ [(h, ((turns respond me p hubs).poll respond me h).2)] := by
  induction hubs generalizing p with
  | nil => rfl
  | cons h' hubs ih => simp only [List.cons_append, trace, ih]; rfl

omit [DecidableEq ℓ] in
theorem eq_ended_of_result? {p : Progress σ ℓ answer α} {a : α} (h : p.result? = some a) :
    p = .ended (some a) := by
  cases p with
  | waiting obstacle rest => cases h
  | ended result => exact congrArg Progress.ended h

omit [DecidableEq ℓ] in
/-- Programs that have been joined have all come to results. -/
theorem eq_ended_of_joined {ps : List (Progress σ ℓ answer α)} {results : List α}
    (h : ps.mapM (·.result?) = some results) : ps = results.map fun a => .ended (some a) := by
  induction ps generalizing results with
  | nil => exact Option.some.inj h ▸ rfl
  | cons p ps ih =>
    rw [List.mapM_cons] at h
    cases hp : p.result? with
    | none => simp [hp] at h
    | some a =>
      cases hps : ps.mapM (·.result?) with
      | none => simp [hp, hps] at h
      | some as =>
        obtain rfl : a :: as = results := by simpa [hp, hps] using h
        rw [List.map_cons, ← ih hps, ← eq_ended_of_result? hp]

omit [DecidableEq ℓ] in
theorem exists_of_not_joined {ps : List (Progress σ ℓ answer α)}
    (h : ps.mapM (·.result?) = none) : ∃ p ∈ ps, p.result? = none := by
  induction ps with
  | nil => cases h
  | cons p ps ih =>
    cases hp : p.result? with
    | none => exact ⟨p, List.mem_cons_self, hp⟩
    | some a =>
      have hps : ps.mapM (·.result?) = none := by
        cases hps : ps.mapM (·.result?) with
        | none => rfl
        | some as => simp [List.mapM_cons, hp, hps] at h
      obtain ⟨q, hq, hnone⟩ := ih hps
      exact ⟨q, List.mem_cons_of_mem p hq, hnone⟩

private theorem visited_snoc (part : Part) (p : Progress σ ℓ answer α) (hubs : List (Hub σ ℓ))
    (h : Hub σ ℓ) :
    visited respond me part p (hubs ++ [h]) = visited respond me part p hubs ++
      [⟨part, h, ((turns respond me p hubs).poll respond me h).2⟩] := by
  simp [visited, trace_snoc]

end Progress

open Progress (turns visited)

namespace Scene

variable (respond : Respond σ answer) (task : Nat)

/-- Whether all branches of a plan have had their turns like programs of their own, in the visits
listed, and have come to where they are. -/
structure Fanned (plan : Plan σ ℓ answer δ β) (told : List (Visit σ ℓ))
    (ps : List (Progress σ ℓ answer δ)) : Prop where
  length : ps.length = plan.branches.length
  part : ∀ v ∈ told, ∃ n < plan.branches.length, v.part = .branch n
  progress : ∀ (n : Nat) b, plan.branches[n]? = some b →
    ps[n]? = some (turns respond ⟨task, some n⟩ (.start b) (hubsOf (.branch n) told))
  turns_eq : ∀ (n : Nat) b, plan.branches[n]? = some b → turnsOf (.branch n) told =
    visited respond ⟨task, some n⟩ (.branch n) (.start b) (hubsOf (.branch n) told)

/-- Whether a leading program settles a plan at the last of its turns. -/
structure Led (lead : Program σ ℓ answer (Plan σ ℓ answer δ β)) (hubs : List (Hub σ ℓ))
    (plan : Plan σ ℓ answer δ β) : Prop where
  ended : turns respond ⟨task, some 0⟩ (.start lead) hubs = .ended (some plan)
  last : (turns respond ⟨task, some 0⟩ (.start lead) hubs.dropLast).result? = none

/-- How a scene can stand that begins with a leading program. -/
inductive Stage (lead : Program σ ℓ answer (Plan σ ℓ answer δ β)) (s : Scene σ ℓ answer δ β) :
    Prop where
  | leading (hubs : List (Hub σ ℓ))
    (work : s.work = .lead (turns respond ⟨task, some 0⟩ (.start lead) hubs))
    (waits : (turns respond ⟨task, some 0⟩ (.start lead) hubs).result? = none)
    (visits_eq : s.visits = visited respond ⟨task, some 0⟩ .lead (.start lead) hubs)
  | fanning (hubs : List (Hub σ ℓ)) (plan : Plan σ ℓ answer δ β) (told : List (Visit σ ℓ))
    (ps : List (Progress σ ℓ answer δ)) (led : Led respond task lead hubs plan)
    (work : s.work = .fan ps plan.close) (fanned : Fanned respond task plan told ps)
    (visits_eq : s.visits = visited respond ⟨task, some 0⟩ .lead (.start lead) hubs ++ told)
  | closing (hubs : List (Hub σ ℓ)) (plan : Plan σ ℓ answer δ β) (told : List (Visit σ ℓ))
    (ps : List (Progress σ ℓ answer δ)) (results : List δ) (last : List (Hub σ ℓ))
    (led : Led respond task lead hubs plan)
    (fanned : Fanned respond task plan told ps) (joined : ps.mapM (·.result?) = some results)
    (work : s.work =
      .closing (turns respond ⟨task, some 0⟩ (.start (plan.close results)) last))
    (visits_eq : s.visits = visited respond ⟨task, some 0⟩ .lead (.start lead) hubs ++ told ++
      visited respond ⟨task, some 0⟩ .close (.start (plan.close results)) last)

variable {respond task}

theorem Fanned.start (plan : Plan σ ℓ answer δ β) :
    Fanned respond task plan [] (plan.branches.map .start) where
  length := List.length_map _
  part := nofun
  progress n b hb := by simp [hb, hubsOf, turnsOf, turns]
  turns_eq _ _ _ := rfl

theorem Fanned.turn {plan : Plan σ ℓ answer δ β} {told : List (Visit σ ℓ)}
    {ps : List (Progress σ ℓ answer δ)} (hf : Fanned respond task plan told ps) {n : Nat}
    {p : Progress σ ℓ answer δ} (hn : ps[n]? = some p) (h : Hub σ ℓ) :
    let r := p.poll respond ⟨task, some n⟩ h
    Fanned respond task plan (told ++ [⟨.branch n, h, r.2⟩]) (ps.set n r.1) := by
  intro r
  obtain ⟨hlen, -⟩ := List.getElem?_eq_some_iff.1 hn
  have hself : turnsOf (.branch n) [⟨.branch n, h, r.2⟩] = [⟨.branch n, h, r.2⟩] := by
    simp [turnsOf]
  have hother (m : Nat) (hm : m ≠ n) : turnsOf (.branch m) [⟨.branch n, h, r.2⟩] = [] := by
    simp [turnsOf, Ne.symm hm]
  have hhubs (m : Nat) : hubsOf (.branch m) (told ++ [⟨.branch n, h, r.2⟩]) =
      if m = n then hubsOf (.branch m) told ++ [h] else hubsOf (.branch m) told := by
    rw [hubsOf_append]
    split
    · next hm => rw [hm, hubsOf, hubsOf, hself, List.map_singleton]
    · next hm => rw [hubsOf, hubsOf, hother m hm, List.map_nil, List.append_nil]
  refine ⟨by rw [List.length_set, hf.length], ?_, ?_, ?_⟩
  · intro v hv
    rcases List.mem_append.1 hv with hv | hv
    · exact hf.part v hv
    · exact ⟨n, hf.length ▸ hlen, congrArg Visit.part (List.mem_singleton.1 hv)⟩
  · intro m b hb
    rw [hhubs]
    by_cases hm : m = n
    · subst hm
      obtain rfl := Option.some.inj (hn.symm.trans (hf.progress m b hb))
      rw [if_pos rfl, Progress.turns_snoc, List.getElem?_set_self hlen]
    · rw [if_neg hm, List.getElem?_set_ne (Ne.symm hm)]
      exact hf.progress m b hb
  · intro m b hb
    rw [hhubs, turnsOf_append, hf.turns_eq m b hb]
    by_cases hm : m = n
    · subst hm
      obtain rfl := Option.some.inj (hn.symm.trans (hf.progress m b hb))
      rw [if_pos rfl, Progress.visited_snoc, hself]
    · rw [if_neg hm, hother m hm, List.append_nil]

variable {lead : Program σ ℓ answer (Plan σ ℓ answer δ β)} {s : Scene σ ℓ answer δ β}

theorem Stage.start (lead : Program σ ℓ answer (Plan σ ℓ answer δ β)) :
    Stage respond task lead { work := .ofPlan lead } :=
  .leading [] rfl rfl rfl

theorem Stage.step (hs : Stage respond task lead s) (move : Work.Move σ ℓ) :
    Stage respond task lead (s.step respond task move) := by
  obtain ⟨work, vs⟩ := s
  cases hs with
  | leading hubs hwork hwaits hvisits =>
    obtain rfl := hwork
    obtain rfl := hvisits
    cases move with
    | join => exact .leading hubs rfl hwaits rfl
    | turn n h =>
      simp only [Scene.step]
      cases hresult : ((turns respond ⟨task, some 0⟩ (.start lead) hubs).poll respond ⟨task, some 0⟩
        h).1.result? with
      | none =>
        refine .leading (hubs ++ [h]) ?_ ?_ ?_
        · rw [Progress.turns_snoc]
        · rwa [Progress.turns_snoc]
        · rw [Progress.visited_snoc]
      | some plan =>
        refine .fanning (hubs ++ [h]) plan [] (plan.branches.map .start) ⟨?_, ?_⟩ rfl (.start plan) ?_
        · rw [Progress.turns_snoc]
          exact Progress.eq_ended_of_result? hresult
        · rwa [List.dropLast_concat]
        · rw [Progress.visited_snoc, List.append_nil]
  | fanning hubs plan told ps hled hwork hfanned hvisits =>
    obtain rfl := hwork
    obtain rfl := hvisits
    cases move with
    | join =>
      simp only [Scene.step]
      cases hjoined : ps.mapM (·.result?) with
      | none => exact .fanning hubs plan told ps hled rfl hfanned rfl
      | some results =>
        refine .closing hubs plan told ps results [] hled hfanned hjoined rfl ?_
        exact (List.append_nil _).symm
    | turn n h =>
      simp only [Scene.step]
      cases hn : ps[n]? with
      | none => exact .fanning hubs plan told ps hled rfl hfanned rfl
      | some p =>
        refine .fanning hubs plan _ _ hled rfl (hfanned.turn hn h) ?_
        exact List.append_assoc _ _ _
  | closing hubs plan told ps results last hled hfanned hjoined hwork hvisits =>
    obtain rfl := hwork
    obtain rfl := hvisits
    cases move with
    | join => exact .closing hubs plan told ps results last hled hfanned hjoined rfl rfl
    | turn n h =>
      refine .closing hubs plan told ps results (last ++ [h]) hled hfanned hjoined ?_ ?_
      · rw [Progress.turns_snoc]
        rfl
      · rw [Progress.visited_snoc, ← List.append_assoc]
        rfl

/-- However a scene begins with a leading program, and whatever happens then. -/
theorem stage_after (respond : Respond σ answer) (task : Nat)
    (lead : Program σ ℓ answer (Plan σ ℓ answer δ β)) (moves : List (Work.Move σ ℓ)) :
    Stage respond task lead (({ work := .ofPlan lead } : Scene σ ℓ answer δ β).after respond task
      moves) := by
  induction moves using List.reverseRecOn with
  | nil => exact .start lead
  | append_singleton moves move ih =>
    rw [after, List.foldl_append]
    exact ih.step move

end Scene

end GuildBot
