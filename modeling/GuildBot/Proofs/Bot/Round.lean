import GuildBot.Proofs.Bot.Flag

/-!
# Every telling is a round

However the turns of the listeners' calls interleave with each other and with what others do: what
happens when listeners are told of an event is a round.
-/

namespace GuildBot

open Platform

open Progress (turns visited)

namespace Registration

theorem nodup_firsts (rs : List Registration) : ((firsts rs).map (·.id)).Nodup := by
  induction rs with
  | nil => exact List.nodup_nil
  | cons r rs ih =>
    refine List.nodup_cons.2 ⟨?_, (List.filter_sublist.map _).nodup ih⟩
    simp

end Registration

namespace Bot

open Registration (firsts)

theorem register_of_mem {b : Bot} {id : String} (h : id ∈ b.roster) (listener : Listener)
    (clock : Clock) : b.register id listener clock = (.error (.of (.duplicateListener id)), b) := by
  have hany : b.registry.any (·.id = id) = true := by
    simpa [roster] using h
  rw [register, if_pos hany]

private theorem registry_registerAll (b : Bot) (rs : List Registration) :
    (b.registerAll rs).registry =
      b.registry ++ ((firsts rs).filter (·.id ∉ b.roster)).map b.entry := by
  induction rs generalizing b with
  | nil => simp [registerAll, firsts]
  | cons r rs ih =>
    by_cases hr : r.id ∈ b.roster
    · have hstep : b.registerAll (r :: rs) = b.registerAll rs := by
        simp only [registerAll, List.foldl_cons, register_of_mem hr]
      have hfirsts : (firsts (r :: rs)).filter (·.id ∉ b.roster) =
          (firsts rs).filter (·.id ∉ b.roster) := by
        rw [firsts, List.filter_cons_of_neg (by simpa using hr), List.filter_filter]
        refine List.filter_congr fun r' _ => ?_
        by_cases hr' : r'.id ∈ b.roster
        · simp [hr']
        · have hne : r'.id ≠ r.id := fun heq => hr' (heq ▸ hr)
          simp [hr', hne]
      rw [hstep, ih, hfirsts]
    · have hany : ¬b.registry.any (·.id = r.id) = true := by
        simpa [roster] using hr
      have hstep : b.registerAll (r :: rs) =
          ({ b with registry := b.registry ++ [b.entry r] }.write .info
            s!"Registered listener `{r.id}`.").registerAll rs := by
        simp only [registerAll, List.foldl_cons, register, if_neg hany]
        rfl
      have hfirsts : (firsts rs).filter (·.id ∉ (b.registry ++ [b.entry r]).map Entry.id) =
          ((firsts rs).filter (·.id ≠ r.id)).filter (·.id ∉ b.roster) := by
        rw [List.filter_filter]
        refine List.filter_congr fun r' _ => ?_
        simp [roster, entry]
      rw [hstep, ih, firsts, List.filter_cons_of_pos (by simpa using hr), List.map_cons, ← hfirsts]
      exact List.append_assoc _ [b.entry r] _

theorem registry_registerAll_of_empty (b : Bot) (rs : List Registration) :
    ({ b with registry := [] }.registerAll rs).registry = (firsts rs).map b.entry := by
  have hfilter : (firsts rs).filter (·.id ∉ ({ b with registry := [] } : Bot).roster) = firsts rs :=
    List.filter_eq_self.2 fun r _ => by simp [roster]
  rw [registry_registerAll, hfilter]
  rfl

end Bot

namespace Progress

variable {σ ℓ γ : Type} [DecidableEq ℓ] {answer : γ → Type} {α : Type}

private theorem turns_ended (respond : Respond σ answer) (me : Strand) (result : Option α)
    (hubs : List (Hub σ ℓ)) :
    turns respond me (.ended result : Progress σ ℓ answer α) hubs = .ended result := by
  induction hubs with
  | nil => rfl
  | cons h hubs ih => exact ih

private theorem visited_ended (respond : Respond σ answer) (me : Strand) (part : Part)
    (result : Option α) (hubs : List (Hub σ ℓ)) :
    ∀ v ∈ visited respond me part (.ended result : Progress σ ℓ answer α) hubs,
      v.after = v.before := by
  induction hubs with
  | nil =>
    intro v hv
    cases hv
  | cons h hubs ih =>
    intro v hv
    rcases List.mem_cons.1 hv with rfl | hv
    · rfl
    · exact ih v hv

private theorem visited_done (respond : Respond σ answer) (me : Strand) (part : Part) (a : α)
    (hubs : List (Hub σ ℓ)) :
    ∀ v ∈ visited respond me part (.start (.done a) : Progress σ ℓ answer α) hubs,
      v.after = v.before := by
  cases hubs with
  | nil =>
    intro v hv
    cases hv
  | cons h hubs =>
    intro v hv
    rcases List.mem_cons.1 hv with rfl | hv
    · rfl
    · exact visited_ended respond me part (some a) hubs v hv

end Progress

namespace Audience

open Scene (Led Fanned Stage)

variable {event : Event} {task : Nat} {start : Hub Bot Lock} {told : List (Visit Bot Lock)}
  {e : Entry}

/-- The plan that is settled when listeners are to be told of an event. -/
def planned (event : Event) (b : Bot) : Telling (List String) :=
  { branches := b.registry.map (tell b.settings event)
    close := fun results => flag event (results.filterMap id) }

private theorem Calls.hear_eq {settings : Settings} {method : Action (Outcome Unit)}
    (h : Calls settings e event method) : hear settings e event = method := by
  cases h with
  | roll m hdice => simp only [hear, hdice]
  | ping m hping => simp only [hear, hping]
  | track u hactivity => simp only [hear, hactivity]

private theorem hear_of_passes (settings : Settings) (h : e.listener.passes event = true) :
    hear settings e event = .done (.ok ()) := by
  cases event with
  | message m =>
    unfold hear
    cases hl : e.listener with
    | dice => simp [hl, Listener.passes] at h
    | ping => simp [hl, Listener.passes] at h
    | scripted message voice => simp [hl, Listener.passes] at h
    | activity => rfl
    | idle => rfl
  | voice u =>
    unfold hear
    cases hl : e.listener with
    | activity => simp [hl, Listener.passes] at h
    | scripted message voice => simp [hl, Listener.passes] at h
    | dice => rfl
    | ping => rfl
    | idle => rfl

private theorem turns_announce (event : Event) (task : Nat) (h : Hub Bot Lock)
    (hubs : List (Hub Bot Lock)) :
    turns Bot.respond ⟨task, some 0⟩ (.start (announce event)) (h :: hubs) =
      .ended (some (planned event h.state)) :=
  Progress.turns_ended Bot.respond _ _ hubs

private theorem Led.of_announce {hubs : List (Hub Bot Lock)} {plan : Telling (List String)}
    (hled : Led Bot.respond task (announce event) hubs plan) :
    ∃ start, hubs = [start] ∧ plan = planned event start.state := by
  match hubs, hled with
  | [], hled => cases hled.ended
  | [h], hled =>
    refine ⟨h, rfl, ?_⟩
    have hended := (turns_announce event task h []).symm.trans hled.ended
    simpa using hended.symm
  | h :: h' :: hubs, hled =>
    have hlast := hled.last
    rw [List.dropLast_cons_cons, turns_announce] at hlast
    cases hlast

section

variable {ps : List (Progress Bot Lock Call.Answer (Option String))}
  (hf : Fanned Bot.respond task (planned event start.state) told ps) {n : Nat}
  (he : start.state.registry[n]? = some e)

include hf he

private theorem progress_of_fanned :
    ps[n]? = some (contained event e (hearing event task start told n e)) := by
  have hbranch : (planned event start.state).branches[n]? =
      some (tell start.state.settings event e) := by simp [planned, he]
  rw [hf.progress n _ hbranch, tell_eq]
  exact congrArg some (turns_contained event e ⟨task, some n⟩ (.start _) _)

private theorem called_of_fanned : (turnsOf (.branch n) told).map (·.unlogged) =
    (visited Bot.respond ⟨task, some n⟩ (.branch n)
      (.start (hear start.state.settings e event)) (hubsOf (.branch n) told)).map (·.unlogged) := by
  have hbranch : (planned event start.state).branches[n]? =
      some (tell start.state.settings event e) := by simp [planned, he]
  rw [hf.turns_eq n _ hbranch, tell_eq]
  exact visited_contained event e ⟨task, some n⟩ (.branch n) (.start _) _

private theorem heard_of_fanned {message voice : Script} (hscripted : e.listener = .scripted message voice)
    (hturns : turnsOf (.branch n) told ≠ []) :
    (turnsOf (.branch n) told).flatMap (·.heard) = [.heard e.id event.script] := by
  obtain ⟨script, hhear⟩ : ∃ script, hear start.state.settings e event =
      follow e.id event.script script := by
    cases event with
    | message m => exact ⟨message, by simp [hear, hscripted, Event.script]⟩
    | voice u => exact ⟨voice, by simp [hear, hscripted, Event.script]⟩
  have hunlogged (vs : List (Visit Bot Lock)) :
      vs.flatMap (·.heard) = (vs.map (·.unlogged)).flatMap (·.heard) := by
    rw [List.flatMap_map]
    rfl
  rw [hunlogged, called_of_fanned hf he, ← hunlogged, hhear]
  cases hhubs : hubsOf (.branch n) told with
  | nil => exact absurd (List.map_eq_nil_iff.1 hhubs) hturns
  | cons h hubs => exact heard_follow e.id event.script script _ _ h hubs

private theorem passed_of_fanned (hpasses : e.listener.passes event = true) :
    ∀ v ∈ turnsOf (.branch n) told, v.after.state.unlogged = v.before.state.unlogged := by
  intro v hv
  have hcalled := called_of_fanned hf he
  rw [hear_of_passes start.state.settings hpasses] at hcalled
  obtain ⟨w, hw, hvw⟩ := List.mem_map.1 (hcalled ▸ List.mem_map_of_mem hv)
  have hsame := Progress.visited_done Bot.respond ⟨task, some n⟩ (.branch n) _ _ w hw
  have hafter : w.after.state.unlogged = v.after.state.unlogged := congrArg (·.after.state) hvw
  have hbefore : w.before = v.before := (congrArg Visit.before hvw :)
  rw [← hafter, hsame, hbefore]

end

private theorem contained_eq_ended {p : Progress Bot Lock Call.Answer (Outcome Unit)}
    {result : Option String} (h : contained event e p = .ended (some result)) :
    (∃ r, p = .ended r) ∧ result = if p.hasFailed then some e.id else none := by
  rcases p with ⟨obstacle, rest⟩ | _ | _ | _
  · cases h
  · cases h
    exact ⟨⟨_, rfl⟩, rfl⟩
  · cases h
    exact ⟨⟨_, rfl⟩, rfl⟩
  · cases h
    exact ⟨⟨_, rfl⟩, rfl⟩

private theorem contained_not_panicked (p : Progress Bot Lock Call.Answer (Outcome Unit)) :
    (contained event e p).hasPanicked = false := by
  rcases p with ⟨obstacle, rest⟩ | _ | _ | _
  · rfl
  · rfl
  · rfl
  · rfl

/-- When the tellings are joined, all calls have ended, and the results name those that failed. -/
private theorem joined_of_fanned {ps : List (Progress Bot Lock Call.Answer (Option String))}
    {results : List (Option String)} (hf : Fanned Bot.respond task (planned event start.state) told ps)
    (hjoined : ps.mapM (·.result?) = some results) :
    (∀ n e, start.state.registry[n]? = some e →
      ∃ r, hearing event task start told n e = .ended r) ∧
      results.filterMap id = failures event task start told := by
  have hps := Progress.eq_ended_of_joined hjoined
  have hresult (n : Nat) (e : Entry) (he : start.state.registry[n]? = some e) :
      ∃ r, results[n]? = some r ∧ contained event e (hearing event task start told n e) =
        .ended (some r) := by
    have hp := progress_of_fanned hf he
    rw [hps, List.getElem?_map] at hp
    obtain ⟨r, hr, hended⟩ := Option.map_eq_some_iff.1 hp
    exact ⟨r, hr, hended.symm⟩
  refine ⟨fun n e he => ?_, ?_⟩
  · obtain ⟨r, -, hended⟩ := hresult n e he
    exact (contained_eq_ended hended).1
  · have hlength : results.length = start.state.registry.length := by
      have := hf.length
      rwa [hps, List.length_map, planned, List.length_map] at this
    have hresults : results = start.state.registry.zipIdx.map fun call =>
        if (hearing event task start told call.2 call.1).hasFailed then some call.1.id
        else none := by
      apply List.ext_getElem?
      intro n
      rw [List.getElem?_map, List.getElem?_zipIdx]
      cases he : start.state.registry[n]? with
      | none =>
        rw [List.getElem?_eq_none_iff] at he
        exact List.getElem?_eq_none (hlength ▸ he)
      | some e =>
        obtain ⟨r, hr, hended⟩ := hresult n e he
        rw [hr, (contained_eq_ended hended).2]
        simp
    rw [hresults, List.filterMap_map]
    rfl

section

variable {s : Scene Bot Lock Call.Answer (Option String) (List String)}
  {ps : List (Progress Bot Lock Call.Answer (Option String))}
  (hf : Fanned Bot.respond task (planned event start.state) told ps)

include hf

private theorem Round.of_fanned (hwork : s.work = .fan ps (planned event start.state).close)
    (hvisits : s.visits = ⟨.lead, start, start⟩ :: told) : Round event task start told [] s where
  visits := by rw [hvisits, List.append_nil]
  told_part v hv := by simpa [planned] using hf.part v hv
  closed_part _ hv := absurd hv List.not_mem_nil
  called _ _ := called_of_fanned hf
  heard _ _ _ _ he := heard_of_fanned hf he
  stock _ _ _ he hcalls := hcalls.hear_eq ▸ called_of_fanned hf he
  passed _ _ he := passed_of_fanned hf he
  closed_last h := absurd rfl h
  flagged _ _ h := absurd h (List.cons_ne_nil _ _).symm
  returned result hending := by
    -- No telling panics, so the work cannot have ended.
    obtain ⟨p, hmem, hpanic⟩ : ∃ p ∈ ps, p.hasPanicked = true := by
      rw [hwork] at hending
      by_contra hnone
      have hany : ps.any (·.hasPanicked) = false := by
        simpa [List.any_eq_false] using hnone
      simp [Work.ending?, hany] at hending
    obtain ⟨n, hn⟩ := List.mem_iff_getElem?.1 hmem
    obtain ⟨hlt, -⟩ := List.getElem?_eq_some_iff.1 hn
    have hlt' : n < start.state.registry.length := by simpa [hf.length, planned] using hlt
    have hp := progress_of_fanned hf (List.getElem?_eq_getElem hlt')
    rw [hn] at hp
    rw [Option.some.inj hp, contained_not_panicked] at hpanic
    cases hpanic

/-- When all calls have ended. -/
private theorem Round.of_closing {results : List (Option String)}
    (hjoined : ps.mapM (·.result?) = some results)
    (last : List (Hub Bot Lock))
    (hwork : s.work = .closing (turns Bot.respond ⟨task, some 0⟩
      (.start (flag event (results.filterMap id))) last))
    (hvisits : s.visits = ⟨.lead, start, start⟩ :: told ++
      visited Bot.respond ⟨task, some 0⟩ .close (.start (flag event (results.filterMap id))) last) :
    Round event task start told
      (visited Bot.respond ⟨task, some 0⟩ .close (.start (flag event (results.filterMap id))) last) s := by
  obtain ⟨hover, hfailures⟩ := joined_of_fanned hf hjoined
  rw [hfailures] at hwork hvisits ⊢
  refine ⟨hvisits, fun v hv => ?_, fun v hv => ?_, fun _ _ => called_of_fanned hf,
    fun _ _ _ _ he => heard_of_fanned hf he,
    fun _ _ _ he hcalls => hcalls.hear_eq ▸ called_of_fanned hf he,
    fun _ _ he => passed_of_fanned hf he, fun _ => hover, fun v rest hclosed => ?_,
    fun result hending => ?_⟩
  · simpa [planned] using hf.part v hv
  · obtain ⟨t, -, rfl⟩ := List.mem_map.1 hv
    rfl
  · cases last with
    | nil => cases hclosed
    | cons h last =>
      obtain ⟨hstate, result, hconcluding, -⟩ :=
        poll_flag event (failures event task start told) ⟨task, some 0⟩ h
      obtain ⟨rfl, rfl⟩ := List.cons.inj hclosed
      exact ⟨hstate, hconcluding.visited ⟨task, some 0⟩ .close last⟩
  · cases last with
    | nil =>
      rw [hwork] at hending
      cases hending
    | cons h last =>
      obtain ⟨-, result', hconcluding, hresult⟩ :=
        poll_flag event (failures event task start told) ⟨task, some 0⟩ h
      refine ⟨_, _, rfl, ?_⟩
      have hended := hconcluding.turns ⟨task, some 0⟩ last
      rw [hwork, Progress.turns, List.foldl_cons] at hending
      change Work.ending? (.closing (turns Bot.respond ⟨task, some 0⟩ _ last)) = _ at hending
      generalize turns Bot.respond ⟨task, some 0⟩ _ last = p at hended hending
      cases hended with
      | waiting obstacle hrest => cases hending
      | ended =>
        obtain rfl := Option.some.inj hending
        exact hresult

end

/-- Whatever happens when listeners are told of an event is a round, once anything happens. -/
theorem round_after (event : Event) (task : Nat) (moves : List (Work.Move Bot Lock)) :
    let s := (opening event).after Bot.respond task moves
    s.visits = [] ∧ s.work.ending? = none ∨
      ∃ start told closed, Round event task start told closed s := by
  intro s
  have hlead (h : Hub Bot Lock) : visited Bot.respond ⟨task, some 0⟩ .lead
      (.start (announce event)) [h] = [⟨.lead, h, h⟩] := rfl
  cases Scene.stage_after Bot.respond task (announce event) moves with
  | leading hubs hwork hwaits hvisits =>
    cases hubs with
    | nil => exact .inl ⟨hvisits, congrArg Work.ending? hwork⟩
    | cons h hubs =>
      rw [turns_announce] at hwaits
      cases hwaits
  | fanning hubs plan told ps hled hwork hfanned hvisits =>
    obtain ⟨start, rfl, rfl⟩ := Led.of_announce hled
    exact .inr ⟨start, told, [], .of_fanned hfanned hwork hvisits⟩
  | closing hubs plan told ps results last hled hfanned hjoined hwork hvisits =>
    obtain ⟨start, rfl, rfl⟩ := Led.of_announce hled
    exact .inr ⟨start, told, _, .of_closing hfanned hjoined last hwork hvisits⟩

end Audience

end GuildBot
