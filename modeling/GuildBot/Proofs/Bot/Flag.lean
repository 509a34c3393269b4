import GuildBot.Proofs.Bot.Telling

namespace GuildBot.Audience

open Platform

open Progress (run turns visited)

/-- Programs that have nothing left to do but to write to the log and to end with a result. -/
inductive Concluding (result : Option (List String)) :
    Progress Bot Lock Call.Answer (List String) → Prop where
  | waiting (obstacle : Obstacle Lock) {rest : Action (List String)}
    (hrest : ∀ me h, ∃ lines, run Bot.respond me rest h = (.ended result, h.writeAll lines)) :
    Concluding result (.waiting obstacle rest)
  | ended : Concluding result (.ended result)

namespace Concluding

variable {result : Option (List String)} {p : Progress Bot Lock Call.Answer (List String)}

theorem poll (hp : Concluding result p) (me : Strand) (h : Hub Bot Lock) :
    Concluding result (p.poll Bot.respond me h).1 ∧
      (p.poll Bot.respond me h).2.state.unlogged = h.state.unlogged := by
  cases hp with
  | ended => exact ⟨.ended, rfl⟩
  | waiting obstacle hrest =>
    simp only [Progress.poll]
    split
    · obtain ⟨lines, hrun⟩ := hrest me h
      rw [hrun]
      exact ⟨.ended, rfl⟩
    · exact ⟨.waiting obstacle hrest, rfl⟩

theorem turns (hp : Concluding result p) (me : Strand) (hubs : List (Hub Bot Lock)) :
    Concluding result (turns Bot.respond me p hubs) := by
  induction hubs generalizing p with
  | nil => exact hp
  | cons h hubs ih => exact ih (hp.poll me h).1

theorem visited (hp : Concluding result p) (me : Strand) (part : Part) (hubs : List (Hub Bot Lock)) :
    ∀ v ∈ visited Bot.respond me part p hubs, v.after.state.unlogged = v.before.state.unlogged := by
  induction hubs generalizing p with
  | nil =>
    intro v hv
    cases hv
  | cons h hubs ih =>
    intro v hv
    rcases List.mem_cons.1 hv with rfl | hv
    · exact (hp.poll me h).2
    · exact ih (hp.poll me h).1 v hv

end Concluding

/-- What is left to do when a message has been flagged, or could not be. -/
def afterFlag (failed : List String) : Option (Outcome Unit) → Action (List String)
  | some (.ok ()) => .done failed
  | some (.error f) =>
    (Action.note .error s!"Failed to add failure reaction: {f.message}").bind fun _ => .done failed
  | none => .panic

private theorem run_afterFlag (failed : List String) (reply : Option (Outcome Unit)) (me : Strand)
    (h : Hub Bot Lock) : ∃ lines, run Bot.respond me (afterFlag failed reply) h =
      (.ended (reply.map fun _ => failed), h.writeAll lines) := by
  rcases reply with _ | f | _
  · exact ⟨[], by rw [Hub.writeAll_nil]; rfl⟩
  · exact ⟨_, rfl⟩
  · exact ⟨[], by rw [Hub.writeAll_nil]; rfl⟩

theorem flag_message (m : Message) {failed : List String} (hfailed : failed ≠ []) :
    ∃ line, flag (.message m) failed = (Action.note .warn line).bind fun _ =>
      (Flow.look id).bind fun b =>
        .ask (.call (.addReaction m.channel.id m.id b.settings.failureEmoji)) (afterFlag failed) := by
  have hne : ¬failed.isEmpty = true := by simpa using hfailed
  refine ⟨toString failed.length ++ " listener(s) failed on message: " ++ ", ".intercalate failed, ?_⟩
  refine (if_neg hne).trans (congrArg (Flow.bind _) (funext fun _ => ?_))
  refine congrArg (Flow.bind _) (funext fun b => congrArg (Flow.ask _) (funext fun reply => ?_))
  rcases reply with _ | f | _
  · rfl
  · rfl
  · rfl

private theorem flag_voice (u : VoiceUpdate) {failed : List String} (hfailed : failed ≠ []) :
    ∃ line, flag (.voice u) failed = (Action.note .warn line).bind fun _ => .done failed :=
  ⟨_, if_neg (by simpa using hfailed)⟩

private theorem flag_nil (event : Event) : flag event [] = .done [] := by
  cases event with
  | message m => rfl
  | voice u => rfl

theorem poll_flag (event : Event) (failed : List String) (me : Strand) (h : Hub Bot Lock) :
    let r := (Progress.start (flag event failed)).poll Bot.respond me h
    let calls := event.flagCalls h.state.settings.failureEmoji failed
    r.2.state.unlogged = (h.state.askedAll calls).unlogged ∧
      ∃ result, Concluding result r.1 ∧
        (result = some failed ∨ result = none ∧ ∃ c ∈ calls, h.state.answer c = none) := by
  intro r calls
  by_cases hfailed : failed = []
  · subst hfailed
    have hr : r = (.ended (some []), h) := by
      show run Bot.respond me (flag event []) h = _
      rw [flag_nil]
      rfl
    have hcalls : calls = [] := by cases event <;> rfl
    rw [hr, hcalls]
    exact ⟨rfl, some [], .ended, .inl rfl⟩
  · cases event with
    | voice u =>
      obtain ⟨line, hflag⟩ := flag_voice u hfailed
      have hr : r = (.ended (some failed), h.writeAll [⟨.warn, line⟩]) := by
        show run Bot.respond me (flag (.voice u) failed) h = _
        rw [hflag]
        rfl
      rw [hr]
      exact ⟨rfl, some failed, .ended, .inl rfl⟩
    | message m =>
      obtain ⟨line, hflag⟩ := flag_message m hfailed
      let c : Call := .addReaction m.channel.id m.id h.state.settings.failureEmoji
      have hcalls : calls = [c] := if_neg hfailed
      have hr : r = run Bot.respond me (.ask (.call c) (afterFlag failed))
          (h.writeAll [⟨.warn, line⟩]) := by
        show run Bot.respond me (flag (.message m) failed) h = _
        rw [hflag]
        rfl
      rw [hr, hcalls]
      have hresult : (h.state.answer c).map (fun _ => failed) = some failed ∨
          (h.state.answer c).map (fun _ => failed) = none ∧ ∃ c' ∈ [c], h.state.answer c' = none := by
        cases hanswer : h.state.answer c with
        | none => exact .inr ⟨rfl, c, List.mem_cons_self, hanswer⟩
        | some outcome => exact .inl rfl
      have hrespond : Bot.respond (h.writeAll [⟨.warn, line⟩]).state c =
          ((h.state.asked c).writeAll [⟨.warn, line⟩], (h.state.platform h.state.deeds c).duration,
            h.state.answer c) := by
        simp only [Bot.respond, Hub.writeAll, Bot.asked_writeAll, Bot.answer_writeAll]
        rfl
      simp only [run, hrespond]
      split
      · obtain ⟨lines, hrun⟩ := run_afterFlag failed (h.state.answer c) me
          { h.writeAll [⟨.warn, line⟩] with state := (h.state.asked c).writeAll [⟨.warn, line⟩] }
        rw [hrun]
        exact ⟨rfl, _, .ended, hresult⟩
      · exact ⟨rfl, _, .waiting _ fun me h => run_afterFlag failed _ me h, hresult⟩

end GuildBot.Audience
