import GuildBot.Proofs.Bot.ShiftEnd

/-!
# All events of a shift are accounted for

Whatever course a shift takes, no event is lost and none is processed twice, the bot returns only when all
is over, and what it returns is how the gateway ended.
-/

namespace GuildBot

open Platform

namespace Duty

section

variable {bot : Bot} {spawned : List RawEvent} {script : GatewayScript} {shutdown : Option Shutdown}
  {accepted : List RawEvent} {d : Duty}

private theorem Sound.result_iff (hs : Sound bot spawned script shutdown accepted d) {result : Outcome Unit}
    (hresult : d.result? = some result) :
    d.stage = .done ∧ (result = .ok () ↔ script.ending = .well) := by
  obtain ⟨hdone, rfl⟩ : d.stage = .done ∧ d.shift.outcome = result := by
    simpa [result?] using hresult
  refine ⟨hdone, ?_⟩
  rw [Shift.outcome, hs.script_eq]
  cases script.ending with
  | well => simp
  | failed f => simp
  | panicked => simp

private theorem Sound.accepted_all (hs : Sound bot spawned script shutdown accepted d)
    (hleft : d.stage ≠ .listening) (hnever : ∀ request ∈ shutdown, d.shift.now < request.time) :
    accepted = script.events.map Prod.snd := by
  have hquiet : ¬d.shift.isShutdown = true := by
    intro hfired
    obtain ⟨request, hrequest, hle⟩ := (Option.any_eq_true _ _).1 hfired
    rw [hs.shutdown_eq] at hrequest
    exact absurd (hnever request hrequest) (Nat.not_lt.2 (of_decide_eq_true hle))
  obtain ⟨hstream, hclosed⟩ := (hs.left hleft).resolve_left hquiet
  have hevents := hs.events
  rw [hstream, hclosed] at hevents
  rw [hevents, List.nil_append]
  exact (List.append_nil accepted).symm

end

section

variable (bot : Bot) (spawned : List RawEvent) (script : GatewayScript) (shutdown : Option Shutdown)

private theorem exists_course (n : Nat) : ∃ moves,
    let s := (Shift.start bot spawned script shutdown).run n
    let d := (start bot spawned script shutdown).after moves
    d.shift = s ∧ (s.isOver = true → d.result? = some s.outcome) := by
  have hbegun := Sound.start bot spawned script shutdown
  obtain ⟨first, hfirst⟩ := exists_start bot spawned script shutdown
  obtain ⟨accepted, hs⟩ := hbegun.after first
  obtain ⟨more, hrun⟩ := hs.exists_run n
  rw [← after_append, hfirst] at hrun
  by_cases hover : ((Shift.start bot spawned script shutdown).run n).isOver = true
  · obtain ⟨accepted', hs'⟩ := hbegun.after (first ++ more)
    obtain ⟨last, hsame, hdone⟩ := hs'.exists_result (hrun ▸ hover)
    rw [← after_append, hrun] at hsame
    rw [← after_append] at hdone
    refine ⟨first ++ more ++ last, hsame, fun _ => ?_⟩
    rw [result?, if_pos hdone, hsame]
  · exact ⟨first ++ more, hrun, fun h => absurd h hover⟩

private theorem start_ends (hends : script.hold = true → shutdown ≠ none) :
    ∃ n, ((Shift.start bot spawned script shutdown).run n).isOver = true := by
  obtain ⟨first, hfirst⟩ := exists_start bot spawned script shutdown
  obtain ⟨accepted, hs⟩ := (Sound.start bot spawned script shutdown).after first
  have hphase : (Shift.start bot spawned script shutdown).phase ≠ .holding := by
    rw [Shift.start, (Shift.attend_keeps _).2.1]
    exact nofun
  obtain ⟨n, hover⟩ := hs.exists_over hends fun hholding => absurd (hfirst ▸ hholding) hphase
  exact ⟨n, hfirst ▸ hover⟩

end

/-- All events of a shift are accounted for. A shift that is run takes one of its possible courses, and comes
to its end unless its gateway stays open for ever. In every course, the events that the bot has accepted are
the first of those that the gateway has forwarded, and each of them, like those that were accepted before,
is processed by one task of its own, which keeps to the time limit of events. If the bot returns, these have
all ended and the gateway has too, all events were accepted unless a shutdown was asked for, and the result
is good just if the gateway ended well. And the bot can always return. -/
theorem events_accounted_for (bot : Bot) (spawned : List RawEvent) (script : GatewayScript)
    (shutdown : Option Shutdown) :
    (∀ n, ∃ moves,
      let s := (Shift.start bot spawned script shutdown).run n
      let d := (start bot spawned script shutdown).after moves
      d.shift = s ∧ (s.isOver = true → d.result? = some s.outcome)) ∧
    ((script.hold = true → shutdown ≠ none) →
      ∃ n, ((Shift.start bot spawned script shutdown).run n).isOver = true) ∧
    ∀ moves,
      let d := (start bot spawned script shutdown).after moves
      let tasks := d.shift.machine.tasks
      (∃ accepted,
        script.events.map Prod.snd = accepted ++ (d.shift.stream ++ d.shift.phase.ahead) ∧
        tasks.length = (spawned ++ accepted).length ∧
        (∀ (i : Nat) raw t, (spawned ++ accepted)[i]? = some raw → tasks[i]? = some t →
          t.Processes bot.settings d.shift.machine.hub i (d.turnsOf i) raw) ∧
        ∀ result, d.result? = some result →
          (∀ t ∈ tasks, t.ending ≠ none) ∧ d.shift.phase = .closed ∧
          ((∀ request ∈ shutdown, d.shift.now < request.time) →
            accepted = script.events.map Prod.snd) ∧
          (result = .ok () ↔ script.ending = .well)) ∧
      ∃ more, (d.after more).result?.isSome = true := by
  refine ⟨exists_course bot spawned script shutdown, start_ends bot spawned script shutdown,
    fun moves => ?_⟩
  obtain ⟨accepted, hs⟩ := (Sound.start bot spawned script shutdown).after moves
  intro d tasks
  refine ⟨⟨accepted, hs.events, hs.attended.length_eq, hs.attended.processes, ?_⟩, ?_⟩
  · intro result hresult
    obtain ⟨hdone, hiff⟩ := hs.result_iff hresult
    have hleft : d.stage ≠ .listening := by simp [d, hdone]
    exact ⟨inFlight_eq_zero.1 (hs.drained (.inr hdone)), hs.joined hdone, hs.accepted_all hleft, hiff⟩
  · obtain ⟨more, hdone⟩ := hs.exists_done
    refine ⟨more, ?_⟩
    rw [result?, if_pos hdone]
    rfl

def reactive : Behaviour := fun _ c =>
  { duration := 3
    result := some (match c with
      | .addReaction _ _ _ => .ok ()
      | _ => .error (.of (.other "forbidden"))) }

def reactiveBot : Bot := (Bot.ofSettings { token := "t" } reactive .hand ⟨0⟩ ⟨0⟩).registerStock.2

def pinged (messageId : String) : RawEvent :=
  .message { channelId := "1", authorId := "42", messageId, content := "!ping" }

def pinging : GatewayScript := { events := [(4, pinged "3")] }

/-- Two messages overlap, one accepted before and one forwarded, and each has its reaction. -/
theorem events_accounted_for_pings :
    ∃ moves, let d := (start reactiveBot [pinged "2"] pinging none).after moves
      d.result? = some (.ok ()) ∧
      (∃ t t', d.shift.machine.tasks = [t, t'] ∧ t.ending ≠ none ∧ t'.ending ≠ none ∧
        t.Processes reactiveBot.settings d.shift.machine.hub 0 (d.turnsOf 0) (pinged "2") ∧
        t'.Processes reactiveBot.settings d.shift.machine.hub 1 (d.turnsOf 1) (pinged "3")) ∧
      d.shift.machine.hub.state.deeds = [
        .call (.fetchUser "42"), .call (.fetchChannel "1"), .call (.fetchUser "42"),
        .call (.addReaction "1" "2" "👍"), .call (.fetchChannel "1"),
        .call (.addReaction "1" "3" "👍")] := by
  obtain ⟨hruns, -, hcourses⟩ := events_accounted_for reactiveBot [pinged "2"] pinging none
  obtain ⟨moves, hshift, hresult⟩ := hruns 50
  obtain ⟨⟨accepted, -, hlength, hprocesses, hreturned⟩, -⟩ := hcourses moves
  obtain ⟨hended, -, hall, -⟩ := hreturned _ (hresult (by decide +kernel))
  obtain rfl : accepted = [pinged "3"] := hall nofun
  obtain ⟨t, t', htasks⟩ := List.length_eq_two.1 hlength
  rw [htasks] at hprocesses hended
  refine ⟨moves, hresult (by decide +kernel), ⟨t, t', htasks, hended t (by simp),
    hended t' (by simp), hprocesses 0 _ t rfl rfl, hprocesses 1 _ t' rfl rfl⟩, ?_⟩
  rw [hshift]
  decide +kernel

end Duty

end GuildBot
