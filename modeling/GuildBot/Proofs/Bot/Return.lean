import GuildBot.Proofs.Bot.Duty
import GuildBot.Proofs.Bot.ShiftStep

/-!
# A shift can always come to its end

Whatever has happened in a shift, it is not stuck: each event that goes on ends when its time is up, the
gateway can end, and then the bot returns.
-/

namespace GuildBot

open Platform

namespace Duty

theorem after_append (d : Duty) (moves more : List Move) :
    d.after (moves ++ more) = (d.after moves).after more :=
  List.foldl_append ..

@[simp] theorem turn_stage (d : Duty) (number : Nat) : (d.step (.turn number)).stage = d.stage := by
  simp only [step]
  split <;> rfl

@[simp] theorem turn_phase (d : Duty) (number : Nat) :
    (d.step (.turn number)).shift.phase = d.shift.phase := by
  simp only [step]
  split <;> rfl

theorem after_accept (d : Duty) (hstage : d.stage = .listening) (n : Nat) :
    d.after (List.replicate n .accept) = { d with shift := d.shift.take n } := by
  induction n generalizing d with
  | zero => rfl
  | succ n ih =>
    have hstep : d.step .accept = { d with shift := d.shift.take 1 } := by
      simp only [step, if_pos hstage]
    have hrest := ih (d.step .accept) (hstep ▸ hstage)
    rw [hstep, Shift.take_take] at hrest
    rw [List.replicate_succ, after, List.foldl_cons, hstep]
    exact hrest

private theorem inFlight_set {m : EventMachine} {number : Nat}
    {t : Task Bot Lock Call.Answer (Option String) (List String)}
    (ht : m.tasks[number]? = some t) (hgoing : t.ending = none)
    (t' : Task Bot Lock Call.Answer (Option String) (List String)) (hub : Hub Bot Lock) :
    (⟨hub, m.tasks.set number t'⟩ : EventMachine).inFlight + (if t'.ending = none then 0 else 1) =
      m.inFlight := by
  obtain ⟨hlt, rfl⟩ := List.getElem?_eq_some_iff.1 ht
  have hpositive : 0 < m.tasks.countP (·.ending.isNone) :=
    List.countP_pos_iff.2 ⟨m.tasks[number], List.getElem_mem hlt, by simp [hgoing]⟩
  simp only [Machine.inFlight, ← List.countP_eq_length_filter, List.countP_set hlt, hgoing,
    Option.isNone_none, if_true, Option.isNone_iff_eq_none]
  split <;> omega

private theorem turn_of_woken {d : Duty} {number : Nat}
    {t : Task Bot Lock Call.Answer (Option String) (List String)}
    (ht : d.shift.machine.tasks[number]? = some t) (hgoing : t.ending = none)
    (hwoken : ∃ s ∈ d.shift.machine.hub.woken, s.task = number) :
    let t' := t.next Bot.respond number (d.shift.machine.turnFor number)
    let d' := d.step (.turn number)
    d'.shift.machine.tasks[number]? = some t' ∧
      d'.shift.machine.inFlight + (if t'.ending = none then 0 else 1) =
        d.shift.machine.inFlight := by
  obtain ⟨hlt, -⟩ := List.getElem?_eq_some_iff.1 ht
  have hany : d.shift.machine.hub.woken.any (·.task = number) = true := by
    simpa using hwoken
  simp only [step, if_pos hany]
  rcases d.shift.machine.pollTask_cases Bot.respond number with ⟨hnone, -⟩ | ⟨t', ht', -, -, heq⟩
  · simp [Machine.turnOf?, ht, hgoing] at hnone
  · obtain rfl := Option.some.inj (ht.symm.trans ht')
    rw [heq]
    exact ⟨List.getElem?_set_self hlt, inFlight_set ht hgoing _ _⟩

/-- Whether, from one point of a shift to another, no more happened than that events ended. -/
structure Winds (d d' : Duty) : Prop where
  stage : d'.stage = d.stage
  phase : d'.shift.phase = d.shift.phase
  inFlight : d'.shift.machine.inFlight < d.shift.machine.inFlight

namespace Sound

variable {bot : Bot} {spawned : List RawEvent} {script : GatewayScript} {shutdown : Option Shutdown}
  {accepted : List RawEvent} {d : Duty} {number : Nat}
  {t : Task Bot Lock Call.Answer (Option String) (List String)}

theorem processes (hs : Sound bot spawned script shutdown accepted d)
    (ht : d.shift.machine.tasks[number]? = some t) :
    ∃ raw, (spawned ++ accepted)[number]? = some raw ∧
      t.Processes bot.settings d.shift.machine.hub number (d.turnsOf number) raw := by
  obtain ⟨hlt, -⟩ := List.getElem?_eq_some_iff.1 ht
  have hraw := List.getElem?_eq_getElem (hs.attended.length_eq ▸ hlt)
  exact ⟨_, hraw, hs.attended.processes number _ t hraw ht⟩

private theorem winds_of_begun (hs : Sound bot spawned script shutdown accepted d)
    (ht : d.shift.machine.tasks[number]? = some t) (hgoing : t.ending = none) {deadline : Nat}
    (hdeadline : t.deadline = some deadline) : ∃ more, d.Winds (d.after more) := by
  let late := d.step (.pass (deadline - d.shift.machine.hub.now))
  have harrived : late.shift.machine.hub.now = d.shift.machine.hub.now +
      (deadline - d.shift.machine.hub.now) := Hub.arrive_now _ _
  have hnow : deadline ≤ late.shift.machine.hub.now := by omega
  have hs' : Sound bot spawned script shutdown accepted late := hs.pass _
  have ht' : late.shift.machine.tasks[number]? = some t := ht
  obtain ⟨raw, -, hp⟩ := hs'.processes ht'
  -- Its timer has run out, so it was woken.
  have hwoken : ∃ s ∈ late.shift.machine.hub.woken, s.task = number := by
    have hw := hp.watched hgoing
    simp only [Hub.Watches, hdeadline] at hw
    rcases hw with htimer | ⟨-, hwoken⟩
    · have hlt := (hs'.attended.serves.timers _ htimer).2
      omega
    · exact hwoken
  have hends := hp.ends_of_late hgoing (late.shift.machine.turnFor number) hdeadline hnow
  obtain ⟨-, hflight⟩ := turn_of_woken ht' hgoing hwoken
  rw [if_neg hends] at hflight
  have hfewer : (late.step (.turn number)).shift.machine.inFlight <
      d.shift.machine.inFlight := Nat.lt_of_succ_le (Nat.le_of_eq hflight)
  exact ⟨[.pass (deadline - d.shift.machine.hub.now), .turn number], turn_stage late number,
    turn_phase late number, hfewer⟩

private theorem exists_winds (hs : Sound bot spawned script shutdown accepted d)
    (hflight : d.shift.machine.inFlight ≠ 0) : ∃ more, d.Winds (d.after more) := by
  obtain ⟨t, hmem, hgoing⟩ : ∃ t ∈ d.shift.machine.tasks, t.ending = none := by
    simpa [inFlight_eq_zero] using hflight
  obtain ⟨number, ht⟩ := List.mem_iff_getElem?.1 hmem
  cases hdeadline : t.deadline with
  | some deadline => exact hs.winds_of_begun ht hgoing hdeadline
  | none =>
    obtain ⟨raw, -, hp⟩ := hs.processes ht
    have hwoken : ∃ s ∈ d.shift.machine.hub.woken, s.task = number := by
      simpa only [Hub.Watches, hdeadline] using hp.watched hgoing
    obtain ⟨ht', hturn⟩ := turn_of_woken ht hgoing hwoken
    by_cases hgoes : (t.next Bot.respond number (d.shift.machine.turnFor number)).ending = none
    · -- It has begun, and goes on until its time is up.
      obtain ⟨deadline, hbegun⟩ := hp.exists_deadline hgoing (d.shift.machine.turnFor number)
      obtain ⟨more, hwinds⟩ := (hs.turn number).winds_of_begun ht' hgoes hbegun
      refine ⟨.turn number :: more, hwinds.stage.trans (turn_stage d number),
        hwinds.phase.trans (turn_phase d number), ?_⟩
      rw [if_pos hgoes] at hturn
      exact hturn ▸ hwinds.inFlight
    · rw [if_neg hgoes] at hturn
      have hfewer : (d.step (.turn number)).shift.machine.inFlight <
          d.shift.machine.inFlight := Nat.lt_of_succ_le (Nat.le_of_eq hturn)
      exact ⟨[.turn number], turn_stage d number, turn_phase d number, hfewer⟩

private theorem exists_drained (hs : Sound bot spawned script shutdown accepted d) :
    ∃ more, (d.after more).stage = d.stage ∧ (d.after more).shift.phase = d.shift.phase ∧
      (d.after more).shift.machine.inFlight = 0 := by
  induction hn : d.shift.machine.inFlight using Nat.strong_induction_on generalizing d accepted with
  | _ n ih =>
    by_cases hflight : d.shift.machine.inFlight = 0
    · exact ⟨[], rfl, rfl, hflight⟩
    · obtain ⟨more, hwinds⟩ := hs.exists_winds hflight
      obtain ⟨accepted', hs'⟩ := hs.after more
      obtain ⟨rest, hstage, hphase, hdrained⟩ := ih _ (hn ▸ hwinds.inFlight) hs' rfl
      rw [← after_append] at hstage hphase hdrained
      exact ⟨more ++ rest, hstage.trans hwinds.stage, hphase.trans hwinds.phase, hdrained⟩

end Sound

private theorem exists_closed (d : Duty) :
    ∃ more, (d.after more).stage = d.stage ∧ (d.after more).shift.phase = .closed := by
  induction hn : d.shift.phase.ahead.length generalizing d with
  | zero =>
    by_cases hclosed : d.shift.phase = .closed
    · exact ⟨[], rfl, hclosed⟩
    · have hstep : d.after [.settle .closed] =
          { d with shift := { d.shift with phase := .closed } } :=
        if_pos ⟨List.length_eq_zero_iff.1 hn, rfl, hclosed⟩
      exact ⟨[.settle .closed], hstep ▸ rfl, hstep ▸ rfl⟩
  | succ n ih =>
    obtain ⟨since, delay, raw, rest, hphase⟩ : ∃ since delay raw rest,
        d.shift.phase = .forwarding since ((delay, raw) :: rest) := by
      cases hphase : d.shift.phase with
      | forwarding since events =>
        cases events with
        | nil => simp [hphase, GatewayPhase.ahead] at hn
        | cons event rest => exact ⟨since, event.1, event.2, rest, rfl⟩
      | holding => simp [hphase, GatewayPhase.ahead] at hn
      | closing time => simp [hphase, GatewayPhase.ahead] at hn
      | closed => simp [hphase, GatewayPhase.ahead] at hn
    have hahead : (d.step .forward).shift.phase.ahead.length = n := by
      simp only [step, hphase]
      simpa [hphase, GatewayPhase.ahead] using hn
    have hstage : (d.step .forward).stage = d.stage := by
      simp only [step, hphase]
    obtain ⟨more, hsame, hclosed⟩ := ih (d.step .forward) hahead
    exact ⟨.forward :: more, hsame.trans hstage, hclosed⟩

private theorem exists_draining {d : Duty} (hstage : d.stage = .listening) :
    ∃ more, (d.after more).stage = .draining := by
  obtain ⟨more, hsame, hclosed⟩ := d.exists_closed
  let e := d.after more
  have hlistens : e.stage = .listening := hsame.trans hstage
  have hstream : (e.shift.take e.shift.stream.length).stream = [] := List.drop_length
  refine ⟨more ++ (List.replicate e.shift.stream.length .accept ++ [.seeEnd]), ?_⟩
  rw [after_append, after_append, after_accept e hlistens]
  exact congrArg stage (if_pos ⟨hlistens, hstream, hclosed⟩)

/-- Whatever has happened, the bot can return. -/
theorem Sound.exists_done {bot : Bot} {spawned : List RawEvent} {script : GatewayScript}
    {shutdown : Option Shutdown} {accepted : List RawEvent} {d : Duty}
    (hs : Sound bot spawned script shutdown accepted d) : ∃ more, (d.after more).stage = .done := by
  have hjoining {d : Duty} (hstage : d.stage = .joining) : ∃ more, (d.after more).stage = .done := by
    obtain ⟨more, hsame, hclosed⟩ := d.exists_closed
    refine ⟨more ++ [.join], ?_⟩
    rw [after_append]
    exact congrArg stage (if_pos ⟨hsame.trans hstage, hclosed⟩)
  have hdraining {d : Duty} {accepted : List RawEvent}
      (hs : Sound bot spawned script shutdown accepted d) (hstage : d.stage = .draining) :
      ∃ more, (d.after more).stage = .done := by
    obtain ⟨more, hsame, -, hdrained⟩ := hs.exists_drained
    have hstep : ((d.after more).step .seeDrained).stage = .joining :=
      congrArg stage (if_pos ⟨hsame.trans hstage, hdrained⟩)
    obtain ⟨rest, hdone⟩ := hjoining hstep
    refine ⟨more ++ .seeDrained :: rest, ?_⟩
    rw [after_append]
    exact hdone
  cases hstage : d.stage with
  | done => exact ⟨[], hstage⟩
  | joining => exact hjoining hstage
  | draining => exact hdraining hs hstage
  | listening =>
    obtain ⟨more, hstops⟩ := exists_draining hstage
    obtain ⟨accepted', hs'⟩ := hs.after more
    obtain ⟨rest, hdone⟩ := hdraining hs' hstops
    exact ⟨more ++ rest, by rw [after_append]; exact hdone⟩

end Duty

end GuildBot
