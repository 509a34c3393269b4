import GuildBot.Proofs.Bot.ShiftCourse
import GuildBot.Proofs.Flow.Rest

/-!
# A shift that is run comes to its end

Each step brings a shift nearer to its end: the gateway moves on, an event is accepted, a moment that was
awaited has come, or the tasks are nearer to theirs. So a shift ends whose gateway does.
-/

namespace GuildBot

open Platform

open Relation (TransGen)

/-- What a gateway has yet to go through. -/
def GatewayPhase.stages : GatewayPhase → Nat
  | .forwarding _ rest => rest.length + 3
  | .holding => 2
  | .closing _ => 1
  | .closed => 0

namespace Shift

/-- The moments yet to come at which the gateway does something or a shutdown is asked for. -/
def moments (s : Shift) : List Nat :=
  (s.phase.time?.toList ++ s.shutdown.toList.map Shutdown.time).filter (s.now < ·)

noncomputable def measure (s : Shift) : Nat × Nat × Nat × Multiset Ordinal.{0} × Nat × Nat :=
  (s.phase.stages, s.stream.length, s.moments.length, s.machine.measure)

/-- Whether one shift is nearer to its end than another. -/
def Nearer (s' s : Shift) : Prop :=
  Prod.Lex (· < ·) (Prod.Lex (· < ·) (Prod.Lex (· < ·) Machine.Below)) s'.measure s.measure

private theorem nearer_wellFounded : WellFounded Nearer :=
  InvImage.wf measure (WellFounded.prod_lex Nat.lt_wfRel.wf
    (WellFounded.prod_lex Nat.lt_wfRel.wf
      (WellFounded.prod_lex Nat.lt_wfRel.wf Machine.below_wellFounded)))

namespace Nearer

variable {s s' : Shift}

private theorem of_stages (h : s'.phase.stages < s.phase.stages) : Nearer s' s := .left _ _ h

private theorem of_stream (hphase : s'.phase = s.phase) (h : s'.stream.length < s.stream.length) :
    Nearer s' s := by
  rw [Nearer, measure, measure, hphase]
  exact .right _ (.left _ _ h)

private theorem of_moments (hphase : s'.phase = s.phase) (hstream : s'.stream = s.stream)
    (h : s'.moments.length < s.moments.length) : Nearer s' s := by
  rw [Nearer, measure, measure, hphase, hstream]
  exact .right _ (.right _ (.left _ _ h))

private theorem of_machine (hphase : s'.phase = s.phase) (hstream : s'.stream = s.stream)
    (hmoments : s'.moments.length ≤ s.moments.length)
    (h : Machine.Below s'.machine.measure s.machine.measure) : Nearer s' s := by
  rcases Nat.lt_or_eq_of_le hmoments with hlt | heq
  · exact of_moments hphase hstream hlt
  · rw [Nearer, measure, measure, hphase, hstream, heq]
    exact .right _ (.right _ (.right _ h))

end Nearer

section

variable (s : Shift)

private theorem forwarded_length (now since : Nat) (rest : List (Nat × RawEvent)) :
    (forwarded now since rest).2.2.length < rest.length ∨
      forwarded now since rest = ([], since, rest) := by
  have hle (since : Nat) (rest : List (Nat × RawEvent)) :
      (forwarded now since rest).2.2.length ≤ rest.length := by
    induction rest generalizing since with
    | nil => exact Nat.le_refl 0
    | cons event rest ih =>
      obtain ⟨delay, raw⟩ := event
      simp only [forwarded]
      split
      · exact Nat.le_succ_of_le (ih (since + delay))
      · exact Nat.le_refl _
  cases rest with
  | nil => exact .inr rfl
  | cons event rest =>
    obtain ⟨delay, raw⟩ := event
    simp only [forwarded]
    split
    · exact .inl (Nat.lt_succ_of_le (hle (since + delay) rest))
    · exact .inr rfl

private theorem forward_stages : s.forward.phase.stages < s.phase.stages ∨ s.forward = s := by
  cases hphase : s.phase with
  | closed => exact .inr (by simp only [forward, hphase])
  | holding =>
    by_cases hshutdown : s.isShutdown = true
    · refine .inl ?_
      simp only [forward, hphase, hshutdown, if_true, GatewayPhase.stages]
      decide
    · refine .inr ?_
      simp only [forward, hphase, hshutdown]
      rw [if_neg (by simp), ← hphase]
  | closing time =>
    by_cases hdue : time ≤ s.now
    · refine .inl ?_
      simp only [forward, hphase, hdue, if_true, GatewayPhase.stages]
      decide
    · exact .inr (by simp only [forward, hphase, hdue, if_false])
  | forwarding since rest =>
    have hheld : (if s.isShutdown then GatewayPhase.closing (s.now + 1) else .holding).stages ≤ 2 := by
      split
      · exact Nat.le_succ 1
      · exact Nat.le_refl 2
    have hlength := forwarded_length s.now since rest
    simp only [forward, hphase]
    rcases hf : forwarded s.now since rest with ⟨raws, since', rest'⟩
    rw [hf] at hlength
    cases rest' with
    | nil =>
      refine .inl ?_
      dsimp only
      split
      · exact Nat.lt_of_le_of_lt hheld (Nat.le_add_left _ _)
      · exact Nat.succ_pos _
    | cons event rest' =>
      rcases hlength with hlt | heq
      · exact .inl (Nat.add_lt_add_right hlt 3)
      · obtain ⟨rfl, rfl, rfl⟩ : raws = [] ∧ since' = since ∧ event :: rest' = rest := by
          simpa using heq
        refine .inr ?_
        dsimp only
        rw [List.append_nil, ← hphase]

private theorem moments_arrive (time : Nat) (hlater : s.now ≤ time) :
    ({ s with machine := { s.machine with hub := s.machine.hub.arrive time } } : Shift).moments =
      s.moments.filter (time < ·) := by
  rw [moments, moments, List.filter_filter]
  refine List.filter_congr fun t _ => ?_
  have hnow : ({ s with machine := { s.machine with hub := s.machine.hub.arrive time } } :
      Shift).now = time := Hub.arrive_now _ _
  rw [hnow]
  by_cases ht : time < t
  · simp [ht, Nat.lt_of_le_of_lt hlater ht]
  · simp [ht]

private theorem attended_nearer : s.forward.attend.Nearer s ∨
    s.forward.attend.phase = s.phase ∧ s.forward.attend.stream = s.stream ∧
      s.forward.attend.moments = s.moments ∧ ∃ state, s.forward.attend.machine =
        { s.machine with hub := { s.machine.hub with state } } := by
  rcases s.forward_stages with hlt | heq
  · obtain ⟨-, hphase, -, -⟩ := s.forward.attend_keeps
    exact .inl (.of_stages (hphase ▸ hlt))
  · rw [heq]
    obtain ⟨hnow, hphase, -, hshutdown⟩ := s.attend_keeps
    rcases s.attend_idle with hshorter | ⟨hstream, hmachine⟩
    · exact .inl (.of_stream hphase hshorter)
    · refine .inr ⟨hphase, hstream, ?_, hmachine⟩
      rw [moments, moments, hnow, hphase, hshutdown]

/-- When time passes to the next moment, something that was awaited has come. -/
private theorem arrive_nearer {time : Nat} (hserves : s.machine.hub.Serves fun _ => True)
    (hwaits : ∀ time ∈ s.phase.time?, s.now < time) (hnext : s.nextTime? = some time) :
    ({ s with machine := { s.machine with hub := s.machine.hub.arrive time } } : Shift).Nearer s := by
  have hmoments := moments_arrive s time (le_of_nextTime? hserves hwaits hnext)
  have hcome (hmem : time ∈ s.moments) :
      ({ s with machine := { s.machine with hub := s.machine.hub.arrive time } } : Shift).Nearer s := by
    refine .of_moments rfl rfl ?_
    rw [hmoments]
    exact List.length_filter_lt_length_iff_exists.2 ⟨time, hmem, by simp⟩
  rw [nextTime?_eq] at hnext
  have hmem := List.min?_mem hnext
  rw [List.mem_append, List.mem_append] at hmem
  rcases hmem with (htimer | hgateway) | hrequest
  · obtain ⟨timer, hset, rfl⟩ := List.mem_map.1 htimer
    refine .of_machine rfl rfl ?_ (Machine.arrive_below hset (Nat.le_refl _))
    rw [hmoments]
    exact List.length_filter_le _ _
  · have hlater := hwaits time (Option.mem_toList.1 hgateway)
    exact hcome (List.mem_filter.2 ⟨List.mem_append_left _ hgateway, decide_eq_true hlater⟩)
  · obtain ⟨hrequest, hlater⟩ := List.mem_filter.1 hrequest
    exact hcome (List.mem_filter.2 ⟨List.mem_append_right _ hrequest, hlater⟩)

end

private theorem Steps.nearer {s s' : Shift} (h : s.Steps s')
    (hserves : s.forward.attend.machine.hub.Serves fun _ => True) : TransGen Nearer s' s := by
  cases h with
  | turn m hturn =>
    have hnow : ({ s with machine := m } : Shift).now = s.now := by
      obtain ⟨strand, -, rfl⟩ := Option.map_eq_some_iff.1 hturn
      exact Duty.pollTask_now s.machine strand.task
    have hmoments : ({ s with machine := m } : Shift).moments = s.moments := by
      rw [moments, moments, hnow]
    exact .single (.of_machine rfl rfl (Nat.le_of_eq (congrArg List.length hmoments))
      (Machine.turn_below hturn))
  | attend idle woken =>
    rcases s.attended_nearer with hnearer | ⟨-, -, -, state, hmachine⟩
    · exact .single hnearer
    · have hnone : s.machine.hub.woken = [] := by
        simpa [Machine.turn?] using idle
      rw [hmachine] at woken
      exact absurd hnone woken
  | arrive idle time next =>
    have harrive := s.forward.attend.arrive_nearer hserves s.waits_of_attended next
    rcases s.attended_nearer with hnearer | ⟨hphase, hstream, hmoments, state, hmachine⟩
    · exact .tail (.single harrive) hnearer
    · have hsame : s.forward.attend.measure = s.measure := by
        rw [measure, measure, hphase, hstream, hmoments, hmachine]
        rfl
      rw [Nearer, hsame] at harrive
      exact .single harrive

end Shift

namespace Duty

variable {bot : Bot} {spawned : List RawEvent} {script : GatewayScript} {shutdown : Option Shutdown}
  {accepted : List RawEvent} {d : Duty}

/-- No event is forgotten, so when nothing more is to happen all events have ended. -/
private theorem Sound.drained_of_still (hs : Sound bot spawned script shutdown accepted d)
    (hwoken : d.shift.machine.hub.woken = []) (htimers : d.shift.machine.hub.timers = []) :
    d.shift.machine.inFlight = 0 := by
  rw [inFlight_eq_zero]
  intro t ht hgoing
  obtain ⟨number, ht⟩ := List.mem_iff_getElem?.1 ht
  obtain ⟨raw, -, hp⟩ := hs.processes ht
  have hw := hp.watched hgoing
  rw [Hub.Watches, hwoken, htimers] at hw
  cases hdeadline : t.deadline with
  | none => simp [hdeadline] at hw
  | some deadline => simp [hdeadline] at hw

private theorem closed_of_still (s : Shift) (hgateway : s.forward.phase.time? = none)
    (hholding : s.forward.phase ≠ .holding) : s.forward.phase = .closed := by
  have hready := s.forward_rested.ready
  cases hphase : s.forward.phase with
  | closed => rfl
  | holding => exact absurd hphase hholding
  | closing time => simp [hphase, GatewayPhase.time?] at hgateway
  | forwarding since rest =>
    cases rest with
    | nil => exact absurd hphase (hready since)
    | cons event rest => simp [hphase, GatewayPhase.time?] at hgateway

/-- A shift stops only when it is over, unless its gateway stays open for ever. -/
private theorem Sound.over_of_stops (hs : Sound bot spawned script shutdown accepted d)
    (hends : script.hold = true → shutdown ≠ none)
    (hhold : d.shift.phase = .holding → script.hold = true) (hstops : d.shift.Stops) :
    d.shift.forward.attend.isOver = true := by
  obtain ⟨moves, hmoves⟩ := hs.exists_attended
  obtain ⟨accepted', hs'⟩ := hs.after moves
  obtain ⟨hnow, hphase, -, -⟩ := d.shift.forward.attend_keeps
  rcases hstops.still with hover | hnext
  · exact hover
  · rw [Shift.nextTime?_eq, List.min?_eq_none_iff, List.append_eq_nil_iff, List.append_eq_nil_iff,
      List.map_eq_nil_iff, ← hmoves] at hnext
    obtain ⟨⟨htimers, hgateway⟩, hrequest⟩ := hnext
    rw [hs'.shutdown_eq] at hrequest
    rw [hmoves] at hgateway hrequest
    rw [hphase, Option.toList_eq_nil_iff] at hgateway
    have hclosed : d.shift.forward.phase = .closed := by
      refine closed_of_still d.shift hgateway fun hholding => ?_
      -- It would have seen the shutdown.
      obtain ⟨hquiet, hstays⟩ := d.shift.forward_rested.holding hholding
      have hhold' : script.hold = true := hstays.elim hhold fun h => hs.script_eq ▸ h
      obtain ⟨request, hshutdown⟩ := Option.ne_none_iff_exists'.1 (hends hhold')
      rw [Shift.isShutdown, hs.shutdown_eq] at hquiet
      rw [hnow, Shift.forward_now] at hrequest
      simp [hshutdown] at hquiet hrequest
      omega
    have hdrained : d.shift.forward.attend.machine.inFlight = 0 := by
      rw [← hmoves]
      exact hs'.drained_of_still (hmoves ▸ hstops.unwoken) htimers
    have hdeaf : d.shift.forward.attend.listening = false := Shift.attend_of_closed _ hclosed
    simp [Shift.isOver, hdeaf, hdrained, hphase, hclosed]

private theorem holding_of_steps {s s' : Shift} (h : s.Steps s')
    (hhold : s.phase = .holding → s.script.hold = true)
    (hholding : s'.phase = .holding) : s.script.hold = true := by
  have hattended (hholding : s.forward.attend.phase = .holding) : s.script.hold = true := by
    obtain ⟨-, hphase, -, -⟩ := s.forward.attend_keeps
    exact (s.forward_rested.holding (hphase ▸ hholding)).2.elim hhold id
  cases h with
  | turn m hturn => exact hhold hholding
  | attend idle woken => exact hattended hholding
  | arrive idle time next => exact hattended hholding

/-- A shift that is run comes to its end, unless its gateway stays open for ever. -/
theorem Sound.exists_over (hs : Sound bot spawned script shutdown accepted d)
    (hends : script.hold = true → shutdown ≠ none)
    (hhold : d.shift.phase = .holding → script.hold = true) : ∃ n, (d.shift.run n).isOver = true := by
  induction hd : d.shift using Shift.nearer_wellFounded.transGen.induction generalizing d accepted with
  | _ s ih =>
    subst hd
    rcases d.shift.run_succ with ⟨s', hstep, hrun⟩ | ⟨hstops, hrun⟩
    · obtain ⟨moves, hmoves⟩ := hs.exists_step hstep
      obtain ⟨accepted', hs'⟩ := hs.after moves
      obtain ⟨more, hattended⟩ := hs.exists_attended
      obtain ⟨accepted'', hs''⟩ := hs.after more
      have hnearer := hstep.nearer (hattended ▸ hs''.attended.serves)
      have hscript := hs.script_eq
      obtain ⟨n, hover⟩ := ih s' hnearer hs' (fun hholding => by
        rw [← hscript]
        refine holding_of_steps hstep (fun h => hscript.symm ▸ hhold h) (hmoves ▸ hholding)) hmoves
      exact ⟨n + 1, by rw [hrun, hover]⟩
    · exact ⟨1, by rw [hrun, hs.over_of_stops hends hhold hstops]⟩

end Duty

end GuildBot
