import GuildBot.Proofs.Bot.Return

namespace GuildBot

open Platform

namespace Duty

private theorem exists_turn {d : Duty} {m : EventMachine}
    (hm : d.shift.machine.turn? Bot.respond = some m) :
    ∃ moves, (d.after moves).shift = { d.shift with machine := m } := by
  obtain ⟨s, hs, rfl⟩ := Option.map_eq_some_iff.1 hm
  have hany : d.shift.machine.hub.woken.any (·.task = s.task) = true :=
    List.any_eq_true.2 ⟨s, List.mem_of_mem_head? hs, decide_eq_true rfl⟩
  have hstep : (d.step (.turn s.task)).shift =
      { d.shift with machine := d.shift.machine.pollTask Bot.respond s.task } := by
    simp only [step, if_pos hany]
  exact ⟨[.turn s.task], hstep⟩

private theorem exists_arrive (d : Duty) {time : Nat} (hlater : d.shift.now ≤ time) :
    ∃ moves, (d.after moves).shift = { d.shift with
      machine := { d.shift.machine with hub := d.shift.machine.hub.arrive time } } := by
  have htime : d.shift.machine.hub.now + (time - d.shift.machine.hub.now) = time := by
    have hnow : d.shift.machine.hub.now ≤ time := hlater
    omega
  have hstep : (d.step (.pass (time - d.shift.machine.hub.now))).shift = { d.shift with
      machine := { d.shift.machine with hub := d.shift.machine.hub.arrive time } } := by
    simp only [step, htime]
  exact ⟨[.pass (time - d.shift.machine.hub.now)], hstep⟩

private theorem exists_forwarded (d : Duty) {since : Nat} {rest : List (Nat × RawEvent)}
    (hphase : d.shift.phase = .forwarding since rest) :
    let f := Shift.forwarded d.shift.now since rest
    ∃ moves, d.after moves = { d with shift := { d.shift with
      stream := d.shift.stream ++ f.1, phase := .forwarding f.2.1 f.2.2 } } := by
  induction rest generalizing d since with
  | nil =>
    refine ⟨[], ?_⟩
    simp only [Shift.forwarded, List.append_nil, ← hphase]
    rfl
  | cons event rest ih =>
    obtain ⟨delay, raw⟩ := event
    simp only [Shift.forwarded]
    split
    · have hstep : d.step .forward = { d with shift := { d.shift with
          stream := d.shift.stream ++ [raw], phase := .forwarding (since + delay) rest } } := by
        simp only [step, hphase]
      obtain ⟨moves, hmoves⟩ := ih { d with shift := { d.shift with
        stream := d.shift.stream ++ [raw], phase := .forwarding (since + delay) rest } } rfl
      refine ⟨.forward :: moves, ?_⟩
      rw [after, List.foldl_cons, hstep]
      refine hmoves.trans ?_
      simp only [Shift.now, List.append_assoc, List.singleton_append]
    · refine ⟨[], ?_⟩
      simp only [List.append_nil, ← hphase]
      rfl

private theorem after_settle {d : Duty} {phase : GatewayPhase} (hnone : d.shift.phase.ahead = [])
    (hphase : phase.ahead = []) (hopen : d.shift.phase ≠ .closed) :
    d.after [.settle phase] = { d with shift := { d.shift with phase } } :=
  if_pos ⟨hnone, hphase, hopen⟩

private theorem exists_forward (d : Duty) : ∃ moves, d.after moves = { d with shift := d.shift.forward } := by
  have hheld : (if d.shift.isShutdown then GatewayPhase.closing (d.shift.now + 1)
      else .holding).ahead = [] := by
    split <;> rfl
  cases hphase : d.shift.phase with
  | closed =>
    refine ⟨[], ?_⟩
    simp only [Shift.forward, hphase]
    rfl
  | closing time =>
    simp only [Shift.forward, hphase]
    split
    · exact ⟨[.settle .closed], after_settle (by rw [hphase]; rfl) rfl (by simp [hphase])⟩
    · exact ⟨[], rfl⟩
  | holding =>
    simp only [Shift.forward, hphase]
    exact ⟨[.settle _], after_settle (by rw [hphase]; rfl) hheld (by simp [hphase])⟩
  | forwarding since rest =>
    obtain ⟨moves, hmoves⟩ := d.exists_forwarded hphase
    simp only [Shift.forward, hphase]
    rcases hf : Shift.forwarded d.shift.now since rest with ⟨raws, since', rest'⟩
    rw [hf] at hmoves
    cases rest' with
    | cons event rest' => exact ⟨moves, hmoves⟩
    | nil =>
      have hsettled (phase : GatewayPhase) (hahead : phase.ahead = []) :
          d.after (moves ++ [.settle phase]) = { d with shift := { d.shift with
            stream := d.shift.stream ++ raws, phase } } := by
        rw [after_append, hmoves]
        exact after_settle rfl hahead (by simp)
      dsimp only
      split
      · exact ⟨_, hsettled _ hheld⟩
      · exact ⟨_, hsettled _ rfl⟩

private theorem exists_attend (d : Duty) (hlistening : d.shift.listening = true ↔ d.stage = .listening) :
    ∃ moves, (d.after moves).shift = d.shift.attend := by
  by_cases hstage : d.stage = .listening
  · have htake (n : Nat) (move : Move) : d.after (List.replicate n .accept ++ [move]) =
        ({ d with shift := d.shift.take n } : Duty).step move := by
      rw [after_append, after_accept d hstage]
      rfl
    have hdeserted (n : Nat) (hall : d.shift.stream.drop n = []) (hclosed : d.shift.phase = .closed) :
        ∃ moves, (d.after moves).shift = (d.shift.take n).closeDeserted :=
      ⟨_, (congrArg shift (htake n .seeEnd)).trans
        (congrArg shift (if_pos ⟨hstage, hall, hclosed⟩))⟩
    simp only [Shift.attend, hlistening.2 hstage, Bool.not_true, Bool.false_eq_true, if_false]
    cases hrequest : d.shift.shutdown.filter (·.time ≤ d.shift.now) with
    | none =>
      simp only
      split
      · next hclosed => exact hdeserted _ List.drop_length hclosed
      · exact ⟨_, congrArg shift (after_accept d hstage _)⟩
    | some request =>
      simp only
      split
      · next h => exact hdeserted _ (List.drop_eq_nil_of_le (Nat.le_of_lt h.1)) h.2
      · have hfired : d.shift.isShutdown = true := by
          obtain ⟨hshutdown, hle⟩ := Option.filter_eq_some_iff.1 hrequest
          simp only [Shift.isShutdown, hshutdown, Option.any_some, hle]
        have hshutdown (n : Nat) : (d.shift.take n).isShutdown = true :=
          isShutdown_of_le hfired rfl (Nat.le_of_eq (d.shift.take_now n).symm)
        exact ⟨_, (congrArg shift (htake request.head .seeShutdown)).trans
          (congrArg shift (if_pos ⟨hstage, hshutdown _⟩))⟩
  · have hdeaf : d.shift.listening = false := by
      simpa using mt hlistening.1 hstage
    refine ⟨[], ?_⟩
    simp only [Shift.attend, hdeaf]
    rfl

section

variable {bot : Bot} {spawned : List RawEvent} {script : GatewayScript} {shutdown : Option Shutdown}
  {accepted : List RawEvent} {d : Duty}

theorem Sound.exists_attended (hs : Sound bot spawned script shutdown accepted d) :
    ∃ moves, (d.after moves).shift = d.shift.forward.attend := by
  obtain ⟨moves, hforward⟩ := d.exists_forward
  obtain ⟨accepted', hs'⟩ := hs.after moves
  obtain ⟨more, hattend⟩ := (d.after moves).exists_attend hs'.listening
  refine ⟨moves ++ more, ?_⟩
  rw [after_append, hattend, hforward]

theorem Sound.exists_step (hs : Sound bot spawned script shutdown accepted d) {s : Shift}
    (hstep : d.shift.Steps s) : ∃ moves, (d.after moves).shift = s := by
  cases hstep with
  | turn m hturn => exact exists_turn hturn
  | attend idle woken => exact hs.exists_attended
  | arrive idle time next =>
    obtain ⟨moves, hmoves⟩ := hs.exists_attended
    obtain ⟨accepted', hs'⟩ := hs.after moves
    have hwaits := d.shift.waits_of_attended
    have hlater : (d.after moves).shift.now ≤ time := by
      rw [← hmoves] at hwaits next
      exact Shift.le_of_nextTime? hs'.attended.serves hwaits next
    obtain ⟨more, hmore⟩ := (d.after moves).exists_arrive hlater
    exact ⟨moves ++ more, by rw [after_append, hmore, hmoves]⟩

/-- A shift that is run takes one of the courses that it can take. -/
theorem Sound.exists_run (hs : Sound bot spawned script shutdown accepted d) (n : Nat) :
    ∃ moves, (d.after moves).shift = d.shift.run n := by
  induction n generalizing d accepted with
  | zero => exact ⟨[], rfl⟩
  | succ n ih =>
    rcases d.shift.run_succ with ⟨s, hstep, hrun⟩ | ⟨-, hrun⟩
    · obtain ⟨moves, hmoves⟩ := hs.exists_step hstep
      obtain ⟨accepted', hs'⟩ := hs.after moves
      obtain ⟨more, hmore⟩ := ih hs'
      exact ⟨moves ++ more, by rw [after_append, hmore, hmoves, hrun]⟩
    · rw [hrun]
      exact hs.exists_attended

theorem Sound.exists_result (hs : Sound bot spawned script shutdown accepted d)
    (hover : d.shift.isOver = true) :
    ∃ moves, (d.after moves).shift = d.shift ∧ (d.after moves).stage = .done := by
  obtain ⟨⟨hlistening, hdrained⟩, hclosed⟩ :
      (d.shift.listening = false ∧ d.shift.machine.inFlight = 0) ∧ d.shift.phase = .closed := by
    simpa [Shift.isOver] using hover
  have hjoin {d : Duty} (hstage : d.stage = .joining) (hclosed : d.shift.phase = .closed) :
      d.after [.join] = { d with stage := .done } := if_pos ⟨hstage, hclosed⟩
  cases hstage : d.stage with
  | listening =>
    rw [hs.listening.2 hstage] at hlistening
    cases hlistening
  | done => exact ⟨[], rfl, hstage⟩
  | joining =>
    refine ⟨[.join], ?_⟩
    rw [hjoin hstage hclosed]
    exact ⟨rfl, rfl⟩
  | draining =>
    have hdraining : d.after [.seeDrained] = { d with stage := .joining } :=
      if_pos ⟨hstage, hdrained⟩
    refine ⟨[.seeDrained] ++ [.join], ?_⟩
    rw [after_append, hdraining, hjoin (d := { d with stage := .joining }) rfl hclosed]
    exact ⟨rfl, rfl⟩

end

theorem exists_start (bot : Bot) (spawned : List RawEvent) (script : GatewayScript)
    (shutdown : Option Shutdown) :
    ∃ moves, ((start bot spawned script shutdown).after moves).shift =
      Shift.start bot spawned script shutdown :=
  exists_attend _ (Sound.start bot spawned script shutdown).listening

end Duty

end GuildBot
