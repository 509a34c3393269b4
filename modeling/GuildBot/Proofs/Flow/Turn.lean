import GuildBot.Flow.Work

namespace GuildBot

variable {σ ℓ γ : Type} {answer : γ → Type} {α β : Type}

namespace Flow

variable {ρ : Type} {reply : ρ → Type}

@[simp] theorem bind_def (f : Flow σ reply α) (g : α → Flow σ reply β) : (f >>= g) = f.bind g := rfl

@[simp] theorem pure_def (a : α) : (pure a : Flow σ reply α) = .done a := rfl

@[simp] theorem map_def (g : α → β) (f : Flow σ reply α) :
    g <$> f = f.bind fun a => .done (g a) := rfl

end Flow

namespace Progress

variable [DecidableEq ℓ] (respond : Respond σ answer) (me : Strand)

def andThen (f : α → Program σ ℓ answer β) :
    Progress σ ℓ answer α × Hub σ ℓ → Progress σ ℓ answer β × Hub σ ℓ
  | (.ended (some a), h) => run respond me (f a) h
  | (.ended none, h) => (.ended none, h)
  | (.waiting obstacle rest, h) => (.waiting obstacle (rest.bind f), h)

def andLast (last : Program σ ℓ answer Unit) :
    Progress σ ℓ answer α × Hub σ ℓ → Progress σ ℓ answer α × Hub σ ℓ
  | (.ended (some a), h) => run respond me (last.bind fun _ => .done a) h
  | (.ended none, h) => run respond me (last.bind fun _ => .panic) h
  | (.waiting obstacle rest, h) => (.waiting obstacle (rest.andFinally last), h)

def orElse (instead : Program σ ℓ answer α) :
    Progress σ ℓ answer α × Hub σ ℓ → Progress σ ℓ answer α × Hub σ ℓ
  | (.ended (some a), h) => (.ended (some a), h)
  | (.ended none, h) => run respond me instead h
  | (.waiting obstacle rest, h) => (.waiting obstacle (rest.rescue instead), h)

theorem run_bind (f : Program σ ℓ answer α) (g : α → Program σ ℓ answer β) (h : Hub σ ℓ) :
    run respond me (f.bind g) h = andThen respond me g (run respond me f h) := by
  fun_induction run respond me f h <;> simp_all +zetaDelta [Flow.bind, run, andThen]

theorem run_andFinally (f : Program σ ℓ answer α) (last : Program σ ℓ answer Unit) (h : Hub σ ℓ) :
    run respond me (f.andFinally last) h = andLast respond me last (run respond me f h) := by
  fun_induction run respond me f h <;> simp_all +zetaDelta [Flow.andFinally, run, andLast]

theorem run_rescue (f instead : Program σ ℓ answer α) (h : Hub σ ℓ) :
    run respond me (f.rescue instead) h = orElse respond me instead (run respond me f h) := by
  fun_induction run respond me f h <;> simp_all +zetaDelta [Flow.rescue, run, orElse]

end Progress

end GuildBot
