/-!
# Programs that can be suspended

A `Flow` is a program as data: it looks at and changes a state that it shares with others, and it
puts requests to its surroundings. Between a request and its reply others may run; what it does to
the state in one `act` nobody can interrupt.
-/

namespace GuildBot

/-- A program that shares a state `σ` and ends with an `α`, or breaks off in a panic. -/
inductive Flow (σ : Type) {ρ : Type} (reply : ρ → Type) (α : Type) : Type where
  | done (a : α)
  | panic
  /-- Changes the state, and goes on as the state from before the change tells it to. -/
  | act (update : σ → σ) (next : σ → Flow σ reply α)
  | ask (request : ρ) (next : reply request → Flow σ reply α)

namespace Flow

variable {σ ρ : Type} {reply : ρ → Type} {α β : Type}

/-- Goes on with what the first program ends with. A panic ends both. -/
def bind : Flow σ reply α → (α → Flow σ reply β) → Flow σ reply β
  | done a, f => f a
  | panic, _ => panic
  | act update next, f => act update fun s => (next s).bind f
  | ask request next, f => ask request fun x => (next x).bind f

instance : Monad (Flow σ reply) where
  pure := done
  bind := bind

/-- Runs another program in place of a panic. -/
def rescue : Flow σ reply α → Flow σ reply α → Flow σ reply α
  | done a, _ => done a
  | panic, instead => instead
  | act update next, instead => act update fun s => (next s).rescue instead
  | ask request next, instead => ask request fun x => (next x).rescue instead

/-- Runs a last program however the first one ends, also after a panic. -/
def andFinally : Flow σ reply α → Flow σ reply Unit → Flow σ reply α
  | done a, last => last.bind fun _ => done a
  | panic, last => last.bind fun _ => panic
  | act update next, last => act update fun s => (next s).andFinally last
  | ask request next, last => ask request fun x => (next x).andFinally last

def look (view : σ → α) : Flow σ reply α := act id fun s => done (view s)

def change (update : σ → σ) : Flow σ reply Unit := act update fun _ => done ()

/-- Changes the state and gives a result of the state from before, in one piece. -/
def swap (f : σ → α × σ) : Flow σ reply α := act (fun s => (f s).2) fun s => done (f s).1

@[simp] theorem bind_done (f : Flow σ reply α) : f.bind done = f := by
  induction f with
  | done => rfl
  | panic => rfl
  | act update next ih => simp [bind, ih]
  | ask request next ih => simp [bind, ih]

theorem bind_bind {δ : Type} (f : Flow σ reply α) (g : α → Flow σ reply β)
    (h : β → Flow σ reply δ) : (f.bind g).bind h = f.bind fun a => (g a).bind h := by
  induction f with
  | done => rfl
  | panic => rfl
  | act update next ih => simp [bind, ih]
  | ask request next ih => simp [bind, ih]

instance : LawfulMonad (Flow σ reply) := LawfulMonad.mk' _
  (fun f => bind_done f) (fun _ _ => rfl) bind_bind

end Flow

/-- What a program that runs beside others can ask for: a lock and its release, time, a turn for
the others, or a call to the world outside. -/
inductive Request (ℓ γ : Type) where
  | lock (l : ℓ)
  | unlock (l : ℓ)
  | wait (milliseconds : Nat)
  | pause
  | call (c : γ)

/-- A call is answered; anything else is just granted. -/
abbrev Request.Reply (ℓ : Type) {γ : Type} (answer : γ → Type) : Request ℓ γ → Type
  | .call c => answer c
  | _ => Unit

/-- A program that runs beside others, with locks `ℓ` and calls that are answered by `answer`. -/
abbrev Program (σ ℓ : Type) {γ : Type} (answer : γ → Type) (α : Type) : Type :=
  Flow σ (Request.Reply ℓ answer) α

namespace Program

variable {σ ℓ γ : Type} {answer : γ → Type} {α : Type}

def wait (milliseconds : Nat) : Program σ ℓ answer Unit := .ask (.wait milliseconds) .done

/-- Lets the others have a turn. -/
def pause : Program σ ℓ answer Unit := .ask .pause .done

def call (c : γ) : Program σ ℓ answer (answer c) := .ask (.call c) .done

/-- Runs a program while holding a lock, which is given back however the program ends. -/
def holding (l : ℓ) (body : Program σ ℓ answer α) : Program σ ℓ answer α :=
  .ask (.lock l) fun _ => body.andFinally (.ask (.unlock l) .done)

end Program

end GuildBot
