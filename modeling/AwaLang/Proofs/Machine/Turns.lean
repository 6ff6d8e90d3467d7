import AwaLang.Proofs.Machine.Exchanges

namespace AwaLang

def Turn.stop {σ : Type} (spare : Nat) (machine : Machine) (host : σ) : Turn σ → Program.Stop σ
  | ended => ⟨.ended, machine.abyss, machine.calls, Program.limit - 1 - spare, host⟩
  | failed failure left host =>
    ⟨.failed failure, left.abyss, left.calls, Program.limit - 1 - spare, host⟩
  | waiting calls host =>
    ⟨.waiting machine spare, machine.abyss, calls, Program.limit - 1 - spare, host⟩
  | done calls next host =>
    ⟨.failed (calls.failure (.limitExceeded Program.limit)), next.abyss, calls, Program.limit, host⟩

@[simp] theorem Turn.host_stop {σ : Type} (spare : Nat) (machine : Machine) (host : σ)
    (turn : Turn σ) : (turn.stop spare machine host).host = turn.host host := by
  cases turn <;> rfl

variable {σ : Type} [Host σ]

namespace Program

variable {program : Program} {spare : Nat} {machine next : Machine} {calls : CallStack}
  {host after : σ}
  {turn : Turn σ}

theorem trail_of_stops (taken : program.turn machine host = turn)
    (stops : ∀ calls next after, turn ≠ .done calls next after) (spare : Nat) :
    program.trail spare machine host = [machine] := by
  rw [trail.eq_def, taken]
  cases turn with
  | ended | failed | waiting => rfl
  | done calls next after => exact absurd rfl (stops calls next after)

theorem trail_zero (program : Program) (machine : Machine) (host : σ) :
    program.trail 0 machine host = [machine] := by
  rw [trail]
  split <;> rfl

theorem trail_of_done (done : program.turn machine host = .done calls next after) (spare : Nat) :
    program.trail (spare + 1) machine host = machine :: program.trail spare next after := by
  rw [trail, done]

theorem execute_of_done (done : program.turn machine host = .done calls next after)
    (spare : Nat) :
    program.execute (spare + 1) machine host = program.execute spare next after := by
  rw [execute, done]

theorem spare_eq_zero_of_last (last : program.trail spare machine host = [machine])
    (done : program.turn machine host = .done calls next after) : spare = 0 := by
  cases spare with
  | zero => rfl
  | succ spare =>
    rw [trail_of_done done, trail.eq_def] at last
    exact absurd (List.cons.inj last).2 (List.cons_ne_nil _ _)

theorem execute_of_last (last : program.trail spare machine host = [machine]) :
    program.execute spare machine host = (program.turn machine host).stop spare machine host := by
  rw [execute.eq_def]
  cases taken : program.turn machine host with
  | ended | failed | waiting => rfl
  | done calls next after =>
    obtain rfl := spare_eq_zero_of_last last taken
    rfl

theorem turns_induction (σ : Type) [Host σ] (program : Program) {motive : Nat → Machine → σ → Prop}
    (last : ∀ spare machine host, program.trail spare machine host = [machine] →
      motive spare machine host)
    (more : ∀ spare machine host calls next after,
      program.turn machine host = .done calls next after → motive spare next after →
      motive (spare + 1) machine host)
    (spare : Nat) (machine : Machine) (host : σ) : motive spare machine host := by
  induction spare generalizing machine host with
  | zero => exact last 0 machine host (trail_zero program machine host)
  | succ spare ih =>
    cases taken : program.turn machine host with
    | ended | failed | waiting =>
      exact last (spare + 1) machine host (trail_of_stops taken nofun (spare + 1))
    | done calls next after => exact more spare machine host calls next after taken (ih next after)

end Program

end AwaLang
