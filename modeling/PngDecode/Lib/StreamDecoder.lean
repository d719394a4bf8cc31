import Mathlib.Data.List.Basic

/-! # Streaming decoders

A decoder that takes its input and gives its output one byte at a time, and the call that runs it
on whatever input and output space there is. -/

namespace PngDecode.Lib

inductive Micro (σ : Type*) where
  | need (next : UInt8 → σ)
  | put (b : UInt8) (next : σ)
  | copy (next : UInt8 → σ)
  | stop
  | bad (code : Int)

structure StreamDecoder where
  State : Type
  init : State
  step : State → Micro State

namespace StreamDecoder

inductive Ret where
  | ok
  | streamEnd
  | error (code : Int)
deriving DecidableEq, Repr

structure Call (σ : Type) where
  state : σ
  rest : List UInt8
  out : List UInt8
  ret : Ret

def Call.emit {σ : Type} (b : UInt8) (c : Call σ) : Call σ := { c with out := b :: c.out }

variable (D : StreamDecoder)

def runFuel : Nat → D.State → List UInt8 → Nat → Call D.State
  | 0, s, inp, _ => ⟨s, inp, [], .ok⟩
  | fuel + 1, s, inp, room =>
    match D.step s, inp, room with
    | .need next, b :: inp, room => runFuel fuel (next b) inp room
    | .put b next, inp, room + 1 => (runFuel fuel next inp room).emit b
    | .copy next, b :: inp, room + 1 => (runFuel fuel (next b) inp room).emit b
    | .stop, inp, _ => ⟨s, inp, [], .streamEnd⟩
    | .bad code, inp, _ => ⟨s, inp, [], .error code⟩
    | _, inp, _ => ⟨s, inp, [], .ok⟩

/-- Every step takes a byte of input or of room, so this many are enough. -/
def run (s : D.State) (inp : List UInt8) (room : Nat) : Call D.State :=
  D.runFuel (inp.length + room + 1) s inp room

/-! ## How a call runs -/

def wantsInput {σ : Type} : Micro σ → Bool
  | .need _ | .copy _ => true
  | _ => false

def wantsRoom {σ : Type} : Micro σ → Bool
  | .put _ _ | .copy _ => true
  | _ => false

inductive Runs : D.State → List UInt8 → Nat → Call D.State → Prop where
  | need {s next b inp room c} : D.step s = .need next → Runs (next b) inp room c →
      Runs s (b :: inp) room c
  | put {s b next inp room c} : D.step s = .put b next → Runs next inp room c →
      Runs s inp (room + 1) (c.emit b)
  | copy {s next b inp room c} : D.step s = .copy next → Runs (next b) inp room c →
      Runs s (b :: inp) (room + 1) (c.emit b)
  | stop {s inp room} : D.step s = .stop → Runs s inp room ⟨s, inp, [], .streamEnd⟩
  | bad {s code inp room} : D.step s = .bad code → Runs s inp room ⟨s, inp, [], .error code⟩
  | starved {s room} : wantsInput (D.step s) = true → Runs s [] room ⟨s, [], [], .ok⟩
  | full {s inp} : wantsRoom (D.step s) = true → Runs s inp 0 ⟨s, inp, [], .ok⟩

variable {D} {s : D.State} {inp a b : List UInt8} {room m n : Nat} {c d : Call D.State}

theorem runFuel_runs {fuel : Nat} (enough : inp.length + room < fuel) :
    Runs D s inp room (D.runFuel fuel s inp room) := by
  induction fuel generalizing s inp room with
  | zero => omega
  | succ fuel ih =>
    cases step : D.step s with
    | need next =>
      cases inp with
      | nil => simpa [runFuel, step] using .starved (by rw [step]; rfl)
      | cons b inp =>
        rw [List.length_cons] at enough
        simpa [runFuel, step] using .need step (ih (by omega))
    | put b next =>
      cases room with
      | zero => simpa [runFuel, step] using .full (by rw [step]; rfl)
      | succ room => simpa [runFuel, step] using .put step (ih (by omega))
    | copy next =>
      cases inp with
      | nil => simpa [runFuel, step] using .starved (by rw [step]; rfl)
      | cons b inp =>
        rw [List.length_cons] at enough
        cases room with
        | zero => simpa [runFuel, step] using .full (by rw [step]; rfl)
        | succ room => simpa [runFuel, step] using .copy step (ih (by omega))
    | stop => simpa [runFuel, step] using .stop step
    | bad code => simpa [runFuel, step] using .bad step

theorem Runs.unique (first : Runs D s inp room c) (second : Runs D s inp room d) : c = d := by
  induction first generalizing d with
  | need step _ ih =>
    cases second with
    | need step' rest => cases step.symm.trans step'; exact ih rest
    | copy step' _ | put step' _ | stop step' | bad step' => cases step.symm.trans step'
    | full wants => rw [step] at wants; cases wants
  | put step _ ih =>
    cases second with
    | put step' rest => cases step.symm.trans step'; rw [ih rest]
    | copy step' _ | need step' _ | stop step' | bad step' => cases step.symm.trans step'
    | starved wants => rw [step] at wants; cases wants
  | copy step _ ih =>
    cases second with
    | copy step' rest => cases step.symm.trans step'; rw [ih rest]
    | need step' _ | put step' _ | stop step' | bad step' => cases step.symm.trans step'
  | stop step =>
    cases second with
    | stop step' => rfl
    | copy step' _ | need step' _ | put step' _ | bad step' => cases step.symm.trans step'
    | starved wants | full wants => rw [step] at wants; cases wants
  | bad step =>
    cases second with
    | bad step' => cases step.symm.trans step'; rfl
    | copy step' _ | need step' _ | put step' _ | stop step' => cases step.symm.trans step'
    | starved wants | full wants => rw [step] at wants; cases wants
  | starved wants =>
    cases second with
    | starved _ | full _ => rfl
    | put step' _ | stop step' | bad step' => rw [step'] at wants; cases wants
  | full wants =>
    cases second with
    | starved _ | full _ => rfl
    | need step' _ | stop step' | bad step' => rw [step'] at wants; cases wants

theorem run_runs (s : D.State) (inp : List UInt8) (room : Nat) :
    Runs D s inp room (D.run s inp room) :=
  runFuel_runs (by omega)

theorem Runs.run_eq (runs : Runs D s inp room c) : D.run s inp room = c :=
  (run_runs s inp room).unique runs

/-! ## What a call leaves -/

theorem Runs.out_le (runs : Runs D s inp room c) : c.out.length ≤ room := by
  induction runs with
  | need _ _ ih => exact ih
  | put _ _ ih | copy _ _ ih => exact Nat.succ_le_succ ih
  | stop _ | bad _ | starved _ | full _ => exact Nat.zero_le _

theorem Runs.blocked (runs : Runs D s inp room c) (going : c.ret = .ok) :
    c.rest = [] ∧ wantsInput (D.step c.state) = true ∨
      c.out.length = room ∧ wantsRoom (D.step c.state) = true := by
  induction runs with
  | need _ _ ih => exact ih going
  | put _ _ ih | copy _ _ ih =>
    rcases ih going with starved | ⟨full, wants⟩
    · exact .inl starved
    · exact .inr ⟨congrArg (· + 1) full, wants⟩
  | stop _ | bad _ => cases going
  | starved wants => exact .inl ⟨rfl, wants⟩
  | full wants => exact .inr ⟨rfl, wants⟩

/-- More input changes nothing for a call that did not stop for want of it. -/
theorem Runs.more_input (runs : Runs D s a m c) (stopped : c.rest ≠ [] ∨ c.ret ≠ .ok)
    (b : List UInt8) : Runs D s (a ++ b) m { c with rest := c.rest ++ b } := by
  induction runs with
  | need step _ ih => exact .need step (ih stopped)
  | put step _ ih => exact .put step (ih stopped)
  | copy step _ ih => exact .copy step (ih stopped)
  | stop step => exact .stop step
  | bad step => exact .bad step
  | starved wants => simp at stopped
  | full wants => exact .full wants

theorem Runs.more_room (runs : Runs D s a m c) (stopped : c.out.length < m ∨ c.ret ≠ .ok)
    (n : Nat) : Runs D s a (m + n) c := by
  induction runs with
  | need step _ ih => exact .need step (ih stopped)
  | @put s b next inp room c step _ ih =>
    rw [Nat.succ_add]
    exact .put step (ih (stopped.imp_left Nat.lt_of_succ_lt_succ))
  | @copy s next b inp room c step _ ih =>
    rw [Nat.succ_add]
    exact .copy step (ih (stopped.imp_left Nat.lt_of_succ_lt_succ))
  | stop step => exact .stop step
  | bad step => exact .bad step
  | starved wants => exact .starved wants
  | full wants => simp at stopped

/-- Two calls one after the other are one call on their input and their room together. -/
theorem Runs.resume (first : Runs D s a m c) (going : c.ret = .ok)
    (second : Runs D c.state (c.rest ++ b) (m - c.out.length + n) d) :
    Runs D s (a ++ b) (m + n) { d with out := c.out ++ d.out } := by
  induction first with
  | need step _ ih => exact .need step (ih going second)
  | @put s byte next inp room c step _ ih =>
    rw [Nat.succ_add]
    exact .put step (ih going (by simpa [Call.emit] using second))
  | @copy s next byte inp room c step _ ih =>
    rw [Nat.succ_add]
    exact .copy step (ih going (by simpa [Call.emit] using second))
  | stop _ | bad _ => cases going
  | starved _ => simpa using second
  | full _ => simpa using second

theorem Runs.taken (runs : Runs D s inp room c) (going : c.ret = .ok) :
    ∃ taken, inp = taken ++ c.rest ∧ Runs D s taken room { c with rest := [] } := by
  induction runs with
  | need step _ ih =>
    obtain ⟨taken, rfl, runs⟩ := ih going
    exact ⟨_ :: taken, rfl, .need step runs⟩
  | put step _ ih =>
    obtain ⟨taken, rfl, runs⟩ := ih going
    exact ⟨taken, rfl, .put step runs⟩
  | copy step _ ih =>
    obtain ⟨taken, rfl, runs⟩ := ih going
    exact ⟨_ :: taken, rfl, .copy step runs⟩
  | stop _ | bad _ => cases going
  | starved wants => exact ⟨[], rfl, .starved wants⟩
  | full wants => exact ⟨[], rfl, .full wants⟩

/-! ## Calls on more input and room -/

def Call.behind {σ : Type} (out : List UInt8) (c : Call σ) : Call σ := { c with out := out ++ c.out }

theorem run_taken {s : D.State} {a : List UInt8} {m : Nat} (going : (D.run s a m).ret = .ok) :
    ∃ taken, a = taken ++ (D.run s a m).rest ∧ ∀ b n, D.run s (taken ++ b) (m + n) =
      (D.run (D.run s a m).state b (m - (D.run s a m).out.length + n)).behind
        (D.run s a m).out := by
  obtain ⟨taken, eq, runs⟩ := (run_runs s a m).taken going
  exact ⟨taken, eq, fun b n => (runs.resume going (run_runs ..)).run_eq⟩

theorem run_stopped {s : D.State} {a : List UInt8} {m : Nat} (stopped : (D.run s a m).ret ≠ .ok)
    (b : List UInt8) (n : Nat) :
    D.run s (a ++ b) (m + n) = { D.run s a m with rest := (D.run s a m).rest ++ b } :=
  (((run_runs s a m).more_room (.inr stopped) n).more_input (.inr stopped) b).run_eq

end StreamDecoder
end PngDecode.Lib
