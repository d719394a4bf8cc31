import Mathlib.Data.List.Basic

/-! # Computations that may fail

What holds of every way a computation in `Except` ends, and the rules of a loop that runs one until
it is done. -/

namespace PngDecode.Lib
variable {ε δ α β : Type}

@[simp] theorem ok_bind (a : α) (f : α → Except ε β) : (.ok a >>= f) = f a := rfl

@[simp] theorem error_bind (e : ε) (f : α → Except ε β) : (.error e >>= f) = .error e := rfl

theorem bind_ok {x : Except ε α} {f : α → Except ε β} {b : β} (result : (x >>= f) = .ok b) :
    ∃ a, x = .ok a ∧ f a = .ok b := by
  cases x with
  | ok a => exact ⟨a, rfl, result⟩
  | error e => cases result

/-- A result satisfies `Q` and a failure satisfies `E`. -/
def Ends (x : Except ε α) (Q : α → Prop) (E : ε → Prop) : Prop :=
  match x with
  | .ok a => Q a
  | .error e => E e

namespace Ends
variable {x : Except ε α} {f : α → Except ε β} {Q R : α → Prop} {S : β → Prop} {E F : ε → Prop}

theorem mono (ends : Ends x Q E) (result : ∀ a, Q a → R a) (failure : ∀ e, E e → F e) :
    Ends x R F := by
  cases x with
  | ok a => exact result a ends
  | error e => exact failure e ends

theorem bind (first : Ends x Q E) (next : ∀ a, Q a → Ends (f a) S E) : Ends (x >>= f) S E := by
  cases x with
  | ok a => exact next a first
  | error e => exact first

theorem result {a : α} (ends : Ends x Q E) (done : x = .ok a) : Q a := by
  subst done; exact ends

theorem failure {e : ε} (ends : Ends x Q E) (failed : x = .error e) : E e := by
  subst failed; exact ends

end Ends

/-! ## Loops -/

/-- `while (!done) body`, for at most `fuel` rounds. -/
def iterate (done : α → Bool) (body : α → Except ε α) (outOfFuel : α → ε) :
    Nat → α → Except ε α
  | 0, a => if done a then .ok a else .error (outOfFuel a)
  | fuel + 1, a => if done a then .ok a else body a >>= iterate done body outOfFuel fuel

section Iterate
variable {done : α → Bool} {body : α → Except ε α} {outOfFuel : α → ε}

theorem iterate_done {a : α} (now : done a = true) (fuel : Nat) :
    iterate done body outOfFuel fuel a = .ok a := by
  cases fuel <;> simp [iterate, now]

theorem iterate_succ {a : α} (more : done a = false) (fuel : Nat) :
    iterate done body outOfFuel (fuel + 1) a = body a >>= iterate done body outOfFuel fuel := by
  simp [iterate, more]

/-- A loop keeps what its body keeps, and ends before a measure that goes down reaches zero. -/
theorem iterate_ends {I : α → Prop} {E : ε → Prop} (measure : α → Nat)
    (step : ∀ a, I a → done a = false → Ends (body a) (fun b => I b ∧ measure b < measure a) E)
    (positive : ∀ a, I a → done a = false → 0 < measure a)
    (fuel : Nat) (a : α) (start : I a) (enough : measure a ≤ fuel) :
    Ends (iterate done body outOfFuel fuel a) (fun b => I b ∧ done b = true) E := by
  induction fuel generalizing a with
  | zero =>
    have now : done a = true := by
      by_contra more
      have := positive a start (by simpa using more)
      omega
    rw [iterate_done now]
    exact ⟨start, now⟩
  | succ fuel ih =>
    by_cases now : done a = true
    · rw [iterate_done now]
      exact ⟨start, now⟩
    · have more : done a = false := by simpa using now
      rw [iterate_succ more]
      exact (step a start more).bind fun b holds => ih b holds.1 (by omega)

/-- A loop that takes every step another one takes ends where the other does. -/
theorem iterate_simulates {done' : β → Bool} {body' : β → Except δ β} {outOfFuel' : β → δ}
    {R : α → β → Prop} (same : ∀ a b, R a b → done' b = done a)
    (step : ∀ a b c, R a b → done a = false → body a = .ok c → ∃ d, body' b = .ok d ∧ R c d)
    {fuel : Nat} {a c : α} {b : β} (start : R a b)
    (result : iterate done body outOfFuel fuel a = .ok c) :
    ∃ d, iterate done' body' outOfFuel' fuel b = .ok d ∧ R c d := by
  induction fuel generalizing a b with
  | zero =>
    unfold iterate at result
    split at result
    · next now =>
      cases result
      exact ⟨_, iterate_done ((same _ _ start).trans now) 0, start⟩
    · cases result
  | succ fuel ih =>
    unfold iterate at result
    split at result
    · next now =>
      cases result
      exact ⟨_, iterate_done ((same _ _ start).trans now) _, start⟩
    · next more =>
      have more : done _ = false := (Bool.not_eq_true _).mp more
      obtain ⟨a', eq, result⟩ := bind_ok result
      obtain ⟨b', eq', related⟩ := step _ _ a' start more eq
      rw [iterate_succ ((same _ _ start).trans more), eq', ok_bind]
      exact ih related result

inductive Reaches (done : α → Bool) (body : α → Except ε α) : α → α → Prop where
  | refl (a : α) : Reaches done body a a
  | step {a b c : α} : done a = false → body a = .ok b → Reaches done body b c →
      Reaches done body a c

theorem Reaches.snoc {a b c : α} (before : Reaches done body a b) (more : done b = false)
    (step : body b = .ok c) : Reaches done body a c := by
  induction before with
  | refl => exact .step more step (.refl _)
  | step first eq _ ih => exact .step first eq (ih more step)

theorem Reaches.invariant {I : α → Prop}
    (preserves : ∀ a b, I a → done a = false → body a = .ok b → I b)
    {a b : α} (reaches : Reaches done body a b) (start : I a) : I b := by
  induction reaches with
  | refl => exact start
  | step more eq _ ih => exact ih (preserves _ _ start more eq)

theorem iterate_reaches {fuel : Nat} {a b : α}
    (result : iterate done body outOfFuel fuel a = .ok b) :
    Reaches done body a b ∧ done b = true := by
  induction fuel generalizing a with
  | zero =>
    unfold iterate at result
    split at result
    · next now => cases result; exact ⟨.refl _, now⟩
    · cases result
  | succ fuel ih =>
    unfold iterate at result
    split at result
    · next now => cases result; exact ⟨.refl _, now⟩
    · next more =>
      cases eq : body a with
      | error e => rw [eq] at result; cases result
      | ok c =>
        rw [eq] at result
        obtain ⟨reaches, now⟩ := ih result
        exact ⟨.step (by simpa using more) eq reaches, now⟩

theorem Reaches.iterate_eq {a b : α} (reaches : Reaches done body a b) {fuel : Nat}
    (enough : ∀ c, iterate done body outOfFuel fuel a ≠ .error (outOfFuel c)) :
    ∃ fuel', iterate done body outOfFuel fuel a = iterate done body outOfFuel fuel' b := by
  induction reaches generalizing fuel with
  | refl => exact ⟨fuel, rfl⟩
  | @step a b c more eq _ ih =>
    cases fuel with
    | zero => exact absurd (by simp [iterate, more]) (enough a)
    | succ fuel =>
      rw [iterate_succ more, eq, ok_bind] at enough ⊢
      exact ih enough

theorem Reaches.iterate_ok {a b : α} (reaches : Reaches done body a b) (now : done b = true)
    {fuel : Nat} (enough : ∀ c, iterate done body outOfFuel fuel a ≠ .error (outOfFuel c)) :
    iterate done body outOfFuel fuel a = .ok b := by
  obtain ⟨fuel', eq⟩ := reaches.iterate_eq enough
  rw [eq, iterate_done now]

theorem Reaches.iterate_error {a b : α} {e : ε} (reaches : Reaches done body a b)
    (more : done b = false) (failed : body b = .error e) {fuel : Nat}
    (enough : ∀ c, iterate done body outOfFuel fuel a ≠ .error (outOfFuel c)) :
    iterate done body outOfFuel fuel a = .error e := by
  obtain ⟨fuel', eq⟩ := reaches.iterate_eq enough
  cases fuel' with
  | zero => exact absurd (by simp [eq, iterate, more]) (enough b)
  | succ fuel' => rw [eq, iterate_succ more, failed, error_bind]

theorem iterate_failure {fuel : Nat} {a : α} {e : ε}
    (failed : iterate done body outOfFuel fuel a = .error e) :
    ∃ b, Reaches done body a b ∧ done b = false ∧ (body b = .error e ∨ e = outOfFuel b) := by
  induction fuel generalizing a with
  | zero =>
    unfold iterate at failed
    split at failed
    · cases failed
    · next more => cases failed; exact ⟨a, .refl a, by simpa using more, .inr rfl⟩
  | succ fuel ih =>
    unfold iterate at failed
    split at failed
    · cases failed
    · next more =>
      have more : done a = false := by simpa using more
      cases eq : body a with
      | error d =>
        rw [eq] at failed
        cases failed
        exact ⟨a, .refl a, more, .inl eq⟩
      | ok c =>
        rw [eq] at failed
        obtain ⟨b, reaches, rest⟩ := ih failed
        exact ⟨b, .step more eq reaches, rest⟩

end Iterate
end PngDecode.Lib
