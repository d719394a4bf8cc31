import Mathlib.Data.List.Basic

/-! # Labelled transition systems

Runs are kept with their labels, so that an invariant may speak about the history of a run. -/

namespace PngDecode.Lib

structure Lts (σ α : Type*) where
  init : σ → Prop
  step : σ → α → σ → Prop

namespace Lts
variable {σ α : Type*} {M : Lts σ α}

inductive Exec (M : Lts σ α) : σ → List α → σ → Prop where
  | nil (s : σ) : Exec M s [] s
  | snoc {s t u : σ} {w : List α} {a : α} : Exec M s w t → M.step t a u → Exec M s (w ++ [a]) u

def Run (M : Lts σ α) (w : List α) (t : σ) : Prop := ∃ s, M.init s ∧ M.Exec s w t

theorem Run.nil {s : σ} (initial : M.init s) : M.Run [] s := ⟨s, initial, .nil s⟩

theorem Run.snoc {w : List α} {t u : σ} {a : α} (run : M.Run w t) (step : M.step t a u) :
    M.Run (w ++ [a]) u := by
  obtain ⟨s, initial, exec⟩ := run
  exact ⟨s, initial, exec.snoc step⟩

theorem Exec.trans {s t u : σ} {w v : List α} (first : M.Exec s w t) (second : M.Exec t v u) :
    M.Exec s (w ++ v) u := by
  induction second with
  | nil => simpa using first
  | snoc _ step ih => simpa only [List.append_assoc] using ih.snoc step

theorem Run.trans {t u : σ} {w v : List α} (run : M.Run w t) (exec : M.Exec t v u) :
    M.Run (w ++ v) u := by
  obtain ⟨s, initial, first⟩ := run
  exact ⟨s, initial, first.trans exec⟩

theorem Run.invariant {I : List α → σ → Prop} (initial : ∀ s, M.init s → I [] s)
    (preserves : ∀ w t a u, I w t → M.step t a u → I (w ++ [a]) u)
    {w : List α} {t : σ} (run : M.Run w t) : I w t := by
  obtain ⟨s, start, exec⟩ := run
  induction exec with
  | nil => exact initial _ start
  | snoc _ step ih => exact preserves _ _ _ _ ih step

/-- A fact about histories that stays true once it holds, along the rest of a run. -/
theorem Exec.stable {I : List α → σ → Prop} {h : List α}
    (preserves : ∀ w t a u, I w t → M.step t a u → I (w ++ [a]) u)
    {s t : σ} {w : List α} (exec : M.Exec s w t) (now : I h s) : I (h ++ w) t := by
  induction exec with
  | nil => simpa using now
  | snoc _ step ih => simpa only [List.append_assoc] using preserves _ _ _ _ ih step

end Lts
end PngDecode.Lib
