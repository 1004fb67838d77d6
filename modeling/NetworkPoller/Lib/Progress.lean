import NetworkPoller.Lib.Runs
import Mathlib.Algebra.Ring.Nat

/-!
# Progress by a rank

`Within step done mine n s as`: the run of the actions `as` from `s` comes to a state in `done`
before more than `n` actions of one's own (`mine`) have been made. A rank that one's own actions
lower and that the actions of the others do not raise bounds their number, wherever the others'
actions fall in between (`within_of_rank`). Where the rank may rise, what raised it pays for the
actions (`countP_le`).
-/

namespace Progress

open Runs

variable {σ α ε : Type} {step : σ → α → Option σ} {I done : σ → Prop} {rank : σ → Nat}
  {mine : α → Bool}

def Within (step : σ → α → Option σ) (done : σ → Prop) (mine : α → Bool) (n : Nat) (s : σ)
    (as : List α) : Prop :=
  ∃ as₁ as₂ s₁, as = as₁ ++ as₂ ∧ run step s as₁ = some s₁ ∧ done s₁ ∧ as₁.countP mine ≤ n

theorem Within.mono {n m : Nat} {s : σ} {as : List α} (h : Within step done mine n s as) (hn : n ≤ m) :
    Within step done mine m s as := by
  obtain ⟨as₁, as₂, s₁, he, hrun, hd, hc⟩ := h
  exact ⟨as₁, as₂, s₁, he, hrun, hd, Nat.le_trans hc hn⟩

/-- **The rank rule.** -/
theorem within_of_rank (rank : σ → Nat) (hI : ∀ s a s', I s → step s a = some s' → I s')
    (h0 : ∀ s, I s → rank s = 0 → done s)
    (hmine : ∀ s a s', I s → ¬ done s → mine a = true → step s a = some s' → rank s' < rank s)
    (hother : ∀ s a s', I s → ¬ done s → mine a = false → step s a = some s' → rank s' ≤ rank s) :
    ∀ (as : List α) {s s' : σ}, I s → run step s as = some s' → rank s ≤ as.countP mine →
      Within step done mine (rank s) s as := by
  intro as
  induction as with
  | nil =>
    intro s s' hs _ hn
    exact ⟨[], [], s, rfl, rfl, h0 s hs (by simpa using hn), Nat.zero_le _⟩
  | cons a as ih =>
    intro s s' hs hrun hn
    by_cases hd : done s
    · exact ⟨[], a :: as, s, rfl, rfl, hd, Nat.zero_le _⟩
    rw [run, Option.bind_eq_some_iff] at hrun
    obtain ⟨s₁, hs₁, hrun⟩ := hrun
    have hrank : rank s₁ + (if mine a then 1 else 0) ≤ rank s := by
      cases hm : mine a with
      | true => exact hmine s a s₁ hs hd hm hs₁
      | false => exact hother s a s₁ hs hd hm hs₁
    rw [List.countP_cons] at hn
    obtain ⟨as₁, as₂, s₂, rfl, hrun₁, hd₂, hc⟩ := ih (hI s a s₁ hs hs₁) hrun (by omega)
    refine ⟨a :: as₁, as₂, s₂, rfl, by rw [run, hs₁]; exact hrun₁, hd₂, ?_⟩
    rw [List.countP_cons]
    omega

/-- **The accounting rule.** One's own action is paid for by the rank, by what the action brings
(`gain`) or by what it shows (`value`). -/
theorem countP_le (rank : σ → Nat) {report : σ → α → List ε} {value : ε → Nat} {gain : α → Nat}
    (hI : ∀ s a s', I s → step s a = some s' → I s')
    (hstep : ∀ s a s', I s → step s a = some s' →
      rank s' + (if mine a then 1 else 0) ≤ rank s + ((report s a).map value).sum + gain a) :
    ∀ (as : List α) {s s' : σ}, I s → run step s as = some s' →
      as.countP mine ≤ rank s + ((log step report s as).map value).sum + (as.map gain).sum := by
  intro as
  induction as with
  | nil => exact fun _ _ => Nat.zero_le _
  | cons a as ih =>
    intro s s' hs hrun
    rw [run, Option.bind_eq_some_iff] at hrun
    obtain ⟨s₁, hs₁, hrun⟩ := hrun
    have hone := hstep s a s₁ hs hs₁
    have hrest := ih (hI s a s₁ hs hs₁) hrun
    simp only [log, hs₁, List.countP_cons, List.map_cons, List.map_append, List.sum_cons,
      List.sum_append]
    omega

end Progress
