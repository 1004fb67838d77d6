import NetworkPoller.Lib.Runs
import Mathlib.Data.Fintype.Basic
import Mathlib.Data.Set.Basic

/-!
# Linearizability

A sequential object is a relation `apply x op r x'`: in state `x` the operation `op` may return `r`
and leave the object in state `x'`. Threads `ι` call operations and get results; a history is the
list of these calls and returns. It is linearizable when every operation can be given one moment
between its call and its return at which it takes effect, so that the effects are a run of the
sequential object: `Atomic apply x₀ h c` says that the atomic object, where this is literally so,
has the history `h`.

A result that leaves the object as it is (an empty queue seen) often cannot be placed when it is
seen: the call may still go on to another result. `Watched` lets a call return any such result that
was possible at some moment since the call. `Watched.atomic`: its histories are linearizable.
`linearizable_of_sim` is the rule for a concrete system.
-/

namespace Linear

variable {ι σ Op Ret : Type*}

inductive Event (ι Op Ret : Type*)
  | call (i : ι) (op : Op)
  | ret (i : ι) (r : Ret)

/-- Where a thread is: outside, in a call that has not taken effect, or past its effect. -/
inductive Status (Op Ret : Type*)
  | idle
  | called (op : Op)
  | done (r : Ret)

/-- `h` is a history of the atomic object: each call takes effect at once, at some moment before it
returns. -/
inductive Atomic [DecidableEq ι] (apply : σ → Op → Ret → σ → Prop) (x₀ : σ) :
    List (Event ι Op Ret) → σ → (ι → Status Op Ret) → Prop
  | init : Atomic apply x₀ [] x₀ fun _ => .idle
  | call {h x st} (i : ι) (op : Op) : Atomic apply x₀ h x st → st i = .idle →
      Atomic apply x₀ (h ++ [.call i op]) x (Function.update st i (.called op))
  | effect {h x st} {i : ι} {op : Op} {r : Ret} {x' : σ} : Atomic apply x₀ h x st →
      st i = .called op → apply x op r x' → Atomic apply x₀ h x' (Function.update st i (.done r))
  | ret {h x st} {i : ι} {r : Ret} : Atomic apply x₀ h x st → st i = .done r →
      Atomic apply x₀ (h ++ [.ret i r]) x (Function.update st i .idle)

/-- As `Status`; a call carries the results it has seen possible without an effect. -/
inductive Watch (Op Ret : Type*)
  | idle
  | called (op : Op) (seen : Set Ret)
  | done (r : Ret)

section

variable (apply : σ → Op → Ret → σ → Prop)

/-- The results of `op` that leave `x` as it is. -/
def still (x : σ) (op : Op) : Set Ret := {r | apply x op r x}

/-- A thread sees the object in state `x`. -/
def Watch.see (x : σ) : Watch Op Ret → Watch Op Ret
  | .called op seen => .called op (seen ∪ still apply x op)
  | w => w

/-- Histories of the object in which a call may also return a result it has seen. -/
inductive Watched [DecidableEq ι] (x₀ : σ) :
    List (Event ι Op Ret) → σ → (ι → Watch Op Ret) → Prop
  | init : Watched x₀ [] x₀ fun _ => .idle
  | call {h x w} (i : ι) (op : Op) : Watched x₀ h x w → w i = .idle →
      Watched x₀ (h ++ [.call i op]) x (Function.update w i (.called op (still apply x op)))
  | effect {h x w} {i : ι} {op : Op} {seen : Set Ret} {r : Ret} {x' : σ} : Watched x₀ h x w →
      w i = .called op seen → apply x op r x' →
      Watched x₀ h x' (Function.update (fun j => (w j).see apply x') i (.done r))
  | settle {h x w} {i : ι} {op : Op} {seen : Set Ret} {r : Ret} : Watched x₀ h x w →
      w i = .called op seen → r ∈ seen → Watched x₀ h x (Function.update w i (.done r))
  | ret {h x w} {i : ι} {r : Ret} : Watched x₀ h x w → w i = .done r →
      Watched x₀ (h ++ [.ret i r]) x (Function.update w i .idle)

end

variable {apply : σ → Op → Ret → σ → Prop} {x₀ x : σ} {h : List (Event ι Op Ret)}

/-- A thread's status when a call in progress has settled on the result chosen for it, if any. -/
def Watch.choose : Watch Op Ret → Option Ret → Status Op Ret
  | .idle, _ => .idle
  | .called op _, none => .called op
  | .called _ _, some r => .done r
  | .done r, _ => .done r

/-- The chosen result is one that was seen. -/
def Watch.Sees : Watch Op Ret → Option Ret → Prop
  | .called _ seen, some r => r ∈ seen
  | _, some _ => False
  | _, none => True

section

variable [DecidableEq ι] {st : ι → Status Op Ret} {w : ι → Watch Op Ret}

/-- Calls in progress whose results leave the object as it is can all take effect now. -/
theorem Atomic.settle (S : Finset ι) (f : ι → Ret) (ha : Atomic apply x₀ h x st)
    (hS : ∀ j ∈ S, ∃ op, st j = .called op ∧ apply x op (f j) x) :
    Atomic apply x₀ h x fun j => if j ∈ S then .done (f j) else st j := by
  induction S using Finset.induction_on with
  | empty => simpa using ha
  | insert i S hi ih =>
    obtain ⟨op, hop, happ⟩ := hS i (Finset.mem_insert_self i S)
    have h1 := ih fun j hj => hS j (Finset.mem_insert_of_mem hj)
    have h2 := h1.effect (i := i) (by rw [if_neg hi]; exact hop) happ
    convert h2 using 1
    funext j
    by_cases hj : j = i
    · subst hj
      simp
    · rw [Function.update_of_ne hj]
      simp [hj]

/-- Of the other threads the same is chosen. -/
theorem sees_update {i : ι} {v : Watch Op Ret} {ch : ι → Option Ret} {o : Option Ret}
    (hch : ∀ j, (Function.update w i v j).Sees (ch j)) (hi : (w i).Sees o) (j : ι) :
    (w j).Sees (Function.update ch i o j) := by
  by_cases hj : j = i
  · subst hj
    rwa [Function.update_self]
  · have := hch j
    rwa [Function.update_of_ne hj] at this ⊢

theorem choose_update {i : ι} {v : Watch Op Ret} (ch : ι → Option Ret) (o : Option Ret) :
    (fun j => (Function.update w i v j).choose (ch j)) =
      Function.update (fun j => (w j).choose (Function.update ch i o j)) i (v.choose (ch i)) := by
  funext j
  by_cases hj : j = i
  · subst hj
    rw [Function.update_self, Function.update_self]
  · rw [Function.update_of_ne hj, Function.update_of_ne hj, Function.update_of_ne hj]

/-- **What is seen can be placed.** Every choice among the results seen so far is the state of the
atomic object after the same history. -/
theorem Watched.atomic [Fintype ι] (hw : Watched apply x₀ h x w) :
    ∀ ch : ι → Option Ret, (∀ i, (w i).Sees (ch i)) →
      Atomic apply x₀ h x fun i => (w i).choose (ch i) := by
  classical
  induction hw with
  | init => exact fun _ _ => .init
  | @call h x w i op _ hi ih =>
    intro ch hch
    have h1 := ih (Function.update ch i none) (sees_update hch (by rw [hi]; trivial))
    have h2 := h1.call i op (by rw [hi]; rfl)
    rw [choose_update ch none]
    have hsee := hch i
    rw [Function.update_self] at hsee
    cases hr : ch i with
    | none => exact h2
    | some r =>
      -- chosen from what the call finds: it takes effect at once
      rw [hr] at hsee
      have h3 := h2.effect (Function.update_self ..) hsee
      rwa [Function.update_idem] at h3
  | @effect h x w i op seen r x' _ hi happ ih =>
    intro ch hch
    -- the calls whose chosen result is only seen now wait for the effect
    let old : ι → Option Ret := fun j => if j ≠ i ∧ (w j).Sees (ch j) then ch j else none
    have h1 := ih old fun j => by
      by_cases hj : j ≠ i ∧ (w j).Sees (ch j)
      · simp only [old, if_pos hj]
        exact hj.2
      · simp only [old, if_neg hj]
        cases w j <;> trivial
    have hcalled : (w i).choose (old i) = .called op := by simp [old, hi, Watch.choose]
    have h2 := h1.effect hcalled happ
    have hnew : ∀ j, j ≠ i → ¬ (w j).Sees (ch j) → ∃ op' seen' r', w j = .called op' seen' ∧
        ch j = some r' ∧ apply x' op' r' x' := by
      intro j hj hn
      have hs := hch j
      rw [Function.update_of_ne hj] at hs
      cases hwj : w j with
      | idle => rw [hwj] at hs hn; exact absurd hs hn
      | done _ => rw [hwj] at hs hn; exact absurd hs hn
      | called op' seen' =>
        rw [hwj] at hs hn
        cases hr : ch j with
        | none => rw [hr] at hn; exact absurd trivial hn
        | some r' =>
          rw [hr] at hs hn
          exact ⟨op', seen', r', rfl, rfl, hs.resolve_left hn⟩
    have h3 := h2.settle (Finset.univ.filter fun j => j ≠ i ∧ ¬ (w j).Sees (ch j))
      (fun j => (ch j).getD r) fun j hj => by
        obtain ⟨-, hj, hn⟩ := Finset.mem_filter.1 hj
        obtain ⟨op', seen', r', hwj, hr, happ'⟩ := hnew j hj hn
        have hold : old j = none := by simp [old, hn]
        refine ⟨op', ?_, by rwa [hr]⟩
        rw [Function.update_of_ne hj, hold, hwj]
        rfl
    convert h3 using 1
    funext j
    by_cases hj : j = i
    · subst hj
      simp [Watch.choose]
    · rw [Function.update_of_ne hj, Function.update_of_ne hj]
      by_cases hn : (w j).Sees (ch j)
      · have hold : old j = ch j := by simp [old, hj, hn]
        rw [if_neg (by simp [hn]), hold]
        cases w j <;> cases ch j <;> rfl
      · obtain ⟨op', seen', r', hwj, hr, -⟩ := hnew j hj hn
        rw [if_pos (by simp [hj, hn]), hwj, hr]
        rfl
  | @settle h x w i op seen r _ hi hr ih =>
    intro ch hch
    have h1 := ih (Function.update ch i (some r)) (sees_update hch (by rw [hi]; exact hr))
    rw [choose_update ch (some r)]
    convert h1 using 1
    exact Function.update_eq_self_iff.2 (by simp [hi, Watch.choose])
  | @ret h x w i r _ hi ih =>
    intro ch hch
    have h1 := ih (Function.update ch i none) (sees_update hch (by rw [hi]; trivial))
    rw [choose_update ch none]
    exact h1.ret (by rw [hi]; rfl)

end

/-- What a call in progress sees now is among what it has seen. -/
theorem Watched.still_subset [DecidableEq ι] {w : ι → Watch Op Ret} (hw : Watched apply x₀ h x w) :
    ∀ {i op seen}, w i = .called op seen → still apply x op ⊆ seen := by
  induction hw with
  | init => intro i op seen hi; cases hi
  | @call h x w j op' _ hj ih =>
    intro i op seen hi
    by_cases hij : i = j
    · subst hij
      rw [Function.update_self] at hi
      cases hi
      exact subset_rfl
    · rw [Function.update_of_ne hij] at hi
      exact ih hi
  | @effect h x w j op' seen' r x' _ hj _ ih =>
    intro i op seen hi
    by_cases hij : i = j
    · subst hij
      rw [Function.update_self] at hi
      cases hi
    · rw [Function.update_of_ne hij] at hi
      cases hwi : w i with
      | called op₁ seen₁ =>
        rw [hwi] at hi
        cases hi
        exact Set.subset_union_right
      | idle => rw [hwi] at hi; cases hi
      | done _ => rw [hwi] at hi; cases hi
  | @settle h x w j op' seen' r _ hj _ ih =>
    intro i op seen hi
    by_cases hij : i = j
    · subst hij
      rw [Function.update_self] at hi
      cases hi
    · rw [Function.update_of_ne hij] at hi
      exact ih hi
  | @ret h x w j r _ hj ih =>
    intro i op seen hi
    by_cases hij : i = j
    · subst hij
      rw [Function.update_self] at hi
      cases hi
    · rw [Function.update_of_ne hij] at hi
      exact ih hi

/-- **The simulation rule.** A system whose steps report calls and returns, and whose states are
related to states of the watched object so that a step is matched by steps of the object with the
same calls and returns, has linearizable histories only; the object ends up in a state related to
that of the system. -/
theorem linearizable_of_sim {τ α : Type*} [DecidableEq ι] [Fintype ι] {step : τ → α → Option τ}
    {P : τ → α → Prop} {report : τ → α → List (Event ι Op Ret)} {s₀ : τ}
    (R : τ → σ → (ι → Watch Op Ret) → Prop) (h0 : R s₀ x₀ fun _ => .idle)
    (hs : ∀ s a s' h x w, Watched apply x₀ h x w → R s x w → P s a → step s a = some s' →
      ∃ x' w', Watched apply x₀ (h ++ report s a) x' w' ∧ R s' x' w')
    {L : List (Event ι Op Ret)} {s : τ} (hL : Runs.Logged step P report s₀ L s) :
    ∃ x w, R s x w ∧ Atomic apply x₀ L x fun i => (w i).choose none := by
  have hinv : ∃ x w, Watched apply x₀ L x w ∧ R s x w := by
    refine Runs.Logged.inv (I := fun L s => ∃ x w, Watched apply x₀ L x w ∧ R s x w)
      ⟨_, _, .init, h0⟩ ?_ hL
    rintro L s a s' - ⟨x, w, hw, hR⟩ hp ha
    exact hs s a s' L x w hw hR hp ha
  obtain ⟨x, w, hw, hR⟩ := hinv
  exact ⟨x, w, hR, hw.atomic (fun _ => none) fun i => by cases w i <;> trivial⟩

end Linear
