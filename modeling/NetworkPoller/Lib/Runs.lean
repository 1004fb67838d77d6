import Mathlib.Data.Option.Basic

/-!
# Runs of a labelled step function

A system is a partial step function `step : σ → α → Option σ`: `step s a` is the state after
action `a`, `none` when `a` is not enabled in `s`. `Reach step P s₀ s`: `s` is reached from `s₀`
by actions that each satisfy `P` in the state they are taken in; `P` carries the assumptions on
the environment and the conditions under which a property is claimed.

* `Reach.inv`: the invariant rule (holds initially, kept by every admitted step).
* `run`, `Admits`: a run and its check as programs; `Reach.of_run` turns a run that evaluates into
  a `Reach`.
* `Logged`: the same with what the steps report, `log` as a program.
* `Sim.run`: a forward simulation matches the runs of one system by runs of another.
-/

namespace Runs

universe u v w

variable {σ : Type u} {α : Type v}

/-- `s` is reached from `s₀` by enabled actions satisfying `P`. -/
inductive Reach (step : σ → α → Option σ) (P : σ → α → Prop) (s₀ : σ) : σ → Prop
  | init : Reach step P s₀ s₀
  | snoc {s s' : σ} {a : α} : Reach step P s₀ s → P s a → step s a = some s' →
      Reach step P s₀ s'

/-- The state after a list of actions. -/
def run (step : σ → α → Option σ) : σ → List α → Option σ
  | s, [] => some s
  | s, a :: as => (step s a).bind fun s' => run step s' as

theorem run_append (step : σ → α → Option σ) : ∀ (s : σ) (as bs : List α),
    run step s (as ++ bs) = (run step s as).bind fun s' => run step s' bs
  | _, [], _ => rfl
  | s, a :: as, bs => by
    simp only [List.cons_append, run, Option.bind_assoc, run_append step _ as bs]

/-- A system whose actions are enabled wherever `I` holds runs every list of them. -/
theorem run_total {step : σ → α → Option σ} {I : σ → Prop}
    (hs : ∀ s a, I s → ∃ s', step s a = some s' ∧ I s') :
    ∀ (as : List α) {s : σ}, I s → ∃ s', run step s as = some s' ∧ I s'
  | [], s, h => ⟨s, rfl, h⟩
  | a :: as, s, h => by
    obtain ⟨s₁, h1, hi⟩ := hs s a h
    obtain ⟨s', h2, hi'⟩ := run_total hs as hi
    exact ⟨s', by simp only [run, h1, Option.bind_some, h2], hi'⟩

/-- Every action of the list satisfies `P` in the state it is taken in. -/
def Admits (step : σ → α → Option σ) (P : σ → α → Prop) : σ → List α → Prop
  | _, [] => True
  | s, a :: as => P s a ∧ match step s a with
    | some s' => Admits step P s' as
    | none => True

instance decAdmits (step : σ → α → Option σ) (P : σ → α → Prop) [∀ s a, Decidable (P s a)] :
    ∀ s as, Decidable (Admits step P s as)
  | _, [] => isTrue trivial
  | s, a :: as =>
    have : Decidable (match step s a with
        | some s' => Admits step P s' as
        | none => True) :=
      match step s a with
      | some s' => decAdmits step P s' as
      | none => isTrue trivial
    inferInstanceAs (Decidable (P s a ∧ _))

/-- Where every action is admitted, every run is. -/
theorem admits_of_forall {step : σ → α → Option σ} {P : σ → α → Prop} (h : ∀ s a, P s a) :
    ∀ (as : List α) (s : σ), Admits step P s as
  | [], _ => trivial
  | a :: as, s => by
    refine ⟨h s a, ?_⟩
    split
    · exact admits_of_forall h as _
    · trivial

namespace Reach

variable {step : σ → α → Option σ} {P Q : σ → α → Prop} {s₀ s : σ}

/-- **The invariant rule.** A step may use that its source is reached. -/
theorem inv {I : σ → Prop} (h0 : I s₀)
    (hs : ∀ s a s', Reach step P s₀ s → I s → P s a → step s a = some s' → I s')
    (h : Reach step P s₀ s) : I s := by
  induction h with
  | init => exact h0
  | snoc hr hp ha ih => exact hs _ _ _ hr ih hp ha

theorem mono (hPQ : ∀ s a, Reach step P s₀ s → P s a → Q s a) (h : Reach step P s₀ s) :
    Reach step Q s₀ s := by
  induction h with
  | init => exact .init
  | snoc hr hp ha ih => exact .snoc ih (hPQ _ _ hr hp) ha

theorem trans {s₁ s₂ : σ} (h₁ : Reach step P s₀ s₁) (h₂ : Reach step P s₁ s₂) :
    Reach step P s₀ s₂ := by
  induction h₂ with
  | init => exact h₁
  | snoc _ hp ha ih => exact .snoc ih hp ha

/-- One run after another, whatever they admit. -/
theorem join {s₁ s₂ : σ} (h₁ : Reach step P s₀ s₁) (h₂ : Reach step Q s₁ s₂) :
    Reach step (fun _ _ => True) s₀ s₂ :=
  (h₁.mono fun _ _ _ _ => trivial).trans (h₂.mono fun _ _ _ _ => trivial)

/-- A run whose actions are admitted. -/
theorem of_run : ∀ (as : List α) {s₀ s : σ}, run step s₀ as = some s → Admits step P s₀ as →
    Reach step P s₀ s
  | [], _, _, h, _ => by cases h; exact .init
  | a :: as, s₀, s, h, hadm => by
    simp only [run, Option.bind_eq_some_iff] at h
    obtain ⟨s₁, h1, h2⟩ := h
    simp only [Admits, h1] at hadm
    exact (snoc .init hadm.1 h1).trans (of_run as h2 hadm.2)

/-- A run that evaluates, with what is seen (`f`) of its last state. -/
theorem of_map {β : Type w} (f : σ → β) {b : β} {as : List α}
    (h : (run step s₀ as).map f = some b) (hadm : Admits step P s₀ as) :
    ∃ s, run step s₀ as = some s ∧ f s = b ∧ Reach step P s₀ s := by
  obtain ⟨s, hs, hb⟩ := Option.map_eq_some_iff.1 h
  exact ⟨s, hs, hb, of_run as hs hadm⟩

variable (step s₀) in
/-- Two runs in a row that evaluate, with what is seen of their last states. -/
theorem of_runs {β : Type w} [∀ s a, Decidable (Q s a)] (as bs : List α) (f : σ → σ → β) {b : β}
    (h : ((run step s₀ as).bind fun s => (run step s bs).map fun s' =>
      (f s s', decide (Admits step Q s bs))) = some (b, true)) (hadm : Admits step P s₀ as) :
    ∃ s s', run step s₀ as = some s ∧ run step s bs = some s' ∧ f s s' = b ∧ Reach step P s₀ s ∧
      Admits step Q s bs := by
  obtain ⟨s, hs, h⟩ := Option.bind_eq_some_iff.1 h
  obtain ⟨s', hs', hb⟩ := Option.map_eq_some_iff.1 h
  rw [Prod.mk.injEq, decide_eq_true_eq] at hb
  exact ⟨s, s', hs, hs', hb.1, of_run as hs hadm, hb.2⟩

end Reach

/-! ## What a run reports -/

/-- `s` is reached as in `Reach`, and its steps have reported `L`. -/
inductive Logged {ε : Type w} (step : σ → α → Option σ) (P : σ → α → Prop) (report : σ → α → List ε)
    (s₀ : σ) : List ε → σ → Prop
  | init : Logged step P report s₀ [] s₀
  | snoc {L : List ε} {s s' : σ} {a : α} : Logged step P report s₀ L s → P s a →
      step s a = some s' → Logged step P report s₀ (L ++ report s a) s'

/-- The report of a list of actions. -/
def log {ε : Type w} (step : σ → α → Option σ) (report : σ → α → List ε) : σ → List α → List ε
  | _, [] => []
  | s, a :: as => report s a ++ match step s a with
    | some s' => log step report s' as
    | none => []

namespace Logged

variable {ε : Type w} {step : σ → α → Option σ} {P : σ → α → Prop} {report : σ → α → List ε}
  {s₀ s : σ} {L : List ε}

theorem reach (h : Logged step P report s₀ L s) : Reach step P s₀ s := by
  induction h with
  | init => exact .init
  | snoc _ hp ha ih => exact .snoc ih hp ha

/-- The invariant rule, about the report too. -/
theorem inv {I : List ε → σ → Prop} (h0 : I [] s₀)
    (hs : ∀ L s a s', Reach step P s₀ s → I L s → P s a → step s a = some s' →
      I (L ++ report s a) s')
    (h : Logged step P report s₀ L s) : I L s := by
  induction h with
  | init => exact h0
  | snoc hr hp ha ih => exact hs _ _ _ _ hr.reach ih hp ha

theorem mono {Q : σ → α → Prop} (hPQ : ∀ s a, Reach step P s₀ s → P s a → Q s a)
    (h : Logged step P report s₀ L s) : Logged step Q report s₀ L s := by
  induction h with
  | init => exact .init
  | snoc hr hp ha ih => exact .snoc ih (hPQ _ _ hr.reach hp) ha

/-- Every run reports something. -/
theorem of_reach (h : Reach step P s₀ s) : ∃ L, Logged step P report s₀ L s := by
  induction h with
  | init => exact ⟨[], .init⟩
  | snoc _ hp ha ih =>
    obtain ⟨L, hL⟩ := ih
    exact ⟨_, .snoc hL hp ha⟩

theorem trans {s₁ s₂ : σ} {L₁ L₂ : List ε} (h₁ : Logged step P report s₀ L₁ s₁)
    (h₂ : Logged step P report s₁ L₂ s₂) : Logged step P report s₀ (L₁ ++ L₂) s₂ := by
  induction h₂ with
  | init => rwa [List.append_nil]
  | snoc _ hp ha ih =>
    rw [← List.append_assoc]
    exact .snoc ih hp ha

theorem of_run : ∀ (as : List α) {s₀ s : σ}, run step s₀ as = some s → Admits step P s₀ as →
    Logged step P report s₀ (log step report s₀ as) s
  | [], _, _, h, _ => by cases h; exact .init
  | a :: as, s₀, s, h, hadm => by
    simp only [run, Option.bind_eq_some_iff] at h
    obtain ⟨s₁, h1, h2⟩ := h
    simp only [Admits, h1] at hadm
    simp only [log, h1]
    exact (snoc .init hadm.1 h1).trans (of_run as h2 hadm.2)

end Logged

/-! ## Forward simulation -/

/-- `R` is a forward simulation: an admitted step is matched by the same action of the abstract
system. -/
def Sim {τ : Type w} (step : σ → α → Option σ) (P : σ → α → Prop) (astep : τ → α → Option τ)
    (R : σ → τ → Prop) : Prop :=
  ∀ s a s' x, R s x → P s a → step s a = some s' → ∃ x', astep x a = some x' ∧ R s' x'

/-- A simulation matches whole runs. -/
theorem Sim.run {τ : Type w} {step : σ → α → Option σ} {P : σ → α → Prop}
    {astep : τ → α → Option τ} {R : σ → τ → Prop} (h : Sim step P astep R) :
    ∀ (as : List α) {s s' : σ} {x : τ}, R s x → Runs.run step s as = some s' →
      Admits step P s as → ∃ x', Runs.run astep x as = some x' ∧ R s' x'
  | [], _, _, x, hR, hr, _ => by cases hr; exact ⟨x, rfl, hR⟩
  | a :: as, s, s', x, hR, hr, hadm => by
    simp only [Runs.run, Option.bind_eq_some_iff] at hr
    obtain ⟨s₁, h1, h2⟩ := hr
    simp only [Admits, h1] at hadm
    obtain ⟨x₁, hx, hR'⟩ := h _ _ _ x hR hadm.1 h1
    obtain ⟨x', hx', hR''⟩ := Sim.run h as hR' h2 hadm.2
    exact ⟨x', by simp only [Runs.run, hx, Option.bind_some, hx'], hR''⟩

end Runs
