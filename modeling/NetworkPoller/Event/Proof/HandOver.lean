import NetworkPoller.Event.Proof.ThreadLife

/-!
# The hand-over of the loop

`Start` holds the mutex of `EncThread` from before the thread is created until `started_` is set, so
`run` is not entered before that. `GetLoopInThread` waits once and does not look again at `loop_`: a
wait that ends early returns null (`hand_over_null`). `hand_over` is about the runs in which none
does.
-/

namespace Liang.Net

/-- A pointer is to be returned. -/
def CallPc.getting : CallPc → Bool
  | .get .unlock | .get .read => true
  | _ => false

namespace LoopThread

variable {s s' : LoopThread} {c : Caller} {a : ThreadAct} {pc : CallPc}

/-! ## `run` is entered -/

/-- Nothing but `Start` changes `started_`. -/
theorem started_step (h : s.step a = some s') : s'.started = s.started ∨ s'.started = true := by
  rcases step_cases h with ⟨-, hs⟩ | ⟨c, f, -, hs⟩ | ⟨c, -, hs⟩
  · unfold workerStep threadFunc run at hs
    (repeat' split at hs) <;> cases hs <;> exact .inl rfl
  · unfold begin at hs
    (repeat' split at hs) <;> cases hs <;> exact .inl rfl
  · unfold callerStep start getLoopInThread quitLoop dtor at hs
    (repeat' split at hs) <;> cases hs <;> first | exact .inl rfl | exact .inr rfl

/-- A thread that exists before `started_` is set stands before the mutex, which `Start` holds. -/
def Entered (s : LoopThread) : Prop :=
  s.started = false → s.worker ≠ .notStarted → s.worker = .func .lock ∧
    ∃ c, s.baseMutex = some (.caller c) ∧ (s.calls c = .start .assign ∨ s.calls c = .start .notify)

namespace Entered

/-- A call that is not in `Start` goes on. -/
theorem frame (h : s.Entered) (hst : s'.started = s.started ∨ s'.started = true) (hT : SameThread s s')
    (hg : s.Goes c pc s') (hb : (s.calls c).starting = false) : s'.Entered := by
  intro hn hw
  rcases hst with hst | hst
  · obtain ⟨hl, c', hm, hc'⟩ := h (hst ▸ hn) (hT.worker ▸ hw)
    refine ⟨hT.worker.trans hl, c', hT.baseMutex.trans hm, ?_⟩
    rcases hg.cases c' with ⟨rfl, -⟩ | ⟨-, he⟩
    · rcases hc' with hc' | hc' <;> rw [hc'] at hb <;> cases hb
    · rwa [he]
  · rw [hst] at hn
    cases hn

/-- The created thread does not get the mutex before `started_` is set. -/
theorem workerStep (h : s.Entered) (hst : s'.started = s.started ∨ s'.started = true)
    (hs : s.workerStep = some s') : s'.Entered := by
  intro hn
  rcases hst with hst | hst
  · have hw : s.worker ≠ .notStarted := by
      intro hw
      rw [LoopThread.workerStep, hw] at hs
      cases hs
    obtain ⟨hl, c, hm, -⟩ := h (hst ▸ hn) hw
    simp [LoopThread.workerStep, hl, threadFunc, hm] at hs
  · rw [hst] at hn
    cases hn

theorem start {p : StartPc} (h : s.Entered) (hS : s.Started) (hc : s.calls c = .start p)
    (hs : s.start c p = some s') : s'.Entered := by
  cases p <;> simp only [LoopThread.start] at hs
  case test =>
    split at hs <;> cases hs <;>
      exact h.frame (c := c) (.inl rfl) ⟨rfl, rfl, rfl⟩ rfl (by rw [hc]; rfl)
  case lock =>
    split at hs
    · rename_i hm
      cases hs
      intro hn hw
      obtain ⟨-, c', hm', -⟩ := h hn hw
      rw [hm] at hm'
      cases hm'
    · cases hs
  case create =>
    have hb := hS.base c (by rw [hc]; rfl)
    split at hs <;> cases hs
    · exact h
    · exact fun _ _ => ⟨rfl, c, hb, .inl (Function.update_self ..)⟩
  case assign =>
    have hb := hS.base c (by rw [hc]; rfl)
    cases hs
    exact fun hn hw => ⟨(h hn hw).1, c, hb, .inr (Function.update_self ..)⟩
  case notify =>
    cases hs
    intro hn
    cases hn

theorem callerStep (h : s.Entered) (hS : s.Started) (hst : s'.started = s.started ∨ s'.started = true)
    (hs : s.callerStep c = some s') : s'.Entered := by
  unfold LoopThread.callerStep at hs
  split at hs
  · cases hs
  · rename_i p hc
    exact h.start hS hc hs
  · rename_i p hc
    obtain ⟨hT, -, pc, hg, -⟩ := getLoopInThread_spec hs
    exact h.frame hst hT hg (by rw [hc]; rfl)
  · rename_i p hc
    obtain ⟨hT, ⟨-, hg, -⟩ | ⟨-, hg, -⟩⟩ := quitLoop_spec hs <;>
      exact h.frame hst hT hg (by rw [hc]; rfl)
  · rename_i p hc
    obtain ⟨hT, ⟨-, hg, -⟩ | ⟨-, hg, -⟩ | ⟨-, pc, hg, -⟩⟩ := dtor_spec hs <;>
      exact h.frame hst hT hg (by rw [hc]; rfl)

theorem reach {P : LoopThread → ThreadAct → Prop} (h : Runs.Reach LoopThread.step P init s) :
    s.Entered := by
  refine h.inv (fun _ hw => absurd rfl hw) fun s a s' hr hi _ hstep => ?_
  have hst := started_step hstep
  rcases step_cases hstep with ⟨-, hs⟩ | ⟨c, f, -, hs⟩ | ⟨c, -, hs⟩
  · exact hi.workerStep hst hs
  · obtain ⟨hc, hT, -, pc, hg, -⟩ := begin_spec hs
    exact hi.frame hst hT hg (by rw [hc]; rfl)
  · exact hi.callerStep (.reach hr) hst hs

end Entered

/-! ## The pointer is returned -/

/-- `loop_` is set where it is to be returned. -/
def Got (s : LoopThread) : Prop := ∀ c, (s.calls c).getting = true → s.loop = true

namespace Got

theorem frame (h : s.Got) (hl : s'.loop = s.loop) (hg : s.Goes c pc s')
    (hp : pc.getting = true → s.loop = true) : s'.Got := by
  intro c' hc'
  rw [hl]
  rcases hg.cases c' with ⟨-, he⟩ | ⟨-, he⟩
  · exact hp (he ▸ hc')
  · exact h c' (he ▸ hc')

theorem workerStep (h : s.Got) (hs : s.workerStep = some s') : s'.Got := by
  have hstay : s'.calls = s.calls ∧ (s.loop = true → s'.loop = true) := by
    unfold LoopThread.workerStep threadFunc run at hs
    (repeat' split at hs) <;> cases hs <;> exact ⟨rfl, by simp⟩
  intro c hc
  exact hstay.2 (h c (hstay.1 ▸ hc))

theorem callerStep (h : s.Got) (hW : s.WaitsForLoop (.caller c)) (hs : s.callerStep c = some s') :
    s'.Got := by
  unfold LoopThread.callerStep at hs
  split at hs
  · cases hs
  · rename_i p hc
    obtain ⟨hL, pc, hg, hpc⟩ := start_spec hc hs
    refine h.frame hL.loop hg ?_
    rcases hpc with rfl | ⟨q, rfl⟩ <;> intro hp <;> cases hp
  · rename_i p hc
    obtain ⟨-, hL, pc, hg, hpc⟩ := getLoopInThread_spec hs
    refine h.frame hL.loop hg fun hp => ?_
    rcases hpc with rfl | rfl | rfl | ⟨rfl, hl | rfl⟩ | ⟨rfl, rfl⟩
    · cases hp
    · cases hp
    · cases hp
    · exact hl
    · simpa only [WaitsForLoop, hc] using hW
    · exact h c (by rw [hc]; rfl)
  · obtain ⟨-, ⟨-, hg, hL⟩ | ⟨-, hg, hL⟩⟩ := quitLoop_spec hs <;>
      exact h.frame hL.loop hg fun hp => by cases hp
  · obtain ⟨-, ⟨-, hg, hL⟩ | ⟨-, hg, hL⟩ | ⟨hL, pc, hg, hpc⟩⟩ := dtor_spec hs
    · exact h.frame hL.loop hg fun hp => by cases hp
    · exact h.frame hL.loop hg fun hp => by cases hp
    · refine h.frame hL.loop hg ?_
      rcases hpc with ⟨rfl, -⟩ | rfl | rfl | rfl | rfl <;> intro hp <;> cases hp

theorem reach (h : Runs.Reach step WaitsForLoop init s) : s.Got := by
  refine h.inv (fun c hc => ?_) fun s a s' _ hi hP hstep => ?_
  · cases hc
  · rcases step_cases hstep with ⟨rfl, hs⟩ | ⟨c, f, rfl, hs⟩ | ⟨c, rfl, hs⟩
    · exact hi.workerStep hs
    · obtain ⟨-, -, hL, pc, hg, hpc⟩ := begin_spec hs
      refine hi.frame hL.loop hg ?_
      rcases hpc with rfl | rfl | rfl | rfl <;> intro hp <;> cases hp
    · exact hi.callerStep hP hs

end Got

theorem returned_reach (h : Runs.Reach step WaitsForLoop init s) :
    ∀ life, .returned life ∈ s.uses → life ≠ none := by
  refine h.inv (I := fun s => ∀ life, .returned life ∈ s.uses → life ≠ none)
    (fun life hm => absurd hm List.not_mem_nil) fun s a s' hr hi _ hstep life hm => ?_
  rcases uses_step hstep with hu | ⟨c, rfl, hc, hu⟩ | ⟨c, rfl, hc, hu⟩ <;> rw [hu] at hm
  · exact hi life hm
  · rcases List.mem_append.1 hm with hm | hm
    · exact hi life hm
    · cases List.mem_singleton.1 hm
      have hl := Got.reach hr c (by rw [hc]; rfl)
      simp [pointee, hl]
  · rcases List.mem_append.1 hm with hm | hm
    · exact hi life hm
    · cases List.mem_singleton.1 hm

/-- **The hand-over of the loop.** In every run in which no wait on `cond_` ends before `loop_` is
published, every pointer that `GetLoopInThread` has returned is not null, and `run`, of either class,
is entered after `Start` has set `started_` only. -/
theorem hand_over (h : Runs.Reach step WaitsForLoop init s) :
    (∀ life, .returned life ∈ s.uses → life ≠ none) ∧
      ((∃ p, s.worker = .run p) ∨ s.worker = .baseRun → s.started = true) := by
  refine ⟨returned_reach h, fun hw => ?_⟩
  by_contra hn
  have hne : s.worker ≠ .notStarted := by rcases hw with ⟨p, hw⟩ | hw <;> rw [hw] <;> nofun
  have hl := (Entered.reach h (eq_false_of_ne_true hn) hne).1
  rcases hw with ⟨p, hw⟩ | hw <;> rw [hw] at hl <;> cases hl

theorem hand_over_sample :
    ∃ s, Runs.run step init (sampleThread ++ sampleGet) = some s ∧
      s.uses = [.returned (some .alive)] ∧ s.worker = .run .setLooping ∧ s.started = true := by
  have hrun : (Runs.run step init (sampleThread ++ sampleGet)).map (fun s => (s.uses, s.worker)) =
      some ([.returned (some .alive)], .run .setLooping) := by decide +kernel
  obtain ⟨s, hs, hx, hr⟩ := Runs.Reach.of_map _ hrun (P := WaitsForLoop) (by decide +kernel)
  simp only [Prod.mk.injEq] at hx
  exact ⟨s, hs, hx.1, hx.2, (hand_over hr).2 (.inl ⟨_, hx.2⟩)⟩

/-- `Start` has returned; `GetLoopInThread` finds `loop_` null and its wait ends spuriously. -/
theorem hand_over_null :
    ∃ s, Runs.run step init (.call (.user 0) .start :: List.replicate 5 (.caller (.user 0)) ++
        .call (.user 0) .getLoopInThread :: List.replicate 5 (.caller (.user 0))) = some s ∧
      s.calls (.user 0) = .idle ∧ s.uses = [.returned none] := by
  have hrun : (Runs.run step init (.call (.user 0) .start :: List.replicate 5 (.caller (.user 0)) ++
      .call (.user 0) .getLoopInThread :: List.replicate 5 (.caller (.user 0)))).map
      (fun s => (s.calls (.user 0), s.uses)) = some (.idle, [.returned none]) := by decide +kernel
  obtain ⟨s, hs, hx⟩ := Option.map_eq_some_iff.1 hrun
  simp only [Prod.mk.injEq] at hx
  exact ⟨s, hs, hx⟩

end LoopThread

end Liang.Net
