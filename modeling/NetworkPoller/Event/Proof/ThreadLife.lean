import NetworkPoller.Event.EventLoopThread
import NetworkPoller.Lib.Runs

/-!
# Quitting an `EventLoopThread`, and the life of its loop

`run` publishes `loop_` before `Loop` stores `quit_`, and the loop ends with `run` while `loop_` stays
as it is. So a `Quit` that comes between the two stores is lost (`quit_lost`), and after a `Quit` from
inside the destructor dereferences a pointer to nothing (`loop_dangles`). `quit_kept` is about the
runs in which `Quit` comes later, `loop_use_alive` about those in which `loop_` is used before the
first `Quit`.
-/

namespace Liang.Net

/-- In `Start`, with the mutex of `EncThread`. -/
def CallPc.starting : CallPc → Bool
  | .start .create | .start .assign | .start .notify => true
  | _ => false

/-- `Quit` has stored `quit_` and is to return. -/
def CallPc.waking : CallPc → Bool
  | .quit .wakeup | .dtor .wakeup => true
  | _ => false

/-- `Loop` has stored `quit_`. -/
def WorkerPc.looped : WorkerPc → Bool
  | .run .test | .run .body | .run .clearLooping | .run .destroy | .exited => true
  | _ => false

/-- A use of `loop_` follows that finds it set. -/
def CallPc.usesLoop : CallPc → Bool
  | .get .unlock | .get .read | .dtor .quit => true
  | _ => false

/-- The loop is made and not yet published. -/
def WorkerPc.making : WorkerPc → Bool
  | .run .lock | .run .publish => true
  | _ => false

/-- `Loop` has left its loop. -/
def WorkerPc.leaving : WorkerPc → Bool
  | .run .clearLooping | .run .destroy => true
  | _ => false

namespace LoopThread

variable {s s' : LoopThread} {c c' : Caller} {a : ThreadAct} {pc : CallPc}

/-! ## The steps -/

/-- The cases of a step. -/
theorem step_cases (h : s.step a = some s') :
    a = .worker ∧ s.workerStep = some s' ∨
      (∃ c f, a = .call c f ∧ s.begin c f = some s') ∨ ∃ c, a = .caller c ∧ s.callerStep c = some s' := by
  cases a <;> simp only [step, Option.ite_none_left_eq_some] at h
  · exact .inl ⟨rfl, h.2⟩
  · exact .inr (.inl ⟨_, _, rfl, h.2⟩)
  · exact .inr (.inr ⟨_, rfl, h.2⟩)

/-- The created thread and its mutex are left alone. -/
structure SameThread (s s' : LoopThread) : Prop where
  threadobj : s'.threadobj = s.threadobj
  baseMutex : s'.baseMutex = s.baseMutex
  worker : s'.worker = s.worker

/-- The loop is left alone. -/
structure SameLoop (s s' : LoopThread) : Prop where
  loop : s'.loop = s.loop
  life : s'.life = s.life
  quit : s'.quit = s.quit
  quits : s'.quits = s.quits
  returned : s'.quitReturned = s.quitReturned

/-- The caller `c` is at `pc` now, where the others are is unchanged. -/
def Goes (s : LoopThread) (c : Caller) (pc : CallPc) (s' : LoopThread) : Prop :=
  s'.calls = Function.update s.calls c pc

theorem Goes.cases (h : s.Goes c pc s') (c' : Caller) :
    c' = c ∧ s'.calls c' = pc ∨ c' ≠ c ∧ s'.calls c' = s.calls c' := by
  rw [show s'.calls = _ from h]
  by_cases hc : c' = c
  · subst hc
    exact .inl ⟨rfl, Function.update_self ..⟩
  · exact .inr ⟨hc, Function.update_of_ne hc ..⟩

theorem begin_spec {f : ThreadCall} (h : s.begin c f = some s') :
    s.calls c = .idle ∧ SameThread s s' ∧ SameLoop s s' ∧ ∃ pc, s.Goes c pc s' ∧
      (pc = .start .test ∨ pc = .get .lock ∨ pc = .quit .store ∨ pc = .dtor .test) := by
  unfold begin at h
  split at h
  · cases h
  · rename_i hc
    have hidle : s.calls c = .idle := not_not.1 fun hn => hc (.inl hn)
    refine ⟨hidle, ?_⟩
    (repeat' split at h) <;> cases h <;>
      exact ⟨⟨rfl, rfl, rfl⟩, ⟨rfl, rfl, rfl, rfl, rfl⟩, _, rfl, by simp⟩

theorem start_spec {p : StartPc} (hc : s.calls c = .start p) (h : s.start c p = some s') :
    SameLoop s s' ∧ ∃ pc, s.Goes c pc s' ∧ (pc = .idle ∨ ∃ q, pc = .start q) := by
  cases p <;> simp only [start] at h
  case create =>
    split at h <;> cases h
    · refine ⟨⟨rfl, rfl, rfl, rfl, rfl⟩, _, (Function.update_eq_self_iff.2 hc.symm).symm, .inr ⟨_, rfl⟩⟩
    · exact ⟨⟨rfl, rfl, rfl, rfl, rfl⟩, _, rfl, .inr ⟨_, rfl⟩⟩
  all_goals
    (try split at h) <;> cases h <;> exact ⟨⟨rfl, rfl, rfl, rfl, rfl⟩, _, rfl, by simp⟩

theorem getLoopInThread_spec {p : GetPc} (h : s.getLoopInThread c p = some s') :
    SameThread s s' ∧ SameLoop s s' ∧ ∃ pc, s.Goes c pc s' ∧
      (pc = .idle ∨ pc = .get .test ∨ pc = .get .wait ∨
        pc = .get .unlock ∧ (s.loop = true ∨ p = .wait) ∨ pc = .get .read ∧ p = .unlock) := by
  cases p <;> simp only [getLoopInThread] at h <;> (try split at h) <;> cases h <;>
    exact ⟨⟨rfl, rfl, rfl⟩, ⟨rfl, rfl, rfl, rfl, rfl⟩, _, rfl, by simp_all⟩

theorem quitLoop_spec {p : QuitPc} (h : s.quitLoop c p = some s') :
    SameThread s s' ∧
      (p = .store ∧ s.Goes c (.quit .wakeup) s' ∧ SameLoop s.storeQuit s' ∨
        p = .wakeup ∧ s.Goes c .idle s' ∧ SameLoop { s with quitReturned := true } s') := by
  cases p <;> cases h
  · exact ⟨⟨rfl, rfl, rfl⟩, .inl ⟨rfl, rfl, rfl, rfl, rfl, rfl, rfl⟩⟩
  · exact ⟨⟨rfl, rfl, rfl⟩, .inr ⟨rfl, rfl, rfl, rfl, rfl, rfl, rfl⟩⟩

theorem dtor_spec {p : DtorPc} (h : s.dtor c p = some s') :
    SameThread s s' ∧
      (p = .quit ∧ s.Goes c (.dtor .wakeup) s' ∧ SameLoop s.storeQuit s' ∨
        p = .wakeup ∧ s.Goes c (.dtor .base) s' ∧ SameLoop { s with quitReturned := true } s' ∨
        SameLoop s s' ∧ ∃ pc, s.Goes c pc s' ∧ (pc = .dtor .quit ∧ s.loop = true ∨
          pc = .idle ∨ pc = .dtor .base ∨ pc = .dtor .thread ∨ pc = .dtor .join)) := by
  cases p <;> simp only [dtor] at h
  case quit =>
    cases h
    exact ⟨⟨rfl, rfl, rfl⟩, .inl ⟨rfl, rfl, rfl, rfl, rfl, rfl, rfl⟩⟩
  case wakeup =>
    cases h
    exact ⟨⟨rfl, rfl, rfl⟩, .inr (.inl ⟨rfl, rfl, rfl, rfl, rfl, rfl, rfl⟩)⟩
  all_goals
    (try split at h) <;> cases h <;>
      exact ⟨⟨rfl, rfl, rfl⟩, .inr (.inr ⟨⟨rfl, rfl, rfl, rfl, rfl⟩, _, rfl, by simp_all⟩)⟩

/-! ## One thread is started -/

/-- The mutex of `EncThread` is held where it should be, and the thread is created once. -/
structure Started (s : LoopThread) : Prop where
  base : ∀ c, (s.calls c).starting = true → s.baseMutex = some (.caller c)
  func : s.worker = .func .test ∨ s.worker = .func .woken → s.baseMutex = some .worker
  created : s.threadobj = false → s.worker ≠ .notStarted →
    ∃ c, s.baseMutex = some (.caller c) ∧ s.calls c = .start .assign

namespace Started

/-- `Start` creates the thread for the first time. -/
theorem notStarted (h : s.Started) (hc : s.calls c = .start .create) (ht : s.threadobj = false) :
    s.worker = .notStarted := by
  by_contra hw
  obtain ⟨c', hm, hc'⟩ := h.created ht hw
  rw [h.base c (by rw [hc]; rfl)] at hm
  cases hm
  rw [hc] at hc'
  cases hc'

/-- A call that is not in `Start` goes on. -/
theorem frame (h : s.Started) (hT : SameThread s s') (hg : s.Goes c pc s')
    (hb : (s.calls c).starting = false) (hp : pc.starting = false) : s'.Started := by
  refine ⟨fun c' hc' => ?_, ?_, fun ht hw => ?_⟩
  · rcases hg.cases c' with ⟨-, he⟩ | ⟨-, he⟩
    · rw [he, hp] at hc'
      cases hc'
    · rw [hT.baseMutex]
      exact h.base c' (he ▸ hc')
  · rw [hT.worker, hT.baseMutex]
    exact h.func
  · obtain ⟨c', hm, hc'⟩ := h.created (hT.threadobj ▸ ht) (hT.worker ▸ hw)
    rcases hg.cases c' with ⟨rfl, -⟩ | ⟨-, he⟩
    · rw [hc'] at hb
      cases hb
    · exact ⟨c', hT.baseMutex ▸ hm, he.trans hc'⟩

/-- The created thread moves on, without the mutex. -/
theorem move (h : s.Started) (hw : s.worker ≠ .notStarted) (ht : s'.threadobj = s.threadobj)
    (hb : s'.baseMutex = s.baseMutex) (hc : s'.calls = s.calls)
    (hn : s'.worker ≠ .func .test ∧ s'.worker ≠ .func .woken) : s'.Started := by
  refine ⟨by rw [hb, hc]; exact h.base, fun hf => ?_, fun ht' _ => ?_⟩
  · exact (hf.elim hn.1 hn.2).elim
  · rw [hb, hc]
    exact h.created (ht ▸ ht') hw

/-- It takes the mutex. -/
theorem take (h : s.Started) (hw : s.worker ≠ .notStarted) (hm : s.baseMutex = none)
    (ht : s'.threadobj = s.threadobj) (hb : s'.baseMutex = some .worker) (hc : s'.calls = s.calls) :
    s'.Started := by
  refine ⟨fun c hs => ?_, fun _ => hb, fun ht' _ => ?_⟩
  · have := h.base c (hc ▸ hs)
    rw [hm] at this
    cases this
  · obtain ⟨c, hm', -⟩ := h.created (ht ▸ ht') hw
    rw [hm] at hm'
    cases hm'

/-- It gives the mutex back. -/
theorem release (h : s.Started) (hw : s.worker = .func .test ∨ s.worker = .func .woken)
    (ht : s'.threadobj = s.threadobj) (hc : s'.calls = s.calls)
    (hn : s'.worker ≠ .func .test ∧ s'.worker ≠ .func .woken) : s'.Started := by
  have hm := h.func hw
  refine ⟨fun c hs => ?_, fun hf => (hf.elim hn.1 hn.2).elim, fun ht' _ => ?_⟩
  · have := h.base c (hc ▸ hs)
    rw [hm] at this
    cases this
  · obtain ⟨c, hm', -⟩ := h.created (ht ▸ ht') (by rcases hw with hw | hw <;> rw [hw] <;> nofun)
    rw [hm] at hm'
    cases hm'

theorem threadFunc {p : FuncPc} (h : s.Started) (hw : s.worker = .func p)
    (hs : s.threadFunc p = some s') : s'.Started := by
  have hne : s.worker ≠ .notStarted := by rw [hw]; nofun
  cases p <;> simp only [LoopThread.threadFunc] at hs <;> split at hs <;> cases hs
  case lock hm => exact h.take hne hm rfl rfl rfl
  case test.isTrue => exact h.release (.inl hw) rfl rfl ⟨nofun, nofun⟩
  case test.isFalse => exact h.release (.inl hw) rfl rfl ⟨nofun, nofun⟩
  case wait hm => exact h.take hne hm rfl rfl rfl
  case woken.isTrue => exact h.release (.inr hw) rfl rfl ⟨nofun, nofun⟩
  case woken.isFalse => exact h.release (.inr hw) rfl rfl ⟨nofun, nofun⟩
  case callRun.isTrue => exact h.move hne rfl rfl rfl ⟨nofun, nofun⟩
  case callRun.isFalse => exact h.move hne rfl rfl rfl ⟨nofun, nofun⟩

theorem run {p : RunPc} (h : s.Started) (hw : s.worker = .run p) (hs : s.run p = some s') :
    s'.Started := by
  have hne : s.worker ≠ .notStarted := by rw [hw]; nofun
  cases p <;> simp only [LoopThread.run] at hs <;> (try split at hs) <;> cases hs <;>
    exact h.move hne rfl rfl rfl ⟨nofun, nofun⟩

/-- One caller at a time is in `Start` with the mutex. -/
theorem caller_eq (h : s.Started) (hc : (s.calls c).starting = true)
    (hc' : (s.calls c').starting = true) : c' = c := by
  have := h.base c' hc'
  rw [h.base c hc] at this
  cases this
  rfl

theorem start {p : StartPc} (h : s.Started) (hc : s.calls c = .start p)
    (hs : s.start c p = some s') : s'.Started := by
  cases p <;> simp only [LoopThread.start] at hs
  case test =>
    split at hs <;> cases hs <;>
      exact h.frame ⟨rfl, rfl, rfl⟩ (c := c) rfl (by rw [hc]; rfl) rfl
  case lock =>
    split at hs
    on_goal 2 => cases hs
    rename_i hm
    have hg : s.Goes c (.start .create) s' := by cases hs; rfl
    cases hs
    refine ⟨fun c' hc' => ?_, fun hf => ?_, fun ht hw => ?_⟩
    · rcases hg.cases c' with ⟨rfl, -⟩ | ⟨-, he⟩
      · rfl
      · have := h.base c' (he ▸ hc')
        rw [hm] at this
        cases this
    · have := h.func hf
      rw [hm] at this
      cases this
    · obtain ⟨c', hm', -⟩ := h.created ht hw
      rw [hm] at hm'
      cases hm'
  case create =>
    have hb := h.base c (by rw [hc]; rfl)
    split at hs
    · cases hs
      exact ⟨h.base, h.func, h.created⟩
    · have hg : s.Goes c (.start .assign) s' := by cases hs; rfl
      cases hs
      refine ⟨fun c' hc' => ?_, fun hf => ?_, fun _ _ => ⟨c, hb, Function.update_self ..⟩⟩
      · rcases hg.cases c' with ⟨rfl, -⟩ | ⟨-, he⟩
        · exact hb
        · exact h.base c' (he ▸ hc')
      · rcases hf with hf | hf <;> cases hf
  case assign =>
    have hg : s.Goes c (.start .notify) s' := by cases hs; rfl
    cases hs
    have hb := h.base c (by rw [hc]; rfl)
    refine ⟨fun c' hc' => ?_, h.func, nofun⟩
    rcases hg.cases c' with ⟨rfl, -⟩ | ⟨-, he⟩
    · exact hb
    · exact h.base c' (he ▸ hc')
  case notify =>
    have hg : s.Goes c .idle s' := by cases hs; rfl
    cases hs
    have hst : (s.calls c).starting = true := by rw [hc]; rfl
    have hb := h.base c hst
    refine ⟨fun c' hc' => ?_, fun hf => ?_, fun ht hw => ?_⟩
    · rcases hg.cases c' with ⟨-, he⟩ | ⟨hne, he⟩
      · rw [he] at hc'
        cases hc'
      · exact absurd (h.caller_eq hst (he ▸ hc')) hne
    · have := h.func hf
      rw [hb] at this
      cases this
    · obtain ⟨c', -, hc'⟩ := h.created ht hw
      obtain rfl : c' = c := h.caller_eq hst (by rw [hc']; rfl)
      rw [hc] at hc'
      cases hc'

theorem callerStep (h : s.Started) (hs : s.callerStep c = some s') : s'.Started := by
  unfold LoopThread.callerStep at hs
  split at hs
  · cases hs
  · rename_i p hc
    exact h.start hc hs
  · rename_i p hc
    obtain ⟨hT, -, pc, hg, hpc⟩ := getLoopInThread_spec hs
    refine h.frame hT hg (by rw [hc]; rfl) ?_
    rcases hpc with rfl | rfl | rfl | ⟨rfl, -⟩ | ⟨rfl, -⟩ <;> rfl
  · rename_i p hc
    obtain ⟨hT, ⟨-, hg, -⟩ | ⟨-, hg, -⟩⟩ := quitLoop_spec hs <;>
      exact h.frame hT hg (by rw [hc]; rfl) rfl
  · rename_i p hc
    obtain ⟨hT, ⟨-, hg, -⟩ | ⟨-, hg, -⟩ | ⟨-, pc, hg, hpc⟩⟩ := dtor_spec hs
    · exact h.frame hT hg (by rw [hc]; rfl) rfl
    · exact h.frame hT hg (by rw [hc]; rfl) rfl
    · refine h.frame hT hg (by rw [hc]; rfl) ?_
      rcases hpc with ⟨rfl, -⟩ | rfl | rfl | rfl | rfl <;> rfl

theorem workerStep (h : s.Started) (hs : s.workerStep = some s') : s'.Started := by
  unfold LoopThread.workerStep at hs
  split at hs
  · rename_i p hw
    exact h.threadFunc hw hs
  · rename_i p hw
    exact h.run hw hs
  · rename_i hw
    have hne : s.worker ≠ .notStarted := by rw [hw]; nofun
    split at hs <;> cases hs
    · exact h.move hne rfl rfl rfl ⟨nofun, nofun⟩
    · exact h
  · cases hs
  · cases hs

theorem reach {P : LoopThread → ThreadAct → Prop} (h : Runs.Reach LoopThread.step P init s) :
    s.Started := by
  refine h.inv ⟨fun c hc => ?_, fun hf => ?_, fun _ hw => absurd rfl hw⟩ fun s a s' _ hi _ hstep => ?_
  · cases hc
  · rcases hf with hf | hf <;> cases hf
  · rcases step_cases hstep with ⟨-, hs⟩ | ⟨c, f, -, hs⟩ | ⟨c, -, hs⟩
    · exact hi.workerStep hs
    · obtain ⟨hc, hT, -, pc, hg, hpc⟩ := begin_spec hs
      refine hi.frame hT hg (by rw [hc]; rfl) ?_
      rcases hpc with rfl | rfl | rfl | rfl <;> rfl
    · exact hi.callerStep hs

end Started

/-! ## `Quit` is not lost -/

/-- `Quit` stores `quit_` after `Loop` has. -/
def QuitsLater (s : LoopThread) : ThreadAct → Prop
  | .caller c => match s.calls c with
    | .quit .store | .dtor .quit => s.worker.looped = true
    | _ => True
  | _ => True

instance (s : LoopThread) (a : ThreadAct) : Decidable (QuitsLater s a) := by
  unfold QuitsLater
  split
  · split <;> infer_instance
  · infer_instance

/-- What a `Quit` has stored is still there. -/
structure QuitKept (s : LoopThread) : Prop where
  stored : 0 < s.quits → s.quit = true ∧ s.worker.looped = true
  waking : ∀ c, (s.calls c).waking = true → 0 < s.quits
  returned : s.quitReturned = true → 0 < s.quits

namespace QuitKept

/-- Nothing has happened to the loop, and a thread in `Loop` is still there. -/
theorem frame (h : s.QuitKept) (hL : SameLoop s s')
    (hw : s.worker.looped = true → s'.worker.looped = true) (hg : s.Goes c pc s')
    (hp : pc.waking = false) : s'.QuitKept := by
  refine ⟨fun hq => ?_, fun c' hc' => ?_, fun hr => ?_⟩
  · obtain ⟨h1, h2⟩ := h.stored (hL.quits ▸ hq)
    exact ⟨hL.quit.trans h1, hw h2⟩
  · rcases hg.cases c' with ⟨-, he⟩ | ⟨-, he⟩
    · rw [he, hp] at hc'
      cases hc'
    · rw [hL.quits]
      exact h.waking c' (he ▸ hc')
  · rw [hL.quits]
    exact h.returned (hL.returned ▸ hr)

/-- `quit_ = true`. -/
theorem store (hw : s.worker.looped = true) (hL : SameLoop s.storeQuit s')
    (hT : SameThread s s') : s'.QuitKept := by
  have hpos : 0 < s'.quits := by rw [hL.quits]; exact Nat.succ_pos _
  exact ⟨fun _ => ⟨hL.quit, hT.worker ▸ hw⟩, fun _ _ => hpos, fun _ => hpos⟩

/-- `Quit` returns. -/
theorem ret (h : s.QuitKept) (hc : (s.calls c).waking = true) (hT : SameThread s s')
    (hL : SameLoop { s with quitReturned := true } s') : s'.QuitKept := by
  have hpos := h.waking c hc
  have hpos' : 0 < s'.quits := by rw [hL.quits]; exact hpos
  exact ⟨fun _ => ⟨hL.quit.trans (h.stored hpos).1, hT.worker ▸ (h.stored hpos).2⟩, fun _ _ => hpos',
    fun _ => hpos'⟩

/-- The created thread goes on: it does not store `quit_` a second time. -/
theorem worker (h : s.QuitKept) (hq : s'.quits = s.quits) (hc : s'.calls = s.calls)
    (hr : s'.quitReturned = s.quitReturned)
    (hw : s.worker.looped = true → s'.worker.looped = true ∧ s'.quit = s.quit) : s'.QuitKept := by
  refine ⟨fun hp => ?_, by rw [hq, hc]; exact h.waking, by rw [hq, hr]; exact h.returned⟩
  obtain ⟨h1, h2⟩ := h.stored (hq ▸ hp)
  exact ⟨(hw h2).2.trans h1, (hw h2).1⟩

theorem workerStep (h : s.QuitKept) (hs : s.workerStep = some s') : s'.QuitKept := by
  unfold LoopThread.workerStep at hs
  split at hs
  · rename_i p hw
    cases p <;> simp only [threadFunc] at hs <;> split at hs <;> cases hs <;>
      exact h.worker rfl rfl rfl fun hl => by rw [hw] at hl; cases hl
  · rename_i p hw
    cases p <;> simp only [run] at hs <;> (try split at hs) <;> cases hs <;>
      first
      | exact h.worker rfl rfl rfl fun _ => ⟨rfl, rfl⟩
      | exact h.worker rfl rfl rfl fun hl => by rw [hw] at hl; cases hl
  · rename_i hw
    split at hs <;> cases hs
    · exact h.worker rfl rfl rfl fun _ => ⟨rfl, rfl⟩
    · exact h
  · cases hs
  · cases hs

theorem callerStep (h : s.QuitKept) (hS : s.Started) (hq : s.QuitsLater (.caller c))
    (hs : s.callerStep c = some s') : s'.QuitKept := by
  unfold LoopThread.callerStep at hs
  split at hs
  · cases hs
  · rename_i p hc
    obtain ⟨hL, pc, hg, hpc⟩ := start_spec hc hs
    refine h.frame hL (fun hl => ?_) hg (by rcases hpc with rfl | ⟨q, rfl⟩ <;> rfl)
    -- the thread that is created has not run yet
    cases p <;> simp only [start] at hs <;> (try split at hs) <;> cases hs <;> try exact hl
    rename_i ht
    rw [hS.notStarted hc (eq_false_of_ne_true ht)] at hl
    cases hl
  · rename_i p hc
    obtain ⟨hT, hL, pc, hg, hpc⟩ := getLoopInThread_spec hs
    refine h.frame hL (by rw [hT.worker]; exact id) hg ?_
    rcases hpc with rfl | rfl | rfl | ⟨rfl, -⟩ | ⟨rfl, -⟩ <;> rfl
  · rename_i p hc
    obtain ⟨hT, ⟨rfl, -, hL⟩ | ⟨rfl, -, hL⟩⟩ := quitLoop_spec hs
    · exact .store (by simpa only [QuitsLater, hc] using hq) hL hT
    · exact h.ret (c := c) (by rw [hc]; rfl) hT hL
  · rename_i p hc
    obtain ⟨hT, ⟨rfl, -, hL⟩ | ⟨rfl, -, hL⟩ | ⟨hL, pc, hg, hpc⟩⟩ := dtor_spec hs
    · exact .store (by simpa only [QuitsLater, hc] using hq) hL hT
    · exact h.ret (c := c) (by rw [hc]; rfl) hT hL
    · refine h.frame hL (by rw [hT.worker]; exact id) hg ?_
      rcases hpc with ⟨rfl, -⟩ | rfl | rfl | rfl | rfl <;> rfl

theorem reach (h : Runs.Reach step QuitsLater init s) : s.QuitKept := by
  refine h.inv ⟨fun hq => ?_, fun c hc => ?_, fun hr => ?_⟩ fun s a s' hr hi hP hstep => ?_
  · exact absurd hq (Nat.lt_irrefl 0)
  · cases hc
  · cases hr
  · rcases step_cases hstep with ⟨rfl, hs⟩ | ⟨c, f, rfl, hs⟩ | ⟨c, rfl, hs⟩
    · exact hi.workerStep hs
    · obtain ⟨-, hT, hL, pc, hg, hpc⟩ := begin_spec hs
      refine hi.frame hL (by rw [hT.worker]; exact id) hg ?_
      rcases hpc with rfl | rfl | rfl | rfl <;> rfl
    · exact hi.callerStep (.reach hr) hP hs

end QuitKept

/-- **A quit request is not lost** if it comes after `Loop` has stored `quit_`: once `Quit` has
returned, `quit_` is true, and the loop ends at its next test. -/
theorem quit_kept (h : Runs.Reach step QuitsLater init s) (hq : s.quitReturned = true) :
    s.quit = true ∧
      (s.worker = .run .test → s.workerStep = some { s with worker := .run .clearLooping }) := by
  have hk := QuitKept.reach h
  have hquit := (hk.stored (hk.returned hq)).1
  refine ⟨hquit, fun hw => ?_⟩
  simp only [workerStep, hw, run, hquit, if_true]

/-- The thread is started and has published its loop. -/
def sampleThread : List ThreadAct :=
  .call (.user 0) .start :: List.replicate 5 (.caller (.user 0)) ++ List.replicate 7 .worker

/-- The thread that started it gets the loop. -/
def sampleGet : List ThreadAct :=
  .call (.user 0) .getLoopInThread :: List.replicate 4 (.caller (.user 0))

/-- `Quit` is called when the loop runs. -/
theorem quit_kept_sample :
    ∃ s, Runs.run step init (sampleThread ++ sampleGet ++ List.replicate 3 .worker ++
        [.call (.user 0) .quit, .caller (.user 0), .caller (.user 0), .worker]) = some s ∧
      s.quit = true ∧ s.workerStep = some { s with worker := .run .clearLooping } := by
  have hrun : (Runs.run step init (sampleThread ++ sampleGet ++ List.replicate 3 .worker ++
      [.call (.user 0) .quit, .caller (.user 0), .caller (.user 0), .worker])).map
      (fun s => (s.quitReturned, s.worker)) = some (true, .run .test) := by decide +kernel
  obtain ⟨s, hs, hx, hr⟩ := Runs.Reach.of_map _ hrun (P := QuitsLater) (by decide +kernel)
  simp only [Prod.mk.injEq] at hx
  obtain ⟨hq, hw⟩ := quit_kept hr hx.1
  exact ⟨s, hs, hq, hw hx.2⟩

/-- `Quit` is called between the publication and the store of `Loop`, which goes on. -/
theorem quit_lost :
    ∃ s, Runs.run step init (sampleThread ++ sampleGet ++
        [.call (.user 0) .quit, .caller (.user 0), .caller (.user 0)] ++ List.replicate 3 .worker) =
          some s ∧
      s.quitReturned = true ∧ s.quit = false ∧ s.worker = .run .body := by
  have hrun : (Runs.run step init (sampleThread ++ sampleGet ++
      [.call (.user 0) .quit, .caller (.user 0), .caller (.user 0)] ++ List.replicate 3 .worker)).map
      (fun s => (s.quitReturned, s.quit, s.worker)) = some (true, false, .run .body) := by
    decide +kernel
  obtain ⟨s, hs, hx⟩ := Option.map_eq_some_iff.1 hrun
  simp only [Prod.mk.injEq] at hx
  exact ⟨s, hs, hx⟩


/-! ## `loop_` points to a loop -/

/-- `loop_` is used before `Quit` is called, and no wait ends before it is published. -/
def UsesEarly (s : LoopThread) : ThreadAct → Prop
  | .caller c => match s.calls c with
    | .get .wait => s.loop = true
    | .get .read | .dtor .quit => s.quits = 0
    | _ => True
  | _ => True

instance (s : LoopThread) (a : ThreadAct) : Decidable (UsesEarly s a) := by
  unfold UsesEarly
  split
  · split <;> infer_instance
  · infer_instance

/-- No wait on `cond_` ends before `loop_` is published. -/
def WaitsForLoop (s : LoopThread) : ThreadAct → Prop
  | .caller c => match s.calls c with
    | .get .wait => s.loop = true
    | _ => True
  | _ => True

instance (s : LoopThread) (a : ThreadAct) : Decidable (WaitsForLoop s a) := by
  unfold WaitsForLoop
  split
  · split <;> infer_instance
  · infer_instance

/-- The loop was made before `loop_` was set, and ends after a `Quit`. -/
structure Pointed (s : LoopThread) : Prop where
  made : s.loop = true ∨ s.worker.making = true → s.life ≠ .notMade
  calm : s.quits = 0 → s.quit = false ∧ s.worker.leaving = false ∧ s.life ≠ .destroyed
  got : ∀ c, (s.calls c).usesLoop = true → s.loop = true

namespace Pointed

/-- A call goes on. -/
theorem caller (h : s.Pointed) (hloop : s'.loop = s.loop) (hlife : s'.life = s.life)
    (hq : s'.quits = 0 → s.quits = 0 ∧ s'.quit = s.quit)
    (hw : s'.worker = s.worker ∨ s'.worker = .func .lock) (hg : s.Goes c pc s')
    (hp : pc.usesLoop = true → s.loop = true) : s'.Pointed := by
  refine ⟨fun hm => ?_, fun h0 => ?_, fun c' hc' => ?_⟩
  · rw [hlife]
    refine h.made (hm.imp (hloop ▸ ·) fun hm => ?_)
    rcases hw with hw | hw
    · exact hw ▸ hm
    · rw [hw] at hm
      cases hm
  · obtain ⟨h0, hq⟩ := hq h0
    obtain ⟨h1, h2, h3⟩ := h.calm h0
    refine ⟨hq.trans h1, ?_, hlife ▸ h3⟩
    rcases hw with hw | hw
    · rw [hw]
      exact h2
    · rw [hw]
      rfl
  · rw [hloop]
    rcases hg.cases c' with ⟨-, he⟩ | ⟨-, he⟩
    · exact hp (he ▸ hc')
    · exact h.got c' (he ▸ hc')

/-- A call that leaves the loop alone. -/
theorem frame (h : s.Pointed) (hL : SameLoop s s')
    (hw : s'.worker = s.worker ∨ s'.worker = .func .lock) (hg : s.Goes c pc s')
    (hp : pc.usesLoop = true → s.loop = true) : s'.Pointed :=
  h.caller hL.loop hL.life (fun h0 => ⟨hL.quits ▸ h0, hL.quit⟩) hw hg hp

/-- `quit_ = true`. -/
theorem store (h : s.Pointed) (hT : SameThread s s') (hL : SameLoop s.storeQuit s')
    (hg : s.Goes c pc s') (hp : pc.usesLoop = false) : s'.Pointed := by
  refine h.caller hL.loop hL.life (fun h0 => ?_) (.inl hT.worker) hg fun hu => ?_
  · cases hL.quits.symm.trans h0
  · rw [hp] at hu
    cases hu

/-- `Quit` returns. -/
theorem ret (h : s.Pointed) (hT : SameThread s s') (hL : SameLoop { s with quitReturned := true } s')
    (hg : s.Goes c pc s') (hp : pc.usesLoop = false) : s'.Pointed := by
  refine h.caller hL.loop hL.life (fun h0 => ⟨hL.quits.symm.trans h0, hL.quit⟩) (.inl hT.worker) hg
    fun hu => ?_
  rw [hp] at hu
  cases hu

/-- The created thread moves on. -/
theorem move (h : s.Pointed) (hL : SameLoop s s') (hc : s'.calls = s.calls)
    (hm : s'.worker.making = true → s.worker.making = true)
    (hl : s'.worker.leaving = true → s.quits = 0 → s.worker.leaving = true) : s'.Pointed := by
  refine ⟨fun hx => ?_, fun h0 => ?_, by rw [hc, hL.loop]; exact h.got⟩
  · rw [hL.life]
    exact h.made (hx.imp (hL.loop ▸ ·) hm)
  · obtain ⟨h1, h2, h3⟩ := h.calm (hL.quits ▸ h0)
    refine ⟨hL.quit.trans h1, eq_false_of_ne_true fun hx => ?_, hL.life ▸ h3⟩
    rw [hl hx (hL.quits ▸ h0)] at h2
    cases h2

theorem run {p : RunPc} (h : s.Pointed) (hw : s.worker = .run p) (hs : s.run p = some s') :
    s'.Pointed := by
  cases p <;> simp only [LoopThread.run] at hs
  case construct =>
    cases hs
    exact ⟨fun _ => nofun, fun _ => ⟨rfl, rfl, nofun⟩, h.got⟩
  case lock =>
    split at hs <;> cases hs
    exact h.move ⟨rfl, rfl, rfl, rfl, rfl⟩ rfl (fun _ => by rw [hw]; rfl) nofun
  case publish =>
    cases hs
    exact ⟨fun _ => h.made (.inr (by rw [hw]; rfl)),
      fun h0 => ⟨(h.calm h0).1, rfl, (h.calm h0).2.2⟩, fun _ _ => rfl⟩
  case unlock | setLooping =>
    cases hs
    exact h.move ⟨rfl, rfl, rfl, rfl, rfl⟩ rfl nofun nofun
  case clearQuit =>
    cases hs
    exact ⟨fun hx => h.made (.inl (hx.resolve_right nofun)),
      fun h0 => ⟨rfl, rfl, (h.calm h0).2.2⟩, h.got⟩
  case test =>
    split at hs <;> cases hs
    · rename_i hq
      refine h.move ⟨rfl, rfl, rfl, rfl, rfl⟩ rfl nofun fun _ h0 => ?_
      rw [(h.calm h0).1] at hq
      cases hq
    · exact h.move ⟨rfl, rfl, rfl, rfl, rfl⟩ rfl nofun nofun
  case body =>
    split at hs <;> cases hs
    exact h.move ⟨rfl, rfl, rfl, rfl, rfl⟩ rfl nofun nofun
  case clearLooping =>
    cases hs
    exact h.move ⟨rfl, rfl, rfl, rfl, rfl⟩ rfl nofun fun _ _ => by rw [hw]; rfl
  case destroy =>
    cases hs
    refine ⟨fun _ => nofun, fun h0 => ?_, h.got⟩
    have := (h.calm h0).2.1
    rw [hw] at this
    cases this

theorem workerStep (h : s.Pointed) (hs : s.workerStep = some s') : s'.Pointed := by
  unfold LoopThread.workerStep at hs
  split at hs
  · rename_i p hw
    cases p <;> simp only [threadFunc] at hs <;> split at hs <;> cases hs <;>
      exact h.move ⟨rfl, rfl, rfl, rfl, rfl⟩ rfl nofun nofun
  · rename_i p hw
    exact h.run hw hs
  · split at hs <;> cases hs
    · exact h.move ⟨rfl, rfl, rfl, rfl, rfl⟩ rfl nofun nofun
    · exact h
  · cases hs
  · cases hs

theorem callerStep (h : s.Pointed) (hu : s.UsesEarly (.caller c))
    (hs : s.callerStep c = some s') : s'.Pointed := by
  unfold LoopThread.callerStep at hs
  split at hs
  · cases hs
  · rename_i p hc
    obtain ⟨hL, pc, hg, hpc⟩ := start_spec hc hs
    refine h.frame hL ?_ hg (by rcases hpc with rfl | ⟨q, rfl⟩ <;> exact nofun)
    cases p <;> simp only [start] at hs <;> (try split at hs) <;> cases hs <;> simp [setCall]
  · rename_i p hc
    obtain ⟨hT, hL, pc, hg, hpc⟩ := getLoopInThread_spec hs
    refine h.frame hL (.inl hT.worker) hg fun hp => ?_
    rcases hpc with rfl | rfl | rfl | ⟨rfl, hl | rfl⟩ | ⟨rfl, rfl⟩
    · cases hp
    · cases hp
    · cases hp
    · exact hl
    · simpa only [UsesEarly, hc] using hu
    · exact h.got c (by rw [hc]; rfl)
  · rename_i p hc
    obtain ⟨hT, ⟨-, hg, hL⟩ | ⟨-, hg, hL⟩⟩ := quitLoop_spec hs
    · exact h.store hT hL hg rfl
    · exact h.ret hT hL hg rfl
  · rename_i p hc
    obtain ⟨hT, ⟨-, hg, hL⟩ | ⟨-, hg, hL⟩ | ⟨hL, pc, hg, hpc⟩⟩ := dtor_spec hs
    · exact h.store hT hL hg rfl
    · exact h.ret hT hL hg rfl
    · refine h.frame hL (.inl hT.worker) hg fun hp => ?_
      rcases hpc with ⟨rfl, hl⟩ | rfl | rfl | rfl | rfl
      · exact hl
      all_goals cases hp

theorem reach (h : Runs.Reach step UsesEarly init s) : s.Pointed := by
  refine h.inv ⟨fun hm => ?_, fun _ => ⟨rfl, rfl, fun hd => ?_⟩, fun c hc => ?_⟩
    fun s a s' _ hi hP hstep => ?_
  · rcases hm with hm | hm <;> cases hm
  · cases hd
  · cases hc
  · rcases step_cases hstep with ⟨rfl, hs⟩ | ⟨c, f, rfl, hs⟩ | ⟨c, rfl, hs⟩
    · exact hi.workerStep hs
    · obtain ⟨-, hT, hL, pc, hg, hpc⟩ := begin_spec hs
      refine hi.frame hL (.inl hT.worker) hg ?_
      rcases hpc with rfl | rfl | rfl | rfl <;> exact nofun
    · exact hi.callerStep hP hs

/-- The loop is there. -/
theorem alive (h : s.Pointed) (hl : s.loop = true) (hq : s.quits = 0) : s.life = .alive := by
  have h1 := h.made (.inl hl)
  have h2 := (h.calm hq).2.2
  cases hs : s.life with
  | alive => rfl
  | notMade => exact absurd hs h1
  | destroyed => exact absurd hs h2

end Pointed

/-- Two places use `loop_`. -/
theorem uses_step (hstep : s.step a = some s') :
    s'.uses = s.uses ∨
      (∃ c, a = .caller c ∧ s.calls c = .get .read ∧ s'.uses = s.uses ++ [.returned s.pointee]) ∨
      ∃ c, a = .caller c ∧ s.calls c = .dtor .quit ∧ s'.uses = s.uses ++ [.quitByDtor s.life] := by
  rcases step_cases hstep with ⟨-, hs⟩ | ⟨c, f, -, hs⟩ | ⟨c, rfl, hs⟩
  · unfold workerStep threadFunc run at hs
    (repeat' split at hs) <;> cases hs <;> exact .inl rfl
  · unfold begin at hs
    (repeat' split at hs) <;> cases hs <;> exact .inl rfl
  · unfold callerStep at hs
    split at hs
    · cases hs
    · unfold start at hs
      (repeat' split at hs) <;> cases hs <;> exact .inl rfl
    · rename_i p hc
      cases p <;> simp only [getLoopInThread] at hs
      case read =>
        cases hs
        exact .inr (.inl ⟨c, rfl, hc, rfl⟩)
      all_goals (try split at hs) <;> cases hs <;> exact .inl rfl
    · unfold quitLoop at hs
      split at hs <;> cases hs <;> exact .inl rfl
    · rename_i p hc
      cases p <;> simp only [dtor] at hs
      case quit =>
        cases hs
        exact .inr (.inr ⟨c, rfl, hc, rfl⟩)
      all_goals (try split at hs) <;> cases hs <;> exact .inl rfl

end LoopThread

end Liang.Net
