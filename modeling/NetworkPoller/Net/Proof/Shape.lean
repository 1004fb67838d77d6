import NetworkPoller.Net.Proof.Sound

/-!
# The shape of the stacks

The stack of a loop's thread has one frame of the loop at the bottom. Over `RunTaskFuncs` there is
nothing (a functor starts on an empty stack), handlers stand over the dispatch only, and a channel
is active during the dispatch only (`Shaped`). A thread without a loop runs no frame of a loop and
no handler. `Shape.effect`: every effect keeps this.
-/

namespace Liang.Net

open TcpConnection

/-- The stack of the thread of `l`, with the channels `act` still to be dispatched. -/
inductive Shaped (l : LoopId) (act : List ChanId) : List Frame → Prop
  | none (ha : act = []) : Shaped l act []
  | poll (ha : act = []) : Shaped l act [.loopPoll l]
  | dispatch : Shaped l act [.loopDispatch l]
  | tasks (ha : act = []) : Shaped l act [.loopTasks l]
  | cons {f : Frame} {fs : List Frame} (h : Shaped l act fs) (hf : f.isLoop = false)
      (hh : f.isHandler = true → .loopDispatch l ∈ fs) (ht : .loopTasks l ∉ fs) :
      Shaped l act (f :: fs)

structure Shape (s : Sys) : Prop where
  loop : ∀ l, Shaped l (s.active l) (s.stack (.loop l))
  user : ∀ u, ∀ f ∈ s.stack (.user u), f.isLoop = false ∧ f.isHandler = false

namespace Shaped

variable {l : LoopId} {act act' : List ChanId} {f : Frame} {fs : List Frame}

theorem loop_eq (h : Shaped l act fs) : ∀ l', .loopDispatch l' ∈ fs → l' = l := by
  induction h with
  | none => simp
  | poll => simp
  | tasks => simp
  | dispatch => simp
  | cons _ hf _ _ ih =>
    intro l' hm
    rcases List.mem_cons.1 hm with rfl | hm
    · cases hf
    · exact ih l' hm

theorem of_poll (h : Shaped l act (.loopPoll l :: fs)) : fs = [] ∧ act = [] := by
  cases h with
  | poll ha => exact ⟨rfl, ha⟩
  | cons _ hf => cases hf

theorem of_dispatch (h : Shaped l act (.loopDispatch l :: fs)) : fs = [] := by
  cases h with
  | dispatch => rfl
  | cons _ hf => cases hf

theorem of_tasks (h : Shaped l act (.loopTasks l :: fs)) : fs = [] ∧ act = [] := by
  cases h with
  | tasks ha => exact ⟨rfl, ha⟩
  | cons _ hf => cases hf

theorem of_cons (h : Shaped l act (f :: fs)) (hf : f.isLoop = false) :
    Shaped l act fs ∧ .loopTasks l ∉ fs ∧ (f.isHandler = true → .loopDispatch l ∈ fs) := by
  cases h with
  | cons h _ hh ht => exact ⟨h, ht, hh⟩
  | poll | dispatch | tasks => cases hf

theorem append (h : Shaped l act fs) (ht : .loopTasks l ∉ fs) {gs : List Frame}
    (hg : ∀ g ∈ gs, g.isLoop = false ∧ (g.isHandler = true → .loopDispatch l ∈ fs)) :
    Shaped l act (gs ++ fs) ∧ .loopTasks l ∉ gs ++ fs := by
  induction gs with
  | nil => exact ⟨h, ht⟩
  | cons g gs ih =>
    obtain ⟨h1, h2⟩ := ih fun g' hg' => hg g' (List.mem_cons_of_mem _ hg')
    obtain ⟨hgl, hgh⟩ := hg g List.mem_cons_self
    refine ⟨h1.cons hgl (fun hh => List.mem_append_right _ (hgh hh)) h2, fun hm => ?_⟩
    rcases List.mem_cons.1 hm with rfl | hm
    · cases hgl
    · exact h2 hm

end Shaped

/-- The frames `r` are a stack that `t` can build on. -/
def Shape.Base (s : Sys) (t : Tid) (r : List Frame) : Prop :=
  match t with
  | .loop l => Shaped l (s.active l) r ∧ .loopTasks l ∉ r
  | .user _ => ∀ f ∈ r, f.isLoop = false ∧ f.isHandler = false

variable {cfg : Cfg} {d : Discipline} {s s' : Sys} {t : Tid}

theorem Frame.isLoop_of_light {f : Frame} (h : f.light = true) : f.isLoop = false := by
  cases f with
  | loopPoll | loopDispatch | loopTasks => cases h
  | _ => rfl

namespace Shape

theorem of_stack (h : Shape s) {f : Frame} {r : List Frame} (hs : s.stack t = f :: r)
    (hf : f.isLoop = false) : Base s t r ∧ (f.isHandler = true → ∃ l, .loopDispatch l ∈ r) := by
  cases t with
  | loop l =>
    have := h.loop l
    rw [hs] at this
    obtain ⟨h1, h2, h3⟩ := this.of_cons hf
    exact ⟨⟨h1, h2⟩, fun hh => ⟨l, h3 hh⟩⟩
  | user u =>
    have := h.user u
    rw [hs] at this
    refine ⟨fun g hg => this g (List.mem_cons_of_mem _ hg), fun hh => ?_⟩
    rw [(this f List.mem_cons_self).2] at hh
    cases hh

/-- A functor is run on an otherwise empty stack, with nothing active. -/
theorem of_tasks (h : Shape s) (hS : Sound cfg d s) {l : LoopId} {r : List Frame}
    (hs : s.stack t = .loopTasks l :: r) : t = .loop l ∧ r = [] ∧ s.active l = [] := by
  have ht : t = .loop l := hS.loop_thread hs
  subst ht
  have := h.loop l
  rw [hs] at this
  exact ⟨rfl, this.of_tasks⟩

/-- Before `Poll` nothing is active. -/
theorem of_poll (h : Shape s) (hS : Sound cfg d s) {l : LoopId} {r : List Frame}
    (hs : s.stack t = .loopPoll l :: r) : t = .loop l ∧ r = [] ∧ s.active l = [] := by
  have ht : t = .loop l := hS.loop_thread hs
  subst ht
  have := h.loop l
  rw [hs] at this
  exact ⟨rfl, this.of_poll⟩

theorem base_task (h : Shape s) (hS : Sound cfg d s) {l : LoopId} {k : Task} {r : List Frame}
    (hs : s.stack t = .loopTasks l :: r) : Base s t (.taskDone k :: .loopPoll l :: r) := by
  obtain ⟨rfl, rfl, ha⟩ := h.of_tasks hS hs
  exact ⟨(Shaped.poll ha).cons rfl nofun (by simp), by simp⟩

theorem base_rest (h : Shape s) (hS : Sound cfg d s) {r : List Frame} (hr : Rest d s t r) :
    Base s t r := by
  cases hr with
  | frame hs hf => exact (h.of_stack hs (Frame.isLoop_of_light hf)).1
  | task hs _ => exact h.base_task hS hs

theorem base_start (h : Shape s) (hS : Sound cfg d s) {k : ClientId} {s₀ : Sys} {r : List Frame}
    (hs : StartSource t k s s₀ r) : Base s t r ∧ s₀.stack = s.stack ∧ s₀.active = s.active := by
  cases hs with
  | frame hs => exact ⟨(h.of_stack hs rfl).1, rfl, rfl⟩
  | task hs _ => exact ⟨h.base_task hS hs, rfl, rfl⟩

/-- Frames pushed on a base. -/
theorem push (h : Shape s) {r gs : List Frame} (hb : Base s t r) (hst : s'.stack = s.stack)
    (ha : s'.active = s.active)
    (hg : ∀ g ∈ gs, g.isLoop = false ∧ (g.isHandler = true → ∃ l, .loopDispatch l ∈ r)) :
    Shape (s'.push t (gs ++ r)) := by
  constructor
  · intro l
    by_cases ht : Tid.loop l = t
    · subst ht
      rw [Sys.push_self]
      show Shaped l (s'.active l) (gs ++ r)
      rw [ha]
      refine (hb.1.append hb.2 fun g hgm => ⟨(hg g hgm).1, fun hh => ?_⟩).1
      obtain ⟨l', hl'⟩ := (hg g hgm).2 hh
      exact hb.1.loop_eq l' hl' ▸ hl'
    · rw [Sys.push_of_ne _ ht]
      show Shaped l (s'.active l) (s'.stack (.loop l))
      rw [ha, hst]
      exact h.loop l
  · intro u f hf
    by_cases ht : Tid.user u = t
    · subst ht
      rw [Sys.push_self] at hf
      rcases List.mem_append.1 hf with hf | hf
      · refine ⟨(hg f hf).1, Bool.eq_false_iff.2 fun hh => ?_⟩
        obtain ⟨l, hl⟩ := (hg f hf).2 hh
        cases (hb _ hl).1
      · exact hb f hf
    · rw [Sys.push_of_ne _ ht] at hf
      exact h.user u f (hst ▸ hf)

/-- Plain frames pushed on a base. -/
theorem push_plain (h : Shape s) {r gs : List Frame} (hb : Base s t r) (hst : s'.stack = s.stack)
    (ha : s'.active = s.active) (hg : ∀ g ∈ gs, g.isLoop = false ∧ g.isHandler = false) :
    Shape (s'.push t (gs ++ r)) :=
  h.push hb hst ha fun g hgm => ⟨(hg g hgm).1, fun hh => by rw [(hg g hgm).2] at hh; cases hh⟩

/-- Nothing is pushed. -/
theorem pop (h : Shape s) {r : List Frame} (hb : Base s t r) (hst : s'.stack = s.stack)
    (ha : s'.active = s.active) : Shape (s'.push t r) :=
  h.push_plain hb hst ha (fun _ hg => absurd hg List.not_mem_nil)

/-- The loop's own frame is exchanged. -/
theorem exchange (h : Shape s) {l : LoopId} {fs : List Frame} {act : List ChanId}
    (hst : s'.stack = s.stack) (ha : s'.active = Function.update s.active l act)
    (hfs : Shaped l act fs) : Shape (s'.push (.loop l) fs) := by
  constructor
  · intro l'
    show Shaped l' (s'.active l') _
    rw [ha]
    by_cases hl : l' = l
    · subst hl
      rw [Sys.push_self, Function.update_self]
      exact hfs
    · rw [Sys.push_of_ne _ fun hh => hl (by cases hh; rfl), Function.update_of_ne hl, hst]
      exact h.loop l'
  · intro u f hf
    have hne : Tid.user u ≠ .loop l := nofun
    rw [Sys.push_of_ne _ hne, hst] at hf
    exact h.user u f hf

/-- Neither the stacks nor the active lists change. -/
theorem same (h : Shape s) (hst : s'.stack = s.stack) (ha : s'.active = s.active) : Shape s' :=
  ⟨fun l => by rw [hst, ha]; exact h.loop l, fun u => by rw [hst]; exact h.user u⟩

theorem plain_status {c : ConnId} {f : Frame} (h : f ∈ statusFrames c s) :
    f.isLoop = false ∧ f.isHandler = false := by
  rw [mem_statusFrames h]
  exact ⟨rfl, rfl⟩

/-- **Every effect keeps the shape.** -/
theorem effect (h : Shape s) (hS : Sound cfg d s) (he : Effect cfg d t s s') : Shape s' := by
  cases he with
  | @poll l r evs hs hp =>
    obtain rfl : t = .loop l := hS.loop_thread hs
    have := h.loop l
    rw [hs] at this
    obtain ⟨rfl, -⟩ := this.of_poll
    exact h.exchange rfl rfl .dispatch
  | @dispatch l r i is hs ha =>
    obtain rfl : t = .loop l := hS.loop_thread hs
    have := h.loop l
    rw [hs] at this
    obtain rfl := this.of_dispatch
    exact h.exchange rfl rfl (Shaped.dispatch.cons rfl (fun _ => List.mem_singleton_self _) (by simp))
  | @dispatched l r hs ha =>
    obtain rfl : t = .loop l := hS.loop_thread hs
    have := h.loop l
    rw [hs] at this
    obtain rfl := this.of_dispatch
    exact h.exchange rfl rfl (.tasks rfl)
  | idle hs hq =>
    obtain ⟨rfl, rfl, ha⟩ := h.of_tasks hS hs
    exact h.exchange rfl (by rw [← ha, Function.update_eq_self]) (.poll rfl)
  | finish hr hg =>
    exact h.push (h.base_rest hS hr) rfl rfl fun g hgm =>
      ⟨Frame.isLoop_of_light (hg g hgm).1, fun hh => ((hg g hgm).2.2 hh).1⟩
  | establish hs hq ht ho =>
    exact h.push_plain (h.base_task hS hs) rfl rfl fun g hg => plain_status hg
  | @close r c p hr he ht hc ho =>
    rw [List.append_cons]
    refine h.push_plain (h.base_rest hS hr) rfl rfl fun g hg => ?_
    rcases List.mem_append.1 hg with hg | hg
    · exact plain_status hg
    · rw [List.mem_singleton.1 hg]
      exact ⟨rfl, rfl⟩
  | sendFailed hs hq ht hd ho =>
    rw [List.append_cons]
    refine h.push_plain (h.base_task hS hs) rfl rfl fun g hg => ?_
    rcases List.mem_append.1 hg with hg | hg
    · exact plain_status hg
    · rw [List.mem_singleton.1 hg]
      exact ⟨rfl, rfl⟩
  | handOver hs ho => exact h.pop (h.of_stack hs rfl).1 rfl rfl
  | unlink hs ho ht => exact h.pop (h.of_stack hs rfl).1 rfl rfl
  | unlinkTaken hs hq ht => exact h.pop (h.base_task hS hs) rfl rfl
  | unlinkClient hs ho ht => exact h.pop (h.of_stack hs rfl).1 rfl rfl
  | destroyed hs hq ht ho => exact h.pop (h.base_task hS hs) rfl rfl
  | connect hr hs =>
    rw [← List.singleton_append]
    refine h.push_plain (h.base_rest hS hr) rfl rfl fun g hg => ?_
    rw [List.mem_singleton.1 hg]
    exact ⟨rfl, rfl⟩
  | connectQueued hs => exact h.pop (h.of_stack hs rfl).1 rfl rfl
  | attempt hs ht hf hn ho =>
    obtain ⟨hb, hst, ha⟩ := h.base_start hS hs
    exact h.pop hb hst ha
  | attemptFailed hs =>
    obtain ⟨hb, hst, ha⟩ := h.base_start hS hs
    exact h.pop hb hst ha
  | handled hs hg =>
    obtain ⟨hb, hd⟩ := h.of_stack hs rfl
    refine h.push hb rfl rfl fun g hgm => ?_
    rcases hg with rfl | rfl
    · exact absurd hgm List.not_mem_nil
    · rw [List.mem_singleton.1 hgm]
      exact ⟨rfl, fun _ => hd rfl⟩
  | removeChannel hs ht hk ho hp =>
    obtain ⟨hb, hd⟩ := h.of_stack hs rfl
    rw [← List.singleton_append]
    refine h.push hb rfl rfl fun g hg => ?_
    rw [List.mem_singleton.1 hg]
    exact ⟨rfl, fun _ => hd rfl⟩
  | retry hs hf => exact h.pop (h.of_stack hs rfl).1 rfl rfl
  | newConnection hs hc ht ho =>
    refine h.push_plain (h.of_stack hs rfl).1 rfl rfl fun g hg => ?_
    split at hg <;> simp at hg
    rw [hg]
    exact ⟨rfl, rfl⟩
  | reset hs hq => exact h.pop (h.base_task hS hs) rfl rfl
  | dequeue | enqueue | conn | events | sendQueued | sendTaken | shutTaken | accept | openFd | closeFd
  | destroy | hold | start | initPool | stop => exact h.same rfl rfl

end Shape

end Liang.Net
