import NetworkPoller.Net.Proof.Minor
import NetworkPoller.Net.Proof.Connector

/-!
# The rounds of a loop

`Loop` polls, calls `HandleEvent` on every channel reported and runs one functor, over and over,
while the other threads queue functors and the callbacks run user code. `loopEvAt` is what a run
shows of it. `rounds`: it is a sequence of rounds, none of them out of order. `Turns`:
`RunTaskFuncs` takes one functor a round, so a functor waits as many rounds as there are functors
ahead of it, whatever is queued meanwhile.
-/

namespace Liang.Net

open TcpConnection

variable {cfg : Cfg} {d : Discipline} {s s' s₀ s₁ : Sys} {t : Tid} {l : LoopId} {inp : Input}
  {f : Frame} {r gs : List Frame} {a : Act}

/-- `Poll` has reported channels, `HandleEvent` is called on one, or `RunTaskFuncs` runs a functor
or finds none. -/
inductive LoopEv
  | polled (reported : List ChanId)
  | handled (i : ChanId)
  | ran (k : Option Task)
  deriving DecidableEq, Repr

/-- What running the frame shows of the loop `l`. -/
def Frame.loopEv (l : LoopId) (inp : Input) (s : Sys) : Frame → List LoopEv
  | .loopPoll l' =>
    if l' = l then
      match inp with
      | .poll evs => [.polled (activeChannels (s.pollers l) evs)]
      | _ => []
    else []
  | .loopDispatch l' => if l' = l then ((s.active l).take 1).map .handled else []
  | .loopTasks l' => if l' = l then [.ran (s.queue l).head?] else []
  | _ => []

def loopEvAt (l : LoopId) (s : Sys) : Act → List LoopEv
  | .thread t inp =>
    match s.stack t with
    | f :: _ => f.loopEv l inp s
    | [] => []
  | _ => []

/-- One time around: no channel is reported twice. -/
structure Round where
  reported : List ChanId
  ran : Option Task
  nodup : reported.Nodup

/-- `HandleEvent` is called once on every channel reported, in the order of the report. -/
def Round.events (r : Round) : List LoopEv :=
  .polled r.reported :: r.reported.map .handled ++ [.ran r.ran]

/-! ## Within a round -/

/-- The loop's own frames on the stack of its thread. -/
def Sys.loopFrames (s : Sys) (l : LoopId) : List Frame := (s.stack (.loop l)).filter Frame.isLoop

/-- What the loop has shown since its last round. -/
inductive InRound (l : LoopId) (s : Sys) : List LoopEv → Prop
  | before (hf : s.loopFrames l = [] ∨ s.loopFrames l = [.loopPoll l]) : InRound l s []
  | dispatching {is done : List ChanId} (hf : s.loopFrames l = [.loopDispatch l]) (hn : is.Nodup)
      (h : done ++ s.active l = is) : InRound l s (.polled is :: done.map .handled)
  | dispatched {is : List ChanId} (hf : s.loopFrames l = [.loopTasks l]) (hn : is.Nodup) :
      InRound l s (.polled is :: is.map .handled)

/-- The beginning of a round. -/
def Begun (cur : List LoopEv) : Prop := ∃ r : Round, cur <+: r.events

theorem begun_nil : Begun [] := ⟨⟨[], none, .nil⟩, List.nil_prefix⟩

theorem begun_cons {is done todo : List ChanId} (hn : is.Nodup) (h : done ++ todo = is) :
    Begun (.polled is :: done.map .handled) := by
  refine ⟨⟨is, none, hn⟩, todo.map .handled ++ [.ran none], ?_⟩
  simp [Round.events, ← h]

namespace InRound

variable {cur : List LoopEv}

theorem begun (h : InRound l s cur) : Begun cur := by
  cases h with
  | before => exact begun_nil
  | dispatching _ hn h => exact begun_cons hn h
  | dispatched _ hn => exact begun_cons hn (List.append_nil _)

theorem congr (h : InRound l s cur) (hf : s'.loopFrames l = s.loopFrames l)
    (ha : s'.active l = s.active l) : InRound l s' cur := by
  cases h with
  | before h => exact .before (by rwa [hf])
  | dispatching h hn hd => exact .dispatching (hf.trans h) hn (by rwa [ha])
  | dispatched h hn => exact .dispatched (hf.trans h) hn

end InRound

/-! ## One step -/

theorem Frame.loopEv_of_not_loop (hf : f.isLoop = false) : f.loopEv l inp s = [] := by
  cases f with
  | loopPoll | loopDispatch | loopTasks => cases hf
  | _ => rfl

theorem filter_isLoop (hg : gs.any Frame.isLoop = false) : gs.filter Frame.isLoop = [] :=
  List.filter_eq_nil_iff.2 fun g hm => List.any_eq_false.1 hg g hm

theorem loopFrames_push (hs : s.stack t = f :: r) (hst : s₁.stack = s.stack) (hf : f.isLoop = false)
    (hg : gs.any Frame.isLoop = false) : (s₁.push t (gs ++ r)).loopFrames l = s.loopFrames l := by
  unfold Sys.loopFrames
  by_cases ht : Tid.loop l = t
  · rw [ht, Sys.push_self, hs, List.filter_append, filter_isLoop hg,
      List.filter_cons_of_neg (by simp [hf])]
    rfl
  · rw [Sys.push_of_ne _ ht, hst]

/-- The frame of the loop is all there is on the stack. -/
theorem Inv.loop_top {l' : LoopId} (hI : Inv cfg d s) (hs : s.stack t = f :: r)
    (hf : f = .loopPoll l' ∨ f = .loopDispatch l' ∨ f = .loopTasks l') :
    t = .loop l' ∧ r = [] ∧ s.loopFrames l' = [f] := by
  have ht : t = .loop l' := by rcases hf with rfl | rfl | rfl <;> exact hI.sound.loop_thread hs
  subst ht
  have hsh := hI.shape.loop l'
  rw [hs] at hsh
  obtain rfl : r = [] := by
    rcases hf with rfl | rfl | rfl
    · exact hsh.of_poll.1
    · exact hsh.of_dispatch
    · exact hsh.of_tasks.1
  refine ⟨rfl, rfl, ?_⟩
  rw [Sys.loopFrames, hs]
  rcases hf with rfl | rfl | rfl <;> rfl

/-- `L` continues the round `cur`, perhaps to its end. -/
def Continues (l : LoopId) (s' : Sys) (cur ev : List LoopEv) : Prop :=
  ∃ (rs : List Round) (cur' : List LoopEv), cur ++ ev = rs.flatMap Round.events ++ cur' ∧
    Begun cur' ∧ (s'.failed = none → InRound l s' cur')

theorem Continues.of_inRound {cur ev : List LoopEv} (h : InRound l s' (cur ++ ev)) :
    Continues l s' cur ev := ⟨[], cur ++ ev, rfl, h.begun, fun _ => h⟩

/-- The loop shows nothing. -/
theorem Continues.same {cur : List LoopEv} (h : InRound l s cur)
    (hf : s'.loopFrames l = s.loopFrames l)
    (ha : s'.active l = s.active l) : Continues l s' cur [] :=
  .of_inRound (by rw [List.append_nil]; exact h.congr hf ha)

/-- `RunTaskFuncs` ends the round. -/
theorem Continues.ran {cur : List LoopEv} {k : Option Task} (h : InRound l s cur)
    (ht : s.loopFrames l = [.loopTasks l]) (hs : s'.failed = none → s'.loopFrames l = [.loopPoll l]) :
    Continues l s' cur [.ran k] := by
  cases h with
  | before hf => rcases hf with hf | hf <;> rw [ht] at hf <;> cases hf
  | dispatching hf => rw [ht] at hf; cases hf
  | @dispatched is _ hn =>
    refine ⟨[⟨is, k, hn⟩], [], by simp [Round.events], begun_nil, ?_⟩
    exact fun hfail => .before (.inr (hs hfail))

/-- A frame of the loop has run. -/
theorem Continues.loop {cur : List LoopEv} (hI : Inv cfg d s) (h : InRound l s cur)
    (hs : s.stack t = f :: r) (hf : f = .loopPoll l ∨ f = .loopDispatch l ∨ f = .loopTasks l)
    (hx : exec cfg t inp s f = .ok s₁ gs) :
    Continues l (s₁.push t (gs ++ r)) cur (f.loopEv l inp s) := by
  obtain ⟨rfl, rfl, hfr⟩ := hI.loop_top hs hf
  have hpush {fs : List Frame} : (s₁.push (.loop l) fs).loopFrames l = fs.filter Frame.isLoop := by
    rw [Sys.loopFrames, Sys.push_self]
  rcases hf with rfl | rfl | rfl
  · obtain ⟨-, evs, rfl, hc, rfl, rfl⟩ := loopPoll_ok hx
    cases h with
    | before =>
      simp only [Frame.loopEv, if_true]
      have hn : (activeChannels (s.pollers l) evs).Nodup := activeChannels_nodup (hI.sound.books l) hc
      have hd : [] ++ ((s.poll l evs).push (.loop l) [.loopDispatch l]).active l =
          activeChannels (s.pollers l) evs := Function.update_self ..
      exact .of_inRound (.dispatching hpush hn hd)
    | dispatching hf => rw [hfr] at hf; cases hf
    | dispatched hf => rw [hfr] at hf; cases hf
  · cases h with
    | before hf => rcases hf with hf | hf <;> rw [hfr] at hf <;> cases hf
    | dispatched hf => rw [hfr] at hf; cases hf
    | @dispatching is done hf hn hd =>
      simp only [Frame.loopEv, if_true]
      rcases loopDispatch_ok hx with ⟨ha, rfl, rfl⟩ | ⟨i, is', ha, rfl, rfl⟩
      · obtain rfl : done = is := by rw [← hd, ha, List.append_nil]
        rw [ha, List.take_nil, List.map_nil]
        refine .of_inRound ?_
        simp only [List.append_nil]
        exact .dispatched hpush hn
      · rw [ha]
        refine .of_inRound ?_
        rw [show (LoopEv.polled is :: done.map .handled) ++ ((i :: is').take 1).map .handled =
          .polled is :: (done ++ [i]).map .handled by simp]
        refine .dispatching hpush hn ?_
        show (done ++ [i]) ++ (Function.update s.active l is') l = is
        rw [Function.update_self, ← hd, ha, List.append_assoc, List.singleton_append]
  · simp only [Frame.loopEv, if_true]
    refine .ran h hfr fun _ => hpush.trans ?_
    rcases loopTasks_ok hx with ⟨-, -, rfl⟩ | ⟨k, ks, gs', -, -, rfl, hg⟩
    · rfl
    · rw [List.append_nil, List.filter_append, filter_isLoop hg]
      rfl

/-- What is not a step of the loop's own thread leaves its stack and its active list alone, and
shows nothing of it. -/
theorem step_elsewhere (hI : Inv cfg d s) (ha : ∀ inp, a ≠ .thread (.loop l) inp)
    (hst : step cfg s a = some s') :
    s'.stack (.loop l) = s.stack (.loop l) ∧ s'.active l = s.active l ∧ loopEvAt l s a = [] := by
  have hev {t : Tid} {f : Frame} {r : List Frame} (inp : Input) (hs : s.stack t = f :: r)
      (ht : t ≠ .loop l) : f ≠ .loopPoll l ∧ f ≠ .loopDispatch l ∧ f.loopEv l inp s = [] := by
    have hne : ∀ l', f = .loopPoll l' ∨ f = .loopDispatch l' ∨ f = .loopTasks l' → l' ≠ l := by
      rintro l' hf rfl
      exact ht (hI.loop_top hs hf).1
    refine ⟨fun h => hne l (.inl h) rfl, fun h => hne l (.inr (.inl h)) rfl, ?_⟩
    cases f with
    | loopPoll l' => exact if_neg (hne l' (.inl rfl))
    | loopDispatch l' => exact if_neg (hne l' (.inr (.inl rfl)))
    | loopTasks l' => exact if_neg (hne l' (.inr (.inr rfl)))
    | _ => rfl
  rcases step_cases hst with ⟨t, inp, f, r, gs, s₁, rfl, hs, hx, rfl⟩ |
    ⟨t, inp, f, r, e, rfl, hs, hx, rfl⟩ | ⟨c', rfl, -, -, rfl⟩ | ⟨n, rfl, -, rfl⟩ | ⟨n, rfl, -, rfl⟩
  · have ht : t ≠ .loop l := fun h => ha inp (by rw [h])
    obtain ⟨h1, h2, h3⟩ := hev inp hs ht
    obtain ⟨hstack, hactive⟩ := exec_keeps hI.sound.pristine hx
    refine ⟨?_, hactive l h1 h2, by simp only [loopEvAt, hs, h3]⟩
    rw [Sys.push_of_ne _ (Ne.symm ht), hstack]
  · have ht : t ≠ .loop l := fun h => ha inp (by rw [h])
    exact ⟨rfl, rfl, by simp only [loopEvAt, hs, (hev inp hs ht).2.2]⟩
  all_goals exact ⟨rfl, rfl, rfl⟩

/-- The frames of the loop. -/
theorem Frame.isLoop_iff :
    f.isLoop = true ↔ ∃ l, f = .loopPoll l ∨ f = .loopDispatch l ∨ f = .loopTasks l := by
  cases f <;> simp [Frame.isLoop]

/-- A frame of a loop is its own thread's. -/
theorem Inv.isLoop (hI : Inv cfg d s) (hs : s.stack (.loop l) = f :: r) (hf : f.isLoop = true) :
    f = .loopPoll l ∨ f = .loopDispatch l ∨ f = .loopTasks l := by
  obtain ⟨l', hf⟩ := Frame.isLoop_iff.1 hf
  obtain ⟨ht, -⟩ := hI.loop_top hs hf
  cases ht
  exact hf

/-- **Every step keeps to the round.** -/
theorem step_continues {cur : List LoopEv} (hI : Inv cfg d s) (h : InRound l s cur)
    (hst : step cfg s a = some s') : Continues l s' cur (loopEvAt l s a) := by
  by_cases ha : ∃ inp, a = .thread (.loop l) inp
  swap
  · obtain ⟨h1, h2, h3⟩ := step_elsewhere hI (fun inp e => ha ⟨inp, e⟩) hst
    rw [h3]
    exact .same h (by rw [Sys.loopFrames, Sys.loopFrames, h1]) h2
  obtain ⟨inp, rfl⟩ := ha
  rcases step_cases hst with ⟨t, inp, f, r, gs, s₁, ha, hs, hx, rfl⟩ |
    ⟨t, inp, f, r, e, ha, hs, hx, rfl⟩ | ⟨c', ha, -⟩ | ⟨n, ha, -⟩ | ⟨n, ha, -⟩
  all_goals cases ha
  · simp only [loopEvAt, hs]
    cases hf : f.isLoop with
    | true => exact .loop hI h hs (hI.isLoop hs hf) hx
    | false =>
      obtain ⟨-, hg⟩ := exec_minor hI.sound.pristine hf _ _ hx
      obtain ⟨hstack, hactive⟩ := exec_keeps hI.sound.pristine hx
      rw [Frame.loopEv_of_not_loop hf]
      refine .same h (loopFrames_push hs hstack hf hg) (hactive l ?_ ?_)
      all_goals
        rintro rfl
        cases hf
  · simp only [loopEvAt, hs]
    cases hf : f.isLoop with
    | true =>
      -- of the loop's frames only a functor can fail
      obtain rfl | rfl | rfl := hI.isLoop hs hf
      · simp only [exec, Res.assert, if_true] at hx
        split at hx
        · split at hx <;> cases hx
        · cases hx
      · simp only [exec] at hx
        split at hx <;> cases hx
      · obtain ⟨-, -, hfr⟩ := hI.loop_top hs (.inr (.inr rfl))
        simp only [Frame.loopEv, if_true]
        exact .ran h hfr fun h => (Option.some_ne_none _ h).elim
    | false =>
      rw [Frame.loopEv_of_not_loop hf]
      exact .same h rfl rfl

/-! ## Every run -/

/-- **The loop goes round.** In every run, what a loop has done is the beginning of a sequence of
rounds: it polls, calls `HandleEvent` once on each of the channels reported, in their order, each of
them reported once, and then runs at most one functor, before it polls again. -/
theorem rounds {P : Sys → Act → Prop} {L : List LoopEv}
    (h : Runs.Logged (step cfg) P (loopEvAt l) (Sys.init cfg) L s) :
    ∃ rs : List Round, L <+: rs.flatMap Round.events := by
  suffices hsuf : ∃ (rs : List Round) (cur : List LoopEv), L = rs.flatMap Round.events ++ cur ∧
      Begun cur ∧ (s.failed = none → InRound l s cur) by
    obtain ⟨rs, cur, rfl, ⟨r, hr⟩, -⟩ := hsuf
    refine ⟨rs ++ [r], ?_⟩
    rw [List.flatMap_append, List.flatMap_singleton]
    exact List.prefix_append_right_inj _ |>.2 hr
  refine h.inv (I := fun L s => ∃ (rs : List Round) (cur : List LoopEv),
    L = rs.flatMap Round.events ++ cur ∧
    Begun cur ∧ (s.failed = none → InRound l s cur)) ⟨[], [], rfl, begun_nil, fun _ => .before ?_⟩ ?_
  · simp only [Sys.loopFrames, Sys.init]
    split
    · exact .inr rfl
    · exact .inl rfl
  · rintro L s a s' hr ⟨rs, cur, rfl, -, hin⟩ - hst
    obtain ⟨rs', cur', heq, hb, hin'⟩ :=
      step_continues (Inv.any hr) (hin (running_of_step hst)) hst
    exact ⟨rs ++ rs', cur', by rw [List.append_assoc, heq, List.flatMap_append, List.append_assoc],
      hb, hin'⟩

/-- The loop of the sample server starts to listen and accepts a connection. -/
theorem rounds_sample :
    Runs.log (step .sample) (loopEvAt 0) (Sys.init .sample) sampleStart =
        [.polled [], .ran (some .listen), .polled [.acceptor], .handled .acceptor,
          .ran (some (.connectEstablished sampleConn))] ∧
      ∃ rs : List Round, Runs.log (step .sample) (loopEvAt 0) (Sys.init .sample) sampleStart <+:
        rs.flatMap Round.events := by
  refine ⟨by decide +kernel, ?_⟩
  have hrun : (Runs.run (step .sample) (Sys.init .sample) sampleStart).isSome = true := by
    decide +kernel
  obtain ⟨s, hs⟩ := Option.isSome_iff_exists.1 hrun
  exact rounds (Runs.Logged.of_run (P := fun _ _ => True) _ hs
    (Runs.admits_of_forall (fun _ _ => trivial) _ _))

/-! ## Waiting for a round -/

/-- What `RunTaskFuncs` has run, round by round. -/
def runsOf (L : List LoopEv) : List (Option Task) := L.filterMap fun
  | .ran k => some k
  | _ => none

theorem runsOf_loopEv (hf : ∀ l', f ≠ .loopTasks l') : runsOf (f.loopEv l inp s) = [] := by
  cases f with
  | loopPoll l' =>
    simp only [Frame.loopEv]
    split
    · split <;> rfl
    · rfl
  | loopDispatch l' =>
    simp only [Frame.loopEv]
    split
    · cases s.active l <;> rfl
    · rfl
  | loopTasks l' => exact absurd rfl (hf l')
  | _ => rfl

/-- **A step of the queue**: functors are queued behind the others, or `RunTaskFuncs` takes the
first. -/
theorem step_queue (hI : Inv cfg d s) (hst : step cfg s a = some s') :
    (runsOf (loopEvAt l s a) = [] ∧ s.queue l <+: s'.queue l) ∨
      (runsOf (loopEvAt l s a) = [(s.queue l).head?] ∧
        (s'.failed = none → (s.queue l).tail <+: s'.queue l)) := by
  rcases step_cases hst with ⟨t, inp, f, r, gs, s₁, rfl, hs, hx, rfl⟩ |
    ⟨t, inp, f, r, e, rfl, hs, hx, rfl⟩ | ⟨c', rfl, -, -, rfl⟩ | ⟨n, rfl, -, rfl⟩ | ⟨n, rfl, -, rfl⟩
  · simp only [loopEvAt, hs]
    by_cases hf : ∃ l', f = .loopTasks l'
    · obtain ⟨l', rfl⟩ := hf
      obtain ⟨rfl, -, -⟩ := hI.loop_top hs (.inr (.inr rfl))
      show _ ∨ _ ∧ (_ → _ <+: s₁.queue l)
      by_cases hl : l' = l
      · subst hl
        simp only [Frame.loopEv, if_true]
        refine .inr ⟨rfl, fun _ => ?_⟩
        rcases loopTasks_ok hx with ⟨hq, rfl, -⟩ | ⟨k, ks, gs', hq, hm, -, -⟩
        · rw [hq]
          exact List.nil_prefix
        · have hk := hm.queue l'
          rw [Sys.dequeue_self] at hk
          rw [hq]
          exact hk
      · simp only [Frame.loopEv, if_neg hl]
        refine .inl ⟨rfl, ?_⟩
        rcases loopTasks_ok hx with ⟨-, rfl, -⟩ | ⟨k, ks, gs', -, hm, -, -⟩
        · exact List.prefix_refl _
        · have hk := hm.queue l
          rwa [Sys.dequeue_of_ne _ _ (Ne.symm hl)] at hk
    · refine .inl ⟨runsOf_loopEv fun l' h => hf ⟨l', h⟩, ?_⟩
      show s.queue l <+: s₁.queue l
      cases hloop : f.isLoop with
      | false =>
        have hm := (exec_minor hI.sound.pristine hloop _ _ hx).1.queue l
        rwa [Frame.fed_same.2.2] at hm
      | true =>
        obtain ⟨l', rfl | rfl | rfl⟩ := Frame.isLoop_iff.1 hloop
        · obtain ⟨-, evs, -, -, rfl, -⟩ := loopPoll_ok hx
          exact List.prefix_refl _
        · rcases loopDispatch_ok hx with ⟨-, rfl, -⟩ | ⟨i, is, -, rfl, -⟩
          all_goals exact List.prefix_refl _
        · exact absurd ⟨l', rfl⟩ hf
  · simp only [loopEvAt, hs]
    by_cases hf : ∃ l', f = .loopTasks l'
    · obtain ⟨l', rfl⟩ := hf
      by_cases hl : l' = l
      · simp only [Frame.loopEv, if_pos hl]
        exact .inr ⟨rfl, fun h => (Option.some_ne_none _ h).elim⟩
      · simp only [Frame.loopEv, if_neg hl]
        exact .inl ⟨rfl, List.prefix_refl _⟩
    · exact .inl ⟨runsOf_loopEv fun l' h => hf ⟨l', h⟩, List.prefix_refl _⟩
  all_goals exact .inl ⟨rfl, List.prefix_refl _⟩

/-- The rounds that ran `ran` have served the queue `q` from its front, and what is left of it is in
front still. -/
structure Turns (q : List Task) (l : LoopId) (ran : List (Option Task)) (s : Sys) : Prop where
  order : ∀ (n : Nat) (k : Task) (o : Option Task), q[n]? = some k → ran[n]? = some o → o = some k
  left : s.failed = none → q.drop ran.length <+: s.queue l

namespace Turns

variable {q : List Task} {ran : List (Option Task)}

/-- A round takes the first functor. -/
theorem next (h : Turns q l ran s) (hf : s.failed = none)
    (hq : s'.failed = none → (s.queue l).tail <+: s'.queue l) :
    Turns q l (ran ++ [(s.queue l).head?]) s' := by
  obtain ⟨rest, hrest⟩ := h.left hf
  refine ⟨fun n k o hk ho => ?_, fun hf' => ?_⟩
  · by_cases hn : n < ran.length
    · rw [List.getElem?_append_left hn] at ho
      exact h.order n k o hk ho
    · obtain rfl : n = ran.length := by
        have hlt := (List.getElem?_eq_some_iff.1 ho).1
        rw [List.length_append, List.length_singleton] at hlt
        omega
      rw [List.getElem?_concat_length, Option.some.injEq] at ho
      rw [← ho, ← hrest, List.head?_append, List.head?_drop, hk]
      rfl
  · rw [List.length_append, List.length_singleton, ← List.tail_drop]
    refine List.IsPrefix.trans ?_ (hq hf')
    rw [← hrest]
    cases q.drop ran.length with
    | nil => exact List.nil_prefix
    | cons x xs => exact List.prefix_append _ _

theorem step {L : List LoopEv} (hI : Inv cfg d s) (h : Turns q l (runsOf L) s)
    (hst : Net.step cfg s a = some s') : Turns q l (runsOf (L ++ loopEvAt l s a)) s' := by
  have hf := running_of_step hst
  have happ : runsOf (L ++ loopEvAt l s a) = runsOf L ++ runsOf (loopEvAt l s a) :=
    List.filterMap_append
  rw [happ]
  rcases step_queue (l := l) hI hst with ⟨hev, hq⟩ | ⟨hev, hq⟩
  · rw [hev, List.append_nil]
    exact ⟨h.order, fun _ => (h.left hf).trans hq⟩
  · rw [hev]
    exact h.next hf hq

/-- **No functor starves**: it waits as many rounds as there are functors ahead of it, whatever is
queued meanwhile. -/
theorem of_logged {P Q : Sys → Act → Prop} {L : List LoopEv}
    (h₀ : Runs.Reach (Net.step cfg) P (Sys.init cfg) s₀)
    (h : Runs.Logged (Net.step cfg) Q (loopEvAt l) s₀ L s) : Turns (s₀.queue l) l (runsOf L) s :=
  h.inv (I := fun L s => Turns (s₀.queue l) l (runsOf L) s)
    ⟨fun _ _ _ _ ho => (by simp [runsOf] at ho), fun _ => List.prefix_refl _⟩
    (fun _ _ _ _ hr hs _ hst => hs.step (Inv.any (h₀.join hr)) hst)

end Turns

end Liang.Net
