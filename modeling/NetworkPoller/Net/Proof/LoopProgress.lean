import NetworkPoller.Lib.Progress
import NetworkPoller.Net.Proof.Rounds

/-!
# A loop goes round

The thread of a loop never waits: for every frame there is an answer of the kernel and of user code
that brings nothing new (`Frame.answer`), and the frame runs on it (`exec_answer`). And it never
spins: `Frame.work` is what a frame costs with all that it leads to, so that a step of the thread
either lowers what there is to do (`exec_work`), or ends a round, or has been brought something:
channels that `Poll` reports, bytes that were read, a connection or an error from `accept`, a call
made by user code. `loop_progress` counts them; `functor_runs`: so the functor that has `n` others
ahead of it in the queue has been run, as the one of round `n`, once the thread has made so many
steps.
-/

namespace Liang.Net

open Base TcpConnection Runs

variable {cfg : Cfg} {d : Discipline} {s s' s₁ : Sys} {t : Tid} {c : ConnId} {l : LoopId}
  {k : ClientId} {inp : Input} {f : Frame} {r gs : List Frame} {a : Act} {n m : Nat}

/-! ## The cost of a frame -/

/-- The steps of a frame and of the frames it leads to, if nothing new comes in and up to the end of
the round. -/
def Frame.work : Frame → Nat
  | .loopPoll _ => 6
  | .loopDispatch _ => 5
  | .loopTasks _ => 4
  | .handleEvent _ => 11
  | .api _ => 4
  | .closeHandler _ | .readHandler _ | .writeHandler _ | .writeEventHandler _ | .runInLoop _ _ => 3
  | .writeEventRest _ _ | .forceCloseAgain _ => 2
  | _ => 1

def work (fs : List Frame) : Nat := (fs.map Frame.work).sum

@[simp] theorem work_nil : work [] = 0 := rfl

@[simp] theorem work_cons : work (f :: r) = f.work + work r := List.sum_cons

@[simp] theorem work_append : work (gs ++ r) = work gs + work r := by simp [work]

/-- What the thread of `l` has to do in this round. -/
def Sys.work (s : Sys) (l : LoopId) : Nat := Net.work (s.stack (.loop l)) + 12 * (s.active l).length

/-- Something new: bytes, a connection or an error from `accept`, a call of user code. -/
def Input.news : Input → Bool
  | .read (.data bytes) => !bytes.isEmpty
  | .fd (.ok _) | .call _ => true
  | .fd (.error e) => !(e == eAgain || e == eWouldBlock)
  | _ => false

/-- The frames the function leads to cost `n` at most. -/
def Res.Leads (n : Nat) (x : Res) : Prop := ∀ s' gs, x = .ok s' gs → work gs ≤ n

namespace Res.Leads

variable {x y : Res}

theorem ok (h : work gs ≤ n) : (Res.ok s gs).Leads n := fun _ _ he => by
  cases he
  exact h

theorem nil : (Res.ok s []).Leads n := .ok (Nat.zero_le n)

theorem disabled : Res.disabled.Leads n := fun _ _ he => by cases he

theorem mono (h : x.Leads n) (hn : n ≤ m) : x.Leads m := fun _ _ he => Nat.le_trans (h _ _ he) hn

theorem assert {p : Prop} [Decidable p] {e : Assert} (h : x.Leads n) : (Res.assert p e x).Leads n :=
  fun _ _ he => h _ _ (Res.assert_ok he).2

theorem ite {p : Prop} [Decidable p] (hx : x.Leads n) (hy : y.Leads n) :
    (if p then x else y).Leads n := by
  split
  · exact hx
  · exact hy

theorem bind {e : Except Assert Sys} {g : Sys → Res} (h : ∀ s, (g s).Leads n) :
    (Res.bind e g).Leads n :=
  fun _ _ he => by
    obtain ⟨s₁, -, he⟩ := Res.bind_ok he
    exact h s₁ _ _ he

theorem followedBy (h : x.Leads n) (hm : n + work gs ≤ m) : (x.followedBy gs).Leads m :=
  fun _ _ he => by
    obtain ⟨gs', he', rfl⟩ := Res.followedBy_ok he
    have := h _ _ he'
    rw [work_append]
    omega

end Res.Leads

theorem work_status : work (statusFrames c s) ≤ 1 := by
  unfold statusFrames
  split <;> simp [Frame.work]

theorem closeHandler_leads : (closeHandler cfg t c s).Leads 2 :=
  .assert (.bind fun _ => .ok (by simpa [Frame.work] using work_status))

theorem connectEstablished_leads : (connectEstablished cfg t c s).Leads 1 :=
  .assert (.bind fun _ => .ok work_status)

theorem connectDestoryed_leads : (connectDestoryed cfg t c s).Leads 2 :=
  .assert (.ite (.bind fun _ => .ok (by simpa [Frame.work] using work_status)) (.bind fun _ => .nil))

theorem shutdownInLoop_leads : (shutdownInLoop t c s).Leads 0 := .assert (.ite .nil .nil)

theorem writeHandler_leads : (writeHandler cfg t c inp s).Leads 2 := by
  refine .assert (.ite ?_ .nil)
  split
  · refine .ite (.ite (.ite (.bind fun s => .ok ?_) .nil) .nil) .disabled
    split <;> simp [Frame.work]
  · exact .nil
  · exact .disabled

theorem sendRemaining_leads {m : Msg} : (sendRemaining cfg t c m s).Leads 0 :=
  .ite (.ite .nil (.bind fun _ => .nil)) .nil

theorem sendInLoop_leads {T : Tid} {m : Msg} : (sendInLoop cfg t c T m inp s).Leads 2 := by
  have hrest {m : Msg} {s : Sys} : (sendRemaining cfg t c m s).Leads 2 :=
    sendRemaining_leads.mono (Nat.zero_le 2)
  refine .assert (.ite .nil (.ite ?_ hrest))
  split
  · exact .ite hrest .disabled
  · exact .ite closeHandler_leads hrest
  · exact .disabled

theorem shutdown_leads : (shutdown t c inp s).Leads 1 := by
  unfold shutdown
  split
  · exact .ite (.ok (by simp [Frame.work])) .nil
  · exact .disabled

theorem startInLoop_leads : (TcpConnector.startInLoop cfg t k inp s).Leads 0 := fun _ _ he => by
  obtain ⟨-, rfl, -⟩ := startInLoop_ok he
  exact Nat.le_refl 0

theorem task_leads {k : Task} : (k.run cfg t inp s).Leads 2 := by
  cases k with
  | connectEstablished c => exact connectEstablished_leads.mono (by decide)
  | connectDestoryed c => exact connectDestoryed_leads
  | sendInLoop c T m => exact sendInLoop_leads
  | startReadInLoop c => exact .assert (.ite .nil (.bind fun _ => .nil))
  | stopReadInLoop c => exact .assert (.ite (.bind fun _ => .nil) .nil)
  | shutdownInLoop c => exact shutdownInLoop_leads.mono (by decide)
  | forceCloseInLoop c => exact .assert (.ite closeHandler_leads .nil)
  | writtenCb c | highWaterCb c n | functor => exact .ok (by simp [Frame.work])
  | removeConnectionInLoop c => exact .assert .nil
  | listen => exact .assert (.bind fun _ => .nil)
  | connectorStart k => exact startInLoop_leads.mono (by decide)
  | connectorReset k | connectorStop k => exact .nil

theorem api_leads {a : Api} : (a.run cfg t inp s).Leads 3 := by
  cases a with
  | send c m => exact .ite (sendInLoop_leads.mono (by decide)) .nil
  | shutdown c => exact shutdown_leads.mono (by decide)
  | forceClose c =>
    simp only [Api.run, forceClose]
    split
    · exact .ite (.ok (by simp [Frame.work])) (.ok (by simp [Frame.work]))
    · exact .disabled
  | start =>
    simp only [Api.run, TcpServer.start]
    split
    · exact .ite (.ok (by simp [Frame.work])) .nil
    · exact .disabled
  | connect k =>
    simp only [Api.run, TcpConnector.start]
    split
    · exact .ite (.ok (by simp [Frame.work])) .nil
    · exact .disabled
  | disconnect k =>
    simp only [Api.run, TcpClient.disconnect]
    split
    · exact shutdown_leads.mono (by decide)
    · exact .nil
  | runInLoop l | queueInLoop l => exact .ok (by simp [Frame.work])
  | stop k => exact .ite .nil (.ok (by simp [Frame.work]))
  | buffer c op =>
    simp only [Api.run]
    split <;> exact .nil
  | startRead | stopRead | setCallbacks | swapBuffer | retain | release => exact .nil

theorem work_handleEvent (ev : Mask) (i : ChanId) : work (EventChannel.handleEvent ev i) ≤ 10 := by
  cases i with
  | acceptor | conn | connector =>
    simp only [EventChannel.handleEvent, EventChannel.callbacks, work_append]
    repeat' split
    all_goals simp [Frame.work]

/-- What news may add to the work. -/
def Input.credit (inp : Input) : Nat := if inp.news then 5 else 0

theorem readHandler_leads {rd : ReadRes} :
    (readHandler cfg t c rd s).Leads (2 + (Input.read rd).credit) := by
  refine .assert (.ite ?_ .disabled)
  dsimp only
  split
  · rename_i hpos
    -- only bytes make the handler go on
    have hnews : (Input.read rd).credit = 5 := by
      cases rd with
      | error e => cases hpos
      | data bytes =>
        cases bytes with
        | nil =>
          simp only [Buffer.readFromFD] at hpos
          split at hpos <;> cases hpos
        | cons => rfl
    rw [hnews]
    exact .ite (.ok (by simp [Frame.work])) (closeHandler_leads.mono (by decide))
  · refine Res.Leads.mono ?_ (Nat.le_add_right 2 _)
    exact .ite closeHandler_leads (.ite .nil (.ok (by simp [Frame.work])))

theorem acceptHandle_leads : (TcpAcceptor.acceptHandle cfg t inp s).Leads inp.credit := by
  refine .assert ?_
  split
  · refine .ite (.followedBy (n := 0) (.assert .nil) ?_) .disabled
    simp [Frame.work, Input.credit, Input.news]
  · split
    · exact .nil
    · refine .ok ?_
      simp_all [Frame.work, Input.credit, Input.news]
  · exact .disabled

/-- **Every frame leads to less than itself**, but for news. -/
theorem exec_work (hf : f.isLoop = false) (hx : exec cfg t inp s f = .ok s' gs) :
    work gs + 1 ≤ f.work + inp.credit := by
  have hle {n : Nat} (hn : n + 1 ≤ f.work) (h : (exec cfg t inp s f).Leads n) :
      work gs + 1 ≤ f.work + inp.credit := by
    have := h _ _ hx
    omega
  cases f with
  | loopPoll l | loopDispatch l | loopTasks l => cases hf
  | taskDone k | errorHandler c | startPool | queueInLoop l k
  | closeIdle => exact hle (Nat.le_refl 1) .nil
  | user c? =>
    simp only [exec] at hx
    split at hx
    · split at hx
      · cases hx
        simp [Frame.work, Input.credit, Input.news]
      · cases hx
    · cases hx
      simp [Frame.work]
    · cases hx
  | api a => exact hle (Nat.le_refl 4) api_leads
  | forceCloseAgain c =>
    refine hle (Nat.le_refl 2) ?_
    simp only [exec, forceCloseAgain]
    split
    · exact .ite (.ok (by simp [Frame.work])) .nil
    · exact .disabled
  | runInLoop l k => exact hle (Nat.le_refl 3) (.ite task_leads .nil)
  | handleEvent i => exact hle (Nat.le_refl 11) (.ok (work_handleEvent _ i))
  | closeHandler c => exact hle (Nat.le_refl 3) closeHandler_leads
  | readHandler c =>
    cases inp with
    | read rd =>
      have := readHandler_leads _ _ hx
      simp only [Frame.work]
      omega
    | _ => cases hx
  | writeHandler c => exact hle (Nat.le_refl 3) writeHandler_leads
  | writeHandlerRest c => exact hle (Nat.le_refl 1) (.ite shutdownInLoop_leads .nil)
  | closeCb c =>
    refine hle (Nat.le_refl 1) ?_
    simp only [exec]
    split
    · exact .ite (.assert .nil) .nil
    · exact .assert (.assert .nil)
  | destoryedRest c => exact hle (Nat.le_refl 1) (.bind fun _ => .nil)
  | acceptHandle =>
    have := acceptHandle_leads _ _ hx
    simp only [Frame.work]
    omega
  | reAccept | reOpen =>
    refine hle (Nat.le_refl 1) ?_
    simp only [exec, TcpAcceptor.dropNewFd]
    split
    · exact .ite .nil .disabled
    · exact .nil
    · exact .disabled
  | connectorRun k => exact hle (Nat.le_refl 1) (.ite startInLoop_leads .nil)
  | writeEventHandler k =>
    refine hle (Nat.le_refl 3) fun _ _ he => ?_
    obtain ⟨-, n, fd, p, p', -, -, -, rfl, -⟩ := writeEventHandler_ok he
    simp [Frame.work]
  | writeEventRest k fd =>
    refine hle (Nat.le_refl 2) fun _ _ he => ?_
    rcases writeEventRest_ok he with ⟨e, -, -, rfl, -⟩ | ⟨-, -, p, -, rfl, -⟩
    · exact Nat.zero_le _
    · split <;> simp [Frame.work]

theorem loopTasks_leads : (exec cfg t inp s (.loopTasks l)).Leads 9 := by
  simp only [exec]
  split
  · exact .ok (by simp [Frame.work])
  · exact .followedBy task_leads (by simp [Frame.work])

/-! ## Nothing is waited for -/

/-- The functor runs on this, which is nothing new. -/
def Task.answer : Task → Input
  | .sendInLoop _ _ _ => .write (.error eAgain)
  | .connectorStart _ => .connect none (some eBadf) 0
  | _ => .none

def Api.answer : Api → Input
  | .send _ _ => .write (.error eAgain)
  | .shutdown _ | .forceClose _ | .start | .connect _ | .disconnect _ => .cas true
  | _ => .none

/-- Nothing new: the kernel has nothing to give, and user code returns. -/
def Frame.answer (s : Sys) : Frame → Input
  | .loopPoll _ => .poll []
  | .loopTasks l => ((s.queue l).head?.map Task.answer).getD .none
  | .user _ => .ret
  | .api a => a.answer
  | .forceCloseAgain _ => .cas true
  | .runInLoop _ k => k.answer
  | .readHandler _ => .read (.error eAgain)
  | .writeHandler _ => .write (.error eAgain)
  | .acceptHandle | .reAccept | .reOpen => .fd (.error eAgain)
  | .connectorRun _ => .connect none (some eBadf) 0
  | .writeEventRest _ _ => .soError 1
  | _ => .none

theorem answer_not_news : (f.answer s).news = false := by
  cases f with
  | loopTasks l =>
    simp only [Frame.answer]
    cases s.queue l with
    | nil => rfl
    | cons k ks => cases k <;> rfl
  | api a => cases a <;> rfl
  | runInLoop l k => cases k <;> rfl
  | _ => rfl

/-- The function does not wait for another input. -/
def Res.Enabled (x : Res) : Prop := x ≠ .disabled

namespace Res.Enabled

variable {x y : Res}

theorem ok : (Res.ok s gs).Enabled := nofun

theorem fail {e : Assert} : (Res.fail e).Enabled := nofun

theorem assert {p : Prop} [Decidable p] {e : Assert} (h : x.Enabled) : (Res.assert p e x).Enabled := by
  unfold Res.assert
  split
  · exact h
  · exact fail

theorem ite {p : Prop} [Decidable p] (hx : x.Enabled) (hy : y.Enabled) :
    (if p then x else y).Enabled := by
  split
  · exact hx
  · exact hy

theorem bind {e : Except Assert Sys} {g : Sys → Res} (h : ∀ s, (g s).Enabled) :
    (Res.bind e g).Enabled := by
  cases e with
  | ok s => exact h s
  | error e => exact fail

theorem followedBy (h : x.Enabled) : (x.followedBy gs).Enabled := by
  cases x with
  | disabled => exact absurd rfl h
  | ok | fail => nofun

end Res.Enabled

theorem closeHandler_enabled : (closeHandler cfg t c s).Enabled := .assert (.bind fun _ => .ok)

theorem sendRemaining_enabled {m : Msg} : (sendRemaining cfg t c m s).Enabled :=
  .ite (.ite .ok (.bind fun _ => .ok)) .ok

theorem sendInLoop_enabled {T : Tid} {m : Msg} :
    (sendInLoop cfg t c T m (.write (.error eAgain)) s).Enabled :=
  .assert (.ite .ok (.ite (.ite closeHandler_enabled sendRemaining_enabled) sendRemaining_enabled))

theorem startInLoop_enabled :
    (TcpConnector.startInLoop cfg t k (.connect none (some eBadf) 0) s).Enabled :=
  .assert (.assert .ok)

theorem shutdown_enabled : (shutdown t c (.cas true) s).Enabled := by
  unfold shutdown
  exact .ite .ok .ok

theorem task_enabled {k : Task} : (k.run cfg t k.answer s).Enabled := by
  cases k with
  | connectEstablished c => exact .assert (.bind fun _ => .ok)
  | connectDestoryed c => exact .assert (.ite (.bind fun _ => .ok) (.bind fun _ => .ok))
  | sendInLoop c T m => exact sendInLoop_enabled
  | startReadInLoop c => exact .assert (.ite .ok (.bind fun _ => .ok))
  | stopReadInLoop c => exact .assert (.ite (.bind fun _ => .ok) .ok)
  | shutdownInLoop c => exact .assert (.ite .ok .ok)
  | forceCloseInLoop c => exact .assert (.ite closeHandler_enabled .ok)
  | removeConnectionInLoop c => exact .assert .ok
  | listen => exact .assert (.bind fun _ => .ok)
  | connectorStart k => exact startInLoop_enabled
  | writtenCb | highWaterCb | functor | connectorReset | connectorStop => exact .ok

theorem api_enabled {a : Api} : (a.run cfg t a.answer s).Enabled := by
  cases a with
  | send c m => exact .ite sendInLoop_enabled .ok
  | shutdown c => exact shutdown_enabled (t := t) (c := c)
  | forceClose c =>
    simp only [Api.run, Api.answer, forceClose]
    exact .ite .ok .ok
  | start =>
    simp only [Api.run, Api.answer, TcpServer.start]
    exact .ite .ok .ok
  | connect k =>
    simp only [Api.run, Api.answer, TcpConnector.start]
    exact .ite .ok .ok
  | disconnect k =>
    simp only [Api.run, TcpClient.disconnect]
    split
    · exact shutdown_enabled
    · exact .ok
  | stop k => exact .ite .ok .ok
  | buffer c op =>
    simp only [Api.run]
    split <;> exact .ok
  | startRead | stopRead | setCallbacks | swapBuffer | retain | release | runInLoop
  | queueInLoop => exact .ok

/-- **Every frame runs on its answer.** -/
theorem exec_answer : (exec cfg t (f.answer s) s f).Enabled := by
  cases f with
  | loopPoll l => exact .assert .ok
  | loopDispatch l =>
    simp only [exec]
    split <;> exact .ok
  | loopTasks l =>
    simp only [exec, Frame.answer]
    cases s.queue l with
    | nil => exact .ok
    | cons k ks => exact .followedBy task_enabled
  | api a => exact api_enabled
  | forceCloseAgain c =>
    simp only [exec, Frame.answer, forceCloseAgain]
    exact .ite .ok .ok
  | runInLoop l k => exact .ite task_enabled .ok
  | closeHandler c => exact closeHandler_enabled
  | readHandler c =>
    refine .assert ?_
    rw [if_pos (show canRead _ (.error eAgain) = true from rfl)]
    exact .ite (.ite .ok closeHandler_enabled) (.ite closeHandler_enabled (.ite .ok .ok))
  | writeHandler c => exact .assert (.ite .ok .ok)
  | writeHandlerRest c => exact .ite (.assert (.ite .ok .ok)) .ok
  | closeCb c =>
    simp only [exec]
    split
    · exact .ite (.assert .ok) .ok
    · exact .assert (.assert .ok)
  | destoryedRest c => exact .bind fun _ => .ok
  | acceptHandle => exact .assert (.ite .ok .ok)
  | connectorRun k => exact .ite startInLoop_enabled .ok
  | writeEventHandler k =>
    refine .assert ?_
    split
    · exact .fail
    · exact .bind fun _ => .bind fun _ => .ok
  | writeEventRest k fd => exact .ok
  | taskDone | user | startPool | queueInLoop | handleEvent | errorHandler | closeIdle | reAccept
  | reOpen => exact .ok

/-! ## A step of the loop's own thread -/

def Act.own (l : LoopId) : Act → Bool
  | .thread t _ => t == .loop l
  | _ => false

/-- The step brings news into the loop. -/
def Act.news (l : LoopId) : Act → Bool
  | .thread t inp => t == .loop l && inp.news
  | _ => false

/-- What it may add to the work. -/
def Act.gain (l : LoopId) : Act → Nat
  | .thread t inp => if t = .loop l then inp.credit else 0
  | _ => 0

/-- The end of a round pays for the next one, a channel for the call of `HandleEvent`. -/
def LoopEv.value : LoopEv → Nat
  | .polled is => 12 * is.length
  | .handled _ => 0
  | .ran _ => 6

theorem Frame.work_pos : 0 < f.work := by
  cases f <;> exact Nat.succ_pos _

/-- A frame of the loop has run. -/
theorem loop_work (hI : Inv cfg d s) (hs : s.stack (.loop l) = f :: r) (hf : f.isLoop = true)
    (hx : exec cfg (.loop l) inp s f = .ok s₁ gs) :
    work gs + 12 * (s₁.active l).length + 1 ≤
      f.work + 12 * (s.active l).length + ((f.loopEv l inp s).map LoopEv.value).sum := by
  obtain rfl | rfl | rfl := hI.isLoop hs hf
  · obtain ⟨-, evs, rfl, -, rfl, rfl⟩ := loopPoll_ok hx
    have hact : (s.poll l evs).active l = activeChannels (s.pollers l) evs := Function.update_self ..
    simp only [hact, Frame.loopEv, if_true, List.map_cons, List.map_nil, List.sum_cons,
      List.sum_nil, LoopEv.value, work_cons, work_nil, Frame.work]
    omega
  · rcases loopDispatch_ok hx with ⟨ha, rfl, rfl⟩ | ⟨i, is, ha, rfl, rfl⟩
    · have hact : (s.dispatch l none []).active l = [] := Function.update_self ..
      simp only [hact, ha, work_cons, work_nil, Frame.work, List.length_nil]
      omega
    · have hact : (s.dispatch l (some i) is).active l = is := Function.update_self ..
      simp only [hact, ha, work_cons, work_nil, Frame.work, List.length_cons]
      omega
  · have hw := loopTasks_leads _ _ hx
    rw [(exec_keeps hI.sound.pristine hx).2 l (by simp) (by simp)]
    simp only [Frame.work, Frame.loopEv, if_true, List.map_cons, List.map_nil, List.sum_cons,
      List.sum_nil, LoopEv.value]
    omega

/-- With an assert failed there is nothing left to do. -/
def Sys.rank (l : LoopId) (s : Sys) : Nat := if s.failed = none then s.work l else 0

theorem Sys.rank_le : s.rank l ≤ s.work l := by
  unfold Sys.rank
  split
  · exact Nat.le_refl _
  · exact Nat.zero_le _

theorem own_work (hI : Inv cfg d s) (hst : step cfg s (.thread (.loop l) inp) = some s') :
    s'.rank l + 1 ≤
      s.work l + ((loopEvAt l s (.thread (.loop l) inp)).map LoopEv.value).sum + inp.credit := by
  rcases step_cases hst with ⟨t, inp, f, r, gs, s₁, ha, hs, hx, rfl⟩ |
    ⟨t, inp, f, r, e, ha, hs, hx, rfl⟩ | ⟨c', ha, -⟩ | ⟨n, ha, -⟩ | ⟨n, ha, -⟩
  all_goals cases ha
  · have hrank := (s₁.push (.loop l) (gs ++ r)).rank_le (l := l)
    have hpush : (s₁.push (.loop l) (gs ++ r)).work l =
        work gs + work r + 12 * (s₁.active l).length := by
      rw [Sys.work, Sys.push_self, work_append]
      rfl
    simp only [loopEvAt, Sys.work, hs, work_cons]
    cases hf : f.isLoop with
    | true =>
      have hw := loop_work hI hs hf hx
      omega
    | false =>
      have hw := exec_work hf hx
      rw [(exec_keeps hI.sound.pristine hx).2 l (by rintro rfl; cases hf)
        (by rintro rfl; cases hf)] at hpush
      omega
  · have hpos : 0 < s.work l := by
      rw [Sys.work, hs, work_cons]
      have := f.work_pos
      omega
    have hzero : Sys.rank l { s with failed := some e } = 0 := rfl
    omega

theorem step_rank (hI : Inv cfg d s) (hst : step cfg s a = some s') :
    s'.rank l + (if a.own l then 1 else 0) ≤
      s.rank l + ((loopEvAt l s a).map LoopEv.value).sum + a.gain l := by
  rw [show s.rank l = s.work l from if_pos (running_of_step hst)]
  by_cases ha : ∃ inp, a = .thread (.loop l) inp
  · obtain ⟨inp, rfl⟩ := ha
    simpa [Act.own, Act.gain] using own_work hI hst
  · obtain ⟨h1, h2, h3⟩ := step_elsewhere hI (fun inp e => ha ⟨inp, e⟩) hst
    have hown : a.own l = false := by
      cases a with
      | thread t inp => exact beq_false_of_ne fun e => ha ⟨inp, by rw [e]⟩
      | destroy | openFd | closeFd => rfl
    have hwork : s'.work l = s.work l := by rw [Sys.work, Sys.work, h1, h2]
    have hrank := s'.rank_le (l := l)
    rw [hown, if_neg Bool.false_ne_true]
    omega

/-! ## Whole runs -/

/-- The channels that `Poll` has reported. -/
def reportsOf (L : List LoopEv) : List ChanId := L.flatMap fun
  | .polled is => is
  | _ => []

theorem sum_value (L : List LoopEv) :
    (L.map LoopEv.value).sum = 6 * (runsOf L).length + 12 * (reportsOf L).length := by
  induction L with
  | nil => rfl
  | cons e L ih =>
    rw [List.map_cons, List.sum_cons, ih]
    cases e with
    | polled is =>
      simp only [LoopEv.value, runsOf, reportsOf, List.filterMap_cons, List.flatMap_cons,
        List.length_append]
      omega
    | handled i =>
      simp only [LoopEv.value, runsOf, reportsOf, List.filterMap_cons, List.flatMap_cons,
        List.nil_append]
      omega
    | ran k =>
      simp only [LoopEv.value, runsOf, reportsOf, List.filterMap_cons, List.flatMap_cons,
        List.nil_append, List.length_cons]
      omega

theorem sum_gain (as : List Act) : (as.map (Act.gain l)).sum = 5 * as.countP (Act.news l) := by
  induction as with
  | nil => rfl
  | cons a as ih =>
    rw [List.map_cons, List.sum_cons, List.countP_cons, ih, Nat.mul_add, Nat.add_comm]
    cases a with
    | thread t inp => by_cases ht : t = .loop l <;> simp [Act.gain, Act.news, Input.credit, ht]
    | destroy | openFd | closeFd => rfl

/-- The steps of the thread of `l` in a run, by what brought them about. -/
theorem own_le {P : Sys → Act → Prop} {as : List Act} (h : Reach (step cfg) P (Sys.init cfg) s)
    (hrun : run (step cfg) s as = some s') :
    as.countP (Act.own l) ≤ s.work l + 6 * (runsOf (log (step cfg) (loopEvAt l) s as)).length +
      12 * (reportsOf (log (step cfg) (loopEvAt l) s as)).length + 5 * as.countP (Act.news l) := by
  have hreach : ∀ s a s', Reach (step cfg) (fun _ _ => True) (Sys.init cfg) s →
      step cfg s a = some s' →
      Reach (step cfg) (fun _ _ => True) (Sys.init cfg) s' := fun _ _ _ hr hst => .snoc hr trivial hst
  have hcount : as.countP (Act.own l) ≤ s.rank l +
      ((log (step cfg) (loopEvAt l) s as).map LoopEv.value).sum + (as.map (Act.gain l)).sum :=
    Progress.countP_le (Sys.rank l) hreach (fun s a s' hr hst => step_rank (Inv.any hr) hst) as
      (h.mono fun _ _ _ _ => trivial) hrun
  rw [sum_value, sum_gain] at hcount
  have hrank := s.rank_le (l := l)
  omega

/-- The loop's own frame never leaves the stack of its thread. -/
theorem loopFrames_ne_nil {P : Sys → Act → Prop} (hl : l ∈ cfg.loops)
    (h : Reach (step cfg) P (Sys.init cfg) s) : s.loopFrames l ≠ [] := by
  refine h.inv (I := fun s => s.loopFrames l ≠ []) ?_ ?_
  · simp [Sys.loopFrames, Sys.init, hl, Frame.isLoop]
  · intro s a s' hr hi _ hst
    have hI : Inv cfg .any s := Inv.any hr
    by_cases ha : ∃ inp, a = .thread (.loop l) inp
    swap
    · have hsame := (step_elsewhere hI (fun inp e => ha ⟨inp, e⟩) hst).1
      rwa [Sys.loopFrames, hsame]
    obtain ⟨inp, rfl⟩ := ha
    rcases step_cases hst with ⟨t, inp, f, r, gs, s₁, ha, hs, hx, rfl⟩ |
      ⟨t, inp, f, r, e, ha, hs, hx, rfl⟩ | ⟨c', ha, -⟩ | ⟨n, ha, -⟩ | ⟨n, ha, -⟩
    all_goals cases ha
    swap
    · exact hi
    cases hf : f.isLoop with
    | false =>
      obtain ⟨-, hg⟩ := exec_minor hI.sound.pristine hf _ _ hx
      rwa [loopFrames_push hs (exec_keeps hI.sound.pristine hx).1 hf hg]
    | true =>
      have hne : gs.filter Frame.isLoop ≠ [] := by
        obtain rfl | rfl | rfl := hI.isLoop hs hf
        · obtain ⟨-, evs, -, -, -, rfl⟩ := loopPoll_ok hx
          exact List.cons_ne_nil _ _
        · rcases loopDispatch_ok hx with ⟨-, -, rfl⟩ | ⟨i, is, -, -, rfl⟩
          all_goals exact List.cons_ne_nil _ _
        · rcases loopTasks_ok hx with ⟨-, -, rfl⟩ | ⟨k, ks, gs', -, -, rfl, -⟩
          · exact List.cons_ne_nil _ _
          · simp [List.filter_append, Frame.isLoop]
      rw [Sys.loopFrames, Sys.push_self, List.filter_append]
      exact fun h => hne (List.append_eq_nil_iff.1 h).1

/-- **A loop neither waits nor spins.** In every reachable state the thread of a loop can make a
step on an answer that brings nothing new. And in every run from there the number of its steps is
bounded by what it had to do, six for each round it has ended, twelve for each channel that `Poll`
has reported and five for each piece of news: bytes that were read, a connection or an error from
`accept`, a call of user code. The other threads cannot add to it. -/
theorem loop_progress {P : Sys → Act → Prop} (hl : l ∈ cfg.loops)
    (h : Reach (step cfg) P (Sys.init cfg) s) :
    (s.failed = none → ∃ inp, inp.news = false ∧ (step cfg s (.thread (.loop l) inp)).isSome) ∧
    ∀ as s', run (step cfg) s as = some s' →
      as.countP (Act.own l) ≤ s.work l + 6 * (runsOf (log (step cfg) (loopEvAt l) s as)).length +
        12 * (reportsOf (log (step cfg) (loopEvAt l) s as)).length + 5 * as.countP (Act.news l) := by
  refine ⟨fun hf => ?_, fun as s' hrun => own_le h hrun⟩
  obtain ⟨f, r, hs⟩ : ∃ f r, s.stack (.loop l) = f :: r := by
    refine List.exists_cons_of_ne_nil fun hnil => loopFrames_ne_nil hl h ?_
    rw [Sys.loopFrames, hnil]
    rfl
  refine ⟨f.answer s, answer_not_news, ?_⟩
  have hen : (exec cfg (.loop l) (f.answer s) s f).Enabled := exec_answer
  simp only [step, hf, ne_eq, not_true_eq_false, if_false, hs]
  cases hx : exec cfg (.loop l) (f.answer s) s f with
  | disabled => exact absurd hx hen
  | ok | fail => rfl

/-- Two functors of a user's thread wait. -/
def sampleWaiting : List Act :=
  sampleStart ++
  [.thread (.user 7) (.call (.send sampleConn [1])), .thread (.user 7) .none,
    .thread (.user 7) (.call (.stopRead sampleConn)), .thread (.user 7) .none]

/-- The loop is in a round. -/
def sampleBusy : List Act := sampleWaiting ++ loopActs [.poll []]

/-- It runs the first of them and goes into the next round, while a user's thread queues a third. -/
def sampleTurn : List Act :=
  loopActs [.none, .write (.accepted 1)] ++
  [.thread (.user 7) (.call (.startRead sampleConn)), .thread (.user 7) .none] ++
  loopActs [.none, .poll [], .none, .none]

theorem loop_progress_sample :
    ∃ s, run (step .sample) (Sys.init .sample) sampleBusy = some s ∧ s.failed = none ∧ s.work 0 = 5 ∧
      (∃ inp, inp.news = false ∧ (step .sample s (.thread (.loop 0) inp)).isSome) ∧
      sampleTurn.countP (Act.own 0) ≤
        s.work 0 + 6 * (runsOf (log (step .sample) (loopEvAt 0) s sampleTurn)).length +
          12 * (reportsOf (log (step .sample) (loopEvAt 0) s sampleTurn)).length +
          5 * sampleTurn.countP (Act.news 0) := by
  have hrun : ((run (step .sample) (Sys.init .sample) sampleBusy).bind fun s =>
      (run (step .sample) s sampleTurn).map fun _ => (s.stack (.loop 0), s.active 0, s.failed)) =
      some ([.loopDispatch 0], [], none) := by decide +kernel
  obtain ⟨s, hs, hrun⟩ := Option.bind_eq_some_iff.1 hrun
  obtain ⟨s', hs', hx⟩ := Option.map_eq_some_iff.1 hrun
  simp only [Prod.mk.injEq] at hx
  obtain ⟨hstack, hactive, hfail⟩ := hx
  have hw : s.work 0 = 5 := by
    rw [Sys.work, hstack, hactive]
    rfl
  have hr : Reach (step .sample) (fun _ _ => True) (Sys.init .sample) s :=
    .of_run _ hs (admits_of_forall (fun _ _ => trivial) _ _)
  obtain ⟨hnext, hbound⟩ := loop_progress (l := 0) (by decide) hr
  exact ⟨s, hs, hfail, hw, hnext hfail, hbound _ _ hs'⟩

/-- **A functor that is queued is run.** In any reachable state, take the functor with `n` others
ahead of it. In every run from there it has been run, as the one of round `n`, once the thread of
the loop has made more steps than it had to do, than `n` rounds take and than were brought in by
channels reported and by news. -/
theorem functor_runs {P : Sys → Act → Prop} {as : List Act} {k : Task}
    (h : Reach (step cfg) P (Sys.init cfg) s)
    (hk : (s.queue l)[n]? = some k) (hrun : run (step cfg) s as = some s')
    (hn : s.work l + 6 * n + 12 * (reportsOf (log (step cfg) (loopEvAt l) s as)).length +
      5 * as.countP (Act.news l) < as.countP (Act.own l)) :
    (runsOf (log (step cfg) (loopEvAt l) s as))[n]? = some (some k) := by
  have hown := own_le (l := l) h hrun
  have hlt : n < (runsOf (log (step cfg) (loopEvAt l) s as)).length := by omega
  have hlog : Logged (step cfg) (fun _ _ => True) (loopEvAt l) s
      (log (step cfg) (loopEvAt l) s as) s' :=
    .of_run _ hrun (admits_of_forall (fun _ _ => trivial) _ _)
  rw [List.getElem?_eq_getElem hlt]
  exact congrArg some ((Turns.of_logged h hlog).order n k _ hk (List.getElem?_eq_getElem hlt))

theorem functor_runs_sample :
    ∃ s, run (step .sample) (Sys.init .sample) sampleBusy = some s ∧
      (s.queue 0)[0]? = some (.sendInLoop sampleConn (.user 7) [1]) ∧
      (runsOf (log (step .sample) (loopEvAt 0) s sampleTurn))[0]? =
        some (some (.sendInLoop sampleConn (.user 7) [1])) := by
  have hrun : ((run (step .sample) (Sys.init .sample) sampleBusy).bind fun s =>
      (run (step .sample) s sampleTurn).map fun _ => (s.stack (.loop 0), s.active 0, (s.queue 0)[0]?,
        reportsOf (log (step .sample) (loopEvAt 0) s sampleTurn))) =
      some ([.loopDispatch 0], [], some (.sendInLoop sampleConn (.user 7) [1]), []) := by
    decide +kernel
  obtain ⟨s, hs, hrun⟩ := Option.bind_eq_some_iff.1 hrun
  obtain ⟨s', hs', hx⟩ := Option.map_eq_some_iff.1 hrun
  simp only [Prod.mk.injEq] at hx
  obtain ⟨hstack, hactive, hk, hreports⟩ := hx
  have hw : s.work 0 = 5 := by
    rw [Sys.work, hstack, hactive]
    rfl
  have hr : Reach (step .sample) (fun _ _ => True) (Sys.init .sample) s :=
    .of_run _ hs (admits_of_forall (fun _ _ => trivial) _ _)
  refine ⟨s, hs, hk, functor_runs hr hk hs' ?_⟩
  rw [hw, hreports]
  decide

end Liang.Net
