import NetworkPoller.Net.Proof.Routine

/-!
# What running a frame leaves alone

Only the frames of the loop itself poll, dispatch and take functors; only `ReadHandler` and the calls
of user code on it change a read buffer. Everything else that runs is minor to these (`Sys.Minor`):
it leaves the stacks, the active lists and the read buffers as they are, queues functors behind those
that are queued, and pushes no frame of a loop. One lemma per function, then `exec_minor`.
-/

namespace Liang.Net

open Base TcpConnection

variable {cfg : Cfg} {d : Discipline} {s s' s₁ s₂ : Sys} {t : Tid} {c : ConnId} {l : LoopId}
  {inp : Input} {f : Frame} {r gs : List Frame}

structure Sys.Minor (s s' : Sys) : Prop where
  stack : s'.stack = s.stack
  active : s'.active = s.active
  queue : ∀ l, s.queue l <+: s'.queue l
  readBuffer : ∀ c, (s'.conns c).readBuffer = (s.conns c).readBuffer

namespace Sys.Minor

theorem of_rfl (hs : s'.stack = s.stack) (ha : s'.active = s.active) (hq : s'.queue = s.queue)
    (hc : s'.conns = s.conns) : s.Minor s' :=
  ⟨hs, ha, fun l => hq ▸ List.prefix_refl _, fun c => by rw [hc]⟩

theorem refl (s : Sys) : s.Minor s := .of_rfl rfl rfl rfl rfl

theorem trans (h : s.Minor s₁) (h' : s₁.Minor s₂) : s.Minor s₂ where
  stack := h'.stack.trans h.stack
  active := h'.active.trans h.active
  queue l := (h.queue l).trans (h'.queue l)
  readBuffer c := (h'.readBuffer c).trans (h.readBuffer c)

/-- Connections are changed, but not their read buffers. -/
theorem updConn {g : Conn → Conn} (hg : (g (s.conns c)).readBuffer = (s.conns c).readBuffer) :
    s.Minor (s.updConn c g) where
  stack := rfl
  active := rfl
  queue _ := List.prefix_refl _
  readBuffer c' := by
    by_cases hc : c' = c
    · subst hc
      rw [Sys.updConn_self, hg]
    · rw [Sys.updConn_of_ne _ hc]

theorem setPoller {p : EpollPoller ChanId} : s.Minor (s.setPoller l p) := .of_rfl rfl rfl rfl rfl

theorem queueInLoop {k : Task} : s.Minor (s.queueInLoop t l k) where
  stack := rfl
  active := rfl
  queue l' := by
    by_cases hl : l' = l
    · subst hl
      rw [Sys.queueInLoop_self]
      exact List.prefix_append _ _
    · exact ⟨[], by rw [List.append_nil, Sys.queueInLoop_of_ne _ _ hl]⟩
  readBuffer _ := rfl

theorem updClient {k : ClientId} {g : Client → Client} : s.Minor (s.updClient k g) :=
  .of_rfl rfl rfl rfl rfl

theorem connections {m : Fd → Option ConnId} : s.Minor { s with connections := m } :=
  .of_rfl rfl rfl rfl rfl

theorem note (es : List ConnEv) : s.Minor (s.note c es) := .updConn rfl

theorem noteStatus : s.Minor (noteStatus c s) := .note _

theorem establish {p : EpollPoller ChanId} : s.Minor (s.establish c p) := by
  have hset : s.Minor ((setState c .connected s).note c [.established]) :=
    .trans (.updConn rfl) (.note _)
  exact hset.trans (.trans .setPoller .noteStatus)

theorem closeConn {p : EpollPoller ChanId} : s.Minor (s.closeConn c p) := by
  have hset : s.Minor ((setState c .disconnected s).note c [.closeHandler]) :=
    .trans (.updConn rfl) (.note _)
  exact hset.trans (.trans .setPoller .noteStatus)

/-- A new connection has a new buffer. -/
theorem create {x : Conn} (hp : s.conns c = {}) (hx : x.readBuffer = .new Buffer.initSize) :
    s.Minor (s.create c x) where
  stack := rfl
  active := rfl
  queue _ := List.prefix_refl _
  readBuffer c' := by
    show (Function.update s.conns c x c').readBuffer = _
    by_cases hc : c' = c
    · subst hc
      rw [Function.update_self, hp, hx]
    · rw [Function.update_of_ne hc]

end Sys.Minor

/-- What the function does is minor, and no frame of a loop is to be run next. -/
def Res.Minor (s : Sys) (x : Res) : Prop :=
  ∀ s' gs, x = .ok s' gs → s.Minor s' ∧ gs.any Frame.isLoop = false

namespace Res.Minor

variable {x : Res}

theorem ok (h : s.Minor s') (hg : gs.any Frame.isLoop = false) : (Res.ok s' gs).Minor s :=
  fun _ _ he => by
    cases he
    exact ⟨h, hg⟩

theorem disabled : Res.disabled.Minor s := fun _ _ he => by cases he

theorem assert {p : Prop} [Decidable p] {a : Assert} (h : x.Minor s) : (Res.assert p a x).Minor s :=
  fun _ _ he => h _ _ (Res.assert_ok he).2

theorem ite {p : Prop} [Decidable p] {y : Res} (hx : x.Minor s) (hy : y.Minor s) :
    (if p then x else y).Minor s := by
  split
  · exact hx
  · exact hy

theorem after (h : s.Minor s₁) (hx : x.Minor s₁) : x.Minor s := fun _ _ he =>
  ⟨h.trans (hx _ _ he).1, (hx _ _ he).2⟩

theorem channelOp {op : EpollPoller ChanId → Except PollerAssert (EpollPoller ChanId)} {k : Sys → Res}
    (h : ∀ p, (k (s₁.setPoller l p)).Minor s) : (Res.bind (s₁.channelOp t l op) k).Minor s :=
  fun _ _ he => by
    obtain ⟨s₂, h1, he⟩ := Res.bind_ok he
    obtain ⟨-, p, -, rfl⟩ := channelOp_ok h1
    exact h p _ _ he

theorem removeFromLoop {i : ChanId} {k : Sys → Res} (h : ∀ l p, (k (s₁.setPoller l p)).Minor s) :
    (Res.bind (s₁.removeFromLoop cfg t i) k).Minor s := fun _ _ he => by
  obtain ⟨s₂, h1, he⟩ := Res.bind_ok he
  obtain ⟨-, p, -, rfl⟩ := removeFromLoop_ok h1
  exact h _ p _ _ he

theorem followedBy (hx : x.Minor s) (hg : gs.any Frame.isLoop = false) : (x.followedBy gs).Minor s :=
  fun _ _ he => by
    obtain ⟨gs', he', rfl⟩ := Res.followedBy_ok he
    obtain ⟨h, hg'⟩ := hx _ _ he'
    exact ⟨h, by rw [List.any_append, hg', hg]; rfl⟩

end Res.Minor

/-! ## Connections -/

theorem statusFrames_plain : (statusFrames c s).any Frame.isLoop = false :=
  List.any_eq_false.2 fun _ hg => by simp [mem_statusFrames hg, Frame.isLoop]

theorem closeHandler_minor : (closeHandler cfg t c s).Minor s := fun _ _ he => by
  obtain ⟨-, p, -, rfl, rfl⟩ := closeHandler_ok he
  exact ⟨.closeConn, by rw [List.any_append, statusFrames_plain]; rfl⟩

theorem connectEstablished_minor : (connectEstablished cfg t c s).Minor s := fun _ _ he => by
  obtain ⟨-, p, -, rfl, rfl⟩ := connectEstablished_ok he
  exact ⟨.establish, statusFrames_plain⟩

theorem connectDestoryedRest_minor : (connectDestoryedRest cfg t c s).Minor s :=
  .removeFromLoop fun _ _ => .ok (.trans .setPoller (.note _)) rfl

theorem connectDestoryed_minor : (connectDestoryed cfg t c s).Minor s := by
  refine .assert (.ite (.channelOp fun p => .ok ?_ ?_) connectDestoryedRest_minor)
  · have hset : s.Minor (setState c .disconnected s) := .updConn rfl
    exact hset.trans (.trans .setPoller .noteStatus)
  · rw [List.any_append, statusFrames_plain]
    rfl

theorem shutdownInLoop_minor : (shutdownInLoop t c s).Minor s :=
  .assert (.ite (.ok (.refl s) rfl) (.ok (.updConn rfl) rfl))

theorem writeHandler_minor : (writeHandler cfg t c inp s).Minor s := by
  refine .assert (.ite ?_ (.ok (.refl s) rfl))
  split
  · refine .ite (.ite (.ite (.channelOp fun p => ?_) (.ok (.updConn rfl) rfl)) (.ok (.refl s) rfl))
      .disabled
    refine .ok (.trans (.updConn rfl) .setPoller) ?_
    split <;> rfl
  · exact .ok (.refl s) rfl
  · exact .disabled

theorem writeHandlerRest_minor : (writeHandlerRest t c s).Minor s :=
  .ite shutdownInLoop_minor (.ok (.refl s) rfl)

theorem forceCloseInLoop_minor : (forceCloseInLoop cfg t c s).Minor s :=
  .assert (.ite closeHandler_minor (.ok (.refl s) rfl))

theorem startReadInLoop_minor : (startReadInLoop cfg t c s).Minor s :=
  .assert (.ite (.ok (.refl s) rfl) (.channelOp fun _ => .ok .setPoller rfl))

theorem stopReadInLoop_minor : (stopReadInLoop cfg t c s).Minor s :=
  .assert (.ite (.channelOp fun _ => .ok .setPoller rfl) (.ok (.refl s) rfl))

theorem Enter.readBuffer {w : Bool} {T : Tid} {m : Msg} {x y : Conn} (h : Enter w T m x y) :
    y.readBuffer = x.readBuffer := by
  cases h <;> rfl

theorem sendInLoop_minor {T : Tid} {m : Msg} : (sendInLoop cfg t c T m inp s).Minor s :=
  fun s' gs he => by
    rcases sendInLoop_ok he with ⟨rfl, s₁, x', ha, hen, hq⟩ | ⟨-, hcl⟩
    · have harm : s.Minor s₁ := by
        cases ha with
        | already => exact .refl s
        | armed => exact .setPoller
      have hconn : s₁.Minor (s₁.updConn c fun _ => x') := by
        refine .updConn ?_
        rw [ha.conns]
        exact hen.readBuffer
      refine ⟨(harm.trans hconn).trans ?_, rfl⟩
      cases hq with
      | nothing => exact .refl _
      | written | highWater => exact .queueInLoop
    · exact Res.Minor.after (.updConn rfl) closeHandler_minor _ _ hcl

theorem shutdown_minor : (shutdown t c inp s).Minor s := by
  unfold shutdown
  split
  · exact .ite (.ok (.updConn rfl) rfl) (.ok (.refl s) rfl)
  · exact .disabled

theorem forceClose_minor : (forceClose c inp s).Minor s := by
  unfold forceClose
  split
  · exact .ite (.ok (.updConn rfl) rfl) (.ok (.refl s) rfl)
  · exact .disabled

theorem forceCloseAgain_minor : (forceCloseAgain c inp s).Minor s := by
  unfold forceCloseAgain
  split
  · exact .ite (.ok (.refl s) rfl) (.ok (.refl s) rfl)
  · exact .disabled

/-- `ReadHandler` reads into the buffer; what it does next is minor. -/
theorem readHandler_minor {rd : ReadRes} :
    (readHandler cfg t c rd s).Minor
      (s.updConn c fun x => { x with readBuffer := (x.readBuffer.readFromFD rd).1 }) :=
  .assert (.ite
    (.ite (.ite (.ok (.note _) rfl) closeHandler_minor)
      (.ite closeHandler_minor (.ite (.ok (.refl _) rfl) (.ok (.refl _) rfl))))
    .disabled)

/-! ## The server, the acceptor and the clients -/

theorem newConnected_minor {n : Fd} (hp : ∀ c, s.nextSerial ≤ c.serial → s.conns c = {}) :
    (TcpServer.newConnected cfg t n s).Minor s := by
  refine .assert (.ok ?_ rfl)
  have hc : s.Minor (s.create ⟨s.nextSerial, n, TcpServer.getEventLoopFromPoolForHash cfg n,
      .server⟩ (TcpServer.newConn cfg)) := .create (hp _ (Nat.le_refl _)) rfl
  exact (hc.trans .connections).trans .queueInLoop

theorem removeConnectionInLoop_minor : (TcpServer.removeConnectionInLoop cfg t c s).Minor s :=
  .assert (.ok (.trans (.trans .connections (.note _)) .queueInLoop) rfl)

theorem removeConnection_minor : (TcpServer.removeConnection cfg t c s).Minor s :=
  .ite removeConnectionInLoop_minor (.ok .queueInLoop rfl)

theorem listen_minor : (TcpAcceptor.listen cfg t s).Minor s :=
  .assert (.channelOp fun _ => .ok .setPoller rfl)

theorem acceptHandle_minor (hp : ∀ c, s.nextSerial ≤ c.serial → s.conns c = {}) :
    (TcpAcceptor.acceptHandle cfg t inp s).Minor s := by
  refine .assert ?_
  split
  · exact .ite (.followedBy (newConnected_minor hp) rfl) .disabled
  · exact .ite (.ok (.refl s) rfl) (.ok (.refl s) rfl)
  · exact .disabled

theorem dropNewFd_minor : (TcpAcceptor.dropNewFd inp s).Minor s := by
  unfold TcpAcceptor.dropNewFd
  split
  · exact .ite (.ok (.of_rfl rfl rfl rfl rfl) rfl) .disabled
  · exact .ok (.refl s) rfl
  · exact .disabled

theorem startServer_minor : (TcpServer.start inp s).Minor s := by
  unfold TcpServer.start
  split
  · exact .ite (.ok (.of_rfl rfl rfl rfl rfl) rfl) (.ok (.refl s) rfl)
  · exact .disabled

theorem clientRemoveConnection_minor {k : ClientId} :
    (TcpClient.removeConnection cfg t k c s).Minor s :=
  .assert (.assert (.ok (.trans (.trans .updClient (.note _)) .queueInLoop) rfl))

theorem disconnect_minor {k : ClientId} : (TcpClient.disconnect t k inp s).Minor s := by
  unfold TcpClient.disconnect
  split
  · exact shutdown_minor
  · exact .ok (.refl s) rfl

theorem startInLoop_minor {k : ClientId} : (TcpConnector.startInLoop cfg t k inp s).Minor s :=
  fun _ _ he => by
    obtain ⟨-, rfl, hst⟩ := startInLoop_ok he
    refine ⟨?_, rfl⟩
    cases hst <;> exact .of_rfl rfl rfl rfl rfl

theorem startConnector_minor {k : ClientId} : (TcpConnector.start t k inp s).Minor s := by
  unfold TcpConnector.start
  split
  · exact .ite (.ok .updClient rfl) (.ok (.refl s) rfl)
  · exact .disabled

theorem startRest_minor {k : ClientId} : (TcpConnector.startRest cfg t k inp s).Minor s :=
  .ite startInLoop_minor (.ok (.trans .updClient .queueInLoop) rfl)

theorem writeEventHandler_minor {k : ClientId} : (TcpConnector.writeEventHandler cfg t k s).Minor s :=
  fun _ _ he => by
    obtain ⟨-, n, fd, p, p', -, -, -, rfl, rfl⟩ := writeEventHandler_ok he
    exact ⟨.trans (.trans .setPoller .updClient) .queueInLoop, rfl⟩

theorem writeEventRest_minor {k : ClientId} {fd : Fd}
    (hp : ∀ c, s.nextSerial ≤ c.serial → s.conns c = {}) :
    (TcpConnector.writeEventRest cfg t k fd inp s).Minor s := fun _ _ he => by
  rcases writeEventRest_ok he with ⟨e, -, -, rfl, rfl⟩ | ⟨-, -, p, -, rfl, rfl⟩
  · have hcl : s.Minor (s.closeFd fd) := .of_rfl rfl rfl rfl rfl
    exact ⟨(hcl.trans .updClient).trans .queueInLoop, rfl⟩
  · have hc : s.Minor (s.create (s.clientConn cfg k fd) (TcpClient.newConn cfg k)) :=
      .create (hp _ (Nat.le_refl _)) rfl
    refine ⟨(hc.trans .updClient).trans .establish, ?_⟩
    split <;> rfl

/-! ## Functors, calls and frames -/

theorem task_minor {k : Task} : (k.run cfg t inp s).Minor s := by
  cases k with
  | connectEstablished c => exact connectEstablished_minor
  | connectDestoryed c => exact connectDestoryed_minor
  | sendInLoop c T m => exact sendInLoop_minor
  | startReadInLoop c => exact startReadInLoop_minor
  | stopReadInLoop c => exact stopReadInLoop_minor
  | shutdownInLoop c => exact shutdownInLoop_minor
  | forceCloseInLoop c => exact forceCloseInLoop_minor
  | writtenCb c | highWaterCb c n | connectorStop k | functor => exact .ok (.refl s) rfl
  | removeConnectionInLoop c => exact removeConnectionInLoop_minor
  | listen => exact listen_minor
  | connectorStart k => exact startInLoop_minor
  | connectorReset k => exact .ok .updClient rfl

/-- `s` after the frame has filled or emptied the read buffer it works on, if it does. -/
def Frame.fed (inp : Input) (s : Sys) : Frame → Sys
  | .readHandler c =>
    match inp with
    | .read rd => s.updConn c fun x => { x with readBuffer := (x.readBuffer.readFromFD rd).1 }
    | _ => s
  | .api (.buffer c op) =>
    match op.exec (s.conns c).readBuffer with
    | some (b, _) => s.updConn c fun x => { x with readBuffer := b }
    | none => s
  | .api (.swapBuffer c rhs) =>
    s.updConn c fun x => { x with readBuffer := (x.readBuffer.swap rhs).1 }
  | _ => s

theorem Frame.fed_same : (f.fed inp s).stack = s.stack ∧ (f.fed inp s).active = s.active ∧
    (f.fed inp s).queue = s.queue := by
  unfold Frame.fed
  split
  · split <;> exact ⟨rfl, rfl, rfl⟩
  · split <;> exact ⟨rfl, rfl, rfl⟩
  · exact ⟨rfl, rfl, rfl⟩
  · exact ⟨rfl, rfl, rfl⟩

theorem api_minor {a : Api} : (a.run cfg t inp s).Minor (Frame.fed inp s (.api a)) := by
  cases a with
  | send c m =>
    have hsent : s.Minor (s.updConn c fun x => { x with sent := x.sent ++ [(t, m)] }) := .updConn rfl
    exact .ite (.after hsent sendInLoop_minor) (.ok (hsent.trans .queueInLoop) rfl)
  | startRead c | stopRead c => exact .ok .queueInLoop rfl
  | shutdown c => exact shutdown_minor
  | forceClose c => exact forceClose_minor
  | setCallbacks c cbs => exact .ok (.updConn rfl) rfl
  | buffer c op =>
    cases hop : op.exec (s.conns c).readBuffer with
    | none =>
      simp only [Api.run, Frame.fed, hop]
      exact .ok (.refl _) rfl
    | some x =>
      simp only [Api.run, Frame.fed, hop]
      exact .ok (.refl _) rfl
  | swapBuffer c rhs => exact .ok (.refl _) rfl
  | retain c | release c => exact .ok (.of_rfl rfl rfl rfl rfl) rfl
  | start => exact startServer_minor
  | connect k => exact startConnector_minor
  | disconnect k => exact disconnect_minor
  | stop k => exact .ite (.ok (.refl s) rfl) (.ok (.refl s) rfl)
  | runInLoop l | queueInLoop l => exact .ok (.refl s) rfl

theorem handleEvent_plain (ev : Mask) (i : ChanId) :
    (EventChannel.handleEvent ev i).any Frame.isLoop = false := by
  refine List.any_eq_false.2 fun g hg => ?_
  cases i with
  | acceptor | conn | connector =>
    rcases mem_callbacks hg with hg | hg | hg | hg <;> simp_all [Frame.isLoop]

/-- **All frames but those of the loop are minor**, apart from the read buffer they fill or empty. -/
theorem exec_minor (hp : ∀ c, s.nextSerial ≤ c.serial → s.conns c = {}) (hl : f.isLoop = false) :
    (exec cfg t inp s f).Minor (f.fed inp s) := by
  cases f with
  | loopPoll l | loopDispatch l | loopTasks l => cases hl
  | taskDone k | errorHandler c => exact .ok (.refl s) rfl
  | handleEvent i => exact .ok (.refl s) (handleEvent_plain _ i)
  | user c? =>
    simp only [exec]
    split
    · exact .ite (.ok (.refl s) rfl) .disabled
    · exact .ok (.refl s) rfl
    · exact .disabled
  | api a => exact api_minor
  | forceCloseAgain c => exact forceCloseAgain_minor
  | startPool =>
    have hinit : s.Minor { s with initialized := s.initialized ++ [t] } := .of_rfl rfl rfl rfl rfl
    exact .ok (hinit.trans .queueInLoop) rfl
  | queueInLoop l k => exact .ok .queueInLoop rfl
  | runInLoop l k => exact .ite task_minor (.ok .queueInLoop rfl)
  | closeHandler c => exact closeHandler_minor
  | readHandler c =>
    cases inp with
    | read rd => exact readHandler_minor
    | _ => exact .disabled
  | writeHandler c => exact writeHandler_minor
  | writeHandlerRest c => exact writeHandlerRest_minor
  | closeCb c =>
    simp only [exec]
    split
    · exact .after (.note _) removeConnection_minor
    · exact .after (.note _) clientRemoveConnection_minor
  | destoryedRest c => exact connectDestoryedRest_minor
  | acceptHandle => exact acceptHandle_minor hp
  | closeIdle => exact .ok (.of_rfl rfl rfl rfl rfl) rfl
  | reAccept | reOpen => exact dropNewFd_minor
  | connectorRun k => exact startRest_minor
  | writeEventHandler k => exact writeEventHandler_minor
  | writeEventRest k fd => exact writeEventRest_minor hp

/-! ## The frames of the loop -/

theorem loopPoll_ok (h : exec cfg t inp s (.loopPoll l) = .ok s' gs) :
    t = .loop l ∧ ∃ evs, inp = .poll evs ∧ canPoll (s.pollers l) evs = true ∧ s' = s.poll l evs ∧
      gs = [.loopDispatch l] := by
  obtain ⟨ht, h⟩ := Res.assert_ok h
  split at h
  · split at h
    · rename_i evs _ hc
      cases h
      exact ⟨ht, evs, rfl, hc, rfl, rfl⟩
    · cases h
  · cases h

theorem loopDispatch_ok (h : exec cfg t inp s (.loopDispatch l) = .ok s' gs) :
    (s.active l = [] ∧ s' = s.dispatch l none [] ∧ gs = [.loopTasks l]) ∨
      ∃ i is, s.active l = i :: is ∧ s' = s.dispatch l (some i) is ∧
        gs = [.handleEvent i, .loopDispatch l] := by
  simp only [exec] at h
  split at h
  · rename_i ha
    cases h
    exact .inl ⟨ha, rfl, rfl⟩
  · rename_i i is ha
    cases h
    exact .inr ⟨i, is, ha, rfl, rfl⟩

/-- `RunTaskFuncs` takes the first functor, if there is one, and what that does is minor. -/
theorem loopTasks_ok (h : exec cfg t inp s (.loopTasks l) = .ok s' gs) :
    (s.queue l = [] ∧ s' = s ∧ gs = [.loopPoll l]) ∨
      ∃ k ks gs', s.queue l = k :: ks ∧ (s.dequeue t l k ks).Minor s' ∧
        gs = gs' ++ [.taskDone k, .loopPoll l] ∧ gs'.any Frame.isLoop = false := by
  simp only [exec] at h
  split at h
  · rename_i hq
    cases h
    exact .inl ⟨hq, rfl, rfl⟩
  · rename_i k ks hq
    obtain ⟨gs', h', rfl⟩ := Res.followedBy_ok h
    obtain ⟨hm, hg⟩ := task_minor _ _ h'
    exact .inr ⟨k, ks, gs', hq, hm, rfl, hg⟩

/-- The stacks are as they were before the frames are pushed, and an active list is changed by its
own loop's `Poll` and dispatch only. -/
theorem exec_keeps (hp : ∀ c, s.nextSerial ≤ c.serial → s.conns c = {})
    (hx : exec cfg t inp s f = .ok s' gs) :
    s'.stack = s.stack ∧ ∀ l, f ≠ .loopPoll l → f ≠ .loopDispatch l → s'.active l = s.active l := by
  cases hf : f.isLoop with
  | false =>
    obtain ⟨hm, -⟩ := exec_minor hp hf _ _ hx
    have hactive := hm.active.trans Frame.fed_same.2.1
    exact ⟨hm.stack.trans Frame.fed_same.1, fun l _ _ => congrFun hactive l⟩
  | true =>
    cases f with
    | loopPoll l' =>
      obtain ⟨-, evs, -, -, rfl, -⟩ := loopPoll_ok hx
      exact ⟨rfl, fun l hne _ => Function.update_of_ne (fun h => hne (by rw [h])) ..⟩
    | loopDispatch l' =>
      rcases loopDispatch_ok hx with ⟨-, rfl, -⟩ | ⟨i, is, -, rfl, -⟩
      all_goals exact ⟨rfl, fun l _ hne => Function.update_of_ne (fun h => hne (by rw [h])) ..⟩
    | loopTasks l' =>
      rcases loopTasks_ok hx with ⟨-, rfl, -⟩ | ⟨k, ks, gs', -, hm, -, -⟩
      · exact ⟨rfl, fun _ _ _ => rfl⟩
      · exact ⟨hm.stack, fun l _ _ => congrFun hm.active l⟩
    | _ => cases hf

/-- A step is made only as long as no assert has failed. -/
theorem running_of_step {a : Act} (hst : step cfg s a = some s') : s.failed = none := by
  by_contra hf
  simp [step, hf] at hst

end Liang.Net
