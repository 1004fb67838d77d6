import NetworkPoller.Net.Proof.Steps

/-!
# Threads keep to their own, and functors to their order

`Confined cfg t s s'`: between `s` and `s'` the thread `t` has run no functor and destroyed no
connection, and has written `connections_` and the channels of a loop only if it owns them.
`Res.Safe` says that a function is confined and does not fail an assert on the thread it runs in; it is
shown function by function along the source, from the thread the function runs in (`exec_safe`).
`Fifo` is the invariant of the queues. `thread_confinement` puts them together for every run.
-/

namespace Liang.Net

open Base TcpConnection

/-- Thread `t` has kept to its own between `s` and `s'` (module doc). -/
structure Confined (cfg : Cfg) (t : Tid) (s s' : Sys) : Prop where
  executed : s'.executed = s.executed
  connections : t ≠ .loop cfg.serverLoop → s'.connections = s.connections
  channels : ∀ l, t ≠ .loop l → (s'.pollers l).chan = (s.pollers l).chan ∧
    (s'.pollers l).evtChannelList = (s.pollers l).evtChannelList
  failed : s'.failed = s.failed
  alive : ∀ c, s.alive c = true → s'.alive c = true

/-- The function was confined, and no assert on the thread failed. -/
def Res.Safe (cfg : Cfg) (t : Tid) (s : Sys) : Res → Prop
  | .disabled => True
  | .fail a => a ≠ .inLoopThread ∧ a ≠ .ownerThread
  | .ok s' _ => Confined cfg t s s'

variable {cfg : Cfg} {d : Discipline} {s s₀ s' : Sys} {t : Tid} {c : ConnId} {l : LoopId}
  {k : ClientId} {inp : Input}

theorem Confined.refl (s : Sys) : Confined cfg t s s :=
  ⟨rfl, fun _ => rfl, fun _ _ => ⟨rfl, rfl⟩, rfl, fun _ => id⟩

theorem Confined.setPoller (h : Confined cfg t s₀ s) (ht : t = .loop l) (p : EpollPoller ChanId) :
    Confined cfg t s₀ (s.setPoller l p) := by
  refine ⟨h.executed, h.connections, fun l' hl' => ?_, h.failed, h.alive⟩
  have hne : l' ≠ l := by
    rintro rfl
    exact hl' ht
  rw [Sys.setPoller_of_ne _ hne]
  exact h.channels l' hl'

theorem Confined.ite {p : Prop} [Decidable p] {s₁ s₂ : Sys} (h₁ : Confined cfg t s₀ s₁)
    (h₂ : Confined cfg t s₀ s₂) : Confined cfg t s₀ (if p then s₁ else s₂) := by
  split
  · exact h₁
  · exact h₂

/-! ## Rules for `Safe` -/

namespace Res.Safe

variable {x : Res} {f : Sys → Res}

theorem assert {p : Prop} [Decidable p] {a : Assert} (hp : p) (hx : x.Safe cfg t s₀) :
    (Res.assert p a x).Safe cfg t s₀ := by
  rw [Res.assert, if_pos hp]
  exact hx

theorem assert_other {p : Prop} [Decidable p] {a : Assert} (ha : a ≠ .inLoopThread ∧ a ≠ .ownerThread)
    (hx : x.Safe cfg t s₀) : (Res.assert p a x).Safe cfg t s₀ := by
  unfold Res.assert
  split
  · exact hx
  · exact ha

theorem channelOp {op : EpollPoller ChanId → Except PollerAssert (EpollPoller ChanId)}
    (ht : t = .loop l) (h : Confined cfg t s₀ s)
    (hf : ∀ s₁, Confined cfg t s₀ s₁ → (f s₁).Safe cfg t s₀) :
    (Res.bind (s.channelOp t l op) f).Safe cfg t s₀ := by
  rw [Sys.channelOp, if_neg (not_not.2 ht)]
  split
  · exact hf _ (h.setPoller ht _)
  · exact ⟨nofun, nofun⟩

theorem removeFromLoop {i : ChanId} (ht : t = .loop (i.loop cfg)) (h : Confined cfg t s₀ s)
    (hf : ∀ s₁, Confined cfg t s₀ s₁ → (f s₁).Safe cfg t s₀) :
    (Res.bind (s.removeFromLoop cfg t i) f).Safe cfg t s₀ := by
  rw [Sys.removeFromLoop, if_neg (not_not.2 ht)]
  split
  · exact ⟨nofun, nofun⟩
  · exact channelOp ht h hf

theorem followedBy {gs : List Frame} (hx : x.Safe cfg t s₀) : (x.followedBy gs).Safe cfg t s₀ := by
  cases x <;> exact hx

end Res.Safe

/-! ## `TcpConnection` -/

theorem Confined.note (h : Confined cfg t s₀ s) (es : List ConnEv) :
    Confined cfg t s₀ (s.note c es) := ⟨h.executed, h.connections, h.channels, h.failed, h.alive⟩

theorem Confined.updConn (h : Confined cfg t s₀ s) (f : Conn → Conn) :
    Confined cfg t s₀ (s.updConn c f) := ⟨h.executed, h.connections, h.channels, h.failed, h.alive⟩

theorem Confined.queueInLoop (h : Confined cfg t s₀ s) (k : Task) :
    Confined cfg t s₀ (s.queueInLoop t l k) := ⟨h.executed, h.connections, h.channels, h.failed, h.alive⟩

theorem Confined.updClient (h : Confined cfg t s₀ s) (f : Client → Client) :
    Confined cfg t s₀ (s.updClient k f) := ⟨h.executed, h.connections, h.channels, h.failed, h.alive⟩

theorem closeHandler_safe (ht : t = .loop c.loop) (h : Confined cfg t s₀ s) :
    (closeHandler cfg t c s).Safe cfg t s₀ :=
  .assert ht (.channelOp ht ((h.updConn _).note _) fun _ h₁ => h₁.note _)

theorem connectEstablished_safe (ht : t = .loop c.loop) (h : Confined cfg t s₀ s) :
    (connectEstablished cfg t c s).Safe cfg t s₀ :=
  .assert ht (.channelOp ht ((h.updConn _).note _) fun _ h₁ => h₁.note _)

theorem connectDestoryedRest_safe (ht : t = .loop c.loop) (h : Confined cfg t s₀ s) :
    (connectDestoryedRest cfg t c s).Safe cfg t s₀ :=
  .removeFromLoop ht h fun _ h₁ => h₁.note _

theorem connectDestoryed_safe (ht : t = .loop c.loop) (h : Confined cfg t s₀ s) :
    (connectDestoryed cfg t c s).Safe cfg t s₀ := by
  refine .assert ht ?_
  split
  · exact .channelOp ht (h.updConn _) fun _ h₁ => h₁.note _
  · exact connectDestoryedRest_safe ht h

theorem readHandler_safe {x : ReadRes} (ht : t = .loop c.loop) (h : Confined cfg t s₀ s) :
    (readHandler cfg t c x s).Safe cfg t s₀ := by
  refine .assert ht ?_
  split
  · dsimp only
    split
    · split
      · exact (h.updConn _).note _
      · exact closeHandler_safe ht (h.updConn _)
    · split
      · exact closeHandler_safe ht (h.updConn _)
      · split
        · exact h.updConn _
        · exact h.updConn _
  · trivial

theorem shutdownInLoop_safe (ht : t = .loop c.loop) (h : Confined cfg t s₀ s) :
    (shutdownInLoop t c s).Safe cfg t s₀ := by
  refine .assert ht ?_
  split
  · exact h
  · exact h.updConn _

theorem writeHandler_safe (ht : t = .loop c.loop) (h : Confined cfg t s₀ s) :
    (writeHandler cfg t c inp s).Safe cfg t s₀ := by
  refine .assert ht ?_
  split
  · split
    · split
      · split
        · dsimp only
          split
          · exact .channelOp ht (h.updConn _) fun _ h₁ => h₁
          · exact h.updConn _
        · exact h
      · trivial
    · exact h
    · trivial
  · exact h

theorem writeHandlerRest_safe (ht : t = .loop c.loop) (h : Confined cfg t s₀ s) :
    (writeHandlerRest t c s).Safe cfg t s₀ := by
  unfold writeHandlerRest
  split
  · exact shutdownInLoop_safe ht h
  · exact h

theorem forceCloseInLoop_safe (ht : t = .loop c.loop) (h : Confined cfg t s₀ s) :
    (forceCloseInLoop cfg t c s).Safe cfg t s₀ := by
  refine .assert ht ?_
  split
  · exact closeHandler_safe ht h
  · exact h

theorem sendRemaining_safe {m : Msg} (ht : t = .loop c.loop) (h : Confined cfg t s₀ s) :
    (sendRemaining cfg t c m s).Safe cfg t s₀ := by
  unfold sendRemaining
  split
  · dsimp only
    split <;> split
    · exact (h.queueInLoop _).updConn _
    · exact .channelOp ht ((h.queueInLoop _).updConn _) fun _ h₁ => h₁
    · exact h.updConn _
    · exact .channelOp ht (h.updConn _) fun _ h₁ => h₁
  · exact h

theorem sendInLoop_safe {T : Tid} {m : Msg} (ht : t = .loop c.loop) (h : Confined cfg t s₀ s) :
    (sendInLoop cfg t c T m inp s).Safe cfg t s₀ := by
  refine .assert ht ?_
  dsimp only
  split
  · exact h.updConn _
  · split
    · split
      · split
        · exact sendRemaining_safe ht
            (.ite (((h.updConn _).updConn _).queueInLoop _) ((h.updConn _).updConn _))
        · trivial
      · split
        · exact closeHandler_safe ht (h.updConn _)
        · exact sendRemaining_safe ht (h.updConn _)
      · trivial
    · exact sendRemaining_safe ht (h.updConn _)

theorem startReadInLoop_safe (ht : t = .loop c.loop) (h : Confined cfg t s₀ s) :
    (startReadInLoop cfg t c s).Safe cfg t s₀ := by
  refine .assert ht ?_
  split
  · exact h
  · exact .channelOp ht h fun _ h₁ => h₁

theorem stopReadInLoop_safe (ht : t = .loop c.loop) (h : Confined cfg t s₀ s) :
    (stopReadInLoop cfg t c s).Safe cfg t s₀ := by
  refine .assert ht ?_
  split
  · exact .channelOp ht h fun _ h₁ => h₁
  · exact h

/-- `Send` looks at the thread itself. -/
theorem send_safe {m : Msg} (h : Confined cfg t s₀ s) : (send cfg t c m inp s).Safe cfg t s₀ := by
  unfold send
  dsimp only
  split
  · rename_i ht
    exact sendInLoop_safe ht (h.updConn _)
  · exact (h.updConn _).queueInLoop _

theorem shutdown_safe (h : Confined cfg t s₀ s) : (shutdown t c inp s).Safe cfg t s₀ := by
  unfold shutdown
  split
  · split
    · exact h.updConn _
    · exact h
  · trivial

theorem forceClose_safe (h : Confined cfg t s₀ s) : (forceClose c inp s).Safe cfg t s₀ := by
  unfold forceClose
  split
  · split
    · exact h.updConn _
    · exact h
  · trivial

theorem forceCloseAgain_safe (h : Confined cfg t s₀ s) :
    (forceCloseAgain c inp s).Safe cfg t s₀ := by
  unfold forceCloseAgain
  split
  · split <;> exact h
  · trivial

/-! ## `TcpServer` and `TcpAcceptor` -/

theorem Confined.setConnections (h : Confined cfg t s₀ s) (ht : t = .loop cfg.serverLoop)
    (q : Fd → Option ConnId) : Confined cfg t s₀ { s with connections := q } :=
  ⟨h.executed, fun hn => absurd ht hn, h.channels, h.failed, h.alive⟩

theorem alive_update {q : ConnId → Bool} (h : ∀ c, s₀.alive c = true → q c = true) (c' : ConnId) :
    ∀ c, s₀.alive c = true → Function.update q c' true c = true := fun c hc => by
  by_cases hcc : c = c'
  · rw [hcc, Function.update_self]
  · rw [Function.update_of_ne hcc, h c hc]

theorem removeConnectionInLoop_safe (ht : t = .loop cfg.serverLoop) (h : Confined cfg t s₀ s) :
    (TcpServer.removeConnectionInLoop cfg t c s).Safe cfg t s₀ :=
  .assert ht (((h.setConnections ht _).note _).queueInLoop _)

theorem removeConnection_safe (h : Confined cfg t s₀ s) :
    (TcpServer.removeConnection cfg t c s).Safe cfg t s₀ := by
  unfold TcpServer.removeConnection
  split
  · rename_i ht
    exact removeConnectionInLoop_safe ht h
  · exact h.queueInLoop _

theorem startServer_safe (h : Confined cfg t s₀ s) :
    (TcpServer.start inp s).Safe cfg t s₀ := by
  unfold TcpServer.start
  split
  · split
    · exact ⟨h.executed, h.connections, h.channels, h.failed, h.alive⟩
    · exact h
  · trivial

theorem listen_safe (ht : t = .loop cfg.serverLoop) (h : Confined cfg t s₀ s) :
    (TcpAcceptor.listen cfg t s).Safe cfg t s₀ :=
  .assert ht (.channelOp ht h fun _ h₁ => h₁)

theorem acceptHandle_safe (ht : t = .loop cfg.serverLoop) (h : Confined cfg t s₀ s) :
    (TcpAcceptor.acceptHandle cfg t inp s).Safe cfg t s₀ := by
  refine .assert ht ?_
  split
  · split
    · exact .followedBy (.assert ht
        ⟨h.executed, fun hn => absurd ht hn, h.channels, h.failed, alive_update h.alive _⟩)
    · trivial
  · split <;> exact h
  · trivial

theorem dropNewFd_safe (h : Confined cfg t s₀ s) :
    (TcpAcceptor.dropNewFd inp s).Safe cfg t s₀ := by
  unfold TcpAcceptor.dropNewFd
  split
  · split
    · exact ⟨h.executed, h.connections, h.channels, h.failed, h.alive⟩
    · trivial
  · exact h
  · trivial

/-! ## `TcpClient` and `TcpConnector` -/

theorem clientRemoveConnection_safe (ht : t = .loop (cfg.clientLoop k)) (h : Confined cfg t s₀ s) :
    (TcpClient.removeConnection cfg t k c s).Safe cfg t s₀ :=
  .assert ht (.assert_other ⟨nofun, nofun⟩ (((h.updClient _).note _).queueInLoop _))

theorem startInLoop_safe (ht : t = .loop (cfg.clientLoop k)) (h : Confined cfg t s₀ s) :
    (TcpConnector.startInLoop cfg t k inp s).Safe cfg t s₀ := by
  refine .assert ht (.assert_other ⟨nofun, nofun⟩ ?_)
  split
  · split
    · dsimp only
      split
      · exact .channelOp ht ⟨h.executed, h.connections, h.channels, h.failed, h.alive⟩ fun _ h₁ => h₁
      · exact ⟨h.executed, h.connections, h.channels, h.failed, h.alive⟩
    · trivial
  · split
    · exact h.updClient _
    · trivial
  · trivial

theorem startRest_safe (h : Confined cfg t s₀ s) :
    (TcpConnector.startRest cfg t k inp s).Safe cfg t s₀ := by
  unfold TcpConnector.startRest
  split
  · rename_i ht
    exact startInLoop_safe ht h
  · exact (h.updClient _).queueInLoop _

theorem startConnector_safe (h : Confined cfg t s₀ s) :
    (TcpConnector.start t k inp s).Safe cfg t s₀ := by
  unfold TcpConnector.start
  split
  · split
    · exact h.updClient _
    · exact h
  · trivial

theorem writeEventHandler_safe (ht : t = .loop (cfg.clientLoop k)) (h : Confined cfg t s₀ s) :
    (TcpConnector.writeEventHandler cfg t k s).Safe cfg t s₀ := by
  refine .assert_other ⟨nofun, nofun⟩ ?_
  split
  · exact ⟨nofun, nofun⟩
  · exact .channelOp ht h fun _ h₁ => .removeFromLoop ht h₁ fun _ h₂ =>
      (h₂.updClient _).queueInLoop _

theorem writeEventRest_safe {fd : Fd} (ht : t = .loop (cfg.clientLoop k)) (h : Confined cfg t s₀ s) :
    (TcpConnector.writeEventRest cfg t k fd inp s).Safe cfg t s₀ := by
  unfold TcpConnector.writeEventRest
  split
  · split
    · exact ⟨h.executed, h.connections, h.channels, h.failed, h.alive⟩
    · exact .assert ht (connectEstablished_safe ht
        ⟨h.executed, h.connections, h.channels, h.failed, alive_update h.alive _⟩)
  · trivial

/-! ## Functors, calls and frames -/

/-- The thread of the loop a functor belongs to can run it. -/
theorem task_safe {k : Task} (hh : k.Home cfg l) (ht : t = .loop l) (h : Confined cfg t s₀ s) :
    (k.run cfg t inp s).Safe cfg t s₀ := by
  cases k with
  | connectEstablished c => exact connectEstablished_safe (hh.1 ▸ ht) h
  | connectDestoryed c => exact connectDestoryed_safe (hh ▸ ht) h
  | sendInLoop c T m => exact sendInLoop_safe (hh.1 ▸ ht) h
  | startReadInLoop c => exact startReadInLoop_safe (hh ▸ ht) h
  | stopReadInLoop c => exact stopReadInLoop_safe (hh ▸ ht) h
  | shutdownInLoop c => exact shutdownInLoop_safe (hh ▸ ht) h
  | forceCloseInLoop c => exact forceCloseInLoop_safe (hh ▸ ht) h
  | writtenCb c | highWaterCb c n | connectorStop k | functor => exact h
  | removeConnectionInLoop c => exact removeConnectionInLoop_safe (hh.1 ▸ ht) h
  | listen => exact listen_safe (hh ▸ ht) h
  | connectorStart k => exact startInLoop_safe (hh ▸ ht) h
  | connectorReset k => exact h.updClient _

theorem api_safe {a : Api} (h : Confined cfg t s₀ s) : (a.run cfg t inp s).Safe cfg t s₀ := by
  cases a with
  | send c m => exact send_safe h
  | startRead c | stopRead c => exact h.queueInLoop _
  | shutdown c => exact shutdown_safe h
  | forceClose c => exact forceClose_safe h
  | setCallbacks c cbs | swapBuffer c rhs => exact h.updConn _
  | buffer c op =>
    simp only [Api.run]
    split
    · exact h.updConn _
    · exact h
  | retain c | release c => exact ⟨h.executed, h.connections, h.channels, h.failed, h.alive⟩
  | start => exact startServer_safe h
  | connect k => exact startConnector_safe h
  | disconnect k =>
    simp only [Api.run, TcpClient.disconnect]
    split
    · exact shutdown_safe h
    · exact h
  | stop k =>
    simp only [Api.run, TcpConnector.stop]
    split <;> exact h
  | runInLoop l | queueInLoop l => exact h

/-- **Every frame runs in its thread**, and is confined to it. -/
theorem exec_safe (inp : Input) {f : Frame} {r : List Frame} (hI : Inv cfg d s) (hs : s.stack t = f :: r)
    (hf : ∀ l, f ≠ .loopTasks l) : (exec cfg t inp s f).Safe cfg t s := by
  have hh := hI.sound.loop_thread hs
  have hc : Confined cfg t s s := .refl s
  cases f with
  | loopPoll l =>
    refine .assert hh ?_
    split
    · split
      · rename_i evs _
        have h₁ := hc.setPoller hh (setRecieved (s.pollers l) evs)
        exact ⟨h₁.executed, h₁.connections, h₁.channels, h₁.failed, h₁.alive⟩
      · trivial
    · trivial
  | loopDispatch l =>
    simp only [exec]
    split <;> exact ⟨rfl, fun _ => rfl, fun _ _ => ⟨rfl, rfl⟩, rfl, fun _ => id⟩
  | loopTasks l => exact absurd rfl (hf l)
  | taskDone k => exact hc
  | user c? =>
    simp only [exec]
    split
    · split
      · exact hc
      · trivial
    · exact hc
    · trivial
  | api a => exact api_safe hc
  | forceCloseAgain c => exact forceCloseAgain_safe hc
  | startPool => exact ⟨rfl, fun _ => rfl, fun _ _ => ⟨rfl, rfl⟩, rfl, fun _ => id⟩
  | queueInLoop l k => exact hc.queueInLoop _
  | runInLoop l k =>
    simp only [exec]
    split
    · exact task_safe hh.1 ‹_› hc
    · exact hc.queueInLoop _
  | handleEvent i => exact hc
  | closeHandler c => exact closeHandler_safe hh hc
  | errorHandler c => exact hc
  | readHandler c =>
    simp only [exec]
    split
    · exact readHandler_safe hh hc
    · trivial
  | writeHandler c => exact writeHandler_safe hh hc
  | writeHandlerRest c => exact writeHandlerRest_safe hh hc
  | closeCb c =>
    simp only [exec]
    split
    · exact removeConnection_safe (hc.note _)
    · rename_i k ho
      refine clientRemoveConnection_safe ?_ (hc.note _)
      rw [← hI.sound.wf c (hI.sound.frame_live hs rfl).1 k ho]
      exact hh
  | destoryedRest c => exact absurd hh id
  | acceptHandle => exact acceptHandle_safe hh hc
  | closeIdle => exact ⟨rfl, fun _ => rfl, fun _ _ => ⟨rfl, rfl⟩, rfl, fun _ => id⟩
  | reAccept => exact dropNewFd_safe hc
  | reOpen => exact dropNewFd_safe hc
  | connectorRun k => exact startRest_safe hc
  | writeEventHandler k => exact writeEventHandler_safe hh hc
  | writeEventRest k fd => exact writeEventRest_safe hh hc

/-- `RunTaskFuncs` takes a functor from the queue at most; what it does then is confined. -/
theorem tasks_safe (inp : Input) {r : List Frame} (hI : Inv cfg d s) (hs : s.stack t = .loopTasks l :: r) :
    ∃ s₁, (s₁ = s ∨ ∃ k ks, s.queue l = k :: ks ∧ s₁ = s.dequeue t l k ks) ∧
      (exec cfg t inp s (.loopTasks l)).Safe cfg t s₁ := by
  simp only [exec]
  split
  · exact ⟨s, .inl rfl, Confined.refl s⟩
  · rename_i k ks hq
    have hk := (hI.sound.tasks l k (hq ▸ List.mem_cons_self)).home
    exact ⟨_, .inr ⟨k, ks, hq, rfl⟩, .followedBy (task_safe hk (hI.sound.loop_thread hs) (.refl _))⟩

/-! ## The queues -/

/-- The functors of every queue are run in the order they were queued in, by the loop's thread. -/
structure Fifo (s : Sys) : Prop where
  order : ∀ l, (s.executed l).map (·.2) ++ s.queue l = (s.enqueued l).map (·.2)
  owner : ∀ l, ∀ e ∈ s.executed l, e.1 = .loop l

namespace Fifo

theorem same (h : Fifo s) (hq : s'.queue = s.queue) (he : s'.enqueued = s.enqueued)
    (hx : s'.executed = s.executed) : Fifo s' :=
  ⟨fun l => by rw [hq, he, hx]; exact h.order l, fun l => by rw [hx]; exact h.owner l⟩

theorem queueInLoop (h : Fifo s) (t : Tid) (l : LoopId) (k : Task) : Fifo (s.queueInLoop t l k) := by
  refine ⟨fun l' => ?_, h.owner⟩
  by_cases hl : l' = l
  · subst hl
    simp only [Sys.queueInLoop, Function.update_self, List.map_append, List.map_singleton,
      ← h.order l', List.append_assoc]
  · simp only [Sys.queueInLoop, Function.update_of_ne hl]
    exact h.order l'

theorem dequeue (h : Fifo s) {k : Task} {ks : List Task} (hq : s.queue l = k :: ks)
    (ht : t = .loop l) : Fifo (s.dequeue t l k ks) := by
  refine ⟨fun l' => ?_, fun l' e he => ?_⟩ <;> by_cases hl : l' = l
  · subst hl
    simp only [Sys.dequeue, Function.update_self, List.map_append, List.map_singleton,
      List.append_assoc, List.singleton_append]
    rw [← hq]
    exact h.order l'
  · simp only [Sys.dequeue, Function.update_of_ne hl]
    exact h.order l'
  · subst hl
    simp only [Sys.dequeue, Function.update_self, List.mem_append, List.mem_singleton] at he
    rcases he with he | rfl
    · exact h.owner l' e he
    · exact ht
  · simp only [Sys.dequeue, Function.update_of_ne hl] at he
    exact h.owner l' e he

theorem startSource (h : Fifo s) (hS : Sound cfg d s) {s₀ : Sys} {r : List Frame}
    (hs : StartSource t k s s₀ r) : Fifo s₀ := by
  cases hs with
  | frame _ => exact h
  | task hs hq => exact h.dequeue hq (hS.loop_thread hs)

/-- Every effect keeps the order. -/
theorem effect (h : Fifo s) (hS : Sound cfg d s) (he : Effect cfg d t s s') : Fifo s' := by
  cases he with
  | dequeue hs hq _ => exact h.dequeue hq (hS.loop_thread hs)
  | sendTaken hs hq _ => exact (h.dequeue hq (hS.loop_thread hs)).same rfl rfl rfl
  | shutTaken hs hq _ => exact (h.dequeue hq (hS.loop_thread hs)).same rfl rfl rfl
  | establish hs hq _ _ => exact (h.dequeue hq (hS.loop_thread hs)).same rfl rfl rfl
  | sendFailed hs hq _ _ _ => exact (h.dequeue hq (hS.loop_thread hs)).same rfl rfl rfl
  | destroyed hs hq _ _ => exact (h.dequeue hq (hS.loop_thread hs)).same rfl rfl rfl
  | reset hs hq => exact (h.dequeue hq (hS.loop_thread hs)).same rfl rfl rfl
  | unlinkTaken hs hq _ =>
    exact ((h.dequeue hq (hS.loop_thread hs)).queueInLoop t _ _).same rfl rfl rfl
  | attempt hs _ _ _ _ => exact (h.startSource hS hs).same rfl rfl rfl
  | attemptFailed hs => exact (h.startSource hS hs).same rfl rfl rfl
  | enqueue | sendQueued | handOver | unlink | unlinkClient | accept | connectQueued | removeChannel
  | retry => exact (h.queueInLoop t _ _).same rfl rfl rfl
  | poll | dispatch | dispatched | idle | finish | handled | conn | events | close | connect | newConnection
  | openFd | closeFd | destroy | hold | start | initPool | stop => exact h.same rfl rfl rfl

end Fifo

/-! ## Every run -/

theorem Discipline.any_allows {a : Act} : Discipline.any.Allows cfg s a := by
  cases a with
  | thread t inp =>
    intro f r _
    cases f <;> simp [AllowsFrame, Discipline.any]
  | destroy c => exact ⟨.inr trivial, .inr trivial⟩
  | openFd n => trivial
  | closeFd n => trivial

/-- The base invariants hold in every run. -/
theorem Inv.any {P : Sys → Act → Prop} (h : Runs.Reach (step cfg) P (Sys.init cfg) s) :
    Inv cfg .any s :=
  (Inv.reach (I := fun _ => True) trivial (fun _ _ _ _ _ _ => trivial)
    (fun _ _ _ _ _ _ _ => Discipline.any_allows) h).1

theorem Fifo.reach {P : Sys → Act → Prop} (h : Runs.Reach (step cfg) P (Sys.init cfg) s) :
    Fifo s :=
  (Inv.reach (d := .any) ⟨fun _ => rfl, fun _ _ he => absurd he List.not_mem_nil⟩
    (fun _ _ _ hI hi he => hi.effect hI.sound he) (fun _ _ _ _ _ _ _ => Discipline.any_allows) h).2

/-- What a step writes is its thread's own. -/
structure StepConfined (cfg : Cfg) (s : Sys) (a : Act) (s' : Sys) : Prop where
  connections : s'.connections ≠ s.connections → ∃ inp, a = .thread (.loop cfg.serverLoop) inp
  channels : ∀ l, (s'.pollers l).chan ≠ (s.pollers l).chan ∨
    (s'.pollers l).evtChannelList ≠ (s.pollers l).evtChannelList → ∃ inp, a = .thread (.loop l) inp
  /-- a functor is run with nothing else on the thread's stack -/
  executed : ∀ l, s'.executed l ≠ s.executed l →
    ∃ inp, a = .thread (.loop l) inp ∧ s.stack (.loop l) = [.loopTasks l]

/-- A thread that is confined from `s₁` on, where at most a functor is taken before. -/
theorem StepConfined.of {s₁ : Sys} (h : Confined cfg t s₁ s') (hc : s₁.connections = s.connections)
    (hp : s₁.pollers = s.pollers) (hx : ∀ l, s₁.executed l ≠ s.executed l →
      t = .loop l ∧ s.stack (.loop l) = [.loopTasks l]) :
    StepConfined cfg s (.thread t inp) s' where
  connections hne := by
    by_contra hn
    exact hne ((h.connections fun ht => hn ⟨inp, by rw [ht]⟩).trans hc)
  channels l hne := by
    by_contra hn
    obtain ⟨h1, h2⟩ := h.channels l fun ht => hn ⟨inp, by rw [ht]⟩
    rw [h1, h2, hp] at hne
    simp at hne
  executed l hne := by
    obtain ⟨rfl, hs⟩ := hx l (by rwa [← h.executed])
    exact ⟨inp, rfl, hs⟩

theorem step_confined {a : Act} (hI : Inv cfg d s) (h : step cfg s a = some s') :
    StepConfined cfg s a s' := by
  rcases step_cases h with ⟨t, inp, f, r, gs, s₁, rfl, hs, he, rfl⟩ |
    ⟨t, inp, f, r, e, rfl, hs, he, rfl⟩ | ⟨c, rfl, -, -, rfl⟩ | ⟨n, rfl, -, rfl⟩ | ⟨n, rfl, -, rfl⟩
  · by_cases hf : ∃ l, f = .loopTasks l
    · obtain ⟨l, rfl⟩ := hf
      obtain ⟨rfl, rfl, -⟩ := hI.shape.of_tasks hI.sound hs
      obtain ⟨s₂, hs₂, hsafe⟩ := tasks_safe inp hI hs
      rw [he] at hsafe
      refine .of ⟨hsafe.executed, hsafe.connections, hsafe.channels, hsafe.failed, hsafe.alive⟩ ?_ ?_
        fun l' hl' => ?_
      · rcases hs₂ with rfl | ⟨k, ks, -, rfl⟩ <;> rfl
      · rcases hs₂ with rfl | ⟨k, ks, -, rfl⟩ <;> rfl
      · obtain rfl : l' = l := by
          by_contra hne
          rcases hs₂ with rfl | ⟨k, ks, -, rfl⟩
          · exact hl' rfl
          · exact hl' (Function.update_of_ne hne ..)
        exact ⟨rfl, hs⟩
    · have hsafe := exec_safe inp hI hs fun l hl => hf ⟨l, hl⟩
      rw [he] at hsafe
      exact .of ⟨hsafe.executed, hsafe.connections, hsafe.channels, hsafe.failed, hsafe.alive⟩ rfl rfl
        fun l hl => absurd rfl hl
  all_goals exact ⟨fun hn => absurd rfl hn,
    fun l hn => hn.elim (fun hn => absurd rfl hn) fun hn => absurd rfl hn, fun l hn => absurd rfl hn⟩

/-- Running a frame fails no assert on the thread, leaves the failures alone otherwise, and destroys
nothing. -/
theorem exec_failed {f : Frame} {r : List Frame} (hI : Inv cfg d s) (hs : s.stack t = f :: r) :
    (∀ a, exec cfg t inp s f = .fail a → a ≠ .inLoopThread ∧ a ≠ .ownerThread) ∧
      ∀ s' gs, exec cfg t inp s f = .ok s' gs → s'.failed = s.failed ∧
        ∀ c, s.alive c = true → s'.alive c = true := by
  obtain ⟨s₁, hf, hal, hsafe⟩ : ∃ s₁ : Sys, s₁.failed = s.failed ∧ s₁.alive = s.alive ∧
      (exec cfg t inp s f).Safe cfg t s₁ := by
    by_cases hf : ∃ l, f = .loopTasks l
    · obtain ⟨l, rfl⟩ := hf
      obtain ⟨s₁, rfl | ⟨k, ks, -, rfl⟩, hsafe⟩ := tasks_safe inp hI hs
      · exact ⟨s₁, rfl, rfl, hsafe⟩
      · exact ⟨s.dequeue t l k ks, rfl, rfl, hsafe⟩
    · exact ⟨s, rfl, rfl, exec_safe inp hI hs fun l hl => hf ⟨l, hl⟩⟩
  refine ⟨fun a ha => ?_, fun s' gs hok => ?_⟩
  · rw [ha] at hsafe
    exact hsafe
  · rw [hok] at hsafe
    exact ⟨hsafe.failed.trans hf, hal ▸ hsafe.alive⟩

/-- No assert on the thread has failed. -/
theorem failed_thread {P : Sys → Act → Prop} (h : Runs.Reach (step cfg) P (Sys.init cfg) s) :
    s.failed ≠ some .inLoopThread ∧ s.failed ≠ some .ownerThread := by
  refine h.inv (I := fun s => s.failed ≠ some .inLoopThread ∧ s.failed ≠ some .ownerThread)
    ⟨by simp [Sys.init], by simp [Sys.init]⟩ fun s a s' hr hi _ hstep => ?_
  have hI := Inv.any hr
  rcases step_cases hstep with ⟨t, inp, f, r, gs, s₁, rfl, hs, he, rfl⟩ |
    ⟨t, inp, f, r, e, rfl, hs, he, rfl⟩ | ⟨c, rfl, -, -, rfl⟩ | ⟨n, rfl, -, rfl⟩ | ⟨n, rfl, -, rfl⟩
  · rw [show (s₁.push t (gs ++ r)).failed = s.failed from ((exec_failed hI hs).2 s₁ gs he).1]
    exact hi
  · obtain ⟨h1, h2⟩ := (exec_failed hI hs).1 e he
    exact ⟨fun h => h1 (Option.some.inj h), fun h => h2 (Option.some.inj h)⟩
  all_goals exact hi

/-- **Thread confinement and task order**, for every run: what is queued on a loop is run at most
once, by the loop's thread, in the order it was queued in, with nothing else on that thread's stack;
no assert on the thread fails; every frame stands with the thread it belongs to; and `connections_`
and the channels of a loop are written by their own thread only. -/
theorem thread_confinement (h : Runs.Reach (step cfg) (fun _ _ => True) (Sys.init cfg) s) :
    (∀ l, (s.executed l).map (·.2) ++ s.queue l = (s.enqueued l).map (·.2)) ∧
    (∀ l, ∀ e ∈ s.executed l, e.1 = .loop l) ∧
    (s.failed ≠ some .inLoopThread ∧ s.failed ≠ some .ownerThread) ∧
    (∀ t, ∀ f ∈ s.stack t, f.Home cfg t) ∧
    (∀ a s', step cfg s a = some s' → StepConfined cfg s a s') :=
  have hI := Inv.any h
  ⟨(Fifo.reach h).order, (Fifo.reach h).owner, failed_thread h,
    fun t f hf => (hI.sound.frames t f hf).home, fun _ _ hstep => step_confined hI hstep⟩

/-! ### A server on one loop -/

/-- A server whose loop is its only one, a user's thread, and every callback but the write-complete
one. -/
def Cfg.sample : Cfg where
  serverLoop := 0
  workers := []
  clientLoop := fun _ => 0
  loops := [0]
  users := [7]
  listenFd := 3
  idleFd := 4
  otherFds := []
  msgCb := true
  wroteCb := false
  statusCb := true
  clientMsgCb := fun _ => true
  clientWroteCb := fun _ => false
  clientStatusCb := fun _ => true
  server_mem := by decide
  workers_mem := by simp
  client_mem := by simp
  workers_ne := by simp

/-- Its first connection. -/
def sampleConn : ConnId := ⟨0, 5, 0, .server⟩

/-- The loop's thread with these inputs, one after the other. -/
def loopActs (inps : List Input) : List Act := inps.map (.thread (.loop 0))

/-- A user's thread. -/
def callActs (inps : List Input) : List Act := inps.map (.thread (.user 7))

/-- It is started, accepts `sampleConn`, and user code keeps a reference. -/
def sampleStart : List Act :=
  loopActs [
    -- `Start` from the loop's thread, which then enters `Loop`
    .call .start, .cas false, .none, .ret,
    -- `Listen` from the queue
    .poll [], .none, .none, .none,
    -- one connection is accepted
    .poll [(3, pollIn)], .none, .none, .fd (.ok 5), .fd (.error eAgain), .none,
    -- `ConnectEstablished`; its callback keeps the connection
    .none, .call (.retain sampleConn), .none, .ret, .none]

theorem thread_confinement_sample :
    ∃ s, Runs.run (step .sample) (Sys.init .sample) sampleStart = some s ∧
      (s.executed 0).map (·.2) = [.listen, .connectEstablished sampleConn] ∧
      (s.executed 0).map (·.2) ++ s.queue 0 = (s.enqueued 0).map (·.2) := by
  have hrun : (Runs.run (step .sample) (Sys.init .sample) sampleStart).map
      (fun s => (s.executed 0).map (·.2)) =
      some [.listen, .connectEstablished sampleConn] := by decide +kernel
  obtain ⟨s, hs, hx, hr⟩ := Runs.Reach.of_map _ hrun
    (Runs.admits_of_forall (fun _ _ => trivial) _ _)
  exact ⟨s, hs, hx, (thread_confinement hr).1 0⟩

end Liang.Net
