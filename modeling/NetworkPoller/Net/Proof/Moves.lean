import NetworkPoller.Net.Proof.Port

/-!
# What a step does to the ports

`PortMove` is what a whole step does to the port of a connection: a function of it runs, output is
queued, or a functor that carries output is taken up. `exec_moves` says so of the frames that are no
client's, `exec_port_client` of the others, and `step_port` of a step. `exec_closes` says on which
connection a frame runs `CloseHandler`.
-/

namespace Liang.Net

open Base TcpConnection EpollPoller

variable {cfg : Cfg} {d : Discipline} {s s' s₁ s₂ : Sys} {t : Tid} {c c' : ConnId} {gs : List Frame}
  {inp : Input} {l : LoopId} {e : Enters}

/-! ## A step -/

/-- What a whole step does to the port of a connection: a function runs on it, output is queued, or
a functor that carries output is taken up. -/
inductive PortMove (e : Enters) (a : Port) : Port → Prop
  | work {b : Port} (h : PortStep e a b) : PortMove e a b
  | queue {k : Task} (hk : k.isSend = true → e.send) :
      PortMove e a { a with tasks := a.tasks ++ [k] }
  | take {k : Task} {ks : List Task} {b : Port} (h : a.tasks = k :: ks)
      (hs : PortStep ⟨k.isSend = true, k.isSend = false⟩ { a with tasks := ks } b) : PortMove e a b

/-- The frame is a call of `Send` on `c`. -/
def Frame.Sends (c : ConnId) : Frame → Prop
  | .api (.send c' _) => c' = c
  | _ => False

/-- What the frame runs on `c` itself. -/
def Frame.enters (s : Sys) (c : ConnId) (f : Frame) : Enters :=
  ⟨f.Sends c, f = .writeHandlerRest c ∧ (s.conns c).state = .disconnecting⟩

/-- The frame runs a function of a client or of a connector. -/
def Frame.OfClient (s : Sys) : Frame → Prop
  | .connectorRun _ | .writeEventHandler _ | .writeEventRest _ _ | .api (.connect _) => True
  | .closeCb c => c.owner ≠ .server
  | .loopTasks l => match s.queue l with
    | .connectorStart _ :: _ | .connectorReset _ :: _ => True
    | _ => False
  | _ => False

/-- No connection is worked on, or one, which is in `W` or has never been closed. -/
inductive Sys.Did (e : ConnId → Enters) (W : ConnId → Prop) (s s' : Sys) : Prop
  | still (h : s.Local none s')
  | works (c : ConnId) (hc : W c ∨ (s'.conns c).num .closeHandler = 0) (h : s.Works (e c) c s')

/-- The clients are as they were, every port makes a move, and `CloseHandler` runs in `W` only. -/
structure Sys.Moves (e : ConnId → Enters) (W : ConnId → Prop) (s s' : Sys) : Prop where
  clients : s'.clients = s.clients
  port : ∀ c, PortMove (e c) (s.port c) (s'.port c)
  closes : ∀ c, ¬ W c → (s'.conns c).num .closeHandler ≤ (s.conns c).num .closeHandler

namespace Sys.Did

variable {e : ConnId → Enters} {W : ConnId → Prop}

theorem refl (s : Sys) : s.Did e W s := .still (.refl s)

theorem clients (h : s.Did e W s') : s'.clients = s.clients := by
  cases h with
  | still h => exact h.clients
  | works c _ h => exact h.rest.clients

theorem port (h : s.Did e W s') (c : ConnId) : PortStep (e c) (s.port c) (s'.port c) := by
  cases h with
  | still h => exact .of_eq (port_congr (h.conns c nofun) (h.events c nofun) (h.outputs c))
  | works c' _ h =>
    by_cases hc : c = c'
    · subst hc
      exact h.port
    · exact .of_eq (h.rest.port hc)

theorem closes (h : s.Did e W s') (hc : ¬ W c) :
    (s'.conns c).num .closeHandler ≤ (s.conns c).num .closeHandler := by
  cases h with
  | still h => exact Nat.le_of_eq (by rw [h.conns c nofun])
  | works c' hc' h =>
    by_cases hcc : c = c'
    · subst hcc
      rw [hc'.resolve_left hc]
      exact Nat.zero_le _
    · exact Nat.le_of_eq (by rw [h.rest.conns c fun h => hcc (Option.some.inj h).symm])

theorem moves (h : s.Did e W s') : s.Moves e W s' :=
  ⟨h.clients, fun c => .work (h.port c), fun _ => h.closes⟩

end Sys.Did

namespace Sys.Moves

variable {e : ConnId → Enters} {W : ConnId → Prop}

theorem still (h : s.Local none s') : s.Moves e W s' := (Did.still h).moves

theorem refl (s : Sys) : s.Moves e W s := still (.refl s)

theorem works (c : ConnId) (hc : W c) (h : s.Works (e c) c s') : s.Moves e W s' :=
  (Did.works c (.inl hc) h).moves

end Sys.Moves

/-- Output of `c` is queued. -/
theorem queueInLoop_moves {e : ConnId → Enters} {W : ConnId → Prop} {k : Task}
    (hk : k.outputOf c = true) (he : k.isSend = true → (e c).send) :
    s.Moves e W (s.queueInLoop t c.loop k) := by
  refine ⟨rfl, fun c' => ?_, fun _ _ => Nat.le_refl _⟩
  by_cases hc : c' = c
  · subst hc
    have hp : (s.queueInLoop t c'.loop k).port c' =
        { s.port c' with tasks := (s.port c').tasks ++ [k] } := by
      simp [Sys.port, Conn.port, Sys.outputs, Sys.queueInLoop, hk, Sys.chan]
    rw [hp]
    exact .queue he
  · refine .work (.of_eq (port_congr rfl rfl (filter_appended_ne ?_)))
    cases k with
    | sendInLoop c₀ T m =>
      obtain rfl : c₀ = c := of_decide_eq_true hk
      exact decide_eq_false (Ne.symm hc)
    | shutdownInLoop c₀ =>
      obtain rfl : c₀ = c := of_decide_eq_true hk
      exact decide_eq_false (Ne.symm hc)
    | _ => cases hk

section

variable {e : ConnId → Enters} {W : ConnId → Prop}

theorem newConnected_did {n : Fd} (hS : Sound cfg d s)
    (h : TcpServer.newConnected cfg t n s = .ok s' gs) : s.Did e W s' := by
  obtain ⟨-, h⟩ := Res.assert_ok h
  cases h
  refine .works ⟨s.nextSerial, n, TcpServer.getEventLoopFromPoolForHash cfg n, .server⟩
    (.inr ?_) (.of_same ⟨rfl, fun _ => filter_appended_ne (q := s.queue) rfl,
      fun c' hc => Function.update_of_ne (fun h => hc (by rw [h])) .., fun _ _ => rfl⟩ ?_)
  · show Conn.num (Function.update s.conns _ _ _) _ = 0
    rw [Function.update_self]
    rfl
  show Conn.port (Function.update s.conns _ _ _) _ (List.filter _ (Function.update s.queue _ _ _)) = _
  rw [Function.update_self, filter_appended_ne rfl, Sys.port, hS.pristine _ (Nat.le_refl _)]
  rfl

theorem removeConnectionInLoop_works {e : Enters}
    (h : TcpServer.removeConnectionInLoop cfg t c s = .ok s' gs) : s.Works e c s' := by
  obtain ⟨-, h⟩ := Res.assert_ok h
  cases h
  have hw : s.Works e c (Sys.note { s with connections := Function.update s.connections c.fd none } c
      [.destroyQueued]) :=
    .of_same ⟨rfl, fun _ => rfl, fun _ hc => note_of_ne fun h => hc (by rw [h]), fun _ _ => rfl⟩
      (port_note (s := { s with connections := _ }) _)
  exact hw.before (.queueInLoop fun _ => rfl)
    (port_congr rfl rfl (filter_appended_ne (k := .connectDestoryed c) rfl))

theorem removeConnection_works {e : Enters}
    (h : TcpServer.removeConnection cfg t c s = .ok s' gs) : s.Works e c s' := by
  unfold TcpServer.removeConnection at h
  split at h
  · exact removeConnectionInLoop_works h
  · cases h
    exact .queueInLoop fun _ => rfl

theorem startServer_did (h : TcpServer.start inp s = .ok s' gs) : s.Did e W s' := by
  unfold TcpServer.start at h
  split at h
  · split at h <;> cases h <;> exact .still (.of_rfl rfl (fun _ => rfl) rfl rfl)
  · cases h

theorem listen_did (h : TcpAcceptor.listen cfg t s = .ok s' gs) : s.Did e W s' := by
  obtain ⟨-, h⟩ := Res.assert_ok h
  obtain ⟨s₁, hop, h⟩ := Res.bind_ok h
  obtain ⟨-, p, ho, rfl⟩ := channelOp_ok hop
  cases h
  exact .still ⟨rfl, fun _ => rfl, fun _ _ => rfl, fun c _ =>
    congrArg _ (chan_setPoller_of_ne (i := .acceptor) nofun (setEvents_chan ho).2.2)⟩

theorem acceptHandle_did (hS : Sound cfg d s)
    (h : TcpAcceptor.acceptHandle cfg t inp s = .ok s' gs) : s.Did e W s' := by
  obtain ⟨-, h⟩ := Res.assert_ok h
  split at h
  · split at h
    · obtain ⟨gs', h, -⟩ := Res.followedBy_ok h
      exact newConnected_did hS h
    · cases h
  · split at h <;> cases h <;> exact .refl _
  · cases h

theorem dropNewFd_did (h : TcpAcceptor.dropNewFd inp s = .ok s' gs) : s.Did e W s' := by
  unfold TcpAcceptor.dropNewFd at h
  split at h
  · split at h <;> cases h
    exact .still (.of_rfl rfl (fun _ => rfl) rfl rfl)
  · cases h
    exact .refl _
  · cases h

theorem disconnect_did {k : ClientId} (hW : ∀ c, (s.clients k).connection = some c → W c)
    (h : TcpClient.disconnect t k inp s = .ok s' gs) : s.Did e W s' := by
  unfold TcpClient.disconnect at h
  split at h
  · rename_i hc
    exact .works _ (.inl (hW _ hc)) (shutdown_works h)
  · cases h
    exact .refl _

/-- A functor that is no connector's. -/
theorem task_did {k : Task} (hk : ∀ j, k ≠ .connectorStart j ∧ k ≠ .connectorReset j)
    (he : ∀ c T m, k = .sendInLoop c T m → (e c).send)
    (hz : ∀ c, k = .shutdownInLoop c → (e c).shut)
    (hest : ∀ c, k = .connectEstablished c → (s.conns c).state ≠ .disconnected)
    (hW : ∀ c, k.conn? = some c → W c) (h : k.run cfg t inp s = .ok s' gs) : s.Did e W s' := by
  cases k with
  | connectEstablished c => exact .works c (.inl (hW c rfl)) (connectEstablished_works (hest c rfl) h)
  | connectDestoryed c => exact .works c (.inl (hW c rfl)) (connectDestoryed_works h)
  | sendInLoop c T m => exact .works c (.inl (hW c rfl)) (sendInLoop_works (he c T m rfl) h)
  | startReadInLoop c => exact .works c (.inl (hW c rfl)) (startReadInLoop_works h)
  | stopReadInLoop c => exact .works c (.inl (hW c rfl)) (stopReadInLoop_works h)
  | shutdownInLoop c => exact .works c (.inl (hW c rfl)) (shutdownInLoop_works (hz c rfl) h)
  | forceCloseInLoop c => exact .works c (.inl (hW c rfl)) (forceCloseInLoop_works h)
  | writtenCb c =>
    cases h
    exact .refl _
  | highWaterCb c n =>
    cases h
    exact .refl _
  | removeConnectionInLoop c => exact .works c (.inl (hW c rfl)) (removeConnectionInLoop_works h)
  | listen => exact listen_did h
  | connectorStart j => exact absurd rfl (hk j).1
  | connectorReset j => exact absurd rfl (hk j).2
  | connectorStop | functor =>
    cases h
    exact .refl _

end

theorem api_moves {a : Api} (hk : ∀ k, a ≠ .connect k) (h : a.run cfg t inp s = .ok s' gs) :
    s.Moves (fun c => (Frame.api a).enters s c) (fun c => (Frame.api a).on? s = some c) s' := by
  cases a with
  | send c m =>
    simp only [Api.run, send] at h
    have hw : s.Local (some c) (s.updConn c fun x => { x with sent := x.sent ++ [(t, m)] }) :=
      .updConn _
    split at h
    · exact .works c rfl (.after hw (port_updConn _) (sendInLoop_works rfl h))
    · cases h
      have hq := queueInLoop_moves (t := t) (c := c) (k := .sendInLoop c t m)
        (e := fun c' => (Frame.api (.send c m)).enters s c')
        (s := s.updConn c fun x => { x with sent := x.sent ++ [(t, m)] })
        (W := fun c' => (Frame.api (.send c m)).on? s = some c') (decide_eq_true rfl) fun _ => rfl
      refine ⟨hq.clients, fun c' => ?_, fun c' hc' => ?_⟩
      swap
      · have hne : c' ≠ c := fun h => hc' (congrArg some h.symm)
        exact Nat.le_of_eq (congrArg (Conn.num · .closeHandler) (Function.update_of_ne hne ..))
      have hp : (s.updConn c fun x => { x with sent := x.sent ++ [(t, m)] }).port c' = s.port c' := by
        by_cases hc : c' = c
        · subst hc
          exact port_updConn _
        · exact hw.port hc
      rw [← hp]
      exact hq.port c'
  | startRead c =>
    cases h
    exact .works c rfl (.queueInLoop fun _ => rfl)
  | stopRead c =>
    cases h
    exact .works c rfl (.queueInLoop fun _ => rfl)
  | shutdown c => exact .works c rfl (shutdown_works h)
  | forceClose c => exact .works c rfl (forceClose_works h)
  | setCallbacks c cbs =>
    cases h
    exact .works c rfl (.updConn fun _ _ => rfl)
  | buffer c op =>
    simp only [Api.run] at h
    split at h
    · cases h
      exact .works c rfl (.updConn fun _ _ => rfl)
    · cases h
      exact .refl _
  | swapBuffer c rhs =>
    cases h
    exact .works c rfl (.updConn fun _ _ => rfl)
  | retain c | release c =>
    cases h
    exact .still (.of_rfl rfl (fun _ => rfl) rfl rfl)
  | start => exact (startServer_did h).moves
  | connect k => exact absurd rfl (hk k)
  | disconnect k => exact (disconnect_did (fun _ hc => hc) h).moves
  | stop k =>
    simp only [Api.run, TcpConnector.stop] at h
    split at h <;> cases h <;> exact .refl _
  | runInLoop l | queueInLoop l =>
    cases h
    exact .refl _

/-- A functor that carries output is taken up, or another. -/
theorem tasks_moves {r : List Frame} (hI : Inv cfg d s) (hs : s.stack t = .loopTasks l :: r)
    (hk : ¬ (Frame.loopTasks l).OfClient s) (h : exec cfg t inp s (.loopTasks l) = .ok s' gs) :
    s.Moves (fun c => (Frame.loopTasks l).enters s c) (fun c => (Frame.loopTasks l).on? s = some c) s' := by
  simp only [exec] at h
  split at h
  · cases h
    exact .refl _
  rename_i k ks hq
  obtain ⟨gs', h, -⟩ := Res.followedBy_ok h
  have hdid : (s.dequeue t l k ks).Did
      (fun c => ⟨k.outputOf c = true ∧ k.isSend = true, k.outputOf c = true ∧ k.isSend = false⟩)
      (fun c => (Frame.loopTasks l).on? s = some c) s' := by
    refine task_did (fun j => ⟨?_, ?_⟩) (fun c T m hk' => ?_) (fun c hk' => ?_) (fun c hk' => ?_)
      (fun c hc => ?_) h
    · rintro rfl
      exact hk (by simp [Frame.OfClient, hq])
    · rintro rfl
      exact hk (by simp [Frame.OfClient, hq])
    · subst hk'
      exact ⟨decide_eq_true rfl, rfl⟩
    · subst hk'
      exact ⟨decide_eq_true rfl, rfl⟩
    · subst hk'
      intro hd
      exact (hI.sound.pending l c (hq ▸ List.mem_cons_self)).1 (hI.est_of_disconnected hd)
    · simp only [Frame.on?, hq, hc]
  refine ⟨hdid.clients, fun c => ?_, fun c => hdid.closes⟩
  have hp := hdid.port c
  by_cases hout : k.outputOf c = true
  · obtain rfl : l = c.loop := by
      have hhome := (hI.sound.tasks l k (hq ▸ List.mem_cons_self)).home
      cases k with
      | sendInLoop c₀ T m =>
        obtain rfl : c₀ = c := of_decide_eq_true hout
        exact hhome.1
      | shutdownInLoop c₀ =>
        obtain rfl : c₀ = c := of_decide_eq_true hout
        exact hhome
      | _ => cases hout
    have htasks : (s.port c).tasks = k :: (s.dequeue t c.loop k ks).outputs c := by
      show (s.queue _).filter _ = k :: ((s.dequeue t c.loop k ks).queue _).filter _
      rw [hq, Sys.dequeue_self, List.filter_cons_of_pos hout]
    exact .take htasks (hp.mono And.right And.right)
  · have hsame : (s.dequeue t l k ks).port c = s.port c :=
      port_congr rfl rfl (filter_taken_ne hq (Bool.eq_false_iff.2 hout))
    rw [hsame] at hp
    exact .work (hp.mono (fun h => absurd h.1 hout) fun h => absurd h.1 hout)

/-- The frames that are no client's. -/
theorem exec_moves {f : Frame} {r : List Frame} (hI : Inv cfg d s) (hs : s.stack t = f :: r)
    (hk : ¬ f.OfClient s) (h : exec cfg t inp s f = .ok s' gs) :
    s.Moves (fun c => f.enters s c) (fun c => f.on? s = some c) s' := by
  cases f with
  | loopPoll l =>
    obtain ⟨-, h⟩ := Res.assert_ok h
    split at h
    · rename_i evs _
      split at h
      · cases h
        obtain ⟨-, hst⟩ := setRecieved_spec (hI.sound.books l) evs
        refine .still ⟨rfl, fun _ => rfl, fun _ _ => rfl, fun c _ => ?_⟩
        show ((s.setPoller l (setRecieved (s.pollers l) evs)).chan c).events = _
        by_cases hl : c.loop = l
        · subst hl
          rw [chan_setPoller_self]
          exact (hst _).2
        · rw [Sys.chan, Sys.setPoller_of_ne _ hl]
          rfl
      · cases h
    · cases h
  | loopDispatch l =>
    simp only [exec] at h
    split at h <;> cases h <;> exact .still (.of_rfl rfl (fun _ => rfl) rfl rfl)
  | loopTasks l => exact tasks_moves hI hs hk h
  | taskDone | handleEvent | errorHandler =>
    cases h
    exact .refl _
  | user c? =>
    simp only [exec] at h
    split at h
    · split at h <;> cases h
      exact .refl _
    · cases h
      exact .refl _
    · cases h
  | api a => exact api_moves (fun k ha => hk (by simp [Frame.OfClient, ha])) h
  | forceCloseAgain c =>
    rw [forceCloseAgain_works h]
    exact .refl _
  | startPool =>
    cases h
    have hinit : s.Local none { s with initialized := s.initialized ++ [t] } :=
      .of_rfl rfl (fun _ => rfl) rfl rfl
    exact .still (hinit.trans (.queueInLoop fun _ => rfl))
  | queueInLoop l k =>
    cases h
    obtain ⟨hhome, rfl | ⟨c, rfl | rfl⟩⟩ := hI.sound.loop_thread hs
    · exact .still (.queueInLoop fun _ => rfl)
    · obtain rfl : l = c.loop := hhome
      exact queueInLoop_moves (decide_eq_true rfl) fun h => by cases h
    · exact .still (.queueInLoop fun _ => rfl)
  | runInLoop l k =>
    obtain ⟨-, rfl | ⟨j, rfl⟩⟩ := hI.sound.loop_thread hs
    all_goals
      simp only [exec] at h
      split at h <;> cases h
      · exact .refl _
      · exact .still (.queueInLoop fun _ => rfl)
  | closeHandler c => exact .works c rfl (closeHandler_works h)
  | readHandler c =>
    simp only [exec] at h
    split at h
    · exact .works c rfl (readHandler_works h)
    · cases h
  | writeHandler c => exact .works c rfl (writeHandler_works h)
  | writeHandlerRest c =>
    exact .works c rfl (writeHandlerRest_works (fun hst => ⟨rfl, hst⟩) h)
  | closeCb c =>
    simp only [exec] at h
    split at h
    · exact .works c rfl (.after (.note _) (port_note _) (removeConnection_works h))
    · rename_i k ho
      exact absurd (by simp [Frame.OfClient, ho]) hk
  | destoryedRest c => exact .works c rfl (connectDestoryedRest_works h)
  | acceptHandle => exact (acceptHandle_did hI.sound h).moves
  | closeIdle =>
    cases h
    exact .still ⟨rfl, fun _ => rfl, fun _ _ => rfl, fun _ _ => rfl⟩
  | reAccept => exact (dropNewFd_did h).moves
  | reOpen => exact (dropNewFd_did h).moves
  | connectorRun | writeEventHandler | writeEventRest => exact absurd trivial hk

theorem startInLoop_port {k : ClientId} (h : TcpConnector.startInLoop cfg t k inp s = .ok s' gs)
    (c : ConnId) : s'.port c = s.port c := by
  obtain ⟨-, -, hst⟩ := startInLoop_ok h
  cases hst with
  | @polling fd err stale n p hf hg hn ho =>
    exact port_congr rfl (congrArg _ (chan_setPoller_of_ne (i := .connector k n fd) nofun
      (setEvents_chan ho).2.2)) rfl
  | closed | noSocket => exact port_congr rfl rfl rfl

/-- A client's new connection is established at once. -/
theorem writeEventRest_port {k : ClientId} {fd : Fd} (hS : Sound cfg d s)
    (h : TcpConnector.writeEventRest cfg t k fd inp s = .ok s' gs) (c : ConnId) :
    PortStep e (s.port c) (s'.port c) := by
  rcases writeEventRest_ok h with ⟨-, -, -, -, rfl⟩ | ⟨-, -, p, ho, -, rfl⟩
  · exact .of_eq (port_congr rfl rfl (filter_appended_ne (q := s.queue) rfl))
  · by_cases hc : c = s.clientConn cfg k fd
    · have hpr : s.conns c = {} := hS.pristine c (by rw [hc]; exact Nat.le_refl _)
      subst hc
      have hp : ∀ f, ((s.create (s.clientConn cfg k fd) (TcpClient.newConn cfg k)).updClient k f).port
          (s.clientConn cfg k fd) = s.port (s.clientConn cfg k fd) := fun f => by
        rw [Sys.port, Sys.port, hpr]
        simp only [Sys.updClient, Sys.create, Function.update_self]
        rfl
      have hest : ∀ s₀ : Sys, s₀.pollers = s.pollers →
          (s₀.establish (s.clientConn cfg k fd) p).port (s.clientConn cfg k fd) =
            { s₀.port (s.clientConn cfg k fd) with state := .connected } := fun s₀ h₀ =>
        port_establish (show (s₀.pollers _).enableReading (ChanId.fd cfg) _ = _ by rw [h₀]; exact ho)
      rw [hest, hp]
      · refine .move fun hd => ?_
        rw [show (s.port _).state = (s.conns _).state from rfl, hpr] at hd
        cases hd
      · rfl
    · exact .of_eq (port_congr
        ((Sys.establish_of_ne hc).trans (Function.update_of_ne hc ..))
        (congrArg _ (chan_establish_of_ne
          (s := s.create (s.clientConn cfg k fd) (TcpClient.newConn cfg k)) hc ho)) rfl)

/-- The frames of clients and connectors. -/
theorem exec_port_client {f : Frame} (hS : Sound cfg d s) (hk : f.OfClient s)
    (h : exec cfg t inp s f = .ok s' gs) (c : ConnId) : PortStep e (s.port c) (s'.port c) := by
  cases f with
  | connectorRun k =>
    simp only [exec, TcpConnector.startRest] at h
    split at h
    · exact .of_eq (startInLoop_port h c)
    · cases h
      exact .of_eq (port_congr rfl rfl (filter_appended_ne (q := s.queue) rfl))
  | writeEventHandler k =>
    obtain ⟨-, n, fd, p, p', -, ho, hp, -, rfl⟩ := writeEventHandler_ok h
    refine .of_eq (port_congr rfl (congrArg _ (chan_setPoller_of_ne (i := .connector k n fd) (by simp)
      fun j hj => ((removeEventChannel_chan hp).2.2 j hj).trans ((setEvents_chan ho).2.2 j hj))) ?_)
    exact filter_appended_ne (q := s.queue) rfl
  | writeEventRest k fd => exact writeEventRest_port hS h c
  | api a =>
    cases a with
    | connect k =>
      simp only [exec, Api.run, TcpConnector.start] at h
      split at h
      · split at h <;> cases h <;> exact .of_eq (port_congr rfl rfl rfl)
      · cases h
    | _ => exact hk.elim
  | closeCb c' =>
    simp only [exec] at h
    split at h
    · rename_i ho
      exact absurd ho hk
    · rename_i k _
      obtain ⟨-, h⟩ := Res.assert_ok h
      obtain ⟨-, h⟩ := Res.assert_ok h
      cases h
      have hp : ((s.note c' [.closeCb]).note c' [.destroyQueued]).port c = s.port c :=
        (port_note _).trans (port_note _)
      refine .of_eq (Eq.trans (port_congr ?_ ?_ ?_) hp)
      · rfl
      · rfl
      · exact filter_appended_ne (q := s.queue) rfl
  | loopTasks l =>
    simp only [exec] at h
    split at h
    · rename_i hq
      simp [Frame.OfClient, hq] at hk
    · rename_i k ks hq
      obtain ⟨gs', h, -⟩ := Res.followedBy_ok h
      cases k with
      | connectorStart k =>
        exact .of_eq ((startInLoop_port h c).trans (port_congr rfl rfl (filter_taken_ne hq rfl)))
      | connectorReset k =>
        cases h
        exact .of_eq (port_congr rfl rfl (filter_taken_ne hq rfl))
      | _ => simp [Frame.OfClient, hq] at hk
  | _ => exact hk.elim

/-- Clients and connectors run no `CloseHandler`. -/
theorem exec_closes_client {f : Frame} (hk : f.OfClient s) (h : exec cfg t inp s f = .ok s' gs)
    (c : ConnId) : (s'.conns c).num .closeHandler ≤ (s.conns c).num .closeHandler := by
  have hstart : ∀ {s₀ : Sys} {k : ClientId} {gs : List Frame},
      TcpConnector.startInLoop cfg t k inp s₀ = .ok s' gs → s'.conns = s₀.conns := fun h => by
    obtain ⟨-, -, hst⟩ := startInLoop_ok h
    cases hst <;> rfl
  cases f with
  | connectorRun k =>
    simp only [exec, TcpConnector.startRest] at h
    split at h
    · exact Nat.le_of_eq (by rw [hstart h])
    · cases h
      exact Nat.le_refl _
  | writeEventHandler k =>
    obtain ⟨-, n, fd, p, p', -, -, -, -, rfl⟩ := writeEventHandler_ok h
    exact Nat.le_refl _
  | writeEventRest k fd =>
    rcases writeEventRest_ok h with ⟨e, -, -, -, rfl⟩ | ⟨-, -, p, -, -, rfl⟩
    · exact Nat.le_refl _
    · by_cases hc : c = s.clientConn cfg k fd
      · subst hc
        rw [Sys.establish_self]
        refine Nat.le_trans (Nat.le_of_eq ?_) (Nat.zero_le _)
        show List.count _ _ = 0
        simp only [Sys.updClient, Sys.create, Function.update_self]
        cases (TcpClient.newConn cfg k).statusCb <;> rfl
      · rw [Sys.establish_of_ne hc]
        exact Nat.le_of_eq (congrArg (Conn.num · .closeHandler) (Function.update_of_ne hc ..))
  | api a =>
    cases a with
    | connect k =>
      have h : TcpConnector.start t k inp s = .ok s' gs := h
      unfold TcpConnector.start at h
      split at h
      · split at h <;> cases h <;> exact Nat.le_refl _
      · cases h
    | _ => exact hk.elim
  | closeCb c' =>
    simp only [exec] at h
    split at h
    · rename_i ho
      exact absurd ho hk
    · rename_i k ho
      obtain ⟨-, h⟩ := Res.assert_ok h
      obtain ⟨-, h⟩ := Res.assert_ok h
      cases h
      by_cases hc : c = c'
      · subst hc
        refine Nat.le_of_eq ?_
        show Conn.num ((Sys.note (Sys.updClient (s.note c [.closeCb]) k _) c [.destroyQueued]).conns c) _ = _
        simp [Sys.note, Sys.updClient, Conn.num]
      · refine Nat.le_of_eq (congrArg (Conn.num · .closeHandler) ?_)
        show (Sys.note (Sys.updClient (s.note c' [.closeCb]) k _) c' [.destroyQueued]).conns c = _
        rw [note_of_ne hc]
        exact note_of_ne hc
  | loopTasks l =>
    simp only [exec] at h
    split at h
    · cases h
      exact Nat.le_refl _
    · rename_i k ks hq
      obtain ⟨gs', h, -⟩ := Res.followedBy_ok h
      cases k with
      | connectorStart k =>
        have h : TcpConnector.startInLoop cfg t k inp (s.dequeue t l (.connectorStart k) ks) = _ := h
        rw [hstart h]
        exact Nat.le_refl _
      | connectorReset k =>
        cases h
        exact Nat.le_refl _
      | _ => simp [Frame.OfClient, hq] at hk
  | _ => exact hk.elim

/-- `CloseHandler` runs on the connection the frame works on. -/
theorem exec_closes {f : Frame} {r : List Frame} (hI : Inv cfg d s) (hs : s.stack t = f :: r)
    (h : exec cfg t inp s f = .ok s' gs) (hc : f.on? s ≠ some c) :
    (s'.conns c).num .closeHandler ≤ (s.conns c).num .closeHandler := by
  by_cases hk : f.OfClient s
  · exact exec_closes_client hk h c
  · exact (exec_moves hI hs hk h).closes c hc

/-- What the step runs on `c` itself. -/
def Act.enters (s : Sys) (c : ConnId) : Act → Enters
  | .thread t _ => match s.stack t with
    | f :: _ => f.enters s c
    | [] => ⟨False, False⟩
  | _ => ⟨False, False⟩

/-- **What a step does to the port of a connection.** -/
theorem step_port {a : Act} (hI : Inv cfg d s) (h : step cfg s a = some s') (c : ConnId) :
    PortMove (a.enters s c) (s.port c) (s'.port c) := by
  rcases step_cases h with ⟨t, inp, f, r, gs, s₁, rfl, hs, hx, rfl⟩ | ⟨t, inp, f, r, e, -, -, -, rfl⟩ |
    ⟨c', -, -, -, rfl⟩ | ⟨n, -, -, rfl⟩ | ⟨n, -, -, rfl⟩
  · have hp : PortMove (f.enters s c) (s.port c) (s₁.port c) := by
      by_cases hk : f.OfClient s
      · exact .work (exec_port_client hI.sound hk hx c)
      · exact (exec_moves hI hs hk hx).port c
    simp only [Act.enters, hs]
    exact hp
  all_goals exact .work (.of_eq (port_congr rfl rfl rfl))

end Liang.Net
