import NetworkPoller.Net.Proof.Forward

/-!
# Notices and callbacks, step by step

Most functions queue functors, store into `state_` and leave the callbacks of every connection as
they are; a few do one thing more. `Notable` names these things: a functor that tells of something
(`written_cb_`, `Listen`), the callbacks of a connection that are set anew, the flag `started_`; the
thread pool is initialised where `Listen` is queued.
`exec_routine` says of every frame what it can do of them (`Frame.notable`), and that a connection
that becomes `CONNECTED` or `DISCONNECTED` calls its status callback (`Conn.Told`).
-/

namespace Liang.Net

open Base TcpConnection

variable {cfg : Cfg} {d : Discipline} {s s' s₁ s₂ : Sys} {t : Tid} {c : ConnId} {l : LoopId}
  {inp : Input} {f : Frame} {r gs : List Frame}

/-! ## Callbacks of a connection -/

/-- The callbacks that are set. -/
def Conn.cbs (x : Conn) : Callbacks :=
  ⟨x.msgCb, x.writtenCb, if x.highWaterCb then some x.highWater else none, x.statusCb⟩

/-- The callbacks are the same, and when the state has become `CONNECTED` or `DISCONNECTED` the
status callback has been called. -/
structure Conn.Told (x y : Conn) : Prop where
  cbs : y.cbs = x.cbs
  num : x.num .statusCb ≤ y.num .statusCb
  status : y.state = x.state ∨ y.state = .disconnecting ∨
    (x.cbs.status = true → x.num .statusCb < y.num .statusCb)

namespace Conn.Told

variable {x y z : Conn}

theorem of_same (hc : y.cbs = x.cbs) (ht : y.trace = x.trace) (hst : y.state = x.state) : x.Told y :=
  ⟨hc, by rw [Conn.num, Conn.num, ht], .inl hst⟩

theorem refl (x : Conn) : x.Told x := .of_same rfl rfl rfl

theorem trans (h : x.Told y) (h' : y.Told z) : x.Told z := by
  refine ⟨h'.cbs.trans h.cbs, Nat.le_trans h.num h'.num, ?_⟩
  rcases h'.status with hz | hz | hz
  · rcases h.status with hy | hy | hy
    · exact .inl (hz.trans hy)
    · exact .inr (.inl (hz.trans hy))
    · exact .inr (.inr fun hs => Nat.lt_of_lt_of_le (hy hs) h'.num)
  · exact .inr (.inl hz)
  · exact .inr (.inr fun hs => Nat.lt_of_le_of_lt h.num (hz (h.cbs ▸ hs)))

/-- Something is recorded. -/
theorem noted (es : List ConnEv) : x.Told { x with trace := x.trace ++ es } := by
  refine ⟨rfl, ?_, .inl rfl⟩
  simp only [Conn.num, List.count_append]
  omega

/-- The state is stored and the status callback called. -/
theorem stored (st : ConnState) (e : ConnEv) : x.Told { x with
    state := st, trace := x.trace ++ [e] ++ if x.statusCb then [.statusCb] else [] } := by
  refine ⟨rfl, ?_, .inr (.inr fun hs => ?_)⟩
  · simp only [Conn.num, List.count_append]
    omega
  · have hs : x.statusCb = true := hs
    simp only [Conn.num, List.count_append, hs, if_true, List.count_singleton_self]
    omega

theorem enter {w : Bool} {T : Tid} {m : Msg} (h : Enter w T m x y) : x.Told y :=
  .of_same (by cases h <;> rfl) h.same.1 h.same.2.2

end Conn.Told

/-! ## The frame of the functions -/

/-- What a function may do beside its routine. -/
structure Notable where
  /-- queue this functor -/
  tasks : Task → Prop
  /-- set the callbacks of this connection -/
  conns : ConnId → Prop
  /-- set `started_` -/
  start : Prop

/-- A functor that tells of nothing. -/
def Task.routine : Task → Bool
  | listen | writtenCb _ => false
  | _ => true

structure Sys.Routine (v : Notable) (s s' : Sys) : Prop where
  serial : s.nextSerial ≤ s'.nextSerial
  queued : ∀ l, ∃ es : List (Tid × Task), s'.enqueued l = s.enqueued l ++ es ∧
    ∀ e ∈ es, e.2.routine = true ∨ v.tasks e.2
  conns : ∀ c, c.serial < s.nextSerial → v.conns c ∨ (s.conns c).Told (s'.conns c)
  started : s'.started = s.started ∨ v.start
  initialized : s'.initialized = s.initialized ∨ v.tasks .listen

namespace Sys.Routine

variable {v : Notable}

/-- Nothing that is looked at has changed. -/
theorem of_rfl (hn : s'.nextSerial = s.nextSerial) (he : s'.enqueued = s.enqueued)
    (hc : s'.conns = s.conns) (hs : s'.started = s.started) (hi : s'.initialized = s.initialized) :
    s.Routine v s' where
  serial := Nat.le_of_eq hn.symm
  queued l := ⟨[], by rw [he, List.append_nil], fun _ h => absurd h List.not_mem_nil⟩
  conns c _ := .inr (hc ▸ .refl _)
  started := .inl hs
  initialized := .inl hi

theorem refl (s : Sys) : s.Routine v s := .of_rfl rfl rfl rfl rfl rfl

theorem trans (h : s.Routine v s₁) (h' : s₁.Routine v s₂) : s.Routine v s₂ where
  serial := Nat.le_trans h.serial h'.serial
  queued l := by
    obtain ⟨es, he, hv⟩ := h.queued l
    obtain ⟨es', he', hv'⟩ := h'.queued l
    refine ⟨es ++ es', by rw [he', he, List.append_assoc], fun e hm => ?_⟩
    rcases List.mem_append.1 hm with hm | hm
    · exact hv e hm
    · exact hv' e hm
  conns c hc := by
    rcases h.conns c hc with hx | hx
    · exact .inl hx
    · exact (h'.conns c (Nat.lt_of_lt_of_le hc h.serial)).imp_right hx.trans
  started := by
    rcases h'.started with hs | hs
    · rcases h.started with hs' | hs'
      · exact .inl (hs.trans hs')
      · exact .inr hs'
    · exact .inr hs
  initialized := by
    rcases h'.initialized with hi | hi
    · exact h.initialized.imp_left hi.trans
    · exact .inr hi

theorem updConn {g : Conn → Conn} (hg : v.conns c ∨ (s.conns c).Told (g (s.conns c))) :
    s.Routine v (s.updConn c g) where
  serial := Nat.le_refl _
  queued l := ⟨[], (List.append_nil _).symm, fun _ h => absurd h List.not_mem_nil⟩
  conns c' _ := by
    by_cases hc : c' = c
    · subst hc
      rwa [Sys.updConn_self]
    · rw [Sys.updConn_of_ne _ hc]
      exact .inr (.refl _)
  started := .inl rfl
  initialized := .inl rfl

theorem note (es : List ConnEv) : s.Routine v (s.note c es) := .updConn (.inr (.noted es))

theorem queueInLoop {k : Task} (hk : k.routine = true ∨ v.tasks k) :
    s.Routine v (s.queueInLoop t l k) where
  serial := Nat.le_refl _
  queued l' := by
    by_cases hl : l' = l
    · subst hl
      refine ⟨[(t, k)], Function.update_self .., fun e he => ?_⟩
      rw [List.mem_singleton.1 he]
      exact hk
    · exact ⟨[], by rw [List.append_nil]; exact Function.update_of_ne hl ..,
        fun _ h => absurd h List.not_mem_nil⟩
  conns _ _ := .inr (.refl _)
  started := .inl rfl
  initialized := .inl rfl

theorem setPoller {p : EpollPoller ChanId} : s.Routine v (s.setPoller l p) := .of_rfl rfl rfl rfl rfl rfl

theorem closeConn {p : EpollPoller ChanId} : s.Routine v (s.closeConn c p) where
  serial := Nat.le_refl _
  queued l := ⟨[], (List.append_nil _).symm, fun _ h => absurd h List.not_mem_nil⟩
  conns c' _ := by
    by_cases hc : c' = c
    · subst hc
      rw [Sys.closeConn_self]
      exact .inr (.stored _ _)
    · rw [Sys.closeConn_of_ne hc]
      exact .inr (.refl _)
  started := .inl rfl
  initialized := .inl rfl

theorem establish {p : EpollPoller ChanId} : s.Routine v (s.establish c p) where
  serial := Nat.le_refl _
  queued l := ⟨[], (List.append_nil _).symm, fun _ h => absurd h List.not_mem_nil⟩
  conns c' _ := by
    by_cases hc : c' = c
    · subst hc
      rw [Sys.establish_self]
      exact .inr (.stored _ _)
    · rw [Sys.establish_of_ne hc]
      exact .inr (.refl _)
  started := .inl rfl
  initialized := .inl rfl

/-- A new connection is none of those there were. -/
theorem create {x : Conn} (hc : c.serial = s.nextSerial) : s.Routine v (s.create c x) where
  serial := Nat.le_succ _
  queued l := ⟨[], (List.append_nil _).symm, fun _ h => absurd h List.not_mem_nil⟩
  conns c' hlt := by
    have hne : c' ≠ c := fun h => Nat.lt_irrefl _ (hc ▸ h ▸ hlt)
    have hc' : (s.create c x).conns c' = s.conns c' := Function.update_of_ne hne ..
    exact .inr (hc' ▸ .refl _)
  started := .inl rfl
  initialized := .inl rfl

end Sys.Routine

/-- The result of a function: the state has changed by routine, and no `Start` goes on. -/
def Res.Routine (v : Notable) (s : Sys) (x : Res) : Prop :=
  ∀ s' gs, x = .ok s' gs → s.Routine v s' ∧ (.startPool ∈ gs → v.start)

namespace Res.Routine

variable {v : Notable} {x : Res}

theorem ok (h : s.Routine v s') (hg : .startPool ∉ gs) : (Res.ok s' gs).Routine v s :=
  fun _ _ he => by cases he; exact ⟨h, fun hm => absurd hm hg⟩

theorem disabled : Res.disabled.Routine v s := fun _ _ he => by cases he

theorem assert {p : Prop} [Decidable p] {a : Assert} (h : x.Routine v s) :
    (Res.assert p a x).Routine v s := fun _ _ he => h _ _ (Res.assert_ok he).2

theorem ite {p : Prop} [Decidable p] {y : Res} (hx : x.Routine v s) (hy : y.Routine v s) :
    (if p then x else y).Routine v s := by
  split
  · exact hx
  · exact hy

/-- A function that goes on from `s₁`. -/
theorem after (h : s.Routine v s₁) (hx : x.Routine v s₁) : x.Routine v s := fun _ _ he => by
  obtain ⟨h1, h2⟩ := hx _ _ he
  exact ⟨h.trans h1, h2⟩

theorem channelOp {op : EpollPoller ChanId → Except PollerAssert (EpollPoller ChanId)} {k : Sys → Res}
    (h : ∀ p, (k (s₁.setPoller l p)).Routine v s) :
    (Res.bind (s₁.channelOp t l op) k).Routine v s := fun _ _ he => by
  obtain ⟨s₂, h1, he⟩ := Res.bind_ok he
  obtain ⟨-, p, -, rfl⟩ := channelOp_ok h1
  exact h p _ _ he

theorem removeFromLoop {i : ChanId} {k : Sys → Res} (h : ∀ l p, (k (s₁.setPoller l p)).Routine v s) :
    (Res.bind (s₁.removeFromLoop cfg t i) k).Routine v s := fun _ _ he => by
  obtain ⟨s₂, h1, he⟩ := Res.bind_ok he
  obtain ⟨-, p, -, rfl⟩ := removeFromLoop_ok h1
  exact h _ p _ _ he

theorem followedBy (hx : x.Routine v s) (hg : .startPool ∉ gs) : (x.followedBy gs).Routine v s :=
  fun _ _ he => by
    obtain ⟨gs', he', rfl⟩ := Res.followedBy_ok he
    obtain ⟨h1, h2⟩ := hx _ _ he'
    exact ⟨h1, fun hm => h2 ((List.mem_append.1 hm).resolve_right hg)⟩

end Res.Routine

/-! ## The functions -/

section

variable {v : Notable}

theorem startPool_not_mem_status : .startPool ∉ statusFrames c s := by
  unfold statusFrames
  split <;> simp

theorem closeHandler_routine : (closeHandler cfg t c s).Routine v s := fun _ _ he => by
  obtain ⟨-, p, -, rfl, rfl⟩ := closeHandler_ok he
  refine ⟨.closeConn, fun hm => ?_⟩
  rcases List.mem_append.1 hm with hm | hm
  · exact absurd hm startPool_not_mem_status
  · cases List.mem_singleton.1 hm

theorem connectEstablished_routine : (connectEstablished cfg t c s).Routine v s := fun _ _ he => by
  obtain ⟨-, p, -, rfl, rfl⟩ := connectEstablished_ok he
  exact ⟨.establish, fun hm => absurd hm startPool_not_mem_status⟩

theorem connectDestoryedRest_routine : (connectDestoryedRest cfg t c s).Routine v s :=
  .removeFromLoop fun _ _ => .ok (.trans .setPoller (.note _)) List.not_mem_nil

/-- A `ConnectDestoryed` that finds a closed connection. -/
theorem connectDestoryed_routine (hst : (s.conns c).state ≠ .connected) :
    (connectDestoryed cfg t c s).Routine v s := by
  refine .assert ?_
  rw [if_neg hst]
  exact connectDestoryedRest_routine

theorem readHandler_routine {x : ReadRes} : (readHandler cfg t c x s).Routine v s := by
  have hread : s.Routine v (s.updConn c fun y =>
      { y with readBuffer := ((s.conns c).readBuffer.readFromFD x).1 }) :=
    .updConn (.inr (.of_same rfl rfl rfl))
  refine .assert (.ite (.ite (.ite ?_ ?_) (.ite ?_ (.ite ?_ ?_))) .disabled)
  · exact .ok (hread.trans (.note _)) (by simp)
  · exact .after hread closeHandler_routine
  · exact .after hread closeHandler_routine
  · exact .ok hread (by simp)
  · exact .ok hread (by simp)

theorem shutdownInLoop_routine : (shutdownInLoop t c s).Routine v s :=
  .assert (.ite (.ok (.refl s) List.not_mem_nil)
    (.ok (.updConn (.inr (.of_same rfl rfl rfl))) List.not_mem_nil))

theorem writeHandler_routine : (writeHandler cfg t c inp s).Routine v s := by
  have hdrain (n : Nat) : s.Routine v (s.updConn c fun x =>
      { x with
        out := x.out ++ x.writeBuffer.readable.take n
        writeBuffer := x.writeBuffer.clearReadIndex n }) := .updConn (.inr (.of_same rfl rfl rfl))
  refine .assert (.ite ?_ (.ok (.refl s) List.not_mem_nil))
  split
  · refine .ite (.ite (.ite (.channelOp fun p => ?_) ?_) (.ok (.refl s) List.not_mem_nil)) .disabled
    · refine .ok ((hdrain _).trans .setPoller) ?_
      split <;> simp
    · exact .ok (hdrain _) List.not_mem_nil
  · exact .ok (.refl s) List.not_mem_nil
  · exact .disabled

theorem writeHandlerRest_routine : (writeHandlerRest t c s).Routine v s :=
  .ite shutdownInLoop_routine (.ok (.refl s) List.not_mem_nil)

theorem forceCloseInLoop_routine : (forceCloseInLoop cfg t c s).Routine v s :=
  .assert (.ite closeHandler_routine (.ok (.refl s) List.not_mem_nil))

theorem startReadInLoop_routine : (startReadInLoop cfg t c s).Routine v s :=
  .assert (.ite (.ok (.refl s) List.not_mem_nil)
    (.channelOp fun _ => .ok .setPoller List.not_mem_nil))

theorem stopReadInLoop_routine : (stopReadInLoop cfg t c s).Routine v s :=
  .assert (.ite (.channelOp fun _ => .ok .setPoller List.not_mem_nil)
    (.ok (.refl s) List.not_mem_nil))

/-- `SendInLoop` may queue `written_cb_`. -/
theorem sendInLoop_routine {T : Tid} {m : Msg} (hv : v.tasks (.writtenCb c)) :
    (sendInLoop cfg t c T m inp s).Routine v s := fun s' gs he => by
  rcases sendInLoop_ok he with ⟨rfl, s₁, x', ha, hen, hq⟩ | ⟨-, hcl⟩
  · refine ⟨?_, fun hm => absurd hm List.not_mem_nil⟩
    have harm : s.Routine v s₁ := by
      cases ha with
      | already => exact .refl s
      | armed => exact .setPoller
    have hconn : s₁.Routine v (s₁.updConn c fun _ => x') :=
      .updConn (.inr (ha.conns ▸ .enter hen))
    refine (harm.trans hconn).trans ?_
    cases hq with
    | nothing => exact .refl _
    | written => exact .queueInLoop (.inr hv)
    | highWater n => exact .queueInLoop (.inl rfl)
  · exact Res.Routine.after (.updConn (.inr (.of_same rfl rfl rfl))) closeHandler_routine _ _ hcl

theorem shutdown_routine : (shutdown t c inp s).Routine v s := by
  unfold shutdown
  split
  · refine .ite (.ok (.updConn (.inr ⟨rfl, Nat.le_refl _, .inr (.inl rfl)⟩)) ?_)
      (.ok (.refl s) List.not_mem_nil)
    simp
  · exact .disabled

theorem forceClose_routine : (forceClose c inp s).Routine v s := by
  unfold forceClose
  split
  · refine .ite (.ok (.updConn (.inr ⟨rfl, Nat.le_refl _, .inr (.inl rfl)⟩)) ?_) (.ok (.refl s) ?_) <;>
      simp
  · exact .disabled

theorem forceCloseAgain_routine : (forceCloseAgain c inp s).Routine v s := by
  unfold forceCloseAgain
  split
  · exact .ite (.ok (.refl s) (by simp)) (.ok (.refl s) List.not_mem_nil)
  · exact .disabled

theorem newConnected_routine {n : Fd} : (TcpServer.newConnected cfg t n s).Routine v s := by
  refine .assert (.ok ?_ List.not_mem_nil)
  have hc : s.Routine v (s.create ⟨s.nextSerial, n, TcpServer.getEventLoopFromPoolForHash cfg n,
      .server⟩ (TcpServer.newConn cfg)) := .create rfl
  refine Sys.Routine.trans ?_ (.queueInLoop (.inl rfl))
  exact hc.trans (.of_rfl rfl rfl rfl rfl rfl)

theorem removeConnectionInLoop_routine : (TcpServer.removeConnectionInLoop cfg t c s).Routine v s := by
  refine .assert (.ok ?_ List.not_mem_nil)
  have hc : s.Routine v { s with connections := Function.update s.connections c.fd none } :=
    .of_rfl rfl rfl rfl rfl rfl
  exact (hc.trans (.note _)).trans (.queueInLoop (.inl rfl))

theorem removeConnection_routine : (TcpServer.removeConnection cfg t c s).Routine v s :=
  .ite removeConnectionInLoop_routine (.ok (.queueInLoop (.inl rfl)) List.not_mem_nil)

theorem listen_routine : (TcpAcceptor.listen cfg t s).Routine v s :=
  .assert (.channelOp fun _ => .ok .setPoller List.not_mem_nil)

theorem acceptHandle_routine : (TcpAcceptor.acceptHandle cfg t inp s).Routine v s := by
  refine .assert ?_
  split
  · exact .ite (.followedBy newConnected_routine (by simp)) .disabled
  · exact .ite (.ok (.refl s) List.not_mem_nil) (.ok (.refl s) (by simp))
  · exact .disabled

theorem dropNewFd_routine : (TcpAcceptor.dropNewFd inp s).Routine v s := by
  unfold TcpAcceptor.dropNewFd
  split
  · exact .ite (.ok (.of_rfl rfl rfl rfl rfl rfl) List.not_mem_nil) .disabled
  · exact .ok (.refl s) List.not_mem_nil
  · exact .disabled

theorem clientRemoveConnection_routine {k : ClientId} :
    (TcpClient.removeConnection cfg t k c s).Routine v s := by
  refine .assert (.assert (.ok ?_ List.not_mem_nil))
  have hc : s.Routine v (s.updClient k fun x => { x with connection := none }) :=
    .of_rfl rfl rfl rfl rfl rfl
  exact (hc.trans (.note _)).trans (.queueInLoop (.inl rfl))

theorem disconnect_routine {k : ClientId} : (TcpClient.disconnect t k inp s).Routine v s := by
  unfold TcpClient.disconnect
  split
  · exact shutdown_routine
  · exact .ok (.refl s) List.not_mem_nil

theorem startInLoop_routine {k : ClientId} : (TcpConnector.startInLoop cfg t k inp s).Routine v s :=
  fun _ _ he => by
    obtain ⟨-, rfl, hst⟩ := startInLoop_ok he
    refine ⟨?_, fun hm => absurd hm List.not_mem_nil⟩
    cases hst <;> exact .of_rfl rfl rfl rfl rfl rfl

theorem startConnector_routine {k : ClientId} : (TcpConnector.start t k inp s).Routine v s := by
  unfold TcpConnector.start
  split
  · exact .ite (.ok (.of_rfl rfl rfl rfl rfl rfl) (by simp)) (.ok (.refl s) List.not_mem_nil)
  · exact .disabled

theorem startRest_routine {k : ClientId} : (TcpConnector.startRest cfg t k inp s).Routine v s := by
  have hp : s.Routine v (s.updClient k fun x => { x with phase := .queued }) :=
    .of_rfl rfl rfl rfl rfl rfl
  exact .ite startInLoop_routine (.ok (hp.trans (.queueInLoop (.inl rfl))) List.not_mem_nil)

theorem writeEventHandler_routine {k : ClientId} :
    (TcpConnector.writeEventHandler cfg t k s).Routine v s := fun _ _ he => by
  obtain ⟨-, n, fd, p, p', -, -, -, rfl, rfl⟩ := writeEventHandler_ok he
  have hp : s.Routine v ((s.setPoller (cfg.clientLoop k) p').updClient k fun x =>
      { x with phase := .judging fd }) := .of_rfl rfl rfl rfl rfl rfl
  exact ⟨hp.trans (.queueInLoop (.inl rfl)), fun hm => by simp at hm⟩

theorem writeEventRest_routine {k : ClientId} {fd : Fd} :
    (TcpConnector.writeEventRest cfg t k fd inp s).Routine v s := fun _ _ he => by
  rcases writeEventRest_ok he with ⟨e, -, -, rfl, rfl⟩ | ⟨-, -, p, -, rfl, rfl⟩
  · have hp : s.Routine v ((s.closeFd fd).updClient k fun x => { x with phase := .queued }) :=
      .of_rfl rfl rfl rfl rfl rfl
    exact ⟨hp.trans (.queueInLoop (.inl rfl)), fun hm => absurd hm List.not_mem_nil⟩
  · have hc : s.Routine v (s.create (s.clientConn cfg k fd) (TcpClient.newConn cfg k)) := .create rfl
    refine ⟨Sys.Routine.trans ?_ .establish, fun hm => ?_⟩
    · exact hc.trans (.of_rfl rfl rfl rfl rfl rfl)
    · split at hm <;> simp at hm

end

/-! ## Frames -/

/-- Nothing. -/
def Notable.none : Notable := ⟨fun _ => False, fun _ => False, False⟩

/-- To queue this functor. -/
def Notable.task (k : Task) : Notable := { Notable.none with tasks := fun k' => k' = k }

/-- What the frame may do beside its routine. -/
def Frame.notable (s : Sys) : Frame → Notable
  | .startPool => .task .listen
  | .api (.send c _) => .task (.writtenCb c)
  | .api (.setCallbacks c _) => { Notable.none with conns := fun c' => c' = c }
  | .api .start => { Notable.none with start := True }
  | .loopTasks l => match s.queue l with
    | .sendInLoop c _ _ :: _ => .task (.writtenCb c)
    | _ => .none
  | _ => .none

theorem startServer_routine : (TcpServer.start inp s).Routine ((Frame.api .start).notable s) s := by
  unfold TcpServer.start
  split
  · refine .ite (fun _ _ he => ?_) (.ok (.refl s) List.not_mem_nil)
    cases he
    exact ⟨⟨Nat.le_refl _, fun l => ⟨[], (List.append_nil _).symm, fun _ h => absurd h List.not_mem_nil⟩,
      fun _ _ => .inr (.refl _), .inr trivial, .inl rfl⟩, fun _ => trivial⟩
  · exact .disabled

theorem task_routine {v : Notable} {k : Task}
    (hsend : ∀ c T m, k = .sendInLoop c T m → v.tasks (.writtenCb c))
    (hdes : ∀ c, k = .connectDestoryed c → (s.conns c).state ≠ .connected) :
    (k.run cfg t inp s).Routine v s := by
  cases k with
  | connectEstablished c => exact connectEstablished_routine
  | connectDestoryed c => exact connectDestoryed_routine (hdes c rfl)
  | sendInLoop c T m => exact sendInLoop_routine (hsend c T m rfl)
  | startReadInLoop c => exact startReadInLoop_routine
  | stopReadInLoop c => exact stopReadInLoop_routine
  | shutdownInLoop c => exact shutdownInLoop_routine
  | forceCloseInLoop c => exact forceCloseInLoop_routine
  | writtenCb c | highWaterCb c n | connectorStop k | functor => exact .ok (.refl s) (by simp)
  | removeConnectionInLoop c => exact removeConnectionInLoop_routine
  | listen => exact listen_routine
  | connectorStart k => exact startInLoop_routine
  | connectorReset k => exact .ok (.of_rfl rfl rfl rfl rfl rfl) List.not_mem_nil

theorem api_routine {a : Api} : (a.run cfg t inp s).Routine ((Frame.api a).notable s) s := by
  cases a with
  | send c m =>
    have hsent : s.Routine ((Frame.api (.send c m)).notable s)
        (s.updConn c fun x => { x with sent := x.sent ++ [(t, m)] }) :=
      .updConn (.inr (.of_same rfl rfl rfl))
    exact .ite (.after hsent (sendInLoop_routine rfl))
      (.ok (hsent.trans (.queueInLoop (.inl rfl))) List.not_mem_nil)
  | startRead c | stopRead c => exact .ok (.queueInLoop (.inl rfl)) List.not_mem_nil
  | shutdown c => exact shutdown_routine
  | forceClose c => exact forceClose_routine
  | setCallbacks c cbs => exact .ok (.updConn (.inl rfl)) List.not_mem_nil
  | buffer c op =>
    simp only [Api.run]
    split
    · exact .ok (.updConn (.inr (.of_same rfl rfl rfl))) List.not_mem_nil
    · exact .ok (.refl s) List.not_mem_nil
  | swapBuffer c rhs => exact .ok (.updConn (.inr (.of_same rfl rfl rfl))) List.not_mem_nil
  | retain c | release c => exact .ok (.of_rfl rfl rfl rfl rfl rfl) List.not_mem_nil
  | start => exact startServer_routine
  | connect k => exact startConnector_routine
  | disconnect k => exact disconnect_routine
  | stop k => exact .ite (.ok (.refl s) List.not_mem_nil) (.ok (.refl s) (by simp))
  | runInLoop l | queueInLoop l => exact .ok (.refl s) (by simp)

/-- **What a frame can do beside its routine.** -/
theorem exec_routine (hI : Inv cfg d s) (hs : s.stack t = f :: r) :
    (exec cfg t inp s f).Routine (f.notable s) s := by
  cases f with
  | loopPoll l =>
    refine .assert ?_
    split
    · exact .ite (.ok (.of_rfl rfl rfl rfl rfl rfl) (by simp)) .disabled
    · exact .disabled
  | loopDispatch l =>
    simp only [exec]
    split <;> exact .ok (.of_rfl rfl rfl rfl rfl rfl) (by simp)
  | loopTasks l =>
    simp only [exec]
    split
    · exact .ok (.refl s) (by simp)
    · rename_i k ks hq
      have hdeq : s.Routine ((Frame.loopTasks l).notable s) (s.dequeue t l k ks) :=
        .of_rfl rfl rfl rfl rfl rfl
      refine .followedBy (.after hdeq (task_routine (fun c T m hk => ?_) fun c hk => ?_)) (by simp)
      · subst hk
        simp only [Frame.notable, hq]
        rfl
      · subst hk
        rw [show ((s.dequeue t l _ ks).conns c).state = .disconnected from hI.closed_of_destroy hq]
        decide
  | taskDone k | errorHandler c => exact .ok (.refl s) List.not_mem_nil
  | handleEvent i =>
    refine .ok (.refl s) fun hm => ?_
    cases i <;> rcases mem_callbacks hm with hm | hm | hm | hm <;> simp at hm
  | user c? =>
    simp only [exec]
    split
    · exact .ite (.ok (.refl s) (by simp)) .disabled
    · exact .ok (.refl s) List.not_mem_nil
    · exact .disabled
  | api a => exact api_routine
  | forceCloseAgain c => exact forceCloseAgain_routine
  | startPool =>
    have hinit : s.Routine (Frame.startPool.notable s) { s with initialized := s.initialized ++ [t] } :=
      { Sys.Routine.refl s with initialized := .inr rfl }
    exact .ok (hinit.trans (.queueInLoop (.inr rfl))) List.not_mem_nil
  | queueInLoop l k =>
    refine .ok (.queueInLoop (.inl ?_)) List.not_mem_nil
    obtain ⟨-, rfl | ⟨c, rfl | rfl⟩⟩ := hI.sound.loop_thread hs <;> rfl
  | runInLoop l k =>
    obtain ⟨-, rfl | ⟨j, rfl⟩⟩ := hI.sound.loop_thread hs
    all_goals exact .ite (.ok (.refl s) (by simp)) (.ok (.queueInLoop (.inl rfl)) List.not_mem_nil)
  | closeHandler c => exact closeHandler_routine
  | readHandler c =>
    simp only [exec]
    split
    · exact readHandler_routine
    · exact .disabled
  | writeHandler c => exact writeHandler_routine
  | writeHandlerRest c => exact writeHandlerRest_routine
  | closeCb c =>
    simp only [exec]
    split
    · exact .after (.note _) removeConnection_routine
    · exact .after (.note _) clientRemoveConnection_routine
  | destoryedRest c => exact connectDestoryedRest_routine
  | acceptHandle => exact acceptHandle_routine
  | closeIdle => exact .ok (.of_rfl rfl rfl rfl rfl rfl) List.not_mem_nil
  | reAccept | reOpen => exact dropNewFd_routine
  | connectorRun k => exact startRest_routine
  | writeEventHandler k => exact writeEventHandler_routine
  | writeEventRest k fd => exact writeEventRest_routine

/-- What the step may do beside its routine. -/
def Act.notable (s : Sys) : Act → Notable
  | .thread t _ => match s.stack t with
    | f :: _ => f.notable s
    | [] => .none
  | _ => .none

theorem step_routine {a : Act} (hI : Inv cfg d s) (h : step cfg s a = some s') :
    s.Routine (a.notable s) s' := by
  rcases step_cases h with ⟨t, inp, f, r, gs, s₁, rfl, hs, hx, rfl⟩ | ⟨t, inp, f, r, e, -, -, -, rfl⟩ |
    ⟨c', -, -, -, rfl⟩ | ⟨n, -, -, rfl⟩ | ⟨n, -, -, rfl⟩
  · obtain ⟨hR, -⟩ := exec_routine hI hs _ _ hx
    simp only [Act.notable, hs]
    exact hR.trans (.of_rfl rfl rfl rfl rfl rfl)
  all_goals exact .of_rfl rfl rfl rfl rfl rfl

/-- A functor that is not routine is queued by the frames that may do so only. -/
theorem Sys.Routine.count {v : Notable} {k : Task} (h : s.Routine v s') (hk : k.routine = false)
    (hv : ¬ v.tasks k) (l : LoopId) :
    ((s'.enqueued l).map (·.2)).count k = ((s.enqueued l).map (·.2)).count k := by
  obtain ⟨es, he, hes⟩ := h.queued l
  have hnone : k ∉ es.map (·.2) := by
    intro hm
    obtain ⟨⟨T, k'⟩, hmem, rfl⟩ := List.mem_map.1 hm
    rcases hes _ hmem with hr | hr
    · rw [hr] at hk
      cases hk
    · exact hv hr
  rw [he, List.map_append, List.count_append, List.count_eq_zero_of_not_mem hnone, Nat.add_zero]

end Liang.Net
