import NetworkPoller.Net.Proof.ConnSteps

/-!
# A step is a sequence of effects

`exec_effects`: running a frame in a system whose base invariants hold amounts to a sequence of
effects, provided the step keeps the discipline. `Inv.reach`: so the base invariants hold in every
state reached, and `Reach.inv_effects` is the invariant rule of the development.
-/

namespace Liang.Net

open Base TcpConnection EpollPoller

variable {cfg : Cfg} {d : Discipline} {s s' s₁ : Sys} {t : Tid} {c : ConnId} {r gs : List Frame}
  {inp : Input} {l : LoopId} {k : ClientId}

/-! ## Establishing and removing -/

theorem connectEstablished_ok (h : connectEstablished cfg t c s = .ok s' gs) :
    t = .loop c.loop ∧ ∃ p, (s.pollers c.loop).enableReading (ChanId.fd cfg) (.conn c) = .ok p ∧
      s' = s.establish c p ∧ gs = statusFrames c s := by
  obtain ⟨ht, h⟩ := Res.assert_ok h
  obtain ⟨s₁, h1, h⟩ := Res.bind_ok h
  obtain ⟨-, p, hp, rfl⟩ := channelOp_ok h1
  cases h
  refine ⟨ht, p, hp, rfl, statusFrames_congr ?_⟩
  simp [Sys.setPoller, Sys.note, setState, Sys.updConn]

/-- `ConnectDestoryed` is queued for closed connections only. -/
theorem Inv.closed_of_destroy (hB : Inv cfg d s) {ks : List Task}
    (hq : s.queue l = .connectDestoryed c :: ks) : (s.conns c).state = .disconnected := by
  have hm : Task.connectDestoryed c ∈ s.queue l := hq ▸ List.mem_cons_self
  obtain rfl : l = c.loop := (hB.sound.tasks l _ hm).home
  have hpos : 0 < (s.ledger cfg c).destroys := List.count_pos_iff.2 hm
  have hok := hB.life c
  exact of_decide_eq_true (hok.disc.2 (by have := hok.closes; have := hok.unlinked; omega))

theorem destroyTask_effects {ks : List Task} (hB : Inv cfg d s)
    (hs : s.stack t = .loopTasks l :: r) (hq : s.queue l = .connectDestoryed c :: ks)
    (h : connectDestoryed cfg t c (s.dequeue t l (.connectDestoryed c) ks) = .ok s' gs) :
    Effects cfg d t s (s'.push t (gs ++ .taskDone (.connectDestoryed c) :: .loopPoll l :: r)) := by
  obtain ⟨ht, h⟩ := Res.assert_ok h
  have hst : ((s.dequeue t l (.connectDestoryed c) ks).conns c).state ≠ .connected := by
    show (s.conns c).state ≠ _
    rw [hB.closed_of_destroy hq]
    nofun
  rw [if_neg hst] at h
  obtain ⟨s₁, h1, h⟩ := Res.bind_ok h
  obtain ⟨-, p, hp, rfl⟩ := removeFromLoop_ok h1
  cases h
  exact .single (.destroyed hs hq ht hp)

theorem removeConnection_effects (hs : s.stack t = .closeCb c :: r) (ho : c.owner = .server)
    (h : TcpServer.removeConnection cfg t c (s.note c [.closeCb]) = .ok s' gs) :
    Effects cfg d t s (s'.push t (gs ++ r)) := by
  unfold TcpServer.removeConnection at h
  split at h
  · rename_i ht
    obtain ⟨-, h⟩ := Res.assert_ok h
    cases h
    exact .single (.unlink hs ho ht)
  · cases h
    exact .single (.handOver hs ho)

theorem clientRemoveConnection_effects (hs : s.stack t = .closeCb c :: r)
    (ho : c.owner = .client k)
    (h : TcpClient.removeConnection cfg t k c (s.note c [.closeCb]) = .ok s' gs) :
    Effects cfg d t s (s'.push t (gs ++ r)) := by
  obtain ⟨ht, h⟩ := Res.assert_ok h
  obtain ⟨hl, h⟩ := Res.assert_ok h
  cases h
  rw [hl] at ht ⊢
  exact .single (.unlinkClient hs ho ht)

/-! ## The acceptor -/

theorem acceptHandle_effects (hs : s.stack t = .acceptHandle :: r)
    (hd : ∃ l, .loopDispatch l ∈ r) (h : TcpAcceptor.acceptHandle cfg t inp s = .ok s' gs) :
    Effects cfg d t s (s'.push t (gs ++ r)) := by
  obtain ⟨ht, h⟩ := Res.assert_ok h
  have hr := Rest.frame (d := d) hs rfl
  -- the frames of `AcceptHandle` are about no connection
  have hg : ∀ {V : View}, ∀ g ∈ [Frame.closeIdle, .reAccept, .closeIdle, .reOpen, .acceptHandle],
      g.light = true ∧ g.Fits cfg d V t ∧
        (g.isHandler = true → (∃ l, .loopDispatch l ∈ r) ∧ s.Handling t g.about) := by
    intro V g hg
    have hh : s.Handling t none := ⟨.acceptHandle, hs ▸ List.mem_cons_self, rfl, rfl⟩
    simp only [List.mem_cons, List.not_mem_nil, or_false] at hg
    rcases hg with rfl | rfl | rfl | rfl | rfl <;>
      exact ⟨rfl, .of ht nofun nofun nofun, fun _ => ⟨hd, hh⟩⟩
  split at h
  · rename_i n _
    split at h
    · rename_i hn
      obtain ⟨gs', h', rfl⟩ := Res.followedBy_ok h
      obtain ⟨-, h'⟩ := Res.assert_ok h'
      cases h'
      refine .head (.accept (c := ⟨s.nextSerial, n, TcpServer.getEventLoopFromPoolForHash cfg n,
        .server⟩) rfl hn ht) ?_
      exact Effects.finish (.frame (f := .acceptHandle) hs rfl) fun g hgm => hg g (by simp_all)
    · cases h
  · split at h
    · cases h
      exact Effects.done hr
    · cases h
      exact Effects.finish hr hg
  · cases h

theorem dropNewFd_effects (hr : Rest d s t r) (h : TcpAcceptor.dropNewFd inp s = .ok s' gs) :
    Effects cfg d t s (s'.push t (gs ++ r)) := by
  unfold TcpAcceptor.dropNewFd at h
  split at h
  · split at h
    · rename_i hn
      cases h
      exact .head (.openFd hn (.inl rfl)) (Effects.done (hr.mono rfl (.refl _)))
    · cases h
  · cases h
    exact Effects.done hr
  · cases h

theorem listen_effects (hr : Rest d s t r) (h : TcpAcceptor.listen cfg t s = .ok s' gs) :
    Effects cfg d t s (s'.push t (gs ++ r)) := by
  obtain ⟨ht, h⟩ := Res.assert_ok h
  obtain ⟨s₁, h1, h⟩ := Res.bind_ok h
  obtain ⟨-, p, hp, rfl⟩ := channelOp_ok h1
  cases h
  exact .head (.events (i := .acceptor) ht hp trivial) (Effects.done (hr.mono rfl (.refl _)))

/-! ## Connectors -/

/-- What `StartInLoop` does: the socket is polled, it is closed again, or there is none. -/
inductive Started (cfg : Cfg) (k : ClientId) (s : Sys) : Input → Sys → Prop
  | polling {fd err stale n p} (hf : s.fds fd = none)
      (hg : TcpConnector.goesOn (err.getD stale) = true) (hn : (s.clients k).attempts = n)
      (ho : (s.pollers (cfg.clientLoop k)).enableWriting (ChanId.fd cfg) (.connector k n fd)
        = .ok p) :
      Started cfg k s (.connect (some fd) err stale)
        (((s.openFd fd (.connector k)).updClient k fun x =>
          { x with attempts := n + 1, channel := some (n, fd), phase := .polling n fd }).setPoller
            (cfg.clientLoop k) p)
  | closed {fd err stale} (hf : s.fds fd = none)
      (hg : TcpConnector.goesOn (err.getD stale) = false) :
      Started cfg k s (.connect (some fd) err stale)
        (((s.openFd fd (.connector k)).closeFd fd).updClient k fun x => { x with phase := .ended })
  | noSocket {err stale} :
      Started cfg k s (.connect none err stale) (s.updClient k fun x => { x with phase := .ended })

theorem startInLoop_ok (h : TcpConnector.startInLoop cfg t k inp s = .ok s' gs) :
    t = .loop (cfg.clientLoop k) ∧ gs = [] ∧ Started cfg k s inp s' := by
  obtain ⟨ht, h⟩ := Res.assert_ok h
  obtain ⟨-, h⟩ := Res.assert_ok h
  split at h
  · split at h
    · rename_i hf
      dsimp only at h
      split at h
      · rename_i hg
        obtain ⟨s₁, h1, h⟩ := Res.bind_ok h
        obtain ⟨-, p, hp, rfl⟩ := channelOp_ok h1
        cases h
        exact ⟨ht, rfl, .polling hf hg rfl hp⟩
      · rename_i hg
        cases h
        exact ⟨ht, rfl, .closed hf (Bool.eq_false_iff.2 hg)⟩
    · cases h
  · split at h
    · cases h
      exact ⟨ht, rfl, .noSocket⟩
    · cases h
  · cases h

theorem writeEventHandler_ok (h : TcpConnector.writeEventHandler cfg t k s = .ok s' gs) :
    t = .loop (cfg.clientLoop k) ∧ ∃ n fd p p', (s.clients k).channel = some (n, fd) ∧
      (s.pollers (cfg.clientLoop k)).disableAll (ChanId.fd cfg) (.connector k n fd) = .ok p ∧
      p.removeEventChannel (ChanId.fd cfg) (.connector k n fd) = .ok p' ∧
      gs = [.writeEventRest k fd] ∧
      s' = ((s.setPoller (cfg.clientLoop k) p').updClient k fun x =>
        { x with phase := .judging fd }).queueInLoop t (cfg.clientLoop k) (.connectorReset k) := by
  obtain ⟨-, h⟩ := Res.assert_ok h
  split at h
  · cases h
  · rename_i n fd hk
    obtain ⟨s₁, h1, h⟩ := Res.bind_ok h
    obtain ⟨ht, p, hp, rfl⟩ := channelOp_ok h1
    obtain ⟨s₂, h2, h⟩ := Res.bind_ok h
    obtain ⟨-, p', hp', rfl⟩ := removeFromLoop_ok h2
    cases h
    rw [ChanId.loop, Sys.setPoller_self] at hp'
    exact ⟨ht, n, fd, p, p', hk, hp, hp', rfl, by simp [Sys.setPoller, ChanId.loop]⟩

/-- The connection a connector's socket becomes. -/
def Sys.clientConn (cfg : Cfg) (s : Sys) (k : ClientId) (fd : Fd) : ConnId :=
  ⟨s.nextSerial, fd, cfg.clientLoop k, .client k⟩

theorem writeEventRest_ok {fd : Fd} (h : TcpConnector.writeEventRest cfg t k fd inp s = .ok s' gs) :
    (∃ e, inp = .soError e ∧ e ≠ 0 ∧ gs = [] ∧ s' = ((s.closeFd fd).updClient k fun x =>
      { x with phase := .queued }).queueInLoop t (cfg.clientLoop k) (.connectorStart k)) ∨
    inp = .soError 0 ∧ t = .loop (cfg.clientLoop k) ∧ ∃ p,
      (s.pollers (cfg.clientLoop k)).enableReading (ChanId.fd cfg) (.conn (s.clientConn cfg k fd))
        = .ok p ∧
      gs = (if cfg.clientStatusCb k then [.user (some (s.clientConn cfg k fd))] else []) ∧
      s' = ((s.create (s.clientConn cfg k fd) (TcpClient.newConn cfg k)).updClient k fun x =>
        { x with connection := some (s.clientConn cfg k fd), phase := .ended }).establish
          (s.clientConn cfg k fd) p := by
  unfold TcpConnector.writeEventRest at h
  split at h
  · split at h
    · rename_i he
      cases h
      exact .inl ⟨_, rfl, he, rfl, rfl⟩
    · rename_i e he
      obtain rfl : e = 0 := not_not.1 he
      obtain ⟨-, h⟩ := Res.assert_ok h
      obtain ⟨ht, p, hp, rfl, rfl⟩ := connectEstablished_ok h
      refine .inr ⟨rfl, ht, p, hp, ?_, rfl⟩
      simp [statusFrames, Sys.updClient, TcpClient.newConn, Sys.clientConn]
  · cases h

theorem startInLoop_effects {s₀ : Sys} (hs : StartSource t k s s₀ r)
    (h : TcpConnector.startInLoop cfg t k inp s₀ = .ok s' gs) :
    Effects cfg d t s (s'.push t (gs ++ r)) := by
  have heq : s₀.fds = s.fds ∧ s₀.clients = s.clients ∧ s₀.pollers = s.pollers := by
    cases hs <;> exact ⟨rfl, rfl, rfl⟩
  obtain ⟨ht, rfl, hst⟩ := startInLoop_ok h
  cases hst with
  | polling hf hg hn ho =>
    exact .single (.attempt hs ht (heq.1 ▸ hf) (heq.2.1 ▸ hn) (heq.2.2 ▸ ho))
  | @closed fd err stale hf hg =>
    have hfree : ∀ u, s₀.fds fd ≠ some u := fun u hu => by
      rw [hf] at hu
      cases hu
    have : Effects cfg d t s _ := .head (.attemptFailed hs)
      (.single (.closeFd (.inl (.inl fun c => hfree _)) (.inl fun k' => hfree _)))
    convert this using 1
    simp [Sys.closeFd, Sys.openFd, Sys.updClient, Sys.push]
  | noSocket => exact .single (.attemptFailed hs)

theorem startRest_effects (hs : s.stack t = .connectorRun k :: r)
    (h : TcpConnector.startRest cfg t k inp s = .ok s' gs) :
    Effects cfg d t s (s'.push t (gs ++ r)) := by
  unfold TcpConnector.startRest at h
  split at h
  · exact startInLoop_effects (.frame hs) h
  · cases h
    exact .single (.connectQueued hs)

theorem writeEventHandler_effects (hs : s.stack t = .writeEventHandler k :: r)
    (h : TcpConnector.writeEventHandler cfg t k s = .ok s' gs) :
    Effects cfg d t s (s'.push t (gs ++ r)) := by
  obtain ⟨ht, n, fd, p, p', hk, hp, hp', rfl, rfl⟩ := writeEventHandler_ok h
  exact .single (.removeChannel hs ht hk hp hp')

theorem writeEventRest_effects {fd : Fd} (hs : s.stack t = .writeEventRest k fd :: r)
    (ha : ∀ e, inp = .soError e → e ≠ 0 → s.Harmless fd ∨ d.steals)
    (h : TcpConnector.writeEventRest cfg t k fd inp s = .ok s' gs) :
    Effects cfg d t s (s'.push t (gs ++ r)) := by
  rcases writeEventRest_ok h with ⟨e, he, he0, rfl, rfl⟩ | ⟨-, ht, p, hp, rfl, rfl⟩
  · exact .single (.retry hs (ha e he he0))
  · exact .single (.newConnection (c := s.clientConn cfg k fd) hs rfl ht hp)

/-! ## The calls -/

theorem shutdown_effects (hl : s.Live d c) (hr : Rest d s t r)
    (h : shutdown t c inp s = .ok s' gs) : Effects cfg d t s (s'.push t (gs ++ r)) := by
  unfold shutdown at h
  split at h
  · split at h
    · rename_i hst
      cases h
      have hx : ConnStep d t c (s.chan c).isWriting (s.conns c) _ := .shutdown hst.2
      refine (Effects.conn hl hx).trans (Effects.finish (hr.updConn hx) fun g hg => ?_)
      rw [List.mem_singleton.1 hg]
      have hl' := Live.updConn hl hx
      refine ⟨rfl, ⟨⟨rfl, .inr ⟨c, .inl rfl⟩⟩, fun c' hc' => by cases hc'; exact hl', nofun,
        fun l c' hc' => ?_⟩, nofun⟩
      cases hc'
      simp [Sys.view]
    · cases h
      exact Effects.done hr
  · cases h

/-- The frame of `ForceClose` that queues its functor. -/
theorem Frame.Fits.queueForceClose {V : View} (hl : V.live c) :
    (Frame.queueInLoop c.loop (.forceCloseInLoop c)).Fits cfg d V t :=
  .of ⟨rfl, .inr ⟨c, .inr rfl⟩⟩ (fun c' hc' => by cases hc'; exact hl) nofun nofun

theorem Frame.Fits.forceCloseAgain {V : View} (hl : V.live c) :
    (Frame.forceCloseAgain c).Fits cfg d V t :=
  .of trivial (fun c' hc' => by cases hc'; exact hl) nofun nofun

theorem forceClose_effects (hl : s.Live d c) (hr : Rest d s t r)
    (h : forceClose c inp s = .ok s' gs) : Effects cfg d t s (s'.push t (gs ++ r)) := by
  unfold forceClose at h
  split at h
  · split at h
    · rename_i hst
      cases h
      have hx : ConnStep d t c (s.chan c).isWriting (s.conns c) _ := .forceClose hst.2
      refine (Effects.conn hl hx).trans (Effects.finish (hr.updConn hx) fun g hg => ?_)
      have hl' := Live.updConn hl hx
      simp only [List.mem_cons, List.not_mem_nil, or_false] at hg
      rcases hg with rfl | rfl
      · exact ⟨rfl, .queueForceClose hl', nofun⟩
      · exact ⟨rfl, .forceCloseAgain hl', nofun⟩
    · cases h
      refine Effects.finish hr fun g hg => ?_
      rw [List.mem_singleton.1 hg]
      exact ⟨rfl, .forceCloseAgain hl, nofun⟩
  · cases h

theorem forceCloseAgain_effects (hl : s.Live d c) (hr : Rest d s t r)
    (h : forceCloseAgain c inp s = .ok s' gs) : Effects cfg d t s (s'.push t (gs ++ r)) := by
  unfold TcpConnection.forceCloseAgain at h
  split at h
  · split at h
    · cases h
      refine Effects.finish hr fun g hg => ?_
      rw [List.mem_singleton.1 hg]
      exact ⟨rfl, .queueForceClose hl, nofun⟩
    · cases h
      exact Effects.done hr
  · cases h

/-- A light functor, or `ShutdownInLoop`, is queued. -/
theorem enqueue_effects {k : Task} (hr : Rest d s t r)
    (hk : k.light = true ∨ ∃ c, k = .shutdownInLoop c) (hf : k.Fits cfg d (s.view d) l) :
    Effects cfg d t s ((s.queueInLoop t l k).push t ([] ++ r)) :=
  .head (.enqueue hk hf) (Effects.done (hr.mono rfl (.refl _)))

/-- A frame that stands for a functor of the user's. -/
theorem functor_effects (hr : Rest d s t r) {g : Frame}
    (hg : g = .runInLoop l .functor ∨ g = .queueInLoop l .functor) :
    Effects cfg d t s (s.push t ([g] ++ r)) := by
  refine Effects.finish hr fun g' hg' => ?_
  rw [List.mem_singleton.1 hg']
  rcases hg with rfl | rfl
  all_goals exact ⟨rfl, .of ⟨trivial, .inl rfl⟩ nofun nofun nofun, nofun⟩

theorem startServer_effects (hr : Rest d s t r) (h : TcpServer.start inp s = .ok s' gs) :
    Effects cfg d t s (s'.push t (gs ++ r)) := by
  unfold TcpServer.start at h
  split at h
  · split at h
    · cases h
      refine .head .start (Effects.finish (hr.mono rfl (.refl _)) fun g hg => ?_)
      rw [List.mem_singleton.1 hg]
      exact ⟨rfl, .of trivial nofun nofun nofun, nofun⟩
    · cases h
      exact Effects.done hr
  · cases h

theorem startConnector_effects (hr : Rest d s t r) (h : TcpConnector.start t k inp s = .ok s' gs) :
    Effects cfg d t s (s'.push t (gs ++ r)) := by
  unfold TcpConnector.start at h
  split at h
  · split at h
    · rename_i hst
      cases h
      exact .single (.connect hr hst.2)
    · cases h
      exact Effects.done hr
  · cases h

theorem stopConnector_effects (hr : Rest d s t r) (h : TcpConnector.stop cfg k s = .ok s' gs) :
    Effects cfg d t s (s'.push t (gs ++ r)) := by
  unfold TcpConnector.stop at h
  split at h
  · cases h
    exact Effects.done hr
  · cases h
    refine Effects.finish hr fun g hg => ?_
    rw [List.mem_singleton.1 hg]
    exact ⟨rfl, .of ⟨rfl, .inr ⟨k, rfl⟩⟩ nofun nofun nofun, nofun⟩

/-- The read buffer is filled or emptied by user code. -/
theorem readBuffer_effects (hl : s.Live d c) (hr : Rest d s t r) (b : Buffer) :
    Effects cfg d t s ((s.updConn c fun x => { x with readBuffer := b }).push t ([] ++ r)) := by
  have hx : ConnStep d t c (s.chan c).isWriting (s.conns c) { s.conns c with readBuffer := b } :=
    .misc _ _ _ _ _ _
  exact (Effects.conn hl hx).trans (Effects.done (hr.updConn hx))

theorem api_effects {a : Api} (hI : Inv cfg d s) (hs : s.stack t = .api a :: r)
    (h : a.run cfg t inp s = .ok s' gs) : Effects cfg d t s (s'.push t (gs ++ r)) := by
  have hr := Rest.frame (d := d) hs rfl
  have hl : ∀ c, a.conn? = some c → s.Live d c := fun c hc => hI.sound.frame_live hs hc
  have hreads : ∀ c, a = .startRead c → d.reads := fun c hc =>
    (hI.sound.frames t _ (hs ▸ List.mem_cons_self)).reads c (by rw [hc])
  cases a with
  | send c m => exact send_effects (hI.life c) (hl c rfl) hr h
  | startRead c =>
    cases h
    exact enqueue_effects hr (.inl rfl)
      ⟨rfl, fun c' hc' => by cases hc'; exact .inr (hl c rfl), fun _ _ => hreads c rfl, nofun⟩
  | stopRead c =>
    cases h
    exact enqueue_effects hr (.inl rfl)
      (.of rfl (fun c' hc' => by cases hc'; exact hl c rfl) nofun nofun)
  | shutdown c => exact shutdown_effects (hl c rfl) hr h
  | forceClose c => exact forceClose_effects (hl c rfl) hr h
  | setCallbacks c cbs =>
    cases h
    have hx : ConnStep d t c (s.chan c).isWriting (s.conns c) _ :=
      .misc (s.conns c).readBuffer cbs.msg cbs.written cbs.highWater.isSome cbs.status
        (cbs.highWater.getD (s.conns c).highWater)
    exact (Effects.conn (hl c rfl) hx).trans (Effects.done (hr.updConn hx))
  | buffer c op =>
    simp only [Api.run] at h
    split at h
    · cases h
      exact readBuffer_effects (hl c rfl) hr _
    · cases h
      exact Effects.done hr
  | swapBuffer c rhs =>
    cases h
    exact readBuffer_effects (hl c rfl) hr _
  | retain c =>
    cases h
    exact .head (.hold (hl c rfl)) (Effects.done (hr.mono rfl (.refl _)))
  | release c =>
    cases h
    exact .head (.hold (hl c rfl)) (Effects.done (hr.mono rfl (.refl _)))
  | start => exact startServer_effects hr h
  | connect k => exact startConnector_effects hr h
  | disconnect k =>
    have h : TcpClient.disconnect t k inp s = .ok s' gs := h
    unfold TcpClient.disconnect at h
    split at h
    · rename_i c hc
      exact shutdown_effects (hI.sound.client k c hc) hr h
    · cases h
      exact Effects.done hr
  | stop k => exact stopConnector_effects hr h
  | runInLoop l =>
    cases h
    exact functor_effects hr (.inl rfl)
  | queueInLoop l =>
    cases h
    exact functor_effects hr (.inr rfl)

/-! ## Functors -/

/-- A light functor is taken from the queue; `h` says what its body does then. -/
theorem lightTask_effects {k : Task} {ks : List Task} (hs : s.stack t = .loopTasks l :: r)
    (hq : s.queue l = k :: ks) (hk : k.light = true) (hl : ∀ c, k.conn? = some c → s.Live d c)
    (h : Rest d (s.dequeue t l k ks) t (.taskDone k :: .loopPoll l :: r) →
      Effects cfg d t (s.dequeue t l k ks) (s'.push t (gs ++ .taskDone k :: .loopPoll l :: r))) :
    Effects cfg d t s (s'.push t (gs ++ .taskDone k :: .loopPoll l :: r)) :=
  .head (.dequeue hs hq hk) (h (.task hs hl))

theorem task_effects {k : Task} {ks : List Task} (hI : Inv cfg d s)
    (hs : s.stack t = .loopTasks l :: r) (hq : s.queue l = k :: ks)
    (ha : ∀ c ks, s.queue l = .startReadInLoop c :: ks → d.reads → s.Closed c → d.rearms)
    (h : k.run cfg t inp (s.dequeue t l k ks) = .ok s' gs) :
    Effects cfg d t s (s'.push t (gs ++ .taskDone k :: .loopPoll l :: r)) := by
  have hl : k.light = true → ∀ c, k.conn? = some c → s.Live d c := fun hk c hc =>
    hI.sound.task_live hq hc (by rintro rfl; cases hk)
  cases k with
  | connectEstablished c =>
    obtain ⟨ht, p, hp, rfl, rfl⟩ := connectEstablished_ok h
    exact .single (.establish hs hq ht hp)
  | connectDestoryed c => exact destroyTask_effects hI hs hq h
  | sendInLoop c T m => exact sendTask_effects hI hs hq h
  | startReadInLoop c =>
    have hreads := (hI.sound.tasks l _ (hq ▸ List.mem_cons_self)).reads c rfl
    exact lightTask_effects hs hq rfl (hl rfl) fun hr =>
      startReadInLoop_effects hr (hl rfl c rfl) (ha c ks hq hreads) h
  | stopReadInLoop c =>
    exact lightTask_effects hs hq rfl (hl rfl) fun hr => stopReadInLoop_effects hr (hl rfl c rfl) h
  | shutdownInLoop c =>
    have hlc := hI.sound.task_live hq rfl (by simp)
    have hrest : ∀ s₁ : Sys, s₁.stack = s.stack → (s.view d).Le (s₁.view d) →
        Rest d s₁ t (.taskDone (.shutdownInLoop c) :: .loopPoll l :: r) := fun s₁ hst hV =>
      .task (by rw [hst, hs]) fun c' hc' => by cases hc'; exact hV.live c hlc
    obtain ⟨-, rfl, ⟨-, rfl⟩ | ⟨hw, rfl⟩⟩ := shutdownInLoop_ok h
    · have : Effects cfg d t s _ := .head (.shutTaken hs hq (.inl rfl))
        (Effects.done (hrest _ rfl (view_updConn (s := s.dequeue t l _ ks) id id)))
      convert this using 1
      simp [Sys.updConn, Sys.dequeue]
    · refine .head (.shutTaken hs hq (.inr ⟨hw, rfl⟩)) (Effects.done (hrest _ rfl ?_))
      exact view_updConn (s := s.dequeue t l _ ks) id id
  | forceCloseInLoop c =>
    exact lightTask_effects hs hq rfl (hl rfl) fun hr =>
      forceCloseInLoop_effects ((hI.effect (.dequeue hs hq rfl)).life c) hr (hl rfl c rfl) h
  | writtenCb c =>
    cases h
    exact lightTask_effects hs hq rfl (hl rfl) fun hr => Effects.callback hr (hl rfl c rfl)
  | highWaterCb c n =>
    cases h
    exact lightTask_effects hs hq rfl (hl rfl) fun hr => Effects.callback hr (hl rfl c rfl)
  | removeConnectionInLoop c =>
    obtain ⟨ht, h⟩ := Res.assert_ok h
    cases h
    exact .single (.unlinkTaken hs hq ht)
  | listen => exact lightTask_effects hs hq rfl (hl rfl) fun hr => listen_effects hr h
  | connectorStart k => exact startInLoop_effects (.task hs hq) h
  | connectorReset k =>
    cases h
    exact .single (.reset hs hq)
  | connectorStop k =>
    cases h
    exact lightTask_effects hs hq rfl (hl rfl) Effects.done
  | functor =>
    cases h
    refine lightTask_effects hs hq rfl (hl rfl) fun hr => Effects.finish hr fun g hg => ?_
    rw [List.mem_singleton.1 hg]
    exact ⟨rfl, .plainUser, fun h => by cases h⟩

/-! ## Frames -/

theorem mem_callbacks {ev : Mask} {g : Frame} {close error read write : List Frame}
    (h : g ∈ EventChannel.callbacks ev close error read write) :
    g ∈ close ∨ g ∈ error ∨ g ∈ read ∨ g ∈ write := by
  unfold EventChannel.callbacks at h
  simp only [List.mem_append] at h
  rcases h with ((h | h) | h) | h <;> split at h <;> simp_all

/-- `HandleEvent` leaves handlers of its channel. -/
theorem handleEvent_effects {i : ChanId} {ev : Mask} (hs : s.stack t = .handleEvent i :: r)
    (ht : t = .loop (i.loop cfg)) (hl : ∀ c, i = .conn c → s.Live d c)
    (hd : ∃ l, .loopDispatch l ∈ r) :
    Effects cfg d t s (s.push t (EventChannel.handleEvent ev i ++ r)) := by
  have hh : s.Handling t (Frame.handleEvent i).about := ⟨_, hs ▸ List.mem_cons_self, rfl, rfl⟩
  cases i with
  | acceptor =>
    refine Effects.finish (.frame hs rfl) fun g hg => ?_
    rcases mem_callbacks hg with h | h | h | h <;> simp only [List.mem_singleton, List.not_mem_nil] at h
    subst h
    exact ⟨rfl, .of ht nofun nofun nofun, fun _ => ⟨hd, hh⟩⟩
  | conn c =>
    refine Effects.finish (.frame hs rfl) fun g hg => ?_
    rcases mem_callbacks hg with h | h | h | h <;> rw [List.mem_singleton.1 h] <;>
      exact ⟨rfl, .of ht (fun c' hc' => by cases hc'; exact hl c rfl) nofun nofun,
        fun _ => ⟨hd, hh⟩⟩
  | connector k n fd =>
    refine .single (.handled hs ?_)
    unfold EventChannel.handleEvent EventChannel.callbacks
    simp only [ite_self, List.nil_append]
    split
    · exact .inr rfl
    · exact .inl rfl

/-- A call is made on a connection that the caller holds. -/
theorem possible_held {a : Api} {c? : Option ConnId} (h : a.possible cfg s c? = true)
    (hc : a.conn? = some c) : s.held c = true ∨ c? = some c := by
  cases a with
  | runInLoop | queueInLoop => cases hc
  | _ => simpa [Api.possible, hc] using h

theorem possible_live {a : Api} {c? : Option ConnId} (hI : Inv cfg d s)
    (hs : s.stack t = .user c? :: r) (h : a.possible cfg s c? = true) (hc : a.conn? = some c) :
    s.Live d c :=
  (possible_held h hc).elim (hI.sound.held c) (hI.sound.frame_live hs)

/-- **Running a frame is a sequence of effects.** -/
theorem exec_effects {f : Frame} (hI : Inv cfg d s) (hs : s.stack t = f :: r)
    (ha : d.AllowsFrame cfg s inp f) (h : exec cfg t inp s f = .ok s' gs) :
    Effects cfg d t s (s'.push t (gs ++ r)) := by
  have hd : f.isLoop = false → f.isHandler = true → ∃ l, .loopDispatch l ∈ r := fun hf =>
    (hI.shape.of_stack hs hf).2
  have hr : f.light = true → Rest d s t r := .frame hs
  have hh : f.isHandler = true → s.Handling t f.about := fun hf => ⟨f, hs ▸ List.mem_cons_self, hf, rfl⟩
  have hl : ∀ c, f.about = some c → s.Live d c := fun c => hI.sound.frame_live hs
  have hfit := hI.sound.frames t f (hs ▸ List.mem_cons_self)
  cases f with
  | loopPoll l =>
    obtain ⟨-, h⟩ := Res.assert_ok h
    split at h
    · split at h
      · rename_i hp
        cases h
        exact .single (.poll hs hp)
      · cases h
    · cases h
  | loopDispatch l =>
    simp only [exec] at h
    split at h
    · rename_i hact
      cases h
      exact .single (.dispatched hs hact)
    · rename_i hact
      cases h
      exact .single (.dispatch hs hact)
  | loopTasks l =>
    simp only [exec] at h
    split at h
    · rename_i hq
      cases h
      exact .single (.idle hs hq)
    · rename_i k ks hq
      obtain ⟨gs', h', rfl⟩ := Res.followedBy_ok h
      rw [List.append_assoc]
      exact task_effects hI hs hq ha h'
  | taskDone k =>
    cases h
    exact Effects.done (hr rfl)
  | user c? =>
    simp only [exec] at h
    split at h
    · split at h
      · rename_i a _ hp
        cases h
        refine Effects.finish (hr rfl) fun g hg => ?_
        simp only [List.mem_cons, List.not_mem_nil, or_false] at hg
        rcases hg with rfl | rfl
        · exact ⟨rfl, ⟨trivial, fun c hc => possible_live hI hs hp hc,
            fun c hc => ha c (by cases hc; rfl), nofun⟩, nofun⟩
        · exact ⟨rfl, hfit, nofun⟩
      · cases h
    · cases h
      exact Effects.done (hr rfl)
    · cases h
  | api a => exact api_effects hI hs h
  | forceCloseAgain c => exact forceCloseAgain_effects (hl c rfl) (hr rfl) h
  | startPool =>
    cases h
    exact .head .initPool
      (enqueue_effects ((hr rfl).mono rfl (.refl _)) (.inl rfl) (.of rfl nofun nofun nofun))
  | queueInLoop l k =>
    cases h
    have hk : k.light = true ∨ ∃ c, k = .shutdownInLoop c := by
      rcases hfit.home.2 with rfl | ⟨c, rfl | rfl⟩
      · exact .inl rfl
      · exact .inr ⟨c, rfl⟩
      · exact .inl rfl
    refine enqueue_effects (hr rfl) hk ⟨hfit.home.1, fun c hc => .inr (hl c hc), fun c hc => ?_,
      fun c hc => hfit.shut l c (by rw [hc])⟩
    subst hc
    rcases hfit.home.2 with hk | ⟨c, hk | hk⟩ <;> cases hk
  | runInLoop l k =>
    simp only [exec] at h
    rcases hfit.home.2 with rfl | ⟨j, rfl⟩
    · split at h
      · cases h
        refine Effects.finish (hr rfl) fun g hg => ?_
        rw [List.mem_singleton.1 hg]
        exact ⟨rfl, .of trivial nofun nofun nofun, nofun⟩
      · cases h
        exact enqueue_effects (hr rfl) (.inl rfl) (.of trivial nofun nofun nofun)
    · split at h
      · cases h
        exact Effects.done (hr rfl)
      · cases h
        exact enqueue_effects (hr rfl) (.inl rfl) (.of hfit.home.1 nofun nofun nofun)
  | handleEvent i =>
    cases h
    exact handleEvent_effects hs hfit.home (fun c hc => hl c (by rw [hc]; rfl)) (hd rfl rfl)
  | closeHandler c => exact closeHandler_effects (hr rfl) (hl c rfl) (fun hc => ⟨ha hc, hh rfl⟩) h
  | errorHandler c =>
    cases h
    exact Effects.done (hr rfl)
  | readHandler c =>
    simp only [exec] at h
    split at h
    · rename_i x _
      exact readHandler_effects hs (hl c rfl) ⟨hd rfl rfl, hh rfl⟩
        (fun bytes hx => ha bytes (by rw [hx])) h
    · cases h
  | writeHandler c => exact writeHandler_effects hs (hl c rfl) ⟨hd rfl rfl, hh rfl⟩ h
  | writeHandlerRest c => exact writeHandlerRest_effects hs (hl c rfl) ha h
  | closeCb c =>
    simp only [exec] at h
    split at h
    · rename_i ho
      exact removeConnection_effects hs ho h
    · rename_i k ho
      exact clientRemoveConnection_effects hs ho h
  | destoryedRest c => exact absurd hfit.home id
  | acceptHandle => exact acceptHandle_effects hs (hd rfl rfl) h
  | closeIdle =>
    cases h
    exact .head (.closeFd ha.1 ha.2) (Effects.done ((hr rfl).mono rfl (.refl _)))
  | reAccept => exact dropNewFd_effects (hr rfl) h
  | reOpen => exact dropNewFd_effects (hr rfl) h
  | connectorRun k => exact startRest_effects hs h
  | writeEventHandler k => exact writeEventHandler_effects hs h
  | writeEventRest k fd => exact writeEventRest_effects hs ha h

/-! ## Runs -/

/-- What a step is: a frame that is run, a failed assert, or a step of the environment. -/
theorem step_cases {a : Act} (h : step cfg s a = some s') :
    (∃ t inp f r gs s₁, a = .thread t inp ∧ s.stack t = f :: r ∧
      exec cfg t inp s f = .ok s₁ gs ∧ s' = s₁.push t (gs ++ r)) ∨
    (∃ t inp f r e, a = .thread t inp ∧ s.stack t = f :: r ∧ exec cfg t inp s f = .fail e ∧
      s' = { s with failed := some e }) ∨
    (∃ c, a = .destroy c ∧ s.alive c = true ∧ s.referenced cfg c = false ∧ s' = s.destroy c) ∨
    (∃ n, a = .openFd n ∧ s.fds n = none ∧ s' = s.openFd n .other) ∨
    ∃ n, a = .closeFd n ∧ s.fds n = some .other ∧ s' = s.closeFd n := by
  unfold step at h
  split at h
  · cases h
  · cases a with
    | thread t inp =>
      dsimp only at h
      split at h
      · cases h
      · rename_i f r hs
        split at h
        · cases h
        · rename_i e he
          cases h
          exact .inr (.inl ⟨t, inp, f, r, e, rfl, hs, he, rfl⟩)
        · rename_i s₁ gs he
          cases h
          exact .inl ⟨t, inp, f, r, gs, s₁, rfl, hs, he, rfl⟩
    | destroy c =>
      dsimp only at h
      split at h
      · rename_i hc
        cases h
        exact .inr (.inr (.inl ⟨c, rfl, hc.1, hc.2, rfl⟩))
      · cases h
    | openFd n =>
      dsimp only at h
      split at h
      · rename_i hn
        cases h
        exact .inr (.inr (.inr (.inl ⟨n, rfl, hn, rfl⟩)))
      · cases h
    | closeFd n =>
      dsimp only at h
      split at h
      · rename_i hn
        cases h
        exact .inr (.inr (.inr (.inr ⟨n, rfl, hn, rfl⟩)))
      · cases h

/-- The step of a thread that is known to be in `f`. -/
theorem step_at (hs : s.stack t = f :: r) (h : step cfg s (.thread t inp) = some s') :
    (∃ gs s₁, exec cfg t inp s f = .ok s₁ gs ∧ s' = s₁.push t (gs ++ r)) ∨
      ∃ e, exec cfg t inp s f = .fail e ∧ s' = { s with failed := some e } := by
  rcases step_cases h with ⟨t', inp', f', r', gs, s₁, ha, hs', hx, rfl⟩ |
    ⟨t', inp', f', r', e, ha, hs', hx, rfl⟩ | ⟨c', ha, -⟩ | ⟨n, ha, -⟩ | ⟨n, ha, -⟩
  all_goals cases ha
  all_goals
    rw [hs] at hs'
    cases hs'
  · exact .inl ⟨gs, s₁, hx, rfl⟩
  · exact .inr ⟨e, hx, rfl⟩

/-- **A step is a sequence of effects**, and those of a loop's thread are steps it makes. -/
theorem step_effects {a : Act} (hI : Inv cfg d s) (ha : d.Allows cfg s a)
    (h : step cfg s a = some s') :
    ∃ t, Effects cfg d t s s' ∧ ∀ l, t = .loop l → ∃ inp, a = .thread t inp := by
  rcases step_cases h with ⟨t, inp, f, r, gs, s₁, rfl, hs, he, rfl⟩ |
    ⟨t, inp, -, -, e, rfl, -, -, rfl⟩ | ⟨c, rfl, hal, hr, rfl⟩ | ⟨n, rfl, hn, rfl⟩ | ⟨n, rfl, hn, rfl⟩
  · exact ⟨t, exec_effects hI hs (ha f r hs) he, fun _ _ => ⟨inp, rfl⟩⟩
  · exact ⟨t, .single .stop, fun _ _ => ⟨inp, rfl⟩⟩
  · exact ⟨.user 0, .single (.destroy hal hr ha.1 ha.2), nofun⟩
  · exact ⟨.user 0, .single (.openFd hn (.inr rfl)), nofun⟩
  · exact ⟨.user 0, .single (.closeFd (.inl (.inl fun c hc => by rw [hn] at hc; cases hc))
      (.inl fun k hk => by rw [hn] at hk; cases hk)), nofun⟩

theorem mem_init_stack {t : Tid} {f : Frame} (h : f ∈ (Sys.init cfg).stack t) :
    f = .user none ∨ ∃ l, t = .loop l ∧ f = .loopPoll l := by
  cases t with
  | loop l =>
    simp only [Sys.init] at h
    split at h <;> simp at h
    exact h.imp_right fun h => ⟨l, rfl, h⟩
  | user u =>
    simp only [Sys.init] at h
    split at h <;> simp at h
    exact .inl h

theorem Inv.init : Inv cfg d (Sys.init cfg) where
  sound :=
    { frames := fun t f hf => by
        rcases mem_init_stack hf with rfl | ⟨l, rfl, rfl⟩
        · exact .plainUser
        · exact .loopPoll rfl
      tasks := fun _ _ h => absurd h List.not_mem_nil
      active := fun _ _ h => absurd h List.not_mem_nil
      chans := fun _ _ h => absurd rfl h
      books := fun _ => book_init
      held := nofun
      client := nofun
      wf := fun _ h => absurd h List.not_mem_nil
      pristine := fun _ _ => rfl
      pending := fun _ _ h => absurd h List.not_mem_nil
      once := fun _ => Nat.zero_le _ }
  shape :=
    { loop := fun l => by
        simp only [Sys.init]
        split
        · exact (Shaped.poll rfl).cons rfl nofun (by simp)
        · exact .none rfl
      user := fun u f hf => by
        rcases mem_init_stack hf with rfl | ⟨l, ht, -⟩
        · exact ⟨rfl, rfl⟩
        · cases ht }
  life := fun c => by
    have hst : ((Sys.init cfg).stack (.loop c.loop)).count (.closeCb c) = 0 := by
      refine List.count_eq_zero_of_not_mem fun hm => ?_
      rcases mem_init_stack hm with h | ⟨l, -, h⟩ <;> cases h
    rw [show (Sys.init cfg).ledger cfg c = ⟨false, false, 0, 0, 0, 0, 0, 0, 0⟩ from
      Ledger.ext rfl rfl rfl hst rfl rfl rfl rfl rfl]
    exact ⟨rfl, rfl, rfl, ⟨nofun, nofun⟩, nofun⟩

/-- What every effect keeps, a sequence of effects does. -/
theorem Inv.effects {I : Sys → Prop} (he : ∀ s s', Inv cfg d s → I s → Effect cfg d t s s' → I s')
    (hI : Inv cfg d s) (hi : I s) (h : Effects cfg d t s s') : Inv cfg d s' ∧ I s' := by
  induction h with
  | refl => exact ⟨hI, hi⟩
  | tail _ hlast ih => exact ⟨ih.1.effect hlast, he _ _ ih.1 ih.2 hlast⟩

/-- **The invariant rule.** What holds at the start and is kept by every effect holds in every
state reached, if the steps keep the discipline; that may be shown with the invariant. -/
theorem Inv.reach {P : Sys → Act → Prop} {I : Sys → Prop} (h0 : I (Sys.init cfg))
    (he : ∀ t s s', Inv cfg d s → I s → Effect cfg d t s s' → I s')
    (ha : ∀ s a s', Inv cfg d s → I s → P s a → step cfg s a = some s' → d.Allows cfg s a)
    (h : Runs.Reach (step cfg) P (Sys.init cfg) s) : Inv cfg d s ∧ I s := by
  refine h.inv (I := fun s => Inv cfg d s ∧ I s) ⟨.init, h0⟩ fun s a s' _ hI hP hstep => ?_
  obtain ⟨t, hes, -⟩ := step_effects hI.1 (ha s a s' hI.1 hI.2 hP hstep) hstep
  exact Inv.effects (he t) hI.1 hI.2 hes

end Liang.Net
