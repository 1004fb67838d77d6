import NetworkPoller.Net.Teardown
import NetworkPoller.Net.Proof.Owners
import NetworkPoller.Net.Proof.Producers

/-!
# What the destructors leave behind

`Sys.Clean s o`: no poller holds a channel of a connection or a connector that has been destroyed, and
no queue a functor bound to the destroyed owner `o`, to its connector or to a destroyed connection.
The destructors take the acceptor's channel out of its loop and no other, and no functor out of a
queue (`teardown_dangles`). `teardown_clean` is about the owners that are destroyed when nothing of
theirs is left (`Sys.Settled`): then the destructor of `connections_` finds nothing, and while
`~TcpServer` waits for the worker loops no other thread makes a connection of the server's.
-/

namespace Liang.Net

open EpollPoller

variable {cfg : Cfg} {d : Discipline} {s s' : Sys} {t : Tid} {c : ConnId} {k : ClientId}

/-- A poller holds the channel: in `evt_channel_list_`, or as `data.ptr` in the interest set. -/
def Sys.Holds (s : Sys) (i : ChanId) : Prop :=
  ∃ l, (∃ n, (s.pollers l).evtChannelList n = some i) ∨
    ∃ n m, (s.pollers l).interest n = some (i, m)

/-- The owner a functor is bound to by a raw pointer, itself or its connector. -/
def Task.owner? : Task → Option Owner
  | removeConnectionInLoop _ => some .server
  | connectorStart k | connectorReset k | connectorStop k => some (.client k)
  | _ => none

/-- Nothing points to what has been destroyed, `o` with it. -/
structure Sys.Clean (s : Sys) (o : Owner) : Prop where
  conns : ∀ c, s.Holds (.conn c) → s.alive c = true
  connectors : ∀ k n fd, s.Holds (.connector k n fd) → o ≠ .client k
  owner : ∀ l, ∀ x ∈ s.queue l, x.owner? ≠ some o
  tasks : ∀ l, ∀ x ∈ s.queue l, ∀ c, x.conn? = some c → s.alive c = true

/-- Nothing of the owner is left: the connections of the server have been destroyed; the client has
no connection, its connector has not been started, or is done and has dropped `channel_`, and no
`StopInLoop` is queued. -/
def Sys.Settled (cfg : Cfg) (s : Sys) : Owner → Prop
  | .server => ∀ c, c.owner = .server → s.alive c = false
  | .client k => (s.clients k).connection = none ∧ (s.clients k).channel = none ∧
      ((s.clients k).phase = .idle ∨ (s.clients k).phase = .ended) ∧
      .connectorStop k ∉ s.queue (cfg.clientLoop k)

/-! ## What a careful run holds -/

theorem Careful.alive_of_holds (h : Careful cfg s) (hc : s.Holds (.conn c)) : s.alive c = true := by
  obtain ⟨l, hl⟩ := hc
  have hst : ((s.pollers l).chan (.conn c)).status ≠ .newChannel := by
    rcases hl with ⟨n, hn⟩ | ⟨n, m, hn⟩
    · exact ((h.inv.sound.books l).listed n _ hn).2
    · rw [((h.inv.sound.books l).polled n _ m hn).2]
      nofun
  exact ((h.inv.sound.chans l _ hst).about c rfl).2.resolve_right id

theorem Careful.alive_of_task (h : Careful cfg s) {l : LoopId} {x : Task} (hx : x ∈ s.queue l)
    (hc : x.conn? = some c) : s.alive c = true := by
  rcases (h.inv.sound.tasks l x hx).about c hc with rfl | hl
  · exact (h.inv.sound.pending l c hx).2.1.resolve_right id
  · exact hl.2.resolve_right id

/-- A connector that is settled has no functor of an attempt queued and no channel registered. -/
theorem Careful.connector_of_settled (h : Careful cfg s) (hs : s.Settled cfg (.client k)) :
    (s.pursuit cfg k).tasks = [] ∧ s.NoChannel k := by
  obtain ⟨-, hch, hp, -⟩ := hs
  have hh := (h.pursuit k).holds
  rcases hp with hp | hp <;> rw [show (s.pursuit cfg k).phase = _ from hp] at hh
  · exact ⟨hh.2.2.2.1, noChannel_of h.inv.sound hh.2.2.1 hh.2.1⟩
  · refine ⟨?_, noChannel_of h.inv.sound hh.2.2.1 hh.2.1⟩
    rcases hh.2.2.2 with ⟨ht, -⟩ | ⟨-, hne⟩
    · exact ht
    · exact absurd hch hne

theorem Careful.clean {o : Owner} (h : Careful cfg s) (hs : s.Settled cfg o) : s.Clean o where
  conns _ hc := h.alive_of_holds hc
  connectors k n fd := by
    rintro ⟨l, hl⟩ rfl
    refine (h.connector_of_settled hs).2 n fd ⟨l, ?_⟩
    rcases hl with hl | hl
    · exact .inl hl
    · exact .inr (.inl hl)
  owner l x hx ho := by
    have hhome := (h.inv.sound.tasks l x hx).home
    cases x with
    | removeConnectionInLoop c =>
      cases ho
      have hal := h.alive_of_task hx rfl
      rw [hs c hhome.2] at hal
      cases hal
    | connectorStart k | connectorReset k =>
      cases ho
      obtain rfl : l = cfg.clientLoop k := hhome
      have hm := List.filter_eq_nil_iff.1 (h.connector_of_settled hs).1 _ hx
      simp [Task.isConnector] at hm
    | connectorStop k =>
      cases ho
      obtain rfl : l = cfg.clientLoop k := hhome
      exact hs.2.2.2 hx
    | _ => cases ho
  tasks _ _ hx _ hc := h.alive_of_task hx hc

/-! ## The destructors -/

/-- A new poller for a loop, with the acceptor's channel changed only. -/
theorem Careful.setAcceptor (h : Careful cfg s) {p : EpollPoller ChanId}
    (hb : p.Book (ChanId.fd cfg))
    (hp : ∀ i, i ≠ .acceptor → p.chan i = (s.pollers cfg.serverLoop).chan i) :
    Careful cfg (s.setPoller cfg.serverLoop p) := by
  have hchan : ∀ c, (s.setPoller cfg.serverLoop p).chan c = s.chan c := fun c => by
    unfold Sys.chan
    by_cases hl : c.loop = cfg.serverLoop
    · rw [hl, Sys.setPoller_self, hp (.conn c) nofun]
    · rw [Sys.setPoller_of_ne _ hl]
  have hcell : ∀ c, (s.setPoller cfg.serverLoop p).cell c = s.cell c := fun c =>
    cell_congr rfl (by rw [hchan]) (by rw [hchan]) rfl
  refine
    { inv := ⟨h.inv.sound.setPoller hb fun i hi => ?_, ⟨h.inv.shape.loop, h.inv.shape.user⟩, h.inv.life⟩
      table := ⟨h.table.opened, h.table.entry, h.table.listed, h.table.sole, h.table.born⟩
      owned := h.owned.same (fun _ => id) rfl (fun _ => id) rfl rfl
      quiet := fun c => hcell c ▸ h.quiet c
      gone := fun c hd => ?_
      pursuit := fun k => ?_ }
  · by_cases hia : i = .acceptor
    · rw [hia]
      exact .inr ⟨rfl, nofun⟩
    · rw [hp i hia] at hi
      exact .inl hi
  · have hoff := h.gone c hd
    exact ⟨by rw [hchan]; exact hoff.chan, hoff.active, hoff.handlers⟩
  · have hpur : (s.setPoller cfg.serverLoop p).pursuit cfg k = s.pursuit cfg k :=
      Pursuit.ext rfl rfl rfl rfl rfl rfl (funext fun n => funext fun fd => by
        simp only [Sys.pursuit, chans_setPoller (i := .acceptor) rfl hp])
    rw [hpur]
    exact h.pursuit k

theorem Careful.closeFd (h : Careful cfg s) {n : Fd} (hc : ∀ c, s.fds n ≠ some (.conn c))
    (hk : ∀ k, s.fds n ≠ some (.connector k)) : Careful cfg (s.closeFd n) :=
  h.effect (t := .user 0) (.closeFd (.inl (.inl hc)) (.inl hk))

/-- The number is no connection's and no connector's. -/
def Sys.Spare (s : Sys) (n : Fd) : Prop :=
  match s.fds n with
  | some (.conn _) | some (.connector _) => False
  | _ => True

instance (n : Fd) : Decidable (s.Spare n) := by
  unfold Sys.Spare
  split <;> infer_instance

theorem Sys.Spare.ne {n : Fd} (h : s.Spare n) :
    (∀ c, s.fds n ≠ some (.conn c)) ∧ ∀ k, s.fds n ≠ some (.connector k) := by
  constructor <;> (intro _ hn; simp only [Sys.Spare, hn] at h)

theorem Sys.Spare.closeFd {n m : Fd} (h : s.Spare n) : (s.closeFd m).Spare n := by
  by_cases hn : n = m
  · simp [Sys.Spare, Sys.closeFd, hn]
  · simpa [Sys.Spare, Sys.closeFd, Function.update_of_ne hn] using h

theorem TcpAcceptor.dtor_ok (h : TcpAcceptor.dtor cfg t s = .ok s') :
    ∃ p p', (s.pollers cfg.serverLoop).disableAll (ChanId.fd cfg) .acceptor = .ok p ∧
      ((s.setPoller cfg.serverLoop p).pollers cfg.serverLoop).removeEventChannel (ChanId.fd cfg)
        .acceptor = .ok p' ∧
      s' = ((((s.setPoller cfg.serverLoop p).setPoller cfg.serverLoop p').closeFd
        cfg.idleFd).closeFd cfg.listenFd) := by
  simp only [TcpAcceptor.dtor, bind, Except.bind] at h
  split at h
  · cases h
  · rename_i s₁ h₁
    split at h
    · cases h
    · rename_i s₂ h₂
      cases h
      obtain ⟨-, p, ho, rfl⟩ := channelOp_ok h₁
      obtain ⟨-, p', hp', rfl⟩ := removeFromLoop_ok h₂
      exact ⟨p, p', ho, hp', rfl⟩

/-- `~TcpAcceptor` changes pollers and descriptors only. -/
theorem TcpAcceptor.dtor_spec (h : Careful cfg s) (hi : s.Spare cfg.idleFd)
    (hl : s.Spare cfg.listenFd) (hd : TcpAcceptor.dtor cfg t s = .ok s') :
    Careful cfg s' ∧ s'.alive = s.alive := by
  obtain ⟨p, p', ho, hp', rfl⟩ := TcpAcceptor.dtor_ok hd
  have hC₁ := h.setAcceptor (setEvents_book (h.inv.sound.books _) ho) (setEvents_chan ho).2.2
  have hC₂ := hC₁.setAcceptor (removeEventChannel_book (hC₁.inv.sound.books _) hp').1
    (removeEventChannel_chan hp').2.2
  have hC₃ := hC₂.closeFd (n := cfg.idleFd) hi.ne.1 hi.ne.2
  have hl' := hl.closeFd (m := cfg.idleFd)
  exact ⟨hC₃.closeFd hl'.ne.1 hl'.ne.2, rfl⟩

/-- Without connections of the server there is nothing in `connections_`. -/
theorem TcpServer.dropConnections_eq (h : Careful cfg s) (hs : s.Settled cfg .server) :
    TcpServer.dropConnections cfg s = s := by
  have hnone : s.connections = fun _ => none := funext fun n => by
    cases hn : s.connections n with
    | none => rfl
    | some c =>
      obtain ⟨-, hal, ho, -⟩ := h.table.entry n c hn
      rw [hs c ho] at hal
      cases hal
  have heta : s = { s with connections := fun _ => none } := by rw [← hnone]
  rw [heta]
  simp [TcpServer.dropConnections]

theorem TcpClient.dtor_eq (hs : s.Settled cfg (.client k)) : TcpClient.dtor cfg k s = s := by
  obtain ⟨hcon, hch, -⟩ := hs
  have hx : { s.clients k with connection := none, channel := none } = s.clients k := by
    rw [← hcon, ← hch]
  simp [TcpClient.dtor, hcon, Sys.updClient, hx]

/-! ## While the destructor waits -/

/-- The server's connections are made by its own thread. -/
theorem Effect.settled (he : Effect cfg d t s s') (ht : t ≠ .loop cfg.serverLoop)
    (h : s.Settled cfg .server) : s'.Settled cfg .server := by
  intro c ho
  cases he with
  | accept hc hf ht' => exact absurd ht' ht
  | @newConnection k r c' p hs hc =>
    have hne : c ≠ c' := by
      rintro rfl
      rw [hc] at ho
      cases ho
    exact (Function.update_of_ne hne ..).trans (h c ho)
  | @destroy c' =>
    show Function.update s.alive c' false c = false
    by_cases hcc : c = c'
    · rw [hcc, Function.update_self]
    · rw [Function.update_of_ne hcc, h c ho]
  | attempt hs | attemptFailed hs =>
    cases hs with
    | frame | task => exact h c ho
  | _ => exact h c ho

theorem Effects.settled (he : Effects cfg d t s s') (ht : t ≠ .loop cfg.serverLoop)
    (h : s.Settled cfg .server) : s'.Settled cfg .server := by
  induction he with
  | refl => exact h
  | tail _ he ih => exact he.settled ht ih

/-! ## Runs -/

/-- The owner that is being destroyed, or has been. -/
def TeardownPc.owner? : TeardownPc → Option Owner
  | live => none
  | acceptor | pool _ => some .server
  | done o => some o

/-- The thread of the server's loop is in the destructor. -/
theorem TeardownPc.not_allows {pc : TeardownPc} {o : Owner} {inp : Input} (h : pc.owner? = some o) :
    pc.allows cfg (.thread (.loop cfg.serverLoop) inp) = false := by
  cases pc with
  | live => cases h
  | acceptor | pool => simp [allows]
  | done => rfl

namespace Teardown

variable {x x' : Teardown}

/-- `KeepsNumbers` for the steps of the program and for `~TcpAcceptor`, and the owner is destroyed
when nothing of it is left. -/
def Orderly (cfg : Cfg) (x : Teardown) : TeardownAct → Prop
  | .run a => KeepsNumbers cfg x.sys a
  | .delete o => x.sys.Settled cfg o
  | .next => x.pc = .acceptor → x.sys.Spare cfg.idleFd ∧ x.sys.Spare cfg.listenFd

structure Ok (cfg : Cfg) (x : Teardown) : Prop where
  careful : Careful cfg x.sys
  settled : ∀ o, x.pc.owner? = some o → x.sys.Settled cfg o

theorem Ok.run {a : Act} (h : x.Ok cfg) (hp : KeepsNumbers cfg x.sys a)
    (ha : x.pc.allows cfg a = true) (hs : Net.step cfg x.sys a = some s') :
    Ok cfg { x with sys := s' } := by
  refine ⟨h.careful.step hp hs, fun o ho => ?_⟩
  obtain ⟨t, hes, ht⟩ := step_effects h.careful.inv (hp.allows h.careful hs) hs
  have hne : t ≠ .loop cfg.serverLoop := by
    rintro rfl
    obtain ⟨inp, rfl⟩ := ht _ rfl
    rw [TeardownPc.not_allows ho] at ha
    cases ha
  cases hpc : x.pc with
  | live =>
    rw [hpc] at ho
    cases ho
  | acceptor | pool =>
    obtain rfl : .server = o := by simpa [hpc, TeardownPc.owner?] using ho
    exact hes.settled hne (h.settled _ ho)
  | done =>
    rw [hpc] at ha
    cases ha

theorem Ok.delete {o : Owner} (h : x.Ok cfg) (hp : x.sys.Settled cfg o)
    (hs : step cfg x (.delete o) = some x') : x'.Ok cfg := by
  unfold step at hs
  split at hs
  · cases hs
  · dsimp only at hs
    split at hs
    · cases o with
      | server =>
        cases hs
        rw [TcpServer.dropConnections_eq h.careful hp]
        exact ⟨h.careful, fun o ho => by cases ho; exact hp⟩
      | client k =>
        cases hs
        rw [TcpClient.dtor_eq hp]
        exact ⟨h.careful, fun o ho => by cases ho; exact hp⟩
    · cases hs

theorem Ok.next (h : x.Ok cfg) (hp : Orderly cfg x .next) (hs : step cfg x .next = some x') :
    x'.Ok cfg := by
  unfold step at hs
  split at hs
  · cases hs
  · dsimp only at hs
    split at hs
    · rename_i hpc
      have hset : x.sys.Settled cfg .server := h.settled _ (by rw [hpc]; rfl)
      split at hs
      · rename_i s hd
        cases hs
        obtain ⟨hC, hal⟩ := TcpAcceptor.dtor_spec h.careful (hp hpc).1 (hp hpc).2 hd
        refine ⟨hC, fun o ho => ?_⟩
        cases ho
        exact fun c hc => by rw [hal]; exact hset c hc
      · cases hs
        exact ⟨h.careful.effect (t := .user 0) .stop, fun o ho => h.settled o ho⟩
    · rename_i hpc
      cases hs
      exact ⟨h.careful, fun o ho => h.settled o (by rw [hpc]; exact ho)⟩
    · rename_i l ls hpc
      split at hs
      · cases hs
        exact ⟨h.careful, fun o ho => h.settled o (by rw [hpc]; exact ho)⟩
      · cases hs
    · cases hs

theorem ok_reach (h : Runs.Reach (step cfg) (Orderly cfg) (init cfg) x) : x.Ok cfg := by
  refine h.inv ⟨.init, fun _ ho => by cases ho⟩ fun x a x' _ hO hp hs => ?_
  cases a with
  | run a =>
    unfold step at hs
    split at hs
    · cases hs
    · dsimp only at hs
      split at hs
      · rename_i ha
        obtain ⟨s', hs', rfl⟩ := Option.map_eq_some_iff.1 hs
        exact hO.run hp ha hs'
      · cases hs
  | delete o => exact hO.delete hp hs
  | next => exact hO.next hp hs

end Teardown

/-- **The destructor of an owner leaves nothing dangling**, in a run in which it is called when
nothing of the owner is left and in which `TcpAcceptor` closes no number that is a connection's or a
connector's. -/
theorem teardown_clean {x : Teardown} {o : Owner}
    (h : Runs.Reach (Teardown.step cfg) (Teardown.Orderly cfg) (Teardown.init cfg) x)
    (hd : x.pc = .done o) : x.sys.Clean o := by
  have hO := Teardown.ok_reach h
  exact hO.careful.clean (hO.settled o (by rw [hd]; rfl))

/-- `Orderly`, for a server that has accepted nothing. -/
def Teardown.Unused (cfg : Cfg) (x : Teardown) : TeardownAct → Prop
  | .delete .server => x.sys.nextSerial = 0
  | a => x.Orderly cfg a

instance (x : Teardown) (a : TeardownAct) : Decidable (x.Unused cfg a) :=
  match a with
  | .run a => inferInstanceAs (Decidable (KeepsNumbers cfg x.sys a))
  | .delete .server => inferInstanceAs (Decidable (x.sys.nextSerial = 0))
  | .delete (.client _) => inferInstanceAs (Decidable (_ ∧ _ ∧ _ ∧ _))
  | .next => inferInstanceAs (Decidable (_ → _))

theorem Teardown.Unused.reach {x : Teardown}
    (h : Runs.Reach (Teardown.step cfg) (Teardown.Unused cfg) (Teardown.init cfg) x) :
    Runs.Reach (Teardown.step cfg) (Teardown.Orderly cfg) (Teardown.init cfg) x := by
  induction h with
  | init => exact .init
  | @snoc x x' a _ hp hs ih =>
    refine .snoc ih ?_ hs
    match a, hp with
    | .delete .server, hp =>
      intro c _
      by_contra hal
      have hlt := ((Teardown.ok_reach ih).careful.table.born c (by simpa using hal)).1
      rw [show x.sys.nextSerial = 0 from hp] at hlt
      exact Nat.not_lt_zero _ hlt
    | .delete (.client k), hp => exact hp
    | .run a, hp => exact hp
    | .next, hp => exact hp

/-- User code on the thread of loop `0`, by a functor that another thread queues. -/
def userOnLoop : List Act :=
  callActs [.call (.queueInLoop 0), .none, .none] ++ loopActs [.poll [], .none, .none]

/-- A server with one worker loop is started and destroyed. -/
def serverRun : List TeardownAct :=
  (loopActs [.call .start, .cas false, .none, .ret, .poll [], .none, .none, .none] ++
    [Act.thread (.loop 1) .ret] ++ userOnLoop).map .run ++ [.delete .server, .next, .next, .next]

/-- Another thread calls `Stop`. -/
def stopCall : List Act := callActs [.call (.stop 0), .none, .none]

/-- A client connects and is stopped, its peer closes the connection, and it is destroyed. -/
def clientRun : List TeardownAct :=
  (sampleConnect ++ stopCall ++
    loopActs [
      -- the status callback returns, `ResetChannelPtr` runs
      .ret, .none, .none, .none,
      .poll [(5, pollIn)], .none, .none, .read (.data []), .ret, .none,
      -- `StopInLoop` runs, and in the next round `ConnectDestoryed`
      .none, .none, .none,
      .poll [], .none, .none, .none] ++
    userOnLoop).map .run ++ [.delete (.client 0)]

theorem teardown_clean_sample :
    (∃ x, Runs.run (Teardown.step .sampleWorker) (Teardown.init .sampleWorker) serverRun = some x ∧
      x.pc = .done .server ∧ x.sys.Clean .server) ∧
    ∃ x, Runs.run (Teardown.step .sample) (Teardown.init .sample) clientRun = some x ∧
      x.pc = .done (.client 0) ∧ x.sys.Clean (.client 0) := by
  constructor
  · have hrun : (Runs.run (Teardown.step .sampleWorker) (Teardown.init .sampleWorker)
        serverRun).map (·.pc) = some (.done .server) := by decide +kernel
    obtain ⟨x, hx, hpc, hr⟩ :=
      Runs.Reach.of_map _ hrun (P := Teardown.Unused .sampleWorker) (by decide +kernel)
    exact ⟨x, hx, hpc, teardown_clean (Teardown.Unused.reach hr) hpc⟩
  · have hrun : (Runs.run (Teardown.step .sample) (Teardown.init .sample) clientRun).map (·.pc) =
        some (.done (.client 0)) := by decide +kernel
    obtain ⟨x, hx, hpc, hr⟩ :=
      Runs.Reach.of_map _ hrun (P := Teardown.Unused .sample) (by decide +kernel)
    exact ⟨x, hx, hpc, teardown_clean (Teardown.Unused.reach hr) hpc⟩

/-- A server is destroyed with a connection that `connections_` alone holds. -/
def liveConnRun : List TeardownAct :=
  (loopActs [
      .call .start, .cas false, .none, .ret, .poll [], .none, .none, .none,
      .poll [(3, pollIn)], .none, .none, .fd (.ok 5), .fd (.error eAgain), .none, .none, .ret, .none] ++
    userOnLoop).map .run ++ [.delete .server, .next, .next]

/-- A client is destroyed while its connector waits for the socket. -/
def attemptRun : List TeardownAct :=
  (loopActs [.call (.connect 0), .cas false, .connect (some 5) (some eInProgress) 0, .ret,
      .poll [], .none, .none] ++
    userOnLoop).map .run ++ [.delete (.client 0)]

/-- A client whose attempt has failed is stopped, and destroyed before `StopInLoop` runs. -/
def stoppedRun : List TeardownAct :=
  (loopActs [.call (.connect 0), .cas false, .connect none (some eBadf) 0, .ret] ++
    callActs [.call (.queueInLoop 0), .none, .none] ++ stopCall ++
    loopActs [.poll [], .none, .none]).map .run ++ [.delete (.client 0)]

/-- The connection is destroyed, and so is the connector; the loop's poller still holds their channels,
and its queue the `StopInLoop` of the connector. -/
theorem teardown_dangles :
    (∃ x, Runs.run (Teardown.step .sample) (Teardown.init .sample) liveConnRun = some x ∧
      x.pc = .done .server ∧ x.sys.alive sampleConn = false ∧
      (x.sys.pollers 0).evtChannelList 5 = some (.conn sampleConn) ∧ ¬ x.sys.Clean .server) ∧
    (∃ x, Runs.run (Teardown.step .sample) (Teardown.init .sample) attemptRun = some x ∧
      x.pc = .done (.client 0) ∧
      (x.sys.pollers 0).evtChannelList 5 = some (.connector 0 0 5) ∧ ¬ x.sys.Clean (.client 0)) ∧
    ∃ x, Runs.run (Teardown.step .sample) (Teardown.init .sample) stoppedRun = some x ∧
      x.pc = .done (.client 0) ∧ x.sys.queue 0 = [.connectorStop 0] ∧ ¬ x.sys.Clean (.client 0) := by
  refine ⟨?_, ?_, ?_⟩
  · have hrun : (Runs.run (Teardown.step .sample) (Teardown.init .sample) liveConnRun).map
        (fun x => (x.pc, x.sys.alive sampleConn, (x.sys.pollers 0).evtChannelList 5)) =
        some (.done .server, false, some (.conn sampleConn)) := by decide +kernel
    obtain ⟨x, hx, hv⟩ := Option.map_eq_some_iff.1 hrun
    simp only [Prod.mk.injEq] at hv
    obtain ⟨hpc, hal, hl⟩ := hv
    refine ⟨x, hx, hpc, hal, hl, fun hC => ?_⟩
    have := hC.conns sampleConn ⟨0, .inl ⟨5, hl⟩⟩
    rw [hal] at this
    cases this
  · have hrun : (Runs.run (Teardown.step .sample) (Teardown.init .sample) attemptRun).map
        (fun x => (x.pc, (x.sys.pollers 0).evtChannelList 5)) =
        some (.done (.client 0), some (.connector 0 0 5)) := by decide +kernel
    obtain ⟨x, hx, hv⟩ := Option.map_eq_some_iff.1 hrun
    simp only [Prod.mk.injEq] at hv
    obtain ⟨hpc, hl⟩ := hv
    exact ⟨x, hx, hpc, hl, fun hC => hC.connectors 0 0 5 ⟨0, .inl ⟨5, hl⟩⟩ rfl⟩
  · have hrun : (Runs.run (Teardown.step .sample) (Teardown.init .sample) stoppedRun).map
        (fun x => (x.pc, x.sys.queue 0)) = some (.done (.client 0), [.connectorStop 0]) := by
      decide +kernel
    obtain ⟨x, hx, hv⟩ := Option.map_eq_some_iff.1 hrun
    simp only [Prod.mk.injEq] at hv
    obtain ⟨hpc, hq⟩ := hv
    exact ⟨x, hx, hpc, hq, fun hC => hC.owner 0 _ (by rw [hq]; exact List.mem_singleton_self _) rfl⟩

end Liang.Net
