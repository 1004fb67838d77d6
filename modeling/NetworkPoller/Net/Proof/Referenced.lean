import NetworkPoller.Net.Proof.Minor
import NetworkPoller.Net.Proof.Owners
import NetworkPoller.Net.Proof.Producers
import NetworkPoller.Net.Proof.Release

/-!
# What is referenced exists

A `shared_ptr` to a connection is held by a queued functor, by a function that runs or a callback, by
user code, or as `connection_` of a client. A function makes a new one from the connection it works on
(`exec_refs`). So what is referred to exists (`Referenced`) as long as the handlers of a channel do,
which run on a raw `this`: a removal that is pending keeps its connection, and with it the number of
its descriptor, until `ConnectDestoryed` has run. That is what `connections_` rests on: `table_exact`.
-/

namespace Liang.Net

open Base TcpConnection

variable {cfg : Cfg} {d : Discipline} {s s' s₁ s₂ : Sys} {t : Tid} {c : ConnId} {l : LoopId}
  {inp : Input} {f : Frame} {r gs : List Frame} {a : Act}

/-! ## New references -/

/-- Nothing is destroyed, and a new reference is to a connection that exists. -/
structure Sys.Refs (s s' : Sys) : Prop where
  alive : ∀ c, s.alive c = true → s'.alive c = true
  queue : ∀ l, ∀ k ∈ s'.queue l, k ∈ s.queue l ∨ ∀ c, k.conn? = some c → s'.alive c = true
  held : ∀ c, s'.held c = true → s.held c = true ∨ s'.alive c = true
  client : ∀ k c, (s'.clients k).connection = some c →
    (s.clients k).connection = some c ∨ s'.alive c = true

/-- What the frames hold exists. -/
def Sys.Backs (s : Sys) (gs : List Frame) : Prop := ∀ g ∈ gs, ∀ c, g.conn? = some c → s.alive c = true

theorem Sys.Backs.of (hal : s.alive c = true) (h : ∀ g ∈ gs, g.conn? = none ∨ g.conn? = some c) :
    s.Backs gs := fun g hg c' hc => by
  rcases h g hg with hn | hn <;> rw [hn] at hc <;> cases hc
  exact hal

theorem Sys.Backs.none (h : ∀ g ∈ gs, g.conn? = none) : s.Backs gs := fun g hg c hc => by
  rw [h g hg] at hc
  cases hc

theorem Sys.Backs.nil : s.Backs [] := .none nofun

theorem Sys.Backs.status (hal : s.alive c = true) : s.Backs (statusFrames c s₁) :=
  .of hal fun g hg => .inr (by rw [mem_statusFrames hg]; rfl)

theorem Sys.Backs.append {gs' : List Frame} (h : s.Backs gs) (h' : s.Backs gs') :
    s.Backs (gs ++ gs') := fun g hg => (List.mem_append.1 hg).elim (h g) (h' g)

namespace Sys.Refs

theorem of_rfl (ha : s'.alive = s.alive) (hq : s'.queue = s.queue) (hh : s'.held = s.held)
    (hc : s'.clients = s.clients) : s.Refs s' where
  alive _ h := ha ▸ h
  queue _ _ h := .inl (hq ▸ h)
  held _ h := .inl (hh ▸ h)
  client _ _ h := .inl (hc ▸ h)

theorem refl (s : Sys) : s.Refs s := .of_rfl rfl rfl rfl rfl

theorem trans (h : s.Refs s₁) (h' : s₁.Refs s₂) : s.Refs s₂ where
  alive c hc := h'.alive c (h.alive c hc)
  queue l k hk := (h'.queue l k hk).elim
    (fun hk => (h.queue l k hk).imp_right fun hc c hkc => h'.alive c (hc c hkc)) .inr
  held c hc := (h'.held c hc).elim (fun hc => (h.held c hc).imp_right (h'.alive c)) .inr
  client k c hc := (h'.client k c hc).elim (fun hc => (h.client k c hc).imp_right (h'.alive c)) .inr

theorem updConn {g : Conn → Conn} : s.Refs (s.updConn c g) := .of_rfl rfl rfl rfl rfl

theorem note {es : List ConnEv} : s.Refs (s.note c es) := .updConn

theorem setPoller {p : EpollPoller ChanId} : s.Refs (s.setPoller l p) := .of_rfl rfl rfl rfl rfl

theorem establish {p : EpollPoller ChanId} : s.Refs (s.establish c p) := .of_rfl rfl rfl rfl rfl

theorem queueInLoop {k : Task} (h : ∀ c, k.conn? = some c → s.alive c = true) :
    s.Refs (s.queueInLoop t l k) where
  alive _ hc := hc
  queue l' k' hk := by
    have hk : k' ∈ Function.update s.queue l (s.queue l ++ [k]) l' := hk
    rcases mem_appended hk with hk | rfl
    · exact .inl hk
    · exact .inr h
  held _ := .inl
  client _ _ := .inl

theorem queueInLoop_conn {k : Task} (hk : k.conn? = some c) (hal : s.alive c = true) :
    s.Refs (s.queueInLoop t l k) := .queueInLoop fun c' hc => by
  cases hk.symm.trans hc
  exact hal

theorem dequeue {k : Task} {ks : List Task} (hq : s.queue l = k :: ks) : s.Refs (s.dequeue t l k ks) where
  alive _ hc := hc
  queue _ _ hk := .inl (mem_taken hq hk)
  held _ := .inl
  client _ _ := .inl

/-- `connection_` is kept, dropped, or set to what exists. -/
theorem updClient {k : ClientId} {g : Client → Client}
    (h : ∀ c, (g (s.clients k)).connection = some c →
      (s.clients k).connection = some c ∨ s.alive c = true) : s.Refs (s.updClient k g) where
  alive _ hc := hc
  queue _ _ := .inl
  held _ := .inl
  client k' c hc := by
    by_cases hk : k' = k
    · subst hk
      rw [Sys.updClient_self] at hc
      exact h c hc
    · rw [Sys.updClient_of_ne _ hk] at hc
      exact .inl hc

theorem hold {b : Bool} (hal : s.alive c = true) :
    s.Refs { s with held := Function.update s.held c b } where
  alive _ hc := hc
  queue _ _ := .inl
  held c' hc := by
    by_cases hcc : c' = c
    · exact .inr (hcc ▸ hal)
    · exact .inl ((Function.update_of_ne hcc ..).symm.trans hc)
  client _ _ := .inl

theorem create {x : Conn} : s.Refs (s.create c x) where
  alive c' hc := by
    show Function.update s.alive c true c' = true
    by_cases hcc : c' = c
    · rw [hcc, Function.update_self]
    · rwa [Function.update_of_ne hcc]
  queue _ _ := .inl
  held _ := .inl
  client _ _ := .inl

end Sys.Refs

/-- The function makes references to connections that exist only. -/
def Res.Refs (s : Sys) (x : Res) : Prop := ∀ s' gs, x = .ok s' gs → s.Refs s' ∧ s'.Backs gs

namespace Res.Refs

variable {x : Res}

theorem ok (h : s.Refs s') (hg : s'.Backs gs) : (Res.ok s' gs).Refs s := fun _ _ he => by
  cases he
  exact ⟨h, hg⟩

/-- No frame is left. -/
theorem done (h : s.Refs s') : (Res.ok s' []).Refs s := .ok h .nil

theorem disabled : Res.disabled.Refs s := fun _ _ he => by cases he

theorem assert {p : Prop} [Decidable p] {e : Assert} (h : x.Refs s) : (Res.assert p e x).Refs s :=
  fun _ _ he => h _ _ (Res.assert_ok he).2

theorem ite {p : Prop} [Decidable p] {y : Res} (hx : x.Refs s) (hy : y.Refs s) :
    (if p then x else y).Refs s := by
  split
  · exact hx
  · exact hy

theorem after (h : s.Refs s₁) (hx : x.Refs s₁) : x.Refs s := fun _ _ he =>
  ⟨h.trans (hx _ _ he).1, (hx _ _ he).2⟩

theorem channelOp {op : EpollPoller ChanId → Except PollerAssert (EpollPoller ChanId)} {k : Sys → Res}
    (h : ∀ p, (k (s₁.setPoller l p)).Refs s) : (Res.bind (s₁.channelOp t l op) k).Refs s :=
  fun _ _ he => by
    obtain ⟨s₂, h1, he⟩ := Res.bind_ok he
    obtain ⟨-, p, -, rfl⟩ := channelOp_ok h1
    exact h p _ _ he

theorem removeFromLoop {i : ChanId} {k : Sys → Res} (h : ∀ l p, (k (s₁.setPoller l p)).Refs s) :
    (Res.bind (s₁.removeFromLoop cfg t i) k).Refs s := fun _ _ he => by
  obtain ⟨s₂, h1, he⟩ := Res.bind_ok he
  obtain ⟨-, p, -, rfl⟩ := removeFromLoop_ok h1
  exact h _ p _ _ he

theorem followedBy (hx : x.Refs s) (hg : s.Backs gs) : (x.followedBy gs).Refs s := fun _ _ he => by
  obtain ⟨gs', he', rfl⟩ := Res.followedBy_ok he
  obtain ⟨h, hg'⟩ := hx _ _ he'
  exact ⟨h, hg'.append fun g hm c hc => h.alive c (hg g hm c hc)⟩

end Res.Refs

/-! ## Connections -/

section

variable (hal : s.alive c = true)

include hal

theorem closeHandler_refs : (closeHandler cfg t c s).Refs s := fun _ _ he => by
  obtain ⟨-, p, -, rfl, rfl⟩ := closeHandler_ok he
  exact ⟨.of_rfl rfl rfl rfl rfl, .append (.status hal) (.of hal (by simp [Frame.conn?]))⟩

theorem connectEstablished_refs : (connectEstablished cfg t c s).Refs s := fun _ _ he => by
  obtain ⟨-, p, -, rfl, rfl⟩ := connectEstablished_ok he
  exact ⟨.of_rfl rfl rfl rfl rfl, .status hal⟩

theorem connectDestoryed_refs : (connectDestoryed cfg t c s).Refs s := by
  refine .assert (.ite (.channelOp fun p => .ok ?_ ?_) (.removeFromLoop fun _ _ => .done ?_))
  · exact .of_rfl rfl rfl rfl rfl
  · exact .append (.status hal) (.none (by simp [Frame.conn?]))
  · exact .of_rfl rfl rfl rfl rfl

theorem writeHandler_refs : (writeHandler cfg t c inp s).Refs s := by
  refine .assert (.ite ?_ (.done (.refl s)))
  split
  · refine .ite (.ite (.ite (.channelOp fun p => ?_) (.done .updConn)) (.done (.refl s))) .disabled
    refine .ok (.trans .updConn .setPoller) (.of hal fun g hg => ?_)
    rcases List.mem_append.1 hg with hg | hg
    · split at hg
      · exact .inr (by rw [List.mem_singleton.1 hg]; rfl)
      · cases hg
    · exact .inl (by rw [List.mem_singleton.1 hg]; rfl)
  · exact .done (.refl s)
  · exact .disabled

theorem forceCloseInLoop_refs : (forceCloseInLoop cfg t c s).Refs s :=
  .assert (.ite (closeHandler_refs hal) (.done (.refl s)))

theorem sendInLoop_refs {T : Tid} {m : Msg} : (sendInLoop cfg t c T m inp s).Refs s :=
  fun s' gs he => by
    rcases sendInLoop_ok he with ⟨rfl, s₁, x', ha, -, hq⟩ | ⟨-, hcl⟩
    · have harm : s.Refs s₁ ∧ s₁.alive c = true := by
        cases ha with
        | already => exact ⟨.refl s, hal⟩
        | armed => exact ⟨.setPoller, hal⟩
      have hupd : s₁.Refs (s₁.updConn c fun _ => x') := .updConn
      refine ⟨(harm.1.trans hupd).trans ?_, .nil⟩
      cases hq with
      | nothing => exact .refl _
      | written | highWater => exact .queueInLoop_conn rfl harm.2
    · exact Res.Refs.after .updConn (closeHandler_refs hal) _ _ hcl

theorem send_refs {m : Msg} : (send cfg t c m inp s).Refs s := by
  have hsent : s.Refs (s.updConn c fun x => { x with sent := x.sent ++ [(t, m)] }) := .updConn
  exact .ite (.after hsent (sendInLoop_refs (s := s.updConn c _) hal))
    (.done (hsent.trans (.queueInLoop_conn rfl hal)))

theorem shutdown_refs : (shutdown t c inp s).Refs s := by
  unfold shutdown
  split
  · exact .ite (.ok .updConn (.of hal (by simp [Frame.conn?, Task.conn?]))) (.done (.refl s))
  · exact .disabled

theorem forceClose_refs : (forceClose c inp s).Refs s := by
  unfold forceClose
  split
  · exact .ite (.ok .updConn (.of hal (by simp [Frame.conn?, Task.conn?])))
      (.ok (.refl s) (.of hal (by simp [Frame.conn?])))
  · exact .disabled

theorem forceCloseAgain_refs : (forceCloseAgain c inp s).Refs s := by
  unfold forceCloseAgain
  split
  · exact .ite (.ok (.refl s) (.of hal (by simp [Frame.conn?, Task.conn?]))) (.done (.refl s))
  · exact .disabled

theorem readHandler_refs {rd : ReadRes} : (readHandler cfg t c rd s).Refs s := by
  have hread : s.Refs (s.updConn c fun x => { x with readBuffer := (x.readBuffer.readFromFD rd).1 }) :=
    .updConn
  refine .after hread (.assert (.ite (.ite (.ite ?_ ?_) (.ite ?_ (.ite ?_ ?_))) .disabled))
  · exact .ok .updConn (.of hal (by simp [Frame.conn?]))
  · exact closeHandler_refs hal
  · exact closeHandler_refs hal
  · exact .done (.refl _)
  · exact .ok (.refl _) (.none (by simp [Frame.conn?]))

theorem removeConnectionInLoop_refs : (TcpServer.removeConnectionInLoop cfg t c s).Refs s := by
  have hnote : s.Refs (Sys.note { s with connections := Function.update s.connections c.fd none } c
      [.destroyQueued]) := .of_rfl rfl rfl rfl rfl
  exact .assert (.done (hnote.trans (.queueInLoop_conn rfl hal)))

theorem removeConnection_refs : (TcpServer.removeConnection cfg t c s).Refs s :=
  .ite (removeConnectionInLoop_refs hal) (.done (.queueInLoop_conn rfl hal))

theorem clientRemoveConnection_refs {k : ClientId} : (TcpClient.removeConnection cfg t k c s).Refs s := by
  have hdrop : s.Refs (s.updClient k fun x => { x with connection := none }) :=
    .updClient fun _ hc => by cases hc
  exact .assert (.assert (.done (hdrop.trans (.trans .updConn (.queueInLoop_conn rfl hal)))))

end

theorem shutdownInLoop_refs : (shutdownInLoop t c s).Refs s :=
  .assert (.ite (.done (.refl s)) (.done .updConn))

/-! ## The server, the acceptor and the clients -/

theorem acceptHandle_refs : (TcpAcceptor.acceptHandle cfg t inp s).Refs s := by
  refine .assert ?_
  split
  · rename_i n
    refine .ite (.followedBy (.assert (.done ?_)) (.none (by simp [Frame.conn?]))) .disabled
    let c : ConnId := ⟨s.nextSerial, n, TcpServer.getEventLoopFromPoolForHash cfg n, .server⟩
    let s₁ := s.create c (TcpServer.newConn cfg)
    have hcreate : s.Refs s₁ := .create
    have hlist : s₁.Refs { s₁ with connections := Function.update s.connections n (some c) } :=
      .of_rfl rfl rfl rfl rfl
    exact (hcreate.trans hlist).trans (.queueInLoop_conn (c := c) rfl (Function.update_self ..))
  · exact .ite (.done (.refl s)) (.ok (.refl s) (.none (by simp [Frame.conn?])))
  · exact .disabled

theorem dropNewFd_refs : (TcpAcceptor.dropNewFd inp s).Refs s := by
  unfold TcpAcceptor.dropNewFd
  split
  · exact .ite (.done (.of_rfl rfl rfl rfl rfl)) .disabled
  · exact .done (.refl s)
  · exact .disabled

theorem startInLoop_refs {k : ClientId} : (TcpConnector.startInLoop cfg t k inp s).Refs s :=
  fun _ _ he => by
    obtain ⟨-, rfl, hst⟩ := startInLoop_ok he
    refine ⟨?_, .nil⟩
    have hopen {fd : Fd} : s.Refs (s.openFd fd (.connector k)) := .of_rfl rfl rfl rfl rfl
    have hclosed {fd : Fd} : s.Refs ((s.openFd fd (.connector k)).closeFd fd) :=
      .of_rfl rfl rfl rfl rfl
    cases hst with
    | polling => exact (hopen.trans (.updClient fun _ => .inl)).trans .setPoller
    | closed => exact hclosed.trans (.updClient fun _ => .inl)
    | noSocket => exact .updClient fun _ => .inl

theorem startRest_refs {k : ClientId} : (TcpConnector.startRest cfg t k inp s).Refs s :=
  .ite startInLoop_refs (.done (.trans (.updClient fun _ => .inl) (.queueInLoop nofun)))

theorem writeEventHandler_refs {k : ClientId} : (TcpConnector.writeEventHandler cfg t k s).Refs s :=
  fun _ _ he => by
    obtain ⟨-, n, fd, p, p', -, -, -, rfl, rfl⟩ := writeEventHandler_ok he
    exact ⟨.trans (.trans .setPoller (.updClient fun _ => .inl)) (.queueInLoop nofun),
      .none (by simp [Frame.conn?])⟩

theorem writeEventRest_refs {k : ClientId} {fd : Fd} :
    (TcpConnector.writeEventRest cfg t k fd inp s).Refs s := fun _ _ he => by
  rcases writeEventRest_ok he with ⟨e, -, -, rfl, rfl⟩ | ⟨-, -, p, -, rfl, rfl⟩
  · have hcl : s.Refs (s.closeFd fd) := .of_rfl rfl rfl rfl rfl
    exact ⟨(hcl.trans (.updClient fun _ => .inl)).trans (.queueInLoop nofun), .nil⟩
  · have hc : s.Refs (s.create (s.clientConn cfg k fd) (TcpClient.newConn cfg k)) := .create
    have hal : (s.create (s.clientConn cfg k fd) (TcpClient.newConn cfg k)).alive
      (s.clientConn cfg k fd) = true := Function.update_self ..
    refine ⟨(hc.trans (.updClient fun c' he => ?_)).trans .establish, ?_⟩
    · cases he
      exact .inr hal
    · refine .of (c := s.clientConn cfg k fd) hal fun g hg => ?_
      split at hg
      · exact .inr (by rw [List.mem_singleton.1 hg]; rfl)
      · cases hg

/-! ## Functors, calls and frames -/

theorem task_refs {k : Task} (hal : ∀ c, k.conn? = some c → s.alive c = true) :
    (k.run cfg t inp s).Refs s := by
  cases k with
  | connectEstablished c => exact connectEstablished_refs (hal c rfl)
  | connectDestoryed c => exact connectDestoryed_refs (hal c rfl)
  | sendInLoop c T m => exact sendInLoop_refs (hal c rfl)
  | startReadInLoop c => exact .assert (.ite (.done (.refl s)) (.channelOp fun _ => .done .setPoller))
  | stopReadInLoop c => exact .assert (.ite (.channelOp fun _ => .done .setPoller) (.done (.refl s)))
  | shutdownInLoop c => exact shutdownInLoop_refs
  | forceCloseInLoop c => exact forceCloseInLoop_refs (hal c rfl)
  | writtenCb c | highWaterCb c n => exact .ok (.refl s) (.of (hal c rfl) (by simp [Frame.conn?]))
  | removeConnectionInLoop c => exact removeConnectionInLoop_refs (hal c rfl)
  | listen => exact .assert (.channelOp fun _ => .done .setPoller)
  | connectorStart k => exact startInLoop_refs
  | connectorReset k => exact .done (.updClient fun _ => .inl)
  | connectorStop k => exact .done (.refl s)
  | functor => exact .ok (.refl s) (.none (by simp [Frame.conn?]))

theorem api_refs {a : Api} (hal : ∀ c, (Frame.api a).on? s = some c → s.alive c = true) :
    (a.run cfg t inp s).Refs s := by
  cases a with
  | send c m => exact send_refs (hal c rfl)
  | startRead c | stopRead c => exact .done (.queueInLoop_conn rfl (hal c rfl))
  | shutdown c => exact shutdown_refs (hal c rfl)
  | forceClose c => exact forceClose_refs (hal c rfl)
  | setCallbacks c cbs | swapBuffer c rhs => exact .done .updConn
  | buffer c op =>
    simp only [Api.run]
    split
    · exact .done .updConn
    · exact .done (.refl s)
  | retain c | release c => exact .done (.hold (hal c rfl))
  | start =>
    simp only [Api.run, TcpServer.start]
    split
    · exact .ite (.ok (.of_rfl rfl rfl rfl rfl) (.none (by simp [Frame.conn?]))) (.done (.refl s))
    · exact .disabled
  | connect k =>
    simp only [Api.run, TcpConnector.start]
    split
    · exact .ite (.ok (.updClient fun _ => .inl) (.none (by simp [Frame.conn?]))) (.done (.refl s))
    · exact .disabled
  | disconnect k =>
    simp only [Api.run, TcpClient.disconnect]
    split
    · rename_i c hc
      exact shutdown_refs (hal c hc)
    · exact .done (.refl s)
  | stop k => exact .ite (.done (.refl s)) (.ok (.refl s) (.none (by simp [Frame.conn?, Task.conn?])))
  | runInLoop l | queueInLoop l => exact .ok (.refl s) (.none (by simp [Frame.conn?, Task.conn?]))

theorem handleEvent_unbound {ev : Mask} {i : ChanId} : ∀ g ∈ EventChannel.handleEvent ev i, g.conn? = none := by
  intro g hg
  cases i with
  | acceptor | conn | connector =>
    rcases mem_callbacks hg with hg | hg | hg | hg <;> simp_all [Frame.conn?]

/-- **A frame makes references to the connection it works on, or to a new one.** -/
theorem exec_refs (hal : ∀ c, f.on? s = some c → s.alive c = true)
    (hheld : ∀ c, s.held c = true → s.alive c = true) : (exec cfg t inp s f).Refs s := by
  cases f with
  | loopPoll l =>
    refine .assert ?_
    split
    · exact .ite (.ok (.of_rfl rfl rfl rfl rfl) (.none (by simp [Frame.conn?]))) .disabled
    · exact .disabled
  | loopDispatch l =>
    simp only [exec]
    split <;> exact .ok (.of_rfl rfl rfl rfl rfl) (.none (by simp [Frame.conn?]))
  | loopTasks l =>
    simp only [exec]
    simp only [Frame.on?] at hal
    split
    · exact .ok (.refl s) (.none (by simp [Frame.conn?]))
    · rename_i k ks hq
      rw [hq] at hal
      have hdone : s.Backs [.taskDone k, .loopPoll l] := fun g hg c hc => by
        rcases List.mem_cons.1 hg with rfl | hg
        · exact hal c hc
        · rw [List.mem_singleton.1 hg] at hc
          cases hc
      exact .after (.dequeue hq) (.followedBy (task_refs hal) hdone)
  | taskDone k | errorHandler c => exact .done (.refl s)
  | handleEvent i => exact .ok (.refl s) (.none handleEvent_unbound)
  | user c? =>
    simp only [exec]
    split
    · rename_i a
      by_cases hp : a.possible cfg s c? = true
      · rw [if_pos hp]
        refine .ok (.refl s) fun g hg c hc => ?_
        rcases List.mem_cons.1 hg with rfl | hg
        · exact (possible_held hp hc).elim (hheld c) (hal c)
        · rw [List.mem_singleton.1 hg] at hc
          exact hal c hc
      · rw [if_neg hp]
        exact .disabled
    · exact .done (.refl s)
    · exact .disabled
  | api a => exact api_refs hal
  | forceCloseAgain c => exact forceCloseAgain_refs (hal c rfl)
  | startPool =>
    have hinit : s.Refs { s with initialized := s.initialized ++ [t] } := .of_rfl rfl rfl rfl rfl
    exact .done (hinit.trans (.queueInLoop fun _ h => by cases h))
  | queueInLoop l k => exact .done (.queueInLoop hal)
  | runInLoop l k => exact .ite (task_refs hal) (.done (.queueInLoop hal))
  | closeHandler c => exact closeHandler_refs (hal c rfl)
  | readHandler c =>
    cases inp with
    | read rd => exact readHandler_refs (hal c rfl)
    | _ => exact .disabled
  | writeHandler c => exact writeHandler_refs (hal c rfl)
  | writeHandlerRest c => exact .ite shutdownInLoop_refs (.done (.refl s))
  | closeCb c =>
    simp only [exec]
    split
    · exact .after .note (removeConnection_refs (s := s.note c _) (hal c rfl))
    · exact .after .note (clientRemoveConnection_refs (s := s.note c _) (hal c rfl))
  | destoryedRest c => exact .removeFromLoop fun _ _ => .done (.of_rfl rfl rfl rfl rfl)
  | acceptHandle => exact acceptHandle_refs
  | closeIdle => exact .done (.of_rfl rfl rfl rfl rfl)
  | reAccept | reOpen => exact dropNewFd_refs
  | connectorRun k => exact startRest_refs
  | writeEventHandler k => exact writeEventHandler_refs
  | writeEventRest k fd => exact writeEventRest_refs

/-! ## Whole runs -/

structure Referenced (s : Sys) : Prop where
  queue : ∀ l, ∀ k ∈ s.queue l, ∀ c, k.conn? = some c → s.alive c = true
  stack : ∀ t, s.Backs (s.stack t)
  held : ∀ c, s.held c = true → s.alive c = true
  client : ∀ k c, (s.clients k).connection = some c → s.alive c = true

theorem Referenced.init : Referenced (Sys.init cfg) := by
  refine ⟨nofun, fun t f hf c hc => ?_, nofun, nofun⟩
  rcases mem_init_stack hf with rfl | ⟨l, -, rfl⟩ <;> cases hc

/-- Only a handler runs on what is not referred to. -/
theorem Referenced.runsAlive (h : Referenced s) (hS : Sound cfg d s) (ha : HandlersAlive s a) :
    RunsAlive s a := by
  cases a with
  | thread t inp =>
    intro f r hs c hc
    have hm : f ∈ s.stack t := hs ▸ List.mem_cons_self
    have habout (hc : f.about = some c) : s.alive c = true := by
      rcases Frame.about_cases (hS.frames t f hm).home hc with hh | hh
      · exact ha f r hs hh c hc
      · exact h.stack t f hm c hh
    cases f with
    | loopTasks l =>
      simp only [Frame.on?] at hc
      split at hc
      · rename_i k ks hq
        exact h.queue l k (hq ▸ List.mem_cons_self) c hc
      · cases hc
    | api a =>
      cases a with
      | disconnect k => exact h.client k c hc
      | _ => exact habout hc
    | _ => exact habout hc
  | _ => trivial

/-- What is destroyed has no reference. -/
theorem Referenced.destroy (h : Referenced s) (hS : Sound cfg d s) (hT : Table cfg s) (hL : Linked s)
    (hth : ∀ t, s.stack t ≠ [] → t ∈ cfg.threads) (hal : s.alive c = true)
    (hr : s.referenced cfg c = false) : Referenced (s.destroy c) := by
  have hu := unreferenced hr
  have hne {c' : ConnId} (hc : c' ≠ c) (hal' : s.alive c' = true) : (s.destroy c).alive c' = true :=
    (Function.update_of_ne hc ..).trans hal'
  refine ⟨fun l k hk c' hc => ?_, fun t f hf c' hc => ?_, fun c' hc => ?_, fun k c' hc => ?_⟩
  · refine hne ?_ (h.queue l k hk c' hc)
    rintro rfl
    refine hu.queue l ?_ k hk hc
    rcases (hS.tasks l k hk).home.loop_mem hc with rfl | rfl
    · exact (hT.born c' hal).2
    · exact cfg.server_mem
  · refine hne ?_ (h.stack t f hf c' hc)
    rintro rfl
    exact hu.stack t (hth t (List.ne_nil_of_mem hf)) f hf hc
  · refine hne ?_ (h.held c' hc)
    rintro rfl
    exact absurd hu.held (by rw [show s.held c' = true from hc]; nofun)
  · refine hne ?_ (h.client k c' hc)
    rintro rfl
    exact hu.client k (hL.client k c' hc).1 hc

theorem Referenced.step (h : Referenced s) (hI : Inv cfg d s) (hT : Table cfg s) (hL : Linked s)
    (hth : ∀ t, s.stack t ≠ [] → t ∈ cfg.threads) (ha : RunsAlive s a)
    (hs : Net.step cfg s a = some s') : Referenced s' := by
  rcases step_cases hs with ⟨t, inp, f, r, gs, s₁, rfl, hst, hx, rfl⟩ |
    ⟨t, inp, f, r, e, rfl, hst, hx, rfl⟩ | ⟨c', rfl, hal, hr, rfl⟩ | ⟨n, rfl, -, rfl⟩ | ⟨n, rfl, -, rfl⟩
  · obtain ⟨hR, hB⟩ := exec_refs (ha f r hst) h.held _ _ hx
    have hstack := (exec_keeps hI.sound.pristine hx).1
    have hold : ∀ t, s₁.Backs (s.stack t) := fun t g hg c hc => hR.alive c (h.stack t g hg c hc)
    refine ⟨fun l k hk c hc => ?_, fun t' => ?_, fun c hc => ?_, fun k c hc => ?_⟩
    · exact (hR.queue l k hk).elim (fun hk => hR.alive c (h.queue l k hk c hc)) fun hk => hk c hc
    · by_cases ht : t' = t
      · subst ht
        rw [Sys.push_self]
        exact hB.append fun g hg => hold t' g (hst ▸ List.mem_cons_of_mem _ hg)
      · rw [Sys.push_of_ne _ ht, hstack]
        exact hold t'
    · exact (hR.held c hc).elim (fun hc => hR.alive c (h.held c hc)) id
    · exact (hR.client k c hc).elim (fun hc => hR.alive c (h.client k c hc)) id
  · exact ⟨h.queue, h.stack, h.held, h.client⟩
  · exact h.destroy hI.sound hT hL hth hal hr
  · exact ⟨h.queue, h.stack, h.held, h.client⟩
  · exact ⟨h.queue, h.stack, h.held, h.client⟩

theorem referenced_reach (h : Runs.Reach (step cfg) (fun s a => ClosesOwn cfg s a ∧ HandlersAlive s a)
    (Sys.init cfg) s) : Inv cfg .unstolen s ∧ Tabled cfg s s ∧ Referenced s := by
  refine h.inv (I := fun s => Inv cfg .unstolen s ∧ Tabled cfg s s ∧ Referenced s)
    ⟨.init, .init, .init⟩ fun s a s' hr hi hp hs => ?_
  obtain ⟨hI, hT, hR⟩ := hi
  have hruns := hR.runsAlive hI.sound hp.2
  refine ⟨?_, (hT.step hI hp.1 hruns hs).restart, ?_⟩
  · obtain ⟨t, hes, -⟩ := step_effects hI hp.1.allows hs
    exact (Inv.effects (I := fun _ => True) (fun _ _ _ _ _ => trivial) hI trivial hes).1
  · exact hR.step hI hT.table (Linked.reach hr) (threads_reach hr) hruns hs

/-- **The table of connections is exact.** In a run in which the descriptor of a connection is closed
by its own destructor only, and a handler that a channel calls finds its connection there (`CloseHandler`
may run any number of times): every entry is a connection that exists and is not removed, under its own
descriptor; the numbers that can be given out have no entry; a connection whose removal is pending
exists, and what the removal finds under its number is that connection or nothing; and an entry stays
until its own connection is removed. -/
theorem table_exact (h : Runs.Reach (step cfg) (fun s a => ClosesOwn cfg s a ∧ HandlersAlive s a)
    (Sys.init cfg) s) :
    (∀ n c, s.connections n = some c → c.fd = n ∧ s.alive c = true ∧ ¬ s.Removed c) ∧
      (∀ n, s.fds n = none → s.connections n = none) ∧
      (∀ c, .removeConnectionInLoop c ∈ s.queue cfg.serverLoop → s.alive c = true ∧
        ∀ c', s.connections c.fd = some c' → c' = c) ∧
      ∀ a s' n c, ClosesOwn cfg s a → HandlersAlive s a → step cfg s a = some s' →
        s.connections n = some c → s'.connections n = some c ∨ s'.Removed c := by
  obtain ⟨hI, hT, hR⟩ := referenced_reach h
  refine ⟨fun n c hn => ?_, fun n hn => ?_, fun c hm => ⟨hR.queue _ _ hm c rfl, fun c' hn => ?_⟩,
    fun a s' n c ho ha hs => ?_⟩
  · obtain ⟨h1, h2, -, h3⟩ := hT.table.entry n c hn
    exact ⟨h1, h2, h3⟩
  · cases hc : s.connections n with
    | none => rfl
    | some c =>
      obtain ⟨hfd, hal, -⟩ := hT.table.entry n c hc
      exact absurd hfd (hT.table.fd_ne hn hal)
  · obtain ⟨hfd, hal', ho', -⟩ := hT.table.entry _ c' hn
    have hal := hR.queue _ _ hm c rfl
    exact hT.table.sole c' c hal' hal ho' (hI.sound.tasks _ _ hm).home.2 hfd
  · exact (hT.step hI ho (hR.runsAlive hI.sound ha) hs).kept n c

/-- A run that keeps the numbers is one in which a descriptor is closed by its own destructor and
handlers find their connections. -/
theorem KeepsNumbers.exact (hC : Careful cfg s) (h : KeepsNumbers cfg s a)
    (hs : step cfg s a = some s') : ClosesOwn cfg s a ∧ HandlersAlive s a := by
  cases a with
  | thread t inp =>
    refine ⟨?_, fun f r hst _ c hc => ?_⟩
    · simp only [ClosesOwn]
      split
      · rename_i hst
        simp only [KeepsNumbers, hst] at h
        intro c hal hfd
        rw [← hfd, hC.owned.conn c hal] at h
        exact h
      · rename_i k fd r hst
        intro e _ _ c hal
        have hhand : (s.clients k).InHand fd :=
          .inr (phase_of_rest (hC.pursuit k) (hst ▸ List.mem_cons_self)).1
        exact hC.owned.ne_connector hhand hal
      · trivial
    · exact ((hC.inv.sound.frames t f (hst ▸ List.mem_cons_self)).about c hc).2.resolve_right id
  | destroy c =>
    rcases step_cases hs with ⟨_, _, _, _, _, _, he, -⟩ | ⟨_, _, _, _, _, he, -⟩ |
      ⟨c', he, hal, hr, -⟩ | ⟨_, he, -⟩ | ⟨_, he, -⟩ <;> cases he
    exact ⟨hC.owned.soleOn hal, trivial⟩
  | openFd | closeFd => exact ⟨trivial, trivial⟩

theorem exact_reach (h : Runs.Reach (step cfg) (KeepsNumbers cfg) (Sys.init cfg) s) :
    Runs.Reach (step cfg) (fun s a => ClosesOwn cfg s a ∧ HandlersAlive s a) (Sys.init cfg) s := by
  induction h with
  | init => exact .init
  | snoc hr hp hs ih => exact .snoc ih (hp.exact (careful_reach hr) hs) hs

/-- The removal of `workerConn` runs on the server's loop and `ConnectDestoryed` on the worker; the
connection is destroyed, and the next one gets its number. -/
def reuseRun : List Act :=
  workerRun ++
  loopActs [.none, .none, .none] ++
  [.none, .none, .none].map (.thread (.loop 1)) ++
  [.destroy workerConn] ++
  loopActs [.poll [(3, pollIn)], .none, .none, .fd (.ok 5), .fd (.error eAgain)]

theorem table_exact_sample :
    (∃ s, Runs.run (step .sampleWorker) (Sys.init .sampleWorker) workerRun = some s ∧
      .removeConnectionInLoop workerConn ∈ s.queue 0 ∧ s.alive workerConn = true) ∧
    ∃ s, Runs.run (step .sampleWorker) (Sys.init .sampleWorker) reuseRun = some s ∧
      s.alive workerConn = false ∧ (s.conns workerConn).trace.getLast? = some .destroyed ∧
      s.connections 5 = some ⟨1, 5, 1, .server⟩ ∧ s.alive ⟨1, 5, 1, .server⟩ = true ∧
      ¬ s.Removed ⟨1, 5, 1, .server⟩ := by
  constructor
  · have hrun : (Runs.run (step .sampleWorker) (Sys.init .sampleWorker) workerRun).map
        (fun s => s.queue 0) = some [.removeConnectionInLoop workerConn] := by decide +kernel
    obtain ⟨s, hs, hx, hr⟩ :=
      Runs.Reach.of_map _ hrun (P := KeepsNumbers .sampleWorker) (by decide +kernel)
    have hm : .removeConnectionInLoop workerConn ∈ s.queue 0 := by
      rw [hx]
      exact List.mem_singleton_self _
    exact ⟨s, hs, hm, ((table_exact (exact_reach hr)).2.2.1 _ hm).1⟩
  · have hrun : (Runs.run (step .sampleWorker) (Sys.init .sampleWorker) reuseRun).map
        (fun s => (s.alive workerConn, (s.conns workerConn).trace.getLast?, s.connections 5)) =
        some (false, some .destroyed, some ⟨1, 5, 1, .server⟩) := by decide +kernel
    obtain ⟨s, hs, hx, hr⟩ :=
      Runs.Reach.of_map _ hrun (P := KeepsNumbers .sampleWorker) (by decide +kernel)
    simp only [Prod.mk.injEq] at hx
    obtain ⟨hdead, hlast, hentry⟩ := hx
    obtain ⟨-, hal, hrm⟩ := (table_exact (exact_reach hr)).1 5 _ hentry
    exact ⟨s, hs, hdead, hlast, hentry, hal, hrm⟩

end Liang.Net
