import NetworkPoller.Net.Proof.Connector
import NetworkPoller.Net.Proof.Moves

/-!
# What a connector does with its sockets and channels

`connectorEvents` is what a connector does in a step: the sockets it creates, closes and hands to
`new_connection_cb_`, the channels it installs, removes and destroys, and the values of `SO_ERROR`
it reads. `ConnectorFds` ties the sockets among them to the descriptors that are open before and
after the step. The invariant of `Pursuit` says in which phase each of these happens (`step_try`), so that
over a whole run they come in order (`Story`): failed tries, one after the other, and then at most
one that is under way, was given up, or has succeeded (`connector_attempts`). When a try was given
up or has succeeded the connector is at its end, since nothing sets `state_` back
(`connector_wedged`); `connector_not_wedged` is about the runs in which that does not happen.
-/

namespace Liang.Net

open Base TcpConnection EpollPoller

variable {cfg : Cfg} {d : Discipline} {s s' : Sys} {t : Tid} {k k' : ClientId} {inp : Input}
  {f : Frame} {r gs : List Frame}

/-- There is one thing in each phase of every connector, in every state of a run. -/
theorem pursuit_reach {P : Sys → Act → Prop} (h : Runs.Reach (step cfg) P (Sys.init cfg) s)
    (k : ClientId) : (s.pursuit cfg k).Ok k (.loop (cfg.clientLoop k)) := by
  refine (Inv.reach (d := .any) (I := fun s => (s.pursuit cfg k).Ok k (.loop (cfg.clientLoop k)))
    ?_ (fun t s s' hI hO he => (he.pursuit hI hO).ok hO)
    (fun s a s' _ _ _ _ => Discipline.any_allows) h).2
  have htok : (fun t => tokens k ((Sys.init cfg).stack t)) = fun _ => [] := by
    funext t
    refine List.filterMap_eq_nil_iff.2 fun f hf => ?_
    rcases mem_init_stack hf with rfl | ⟨l, -, rfl⟩ <;> rfl
  exact ⟨⟨htok, rfl, fun _ _ h => h rfl, rfl, rfl⟩, fun _ => rfl⟩

/-! ## The events -/

inductive ConnectorEv
  /-- `CreateNonblocking`, which may fail -/
  | created (fd : Fd)
  | noSocket
  /-- `channel_.reset` in `StartInLoop`, and `EnableWriting` -/
  | installed (n : Nat) (fd : Fd)
  /-- `RemoveChannel` -/
  | removed (n : Nat) (fd : Fd)
  | soError (e : Nat)
  | closed (fd : Fd)
  /-- `new_connection_cb_` -/
  | handed (fd : Fd)
  /-- `ResetChannelPtr` of this `channel_` -/
  | reset (ch : Option (Nat × Fd))
  deriving DecidableEq, Repr

/-- `StartInLoop` with `n` channels made before. -/
def startEvents (n : Nat) : Input → List ConnectorEv
  | .connect (some fd) err stale =>
    if TcpConnector.goesOn (err.getD stale) then [.created fd, .installed n fd]
    else [.created fd, .closed fd]
  | .connect none _ _ => [.noSocket]
  | _ => []

/-- What connector `k` does when `t` runs the frame. -/
def Frame.connectorEvents (cfg : Cfg) (k : ClientId) (s : Sys) (t : Tid) (inp : Input) :
    Frame → List ConnectorEv
  | connectorRun k' =>
    if k' = k ∧ t = .loop (cfg.clientLoop k) then startEvents (s.clients k).attempts inp else []
  | loopTasks l => match s.queue l with
    | .connectorStart k' :: _ => if k' = k then startEvents (s.clients k).attempts inp else []
    | .connectorReset k' :: _ => if k' = k then [.reset (s.clients k).channel] else []
    | _ => []
  | writeEventHandler k' => match (s.clients k).channel with
    | some (n, fd) => if k' = k then [.removed n fd] else []
    | none => []
  | writeEventRest k' fd => match inp with
    | .soError e =>
      if k' = k then if e ≠ 0 then [.soError e, .closed fd] else [.soError e, .handed fd] else []
    | _ => []
  | _ => []

/-- What connector `k` does in a step. -/
def connectorEvents (cfg : Cfg) (k : ClientId) (s : Sys) : Act → List ConnectorEv
  | .thread t inp => match s.stack t with
    | f :: _ => match exec cfg t inp s f with
      | .ok _ _ => f.connectorEvents cfg k s t inp
      | _ => []
    | [] => []
  | _ => []

/-! ## One step -/

/-- What a step can do to a client, and its connector in it. -/
inductive Try (x : Client) : List ConnectorEv → Client → Prop
  | same {y} (hs : y.state = x.state) (hp : y.phase = x.phase) (hc : y.channel = x.channel)
      (hn : y.attempts = x.attempts) : Try x [] y
  | called {u} (hp : x.phase = .idle) :
      Try x [] { x with state := .connecting, phase := .called u }
  | queued {u} (hp : x.phase = .called u) : Try x [] { x with phase := .queued }
  | attempt {fd} (hp : x.phase = .queued ∨ ∃ t, x.phase = .called t) (hc : x.channel = none) :
      Try x [.created fd, .installed x.attempts fd] { x with
        attempts := x.attempts + 1, channel := some (x.attempts, fd)
        phase := .polling x.attempts fd }
  | failed {es} (hp : x.phase = .queued ∨ ∃ t, x.phase = .called t) (hc : x.channel = none)
      (he : es = [.noSocket] ∨ ∃ fd, es = [.created fd, .closed fd]) : Try x es { x with phase := .ended }
  | removed {n fd} (hp : x.phase = .polling n fd) (hc : x.channel = some (n, fd)) :
      Try x [.removed n fd] { x with phase := .judging fd }
  | retry {fd e} (hp : x.phase = .judging fd) (he : e ≠ 0) :
      Try x [.soError e, .closed fd] { x with phase := .queued }
  | made {fd c} (hp : x.phase = .judging fd) :
      Try x [.soError 0, .handed fd] { x with connection := c, phase := .ended }
  | reset (hp : x.phase = .queued ∨ x.phase = .ended) (hc : x.channel ≠ none) :
      Try x [.reset x.channel] { x with channel := none }

theorem Try.of_eq {x y : Client} (h : y = x) : Try x [] y := by
  subst h
  exact .same rfl rfl rfl rfl

theorem Try.to {x y z : Client} {es : List ConnectorEv} (h : Try x es y) (hz : z = y) : Try x es z := by
  rwa [hz]

/-- A frame with a token is the only one. -/
theorem Pursuit.Ok.tokens_eq {home : Tid} {x : Token} (hO : (s.pursuit cfg k).Ok k home)
    (hm : f ∈ s.stack t) (hf : f.token k = some x) : tokens k (s.stack t) = [x] := by
  have hx : x ∈ tokens k (s.stack t) := List.mem_filterMap.2 ⟨f, hm, hf⟩
  cases hL : tokens k (s.stack t) with
  | nil =>
    rw [hL] at hx
    cases hx
  | cons y r =>
    obtain ⟨rfl, -⟩ := hO.phase_of_frame (x := y) (r := r) hL
    rw [hL] at hx
    rw [List.mem_singleton.1 hx]

/-- A thread is in `Start`. -/
theorem phase_of_run (hO : (s.pursuit cfg k).Ok k (.loop (cfg.clientLoop k)))
    (hm : .connectorRun k ∈ s.stack t) :
    (s.clients k).phase = .called t ∧ (s.clients k).channel = none ∧
      (s.pursuit cfg k).Unregistered ∧ (s.pursuit cfg k).active = 0 := by
  obtain ⟨-, -, ha, hp⟩ := hO.phase_of_frame (hO.tokens_eq hm (x := .run) (by simp [Frame.token]))
  have hh := hO.holds
  rw [hp] at hh
  exact ⟨hp, hh.2.2.2.2, hh.2.2.1, ha⟩

/-- `StartInLoop` is at the front of the queue. -/
theorem phase_of_startTask (hS : Sound cfg d s)
    (hO : (s.pursuit cfg k).Ok k (.loop (cfg.clientLoop k))) {l : LoopId} {ks : List Task}
    (hq : s.queue l = .connectorStart k :: ks) :
    (s.clients k).phase = .queued ∧ (s.clients k).channel = none ∧
      (s.pursuit cfg k).Unregistered ∧ (s.pursuit cfg k).active = 0 := by
  obtain ⟨rfl, htask⟩ := hS.startTask_front hq
  obtain ⟨hp, -, hc⟩ := hO.phase_of_start htask
  have hh := hO.holds
  rw [hp] at hh
  exact ⟨hp, hc, hh.2.2.1, hh.2.1⟩

/-- `ResetChannelPtr` is about to run. -/
theorem phase_of_resetTask (hI : Inv cfg d s)
    (hO : (s.pursuit cfg k).Ok k (.loop (cfg.clientLoop k))) {l : LoopId} {ks : List Task}
    (hs : s.stack t = .loopTasks l :: r) (hq : s.queue l = .connectorReset k :: ks) :
    ((s.clients k).phase = .queued ∨ (s.clients k).phase = .ended) ∧ (s.clients k).channel ≠ none ∧
      (s.pursuit cfg k).Unregistered ∧ (s.pursuit cfg k).active = 0 := by
  obtain rfl : l = cfg.clientLoop k :=
    (hI.sound.tasks l (.connectorReset k) (hq ▸ List.mem_cons_self)).home
  obtain ⟨rfl, rfl, -⟩ := hI.shape.of_tasks hI.sound hs
  have htask : (s.pursuit cfg k).tasks = .connectorReset k :: ks.filter (·.isConnector k) := by
    show (s.queue _).filter _ = _
    rw [hq, List.filter_cons_of_pos (by simp [Task.isConnector])]
  have hf : (s.pursuit cfg k).frames (.loop (cfg.clientLoop k)) = [] := by
    show tokens k (s.stack _) = []
    rw [hs]
    rfl
  obtain ⟨hc, hu, ha, -, hp⟩ := hO.phase_of_reset hf htask
  exact ⟨hp.imp And.left And.left, hc, hu, ha⟩

/-- `WriteEventHandler` is to run. -/
theorem phase_of_handler (hO : (s.pursuit cfg k).Ok k (.loop (cfg.clientLoop k)))
    (hm : .writeEventHandler k ∈ s.stack t) :
    ∃ n fd, (s.clients k).phase = .polling n fd ∧ (s.clients k).channel = some (n, fd) := by
  obtain ⟨-, -, -, -, n, fd, hp⟩ :=
    hO.phase_of_frame (hO.tokens_eq hm (x := .event) (by simp [Frame.token]))
  have hh := hO.holds
  rw [hp] at hh
  exact ⟨n, fd, hp, hh.2.2.2⟩

/-- `WriteEventHandler` has removed the channel. -/
theorem phase_of_rest (hO : (s.pursuit cfg k).Ok k (.loop (cfg.clientLoop k))) {fd : Fd}
    (hm : .writeEventRest k fd ∈ s.stack t) :
    (s.clients k).phase = .judging fd ∧ (∃ n, (s.clients k).channel = some (n, fd)) ∧
      (s.pursuit cfg k).Unregistered ∧ (s.pursuit cfg k).active = 0 := by
  obtain ⟨-, -, ha, -, hp⟩ :=
    hO.phase_of_frame (hO.tokens_eq hm (x := .rest fd) (by simp [Frame.token]))
  have hh := hO.holds
  rw [hp] at hh
  exact ⟨hp, hh.2.2.2.2, hh.2.2.1, ha⟩

/-- `StartInLoop`, in a state `s₀` with the clients of `s`. -/
theorem startInLoop_try (s₀ : Sys) (hcl : s₀.clients = s.clients)
    (hp : (s.clients k).phase = .queued ∨ ∃ t, (s.clients k).phase = .called t)
    (hc : (s.clients k).channel = none)
    (h : TcpConnector.startInLoop cfg t k inp s₀ = .ok s' gs) :
    Try (s.clients k) (startEvents (s.clients k).attempts inp) (s'.clients k) := by
  obtain ⟨-, -, hst⟩ := startInLoop_ok h
  have hx := congrFun hcl k
  cases hst with
  | @polling fd err stale n p hf hg hn ho =>
    rw [← hx] at hp hc ⊢
    subst hn
    simp only [startEvents, hg, if_true]
    exact (@Try.attempt _ fd hp hc).to (Function.update_self ..)
  | @closed fd err stale hf hg =>
    rw [← hx] at hp hc ⊢
    simp only [startEvents, hg, Bool.false_eq_true, if_false]
    exact (Try.failed hp hc (.inr ⟨fd, rfl⟩)).to (Function.update_self ..)
  | noSocket =>
    rw [← hx] at hp hc ⊢
    exact (Try.failed hp hc (.inl rfl)).to (Function.update_self ..)

/-- `StartInLoop` of another connector. -/
theorem startInLoop_clients_ne (s₀ : Sys) (hk : k ≠ k')
    (h : TcpConnector.startInLoop cfg t k' inp s₀ = .ok s' gs) : s'.clients k = s₀.clients k := by
  obtain ⟨-, -, hst⟩ := startInLoop_ok h
  cases hst <;> exact Function.update_of_ne hk ..

theorem connectorEvents_of_not (hk : ¬ f.OfClient s) : f.connectorEvents cfg k s t inp = [] := by
  cases f with
  | connectorRun | writeEventHandler | writeEventRest => exact absurd trivial hk
  | loopTasks l =>
    simp only [Frame.connectorEvents]
    simp only [Frame.OfClient] at hk
    split
    · simp_all
    · simp_all
    · rfl
  | _ => rfl

/-- The frames of clients and connectors. -/
theorem exec_try (hI : Inv cfg d s) (hO : (s.pursuit cfg k).Ok k (.loop (cfg.clientLoop k)))
    (hs : s.stack t = f :: r) (hk : f.OfClient s) (h : exec cfg t inp s f = .ok s' gs) :
    Try (s.clients k) (f.connectorEvents cfg k s t inp) (s'.clients k) := by
  cases f with
  | connectorRun k' =>
    simp only [exec, TcpConnector.startRest] at h
    simp only [Frame.connectorEvents]
    by_cases hkk : k' = k
    · subst hkk
      obtain ⟨hp, hc, -⟩ := phase_of_run hO (hs ▸ List.mem_cons_self)
      split at h
      · rename_i ht
        rw [if_pos ⟨rfl, ht⟩]
        exact startInLoop_try s rfl (.inr ⟨t, hp⟩) hc h
      · rename_i ht
        cases h
        rw [if_neg fun h => ht h.2]
        exact (Try.queued hp).to (Function.update_self ..)
    · rw [if_neg fun h => hkk h.1]
      split at h
      · exact .of_eq (startInLoop_clients_ne s (Ne.symm hkk) h)
      · cases h
        exact .of_eq (Function.update_of_ne (Ne.symm hkk) ..)
  | writeEventHandler k' =>
    obtain ⟨-, n, fd, p, p', hc, -, -, -, rfl⟩ := writeEventHandler_ok h
    simp only [Frame.connectorEvents]
    by_cases hkk : k' = k
    · subst hkk
      obtain ⟨n', fd', hp, hc'⟩ := phase_of_handler hO (hs ▸ List.mem_cons_self)
      rw [hc] at hc'
      cases hc'
      simp only [hc, if_true]
      exact (Try.removed hp hc).to (Function.update_self ..)
    · have hev : (match (s.clients k).channel with
          | some (n, fd) => if k' = k then [ConnectorEv.removed n fd] else []
          | none => []) = [] := by
        split
        · rw [if_neg hkk]
        · rfl
      rw [hev]
      exact .of_eq (Function.update_of_ne (Ne.symm hkk) ..)
  | writeEventRest k' fd =>
    rcases writeEventRest_ok h with ⟨e, rfl, he, -, rfl⟩ | ⟨rfl, -, p, -, -, rfl⟩
    · simp only [Frame.connectorEvents, if_pos he]
      by_cases hkk : k' = k
      · subst hkk
        rw [if_pos rfl]
        exact (Try.retry (phase_of_rest hO (hs ▸ List.mem_cons_self)).1 he).to (Function.update_self ..)
      · rw [if_neg hkk]
        exact .of_eq (Function.update_of_ne (Ne.symm hkk) ..)
    · simp only [Frame.connectorEvents]
      by_cases hkk : k' = k
      · subst hkk
        rw [if_pos rfl]
        have hp := (phase_of_rest hO (hs ▸ List.mem_cons_self)).1
        exact (Try.made (c := some (s.clientConn cfg k' fd)) hp).to (Function.update_self ..)
      · rw [if_neg hkk]
        exact .of_eq (Function.update_of_ne (Ne.symm hkk) ..)
  | api a =>
    cases a with
    | connect k' =>
      have h : TcpConnector.start t k' inp s = .ok s' gs := h
      unfold TcpConnector.start at h
      split at h
      · split at h
        · rename_i hst
          cases h
          by_cases hkk : k' = k
          · subst hkk
            exact (Try.called (u := t) (hO.idle hst.2)).to (Function.update_self ..)
          · exact .of_eq (Function.update_of_ne (Ne.symm hkk) ..)
        · cases h
          exact .of_eq rfl
      · cases h
    | _ => exact hk.elim
  | closeCb c =>
    simp only [exec] at h
    split at h
    · rename_i ho
      exact absurd ho hk
    · rename_i k' ho
      obtain ⟨-, h⟩ := Res.assert_ok h
      obtain ⟨-, h⟩ := Res.assert_ok h
      cases h
      by_cases hkk : k' = k
      · subst hkk
        have hx : _ = { s.clients k' with connection := none } :=
          Function.update_self k' _ (s.note c [.closeCb]).clients
        exact (Try.same (x := s.clients k') (y := { s.clients k' with connection := none })
          rfl rfl rfl rfl).to hx
      · exact .of_eq (Function.update_of_ne (Ne.symm hkk) ..)
  | loopTasks l =>
    simp only [exec] at h
    split at h
    · rename_i hq
      simp [Frame.OfClient, hq] at hk
    · rename_i k₀ ks hq
      obtain ⟨gs', h, -⟩ := Res.followedBy_ok h
      simp only [Frame.connectorEvents, hq]
      cases k₀ with
      | connectorStart k' =>
        have h : TcpConnector.startInLoop cfg t k' inp (s.dequeue t l _ ks) = .ok s' gs' := h
        by_cases hkk : k' = k
        · subst hkk
          obtain ⟨hp, hc, -⟩ := phase_of_startTask hI.sound hO hq
          simp only [if_true]
          exact startInLoop_try (s.dequeue t l _ ks) rfl (.inl hp) hc h
        · simp only [if_neg hkk]
          exact .of_eq (startInLoop_clients_ne (s.dequeue t l _ ks) (Ne.symm hkk) h)
      | connectorReset k' =>
        cases h
        by_cases hkk : k' = k
        · subst hkk
          obtain ⟨hp, hc, -⟩ := phase_of_resetTask hI hO hs hq
          simp only [if_true]
          exact (Try.reset hp hc).to (Function.update_self ..)
        · simp only [if_neg hkk]
          exact .of_eq (Function.update_of_ne (Ne.symm hkk) ..)
      | _ => simp [Frame.OfClient, hq] at hk
  | _ => exact hk.elim

/-- **What a step does to a client.** -/
theorem step_try {a : Act} (hI : Inv cfg d s) (hO : (s.pursuit cfg k).Ok k (.loop (cfg.clientLoop k)))
    (h : step cfg s a = some s') : Try (s.clients k) (connectorEvents cfg k s a) (s'.clients k) := by
  rcases step_cases h with ⟨t, inp, f, r, gs, s₁, rfl, hs, hx, rfl⟩ |
    ⟨t, inp, f, r, e, rfl, hs, hx, rfl⟩ | ⟨c', rfl, -, -, rfl⟩ | ⟨n, rfl, -, rfl⟩ | ⟨n, rfl, -, rfl⟩
  · simp only [connectorEvents, hs, hx]
    show Try _ _ (s₁.clients k)
    by_cases hk : f.OfClient s
    · exact exec_try hI hO hs hk hx
    · rw [connectorEvents_of_not hk]
      exact .of_eq (congrFun (exec_moves hI hs hk hx).clients k)
  · simp only [connectorEvents, hs, hx]
    exact .of_eq rfl
  all_goals exact .of_eq rfl

/-! ## The whole run -/

/-- `n` tries that failed one after the other: a channel is installed for each new socket, removed
when the socket is written to, destroyed after the socket was closed, and before the next one. -/
inductive Tries : Nat → List ConnectorEv → Prop
  | nil : Tries 0 []
  | snoc {n L fd e} (h : Tries n L) (he : e ≠ 0) :
      Tries (n + 1) (L ++ [.created fd, .installed n fd, .removed n fd, .soError e, .closed fd,
        .reset (some (n, fd))])

/-- What has happened since `n` tries failed, with the channels made, the phase and `channel_`. -/
inductive LastTry (n : Nat) : Nat → Phase → Option (Nat × Fd) → List ConnectorEv → Prop
  | ahead {p} (hp : p = .idle ∨ (∃ t, p = .called t) ∨ p = .queued) : LastTry n n p none []
  | polling {fd} :
      LastTry n (n + 1) (.polling n fd) (some (n, fd)) [.created fd, .installed n fd]
  | judging {fd} :
      LastTry n (n + 1) (.judging fd) (some (n, fd)) [.created fd, .installed n fd, .removed n fd]
  | retried {fd e} (he : e ≠ 0) :
      LastTry n (n + 1) .queued (some (n, fd))
        [.created fd, .installed n fd, .removed n fd, .soError e, .closed fd]
  | noSocket : LastTry n n .ended none [.noSocket]
  | closed {fd} : LastTry n n .ended none [.created fd, .closed fd]
  | handed {fd} :
      LastTry n (n + 1) .ended (some (n, fd))
        [.created fd, .installed n fd, .removed n fd, .soError 0, .handed fd]
  | done {fd} :
      LastTry n (n + 1) .ended none
        [.created fd, .installed n fd, .removed n fd, .soError 0, .handed fd,
          .reset (some (n, fd))]

/-- What a connector has done so far. -/
def Story (x : Client) (L : List ConnectorEv) : Prop :=
  ∃ n L₀ E, Tries n L₀ ∧ L = L₀ ++ E ∧ LastTry n x.attempts x.phase x.channel E

theorem Try.story {x y : Client} {es L : List ConnectorEv} (h : Story x L) (ht : Try x es y) :
    Story y (L ++ es) := by
  obtain ⟨n, L₀, E, hL, rfl, hE⟩ := h
  obtain ⟨st, m, ch, conn, p⟩ := x
  dsimp only at hE
  rw [List.append_assoc]
  cases ht with
  | same _ hp hc hn =>
    rw [List.append_nil]
    exact ⟨n, L₀, E, hL, rfl, by rw [hp, hc, hn]; exact hE⟩
  | @called u hp =>
    obtain rfl : p = .idle := hp
    cases hE
    exact ⟨n, L₀, [], hL, rfl, .ahead (.inr (.inl ⟨u, rfl⟩))⟩
  | @queued u hp =>
    obtain rfl : p = .called u := hp
    cases hE
    exact ⟨n, L₀, [], hL, rfl, .ahead (.inr (.inr rfl))⟩
  | attempt hp hc =>
    obtain rfl : ch = none := hc
    rcases hp with hp | ⟨u, hp⟩ <;> subst hp <;> cases hE <;> exact ⟨n, L₀, _, hL, rfl, .polling⟩
  | failed hp hc he =>
    obtain rfl : ch = none := hc
    rcases hp with hp | ⟨u, hp⟩ <;> subst hp <;> cases hE <;> rcases he with rfl | ⟨fd, rfl⟩
    · exact ⟨n, L₀, _, hL, rfl, .noSocket⟩
    · exact ⟨n, L₀, _, hL, rfl, .closed⟩
    · exact ⟨n, L₀, _, hL, rfl, .noSocket⟩
    · exact ⟨n, L₀, _, hL, rfl, .closed⟩
  | @removed n' fd hp hc =>
    obtain rfl : p = .polling n' fd := hp
    cases hE
    · rename_i h
      rcases h with h | ⟨u, h⟩ | h <;> cases h
    · exact ⟨n, L₀, _, hL, rfl, .judging⟩
  | @retry fd e hp he =>
    obtain rfl : p = .judging fd := hp
    cases hE
    · rename_i h
      rcases h with h | ⟨u, h⟩ | h <;> cases h
    · exact ⟨n, L₀, _, hL, rfl, .retried he⟩
  | @made fd c hp =>
    obtain rfl : p = .judging fd := hp
    cases hE
    · rename_i h
      rcases h with h | ⟨u, h⟩ | h <;> cases h
    · exact ⟨n, L₀, _, hL, rfl, .handed⟩
  | reset hp hc =>
    have hc : ch ≠ none := hc
    rcases hp with hp | hp <;> subst hp <;> cases hE
    · exact absurd rfl hc
    · -- the try is over, and has failed
      rename_i fd e he _
      exact ⟨n + 1, _, [], hL.snoc he, (List.append_nil _).symm, .ahead (.inr (.inr rfl))⟩
    · exact absurd rfl hc
    · exact absurd rfl hc
    · exact absurd rfl hc
    · exact ⟨n, L₀, _, hL, rfl, .done⟩
    · exact absurd rfl hc

/-! ## The channels -/

/-- The reactor can still reach the channel: it is in a poller, in an interest set, or on the part of
an active list that is to be dispatched. -/
def Sys.Reaches (s : Sys) (i : ChanId) : Prop :=
  ∃ l, (∃ n, (s.pollers l).evtChannelList n = some i) ∨
    (∃ n m, (s.pollers l).interest n = some (i, m)) ∨ i ∈ s.active l

theorem not_reaches (hS : Sound cfg d s) {i : ChanId}
    (hnew : ((s.pollers (i.loop cfg)).chan i).status = .newChannel)
    (ha : i ∉ s.active (i.loop cfg)) : ¬ s.Reaches i := by
  have hout : ∀ l, ((s.pollers l).chan i).status = .newChannel := fun l => by
    by_contra hst
    exact hst ((hS.chans l i hst).home ▸ hnew)
  rintro ⟨l, ⟨n, hn⟩ | ⟨n, m, hn⟩ | hm⟩
  · exact ((hS.books l).listed n i hn).2 (hout l)
  · have := ((hS.books l).polled n i m hn).2
    rw [hout l] at this
    cases this
  · exact ha ((hS.active l i hm).home ▸ hm)

/-- The reactor reaches no channel of connector `k`. -/
def Sys.NoChannel (s : Sys) (k : ClientId) : Prop := ∀ n fd, ¬ s.Reaches (.connector k n fd)

theorem noChannel_of (hS : Sound cfg d s) (hu : (s.pursuit cfg k).Unregistered)
    (ha : (s.pursuit cfg k).active = 0) : s.NoChannel k := fun n fd =>
  not_reaches hS (not_not.1 (hu n fd)) fun hm => by
    simpa [ChanId.isConnector] using List.countP_eq_zero.1 ha _ hm

/-- The function of connector `k` that does this runs. -/
def ConnectorEv.At (s : Sys) (k : ClientId) : ConnectorEv → Prop
  | created _ | noSocket | installed _ _ => (∃ t, .connectorRun k ∈ s.stack t) ∨
      ∃ l ks, s.queue l = .connectorStart k :: ks
  | removed _ _ => ∃ t, .writeEventHandler k ∈ s.stack t
  | soError _ => ∃ t fd, .writeEventRest k fd ∈ s.stack t
  | handed fd => ∃ t, .writeEventRest k fd ∈ s.stack t
  | closed _ => True
  | reset ch => ch = (s.clients k).channel ∧
      ∃ t l r ks, s.stack t = .loopTasks l :: r ∧ s.queue l = .connectorReset k :: ks

theorem startEvents_at {n : Nat} {e : ConnectorEv} (he : e ∈ startEvents n inp)
    (h : (∃ t, .connectorRun k ∈ s.stack t) ∨ ∃ l ks, s.queue l = .connectorStart k :: ks) :
    e.At s k := by
  unfold startEvents at he
  split at he
  · split at he <;> simp only [List.mem_cons, List.not_mem_nil, or_false] at he <;>
      rcases he with rfl | rfl
    · exact h
    · exact h
    · exact h
    · trivial
  · rw [List.mem_singleton.1 he]
    exact h
  · cases he

theorem frameEvents_at {e : ConnectorEv} (hs : s.stack t = f :: r)
    (h : e ∈ f.connectorEvents cfg k s t inp) : e.At s k := by
  have hm : f ∈ s.stack t := hs ▸ List.mem_cons_self
  unfold Frame.connectorEvents at h
  split at h
  · split at h
    · rename_i hk
      obtain ⟨rfl, -⟩ := hk
      exact startEvents_at h (.inl ⟨t, hm⟩)
    · cases h
  · split at h
    · rename_i hq
      split at h
      · rename_i hk
        subst hk
        exact startEvents_at h (.inr ⟨_, _, hq⟩)
      · cases h
    · rename_i hq
      split at h
      · rename_i hk
        subst hk
        rw [List.mem_singleton.1 h]
        exact ⟨rfl, t, _, r, _, hs, hq⟩
      · cases h
    · cases h
  · split at h
    · split at h
      · rename_i hk
        subst hk
        rw [List.mem_singleton.1 h]
        exact ⟨t, hm⟩
      · cases h
    · cases h
  · split at h
    · split at h
      · rename_i hk
        subst hk
        split at h <;> simp only [List.mem_cons, List.not_mem_nil, or_false] at h <;>
          rcases h with rfl | rfl
        · exact ⟨t, _, hm⟩
        · trivial
        · exact ⟨t, _, hm⟩
        · exact ⟨t, hm⟩
      · cases h
    · cases h
  · cases h

/-- What a connector does, it does in its functions. -/
theorem mem_connectorEvents {a : Act} {e : ConnectorEv} (h : e ∈ connectorEvents cfg k s a) :
    e.At s k := by
  cases a with
  | destroy | openFd | closeFd => cases h
  | thread t inp =>
    simp only [connectorEvents] at h
    split at h
    · rename_i f r hs
      split at h
      · exact frameEvents_at hs h
      · cases h
    · cases h

/-! ## The descriptors -/

/-- What the events of a step are in the kernel: a socket that is created is a number that was free and
is the connector's afterwards, unless the step closes it again; one that is closed is free afterwards;
one that is handed over belongs to the client's new connection. Other numbers stay as they are. -/
structure ConnectorFds (cfg : Cfg) (k : ClientId) (es : List ConnectorEv) (s s' : Sys) : Prop where
  created : ∀ fd, .created fd ∈ es → s.fds fd = none ∧
    (.closed fd ∈ es ∨ s'.fds fd = some (.connector k))
  closed : ∀ fd, .closed fd ∈ es → s'.fds fd = none
  handed : ∀ fd, .handed fd ∈ es → s'.alive (s.clientConn cfg k fd) = true ∧
    s'.fds fd = some (.conn (s.clientConn cfg k fd)) ∧
    (s'.clients k).connection = some (s.clientConn cfg k fd)
  others : es ≠ [] → ∀ n, .created n ∉ es → .closed n ∉ es → .handed n ∉ es → s'.fds n = s.fds n

namespace ConnectorFds

theorem nil : ConnectorFds cfg k [] s s' :=
  ⟨fun _ h => absurd h List.not_mem_nil, fun _ h => absurd h List.not_mem_nil,
    fun _ h => absurd h List.not_mem_nil, fun h => absurd rfl h⟩

/-- An event that is about no number. -/
theorem plain {e : ConnectorEv} (hf : s'.fds = s.fds)
    (he : ∀ fd, e ≠ .created fd ∧ e ≠ .closed fd ∧ e ≠ .handed fd) : ConnectorFds cfg k [e] s s' where
  created fd h := absurd (List.mem_singleton.1 h).symm (he fd).1
  closed fd h := absurd (List.mem_singleton.1 h).symm (he fd).2.1
  handed fd h := absurd (List.mem_singleton.1 h).symm (he fd).2.2
  others _ n _ _ _ := congrFun hf n

theorem of_same {es : List ConnectorEv} (s₀ : Sys) (hf : s₀.fds = s.fds)
    (hn : s₀.nextSerial = s.nextSerial) (h : ConnectorFds cfg k es s₀ s') : ConnectorFds cfg k es s s' where
  created fd he := hf ▸ h.created fd he
  closed := h.closed
  handed fd he := by
    have := h.handed fd he
    simp only [Sys.clientConn, hn] at this
    exact this
  others he n h1 h2 h3 := hf ▸ h.others he n h1 h2 h3

theorem startInLoop {n : Nat} (h : TcpConnector.startInLoop cfg t k inp s = .ok s' gs) :
    ConnectorFds cfg k (startEvents n inp) s s' := by
  obtain ⟨-, -, hst⟩ := startInLoop_ok h
  cases hst with
  | @polling fd err stale n p hf hg hn ho =>
    simp only [startEvents, hg, if_true]
    refine ⟨fun fd' h => ?_, fun fd' h => by simp at h, fun fd' h => by simp at h, fun _ n hn _ _ => ?_⟩
    · obtain rfl : fd' = fd := by simpa using h
      exact ⟨hf, .inr (Function.update_self ..)⟩
    · exact Function.update_of_ne (fun hnf => hn (by simp [hnf])) ..
  | @closed fd err stale hf hg =>
    simp only [startEvents, hg, Bool.false_eq_true, if_false]
    refine ⟨fun fd' h => ?_, fun fd' h => ?_, fun fd' h => by simp at h, fun _ n hn _ _ => ?_⟩
    · obtain rfl : fd' = fd := by simpa using h
      exact ⟨hf, .inl (by simp)⟩
    · obtain rfl : fd' = fd := by simpa using h
      exact Function.update_self ..
    · have hne : n ≠ fd := fun hnf => hn (by simp [hnf])
      exact (Function.update_of_ne hne ..).trans (Function.update_of_ne hne ..)
  | noSocket => exact .plain rfl fun _ => by simp

/-- `WriteEventHandler` after `RemoveChannel`. -/
theorem writeEventRest {fd : Fd} (h : TcpConnector.writeEventRest cfg t k fd inp s = .ok s' gs) :
    ConnectorFds cfg k ((Frame.writeEventRest k fd).connectorEvents cfg k s t inp) s s' := by
  rcases writeEventRest_ok h with ⟨e, rfl, he, -, rfl⟩ | ⟨rfl, -, p, -, -, rfl⟩
  · simp only [Frame.connectorEvents, if_true, if_pos he]
    refine ⟨fun fd' h => by simp at h, fun fd' h => ?_, fun fd' h => by simp at h, fun _ n _ hn _ => ?_⟩
    · obtain rfl : fd' = fd := by simpa using h
      exact Function.update_self ..
    · exact Function.update_of_ne (fun hnf => hn (by simp [hnf])) ..
  · simp only [Frame.connectorEvents, if_true, ne_eq, not_true_eq_false, if_false]
    refine ⟨fun fd' h => by simp at h, fun fd' h => by simp at h, fun fd' h => ?_, fun _ n _ _ hn => ?_⟩
    · obtain rfl : fd' = fd := by simpa using h
      have hcl := Sys.updClient_self (s := s.create (s.clientConn cfg k fd') (TcpClient.newConn cfg k))
        (k := k) fun x => { x with connection := some (s.clientConn cfg k fd'), phase := .ended }
      exact ⟨Function.update_self .., Function.update_self .., congrArg Client.connection hcl⟩
    · exact Function.update_of_ne (fun hnf => hn (by simp [Sys.clientConn] at hnf; simp [hnf])) ..

theorem exec (h : Net.exec cfg t inp s f = .ok s' gs) :
    ConnectorFds cfg k (f.connectorEvents cfg k s t inp) s s' := by
  cases f with
  | connectorRun k' =>
    simp only [Net.exec, TcpConnector.startRest] at h
    simp only [Frame.connectorEvents]
    split
    · rename_i hk
      obtain ⟨rfl, rfl⟩ := hk
      rw [if_pos rfl] at h
      exact .startInLoop h
    · exact .nil
  | loopTasks l =>
    simp only [Net.exec] at h
    simp only [Frame.connectorEvents]
    cases hq : s.queue l with
    | nil => exact .nil
    | cons x xs =>
      rw [hq] at h
      obtain ⟨gs', h, -⟩ := Res.followedBy_ok h
      cases x with
      | connectorStart k' =>
        dsimp only
        split
        · rename_i hk
          subst hk
          exact .of_same (s.dequeue t l _ xs) rfl rfl (.startInLoop h)
        · exact .nil
      | connectorReset k' =>
        cases h
        dsimp only
        split
        · exact .plain rfl fun _ => by simp
        · exact .nil
      | _ => exact .nil
  | writeEventHandler k' =>
    obtain ⟨-, n, fd, p, p', -, -, -, -, rfl⟩ := writeEventHandler_ok h
    simp only [Frame.connectorEvents]
    split
    · split
      · exact .plain rfl fun _ => by simp
      · exact .nil
    · exact .nil
  | writeEventRest k' fd =>
    by_cases hk : k' = k
    · subst hk
      exact .writeEventRest h
    · simp only [Frame.connectorEvents, if_neg hk]
      split <;> exact .nil
  | _ => exact .nil

/-- **What a step says of sockets is what it does to them.** -/
theorem step {a : Act} (h : Net.step cfg s a = some s') :
    ConnectorFds cfg k (connectorEvents cfg k s a) s s' := by
  rcases step_cases h with ⟨t, inp, f, r, gs, s₁, rfl, hs, hx, rfl⟩ |
    ⟨t, inp, f, r, e, rfl, hs, hx, rfl⟩ | ⟨c', rfl, -, -, rfl⟩ | ⟨n, rfl, -, rfl⟩ | ⟨n, rfl, -, rfl⟩
  · simp only [connectorEvents, hs, hx]
    obtain ⟨h1, h2, h3, h4⟩ := ConnectorFds.exec (k := k) hx
    exact ⟨h1, h2, h3, h4⟩
  · simp only [connectorEvents, hs, hx]
    exact .nil
  all_goals exact .nil

end ConnectorFds

/-- **The attempts of a connector do not interfere.** Over every run, what the connector does is a
sequence of failed tries and the last one (`Story`), and what it does with sockets is so in the kernel
(`ConnectorFds`); `WriteEventHandler` finds `channel_` set, up to its end. When `StartInLoop` installs a
channel, `channel_` is null; then, when a socket is handed over and when `ResetChannelPtr` destroys a
channel, no loop has a channel of the connector. -/
theorem connector_attempts {L : List ConnectorEv}
    (h : Runs.Logged (step cfg) (fun _ _ => True) (connectorEvents cfg k) (Sys.init cfg) L s) :
    Story (s.clients k) L ∧
      (∀ t, .writeEventHandler k ∈ s.stack t → (s.clients k).channel ≠ none) ∧
      (∀ t fd, .writeEventRest k fd ∈ s.stack t → ∃ n, (s.clients k).channel = some (n, fd)) ∧
      ∀ a, (∀ s', step cfg s a = some s' → ConnectorFds cfg k (connectorEvents cfg k s a) s s') ∧
        (∀ n fd, .installed n fd ∈ connectorEvents cfg k s a →
          (s.clients k).channel = none ∧ s.NoChannel k) ∧
        (∀ fd, .handed fd ∈ connectorEvents cfg k s a → s.NoChannel k) ∧
        ∀ ch, .reset ch ∈ connectorEvents cfg k s a →
          ch = (s.clients k).channel ∧ ch ≠ none ∧ s.NoChannel k := by
  have hI := Inv.any h.reach
  have hO := pursuit_reach h.reach k
  have hno := noChannel_of (k := k) hI.sound
  refine ⟨?_, fun t hm => ?_, fun t fd hm => (phase_of_rest hO hm).2.1,
    fun a => ⟨fun _ hs => .step hs, ?_, ?_, ?_⟩⟩
  · refine h.inv (I := fun L s => Story (s.clients k) L) ?_ fun L s a s' hr hL _ hs => ?_
    · exact ⟨0, [], [], .nil, rfl, .ahead (.inl rfl)⟩
    · exact (step_try (Inv.any hr) (pursuit_reach hr k) hs).story hL
  · obtain ⟨n, fd, -, hc⟩ := phase_of_handler hO hm
    rw [hc]
    nofun
  · intro n fd he
    rcases mem_connectorEvents he with ⟨t, hm⟩ | ⟨l, ks, hq⟩
    · obtain ⟨-, hc, hu, ha⟩ := phase_of_run hO hm
      exact ⟨hc, hno hu ha⟩
    · obtain ⟨-, hc, hu, ha⟩ := phase_of_startTask hI.sound hO hq
      exact ⟨hc, hno hu ha⟩
  · intro fd he
    obtain ⟨t, hm⟩ := mem_connectorEvents he
    obtain ⟨-, -, hu, ha⟩ := phase_of_rest hO hm
    exact hno hu ha
  · intro ch he
    obtain ⟨rfl, t, l, r, ks, hs, hq⟩ := mem_connectorEvents he
    obtain ⟨-, hc, hu, ha⟩ := phase_of_resetTask hI hO hs hq
    exact ⟨rfl, hc, hno hu ha⟩

/-- A client connects; its first try fails with `ECONNREFUSED`, the second is about to succeed. -/
def sampleTries : List Act :=
  [.thread (.loop 0) .ret, .thread (.user 7) (.call (.connect 0)), .thread (.user 7) (.cas false),
    .thread (.user 7) .none] ++
  loopActs [.poll [], .none, .connect (some 5) (some eInProgress) 0, .none,
    .poll [(5, pollOut)], .none, .none, .none, .soError eConnRefused, .none, .none, .none,
    .poll [], .none, .connect (some 5) (some eInProgress) 0, .none,
    .poll [(5, pollOut)], .none, .none, .none]

def sampleConnect : List Act := sampleTries ++ loopActs [.soError 0]

theorem connector_attempts_sample :
    ∃ s s', Runs.run (step .sample) (Sys.init .sample) sampleTries = some s ∧
      step .sample s (.thread (.loop 0) (.soError 0)) = some s' ∧
      s.fds 5 = some (.connector 0) ∧ s'.fds 5 = some (.conn (s.clientConn .sample 0 5)) ∧
      Story (s'.clients 0) [.created 5, .installed 0 5, .removed 0 5, .soError eConnRefused, .closed 5,
        .reset (some (0, 5)), .created 5, .installed 1 5, .removed 1 5, .soError 0, .handed 5] := by
  have hrun : ((Runs.run (step .sample) (Sys.init .sample) sampleTries).bind fun s =>
      (step .sample s (.thread (.loop 0) (.soError 0))).map fun _ =>
        (s.fds 5, connectorEvents .sample 0 s (.thread (.loop 0) (.soError 0)))) =
      some (some (.connector 0), [.soError 0, .handed 5]) := by decide +kernel
  have hlog : Runs.log (step .sample) (connectorEvents .sample 0) (Sys.init .sample) sampleTries =
      [.created 5, .installed 0 5, .removed 0 5, .soError eConnRefused, .closed 5,
        .reset (some (0, 5)), .created 5, .installed 1 5, .removed 1 5] := by
    decide +kernel
  obtain ⟨s, hs, hrun⟩ := Option.bind_eq_some_iff.1 hrun
  obtain ⟨s', hs', hx⟩ := Option.map_eq_some_iff.1 hrun
  simp only [Prod.mk.injEq] at hx
  have hL : Runs.Logged (step .sample) (fun _ _ => True) (connectorEvents .sample 0)
      (Sys.init .sample) _ s :=
    .of_run _ hs (Runs.admits_of_forall (fun _ _ => trivial) _ _)
  have hL' := hL.snoc trivial hs'
  rw [hlog, hx.2] at hL'
  have hfds := ((connector_attempts hL).2.2.2 _).1 s' hs'
  rw [hx.2] at hfds
  exact ⟨s, s', hs, hs', hx.1, (hfds.handed 5 (by simp)).2.1, (connector_attempts hL').1⟩

/-! ## Wedged -/

/-- The connector is doing something about an attempt: a thread is in `Start`, `StartInLoop` is
queued, a channel is registered, or `WriteEventHandler` is looking at the outcome. -/
def Sys.InProgress (cfg : Cfg) (s : Sys) (k : ClientId) : Prop :=
  (∃ t, .connectorRun k ∈ s.stack t) ∨ .connectorStart k ∈ s.queue (cfg.clientLoop k) ∨
    (∃ l n fd, (s.pollers l).evtChannelList fd = some (.connector k n fd)) ∨
    ∃ t fd, .writeEventRest k fd ∈ s.stack t

theorem mem_of_tokens {x : Token} (h : x ∈ tokens k (s.stack t)) :
    ∃ f ∈ s.stack t, f.token k = some x := List.mem_filterMap.1 h

theorem token_run (h : f.token k = some .run) : f = .connectorRun k := by
  unfold Frame.token at h
  split at h
  · split at h
    · rename_i hk
      rw [hk]
    · cases h
  · split at h <;> cases h
  · split at h <;> cases h
  · split at h <;> cases h
  · cases h

theorem token_rest {fd : Fd} (h : f.token k = some (.rest fd)) : f = .writeEventRest k fd := by
  unfold Frame.token at h
  split at h
  · split at h <;> cases h
  · split at h <;> cases h
  · split at h <;> cases h
  · split at h
    · rename_i hk
      cases h
      rw [hk]
    · cases h
  · cases h

/-- An attempt is in progress in the phases between the first and the last. -/
theorem inProgress_iff (hS : Sound cfg d s)
    (hO : (s.pursuit cfg k).Ok k (.loop (cfg.clientLoop k))) :
    s.InProgress cfg k ↔ (s.clients k).phase ≠ .idle ∧ (s.clients k).phase ≠ .ended := by
  have hh := hO.holds
  constructor
  · rintro (⟨t, hm⟩ | hq | ⟨l, n, fd, hl⟩ | ⟨t, fd, hm⟩)
    · rw [(phase_of_run hO hm).1]
      exact ⟨nofun, nofun⟩
    · have hq : Task.connectorStart k ∈ (s.pursuit cfg k).tasks :=
        List.mem_filter.2 ⟨hq, decide_eq_true rfl⟩
      constructor <;> intro hp <;> rw [show (s.pursuit cfg k).phase = _ from hp] at hh
      · rw [hh.2.2.2.1] at hq
        cases hq
      · rcases hh.2.2.2 with ⟨ht, -⟩ | ⟨ht, -⟩ <;> rw [ht] at hq <;> simp at hq
    · have hst := ((hS.books l).listed fd _ hl).2
      obtain rfl : cfg.clientLoop k = l := (hS.chans l _ hst).home
      have hch : (s.pursuit cfg k).chans n fd := hst
      rw [show (s.clients k).phase = _ from hO.phase_of_chan hch]
      exact ⟨nofun, nofun⟩
    · rw [(phase_of_rest hO hm).1]
      exact ⟨nofun, nofun⟩
  · rintro ⟨hi, ho⟩
    cases hp : (s.clients k).phase with
    | idle => exact absurd hp hi
    | ended => exact absurd hp ho
    | called t =>
      rw [show (s.pursuit cfg k).phase = _ from hp] at hh
      have htok : Token.run ∈ tokens k (s.stack t) := by
        rw [show tokens k (s.stack t) = _ from congrFun hh.1 t, Pursuit.only_self]
        exact List.mem_singleton_self _
      obtain ⟨f, hm, hf⟩ := mem_of_tokens htok
      rw [token_run hf] at hm
      exact .inl ⟨t, hm⟩
    | queued =>
      rw [show (s.pursuit cfg k).phase = _ from hp] at hh
      have hq : Task.connectorStart k ∈ (s.pursuit cfg k).tasks := by
        rcases hh.2.2.2 with ⟨ht, -⟩ | ⟨ht, -⟩ <;> rw [ht] <;> simp
      exact .inr (.inl (List.mem_filter.1 hq).1)
    | polling n fd =>
      rw [show (s.pursuit cfg k).phase = _ from hp] at hh
      have hst := (hh.2.1 n fd).2 ⟨rfl, rfl⟩
      exact .inr (.inr (.inl ⟨_, n, fd, (hS.books _).known (.connector k n fd) hst⟩))
    | judging fd =>
      rw [show (s.pursuit cfg k).phase = _ from hp] at hh
      have htok : Token.rest fd ∈ tokens k (s.stack (.loop (cfg.clientLoop k))) := by
        rw [show tokens k (s.stack _) = _ from congrFun hh.1 _, Pursuit.only_self]
        exact List.mem_singleton_self _
      obtain ⟨f, hm, hf⟩ := mem_of_tokens htok
      rw [token_rest hf] at hm
      exact .inr (.inr (.inr ⟨_, fd, hm⟩))

/-- `state_` is `kDisconnected` before `Start` and `kConnecting` after it. -/
def Client.Begun (x : Client) : Prop :=
  x.state = .disconnected ∧ x.phase = .idle ∨ x.state = .connecting ∧ x.phase ≠ .idle

theorem Try.begun {x y : Client} {es : List ConnectorEv} (h : x.Begun) (ht : Try x es y) :
    y.Begun := by
  have hne : x.phase ≠ .idle → x.state = .connecting := fun hp =>
    h.elim (fun h => absurd h.2 hp) And.left
  have hopen : x.phase = .queued ∨ (∃ u, x.phase = .called u) → x.phase ≠ .idle := by
    rintro (hp | ⟨u, hp⟩) <;> rw [hp] <;> nofun
  cases ht with
  | same hs hp _ _ =>
    unfold Client.Begun
    rw [hs, hp]
    exact h
  | called => exact .inr ⟨rfl, nofun⟩
  | queued hp => exact .inr ⟨hne (by rw [hp]; nofun), nofun⟩
  | attempt hp => exact .inr ⟨hne (hopen hp), nofun⟩
  | failed hp => exact .inr ⟨hne (hopen hp), nofun⟩
  | removed hp => exact .inr ⟨hne (by rw [hp]; nofun), nofun⟩
  | retry hp => exact .inr ⟨hne (by rw [hp]; nofun), nofun⟩
  | made hp => exact .inr ⟨hne (by rw [hp]; nofun), nofun⟩
  | reset hp =>
    have hp' : x.phase ≠ .idle := by rcases hp with hp | hp <;> rw [hp] <;> nofun
    exact .inr ⟨hne hp', hp'⟩

theorem begun_reach {P : Sys → Act → Prop} (h : Runs.Reach (step cfg) P (Sys.init cfg) s)
    (k : ClientId) : (s.clients k).Begun :=
  h.inv (I := fun s => (s.clients k).Begun) (.inl ⟨rfl, rfl⟩) fun _ _ _ hr hi _ hs =>
    (step_try (Inv.any hr) (pursuit_reach hr k) hs).begun hi

/-- What an attempt ends with. -/
def Ends (es : List ConnectorEv) : Prop :=
  es = [.noSocket] ∨ (∃ fd, es = [.created fd, .closed fd]) ∨ ∃ fd, es = [.soError 0, .handed fd]

theorem Try.ends {x y : Client} {es : List ConnectorEv} (ht : Try x es y) (hx : x.phase ≠ .ended)
    (hy : y.phase = .ended) : Ends es := by
  cases ht with
  | same _ hp _ _ => exact absurd (hp.symm.trans hy) hx
  | reset hp => exact absurd hy hx
  | failed _ _ he => exact he.imp_right .inl
  | made => exact .inr (.inr ⟨_, rfl⟩)
  | called | queued | attempt | removed | retry => cases hy

theorem startEvents_not_ends {n : Nat} (hp : KeepsTrying s (.thread t inp)) :
    ¬ Ends (startEvents n inp) := by
  unfold startEvents
  split
  · rename_i fd err stale
    rw [if_pos (show TcpConnector.goesOn _ = true from hp)]
    rintro (h | ⟨fd', h⟩ | ⟨fd', h⟩) <;> simp at h
  · exact hp.elim
  · rintro (h | ⟨fd, h⟩ | ⟨fd, h⟩) <;> cases h

theorem not_ends_nil : ¬ Ends [] := by rintro (h | ⟨fd, h⟩ | ⟨fd, h⟩) <;> cases h

theorem connectorEvents_not_ends {a : Act} (hp : KeepsTrying s a) :
    ¬ Ends (connectorEvents cfg k s a) := by
  unfold connectorEvents
  split
  · split
    · split
      · unfold Frame.connectorEvents
        split
        · split
          · exact startEvents_not_ends hp
          · exact not_ends_nil
        · split
          · split
            · exact startEvents_not_ends hp
            · exact not_ends_nil
          · split
            · rintro (h | ⟨fd, h⟩ | ⟨fd, h⟩) <;> simp at h
            · exact not_ends_nil
          · exact not_ends_nil
        · split
          · split
            · rintro (h | ⟨fd, h⟩ | ⟨fd, h⟩) <;> simp at h
            · exact not_ends_nil
          · exact not_ends_nil
        · split
          · rename_i e _
            split
            · rw [if_pos (show e ≠ 0 from hp)]
              rintro (h | ⟨fd, h⟩ | ⟨fd, h⟩) <;> simp at h
            · exact not_ends_nil
          · exact not_ends_nil
        · exact not_ends_nil
      · exact not_ends_nil
    · exact not_ends_nil
  · exact not_ends_nil

theorem trying_reach (h : Runs.Reach (step cfg) KeepsTrying (Sys.init cfg) s) (k : ClientId) :
    (s.clients k).phase ≠ .ended :=
  h.inv (I := fun s => (s.clients k).phase ≠ .ended) Phase.noConfusion fun _ _ _ hr hi hp hs ho =>
    connectorEvents_not_ends hp ((step_try (Inv.any hr) (pursuit_reach hr k) hs).ends hi ho)

/-- **The connector is not wedged.** In a run in which no attempt comes to an end, `state_` is
`kConnecting` only while one is in progress, and a `Connect` when none is starts one. -/
theorem connector_not_wedged (h : Runs.Reach (step cfg) KeepsTrying (Sys.init cfg) s)
    (k : ClientId) :
    ((s.clients k).state = .connecting → s.InProgress cfg k) ∧
      ∀ t r, s.failed = none → s.stack t = .api (.connect k) :: r → ¬ s.InProgress cfg k →
        ∃ s', step cfg s (.thread t (.cas false)) = some s' ∧ s'.InProgress cfg k := by
  have hiff := inProgress_iff (Inv.any h).sound (pursuit_reach h k)
  have hover := trying_reach h k
  have hbegun := begun_reach h k
  refine ⟨fun hc => hiff.2 ⟨fun hp => ?_, hover⟩, fun t r hf hs hnot => ?_⟩
  · rcases hbegun with ⟨hd, -⟩ | ⟨-, hne⟩
    · rw [hc] at hd
      cases hd
    · exact hne hp
  · have hd : (s.clients k).state = .disconnected := by
      rcases hbegun with ⟨hd, -⟩ | ⟨-, hne⟩
      · exact hd
      · exact absurd (hiff.2 ⟨hne, hover⟩) hnot
    refine ⟨(s.updClient k fun x => { x with state := .connecting, phase := .called t }).push t
      ([.connectorRun k] ++ r), ?_, .inl ⟨t, ?_⟩⟩
    · simp [step, hf, hs, exec, Api.run, TcpConnector.start, hd]
    · simp

/-- A client tries once and then again. -/
def sampleRetry : List Act :=
  [.thread (.loop 0) .ret, .thread (.user 7) (.call (.connect 0)), .thread (.user 7) (.cas false),
    .thread (.user 7) .none] ++
  loopActs [.poll [], .none, .connect (some 5) (some eInProgress) 0, .none,
    .poll [(5, pollOut)], .none, .none, .none, .soError eConnRefused]

theorem connector_not_wedged_sample :
    ∃ s, Runs.run (step .sample) (Sys.init .sample) sampleRetry = some s ∧
      (s.clients 0).state = .connecting ∧ s.InProgress .sample 0 := by
  have hrun : (Runs.run (step .sample) (Sys.init .sample) sampleRetry).map
      (fun s => (s.clients 0).state) = some .connecting := by decide +kernel
  obtain ⟨s, hs, hx, hr⟩ := Runs.Reach.of_map _ hrun (P := KeepsTrying) (by decide +kernel)
  exact ⟨s, hs, hx, (connector_not_wedged hr 0).1 hx⟩

/-- The connection of a client is refused at once. -/
def refusedRun : List Act :=
  [.thread (.loop 0) .ret, .thread (.user 7) (.call (.connect 0)), .thread (.user 7) (.cas false),
    .thread (.user 7) .none] ++
  loopActs [.poll [], .none, .connect (some 5) (some eConnRefused) 0, .none]

/-- The socket is closed and nothing else comes, but `state_` stays `kConnecting`: a `Connect` after
that does nothing. -/
theorem connector_wedged :
    ∃ s s', Runs.run (step .sample) (Sys.init .sample) refusedRun = some s ∧
      (s.clients 0).state = .connecting ∧ ¬ s.InProgress .sample 0 ∧
      (s.clients 0).connection = none ∧
      Runs.run (step .sample) s [.thread (.user 7) (.call (.connect 0)),
        .thread (.user 7) (.cas false)] = some s' ∧ ¬ s'.InProgress .sample 0 := by
  have hover : ∀ {as : List Act} {s : Sys}, Runs.run (step .sample) (Sys.init .sample) as = some s →
      (s.clients 0).phase = .ended → ¬ s.InProgress .sample 0 := fun hs hp hin => by
    have hr := Runs.Reach.of_run (P := fun _ _ => True) _ hs
      (Runs.admits_of_forall (fun _ _ => trivial) _ _)
    exact ((inProgress_iff (Inv.any hr).sound (pursuit_reach hr 0)).1 hin).2 hp
  have hrun : (Runs.run (step .sample) (Sys.init .sample) refusedRun).map
      (fun s => ((s.clients 0).state, (s.clients 0).phase, (s.clients 0).connection)) =
      some (.connecting, .ended, none) := by decide +kernel
  have hrun' : (Runs.run (step .sample) (Sys.init .sample) (refusedRun ++
      [.thread (.user 7) (.call (.connect 0)), .thread (.user 7) (.cas false)])).map
      (fun s => (s.clients 0).phase) = some .ended := by decide +kernel
  obtain ⟨s, hs, hx⟩ := Option.map_eq_some_iff.1 hrun
  obtain ⟨s', hs', hp'⟩ := Option.map_eq_some_iff.1 hrun'
  simp only [Prod.mk.injEq] at hx
  obtain ⟨hc, hp, hconn⟩ := hx
  have hnot' := hover hs' hp'
  rw [Runs.run_append, hs] at hs'
  exact ⟨s, s', hs, hc, hover hs hp, hconn, hs', hnot'⟩

end Liang.Net
