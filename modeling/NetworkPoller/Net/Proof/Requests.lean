import NetworkPoller.Net.Proof.Calls
import NetworkPoller.Net.Proof.Moves
import NetworkPoller.Net.Proof.Routine

/-!
# Requests made by an exchange

`Shutdown`, `ForceClose`, `TcpConnector::Start` and `TcpServer::Start` act on a request by one
`compare_exchange_weak` and what follows it; none of them tries again. Where no exchange fails
spuriously a request is kept: `request_queued` follows a call from its exchange to the functor it
queues, `StartCall` a call of `TcpConnector::Start` to the attempt it starts, and `Starting` the calls of
`TcpServer::Start` to the one that initialises the pool and queues `Listen`.

Main results: `force_close_effective` and `requests_kept`.
-/

namespace Liang.Net

open Base TcpConnection

variable {cfg : Cfg} {d : Discipline} {s s' s₀ s₁ s₂ : Sys} {t : Tid} {c : ConnId} {l : LoopId}
  {k : Task} {inp : Input} {f : Frame} {r gs : List Frame} {a : Act}

/-! ## What is queued stays queued -/

theorem step_enqueued (hI : Inv cfg d s) (h : step cfg s a = some s') (l : LoopId) :
    s.enqueued l <+: s'.enqueued l := by
  obtain ⟨es, he, -⟩ := (step_routine hI h).queued l
  exact he ▸ List.prefix_append ..

theorem reach_enqueued {P Q : Sys → Act → Prop} (h : Runs.Reach (step cfg) P (Sys.init cfg) s)
    (h' : Runs.Reach (step cfg) Q s s') (l : LoopId) : s.enqueued l <+: s'.enqueued l := by
  refine h'.inv (I := fun s' => s.enqueued l <+: s'.enqueued l) (List.prefix_refl _) ?_
  exact fun s₁ a s₂ hr hi _ hs => hi.trans (step_enqueued (Inv.any (h.join hr)) hs l)

theorem Sys.QueuedAt.mono {n : Nat} (h : s₀.QueuedAt t l k n s) (hp : s.enqueued l <+: s'.enqueued l) :
    s₀.QueuedAt t l k n s' := by
  refine ⟨h.1, ?_⟩
  obtain ⟨es, he⟩ := hp
  rw [← he, List.getElem?_append_left (List.getElem?_eq_some_iff.1 h.2).1]
  exact h.2

/-! ## From the exchange to the functor -/

/-- A call that is to queue `k`: it stands before an exchange that will succeed (`P`), it has the
functor in hand, or the functor is queued. -/
inductive Requesting (P : Frame → (ConnId → Conn) → Prop) (t : Tid) (l : LoopId) (k : Task) (s₀ s : Sys) :
    List Frame → Prop
  | called {f : Frame} (h : P f s.conns) : Requesting P t l k s₀ s [f]
  | going {gs : List Frame} (h : .queueInLoop l k ∈ gs) : Requesting P t l k s₀ s gs
  | queued {gs : List Frame} (h : ∃ n, s₀.QueuedAt t l k n s) : Requesting P t l k s₀ s gs

/-- **A request is queued by the time its call returns**, if the exchange it stands before is still
going to succeed after the steps of others (`hother`) and does (`hown`). -/
theorem request_queued {P : Frame → (ConnId → Conn) → Prop} {A : Sys → Act → Prop}
    (h : Runs.Reach (step cfg) A (Sys.init cfg) s₀) (hs : s₀.stack t = f :: r) (h0 : P f s₀.conns)
    {B : Sys → Act → Prop} (hin : ∀ s a, B s a → s.Inside t r.length)
    (hother : ∀ f s a s', Runs.Reach (step cfg) (fun _ _ => True) (Sys.init cfg) s → P f s.conns →
      B s a → (∀ inp, a ≠ .thread t inp) → step cfg s a = some s' → P f s'.conns)
    (hown : ∀ f s inp s₁ gs, P f s.conns → B s (.thread t inp) → exec cfg t inp s f = .ok s₁ gs →
      .queueInLoop l k ∈ gs ∨ ∃ g, gs = [g] ∧ P g s₁.conns)
    (hcall : Runs.Reach (step cfg) B s₀ s₁) (hret : s₁.stack t = r) :
    ∃ n, s₀.QueuedAt t l k n s₁ := by
  have hs' : s₀.stack t = [f] ++ r := hs
  obtain ⟨-, hR⟩ := call_reach
    (I := fun gs s => s₀.enqueued l <+: s.enqueued l ∧ Requesting P t l k s₀ s gs) hin h hs'
    ⟨List.prefix_refl _, .called h0⟩
    (fun gs s a s' hr hi hB ha hstep => by
      have hp := step_enqueued (Inv.any hr) hstep l
      refine ⟨hi.1.trans hp, ?_⟩
      cases hi.2 with
      | called h => exact .called (hother _ s a s' hr h hB ha hstep)
      | going h => exact .going h
      | queued h => exact .queued (h.imp fun n hn => hn.mono hp))
    (fun f gs s inp s₁ gs' hr hi hB hx hstep => by
      have hp := step_enqueued (Inv.any hr) hstep l
      refine ⟨hi.1.trans hp, ?_⟩
      obtain ⟨hpre, hR⟩ := hi
      generalize hg : f :: gs = fs at hR
      cases hR with
      | called h =>
        cases hg
        rw [List.append_nil]
        rcases hown _ s inp s₁ gs' h hB hx with hm | ⟨g, rfl, hg⟩
        · exact .going hm
        · exact .called hg
      | going hm =>
        subst hg
        rcases List.mem_cons.1 hm with rfl | hm
        · cases hx
          refine .queued ⟨(s.enqueued l).length, hpre.length_le, ?_⟩
          simp [Sys.push, Sys.queueInLoop]
        · exact .going (List.mem_append_right _ hm)
      | queued h => exact .queued (h.imp fun n hn => hn.mono hp))
    (fun gs s e hi => by
      refine ⟨hi.1, ?_⟩
      cases hi.2 with
      | called h => exact .called h
      | going h => exact .going h
      | queued h => exact .queued h) hcall hret
  generalize hg : ([] : List Frame) = fs at hR
  cases hR with
  | called => cases hg
  | going hm =>
    subst hg
    cases hm
  | queued h => exact h

/-! ## `ForceClose` -/

/-- A run of `ForceCloseInLoop` leaves the connection `DISCONNECTED`. -/
theorem forceCloseInLoop_disconnects (hT : (s.conns c).Timely) (he : s.Est c)
    (h : forceCloseInLoop cfg t c s = .ok s' gs) : (s'.conns c).state = .disconnected := by
  obtain ⟨-, h⟩ := Res.assert_ok h
  split at h
  · obtain ⟨-, p, -, rfl, rfl⟩ := closeHandler_ok h
    rw [Sys.closeConn_self]
  · rename_i hst
    cases h
    cases hs : (s.conns c).state with
    | disconnected => rfl
    | connecting => exact absurd (hT.1 hs) (not_not.2 he)
    | connected => exact absurd (.inl hs) hst
    | disconnecting => exact absurd (.inr hs) hst

theorem forceTask_disconnects {P : Sys → Act → Prop} {ks : List Task}
    (hr : Runs.Reach (step cfg) P (Sys.init cfg) s) (hq : s.queue l = .forceCloseInLoop c :: ks)
    (hx : exec cfg t inp s (.loopTasks l) = .ok s' gs) : (s'.conns c).state = .disconnected := by
  have hlive := ((Inv.any hr).sound.tasks l _ (hq ▸ List.mem_cons_self)).about c rfl
  simp only [exec, hq] at hx
  obtain ⟨gs', hx, -⟩ := Res.followedBy_ok hx
  exact forceCloseInLoop_disconnects (s := s.dequeue t l (.forceCloseInLoop c) ks)
    (timely_reach hr c) (hlive.resolve_left fun h => by cases h).1 hx

/-- What a run of `ForceCloseInLoop` adds to the trace. -/
theorem forceCloseInLoop_trace (h : forceCloseInLoop cfg t c s = .ok s' gs) :
    (s'.conns c).trace = (s.conns c).trace ∨
      (s.conns c).state ≠ .disconnected ∧ (s'.conns c).state = .disconnected ∧
        ∃ es, (s'.conns c).trace = (s.conns c).trace ++ .closeHandler :: es ∧ .closeHandler ∉ es := by
  obtain ⟨-, h⟩ := Res.assert_ok h
  split at h
  · rename_i hst
    obtain ⟨-, p, -, rfl, rfl⟩ := closeHandler_ok h
    rw [Sys.closeConn_self]
    refine .inr ⟨fun hd => ?_, rfl, if (s.conns c).statusCb then [.statusCb] else [], ?_, ?_⟩
    · rw [hd] at hst
      simp at hst
    · simp
    · split <;> simp
  · cases h
    exact .inl rfl

/-- `ForceCloseInLoop` closes an open connection, once. -/
theorem forcedCloses_ne_nil (h : forcedCloses cfg c s a ≠ []) (hstep : step cfg s a = some s') :
    (forcedCloses cfg c s a).length = 1 ∧ (s.conns c).state ≠ .disconnected ∧
      (s'.conns c).state = .disconnected := by
  unfold forcedCloses at h ⊢
  cases a with
  | thread t inp =>
    simp only [hstep] at h ⊢
    split at h
    · rename_i l r s₁ hs hs₁
      cases hs₁
      split at h
      · rename_i hhead
        rw [if_pos hhead]
        obtain ⟨ks, hq⟩ := List.head?_eq_some_iff.1 hhead
        rcases step_at hs hstep with ⟨gs, s₁, hx, rfl⟩ | ⟨e, -, rfl⟩
        · simp only [exec, hq] at hx
          obtain ⟨gs', hx, -⟩ := Res.followedBy_ok hx
          rcases forceCloseInLoop_trace (s := s.dequeue t l (.forceCloseInLoop c) ks) hx with
            htr | ⟨hopen, hcl, es, htr, hes⟩
          · rw [show ((s₁.push t (gs ++ r)).conns c).trace = (s.conns c).trace from htr,
              List.drop_length] at h
            exact absurd rfl h
          · refine ⟨?_, hopen, hcl⟩
            have hes' : es.filter (· = .closeHandler) = [] :=
              List.filter_eq_nil_iff.2 fun e he hc => hes (of_decide_eq_true hc ▸ he)
            rw [show ((s₁.push t (gs ++ r)).conns c).trace = (s.conns c).trace ++ .closeHandler :: es from htr]
            simp [hes']
        · rw [show (Sys.conns { s with failed := some e } c).trace = (s.conns c).trace from rfl,
            List.drop_length] at h
          exact absurd rfl h
      · exact absurd rfl h
    · exact absurd rfl h
  | _ => exact absurd rfl h

/-- `ForceCloseInLoop` enters `CloseHandler` once, since it leaves the connection `DISCONNECTED`. -/
theorem forced_once {P : Sys → Act → Prop} {L : List ConnEv}
    (h : Runs.Logged (step cfg) P (forcedCloses cfg c) (Sys.init cfg) L s) : L.length ≤ 1 := by
  have hI : L = [] ∨ L.length ≤ 1 ∧ (s.conns c).state = .disconnected := by
    refine h.inv (I := fun L s => L = [] ∨ L.length ≤ 1 ∧ (s.conns c).state = .disconnected)
      (.inl rfl) ?_
    intro L s a s' hr hi _ hstep
    by_cases hrep : forcedCloses cfg c s a = []
    · rw [hrep, List.append_nil]
      exact hi.imp_right fun ⟨hlen, hst⟩ => ⟨hlen, (step_forward hr hstep c).disconnected hst⟩
    · -- the connection is open, so that nothing has been reported yet
      obtain ⟨hone, hopen, hcl⟩ := forcedCloses_ne_nil hrep hstep
      obtain rfl : L = [] := hi.resolve_right fun ⟨_, hst⟩ => hopen hst
      exact .inr ⟨Nat.le_of_eq hone, hcl⟩
  rcases hI with rfl | ⟨hlen, -⟩
  · exact Nat.zero_le _
  · exact hlen

/-- A `ForceCloseInLoop` that has run has left the connection `DISCONNECTED`. -/
theorem forced_disconnected {P : Sys → Act → Prop} (h : Runs.Reach (step cfg) P (Sys.init cfg) s)
    {T : Tid} (hm : (T, .forceCloseInLoop c) ∈ s.executed l) : (s.conns c).state = .disconnected := by
  revert hm
  refine h.inv (I := fun s => (T, .forceCloseInLoop c) ∈ s.executed l →
    (s.conns c).state = .disconnected) (fun hm => absurd hm List.not_mem_nil) ?_
  intro s a s' hr hi _ hstep hm
  have hI : Inv cfg .any s := Inv.any hr
  by_cases hex : s'.executed l = s.executed l
  · exact (step_forward hr hstep c).disconnected (hi (hex ▸ hm))
  · obtain ⟨inp, rfl, hs⟩ := (step_confined hI hstep).executed l hex
    rcases step_at hs hstep with ⟨gs, s₁, hx, rfl⟩ | ⟨e, -, rfl⟩
    · obtain ⟨s₂, hs₂, hsafe⟩ := tasks_safe inp hI hs
      rw [hx] at hsafe
      have hex' : s₁.executed l = s₂.executed l := by rw [hsafe.executed]
      rcases hs₂ with rfl | ⟨k, ks, hq, rfl⟩
      · exact absurd hex' hex
      · -- the functor just run is the last of those that have
        have hm : (T, .forceCloseInLoop c) ∈ s₁.executed l := hm
        rw [hex', show (s.dequeue (.loop l) l k ks).executed l = s.executed l ++ [(.loop l, k)] from
          Function.update_self ..] at hm
        rcases List.mem_append.1 hm with hm | hm
        · exact (step_forward hr hstep c).disconnected (hi hm)
        · cases List.mem_singleton.1 hm
          exact show (s₁.conns c).state = _ from forceTask_disconnects hr hq hx
    · exact absurd rfl hex

/-- The functor number `n` of a loop has run. -/
theorem executed_of_queuedAt {P : Sys → Act → Prop} {n : Nat}
    (h : Runs.Reach (step cfg) P (Sys.init cfg) s) (hq : s₀.QueuedAt t l k n s)
    (hn : n < (s.executed l).length) : ∃ T, (T, k) ∈ s.executed l := by
  have horder := (Fifo.reach h).order l
  have hk : ((s.enqueued l).map (·.2))[n]? = some k := by rw [List.getElem?_map, hq.2]; rfl
  rw [← horder, List.getElem?_append_left (by rwa [List.length_map]), List.getElem?_map,
    Option.map_eq_some_iff] at hk
  obtain ⟨⟨T, k'⟩, he, rfl⟩ := hk
  exact ⟨T, List.mem_of_getElem? he⟩

/-- What a `ForceClose` on a connection that is `CONNECTED` or `DISCONNECTING` stands before: an
exchange that succeeds, or one that leaves the second to succeed. -/
def ForcesClose (c : ConnId) (f : Frame) (x : ConnId → Conn) : Prop :=
  f = .api (.forceClose c) ∨ f = .forceCloseAgain c ∧ (x c).state ≠ .connected

/-- The exchange queues the functor or leaves it to the second. -/
theorem ForcesClose.exchange (h : ForcesClose c f s.conns) (hsp : NoSpurious s (.thread t inp))
    (hst : (s.conns c).state = .connected ∨ (s.conns c).state = .disconnecting)
    (hx : exec cfg t inp s f = .ok s₁ gs) :
    .queueInLoop c.loop (.forceCloseInLoop c) ∈ gs ∨ ∃ g, gs = [g] ∧ ForcesClose c g s₁.conns := by
  rcases h with rfl | ⟨rfl, hne⟩
  · simp only [exec, Api.run, forceClose] at hx
    split at hx
    · rename_i spurious
      cases spurious with
      | true => exact absurd hsp id
      | false =>
        split at hx
        · cases hx
          exact .inl (by simp)
        · rename_i hc
          cases hx
          exact .inr ⟨_, rfl, .inr ⟨rfl, fun hst => hc ⟨rfl, hst⟩⟩⟩
    · cases hx
  · simp only [exec, forceCloseAgain] at hx
    split at hx
    · rename_i spurious
      cases spurious with
      | true => exact absurd hsp id
      | false =>
        rw [if_pos ⟨rfl, hst.resolve_left hne⟩] at hx
        cases hx
        exact .inl (by simp)
    · cases hx

/-- **`ForceClose` is idempotent and effective.** Where no exchange fails spuriously:
`ForceCloseInLoop` enters `CloseHandler` on a connection once at most in a whole run; a call of
`ForceClose`, from `s₀` to its return in `s₁`, during which the connection is always `CONNECTED` or
`DISCONNECTING`, queues `ForceCloseInLoop`; and when that functor has run the connection is
`DISCONNECTED`. -/
theorem force_close_effective (cfg : Cfg) (c : ConnId) :
    (∀ L s, Runs.Logged (step cfg) NoSpurious (forcedCloses cfg c) (Sys.init cfg) L s → L.length ≤ 1) ∧
    ∀ s₀ s₁ t r, Runs.Reach (step cfg) NoSpurious (Sys.init cfg) s₀ →
      s₀.stack t = .api (.forceClose c) :: r →
      Runs.Reach (step cfg) (fun s a => NoSpurious s a ∧ s.Inside t r.length ∧
        ((s.conns c).state = .connected ∨ (s.conns c).state = .disconnecting)) s₀ s₁ →
      s₁.stack t = r →
      ∃ n, s₀.QueuedAt t c.loop (.forceCloseInLoop c) n s₁ ∧
        ∀ s₂, Runs.Reach (step cfg) NoSpurious s₁ s₂ → n < (s₂.executed c.loop).length →
          (s₂.conns c).state = .disconnected := by
  refine ⟨fun L s h => forced_once h, fun s₀ s₁ t r h hs hcall hret => ?_⟩
  obtain ⟨n, hn⟩ : ∃ n, s₀.QueuedAt t c.loop (.forceCloseInLoop c) n s₁ := by
    refine request_queued (P := ForcesClose c) h hs (.inl rfl) (fun _ _ hB => hB.2.1) ?_ ?_ hcall hret
    · intro f s a s' hr hP hB _ hstep
      refine hP.imp_right fun ⟨hf, hne⟩ => ⟨hf, fun hst => ?_⟩
      have hrank := (step_forward hr hstep c).state
      rw [hst, hB.2.2.resolve_left hne] at hrank
      exact absurd hrank (by decide)
    · intro f s inp s₁ gs hP hB hx
      exact hP.exchange hB.1 hB.2.2 hx
  refine ⟨n, hn, fun s₂ h₂ hlt => ?_⟩
  have hr := (h.join hcall).join h₂
  obtain ⟨T, hm⟩ := executed_of_queuedAt hr (hn.mono (reach_enqueued (h.join hcall) h₂ c.loop)) hlt
  exact forced_disconnected hr hm

/-- A user's thread calls the function. -/
def sampleRequest (api : Api) : List Act := sampleStart ++ callActs [.call api]

/-- The call queues the functor twice; then the loop runs both. -/
def sampleForce : List Act × List Act :=
  (callActs [.cas false, .none, .cas false, .none],
    loopActs [.poll [], .none, .none, .ret, .none, .none, .poll [], .none, .none, .none])

theorem force_close_effective_sample :
    ∃ s s₁ s₂, Runs.run (step .sample) (Sys.init .sample) (sampleRequest (.forceClose sampleConn)) =
        some s ∧
      Runs.run (step .sample) s sampleForce.1 = some s₁ ∧
      s₁.queue 0 = [.forceCloseInLoop sampleConn, .forceCloseInLoop sampleConn] ∧
      Runs.run (step .sample) s₁ sampleForce.2 = some s₂ ∧
      (s₂.conns sampleConn).state = .disconnected := by
  have hrun : ((Runs.run (step .sample) (Sys.init .sample)
      (sampleRequest (.forceClose sampleConn))).bind fun s =>
      (Runs.run (step .sample) s sampleForce.1).bind fun s₁ =>
      (Runs.run (step .sample) s₁ sampleForce.2).map fun s₂ =>
        ((s.stack (.user 7), s₁.stack (.user 7), s₁.queue 0),
          ((s₁.enqueued 0).length, (s₂.executed 0).length),
          decide (Runs.Admits (step .sample) (fun s a => NoSpurious s a ∧ s.Inside (.user 7) 1 ∧
            ((s.conns sampleConn).state = .connected ∨ (s.conns sampleConn).state = .disconnecting))
            s sampleForce.1),
          decide (Runs.Admits (step .sample) NoSpurious (Sys.init .sample)
            (sampleRequest (.forceClose sampleConn))),
          decide (Runs.Admits (step .sample) NoSpurious s₁ sampleForce.2))) =
      some (([.api (.forceClose sampleConn), .user none], [.user none],
        [.forceCloseInLoop sampleConn, .forceCloseInLoop sampleConn]), (4, 4), true, true, true) := by
    decide +kernel
  obtain ⟨s, hs, hrun⟩ := Option.bind_eq_some_iff.1 hrun
  obtain ⟨s₁, hs₁, hrun⟩ := Option.bind_eq_some_iff.1 hrun
  obtain ⟨s₂, hs₂, hx⟩ := Option.map_eq_some_iff.1 hrun
  simp only [Prod.mk.injEq, decide_eq_true_eq] at hx
  obtain ⟨⟨hstack, hret, hq⟩, ⟨hlen, hlen'⟩, hcall, hadm, hadm'⟩ := hx
  obtain ⟨n, hn, heff⟩ := (force_close_effective .sample sampleConn).2 s s₁ (.user 7) [.user none]
    (.of_run _ hs hadm) hstack (.of_run _ hs₁ hcall) hret
  have hlt : n < (s₂.executed 0).length := by
    have hlt : n < (s₁.enqueued 0).length := (List.getElem?_eq_some_iff.1 hn.2).1
    omega
  exact ⟨s, s₁, s₂, hs, hs₁, hq, hs₂, heff s₂ (.of_run _ hs₂ hadm') hlt⟩

/-! ## `TcpConnector::Start` -/

theorem update_client_state {q : ClientId → Client} {k j : ClientId} {x : Client}
    (hx : x.state = (q k).state) : (Function.update q k x j).state = (q j).state := by
  by_cases hj : j = k
  · subst hj
    rw [Function.update_self, hx]
  · rw [Function.update_of_ne hj]

theorem startInLoop_state {k j : ClientId} (h : TcpConnector.startInLoop cfg t k inp s = .ok s' gs) :
    (s'.clients j).state = (s.clients j).state := by
  obtain ⟨-, -, hst⟩ := startInLoop_ok h
  cases hst with
  | polling | closed | noSocket => exact update_client_state rfl

/-- Only the exchange of `Start` changes the state of a connector. -/
theorem exec_client_state {j : ClientId} (hI : Inv cfg d s) (hs : s.stack t = f :: r)
    (h : exec cfg t inp s f = .ok s' gs) :
    (s'.clients j).state = (s.clients j).state ∨
      f = .api (.connect j) ∧ inp = .cas false ∧ (s.clients j).state = .disconnected := by
  by_cases hk : f.OfClient s
  swap
  · exact .inl (by rw [(exec_moves hI hs hk h).clients])
  cases f with
  | connectorRun k =>
    refine .inl ?_
    simp only [exec, TcpConnector.startRest] at h
    split at h
    · exact startInLoop_state h
    · cases h
      exact update_client_state rfl
  | writeEventHandler k =>
    obtain ⟨-, n, fd, p, p', -, -, -, -, rfl⟩ := writeEventHandler_ok h
    exact .inl (update_client_state rfl)
  | writeEventRest k fd =>
    rcases writeEventRest_ok h with ⟨e, -, -, -, rfl⟩ | ⟨-, -, p, -, -, rfl⟩
    · exact .inl (update_client_state rfl)
    · exact .inl (update_client_state rfl)
  | api a =>
    cases a with
    | connect k =>
      simp only [exec, Api.run, TcpConnector.start] at h
      split at h
      · rename_i spurious
        split at h
        · rename_i hc
          obtain ⟨rfl, hc⟩ := hc
          cases h
          by_cases hj : j = k
          · subst hj
            exact .inr ⟨rfl, rfl, hc⟩
          · exact .inl (by rw [Sys.updClient_of_ne _ hj])
        · cases h
          exact .inl rfl
      · cases h
    | _ => exact hk.elim
  | closeCb c =>
    simp only [exec] at h
    split at h
    · rename_i ho
      exact absurd ho hk
    · obtain ⟨-, h⟩ := Res.assert_ok h
      obtain ⟨-, h⟩ := Res.assert_ok h
      cases h
      exact .inl (update_client_state rfl)
  | loopTasks l =>
    simp only [exec] at h
    split at h
    · rename_i hq
      simp [Frame.OfClient, hq] at hk
    · rename_i k ks hq
      obtain ⟨gs', h, -⟩ := Res.followedBy_ok h
      cases k with
      | connectorStart k => exact .inl (startInLoop_state (s := s.dequeue t l _ ks) h)
      | connectorReset k =>
        cases h
        exact .inl (update_client_state rfl)
      | _ => simp [Frame.OfClient, hq] at hk
  | _ => exact hk.elim

theorem step_client_state {j : ClientId} (hI : Inv cfg d s) (h : step cfg s a = some s')
    (hne : (s'.clients j).state ≠ (s.clients j).state) :
    ∃ t inp, a = .thread t inp ∧ (s.clients j).state = .disconnected ∧
      (s'.clients j).state = .connecting ∧ .connectorRun j ∈ s'.stack t := by
  rcases step_cases h with ⟨t, inp, f, r, gs, s₁, rfl, hs, hx, rfl⟩ | ⟨t, inp, f, r, e, -, -, -, rfl⟩ |
    ⟨c', -, -, -, rfl⟩ | ⟨n, -, -, rfl⟩ | ⟨n, -, -, rfl⟩
  · obtain ⟨rfl, rfl, hst⟩ := (exec_client_state hI hs hx).resolve_left hne
    simp only [exec, Api.run, TcpConnector.start, if_pos (And.intro trivial hst)] at hx
    cases hx
    refine ⟨t, _, rfl, hst, ?_, ?_⟩
    · simp [Sys.push, Sys.updClient]
    · rw [Sys.push_self]
      exact List.mem_cons_self
  all_goals exact absurd rfl hne

/-- `Start` after its exchange: `StartInLoop` is run here or queued. -/
theorem startRest_ok {k : ClientId} (h : TcpConnector.startRest cfg t k inp s = .ok s' gs) :
    (TcpConnector.startInLoop cfg t k inp s = .ok s' [] ∨
      s'.enqueued (cfg.clientLoop k) = s.enqueued (cfg.clientLoop k) ++ [(t, .connectorStart k)]) ∧
      gs = [] := by
  unfold TcpConnector.startRest at h
  split at h
  · obtain ⟨-, rfl, -⟩ := startInLoop_ok h
    exact ⟨.inl h, rfl⟩
  · cases h
    exact ⟨.inr (by simp [Sys.queueInLoop, Sys.updClient]), rfl⟩

/-- A call of `Start` on its way: it has started an attempt, it stands before `RunInLoop`, or before an
exchange that is going to succeed. -/
inductive StartCall (cfg : Cfg) (k : ClientId) (t : Tid) (s₀ : Sys) (L : List (Sys × Act)) (s : Sys) :
    List Frame → Prop
  | started {gs : List Frame} (h : StartsAttempt cfg k t s₀ L s) : StartCall cfg k t s₀ L s gs
  | won : StartCall cfg k t s₀ L s [.connectorRun k]
  | called (h : (s.clients k).state = .disconnected) : StartCall cfg k t s₀ L s [.api (.connect k)]

theorem StartsAttempt.mono {k : ClientId} {L : List (Sys × Act)} (h : StartsAttempt cfg k t s₀ L s)
    (hp : s.enqueued (cfg.clientLoop k) <+: s'.enqueued (cfg.clientLoop k)) (x : Sys × Act) :
    StartsAttempt cfg k t s₀ (L ++ [x]) s' := by
  rcases h with ⟨n, hn⟩ | ⟨s, inp, s', r, hm, h⟩ | ⟨u, hu, s, inp, s', hm, h⟩
  · exact .inl ⟨n, hn.mono hp⟩
  · exact .inr (.inl ⟨s, inp, s', r, List.mem_append_left _ hm, h⟩)
  · exact .inr (.inr ⟨u, hu, s, inp, s', List.mem_append_left _ hm, h⟩)

/-- The step of another thread; it may be the exchange of a `Start` that comes before this one's. -/
theorem StartCall.other {k : ClientId} {L : List (Sys × Act)} (h : StartCall cfg k t s₀ L s gs)
    (hI : Inv cfg d s) (ha : ∀ inp, a ≠ .thread t inp) (hstep : step cfg s a = some s') :
    StartCall cfg k t s₀ (L ++ [(s, a)]) s' gs := by
  cases h with
  | started h => exact .started (h.mono (step_enqueued hI hstep _) _)
  | won => exact .won
  | called hst =>
    by_cases hst' : (s'.clients k).state = (s.clients k).state
    · exact .called (hst'.trans hst)
    · obtain ⟨u, inp, rfl, hwon⟩ := step_client_state hI hstep hst'
      have hu : u ≠ t := fun hu => ha inp (by rw [hu])
      exact .started (.inr (.inr ⟨u, hu, s, inp, s',
        List.mem_append_right _ (List.mem_singleton_self _), hstep, hwon⟩))

/-- A step of the call: the exchange, which succeeds, then `RunInLoop`. -/
theorem StartCall.own {k : ClientId} {L : List (Sys × Act)} {gs' : List Frame}
    (h : StartCall cfg k t s₀ L s (f :: gs)) (hI : Inv cfg d s) (hsp : NoSpurious s (.thread t inp))
    (hpre : s₀.enqueued (cfg.clientLoop k) <+: s.enqueued (cfg.clientLoop k))
    (hx : exec cfg t inp s f = .ok s₁ gs')
    (hstep : step cfg s (.thread t inp) = some (s₁.push t r)) :
    StartCall cfg k t s₀ (L ++ [(s, .thread t inp)]) (s₁.push t r) (gs' ++ gs) := by
  generalize hg : f :: gs = fs at h
  cases h with
  | started h => exact .started (h.mono (step_enqueued hI hstep _) _)
  | won =>
    cases hg
    obtain ⟨hran | hq, rfl⟩ := startRest_ok hx
    · exact .started (.inr (.inl ⟨s, inp, s₁, _,
        List.mem_append_right _ (List.mem_singleton_self _), hran, hstep⟩))
    · refine .started (.inl ⟨(s.enqueued (cfg.clientLoop k)).length, hpre.length_le, ?_⟩)
      rw [show (s₁.push t _).enqueued _ = _ from hq, List.getElem?_concat_length]
  | called hst =>
    cases hg
    simp only [exec, Api.run, TcpConnector.start] at hx
    split at hx
    · rename_i spurious
      cases spurious with
      | true => exact absurd hsp id
      | false =>
        rw [if_pos ⟨rfl, hst⟩] at hx
        cases hx
        exact .won
    · cases hx

/-- **A `Start` that finds the connector disconnected starts an attempt.** -/
theorem start_attempts {A B : Sys → Act → Prop} {k : ClientId} {L : List (Sys × Act)}
    (h : Runs.Reach (step cfg) A (Sys.init cfg) s₀) (hs : s₀.stack t = .api (.connect k) :: r)
    (hst : (s₀.clients k).state = .disconnected) (hsp : ∀ s a, B s a → NoSpurious s a)
    (hin : ∀ s a, B s a → s.Inside t r.length)
    (hcall : Runs.Logged (step cfg) B (fun s a => [(s, a)]) s₀ L s₁) (hret : s₁.stack t = r) :
    StartsAttempt cfg k t s₀ L s₁ := by
  have hs' : s₀.stack t = [.api (.connect k)] ++ r := hs
  obtain ⟨-, hi⟩ := call_inv
    (I := fun L gs s => s₀.enqueued (cfg.clientLoop k) <+: s.enqueued (cfg.clientLoop k) ∧
      StartCall cfg k t s₀ L s gs) hin h hs' ⟨List.prefix_refl _, .called hst⟩
    (fun L gs s a s' hr _ hi _ ha hstep =>
      ⟨hi.1.trans (step_enqueued (Inv.any hr) hstep _), hi.2.other (Inv.any hr) ha hstep⟩)
    (fun L f gs s inp s₁ gs' hr _ hi hB hx hstep =>
      ⟨hi.1.trans (step_enqueued (Inv.any hr) hstep _),
        hi.2.own (Inv.any hr) (hsp _ _ hB) hi.1 hx hstep⟩)
    (fun L f gs s inp e _ _ hi _ => by
      refine ⟨hi.1, ?_⟩
      generalize f :: gs = fs at hi
      cases hi.2 with
      | started h => exact .started (h.mono (List.prefix_refl _) _)
      | won => exact .won
      | called hst => exact .called hst) hcall hret
  generalize hg : ([] : List Frame) = fs at hi
  cases hi with
  | started h => exact h
  | won | called => cases hg

/-! ## `TcpServer::Start` -/

/-- Nobody has started the server, one `Start` has won and is to initialise the pool, or it has and
`Listen` is queued. -/
inductive Starting (cfg : Cfg) (s : Sys) : Prop
  | fresh (hs : s.started = false) (hf : ∀ t, .startPool ∉ s.stack t) (hi : s.initialized = [])
      (hl : s.listens cfg = 0)
  | won (t : Tid) (hs : s.started = true) (hf : (s.stack t).count .startPool = 1)
      (ho : ∀ t', t' ≠ t → .startPool ∉ s.stack t') (hi : s.initialized = []) (hl : s.listens cfg = 0)
  | done (t : Tid) (hs : s.started = true) (hf : ∀ t, .startPool ∉ s.stack t) (hi : s.initialized = [t])
      (hq : (t, .listen) ∈ s.enqueued cfg.serverLoop) (hl : s.listens cfg = 1)

theorem notable_listen (h : (f.notable s).tasks .listen) : f = .startPool := by
  unfold Frame.notable at h
  split at h
  · rfl
  · cases h
  · exact h.elim
  · exact h.elim
  · split at h
    · cases h
    · exact h.elim
  · exact h.elim

theorem notable_start (h : (f.notable s).start) : f = .api .start := by
  unfold Frame.notable at h
  split at h
  · exact h.elim
  · exact h.elim
  · exact h.elim
  · rfl
  · split at h <;> exact h.elim
  · exact h.elim

namespace Starting

/-- The stacks hold the frame of `Start` where they did. -/
theorem of_same (h : Starting cfg s) (hs : s'.started = s.started)
    (hf : ∀ t, (s'.stack t).count .startPool = (s.stack t).count .startPool)
    (hi : s'.initialized = s.initialized) (hl : s'.listens cfg = s.listens cfg)
    (hq : s.enqueued cfg.serverLoop <+: s'.enqueued cfg.serverLoop) : Starting cfg s' := by
  have hmem : ∀ t, .startPool ∉ s.stack t → .startPool ∉ s'.stack t := fun t hn => by
    rw [← List.count_eq_zero] at hn ⊢
    rw [hf, hn]
  cases h with
  | fresh h1 h2 h3 h4 => exact .fresh (hs ▸ h1) (fun t => hmem t (h2 t)) (hi ▸ h3) (hl ▸ h4)
  | won t h1 h2 h3 h4 h5 =>
    exact .won t (hs ▸ h1) (hf t ▸ h2) (fun t' ht => hmem t' (h3 t' ht)) (hi ▸ h4) (hl ▸ h5)
  | done t h1 h2 h3 h4 h5 =>
    exact .done t (hs ▸ h1) (fun t => hmem t (h2 t)) (hi ▸ h3) (hq.subset h4) (hl ▸ h5)

/-- The exchange of a `Start`. -/
theorem exchange (h : Starting cfg s) (hs : s.stack t = .api .start :: r)
    (hx : TcpServer.start inp s = .ok s₁ gs) : Starting cfg (s₁.push t (gs ++ r)) := by
  have hpop : Starting cfg (s.push t r) := by
    refine h.of_same rfl (fun t' => ?_) rfl rfl (List.prefix_refl _)
    by_cases ht : t' = t
    · subst ht
      rw [Sys.push_self, hs, List.count_cons_of_ne (by simp)]
    · rw [Sys.push_of_ne _ ht]
  unfold TcpServer.start at hx
  split at hx
  · split at hx
    · rename_i hc
      cases hx
      cases h with
      | fresh h1 h2 h3 h4 =>
        refine .won t rfl ?_ (fun t' ht => ?_) h3 h4
        · have hr : .startPool ∉ r := fun hm => h2 t (hs ▸ List.mem_cons_of_mem _ hm)
          rw [Sys.push_self]
          show List.count Frame.startPool (.startPool :: r) = 1
          rw [List.count_cons_self, List.count_eq_zero_of_not_mem hr]
        · rw [Sys.push_of_ne _ ht]
          exact h2 t'
      | won _ h1 => rw [h1] at hc; cases hc.2
      | done _ h1 => rw [h1] at hc; cases hc.2
    · cases hx
      exact hpop
  · cases hx

/-- The winner initialises the pool and queues `Listen`. -/
theorem finish (h : Starting cfg s) (hs : s.stack t = .startPool :: r)
    (hx : TcpServer.startPool cfg t s = .ok s₁ gs) : Starting cfg (s₁.push t (gs ++ r)) := by
  have hm : .startPool ∈ s.stack t := hs ▸ List.mem_cons_self
  cases hx
  cases h with
  | fresh _ h2 => exact absurd hm (h2 t)
  | won u h1 h2 h3 h4 h5 =>
    obtain rfl : t = u := by
      by_contra ht
      exact h3 t ht hm
    refine .done t h1 (fun t' => ?_) ?_ ?_ ?_
    · by_cases ht : t' = t
      · subst ht
        rw [hs, List.count_cons_self] at h2
        rw [Sys.push_self]
        exact List.count_eq_zero.1 (by rw [List.nil_append]; omega)
      · rw [Sys.push_of_ne _ ht]
        exact h3 t' ht
    · show s.initialized ++ [t] = [t]
      rw [h4, List.nil_append]
    · simp [Sys.push, Sys.queueInLoop]
    · simp only [Sys.listens] at h5
      simp [Sys.listens, Sys.push, Sys.queueInLoop, h5]
  | done _ _ h2 => exact absurd hm (h2 t)

theorem step (hI : Inv cfg .any s) (h : Starting cfg s) (hstep : Net.step cfg s a = some s') :
    Starting cfg s' := by
  rcases step_cases hstep with ⟨t, inp, f, r, gs, s₁, rfl, hs, hx, rfl⟩ |
    ⟨t, inp, f, r, e, -, -, -, rfl⟩ | ⟨c', -, -, -, rfl⟩ | ⟨n, -, -, rfl⟩ | ⟨n, -, -, rfl⟩
  · by_cases hf : f = .startPool
    · subst hf
      exact h.finish hs hx
    by_cases hf' : f = .api .start
    · subst hf'
      exact h.exchange hs hx
    obtain ⟨hR, hgs⟩ := exec_routine hI hs _ _ hx
    have hstart : (s₁.push t (gs ++ r)).started = s.started :=
      hR.started.resolve_right fun hv => hf' (notable_start hv)
    have hlist : (s₁.push t (gs ++ r)).listens cfg = s.listens cfg :=
      hR.count rfl (fun hv => hf (notable_listen hv)) _
    have hinit : (s₁.push t (gs ++ r)).initialized = s.initialized :=
      hR.initialized.resolve_right fun hv => hf (notable_listen hv)
    refine h.of_same hstart (fun t' => ?_) hinit hlist (step_enqueued hI hstep _)
    by_cases ht : t' = t
    · subst ht
      have hgs : .startPool ∉ gs := fun hm => hf' (notable_start (hgs hm))
      rw [Sys.push_self, hs, List.count_append, List.count_eq_zero_of_not_mem hgs, Nat.zero_add,
        List.count_cons_of_ne hf]
    · have hst : (s₁.push t (gs ++ r)).stack t' = s.stack t' :=
        step_other (t := t') (I := fun s' => s'.stack t' = s.stack t') hI rfl
          (fun u s₁ s₂ hu hi he => (he.stack_of_ne hu.symm).trans hi)
          (fun inp' ha => ht (by cases ha; rfl)) hstep
      rw [hst]
  all_goals exact h.of_same rfl (fun _ => rfl) rfl rfl (List.prefix_refl _)

theorem reach {P : Sys → Act → Prop} (h : Runs.Reach (Net.step cfg) P (Sys.init cfg) s) :
    Starting cfg s := by
  refine h.inv (.fresh rfl (fun t hm => ?_) rfl rfl) fun s a s' hr hi _ hs => hi.step (Inv.any hr) hs
  rcases mem_init_stack hm with h | ⟨l, -, h⟩ <;> cases h

theorem once (h : Starting cfg s) : s.listens cfg = s.initialized.length ∧ s.initialized.length ≤ 1 := by
  cases h with
  | fresh _ _ hi hl => exact ⟨by rw [hi, hl]; rfl, by rw [hi]; exact Nat.zero_le _⟩
  | won _ _ _ _ hi hl => exact ⟨by rw [hi, hl]; rfl, by rw [hi]; exact Nat.zero_le _⟩
  | done _ _ _ hi _ hl => exact ⟨by rw [hi, hl]; rfl, by rw [hi]; exact Nat.le_refl _⟩

theorem none_left (h : Starting cfg s) (hi : s.initialized ≠ []) : ∀ u, .startPool ∉ s.stack u := by
  cases h with
  | fresh _ _ h => exact absurd h hi
  | won _ _ _ _ h => exact absurd h hi
  | done _ _ hf => exact hf

end Starting

/-- A server that is started stays so. -/
theorem step_started (hI : Inv cfg .any s) (hs : s.started = true) (h : step cfg s a = some s') :
    s'.started = true := by
  obtain ⟨t, hes, -⟩ := step_effects hI Discipline.any_allows h
  refine (Inv.effects (I := fun s => s.started = true) (fun s s' _ hs he => ?_) hI hs hes).2
  cases he with
  | start => rfl
  | attempt hs' => cases hs' <;> exact hs
  | attemptFailed hs' => cases hs' <;> exact hs
  | _ => exact hs

/-- A `Start` that has returned leaves the server started. -/
theorem start_started {A B : Sys → Act → Prop} (h : Runs.Reach (step cfg) A (Sys.init cfg) s₀)
    (hs : s₀.stack t = .api .start :: r) (hsp : ∀ s a, B s a → NoSpurious s a)
    (hin : ∀ s a, B s a → s.Inside t r.length) (hcall : Runs.Reach (step cfg) B s₀ s₁)
    (hret : s₁.stack t = r) : s₁.started = true := by
  have hs' : s₀.stack t = [.api .start] ++ r := hs
  have hi := call_reach (I := fun gs s => s.started = true ∨ gs = [.api .start]) hin h hs' (.inr rfl)
    (fun gs s a s' hr hi _ _ hstep => hi.imp_left fun hst => step_started (Inv.any hr) hst hstep)
    (fun f gs s inp s₁ gs' hr hi hB hx hstep => by
      rcases hi with hst | hg
      · exact .inl (step_started (Inv.any hr) hst hstep)
      · cases hg
        refine .inl ?_
        simp only [exec, Api.run, TcpServer.start] at hx
        split at hx
        · rename_i spurious
          cases spurious with
          | true => exact absurd (hsp _ _ hB) id
          | false =>
            split at hx
            · cases hx
              rfl
            · rename_i hc
              cases hx
              show s.started = true
              cases hst : s.started with
              | true => rfl
              | false => exact absurd ⟨rfl, hst⟩ hc
        · cases hx)
    (fun _ _ _ hi => hi) hcall hret
  exact hi.resolve_right fun hg => by cases hg

/-! ## No request is lost -/

/-- The state of `c` stays as it is while `t` does not run. -/
def KeptByOthers (cfg : Cfg) (c : ConnId) (t : Tid) (s : Sys) (a : Act) : Prop :=
  ¬ a.By t → ∀ s', step cfg s a = some s' → (s'.conns c).state = (s.conns c).state

/-- A request whose exchange is from `CONNECTED` is queued. -/
theorem exchange_queued {A B : Sys → Act → Prop} (h : Runs.Reach (step cfg) A (Sys.init cfg) s₀)
    (hs : s₀.stack t = f :: r) (hst : (s₀.conns c).state = .connected)
    (hB : ∀ s a, B s a → NoSpurious s a ∧ s.Inside t r.length ∧ KeptByOthers cfg c t s a)
    (hf : ∀ s s₁ gs, (s.conns c).state = .connected → exec cfg t (.cas false) s f = .ok s₁ gs →
      .queueInLoop l k ∈ gs)
    (hcas : ∀ inp s s₁ gs, exec cfg t inp s f = .ok s₁ gs → ∃ b, inp = .cas b)
    (hcall : Runs.Reach (step cfg) B s₀ s₁) (hret : s₁.stack t = r) :
    ∃ n, s₀.QueuedAt t l k n s₁ := by
  refine request_queued (P := fun g x => g = f ∧ (x c).state = .connected) h hs ⟨rfl, hst⟩
    (fun s a hb => (hB s a hb).2.1) ?_ ?_ hcall hret
  · intro g s a s' _ hP hb ha hstep
    have hby : ¬ a.By t := fun hby => by
      cases a with
      | thread u inp => exact ha inp (by rw [show u = t from hby])
      | _ => exact hby
    exact ⟨hP.1, ((hB s a hb).2.2 hby s' hstep).trans hP.2⟩
  · intro g s inp s₁ gs hP hb hx
    obtain ⟨rfl, hst⟩ := hP
    obtain ⟨b, rfl⟩ := hcas _ _ _ _ hx
    cases b with
    | true => exact absurd (hB _ _ hb).1 id
    | false => exact .inl (hf _ _ _ hst hx)

theorem shutdown_queued {A B : Sys → Act → Prop} (h : Runs.Reach (step cfg) A (Sys.init cfg) s₀)
    (hs : s₀.stack t = .api (.shutdown c) :: r) (hst : (s₀.conns c).state = .connected)
    (hB : ∀ s a, B s a → NoSpurious s a ∧ s.Inside t r.length ∧ KeptByOthers cfg c t s a)
    (hcall : Runs.Reach (step cfg) B s₀ s₁) (hret : s₁.stack t = r) :
    ∃ n, s₀.QueuedAt t c.loop (.shutdownInLoop c) n s₁ := by
  refine exchange_queued h hs hst hB ?_ ?_ hcall hret
  · intro s s₁ gs hst hx
    simp only [exec, Api.run, shutdown] at hx
    rw [if_pos ⟨trivial, hst⟩] at hx
    cases hx
    exact List.mem_cons_self
  · intro inp s s₁ gs hx
    simp only [exec, Api.run, shutdown] at hx
    split at hx
    · exact ⟨_, rfl⟩
    · cases hx

theorem forceClose_queued {A B : Sys → Act → Prop} (h : Runs.Reach (step cfg) A (Sys.init cfg) s₀)
    (hs : s₀.stack t = .api (.forceClose c) :: r) (hst : (s₀.conns c).state = .connected)
    (hB : ∀ s a, B s a → NoSpurious s a ∧ s.Inside t r.length ∧ KeptByOthers cfg c t s a)
    (hcall : Runs.Reach (step cfg) B s₀ s₁) (hret : s₁.stack t = r) :
    ∃ n, s₀.QueuedAt t c.loop (.forceCloseInLoop c) n s₁ := by
  refine exchange_queued h hs hst hB ?_ ?_ hcall hret
  · intro s s₁ gs hst hx
    simp only [exec, Api.run, forceClose] at hx
    rw [if_pos ⟨trivial, hst⟩] at hx
    cases hx
    exact List.mem_cons_self
  · intro inp s s₁ gs hx
    simp only [exec, Api.run, forceClose] at hx
    split at hx
    · exact ⟨_, rfl⟩
    · cases hx

/-- **No request is lost while the weak exchanges do not fail spuriously.** In every such run, a
`Shutdown` or `ForceClose` made on a connection that is `CONNECTED`, and is left so by the others
until the call returns, queues its functor; a `TcpConnector::Start` made while the connector is
disconnected has queued or run `StartInLoop` by its return, unless the exchange of another `Start` came
before its own; and of the calls of `TcpServer::Start` at most one initialises the thread pool and queues
`Listen`, exactly one once a call has returned and none is still starting the pool. -/
theorem requests_kept (cfg : Cfg) (s₀ s₁ : Sys) (t : Tid) (r : List Frame)
    (h : Runs.Reach (step cfg) NoSpurious (Sys.init cfg) s₀) :
    (∀ c, (s₀.conns c).state = .connected →
      Runs.Reach (step cfg) (fun s a =>
        NoSpurious s a ∧ s.Inside t r.length ∧ KeptByOthers cfg c t s a) s₀ s₁ →
      s₁.stack t = r →
      (s₀.stack t = .api (.shutdown c) :: r →
        ∃ n, s₀.QueuedAt t c.loop (.shutdownInLoop c) n s₁) ∧
      (s₀.stack t = .api (.forceClose c) :: r →
        ∃ n, s₀.QueuedAt t c.loop (.forceCloseInLoop c) n s₁)) ∧
    (∀ k L, s₀.stack t = .api (.connect k) :: r → (s₀.clients k).state = .disconnected →
      Runs.Logged (step cfg) (fun s a => NoSpurious s a ∧ s.Inside t r.length) (fun s a => [(s, a)])
        s₀ L s₁ →
      s₁.stack t = r → StartsAttempt cfg k t s₀ L s₁) ∧
    (s₀.listens cfg = s₀.initialized.length ∧ s₀.initialized.length ≤ 1) ∧
    (s₀.stack t = .api .start :: r →
      Runs.Reach (step cfg) (fun s a => NoSpurious s a ∧ s.Inside t r.length) s₀ s₁ →
      s₁.stack t = r →
      ∀ s₂, Runs.Reach (step cfg) NoSpurious s₁ s₂ → (∀ u, .startPool ∉ s₂.stack u) →
        ∃ u, s₂.initialized = [u] ∧ (u, .listen) ∈ s₂.enqueued cfg.serverLoop ∧ s₂.listens cfg = 1) := by
  refine ⟨fun c hst hcall hret => ⟨fun hs => ?_, fun hs => ?_⟩, fun k L hs hst hcall hret => ?_,
    (Starting.reach h).once, fun hs hcall hret s₂ h₂ hno => ?_⟩
  · exact shutdown_queued h hs hst (fun _ _ hB => hB) hcall hret
  · exact forceClose_queued h hs hst (fun _ _ hB => hB) hcall hret
  · exact start_attempts h hs hst (fun _ _ hB => hB.1) (fun _ _ hB => hB.2) hcall hret
  · have hst : s₂.started = true := by
      have hst := start_started h hs (fun _ _ hB => hB.1) (fun _ _ hB => hB.2) hcall hret
      refine h₂.inv (I := fun s => s.started = true) hst fun s a s' hr hi _ hstep => ?_
      exact step_started (Inv.any ((h.join hcall).join hr)) hi hstep
    cases Starting.reach ((h.join hcall).join h₂) with
    | fresh hf => rw [hst] at hf; cases hf
    | won u _ hc => exact absurd (List.one_le_count_iff.1 (Nat.le_of_eq hc.symm)) (hno u)
    | done u _ _ hi hq hl => exact ⟨u, hi, hq, hl⟩

/-- `Start` on the loop's own thread. -/
def sampleAttempt : List Act := loopActs [.cas false, .connect (some 5) (some eInProgress) 0]

theorem requests_kept_sample :
    (∃ s s', Runs.run (step .sample) (Sys.init .sample) (sampleRequest (.shutdown sampleConn)) = some s ∧
      Runs.run (step .sample) s (callActs [.cas false, .none]) = some s' ∧
      ∃ n, s.QueuedAt (.user 7) 0 (.shutdownInLoop sampleConn) n s') ∧
    (∃ s s', Runs.run (step .sample) (Sys.init .sample) (sampleRequest (.connect 0)) = some s ∧
      Runs.run (step .sample) s (callActs [.cas false, .none]) = some s' ∧
      s'.queue 0 = [.connectorStart 0] ∧
      StartsAttempt .sample 0 (.user 7) s
        (Runs.log (step .sample) (fun s a => [(s, a)]) s (callActs [.cas false, .none])) s') ∧
    (∃ s s', Runs.run (step .sample) (Sys.init .sample) (loopActs [.call (.connect 0)]) = some s ∧
      Runs.run (step .sample) s sampleAttempt = some s' ∧ (s'.clients 0).channel = some (0, 5) ∧
      StartsAttempt .sample 0 (.loop 0) s
        (Runs.log (step .sample) (fun s a => [(s, a)]) s sampleAttempt) s') ∧
    ∃ s s', Runs.run (step .sample) (Sys.init .sample) (loopActs [.call .start]) = some s ∧
      s.initialized = [] ∧ Runs.run (step .sample) s (loopActs [.cas false, .none]) = some s' ∧
      ∃ u, s'.initialized = [u] ∧ (u, .listen) ∈ s'.enqueued 0 ∧ s'.listens .sample = 1 := by
  refine ⟨?_, ?_, ?_, ?_⟩
  · obtain ⟨s, s', hs, hs', hx, hr, hcall⟩ := Runs.Reach.of_runs (P := NoSpurious)
      (Q := fun s a => NoSpurious s a ∧ s.Inside (.user 7) 1 ∧ a.By (.user 7))
      (step .sample) (Sys.init .sample) (sampleRequest (.shutdown sampleConn))
      (callActs [.cas false, .none])
      (fun s s' => (s.stack (.user 7), s'.stack (.user 7), (s.conns sampleConn).state))
      (b := ([.api (.shutdown sampleConn), .user none], [.user none], .connected))
      (by decide +kernel) (by decide +kernel)
    simp only [Prod.mk.injEq] at hx
    refine ⟨s, s', hs, hs', (((requests_kept .sample s s' (.user 7) [.user none] hr).1 sampleConn
      hx.2.2 ?_ hx.2.1).1 hx.1)⟩
    exact (Runs.Reach.of_run _ hs' hcall).mono fun _ _ _ hP =>
      ⟨hP.1, hP.2.1, fun hby => absurd hP.2.2 hby⟩
  · obtain ⟨s, s', hs, hs', hx, hr, hcall⟩ := Runs.Reach.of_runs (P := NoSpurious)
      (Q := fun s a => NoSpurious s a ∧ s.Inside (.user 7) 1)
      (step .sample) (Sys.init .sample) (sampleRequest (.connect 0)) (callActs [.cas false, .none])
      (fun s s' => (s.stack (.user 7), s'.stack (.user 7), (s.clients 0).state, s'.queue 0))
      (b := ([.api (.connect 0), .user none], [.user none], .disconnected, [.connectorStart 0]))
      (by decide +kernel) (by decide +kernel)
    simp only [Prod.mk.injEq] at hx
    exact ⟨s, s', hs, hs', hx.2.2.2, (requests_kept .sample s s' (.user 7) [.user none] hr).2.1 0 _
      hx.1 hx.2.2.1 (.of_run _ hs' hcall) hx.2.1⟩
  · obtain ⟨s, s', hs, hs', hx, hr, hcall⟩ := Runs.Reach.of_runs (P := NoSpurious)
      (Q := fun s a => NoSpurious s a ∧ s.Inside (.loop 0) 2)
      (step .sample) (Sys.init .sample) (loopActs [.call (.connect 0)]) sampleAttempt
      (fun s s' => (s.stack (.loop 0), s'.stack (.loop 0), (s.clients 0).state,
        decide ((s'.clients 0).channel = some (0, 5))))
      (b := (.api (.connect 0) :: (Sys.init .sample).stack (.loop 0), (Sys.init .sample).stack (.loop 0),
        .disconnected, true))
      (by decide +kernel) (by decide +kernel)
    simp only [Prod.mk.injEq, decide_eq_true_eq] at hx
    exact ⟨s, s', hs, hs', hx.2.2.2, (requests_kept .sample s s' (.loop 0) _ hr).2.1 0 _
      hx.1 hx.2.2.1 (.of_run _ hs' hcall) hx.2.1⟩
  · obtain ⟨s, s', hs, hs', hx, hr, hcall⟩ := Runs.Reach.of_runs (P := NoSpurious)
      (Q := fun s a => NoSpurious s a ∧ s.Inside (.loop 0) 2)
      (step .sample) (Sys.init .sample) (loopActs [.call .start]) (loopActs [.cas false, .none])
      (fun s s' => (s.stack (.loop 0), s'.stack (.loop 0), s.initialized, s'.initialized))
      (b := (.api .start :: (Sys.init .sample).stack (.loop 0), (Sys.init .sample).stack (.loop 0),
        [], [.loop 0]))
      (by decide +kernel) (by decide +kernel)
    simp only [Prod.mk.injEq] at hx
    have hrun := Runs.Reach.of_run _ hs' hcall
    have hno : ∀ u, .startPool ∉ s'.stack u :=
      (Starting.reach (hr.join hrun)).none_left (by rw [hx.2.2.2]; exact List.cons_ne_nil _ _)
    exact ⟨s, s', hs, hx.2.2.1, hs', (requests_kept .sample s s' (.loop 0) _ hr).2.2.2 hx.1 hrun
      hx.2.1 s' .init hno⟩

/-- Each of the weak exchanges fails spuriously once: `Shutdown` and `ForceClose` return with nothing
queued for a connection that is `CONNECTED`, `TcpConnector::Start` and `TcpServer::Start` with nothing
started. -/
theorem requests_lost :
    (∀ api ∈ [Api.shutdown sampleConn, .forceClose sampleConn],
      ∃ s s', Runs.run (step .sample) (Sys.init .sample) (sampleRequest api) = some s ∧
        s.stack (.user 7) = [.api api, .user none] ∧ (s.conns sampleConn).state = .connected ∧
        (∃ n, Runs.run (step .sample) s
          (callActs (.cas true :: List.replicate n (.cas false))) = some s') ∧
        s'.stack (.user 7) = [.user none] ∧ (s'.conns sampleConn).state = .connected ∧
        s'.enqueued 0 = s.enqueued 0 ∧ s'.queue 0 = s.queue 0) ∧
    (∃ s s', Runs.run (step .sample) (Sys.init .sample) (sampleRequest (.connect 0)) = some s ∧
      (s.clients 0).state = .disconnected ∧
      step .sample s (.thread (.user 7) (.cas true)) = some s' ∧ s'.stack (.user 7) = [.user none] ∧
      (s'.clients 0).state = .disconnected ∧ s'.queue 0 = s.queue 0) ∧
    ∃ s, Runs.run (step .sample) (Sys.init .sample) (loopActs [.call .start, .cas true]) = some s ∧
      s.stack (.loop 0) = (Sys.init .sample).stack (.loop 0) ∧ s.started = false ∧
      s.initialized = [] ∧ s.listens .sample = 0 := by
  refine ⟨?_, ?_, ?_⟩
  · intro api hapi
    have hrun : ∃ n, ((Runs.run (step .sample) (Sys.init .sample) (sampleRequest api)).bind fun s =>
        (Runs.run (step .sample) s
          (callActs (.cas true :: List.replicate n (.cas false)))).map fun s' =>
          (s.stack (.user 7), (s.conns sampleConn).state, s'.stack (.user 7),
            (s'.conns sampleConn).state, decide (s'.enqueued 0 = s.enqueued 0),
            decide (s'.queue 0 = s.queue 0))) =
        some ([.api api, .user none], .connected, [.user none], .connected, true, true) := by
      simp only [List.mem_cons, List.not_mem_nil, or_false] at hapi
      rcases hapi with rfl | rfl
      · exact ⟨0, by decide +kernel⟩
      · exact ⟨1, by decide +kernel⟩
    obtain ⟨n, hrun⟩ := hrun
    obtain ⟨s, hs, hrun⟩ := Option.bind_eq_some_iff.1 hrun
    obtain ⟨s', hs', hx⟩ := Option.map_eq_some_iff.1 hrun
    simp only [Prod.mk.injEq, decide_eq_true_eq] at hx
    obtain ⟨h1, h2, h3, h4, h5, h6⟩ := hx
    exact ⟨s, s', hs, h1, h2, ⟨n, hs'⟩, h3, h4, h5, h6⟩
  · have hrun : ((Runs.run (step .sample) (Sys.init .sample) (sampleRequest (.connect 0))).bind fun s =>
        (step .sample s (.thread (.user 7) (.cas true))).map fun s' =>
          ((s.clients 0).state, s'.stack (.user 7), (s'.clients 0).state,
            decide (s'.queue 0 = s.queue 0))) =
        some (.disconnected, [.user none], .disconnected, true) := by decide +kernel
    obtain ⟨s, hs, hrun⟩ := Option.bind_eq_some_iff.1 hrun
    obtain ⟨s', hs', hx⟩ := Option.map_eq_some_iff.1 hrun
    simp only [Prod.mk.injEq, decide_eq_true_eq] at hx
    exact ⟨s, s', hs, hx.1, hs', hx.2⟩
  · have hrun : (Runs.run (step .sample) (Sys.init .sample) (loopActs [.call .start, .cas true])).map
        (fun s => (s.stack (.loop 0), s.started, s.initialized, s.listens .sample)) =
        some ((Sys.init .sample).stack (.loop 0), false, [], 0) := by decide +kernel
    obtain ⟨s, hs, hx⟩ := Option.map_eq_some_iff.1 hrun
    simp only [Prod.mk.injEq] at hx
    exact ⟨s, hs, hx⟩

end Liang.Net
