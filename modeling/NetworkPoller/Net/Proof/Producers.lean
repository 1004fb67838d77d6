import NetworkPoller.Net.Proof.Attempts
import NetworkPoller.Net.Proof.Close

/-!
# Who queues functors

The queue of a loop is one for a single producer. `two_producers`: with a worker loop the queue of
the server's loop has two, `Listen` comes from the thread that calls `Start` and the removal of a
connection from the worker. `single_producer` is about a server without worker loops whose functions
are called on the loop's thread: every connection is on the server's loop then (`Placed`), so the
other threads have nothing to do but to run functors of user code, and all that is queued anywhere
comes from one thread.
-/

namespace Liang.Net

open Base TcpConnection EpollPoller

variable {cfg : Cfg} {d : Discipline} {s s' : Sys} {t t' : Tid} {c c' : ConnId} {k : ClientId}
  {l : LoopId} {inp : Input} {f : Frame} {r gs : List Frame}

/-- All that was ever queued on the loop came from `T`. -/
def Sys.ProducedBy (s : Sys) (l : LoopId) (T : Tid) : Prop := ∀ e ∈ s.enqueued l, e.1 = T

/-! ## What a thread leaves alone -/

theorem mem_appended {α : Type} {q : LoopId → List α} {l' : LoopId} {x e : α}
    (h : e ∈ Function.update q l' (q l' ++ [x]) l) : e ∈ q l ∨ e = x := by
  by_cases hl : l = l'
  · subst hl
    rwa [Function.update_self, List.mem_append, List.mem_singleton] at h
  · rw [Function.update_of_ne hl] at h
    exact .inl h

theorem mem_taken {q : LoopId → List Task} {l' : LoopId} {k₀ e : Task} {ks : List Task}
    (hq : q l' = k₀ :: ks) (h : e ∈ Function.update q l' ks l) : e ∈ q l := by
  by_cases hl : l = l'
  · subst hl
    rw [Function.update_self] at h
    exact hq ▸ List.mem_cons_of_mem _ h
  · rwa [Function.update_of_ne hl] at h

/-- What a thread queues is queued under its name. -/
theorem Effect.enqueued (he : Effect cfg d t s s') (l : LoopId) :
    ∀ e ∈ s'.enqueued l, e ∈ s.enqueued l ∨ e.1 = t := by
  cases he with
  | enqueue | sendQueued | handOver | unlink | unlinkTaken | unlinkClient | accept | connectQueued
  | removeChannel | retry => exact fun e hm => (mem_appended hm).imp_right fun h => by rw [h]
  | attempt hs ht hf hn ho => cases hs <;> exact fun _ => .inl
  | attemptFailed hs => cases hs <;> exact fun _ => .inl
  | _ => exact fun _ => .inl

theorem Effects.others (he : Effects cfg d t s s') :
    (∀ l, ∀ e ∈ s'.enqueued l, e ∈ s.enqueued l ∨ e.1 = t) ∧
      ∀ t', t' ≠ t → s'.stack t' = s.stack t' := by
  induction he with
  | refl => exact ⟨fun _ _ => .inl, fun _ _ => rfl⟩
  | tail _ he ih =>
    refine ⟨fun l e hm => ?_, fun t' ht => (he.stack_of_ne ht).trans (ih.2 t' ht)⟩
    rcases he.enqueued l e hm with hm | hm
    · exact ih.1 l e hm
    · exact .inr hm

/-! ## Where the connections are -/

/-- A connection is established from the queue, or by a client that has begun. -/
theorem Effect.est (hS : Sound cfg d s) (he : Effect cfg d t s s') (h : s'.Est c) :
    s.Est c ∨ .connectEstablished c ∈ s.queue c.loop ∨
      ∃ k, c.owner = .client k ∧ (s'.clients k).phase = .ended := by
  cases he with
  | conn hl hx => exact .inl ((updConn_sameLife hx.sameLife).est.1 h)
  | @sendQueued c' m hl ht =>
    have hx : (s.conns c).SameLife ((s.updConn c' fun x =>
        { x with sent := x.sent ++ [(t, m)] }).conns c) := updConn_sameLife (.of_eq rfl .rfl)
    exact .inl (hx.est.1 h)
  | @sendTaken l r ks c' T m x' hs hq hx =>
    have hx : (s.conns c).SameLife ((s.updConn c' fun _ => x').conns c) :=
      updConn_sameLife hx.sameLife
    exact .inl (hx.est.1 h)
  | @shutTaken l r ks c' x' hs hq hx =>
    have hx : (s.conns c).SameLife ((s.updConn c' fun _ => x').conns c) := by
      refine updConn_sameLife ?_
      rcases hx with rfl | ⟨-, rfl⟩ <;> exact .of_eq rfl .rfl
    exact .inl (hx.est.1 h)
  | @establish l r ks c' p hs hq ht ho =>
    by_cases hc : c = c'
    · subst hc
      have hm : Task.connectEstablished c ∈ s.queue l := hq ▸ List.mem_cons_self
      obtain ⟨rfl, -⟩ := (hS.tasks l _ hm).home
      exact .inr (.inl hm)
    · have h : (s.establish c' p).Est c := h
      rw [Sys.Est, Sys.establish_of_ne hc] at h
      exact .inl h
  | close hr hl ht hc ho => exact .inl ((mem_closeConn (e := .established) (by simp) (by simp)).1 h)
  | @sendFailed l r ks c' T m p hs hq ht hst ho =>
    have hx : (s.conns c).SameLife ((s.updConn c' fun x =>
        { x with entered := x.entered ++ [(T, m)] }).conns c) := updConn_sameLife (.of_eq rfl .rfl)
    exact .inl (hx.est.1 ((mem_closeConn (e := .established) (p := p) (by simp) (by simp)).1 h))
  | @newConnection k r c' p hs hc ht ho =>
    by_cases hcc : c = c'
    · subst hcc
      have hp : (Function.update s.clients k
          { s.clients k with connection := some c, phase := .ended } k).phase = .ended := by
        rw [Function.update_self]
      exact .inr (.inr ⟨k, by rw [hc], hp⟩)
    · have h : ((s.create c' (TcpClient.newConn cfg k)).establish c' p).Est c := h
      rw [Sys.Est, Sys.establish_of_ne hcc, show (s.create c' (TcpClient.newConn cfg k)).conns c =
        s.conns c from Function.update_of_ne hcc ..] at h
      exact .inl h
  | @accept c' hc hf ht =>
    have hx : (s.conns c).SameLife ((s.create c' (TcpServer.newConn cfg)).conns c) :=
      create_sameLife hS (by rw [hc]) rfl rfl
    exact .inl (hx.est.1 h)
  | handOver | destroyed => exact .inl ((mem_note (by decide)).1 h)
  | unlink | unlinkClient =>
    exact .inl ((mem_note (by decide)).1 ((mem_note (by decide)).1 h))
  | unlinkTaken => exact .inl ((mem_note (by decide)).1 h)
  | attempt hs ht hf hn ho => cases hs <;> exact .inl h
  | attemptFailed hs => cases hs <;> exact .inl h
  | _ => exact .inl h

theorem PursuitStep.begun {home : Tid} {b b' : Pursuit} (h : PursuitStep k home b b')
    (hb : b.phase ≠ .idle) : b'.phase ≠ .idle := by
  cases h with
  | same | polled | dispatched | dropped | reset => exact hb
  | _ => nofun

/-- The server's connections are on the server's loop, and a client with a connection has begun. -/
structure Placed (cfg : Cfg) (s : Sys) : Prop where
  pending : ∀ l c, .connectEstablished c ∈ s.queue l → c.loop = cfg.serverLoop
  server : ∀ c, s.Est c → c.owner = .server → c.loop = cfg.serverLoop
  client : ∀ c k, s.Est c → c.owner = .client k → (s.clients k).phase ≠ .idle

/-- A new connection is the only one that is to be established. -/
theorem Effect.pending (he : Effect cfg d t s s') (hw : cfg.workers = [])
    (h : .connectEstablished c ∈ s'.queue l) :
    .connectEstablished c ∈ s.queue l ∨ c.loop = cfg.serverLoop := by
  cases he with
  | enqueue hk hf =>
    rcases mem_appended h with h | rfl
    · exact .inl h
    · rcases hk with hk | ⟨c', hk⟩ <;> cases hk
  | sendQueued | handOver | unlink | unlinkClient | connectQueued | removeChannel | retry =>
    exact .inl ((mem_appended h).resolve_right nofun)
  | unlinkTaken hs hq ht => exact .inl (mem_taken hq ((mem_appended h).resolve_right nofun))
  | @accept c' hc hf ht =>
    rcases mem_appended h with h | h
    · exact .inl h
    · cases h
      right
      rw [hc]
      simp [TcpServer.getEventLoopFromPoolForHash, hw]
  | dequeue hs hq hk => exact .inl (mem_taken hq h)
  | sendTaken hs hq => exact .inl (mem_taken hq h)
  | shutTaken hs hq => exact .inl (mem_taken hq h)
  | establish hs hq => exact .inl (mem_taken hq h)
  | sendFailed hs hq => exact .inl (mem_taken hq h)
  | destroyed hs hq => exact .inl (mem_taken hq h)
  | reset hs hq => exact .inl (mem_taken hq h)
  | attempt hs ht hf hn ho =>
    cases hs with
    | frame hs => exact .inl h
    | task hs hq => exact .inl (mem_taken hq h)
  | attemptFailed hs =>
    cases hs with
    | frame hs => exact .inl h
    | task hs hq => exact .inl (mem_taken hq h)
  | _ => exact .inl h

theorem Placed.effect (hw : cfg.workers = []) (h : Placed cfg s) (hI : Inv cfg d s)
    (hO : ∀ k, (s.pursuit cfg k).Ok k (.loop (cfg.clientLoop k))) (he : Effect cfg d t s s') :
    Placed cfg s' := by
  have hb : ∀ k, (s.clients k).phase ≠ .idle → (s'.clients k).phase ≠ .idle := fun k =>
    (he.pursuit hI (hO k)).begun
  refine ⟨fun l c hm => ?_, fun c hc ho => ?_, fun c k hc ho => ?_⟩
  · exact (he.pending hw hm).elim (h.pending l c) id
  · rcases he.est hI.sound hc with hc | hm | ⟨k, ho', -⟩
    · exact h.server c hc ho
    · exact h.pending _ c hm
    · rw [ho] at ho'
      cases ho'
  · rcases he.est hI.sound hc with hc | hm | ⟨k', ho', hp⟩
    · exact hb k (h.client c k hc ho)
    · have ho' := (hI.sound.tasks _ _ hm).home.2
      rw [ho] at ho'
      cases ho'
    · rw [ho] at ho'
      cases ho'
      rw [hp]
      nofun

theorem placed_reach {P : Sys → Act → Prop} (hw : cfg.workers = [])
    (h : Runs.Reach (step cfg) P (Sys.init cfg) s) : Placed cfg s := by
  refine (Inv.reach (d := .any) (I := fun s =>
    (∀ k, (s.pursuit cfg k).Ok k (.loop (cfg.clientLoop k))) ∧ Placed cfg s) ?_
    (fun t s s' hI hO he => ⟨fun k => (he.pursuit hI (hO.1 k)).ok (hO.1 k), hO.2.effect hw hI hO.1 he⟩)
    (fun s a s' _ _ _ _ => Discipline.any_allows) h).2.2
  exact ⟨fun k => pursuit_reach (P := P) .init k, ⟨fun _ _ h => absurd h List.not_mem_nil,
    fun _ h => absurd h List.not_mem_nil, fun _ _ h => absurd h List.not_mem_nil⟩⟩

/-! ## The other threads -/

/-- A call leaves the frame: functors are queued from it. -/
def Frame.posts : Frame → Bool
  | forceCloseAgain _ | startPool | queueInLoop _ _ | runInLoop _ _ => true
  | _ => false

/-- What a thread other than the server's is left with. -/
def Frame.passive : Frame → Bool
  | loopPoll _ | loopDispatch _ | loopTasks _ | taskDone _ | user _ | api _ => true
  | _ => false

section

variable (hS : Sound cfg d s) (hO : ∀ k, (s.pursuit cfg k).Ok k (.loop (cfg.clientLoop k)))
  (hP : Placed cfg s) (h : ∀ k, (s.clients k).phase = .idle)

include hP h in
theorem Placed.loop_eq (hc : s.Est c) : c.loop = cfg.serverLoop := by
  cases ho : c.owner with
  | server => exact hP.server c hc ho
  | client k => exact absurd (h k) (hP.client c k hc ho)

include hO h in
theorem idle_holds (k : ClientId) : (s.pursuit cfg k).Holds k (.loop (cfg.clientLoop k)) .idle := by
  have hh := (hO k).holds
  rwa [show (s.pursuit cfg k).phase = .idle from h k] at hh

include hS hO h in
theorem idle_task {k : Task} (hk : k ∈ s.queue l) (k' : ClientId) : k.isConnector k' ≠ true := by
  intro hc
  have hl : l = cfg.clientLoop k' := by
    have hhome := (hS.tasks l k hk).home
    cases k with
    | connectorStart | connectorReset =>
      obtain rfl := of_decide_eq_true hc
      exact hhome
    | _ => cases hc
  subst hl
  have hm : k ∈ (s.pursuit cfg k').tasks := List.mem_filter.2 ⟨hk, hc⟩
  rw [(idle_holds hO h k').2.2.2.1] at hm
  cases hm

include hS hO hP h in
/-- Nothing but user code and `StopInLoop` is queued on the other loops. -/
theorem Placed.functor (hl : l ≠ cfg.serverLoop) {k : Task} (hk : k ∈ s.queue l) :
    k = .functor ∨ ∃ j, k = .connectorStop j := by
  have hf := hS.tasks l k hk
  have hhome := hf.home
  have hest : ∀ c, k.conn? = some c → k ≠ .connectEstablished c → c.loop ≠ l := fun c hc hne hcl =>
    hl (hcl ▸ hP.loop_eq h ((hf.about c hc).resolve_left hne).1)
  cases k with
  | functor => exact .inl rfl
  | connectorStop j => exact .inr ⟨j, rfl⟩
  | listen => exact absurd hhome hl
  | removeConnectionInLoop c => exact absurd hhome.1 hl
  | connectEstablished c => exact absurd (hhome.1.trans (hP.pending l c hk)) hl
  | sendInLoop c => exact absurd hhome.1.symm (hest c rfl nofun)
  | connectorStart k' | connectorReset k' =>
    exact absurd (decide_eq_true rfl) (idle_task hS hO h hk k')
  | connectDestoryed c | startReadInLoop c | stopReadInLoop c | shutdownInLoop c
  | forceCloseInLoop c | writtenCb c | highWaterCb c =>
    exact absurd hhome.symm (hest c rfl nofun)

include hS hO hP h in
/-- Nothing is reported to the other loops. -/
theorem Placed.active (hl : l ≠ cfg.serverLoop) : s.active l = [] := by
  refine List.eq_nil_iff_forall_not_mem.2 fun i hi => ?_
  have hf := hS.active l i hi
  cases i with
  | acceptor => exact hl hf.home.symm
  | conn c => exact hl (hf.home.symm.trans (hP.loop_eq h (hf.about c rfl).1))
  | connector k n fd =>
    obtain rfl : cfg.clientLoop k = l := hf.home
    have ha := List.countP_eq_zero.1 (idle_holds hO h k).2.1 _ hi
    exact ha (decide_eq_true rfl)

include hO h in
theorem idle_token (hf : f ∈ s.stack t) (k : ClientId) (x : Token) : f.token k ≠ some x := fun hx => by
  have hm : x ∈ (s.pursuit cfg k).frames t := List.mem_filterMap.2 ⟨f, hf, hx⟩
  rw [(idle_holds hO h k).1] at hm
  cases hm

include hS hO hP h in
theorem Placed.passive (ht : t ≠ .loop cfg.serverLoop) (hf : f ∈ s.stack t) (hp : f.posts = false) :
    f.passive = true := by
  have hf' := hS.frames t f hf
  have hhome := hf'.home
  have hconn : ∀ c, f.about = some c → t ≠ .loop c.loop := by
    rintro c hc rfl
    exact ht (congrArg _ (hP.loop_eq h (hf'.about c hc).1))
  have htok := idle_token hO h hf
  cases f with
  | loopPoll | loopDispatch | loopTasks | taskDone | user | api => rfl
  | forceCloseAgain | startPool | queueInLoop | runInLoop => cases hp
  | handleEvent i =>
    cases i with
    | acceptor => exact absurd hhome ht
    | conn c => exact absurd hhome (hconn c rfl)
    | connector k n fd => exact absurd (if_pos rfl) (htok k .event)
  | closeHandler c | errorHandler c | readHandler c | writeHandler c | writeHandlerRest c | closeCb c =>
    exact absurd hhome (hconn c rfl)
  | destoryedRest c => exact hhome.elim
  | acceptHandle | closeIdle | reAccept | reOpen => exact absurd hhome ht
  | connectorRun k => exact absurd (if_pos rfl) (htok k .run)
  | writeEventHandler k => exact absurd (if_pos rfl) (htok k .event)
  | writeEventRest k fd => exact absurd (if_pos rfl) (htok k (.rest fd))

include hS hO hP h in
/-- No function of a client runs. -/
theorem Placed.not_ofClient (hs : s.stack t = f :: r) (ha : ∀ k, f ≠ .api (.connect k)) :
    ¬ f.OfClient s := by
  have hf : f ∈ s.stack t := hs ▸ List.mem_cons_self
  have htok := idle_token hO h hf
  intro hk
  cases f with
  | connectorRun k => exact htok k .run (if_pos rfl)
  | writeEventHandler k => exact htok k .event (if_pos rfl)
  | writeEventRest k fd => exact htok k (.rest fd) (if_pos rfl)
  | api a =>
    cases a with
    | connect k => exact ha k rfl
    | _ => exact hk
  | closeCb c =>
    cases ho : c.owner with
    | server => exact hk ho
    | client k => exact hP.client c k ((hS.frames t _ hf).about c rfl).1 ho (h k)
  | loopTasks l =>
    simp only [Frame.OfClient] at hk
    split at hk
    · rename_i k _ hq
      have hm : Task.connectorStart k ∈ s.queue l := hq ▸ List.mem_cons_self
      exact idle_task hS hO h hm k (decide_eq_true rfl)
    · rename_i k _ hq
      have hm : Task.connectorReset k ∈ s.queue l := hq ▸ List.mem_cons_self
      exact idle_task hS hO h hm k (decide_eq_true rfl)
    · exact hk
  | _ => exact hk

end

/-- A thread with such a frame queues nothing. -/
theorem exec_passive (hf : f.passive = true) (ha : ∀ a, f ≠ .api a)
    (hact : ∀ l, f = .loopDispatch l → s.active l = [])
    (hq : ∀ l k, f = .loopTasks l → k ∈ s.queue l → k = .functor ∨ ∃ j, k = .connectorStop j)
    (h : exec cfg t inp s f = .ok s' gs) :
    s'.enqueued = s.enqueued ∧ ∀ g ∈ gs, g.posts = false := by
  cases f with
  | loopPoll l =>
    obtain ⟨-, h⟩ := Res.assert_ok h
    split at h
    · split at h
      · cases h
        simp [Sys.poll, Frame.posts]
      · cases h
    · cases h
  | loopDispatch l =>
    simp only [exec, hact l rfl] at h
    cases h
    simp [Sys.dispatch, Frame.posts]
  | loopTasks l =>
    simp only [exec] at h
    split at h
    · cases h
      simp [Frame.posts]
    · rename_i k ks hk
      rcases hq l k rfl (hk ▸ List.mem_cons_self) with rfl | ⟨j, rfl⟩
      all_goals
        cases h
        simp [Sys.dequeue, Frame.posts]
  | taskDone =>
    cases h
    simp
  | user c? =>
    simp only [exec] at h
    split at h
    · split at h
      · cases h
        simp [Frame.posts]
      · cases h
    · cases h
      simp
    · cases h
  | api a => exact absurd rfl (ha a)
  | _ => cases hf

/-! ## One producer -/

/-- Nothing but the server is there, and only its thread does something. -/
structure Alone (cfg : Cfg) (s : Sys) : Prop where
  idle : ∀ k, (s.clients k).phase = .idle
  frames : ∀ t, t ≠ .loop cfg.serverLoop → ∀ f ∈ s.stack t, f.posts = false
  produced : ∀ l, s.ProducedBy l (.loop cfg.serverLoop)

theorem Alone.step {a : Act} (hI : Inv cfg .any s)
    (hO : ∀ k, (s.pursuit cfg k).Ok k (.loop (cfg.clientLoop k))) (hP : Placed cfg s)
    (h : Alone cfg s) (hc : CallsOnLoop cfg s a) (hstep : step cfg s a = some s') : Alone cfg s' := by
  rcases step_cases hstep with ⟨t, inp, f, r, gs, s₁, rfl, hs, hx, rfl⟩ |
    ⟨t, inp, f, r, e, rfl, hs, hx, rfl⟩ | ⟨c', rfl, -, -, rfl⟩ | ⟨n, rfl, -, rfl⟩ | ⟨n, rfl, -, rfl⟩
  · have hcall : ∀ a, f = .api a → t = .loop cfg.serverLoop ∧ ∀ k, a ≠ .connect k := by
      rintro a rfl
      simp only [CallsOnLoop, hs] at hc
      cases a with
      | connect => exact hc.elim
      | _ => exact ⟨hc, fun k hk => by cases hk⟩
    have hk : ¬ f.OfClient s := hP.not_ofClient hI.sound hO h.idle hs fun k hk =>
      (hcall _ hk).2 k rfl
    obtain ⟨hq, hst⟩ := (exec_effects hI hs (Discipline.any_allows (a := .thread t inp) f r hs) hx).others
    have hidle : ∀ k, (s₁.clients k).phase = .idle := fun k => by
      rw [(exec_moves hI hs hk hx).clients]
      exact h.idle k
    by_cases ht : t = .loop cfg.serverLoop
    · subst ht
      refine ⟨hidle, fun t' ht' f' hf' => ?_, fun l e he => ?_⟩
      · rw [hst t' ht'] at hf'
        exact h.frames t' ht' f' hf'
      · exact (hq l e he).elim (h.produced l e) id
    · have hm : f ∈ s.stack t := hs ▸ List.mem_cons_self
      have hpass := hP.passive hI.sound hO h.idle ht hm (h.frames t ht f hm)
      have hhome := (hI.sound.frames t f hm).home
      have hloop : ∀ l, f = .loopDispatch l ∨ f = .loopTasks l → l ≠ cfg.serverLoop := by
        rintro l (rfl | rfl) rfl <;> exact ht hhome
      obtain ⟨hq', hgs⟩ := exec_passive hpass (fun a ha => ht (hcall a ha).1)
        (fun l hl => hP.active hI.sound hO h.idle (hloop l (.inl hl)))
        (fun l k hl => hP.functor hI.sound hO h.idle (hloop l (.inr hl))) hx
      refine ⟨hidle, fun t' ht' f' hf' => ?_, fun l e he => ?_⟩
      · by_cases htt : t' = t
        · subst htt
          rw [Sys.push_self] at hf'
          rcases List.mem_append.1 hf' with hf' | hf'
          · exact hgs f' hf'
          · exact h.frames t' ht' f' (hs ▸ List.mem_cons_of_mem _ hf')
        · rw [hst t' htt] at hf'
          exact h.frames t' ht' f' hf'
      · have he : e ∈ s₁.enqueued l := he
        rw [hq'] at he
        exact h.produced l e he
  all_goals exact ⟨h.idle, h.frames, h.produced⟩

/-- **One producer**: in a server without worker loops all that is queued is queued by the thread
of the server's loop, on whatever loop, as long as the library is called on that thread. -/
theorem single_producer (hw : cfg.workers = [])
    (h : Runs.Reach (step cfg) (CallsOnLoop cfg) (Sys.init cfg) s) (l : LoopId) :
    s.ProducedBy l (.loop cfg.serverLoop) := by
  refine (h.inv (I := Alone cfg) ?_ fun s a s' hr hi hc hs =>
    hi.step (.any hr) (pursuit_reach hr) (placed_reach hw hr) hc hs).produced l
  refine ⟨fun _ => rfl, fun t _ f hf => ?_, fun _ _ h => absurd h List.not_mem_nil⟩
  rcases mem_init_stack hf with rfl | ⟨l, -, rfl⟩ <;> rfl

theorem single_producer_sample :
    ∃ s, Runs.run (step .sample) (Sys.init .sample) sampleClose = some s ∧
      (s.enqueued 0).map (·.2) =
        [.listen, .connectEstablished sampleConn, .connectDestoryed sampleConn] ∧
      s.ProducedBy 0 (.loop 0) := by
  have hrun : (Runs.run (step .sample) (Sys.init .sample) sampleClose).map
      (fun s => (s.enqueued 0).map (·.2)) =
      some [.listen, .connectEstablished sampleConn, .connectDestoryed sampleConn] := by
    decide +kernel
  obtain ⟨s, hs, hx, hr⟩ := Runs.Reach.of_map _ hrun (P := CallsOnLoop .sample) (by decide +kernel)
  exact ⟨s, hs, hx, single_producer rfl hr 0⟩

/-- The same server with a worker loop. -/
def Cfg.sampleWorker : Cfg :=
  { Cfg.sample with
    workers := [1]
    loops := [0, 1]
    server_mem := by decide
    workers_mem := by decide
    client_mem := by simp [Cfg.sample]
    workers_ne := by decide }

/-- Its first connection, on the worker loop. -/
def workerConn : ConnId := ⟨0, 5, 1, .server⟩

/-- The server is started on its loop and accepts a connection, which the peer closes. -/
def workerRun : List Act :=
  loopActs [
    .call .start, .cas false, .none, .ret, .poll [], .none, .none, .none,
    .poll [(3, pollIn)], .none, .none, .fd (.ok 5), .fd (.error eAgain)] ++
  -- the worker establishes it, finds the end of its input and hands the removal over
  [ .ret, .poll [], .none, .none, .ret, .none,
    .poll [(5, pollIn)], .none, .none, .read (.data []), .ret, .none].map (.thread (.loop 1))

/-- The removal is queued by the worker, on the queue that `Start` has queued on. -/
theorem two_producers :
    ∃ s, Runs.run (step .sampleWorker) (Sys.init .sampleWorker) workerRun = some s ∧
      s.enqueued 0 = [(.loop 0, .listen), (.loop 1, .removeConnectionInLoop workerConn)] ∧
      ∀ T, ¬ s.ProducedBy 0 T := by
  have hrun : (Runs.run (step .sampleWorker) (Sys.init .sampleWorker) workerRun).map
      (fun s => s.enqueued 0) =
      some [(.loop 0, .listen), (.loop 1, .removeConnectionInLoop workerConn)] := by decide +kernel
  obtain ⟨s, hs, hx⟩ := Option.map_eq_some_iff.1 hrun
  refine ⟨s, hs, hx, fun T hT => ?_⟩
  rw [Sys.ProducedBy, hx] at hT
  obtain rfl : Tid.loop 0 = T := hT _ (.head _)
  cases hT (.loop 1, .removeConnectionInLoop workerConn) (.tail _ (.head _))

end Liang.Net
