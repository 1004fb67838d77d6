import NetworkPoller.Net.Proof.Calls
import NetworkPoller.Net.Proof.Table

/-!
# A closed connection is let go

`CloseHandler` starts the removal of its connection; from then on references to it pass from frame
to functor and from loop to loop. `Linked`: neither `connections_` nor a client's `connection_`
holds a connection that has been removed, in any run, however often the connection is closed and
whatever numbers are closed. With the balance of the connection's book (`Ledger.Ok`) this gives
`closed_released`: when nothing is under way any more, the connection has been removed and destroyed
as often as it was closed, no reference is left, and its destructor can run.
-/

namespace Liang.Net

open Base TcpConnection

variable {cfg : Cfg} {d : Discipline} {s s' : Sys} {t : Tid} {c : ConnId} {k : ClientId}

/-- Who refers to a connection has not removed it. -/
structure Linked (s : Sys) : Prop where
  table : ∀ n c, s.connections n = some c → c.fd = n ∧ c.owner = .server ∧ ¬ s.Removed c
  client : ∀ k c, (s.clients k).connection = some c → c.owner = .client k ∧ ¬ s.Removed c

namespace Linked

theorem same (h : Linked s) (hr : ∀ c, s'.Removed c ↔ s.Removed c)
    (hc : s'.connections = s.connections)
    (hk : ∀ k, (s'.clients k).connection = (s.clients k).connection) : Linked s' where
  table n c hn := by
    rw [hr]
    exact h.table n c (hc ▸ hn)
  client k c hn := by
    rw [hr]
    exact h.client k c (hk k ▸ hn)

theorem of_life (h : Linked s) (hx : ∀ c, (s.conns c).SameLife (s'.conns c))
    (hc : s'.connections = s.connections) (hk : s'.clients = s.clients) : Linked s' :=
  h.same (fun c => (hx c).removed) hc fun _ => by rw [hk]

/-- The server removes a connection. -/
theorem unlink (h : Linked s) (ho : c.owner = .server)
    (hr : ∀ c', s'.Removed c' ↔ c' = c ∨ s.Removed c')
    (hc : s'.connections = Function.update s.connections c.fd none) (hk : s'.clients = s.clients) :
    Linked s' where
  table n c' hn := by
    rw [hc] at hn
    have hne : n ≠ c.fd := by
      rintro rfl
      rw [Function.update_self] at hn
      cases hn
    rw [Function.update_of_ne hne] at hn
    obtain ⟨hfd, hown, hrm⟩ := h.table n c' hn
    refine ⟨hfd, hown, fun hx => ?_⟩
    rcases (hr c').1 hx with rfl | hx
    · exact hne hfd.symm
    · exact hrm hx
  client k c' hn := by
    obtain ⟨hown, hrm⟩ := h.client k c' (hk ▸ hn)
    refine ⟨hown, fun hx => ?_⟩
    rcases (hr c').1 hx with rfl | hx
    · rw [ho] at hown
      cases hown
    · exact hrm hx

/-- A client removes its connection. -/
theorem unlinkClient (h : Linked s) (ho : c.owner = .client k)
    (hr : ∀ c', s'.Removed c' ↔ c' = c ∨ s.Removed c') (hc : s'.connections = s.connections)
    (hk : s'.clients = Function.update s.clients k { s.clients k with connection := none }) :
    Linked s' where
  table n c' hn := by
    obtain ⟨hfd, hown, hrm⟩ := h.table n c' (hc ▸ hn)
    refine ⟨hfd, hown, fun hx => ?_⟩
    rcases (hr c').1 hx with rfl | hx
    · rw [ho] at hown
      cases hown
    · exact hrm hx
  client k' c' hn := by
    rw [hk] at hn
    have hne : k' ≠ k := by
      rintro rfl
      rw [Function.update_self] at hn
      cases hn
    rw [Function.update_of_ne hne] at hn
    obtain ⟨hown, hrm⟩ := h.client k' c' hn
    refine ⟨hown, fun hx => ?_⟩
    rcases (hr c').1 hx with rfl | hx
    · rw [ho] at hown
      exact hne (by cases hown; rfl)
    · exact hrm hx

/-- A connector goes on. -/
theorem proceed {x : Client} (h : Linked s) (hr : ∀ c, s'.Removed c ↔ s.Removed c)
    (hc : s'.connections = s.connections) (hk : s'.clients = Function.update s.clients k x)
    (hx : x.connection = (s.clients k).connection) : Linked s' := by
  refine h.same hr hc fun k' => ?_
  rw [hk]
  by_cases hkk : k' = k
  · subst hkk
    rw [Function.update_self, hx]
  · rw [Function.update_of_ne hkk]

theorem startSource {s₀ : Sys} {r : List Frame} (h : Linked s) (hs : StartSource t k s s₀ r) :
    Linked s₀ := by
  cases hs with
  | frame => exact h
  | task => exact h.same (fun _ => .rfl) rfl fun _ => rfl

/-- **Every effect keeps this.** -/
theorem effect (h : Linked s) (hS : Sound cfg d s) (he : Effect cfg d t s s') : Linked s' := by
  cases he with
  | conn hl hx => exact h.of_life (fun c => updConn_sameLife hx.sameLife) rfl rfl
  | @sendQueued c' m hl ht =>
    have hx : ∀ c, (s.conns c).SameLife ((s.updConn c' fun x =>
        { x with sent := x.sent ++ [(t, m)] }).conns c) := fun c => updConn_sameLife (.of_eq rfl .rfl)
    exact h.of_life hx rfl rfl
  | sendTaken hs hq hx =>
    exact h.of_life (fun c => updConn_sameLife (s := s.dequeue t _ _ _) hx.sameLife) rfl rfl
  | shutTaken hs hq hx =>
    refine h.of_life (fun c => updConn_sameLife (s := s.dequeue t _ _ _) ?_) rfl rfl
    rcases hx with rfl | ⟨-, rfl⟩ <;> exact .of_eq rfl .rfl
  | establish hs hq ht ho =>
    exact h.same (fun c => mem_establish (s := s.dequeue t _ _ _) (by decide) (by decide)) rfl fun _ => rfl
  | close hr hl ht hc ho => exact h.same (fun c => mem_closeConn (by decide) (by decide)) rfl fun _ => rfl
  | @sendFailed l r ks c' T m p hs hq ht hst ho =>
    have hx : ∀ c, (s.conns c).SameLife (((s.dequeue t l (.sendInLoop c' T m) ks).updConn c'
        fun x => { x with entered := x.entered ++ [(T, m)] }).conns c) := fun c =>
      updConn_sameLife (s := s.dequeue _ _ _ _) (.of_eq rfl .rfl)
    have hr : ∀ c, ((s.dequeue t l (.sendInLoop c' T m) ks).updConn c' fun x =>
        { x with entered := x.entered ++ [(T, m)] }).Removed c ↔ s.Removed c := fun c => (hx c).removed
    exact h.same (fun c => (mem_closeConn (by decide) (by decide)).trans (hr c)) rfl fun _ => rfl
  | handOver hs ho => exact h.same (fun c => mem_note (by decide)) rfl fun _ => rfl
  | @unlink r c' hs ho ht =>
    have hr : ∀ c, ((s.note c' [.closeCb]).unlink t c').Removed c ↔ c = c' ∨ s.Removed c := fun c =>
      removed_unlink.trans (or_congr_right (mem_note (by decide)))
    exact h.unlink ho hr rfl rfl
  | @unlinkTaken l r ks c' hs hq ht =>
    have ho := (hS.tasks l (.removeConnectionInLoop c') (hq ▸ List.mem_cons_self)).home.2
    exact h.unlink ho (fun c => removed_unlink (s := s.dequeue t _ _ _) (t := t)) rfl rfl
  | @unlinkClient r c' k hs ho ht =>
    have hr : ∀ c, ((s.note c' [.closeCb]).unlinkClient t k c').Removed c ↔ c = c' ∨ s.Removed c :=
      fun c => removed_unlinkClient.trans (or_congr_right (mem_note (by decide)))
    exact h.unlinkClient ho hr rfl rfl
  | destroyed hs hq ht ho => exact h.same (fun c => mem_note (s := s) (by decide)) rfl fun _ => rfl
  | @accept c' hc hf ht =>
    have hser : c'.serial = s.nextSerial := by rw [hc]
    have hlife := fun c => create_sameLife (c := c) hS hser (x := TcpServer.newConn cfg) rfl rfl
    have hnew : ¬ s.Removed c' := by
      rw [Sys.Removed, hS.pristine c' (Nat.le_of_eq hser.symm)]
      exact List.not_mem_nil
    refine ⟨fun n c hn => ?_, fun k c hn => ?_⟩
    · refine (and_congr_right fun _ => and_congr_right fun _ => not_congr (hlife c).removed).2 ?_
      have hn : Function.update s.connections c'.fd (some c') n = some c := hn
      by_cases hfd : n = c'.fd
      · subst hfd
        rw [Function.update_self, Option.some.injEq] at hn
        subst hn
        exact ⟨rfl, by rw [hc], hnew⟩
      · rw [Function.update_of_ne hfd] at hn
        exact h.table n c hn
    · exact (and_congr_right fun _ => not_congr (hlife c).removed).2 (h.client k c hn)
  | @newConnection k r c' p hs hc ht ho =>
    have hser : c'.serial = s.nextSerial := by rw [hc]
    have hlife := fun c => create_sameLife (c := c) hS hser (x := TcpClient.newConn cfg k) rfl rfl
    have hrm : ∀ c, ((s.create c' (TcpClient.newConn cfg k)).establish c' p).Removed c ↔
        s.Removed c := fun c =>
      (mem_establish (by decide) (by decide)).trans (hlife c).removed
    have hnew : ¬ s.Removed c' := by
      rw [Sys.Removed, hS.pristine c' (Nat.le_of_eq hser.symm)]
      exact List.not_mem_nil
    refine ⟨fun n c hn => ?_, fun k' c hn => ?_⟩
    · exact (and_congr_right fun _ => and_congr_right fun _ => not_congr (hrm c)).2 (h.table n c hn)
    · refine (and_congr_right fun _ => not_congr (hrm c)).2 ?_
      have hn : (((s.create c' (TcpClient.newConn cfg k)).updClient k fun x =>
        { x with connection := some c', phase := .ended }).clients k').connection = some c := hn
      by_cases hk : k' = k
      · subst hk
        rw [Sys.updClient_self, Option.some.injEq] at hn
        subst hn
        exact ⟨by rw [hc], hnew⟩
      · rw [Sys.updClient_of_ne _ hk] at hn
        exact h.client k' c hn
  | attempt hs ht hf hn ho =>
    exact (h.startSource hs).proceed (fun _ => .rfl) rfl rfl rfl
  | attemptFailed hs => exact (h.startSource hs).proceed (fun _ => .rfl) rfl rfl rfl
  | connect | connectQueued | removeChannel | retry | reset =>
    exact h.proceed (fun _ => .rfl) rfl rfl rfl
  | poll | dispatch | dispatched | idle | dequeue | finish | enqueue | events | handled | openFd
  | closeFd | destroy | hold | start | initPool | stop => exact h.same (fun _ => .rfl) rfl fun _ => rfl

theorem reach {P : Sys → Act → Prop} (h : Runs.Reach (step cfg) P (Sys.init cfg) s) : Linked s :=
  (Inv.reach (d := .any) ⟨nofun, nofun⟩
    (fun _ _ _ hI hi he => hi.effect hI.sound he) (fun _ _ _ _ _ _ _ => Discipline.any_allows) h).2

end Linked

/-- Nothing that refers to the connection is under way: user code holds it no more, no functor bound
to it is queued and no frame on a stack has it. -/
structure Sys.Quiet (s : Sys) (c : ConnId) : Prop where
  held : s.held c = false
  queue : ∀ l, ∀ k ∈ s.queue l, k.conn? ≠ some c
  stack : ∀ t, ∀ f ∈ s.stack t, f.conn? ≠ some c

/-- The book of such a connection is settled. -/
theorem Sys.Quiet.settled (h : s.Quiet c) (hb : (s.ledger cfg c).Ok) :
    (s.conns c).num .closeCb = (s.conns c).num .closeHandler ∧
      (s.conns c).num .destroyQueued = (s.conns c).num .closeHandler ∧
      (s.conns c).num .destroyed = (s.conns c).num .closeHandler := by
  have hcalls : (s.ledger cfg c).calls = 0 :=
    List.count_eq_zero_of_not_mem fun hm => h.stack _ _ hm rfl
  have hremovals : (s.ledger cfg c).removals = 0 :=
    List.count_eq_zero_of_not_mem fun hm => h.queue _ _ hm rfl
  have hdestroys : (s.ledger cfg c).destroys = 0 :=
    List.count_eq_zero_of_not_mem fun hm => h.queue _ _ hm rfl
  have hcloses := hb.closes
  have hcalled := hb.called
  have hunlinked := hb.unlinked
  rw [hcalls, hremovals] at hcloses
  rw [hcalls] at hcalled
  rw [hdestroys] at hunlinked
  show (s.ledger cfg c).called = (s.ledger cfg c).closes ∧
    (s.ledger cfg c).unlinked = (s.ledger cfg c).closes ∧
    (s.ledger cfg c).destroyed = (s.ledger cfg c).closes
  omega

/-- **A closed connection is let go.** In every run, of a connection whose `CloseHandler` has run
and to which nothing under way refers any more: its `close_cb_`, its removal and `ConnectDestoryed`
have each run exactly as often as `CloseHandler`, no reference to it is left anywhere, and if it
still exists its destructor can run. -/
theorem closed_released {P : Sys → Act → Prop} (h : Runs.Reach (step cfg) P (Sys.init cfg) s)
    (hc : s.Closed c) (hq : s.Quiet c) :
    ((s.conns c).num .closeCb = (s.conns c).num .closeHandler ∧
      (s.conns c).num .destroyQueued = (s.conns c).num .closeHandler ∧
      (s.conns c).num .destroyed = (s.conns c).num .closeHandler) ∧
    s.referenced cfg c = false ∧
    (s.alive c = true → s.failed = none → step cfg s (.destroy c) = some (s.destroy c)) := by
  have hset := hq.settled ((Inv.any h).life c)
  have hrm : s.Removed c := by
    rw [Sys.Removed, Conn.Removed, ← List.count_pos_iff]
    show 0 < (s.conns c).num .destroyQueued
    rw [hset.2.1]
    exact List.count_pos_iff.2 hc
  have hlink := Linked.reach h
  have href : s.referenced cfg c = false := by
    have htable : (s.connections c.fd == some c) = false :=
      beq_eq_false_iff_ne.2 fun he => (hlink.table _ _ he).2.2 hrm
    have hqueue : cfg.loops.any (fun l => (s.queue l).any fun k => k.conn? == some c) = false := by
      simpa using fun l _ k hk => hq.queue l k hk
    have hstack : cfg.threads.any (fun t => (s.stack t).any fun f => f.conn? == some c) = false := by
      simpa using fun t _ f hf => hq.stack t f hf
    rw [Sys.referenced, htable, hqueue, hstack, hq.held]
    cases ho : c.owner with
    | server => rfl
    | client k =>
      have hclient : ((s.clients k).connection == some c) = false :=
        beq_eq_false_iff_ne.2 fun he => (hlink.client _ _ he).2 hrm
      simp [hclient]
  refine ⟨hset, href, fun hal hf => ?_⟩
  simp [step, hf, hal, href, Sys.destroy]

/-- Only threads of the program have anything to run. -/
theorem threads_reach {P : Sys → Act → Prop} (h : Runs.Reach (step cfg) P (Sys.init cfg) s) (t : Tid) :
    s.stack t ≠ [] → t ∈ cfg.threads := by
  refine h.inv (I := fun s => s.stack t ≠ [] → t ∈ cfg.threads) (fun ht => ?_) ?_
  · cases t with
    | loop l =>
      by_cases hl : l ∈ cfg.loops
      · exact List.mem_append_left _ (List.mem_map_of_mem hl)
      · exact absurd (if_neg hl) ht
    | user u =>
      by_cases hu : u ∈ cfg.users
      · exact List.mem_append_right _ (List.mem_map_of_mem hu)
      · exact absurd (if_neg hu) ht
  · intro s a s' hr hi _ hst ht
    by_cases ha : ∃ inp, a = .thread t inp
    · obtain ⟨inp, rfl⟩ := ha
      refine hi fun hnil => ?_
      simp [step, hnil] at hst
    · have hsame : s'.stack t = s.stack t :=
        step_other (t := t) (I := fun s' => s'.stack t = s.stack t) (Inv.any hr) rfl
          (fun u s₁ s₂ hu hi he => (he.stack_of_ne hu.symm).trans hi) (fun inp e => ha ⟨inp, e⟩) hst
      exact hi (hsame ▸ ht)

/-- The peer closes the sample connection, which user code has kept and then lets go. -/
def sampleRelease : List Act :=
  sampleClose ++ loopActs [.none, .none, .none] ++
  [.thread (.user 7) (.call (.release sampleConn)), .thread (.user 7) .none]

theorem closed_released_sample :
    ∃ s, Runs.run (step .sample) (Sys.init .sample) sampleRelease = some s ∧
      s.Closed sampleConn ∧ s.Quiet sampleConn ∧
      step .sample s (.destroy sampleConn) = some (s.destroy sampleConn) := by
  have hrun : (Runs.run (step .sample) (Sys.init .sample) sampleRelease).map (fun s =>
      ((s.conns sampleConn).trace, s.queue 0, (s.stack (.loop 0), s.stack (.user 7)),
        decide (s.held sampleConn = false ∧ s.alive sampleConn = true ∧ s.failed = none))) =
      some ([.established, .statusCb, .closeHandler, .statusCb, .closeCb, .destroyQueued,
        .destroyed], [], ([.loopPoll 0], [.user none]), true) := by decide +kernel
  obtain ⟨s, hs, hx, hr⟩ := Runs.Reach.of_map _ hrun (Runs.admits_of_forall (fun _ _ => trivial) _ _)
  simp only [Prod.mk.injEq, decide_eq_true_eq] at hx
  obtain ⟨htr, hqueue, ⟨hloop, huser⟩, hheld, halive, hfail⟩ := hx
  have hclosed : s.Closed sampleConn := by
    rw [Sys.Closed, Conn.Closed, htr]
    decide
  have hq : s.Quiet sampleConn := by
    refine ⟨hheld, fun l k hk hc => ?_, fun t f hf hc => ?_⟩
    · -- the functors of a connection are queued on its loop or the server's
      have hhome := ((Inv.any hr).sound.tasks l k hk).home
      have hl : l = 0 := by
        cases k <;> simp_all [Task.conn?, Task.Home, sampleConn, Cfg.sample]
      rw [hl, hqueue] at hk
      cases hk
    · have ht := threads_reach hr t (List.ne_nil_of_mem hf)
      have ht : t = .loop 0 ∨ t = .user 7 := by simpa [Cfg.threads, Cfg.sample] using ht
      rcases ht with rfl | rfl
      · rw [hloop, List.mem_singleton] at hf
        subst hf
        cases hc
      · rw [huser, List.mem_singleton] at hf
        subst hf
        cases hc
  exact ⟨s, hs, hclosed, hq, (closed_released hr hclosed hq).2.2 halive hfail⟩

end Liang.Net
