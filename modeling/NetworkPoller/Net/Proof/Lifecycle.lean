import NetworkPoller.Net.Proof.Calls
import NetworkPoller.Net.Proof.Close

/-!
# The order of a connection's life

`ConnEv.mayFollow` is the protocol that a connection keeps to, as what an event needs to have before
it: it begins with `ConnectEstablished`, the status callback is made by that and by `CloseHandler`
only, and each of `CloseHandler`, `close_cb_`, the removal and `ConnectDestoryed` takes up one run
of the one before it. An effect adds to the trace of a connection in one of seven ways
(`Effect.grows`); with the balance of the connection's book (`Ledger.Ok`) each of them keeps the
protocol (`Lawful.grow`), in every run: also in those that close a connection twice.
-/

namespace Liang.Net

open Base TcpConnection

variable {cfg : Cfg} {d : Discipline} {s s' s₁ : Sys} {t : Tid} {c c' : ConnId}
  {tr tr' : List ConnEv} {e : ConnEv}

/-- What has to be in the trace before the event. -/
def ConnEv.mayFollow (p : List ConnEv) : ConnEv → Prop
  | .established => p = []
  | .statusCb => p.getLast? = some .established ∨ p.getLast? = some .closeHandler
  | .msgCb | .closeHandler => p ≠ []
  | .closeCb => p.count .closeCb < p.count .closeHandler
  | .destroyQueued => p.count .destroyQueued < p.count .closeCb
  | .destroyed => p.count .destroyed < p.count .destroyQueued

/-- Every event of the trace may follow what is before it. -/
def Lawful (tr : List ConnEv) : Prop := ∀ p e q, tr = p ++ e :: q → e.mayFollow p

/-- How a trace grows; `cb` says whether `status_cb_` is set. -/
inductive Grows (tr : List ConnEv) : List ConnEv → Prop
  | same : Grows tr tr
  | establish (h : .established ∉ tr) (cb : Bool) :
      Grows tr (tr ++ [.established] ++ if cb then [.statusCb] else [])
  | message (h : .established ∈ tr) : Grows tr (tr ++ [.msgCb])
  | close (h : .established ∈ tr) (cb : Bool) :
      Grows tr (tr ++ [.closeHandler] ++ if cb then [.statusCb] else [])
  | handOver : Grows tr (tr ++ [.closeCb])
  | unlink : Grows tr (tr ++ [.closeCb] ++ [.destroyQueued])
  | unlinkTaken : Grows tr (tr ++ [.destroyQueued])
  | destroy : Grows tr (tr ++ [.destroyed])

/-! ## The protocol -/

theorem lawful_nil : Lawful [] := fun p e q h => by simp at h

theorem Lawful.snoc (h : Lawful tr) (he : e.mayFollow tr) : Lawful (tr ++ [e]) := by
  intro p e' q heq
  rcases List.eq_nil_or_concat q with rfl | ⟨q', e'', rfl⟩
  · obtain ⟨rfl, ⟨⟩⟩ := List.append_inj' heq rfl
    exact he
  · have heq' : tr ++ [e] = (p ++ e' :: q') ++ [e''] := by simpa using heq
    obtain ⟨rfl, -⟩ := List.append_inj' heq' rfl
    exact h p e' q' rfl

/-- The status callback right after the handler that makes it. -/
theorem Lawful.status (h : Lawful (tr ++ [e])) (he : e = .established ∨ e = .closeHandler)
    (cb : Bool) : Lawful (tr ++ [e] ++ if cb then [.statusCb] else []) := by
  cases cb with
  | false => simpa using h
  | true =>
    refine h.snoc ?_
    rcases he with rfl | rfl <;> simp [ConnEv.mayFollow]

/-- Nothing comes before `ConnectEstablished`. -/
theorem Lawful.eq_nil (h : Lawful tr) (he : .established ∉ tr) : tr = [] := by
  cases tr with
  | nil => rfl
  | cons e q =>
    have hfirst : e.mayFollow [] := h [] e q rfl
    cases e with
    | established => exact absurd List.mem_cons_self he
    | statusCb => simp [ConnEv.mayFollow] at hfirst
    | msgCb | closeHandler => exact absurd rfl hfirst
    | closeCb | destroyQueued | destroyed => exact absurd hfirst (Nat.lt_irrefl 0)

/-- What follows was queued or called by what came before. -/
structure Balanced (tr : List ConnEv) : Prop where
  called : tr.count .closeCb ≤ tr.count .closeHandler
  unlinked : tr.count .destroyQueued ≤ tr.count .closeCb
  destroyed : tr.count .destroyed ≤ tr.count .destroyQueued

theorem Inv.balanced (hI : Inv cfg d s) : Balanced (s.conns c).trace := by
  obtain ⟨hcloses, hcalled, hunlinked, -, -⟩ := hI.life c
  simp only [Sys.ledger, Conn.num] at hcloses hcalled hunlinked
  exact ⟨by omega, by omega, by omega⟩

/-- **A trace that grows into a balanced one keeps to the protocol.** -/
theorem Lawful.grow (h : Lawful tr) (hg : Grows tr tr') (hb : Balanced tr') : Lawful tr' := by
  obtain ⟨hcalled, hunlinked, hdestroyed⟩ := hb
  cases hg with
  | same => exact h
  | establish he cb => exact (h.snoc (e := .established) (h.eq_nil he)).status (.inl rfl) cb
  | message he => exact h.snoc (List.ne_nil_of_mem he)
  | close he cb => exact (h.snoc (e := .closeHandler) (List.ne_nil_of_mem he)).status (.inr rfl) cb
  | handOver =>
    simp only [List.count_append] at hcalled
    exact h.snoc hcalled
  | unlink =>
    simp only [List.count_append] at hcalled hunlinked
    refine (h.snoc (e := .closeCb) hcalled).snoc ?_
    simp only [ConnEv.mayFollow, List.count_append]
    exact hunlinked
  | unlinkTaken =>
    simp only [List.count_append] at hunlinked
    exact h.snoc hunlinked
  | destroy =>
    simp only [List.count_append] at hdestroyed
    exact h.snoc hdestroyed

/-! ## What an effect adds to a trace -/

theorem updConn_trace {f : Conn → Conn} (h : (f (s.conns c')).trace = (s.conns c').trace)
    (c : ConnId) : ((s.updConn c' f).conns c).trace = (s.conns c).trace := by
  by_cases hc : c = c'
  · subst hc
    rwa [Sys.updConn_self]
  · rw [Sys.updConn_of_ne _ hc]

namespace Grows

theorem of_eq (h : tr' = tr) : Grows tr tr' := h ▸ .same

theorem updConn {f : Conn → Conn} (h : Grows (s.conns c').trace (f (s.conns c')).trace) :
    Grows (s.conns c).trace ((s.updConn c' f).conns c).trace := by
  by_cases hc : c = c'
  · subst hc
    rwa [Sys.updConn_self]
  · rw [Sys.updConn_of_ne _ hc]
    exact .same

theorem establishConn {p : EpollPoller ChanId} (hs : ∀ c, (s₁.conns c).trace = (s.conns c).trace)
    (h : .established ∉ (s.conns c').trace) :
    Grows (s.conns c).trace ((s₁.establish c' p).conns c).trace := by
  by_cases hc : c = c'
  · subst hc
    rw [Sys.establish_self, hs]
    exact .establish h _
  · rw [Sys.establish_of_ne hc]
    exact .of_eq (hs c)

theorem closeConn {p : EpollPoller ChanId} (hs : ∀ c, (s₁.conns c).trace = (s.conns c).trace)
    (h : .established ∈ (s.conns c').trace) :
    Grows (s.conns c).trace ((s₁.closeConn c' p).conns c).trace := by
  by_cases hc : c = c'
  · subst hc
    rw [Sys.closeConn_self, hs]
    exact .close h _
  · rw [Sys.closeConn_of_ne hc]
    exact .of_eq (hs c)

theorem note {es : List ConnEv} (h : Grows (s.conns c').trace ((s.conns c').trace ++ es)) :
    Grows (s.conns c).trace ((s.note c' es).conns c).trace := .updConn h

theorem note_unlink : Grows (s.conns c).trace
    (((s.note c' [.closeCb]).note c' [.destroyQueued]).conns c).trace := by
  by_cases hc : c = c'
  · subst hc
    simp only [Sys.note, Sys.updConn_self]
    exact .unlink
  · rw [note_of_ne hc, note_of_ne hc]
    exact .same

theorem connStep {w : Bool} {x x' : Conn} (he : x.Est) (h : ConnStep d t c w x x') :
    Grows x.trace x'.trace := by
  cases h with
  | msg => exact .message he
  | send _ hx => exact .of_eq hx.same.1
  | misc | drain | shut | shutdown | forceClose => exact .same

/-- A new connection has done nothing. -/
theorem create {x : Conn} (hS : Sound cfg d s) (hs : c'.serial = s.nextSerial) (hx : x.trace = []) :
    ((s.create c' x).conns c).trace = (s.conns c).trace := by
  by_cases hc : c = c'
  · subst hc
    have hnew : (s.create c x).conns c = x := Function.update_self ..
    rw [hS.pristine c (Nat.le_of_eq hs.symm), hnew, hx]
  · rw [show (s.create c' x).conns c = s.conns c from Function.update_of_ne hc ..]

end Grows

theorem Effect.grows (hS : Sound cfg d s) (he : Effect cfg d t s s') :
    Grows (s.conns c).trace (s'.conns c).trace := by
  cases he with
  | conn hl hx => exact .updConn (.connStep hl.1 hx)
  | @sendQueued c' m hl ht =>
    have hx : Grows (s.conns c).trace ((s.updConn c' fun x =>
        { x with sent := x.sent ++ [(t, m)] }).conns c).trace := .updConn .same
    exact hx
  | sendTaken hs hq hx => exact .updConn (s := s.dequeue t _ _ _) (.of_eq hx.same.1)
  | shutTaken hs hq hx =>
    refine .updConn (s := s.dequeue t _ _ _) (.of_eq ?_)
    rcases hx with rfl | ⟨-, rfl⟩ <;> rfl
  | @establish l r ks c' p hs hq ht ho =>
    exact .establishConn (fun _ => rfl) (hS.pending l c' (hq ▸ List.mem_cons_self)).1
  | close hr hl ht hc ho => exact .closeConn (fun _ => rfl) hl.1
  | @sendFailed l r ks c' T m p hs hq ht hst ho =>
    have hx : ∀ c, (((s.dequeue t l (.sendInLoop c' T m) ks).updConn c'
        fun x => { x with entered := x.entered ++ [(T, m)] }).conns c).trace = (s.conns c).trace :=
      updConn_trace rfl
    exact .closeConn hx (hS.task_live hq rfl (by simp)).1
  | handOver hs ho => exact .note (s := s) .handOver
  | unlink hs ho ht => exact .note_unlink (s := s)
  | unlinkTaken hs hq ht => exact .note (s := s) .unlinkTaken
  | unlinkClient hs ho ht => exact .note_unlink (s := s)
  | destroyed hs hq ht ho => exact .note (s := s) .destroy
  | @accept c' hc hf ht =>
    have hser : c'.serial = s.nextSerial := by rw [hc]
    exact .of_eq (Grows.create hS hser rfl)
  | @newConnection k r c' p hs hc ht ho =>
    have hser : c'.serial = s.nextSerial := by rw [hc]
    have hx : ∀ c, ((s.create c' (TcpClient.newConn cfg k)).conns c).trace = (s.conns c).trace :=
      fun c => Grows.create hS hser rfl
    exact .establishConn hx fun hm => Nat.lt_irrefl _ (hser ▸ hS.lt_next hm)
  | attempt hs ht hf hn ho => cases hs <;> exact .same
  | attemptFailed hs => cases hs <;> exact .same
  | poll | dispatch | dispatched | idle | dequeue | finish | enqueue | events | connect
  | connectQueued | handled | removeChannel | retry | reset | openFd | closeFd | destroy | hold
  | start | initPool | stop => exact .same

/-- **Every connection keeps to the protocol.** In every run, whatever the other threads do, the
trace of a connection begins with `ConnectEstablished`, which never runs again; its status callback
is made directly after that or after a `CloseHandler`; and at any point of it `ConnectDestoryed` has
run at most as often as it was queued, that at most as often as `close_cb_` was called, and that at
most as often as `CloseHandler` has run. -/
theorem lifecycle {P : Sys → Act → Prop} (h : Runs.Reach (step cfg) P (Sys.init cfg) s) (c : ConnId) :
    Lawful (s.conns c).trace :=
  (Inv.reach (d := .any) (I := fun s => Lawful (s.conns c).trace) lawful_nil
    (fun _ _ _ hI hi he => hi.grow (he.grows hI.sound) (hI.effect he).balanced)
    (fun _ _ _ _ _ _ _ => Discipline.any_allows) h).2

/-- A connection that is closed twice. -/
theorem lifecycle_sample :
    ∃ s, Runs.run (step .sample) (Sys.init .sample) reclosingRun = some s ∧
      (s.conns sampleConn).trace = [.established, .statusCb, .msgCb,
        .closeHandler, .statusCb, .closeCb, .destroyQueued,
        .closeHandler, .statusCb, .closeCb, .destroyQueued, .destroyed] ∧
      Lawful (s.conns sampleConn).trace := by
  have hrun : (Runs.run (step .sample) (Sys.init .sample) reclosingRun).map
      (fun s => (s.conns sampleConn).trace) =
      some [.established, .statusCb, .msgCb,
        .closeHandler, .statusCb, .closeCb, .destroyQueued,
        .closeHandler, .statusCb, .closeCb, .destroyQueued, .destroyed] := by decide +kernel
  obtain ⟨s, hs, htr, hr⟩ := Runs.Reach.of_map _ hrun (Runs.admits_of_forall (fun _ _ => trivial) _ _)
  exact ⟨s, hs, htr, lifecycle hr sampleConn⟩

end Liang.Net
