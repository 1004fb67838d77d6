import NetworkPoller.Net.Proof.Shape

/-!
# The life of a connection

`Ledger` is a connection's life as a book: how often `CloseHandler` has run, how many calls of
`close_cb_`, removals and destructions are still under way (as frames and functors) and how many are
done. An effect changes the book of a connection in one of seven ways (`Effect.ledger`), all of
which keep it balanced (`LedgerStep.ok`): what `CloseHandler` has started is on its way, or done.
-/

namespace Liang.Net

open TcpConnection

@[ext] structure Ledger where
  /-- `ConnectEstablished` has run -/
  est : Bool
  /-- `state_` is `DISCONNECTED` -/
  disc : Bool
  /-- runs of `CloseHandler` -/
  closes : Nat
  /-- calls of `close_cb_` to be made, and made -/
  calls : Nat
  called : Nat
  /-- `RemoveConnectionInLoop` queued -/
  removals : Nat
  /-- `ConnectDestoryed` ever queued, queued, and done -/
  unlinked : Nat
  destroys : Nat
  destroyed : Nat

namespace Ledger

/-- The book is balanced. -/
structure Ok (b : Ledger) : Prop where
  closes : b.closes = b.calls + b.removals + b.unlinked
  called : b.closes = b.called + b.calls
  unlinked : b.unlinked = b.destroys + b.destroyed
  disc : b.disc = true ↔ 0 < b.closes
  est : 0 < b.closes → b.est = true

end Ledger

/-- What happens in a connection's life; `again` says whether it can be closed twice. -/
inductive LedgerStep (again : Prop) (b : Ledger) : Ledger → Prop
  | same : LedgerStep again b b
  | establish (h : b.est = false) : LedgerStep again b { b with est := true, disc := false }
  | close (he : b.est = true) (ha : 0 < b.closes → again) :
      LedgerStep again b { b with disc := true, closes := b.closes + 1, calls := b.calls + 1 }
  | handOver {n : Nat} (h : b.calls = n + 1) :
      LedgerStep again b
        { b with calls := n, called := b.called + 1, removals := b.removals + 1 }
  | unlink {n : Nat} (h : b.calls = n + 1) :
      LedgerStep again b
        { b with
          calls := n, called := b.called + 1, unlinked := b.unlinked + 1
          destroys := b.destroys + 1 }
  | unlinkTaken {n : Nat} (h : b.removals = n + 1) :
      LedgerStep again b
        { b with removals := n, unlinked := b.unlinked + 1, destroys := b.destroys + 1 }
  | destroy {n : Nat} (h : b.destroys = n + 1) :
      LedgerStep again b { b with destroys := n, destroyed := b.destroyed + 1 }

/-- **Whatever happens keeps the book balanced.** -/
theorem LedgerStep.ok {again : Prop} {b b' : Ledger} (h : b.Ok) (hs : LedgerStep again b b') :
    b'.Ok := by
  obtain ⟨h1, h2, h3, h4, h5⟩ := h
  cases hs with
  | same => exact ⟨h1, h2, h3, h4, h5⟩
  | establish he =>
    have h0 : b.closes = 0 := Nat.eq_zero_of_not_pos fun hp => by rw [h5 hp] at he; cases he
    exact ⟨h1, h2, h3, ⟨nofun, fun hp => by simp [h0] at hp⟩, fun _ => rfl⟩
  | close he ha => exact ⟨by simp; omega, by simp; omega, h3, by simp, fun _ => he⟩
  | handOver hn => exact ⟨by simp; omega, by simp; omega, h3, h4, h5⟩
  | unlink hn => exact ⟨by simp; omega, by simp; omega, by simp; omega, h4, h5⟩
  | unlinkTaken hn => exact ⟨by simp; omega, h2, by simp; omega, h4, h5⟩
  | destroy hn => exact ⟨h1, h2, by simp; omega, h4, h5⟩

/-- How often `e` is in the trace. -/
def Conn.num (x : Conn) (e : ConnEv) : Nat := x.trace.count e

/-- The book of the connection `c`. -/
def Sys.ledger (cfg : Cfg) (s : Sys) (c : ConnId) : Ledger where
  est := decide (.established ∈ (s.conns c).trace)
  disc := decide ((s.conns c).state = .disconnected)
  closes := (s.conns c).num .closeHandler
  calls := (s.stack (.loop c.loop)).count (.closeCb c)
  called := (s.conns c).num .closeCb
  removals := (s.queue cfg.serverLoop).count (.removeConnectionInLoop c)
  unlinked := (s.conns c).num .destroyQueued
  destroys := (s.queue c.loop).count (.connectDestoryed c)
  destroyed := (s.conns c).num .destroyed

/-! ## Counting -/

section

variable {cfg : Cfg} {d : Discipline} {s s' : Sys} {t t' : Tid} {c c' : ConnId} {l l' : LoopId}
  {k k' : Task} {ks : List Task} {f : Frame} {r fs gs : List Frame}

theorem count_closeCb_of_light (h : ∀ g ∈ gs, g.light = true) : gs.count (.closeCb c) = 0 :=
  List.count_eq_zero_of_not_mem fun hm => by cases h _ hm

theorem count_closeCb_status : (statusFrames c' s).count (.closeCb c) = 0 :=
  count_closeCb_of_light fun g hg => by rw [mem_statusFrames hg]; rfl

/-- A functor has been taken from the queue and is done. -/
theorem count_taskDone (hs : s.stack t = .loopTasks l :: r) :
    (Frame.taskDone k :: .loopPoll l :: r).count (.closeCb c) = (s.stack t).count (.closeCb c) := by
  rw [hs]
  simp

/-- What is left under a frame or after a functor has the calls of the whole stack. -/
theorem Rest.count (h : Rest d s t r) : r.count (.closeCb c) = (s.stack t).count (.closeCb c) := by
  cases h with
  | @frame f r hs hf =>
    rw [hs, List.count_cons_of_ne]
    rintro rfl
    cases hf
  | task hs _ => exact count_taskDone hs

theorem StartSource.count {k : ClientId} {s₀ : Sys} (h : StartSource t k s s₀ r) :
    r.count (.closeCb c) = (s.stack t).count (.closeCb c) := by
  cases h with
  | frame hs => rw [hs]; simp
  | task hs _ => exact count_taskDone hs

theorem count_push {q : Tid → List Frame} (h : fs.count f = (q t).count f) :
    (Function.update q t fs t').count f = (q t').count f := by
  by_cases ht : t' = t
  · subst ht
    rw [Function.update_self, h]
  · rw [Function.update_of_ne ht]

/-- Counting in a queue that `k` was appended to. -/
theorem count_appended (q : LoopId → List Task) :
    (Function.update q l (q l ++ [k]) l').count k' =
      (q l').count k' + if l' = l ∧ k = k' then 1 else 0 := by
  by_cases hl : l' = l
  · subst hl
    simp [List.count_singleton]
  · simp [hl]

theorem count_appended_ne {q : LoopId → List Task} (h : k ≠ k') :
    (Function.update q l (q l ++ [k]) l').count k' = (q l').count k' := by
  simp [count_appended, h]

/-- Counting in a queue that `k` was taken from. -/
theorem count_taken {q : LoopId → List Task} (hq : q l = k :: ks) :
    (q l').count k' = (Function.update q l ks l').count k' + if l' = l ∧ k = k' then 1 else 0 := by
  by_cases hl : l' = l
  · subst hl
    simp [hq, List.count_cons]
  · simp [hl]

theorem count_taken_ne {q : LoopId → List Task} (hq : q l = k :: ks) (h : k ≠ k') :
    (Function.update q l ks l').count k' = (q l').count k' := by
  simp [count_taken hq, h]

/-- The parts of a connection the book reads are the same. -/
structure Conn.SameLife (x x' : Conn) : Prop where
  est : .established ∈ x'.trace ↔ .established ∈ x.trace
  disc : x'.state = .disconnected ↔ x.state = .disconnected
  closes : x'.num .closeHandler = x.num .closeHandler
  called : x'.num .closeCb = x.num .closeCb
  unlinked : x'.num .destroyQueued = x.num .destroyQueued
  destroyed : x'.num .destroyed = x.num .destroyed

theorem Conn.SameLife.refl (x : Conn) : x.SameLife x := ⟨.rfl, .rfl, rfl, rfl, rfl, rfl⟩

theorem Conn.SameLife.of_eq {x x' : Conn} (ht : x'.trace = x.trace)
    (hd : x'.state = .disconnected ↔ x.state = .disconnected) : x.SameLife x' :=
  ⟨by rw [ht], hd, by simp only [Conn.num, ht], by simp only [Conn.num, ht],
    by simp only [Conn.num, ht], by simp only [Conn.num, ht]⟩

theorem Enter.sameLife {w : Bool} {T : Tid} {m : Msg} {x x' : Conn} (h : Enter w T m x x') :
    x.SameLife x' := .of_eq h.same.1 (by rw [h.same.2.2])

theorem ConnStep.sameLife {w : Bool} {x x' : Conn} (h : ConnStep d t c w x x') :
    x.SameLife x' := by
  cases h with
  | msg _ =>
    exact ⟨by simp, .rfl, List.count_append .., List.count_append .., List.count_append ..,
      List.count_append ..⟩
  | send _ he => exact .of_eq he.same.1 (by rw [he.same.2.2])
  | shutdown hc => exact .of_eq rfl (by simp [hc])
  | forceClose hc => exact .of_eq rfl (by simp [hc])
  | misc | drain | shut => exact .of_eq rfl .rfl

theorem ledger_eq (hx : (s.conns c).SameLife (s'.conns c))
    (hst : (s'.stack (.loop c.loop)).count (.closeCb c) =
      (s.stack (.loop c.loop)).count (.closeCb c))
    (hr : (s'.queue cfg.serverLoop).count (.removeConnectionInLoop c) =
      (s.queue cfg.serverLoop).count (.removeConnectionInLoop c))
    (hd : (s'.queue c.loop).count (.connectDestoryed c) =
      (s.queue c.loop).count (.connectDestoryed c)) :
    s'.ledger cfg c = s.ledger cfg c := by
  simp only [Sys.ledger, hx.est, hx.disc, hx.closes, hx.called, hx.unlinked, hx.destroyed, hst, hr,
    hd]

/-- Nothing the book reads has changed. -/
theorem LedgerStep.of_same {again : Prop} (hx : (s.conns c).SameLife (s'.conns c))
    (hst : (s'.stack (.loop c.loop)).count (.closeCb c) =
      (s.stack (.loop c.loop)).count (.closeCb c))
    (hr : (s'.queue cfg.serverLoop).count (.removeConnectionInLoop c) =
      (s.queue cfg.serverLoop).count (.removeConnectionInLoop c))
    (hd : (s'.queue c.loop).count (.connectDestoryed c) =
      (s.queue c.loop).count (.connectDestoryed c)) :
    LedgerStep again (s.ledger cfg c) (s'.ledger cfg c) := by
  rw [ledger_eq hx hst hr hd]
  exact .same

theorem updConn_sameLife {g : Conn → Conn} (h : (s.conns c').SameLife (g (s.conns c'))) :
    (s.conns c).SameLife ((s.updConn c' g).conns c) := by
  by_cases hc : c = c'
  · subst hc
    rw [Sys.updConn_self]
    exact h
  · rw [Sys.updConn_of_ne _ hc]
    exact .refl _

theorem count_status {b : Bool} {e : ConnEv} (he : e ≠ .statusCb) :
    (if b then [ConnEv.statusCb] else []).count e = 0 := by
  cases b <;> simp [Ne.symm he]

/-- The book after `CloseHandler`, whatever `s₀` has been prepared for it. -/
theorem ledger_close {s₀ : Sys} {p : EpollPoller ChanId} (hx : (s.conns c).SameLife (s₀.conns c))
    (hr : (s₀.queue cfg.serverLoop).count (.removeConnectionInLoop c) =
      (s.queue cfg.serverLoop).count (.removeConnectionInLoop c))
    (hd : (s₀.queue c.loop).count (.connectDestoryed c) =
      (s.queue c.loop).count (.connectDestoryed c))
    (hc : r.count (.closeCb c) = (s.stack (.loop c.loop)).count (.closeCb c)) :
    ((s₀.closeConn c p).push (.loop c.loop) (statusFrames c s ++ .closeCb c :: r)).ledger cfg c =
      { s.ledger cfg c with
        disc := true
        closes := (s.ledger cfg c).closes + 1
        calls := (s.ledger cfg c).calls + 1 } := by
  have hnum : ∀ e, e ≠ .statusCb → ((s₀.closeConn c p).conns c).num e =
      (s₀.conns c).num e + [ConnEv.closeHandler].count e := by
    intro e he
    rw [Sys.closeConn_self, Conn.num, Conn.num, List.count_append, count_status he,
      List.count_append, Nat.add_zero]
  have hest : .established ∈ ((s₀.closeConn c p).conns c).trace ↔
      .established ∈ (s₀.conns c).trace := by
    rw [Sys.closeConn_self]
    split <;> simp
  refine Ledger.ext (decide_eq_decide.2 (hest.trans hx.est)) ?_ ?_ ?_ ?_ hr ?_ hd ?_
  · show decide (((s₀.closeConn c p).conns c).state = .disconnected) = true
    rw [Sys.closeConn_self]
    rfl
  · exact (hnum .closeHandler nofun).trans (congrArg (· + 1) hx.closes)
  · show (((s₀.closeConn c p).push _ _).stack _).count _ = (s.stack _).count _ + 1
    rw [Sys.push_self, List.count_append, count_closeCb_status, Nat.zero_add, List.count_cons_self,
      hc]
  · exact (hnum .closeCb nofun).trans hx.called
  · exact (hnum .destroyQueued nofun).trans hx.unlinked
  · exact (hnum .destroyed nofun).trans hx.destroyed

/-- The book of another connection after `CloseHandler`. -/
theorem ledger_close_of_ne {s₀ : Sys} {p : EpollPoller ChanId} {again : Prop} (hne : c ≠ c')
    (hx : (s.conns c).SameLife (s₀.conns c)) (hst : s₀.stack = s.stack)
    (hr : (s₀.queue cfg.serverLoop).count (.removeConnectionInLoop c) =
      (s.queue cfg.serverLoop).count (.removeConnectionInLoop c))
    (hd : (s₀.queue c.loop).count (.connectDestoryed c) =
      (s.queue c.loop).count (.connectDestoryed c))
    (hc : r.count (.closeCb c) = (s.stack t).count (.closeCb c)) :
    LedgerStep again (s.ledger cfg c)
      (((s₀.closeConn c' p).push t (statusFrames c' s ++ .closeCb c' :: r)).ledger cfg c) := by
  refine .of_same ?_ ?_ hr hd
  · show (s.conns c).SameLife ((s₀.closeConn c' p).conns c)
    rwa [Sys.closeConn_of_ne hne]
  · refine (count_push ?_).trans (by rw [← hst]; rfl)
    have hs : (s₀.closeConn c' p).stack = s.stack := hst
    rw [List.count_append, count_closeCb_status, Nat.zero_add, List.count_cons_of_ne, hc, hs]
    rintro ⟨⟩
    exact hne rfl

/-- The book after `ConnectEstablished`. -/
theorem ledger_establish {s₀ : Sys} {p : EpollPoller ChanId} {again : Prop} (hn : ¬ s.Est c)
    (hx : (s.conns c).SameLife (s₀.conns c)) (hst : s₀.stack = s.stack)
    (hr : (s₀.queue cfg.serverLoop).count (.removeConnectionInLoop c) =
      (s.queue cfg.serverLoop).count (.removeConnectionInLoop c))
    (hd : (s₀.queue c.loop).count (.connectDestoryed c) =
      (s.queue c.loop).count (.connectDestoryed c))
    (hc : fs.count (.closeCb c) = (s.stack t).count (.closeCb c)) :
    LedgerStep again (s.ledger cfg c) (((s₀.establish c p).push t fs).ledger cfg c) := by
  have hnum : ∀ e, e ≠ .statusCb → e ≠ .established → ((s₀.establish c p).conns c).num e =
      (s₀.conns c).num e := by
    intro e he he'
    rw [Sys.establish_self, Conn.num, Conn.num, List.count_append, count_status he,
      List.count_append, Nat.add_zero, List.count_singleton]
    simp [Ne.symm he']
  have hs : (s₀.establish c p).stack = s.stack := hst
  convert LedgerStep.establish (b := s.ledger cfg c) (decide_eq_false hn) using 1
  refine Ledger.ext ?_ ?_ ?_ ?_ ?_ hr ?_ hd ?_
  · show decide (.established ∈ ((s₀.establish c p).conns c).trace) = true
    rw [Sys.establish_self]
    simp
  · show decide (((s₀.establish c p).conns c).state = .disconnected) = false
    rw [Sys.establish_self]
    rfl
  · exact (hnum .closeHandler nofun nofun).trans hx.closes
  · exact (count_push (by rw [hc, hs])).trans (by rw [hs]; rfl)
  · exact (hnum .closeCb nofun nofun).trans hx.called
  · exact (hnum .destroyQueued nofun nofun).trans hx.unlinked
  · exact (hnum .destroyed nofun nofun).trans hx.destroyed

theorem note_of_ne {es : List ConnEv} (h : c ≠ c') : (s.note c' es).conns c = s.conns c :=
  Sys.updConn_of_ne _ h

/-! What is in a trace stays there, and nothing else comes in. -/

theorem mem_note {e : ConnEv} {es : List ConnEv} (he : e ∉ es) :
    e ∈ ((s.note c' es).conns c).trace ↔ e ∈ (s.conns c).trace := by
  by_cases hc : c = c'
  · subst hc
    simp [Sys.note, he]
  · rw [note_of_ne hc]

theorem mem_establish {e : ConnEv} {p : EpollPoller ChanId} (he : e ≠ .established)
    (hs : e ≠ .statusCb) : e ∈ ((s.establish c' p).conns c).trace ↔ e ∈ (s.conns c).trace := by
  by_cases hc : c = c'
  · subst hc
    rw [Sys.establish_self]
    cases (s.conns c).statusCb <;> simp [he, hs]
  · rw [Sys.establish_of_ne hc]

theorem mem_closeConn {e : ConnEv} {p : EpollPoller ChanId} (he : e ≠ .closeHandler)
    (hs : e ≠ .statusCb) : e ∈ ((s.closeConn c' p).conns c).trace ↔ e ∈ (s.conns c).trace := by
  by_cases hc : c = c'
  · subst hc
    rw [Sys.closeConn_self]
    cases (s.conns c).statusCb <;> simp [he, hs]
  · rw [Sys.closeConn_of_ne hc]

theorem count_closeCb_cons (hs : s.stack t = .closeCb c' :: r) (h : c ≠ c') :
    r.count (.closeCb c) = (s.stack t).count (.closeCb c) := by
  rw [hs, List.count_cons_of_ne]
  rintro ⟨⟩
  exact h rfl

/-- The book when the thread of its loop calls `close_cb_`, and that unlinks the connection. -/
theorem ledger_unlink {again : Prop} (hs : s.stack (.loop c'.loop) = .closeCb c' :: r) :
    LedgerStep again (s.ledger cfg c)
      ((((s.note c' [.closeCb]).unlink (.loop c'.loop) c').push (.loop c'.loop) r).ledger cfg c) := by
  by_cases hc : c = c'
  · subst hc
    have hn : (s.ledger cfg c).calls = r.count (.closeCb c) + 1 := by simp [Sys.ledger, hs]
    convert LedgerStep.unlink hn using 1
    simp [Sys.ledger, Conn.num, Sys.unlink, Sys.note, Sys.updConn, Sys.queueInLoop, Sys.push,
      count_appended]
  · refine .of_same ?_ (count_push (count_closeCb_cons hs hc)) (count_appended_ne (by simp))
      (count_appended_ne ?_)
    · show (s.conns c).SameLife ((Sys.note (s.note c' _) c' _).conns c)
      rw [note_of_ne hc, note_of_ne hc]
      exact .refl _
    · rintro ⟨⟩
      exact hc rfl

/-- `StartInLoop` touches no connection, whatever it is started from. -/
theorem StartSource.ledger {again : Prop} {k : ClientId} {s₀ : Sys} (h : StartSource t k s s₀ r)
    (hx : s'.conns = s₀.conns) (hst : s'.stack = Function.update s₀.stack t r)
    (hq : s'.queue = s₀.queue) : LedgerStep again (s.ledger cfg c) (s'.ledger cfg c) := by
  have hc := h.count (c := c)
  cases h with
  | frame hs =>
    refine .of_same (by rw [hx]; exact .refl _) ?_ (by rw [hq]) (by rw [hq])
    rw [hst]
    exact count_push hc
  | task hs hk =>
    refine .of_same (by rw [hx]; exact .refl _) ?_ ?_ ?_
    · rw [hst]
      exact count_push hc
    · rw [hq]
      exact count_taken_ne hk (by simp)
    · rw [hq]
      exact count_taken_ne hk (by simp)

theorem create_sameLife {x : Conn} (hS : Sound cfg d s) (hs : c'.serial = s.nextSerial)
    (hx : x.trace = []) (hst : x.state = .connecting) :
    (s.conns c).SameLife ((s.create c' x).conns c) := by
  by_cases hc : c = c'
  · subst hc
    rw [hS.pristine c (Nat.le_of_eq hs.symm),
      show (s.create c x).conns c = x from Function.update_self ..]
    exact .of_eq hx (by simp [hst])
  · rw [show (s.create c' x).conns c = s.conns c from Function.update_of_ne hc ..]
    exact .refl _

/-- **What an effect does to the life of a connection.** -/
theorem Effect.ledger (hS : Sound cfg d s) (hL : (s.ledger cfg c).Ok)
    (he : Effect cfg d t s s') : LedgerStep d.recloses (s.ledger cfg c) (s'.ledger cfg c) := by
  cases he with
  | poll hs hp => exact .of_same (.refl _) (count_push (by simp [Sys.poll, hs])) rfl rfl
  | dispatch hs ha =>
    exact .of_same (.refl _) (count_push (by simp [Sys.dispatch, hs])) rfl rfl
  | dispatched hs ha =>
    exact .of_same (.refl _) (count_push (by simp [Sys.dispatch, hs])) rfl rfl
  | idle hs hq => exact .of_same (.refl _) (count_push (by simp [hs])) rfl rfl
  | dequeue hs hq hk =>
    exact .of_same (.refl _) rfl (count_taken_ne hq (by rintro rfl; cases hk))
      (count_taken_ne hq (by rintro rfl; cases hk))
  | finish hr hg =>
    refine .of_same (.refl _) (count_push ?_) rfl rfl
    rw [List.count_append, count_closeCb_of_light fun g hgm => (hg g hgm).1, hr.count, Nat.zero_add]
  | enqueue hk hf =>
    refine .of_same (.refl _) rfl (count_appended_ne ?_) (count_appended_ne ?_) <;>
    · rintro rfl
      rcases hk with hk | ⟨_, hk⟩ <;> cases hk
  | conn he hx => exact .of_same (updConn_sameLife hx.sameLife) rfl rfl rfl
  | @sendQueued c' m he ht =>
    have hx : (s.conns c).SameLife ((s.updConn c' fun x =>
        { x with sent := x.sent ++ [(t, m)] }).conns c) := updConn_sameLife (.of_eq rfl .rfl)
    exact .of_same hx rfl (count_appended_ne (by simp)) (count_appended_ne (by simp))
  | sendTaken hs hq hx =>
    exact .of_same (updConn_sameLife (s := s.dequeue t _ _ _) hx.sameLife) rfl
      (count_taken_ne hq (by simp)) (count_taken_ne hq (by simp))
  | shutTaken hs hq hx =>
    refine .of_same (updConn_sameLife (s := s.dequeue t _ _ _) ?_) rfl
      (count_taken_ne hq (by simp)) (count_taken_ne hq (by simp))
    rcases hx with rfl | ⟨-, rfl⟩ <;> exact .of_eq rfl .rfl
  | @establish l r ks c' p hs hq ht ho =>
    have hst : (statusFrames c' s ++ .taskDone (.connectEstablished c') :: .loopPoll l :: r).count
        (.closeCb c) = (s.stack t).count (.closeCb c) := by
      rw [List.count_append, count_closeCb_status, Nat.zero_add, count_taskDone hs]
    by_cases hc : c = c'
    · subst hc
      exact ledger_establish (hS.pending l c (hq ▸ List.mem_cons_self)).1 (.refl _) rfl
        (count_taken_ne hq (by simp)) (count_taken_ne hq (by simp)) hst
    · refine .of_same ?_ (count_push hst) (count_taken_ne hq (by simp)) (count_taken_ne hq (by simp))
      show (s.conns c).SameLife ((Sys.establish _ c' p).conns c)
      rw [Sys.establish_of_ne hc]
      exact .refl _
  | @close r c' p hr he ht hc ho =>
    subst ht
    by_cases hcc : c = c'
    · subst hcc
      rw [ledger_close (.refl _) rfl rfl hr.count]
      exact .close (decide_eq_true he.1) fun hp => (hc (List.count_pos_iff.1 hp)).1
    · exact ledger_close_of_ne hcc (.refl _) rfl rfl rfl hr.count
  | @sendFailed l r ks c' T m p hs hq ht hd ho =>
    subst ht
    have hx : (s.conns c).SameLife (((s.dequeue (.loop c'.loop) l (.sendInLoop c' T m) ks).updConn c'
        fun x => { x with entered := x.entered ++ [(T, m)] }).conns c) :=
      updConn_sameLife (s := s.dequeue _ _ _ _) (.of_eq rfl .rfl)
    have hst := count_taskDone (c := c) (k := .sendInLoop c' T m) hs
    by_cases hcc : c = c'
    · subst hcc
      rw [ledger_close hx (count_taken_ne hq (by simp))
        (count_taken_ne hq (by simp)) hst]
      refine .close (decide_eq_true (hS.task_live hq rfl (by simp)).1) fun hp => ?_
      exact absurd (of_decide_eq_true (hL.disc.2 hp)) hd
    · exact ledger_close_of_ne hcc hx rfl (count_taken_ne hq (by simp)) (count_taken_ne hq (by simp)) hst
  | @handOver r c' hs ho =>
    obtain rfl : t = .loop c'.loop := hS.loop_thread hs
    by_cases hc : c = c'
    · subst hc
      have hn : (s.ledger cfg c).calls = r.count (.closeCb c) + 1 := by simp [Sys.ledger, hs]
      convert LedgerStep.handOver hn using 1
      simp [Sys.ledger, Conn.num, Sys.note, Sys.updConn, Sys.queueInLoop, Sys.push,
        count_appended]
    · refine .of_same ?_ (count_push (count_closeCb_cons hs hc)) (count_appended_ne ?_)
        (count_appended_ne (by simp))
      · show (s.conns c).SameLife ((s.note c' _).conns c)
        rw [note_of_ne hc]
        exact .refl _
      · rintro ⟨⟩
        exact hc rfl
  | @unlink r c' hs ho ht =>
    have htc : t = .loop c'.loop := hS.loop_thread hs
    subst htc
    exact ledger_unlink hs
  | @unlinkTaken l r ks c' hs hq ht =>
    obtain ⟨rfl, -⟩ := (hS.tasks l _ (hq ▸ List.mem_cons_self)).home
    have hst := count_taskDone (c := c) (k := .removeConnectionInLoop c') hs
    by_cases hc : c = c'
    · subst hc
      have hn : (s.ledger cfg c).removals = ks.count (.removeConnectionInLoop c) + 1 := by
        simp [Sys.ledger, hq]
      convert LedgerStep.unlinkTaken hn using 1
      simp [Sys.ledger, Conn.num, Sys.unlink, Sys.dequeue, Sys.note, Sys.updConn, Sys.queueInLoop,
        Sys.push, count_appended, count_push hst, count_taken_ne hq]
    · have hne : Task.removeConnectionInLoop c' ≠ .removeConnectionInLoop c := by
        rintro ⟨⟩
        exact hc rfl
      refine .of_same ?_ (count_push hst)
        ((count_appended_ne (by simp)).trans (count_taken_ne hq hne))
        ((count_appended_ne ?_).trans (count_taken_ne hq (by simp)))
      · show (s.conns c).SameLife ((Sys.note _ c' _).conns c)
        rw [note_of_ne hc]
        exact .refl _
      · rintro ⟨⟩
        exact hc rfl
  | @unlinkClient r c' k hs ho ht =>
    subst ht
    -- the book reads neither the server's table nor the client's pointer
    exact ledger_unlink hs
  | @destroyed l r ks c' p hs hq ht ho =>
    have hm : Task.connectDestoryed c' ∈ s.queue l := hq ▸ List.mem_cons_self
    obtain rfl : l = c'.loop := (hS.tasks l _ hm).home
    have hst := count_taskDone (c := c) (k := .connectDestoryed c') hs
    by_cases hc : c = c'
    · subst hc
      have hn : (s.ledger cfg c).destroys = ks.count (.connectDestoryed c) + 1 := by
        simp [Sys.ledger, hq]
      convert LedgerStep.destroy hn using 1
      simp [Sys.ledger, Conn.num, Sys.dequeue, Sys.setPoller, Sys.note, Sys.updConn, Sys.push,
        count_push hst, count_taken_ne hq]
    · have hne : Task.connectDestoryed c' ≠ .connectDestoryed c := by
        rintro ⟨⟩
        exact hc rfl
      refine .of_same ?_ (count_push hst) (count_taken_ne hq (by simp)) (count_taken_ne hq hne)
      show (s.conns c).SameLife ((Sys.note _ c' _).conns c)
      rw [note_of_ne hc]
      exact .refl _
  | @accept c' hc hf ht =>
    have hx : (s.conns c).SameLife ((s.create c' (TcpServer.newConn cfg)).conns c) :=
      create_sameLife hS (by rw [hc]) rfl rfl
    exact .of_same hx rfl (count_appended_ne (by simp)) (count_appended_ne (by simp))
  | connect hr hs =>
    refine .of_same (.refl _) (count_push ?_) rfl rfl
    exact (List.count_cons_of_ne (by simp)).trans hr.count
  | connectQueued hs =>
    exact .of_same (.refl _) (count_push (by simp [Sys.queueInLoop, Sys.updClient, hs]))
      (count_appended_ne (by simp)) (count_appended_ne (by simp))
  | attempt hs ht hf hn ho => exact hs.ledger rfl rfl rfl
  | attemptFailed hs => exact hs.ledger rfl rfl rfl
  | handled hs hg =>
    refine .of_same (.refl _) (count_push ?_) rfl rfl
    rw [hs]
    rcases hg with rfl | rfl <;> simp
  | removeChannel hs ht hk ho hp =>
    refine .of_same (.refl _) (count_push ?_) (count_appended_ne (by simp)) (count_appended_ne (by simp))
    simp [Sys.queueInLoop, Sys.updClient, Sys.setPoller, hs]
  | retry hs hf =>
    exact .of_same (.refl _) (count_push (by simp [Sys.queueInLoop, Sys.updClient, Sys.closeFd, hs]))
      (count_appended_ne (by simp)) (count_appended_ne (by simp))
  | @newConnection k r c' p hs hc ht ho =>
    have hser : c'.serial = s.nextSerial := by rw [hc]
    have hx : (s.conns c).SameLife ((s.create c' (TcpClient.newConn cfg k)).conns c) :=
      create_sameLife hS hser rfl rfl
    have hst : ((if cfg.clientStatusCb k then [Frame.user (some c')] else []) ++ r).count
        (.closeCb c) = (s.stack t).count (.closeCb c) := by
      rw [hs]
      split <;> simp
    by_cases hcc : c = c'
    · subst hcc
      exact ledger_establish (fun he => Nat.lt_irrefl _ (hser ▸ hS.lt_next he)) hx rfl rfl rfl hst
    · refine .of_same ?_ (count_push hst) rfl rfl
      show (s.conns c).SameLife ((Sys.establish _ c' p).conns c)
      rw [Sys.establish_of_ne hcc]
      exact hx
  | reset hs hq =>
    exact .of_same (.refl _) (count_push (by simp [Sys.updClient, Sys.dequeue, hs]))
      (count_taken_ne hq (by simp)) (count_taken_ne hq (by simp))
  | events | openFd | closeFd | destroy | hold | start | initPool | stop => exact .same

end

end Liang.Net
