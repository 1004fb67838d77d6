import NetworkPoller.Net.Proof.Confine

/-!
# One connection at a time

`Cell` is what the runs of a connection are about: the object, the mask and the status of its
channel, and the messages and the shutdown that wait for it in its loop's queue. An effect changes
the cell of a connection by steps of `CellStep` (`Effect.cell`), so that an invariant of one
connection is shown for these (`Cell.reach`).
-/

namespace Liang.Net

open Base TcpConnection EpollPoller

structure Cell where
  conn : Conn
  events : Mask
  status : ChannelStatus
  /-- the output that waits in the loop's queue -/
  tasks : List Task

/-- `IsWriting` of the channel. -/
def Cell.writing (a : Cell) : Bool := Event.writeEventFlag &&& a.events != 0

def Sys.cell (s : Sys) (c : ConnId) : Cell where
  conn := s.conns c
  events := (s.chan c).events
  status := (s.chan c).status
  tasks := (s.queue c.loop).filter (·.outputOf c)

/-- After `ConnectEstablished`. -/
def Conn.established (x : Conn) : Conn :=
  { x with
    state := .connected
    trace := x.trace ++ [.established] ++ if x.statusCb then [.statusCb] else [] }

/-- After `CloseHandler`, up to `close_cb_`. -/
def Conn.closed (x : Conn) : Conn :=
  { x with
    state := .disconnected
    trace := x.trace ++ [.closeHandler] ++ if x.statusCb then [.statusCb] else [] }

def Conn.noted (x : Conn) (e : ConnEv) : Conn := { x with trace := x.trace ++ [e] }

/-- A new connection, whatever callbacks it is given. -/
def Conn.Fresh (x : Conn) : Prop :=
  ∃ cm cw cs, x = { msgCb := cm, writtenCb := cw, statusCb := cs }

/-- What can happen to a connection. -/
inductive CellStep (d : Discipline) (t : Tid) (c : ConnId) (a : Cell) : Cell → Prop
  | create {x} (hp : a.conn = {}) (hq : a.tasks = []) (hx : x.Fresh) :
      CellStep d t c a { a with conn := x }
  | establish {st} (hn : ¬ a.conn.Est) (hd : a.conn.state ≠ .disconnected)
      (hst : st ≠ .newChannel) :
      CellStep d t c a { a with
        conn := a.conn.established, events := a.events ||| Event.readEventFlag, status := st }
  | conn {x'} (he : a.conn.Est) (h : ConnStep d t c a.writing a.conn x') :
      CellStep d t c a { a with conn := x' }
  | events {g : Mask → Mask} {st : ChannelStatus} (he : a.conn.Est)
      (hc : a.conn.Closed → a.events = Event.noneEventFlag → d.rearms)
      (hw : Event.writeEventFlag &&& g a.events = 0 → a.writing = true →
        a.conn.writeBuffer.readableBytes = 0) (hst : st ≠ .newChannel) :
      CellStep d t c a { a with events := g a.events, status := st }
  | sendQueued {m} (he : a.conn.Est) (ht : t ≠ .loop c.loop) :
      CellStep d t c a { a with
        conn := { a.conn with sent := a.conn.sent ++ [(t, m)] }
        tasks := a.tasks ++ [.sendInLoop c t m] }
  | sendTaken {T m ks x'} (he : a.conn.Est) (hT : T ≠ .loop c.loop)
      (hq : a.tasks = .sendInLoop c T m :: ks) (hx : Enter a.writing T m a.conn x') :
      CellStep d t c a { a with conn := x', tasks := ks }
  | sendFailed {T m ks st} (he : a.conn.Est) (hT : T ≠ .loop c.loop)
      (hq : a.tasks = .sendInLoop c T m :: ks) (hs : a.conn.state ≠ .disconnected)
      (hst : st ≠ .newChannel) :
      CellStep d t c a {
        conn := Conn.closed { a.conn with entered := a.conn.entered ++ [(T, m)] }
        events := Event.noneEventFlag, status := st, tasks := ks }
  | shutQueued (h : a.conn.closer ≠ none) :
      CellStep d t c a { a with tasks := a.tasks ++ [.shutdownInLoop c] }
  | shutTaken {ks x'} (he : a.conn.Est) (hq : a.tasks = .shutdownInLoop c :: ks)
      (hz : a.conn.closer ≠ none) (hx : x' = a.conn ∨ a.writing = false ∧ x' = a.conn.shut) :
      CellStep d t c a { a with conn := x', tasks := ks }
  | close {st} (he : a.conn.Est) (hc : a.conn.Closed → d.recloses) (hst : st ≠ .newChannel) :
      CellStep d t c a { a with
        conn := a.conn.closed, events := Event.noneEventFlag, status := st }
  | closeCb (h : a.conn.num .closeCb < a.conn.num .closeHandler) :
      CellStep d t c a { a with conn := a.conn.noted .closeCb }
  | unlink (h : a.conn.Closed) : CellStep d t c a { a with conn := a.conn.noted .destroyQueued }
  | destroyed (h : a.conn.Closed) (hev : a.events = Event.noneEventFlag)
      (hst : a.status ≠ .newChannel) :
      CellStep d t c a { a with conn := a.conn.noted .destroyed, status := .newChannel }

abbrev CellSteps (d : Discipline) (t : Tid) (c : ConnId) : Cell → Cell → Prop :=
  Relation.ReflTransGen (CellStep d t c)

variable {cfg : Cfg} {d : Discipline} {s s' s₁ : Sys} {t : Tid} {c c' : ConnId} {l : LoopId}
  {k : Task} {ks : List Task}

/-- An effect changes the stack of its own thread only. -/
theorem Effect.stack_of_ne {t' : Tid} (he : Effect cfg d t s s') (ht : t' ≠ t) :
    s'.stack t' = s.stack t' := by
  cases he with
  | attempt hs => cases hs <;> exact Function.update_of_ne ht ..
  | attemptFailed hs => cases hs <;> exact Function.update_of_ne ht ..
  | dequeue | enqueue | conn | events | sendQueued | sendTaken | shutTaken | accept | openFd | closeFd
  | destroy | hold | start | initPool | stop => rfl
  | _ => exact Function.update_of_ne ht ..

/-! ## The parts of a cell -/

theorem cell_congr (hc : s'.conns c = s.conns c) (he : (s'.chan c).events = (s.chan c).events)
    (hs : (s'.chan c).status = (s.chan c).status)
    (hq : (s'.queue c.loop).filter (·.outputOf c) = (s.queue c.loop).filter (·.outputOf c)) :
    s'.cell c = s.cell c := by
  simp only [Sys.cell, hc, he, hs, hq]

/-- Nothing of the cell has changed. -/
theorem CellSteps.same (hc : s'.conns c = s.conns c) (hch : s'.chan c = s.chan c)
    (hq : (s'.queue c.loop).filter (·.outputOf c) = (s.queue c.loop).filter (·.outputOf c)) :
    CellSteps d t c (s.cell c) (s'.cell c) := by
  rw [cell_congr hc (by rw [hch]) (by rw [hch]) hq]

theorem filter_appended_ne {q : LoopId → List Task} (hk : k.outputOf c = false) :
    (Function.update q l (q l ++ [k]) c.loop).filter (·.outputOf c) =
      (q c.loop).filter (·.outputOf c) := by
  by_cases hl : c.loop = l
  · subst hl
    simp [hk]
  · rw [Function.update_of_ne hl]

theorem filter_taken_ne {q : LoopId → List Task} (hq : q l = k :: ks) (hk : k.outputOf c = false) :
    (Function.update q l ks c.loop).filter (·.outputOf c) = (q c.loop).filter (·.outputOf c) := by
  by_cases hl : c.loop = l
  · subst hl
    simp [hq, hk]
  · rw [Function.update_of_ne hl]

theorem chan_setPoller_self {p : EpollPoller ChanId} :
    (s.setPoller c.loop p).chan c = p.chan (.conn c) := by
  rw [Sys.chan, Sys.setPoller_self]

/-- A channel operation on another channel. -/
theorem chan_setPoller_of_ne {i : ChanId} {p : EpollPoller ChanId} (hi : i ≠ .conn c)
    (hp : ∀ j, j ≠ i → p.chan j = (s.pollers l).chan j) : (s.setPoller l p).chan c = s.chan c := by
  unfold Sys.chan
  by_cases hl : c.loop = l
  · subst hl
    rw [Sys.setPoller_self]
    exact hp _ hi.symm
  · rw [Sys.setPoller_of_ne _ hl]

theorem cell_closeConn {p : EpollPoller ChanId}
    (ho : (s.pollers c.loop).disableAll (ChanId.fd cfg) (.conn c) = .ok p) :
    (s.closeConn c p).cell c = { s.cell c with
      conn := (s.conns c).closed, events := Event.noneEventFlag, status := (p.chan (.conn c)).status } ∧
      (p.chan (.conn c)).status ≠ .newChannel := by
  obtain ⟨hev, hst, -⟩ := setEvents_chan ho
  have hch : (s.closeConn c p).chan c = p.chan (.conn c) :=
    chan_setPoller_self (s := s)
  refine ⟨?_, hst⟩
  simp only [Sys.cell, hch, hev, Sys.closeConn_self]
  rfl

theorem cell_establish {p : EpollPoller ChanId}
    (ho : (s.pollers c.loop).enableReading (ChanId.fd cfg) (.conn c) = .ok p) :
    (s.establish c p).cell c = { s.cell c with
      conn := (s.conns c).established
      events := (s.chan c).events ||| Event.readEventFlag
      status := (p.chan (.conn c)).status } ∧ (p.chan (.conn c)).status ≠ .newChannel := by
  obtain ⟨hev, hst, -⟩ := setEvents_chan ho
  have hch : (s.establish c p).chan c = p.chan (.conn c) :=
    chan_setPoller_self (s := s)
  refine ⟨?_, hst⟩
  simp only [Sys.cell, hch, hev, Sys.establish_self]
  rfl

theorem cell_updConn (f : Conn → Conn) :
    (s.updConn c f).cell c = { s.cell c with conn := f (s.conns c) } := by
  simp only [Sys.cell, Sys.updConn_self]
  rfl

/-- The book of a connection: an outstanding `close_cb_` is one that was not called yet. -/
theorem Inv.closeCb_due (hI : Inv cfg d s) {r : List Frame} (hs : s.stack t = .closeCb c :: r) :
    (s.conns c).num .closeCb < (s.conns c).num .closeHandler := by
  obtain rfl : t = .loop c.loop := hI.sound.loop_thread hs
  have hpos : 0 < (s.ledger cfg c).calls := by simp [Sys.ledger, hs]
  have := (hI.life c).called
  show (s.ledger cfg c).called < (s.ledger cfg c).closes
  omega

theorem Inv.est_of_disconnected (hI : Inv cfg d s) (hd : (s.conns c).state = .disconnected) :
    s.Est c := by
  have hest := (hI.life c).est ((hI.life c).disc.1 (decide_eq_true hd))
  simpa [Sys.ledger, Conn.Est] using hest

theorem Conn.closed_of_num {x : Conn} (h : 0 < x.num .closeHandler) : x.Closed :=
  List.count_pos_iff.1 h

theorem Inv.closed_of_task (hI : Inv cfg d s) (hk : k = .removeConnectionInLoop c ∨
    k = .connectDestoryed c) (hm : k ∈ s.queue l) : (s.conns c).Closed := by
  have hok := hI.life c
  have hh := (hI.sound.tasks l k hm).home
  refine Conn.closed_of_num (show 0 < (s.ledger cfg c).closes from ?_)
  have hc := hok.closes
  have hu := hok.unlinked
  rcases hk with rfl | rfl
  · obtain ⟨rfl, -⟩ := hh
    have hpos : 0 < (s.ledger cfg c).removals := List.count_pos_iff.2 hm
    omega
  · obtain rfl := hh
    have hpos : 0 < (s.ledger cfg c).destroys := List.count_pos_iff.2 hm
    omega

/-- Nothing waits for a connection that has not been made. -/
theorem Inv.no_tasks (hI : Inv cfg d s) (hs : c.serial = s.nextSerial) : (s.cell c).tasks = [] := by
  refine List.filter_eq_nil_iff.2 fun k hk hout => ?_
  have hne : ¬ s.Live d c := fun hl => Nat.lt_irrefl _ (hs ▸ hI.sound.lt_next hl.1)
  have hf := hI.sound.tasks c.loop k hk
  cases k with
  | sendInLoop c' T m =>
    obtain rfl : c' = c := of_decide_eq_true hout
    exact hne ((hf.about _ rfl).resolve_left nofun)
  | shutdownInLoop c' =>
    obtain rfl : c' = c := of_decide_eq_true hout
    exact hne ((hf.about _ rfl).resolve_left nofun)
  | _ => cases hout

/-- The first functor of a queue, if it carries output of `c`, is the first of the cell's. -/
theorem cell_tasks (hl : l = c.loop) (hq : s.queue l = k :: ks) (hk : k.outputOf c = true) :
    (s.cell c).tasks = k :: ks.filter (·.outputOf c) := by
  subst hl
  simp [Sys.cell, hq, hk]

theorem cell_dequeue (hl : l = c.loop) :
    (s.dequeue t l k ks).cell c = { s.cell c with tasks := ks.filter (·.outputOf c) } := by
  subst hl
  simp only [Sys.cell, Sys.dequeue_self]
  rfl

theorem cell_dequeue_ne (hq : s.queue l = k :: ks) (hk : k.outputOf c = false) :
    (s.dequeue t l k ks).cell c = s.cell c := cell_congr rfl rfl rfl (filter_taken_ne hq hk)

theorem cell_queueInLoop (hk : k.outputOf c = true) :
    (s.queueInLoop t c.loop k).cell c = { s.cell c with tasks := (s.cell c).tasks ++ [k] } := by
  simp only [Sys.cell, Sys.queueInLoop_self, List.filter_append, List.filter_cons, hk, if_true,
    List.filter_nil]
  rfl

theorem outputOf_of_light (h : k.light = true) : k.outputOf c = false := by
  cases k with
  | sendInLoop | shutdownInLoop => cases h
  | _ => rfl

theorem chan_closeConn_of_ne {p : EpollPoller ChanId} (hc : c ≠ c')
    (ho : (s.pollers c'.loop).disableAll (ChanId.fd cfg) (.conn c') = .ok p) :
    (s.closeConn c' p).chan c = s.chan c :=
  chan_setPoller_of_ne (i := .conn c') (by simpa using hc.symm) (setEvents_chan ho).2.2

theorem chan_establish_of_ne {p : EpollPoller ChanId} (hc : c ≠ c')
    (ho : (s.pollers c'.loop).enableReading (ChanId.fd cfg) (.conn c') = .ok p) :
    (s.establish c' p).chan c = s.chan c :=
  chan_setPoller_of_ne (i := .conn c') (by simpa using hc.symm) (setEvents_chan ho).2.2

theorem outputOf_ne {T : Tid} {m : Msg} (hc : c ≠ c') :
    (Task.sendInLoop c' T m).outputOf c = false ∧ (Task.shutdownInLoop c').outputOf c = false :=
  ⟨decide_eq_false hc.symm, decide_eq_false hc.symm⟩

theorem outputOf_self {T : Tid} {m : Msg} :
    (Task.sendInLoop c T m).outputOf c = true ∧ (Task.shutdownInLoop c).outputOf c = true :=
  ⟨decide_eq_true rfl, decide_eq_true rfl⟩

/-- The steps lead to a cell `b`, and `s'` has the parts of `b`. -/
theorem CellSteps.to {a b : Cell} (h : CellSteps d t c a b) (hc : s'.conns c = b.conn)
    (hev : (s'.chan c).events = b.events) (hst : (s'.chan c).status = b.status)
    (hq : (s'.queue c.loop).filter (·.outputOf c) = b.tasks) : CellSteps d t c a (s'.cell c) := by
  obtain ⟨x, e, st, ks⟩ := b
  dsimp only at hc hev hst hq
  rw [Sys.cell, hc, hev, hst, hq]
  exact h

/-- `close_cb_` is called, and `ConnectDestoryed` queued. -/
theorem Inv.unlinkSteps (hI : Inv cfg d s) {r : List Frame} (hs : s.stack t = .closeCb c :: r) :
    CellSteps d t c (s.cell c)
      { s.cell c with conn := ((s.conns c).noted .closeCb).noted .destroyQueued } := by
  have hdue := hI.closeCb_due hs
  have hcl : ((s.conns c).noted .closeCb).Closed :=
    List.mem_append_left _ (Conn.closed_of_num (Nat.lt_of_le_of_lt (Nat.zero_le _) hdue))
  exact .head (.closeCb hdue) (.single (.unlink hcl))

/-- The same, seen from any connection. -/
theorem Inv.cell_unlink (hI : Inv cfg d s) {r : List Frame} (hs : s.stack t = .closeCb c' :: r) :
    CellSteps d t c (s.cell c) ((((s.note c' [.closeCb]).unlink t c').push t r).cell c) := by
  have hq := filter_appended_ne (c := c) (q := s.queue) (l := c'.loop)
    (k := .connectDestoryed c') rfl
  by_cases hc : c = c'
  · subst hc
    refine CellSteps.to (hI.unlinkSteps hs) ?_ rfl rfl hq
    exact (Function.update_self ..).trans (congrArg (Conn.noted · _) (Function.update_self ..))
  · exact .same ((Function.update_of_ne hc ..).trans (note_of_ne hc)) rfl hq

/-- **What an effect does to a connection.** -/
theorem Effect.cell (hI : Inv cfg d s) (he : Effect cfg d t s s') :
    CellSteps d t c (s.cell c) (s'.cell c) := by
  have hS := hI.sound
  cases he with
  | @poll l r evs hs hp =>
    obtain ⟨-, hst⟩ := setRecieved_spec (hS.books l) evs
    have hch : (s.setPoller l (setRecieved (s.pollers l) evs)).cell c = s.cell c := by
      by_cases hl : c.loop = l
      · subst hl
        exact cell_congr rfl (by rw [chan_setPoller_self]; exact (hst _).2)
          (by rw [chan_setPoller_self]; exact (hst _).1) rfl
      · refine cell_congr rfl ?_ ?_ rfl <;> rw [Sys.chan, Sys.setPoller_of_ne _ hl] <;> rfl
    exact hch ▸ .refl
  | dequeue hs hq hk => exact .same rfl rfl (filter_taken_ne hq (outputOf_of_light hk))
  | @enqueue l k hk hf =>
    rcases hk with hk | ⟨c', rfl⟩
    · exact .same rfl rfl (filter_appended_ne (outputOf_of_light hk))
    · by_cases hc : c = c'
      · subst hc
        obtain rfl : l = c.loop := hf.home
        rw [cell_queueInLoop (outputOf_self (T := t) (m := [])).2]
        exact .single (.shutQueued (hf.shut c rfl))
      · exact .same rfl rfl (filter_appended_ne (outputOf_ne (T := t) (m := []) hc).2)
  | @conn c' x' hl hx =>
    by_cases hc : c = c'
    · subst hc
      rw [cell_updConn]
      exact .single (.conn hl.1 hx)
    · exact .same (Sys.updConn_of_ne _ hc) rfl rfl
  | @events i g p ht ho hi =>
    by_cases hic : i = .conn c
    · subst hic
      obtain ⟨hev, hst, -⟩ := setEvents_chan ho
      have hcell : (s.setPoller c.loop p).cell c =
          { s.cell c with events := g (s.chan c).events, status := (p.chan (.conn c)).status } := by
        simp only [Sys.cell, chan_setPoller_self, hev]
        rfl
      show CellSteps d t c (s.cell c) ((s.setPoller c.loop p).cell c)
      rw [hcell]
      exact .single (.events hi.1.1 hi.2.1 hi.2.2 hst)
    · exact .same rfl (chan_setPoller_of_ne hic (setEvents_chan ho).2.2) rfl
  | @sendQueued c' m hl ht =>
    by_cases hc : c = c'
    · subst hc
      rw [cell_queueInLoop outputOf_self.1, cell_updConn]
      exact .single (.sendQueued hl.1 ht)
    · exact .same (Function.update_of_ne hc ..) rfl
        (filter_appended_ne (q := s.queue) (outputOf_ne hc).1)
  | @sendTaken l r ks c' T m x' hs hq hx =>
    by_cases hc : c = c'
    · subst hc
      have hh := (hS.tasks l _ (hq ▸ List.mem_cons_self)).home
      rw [cell_updConn, cell_dequeue hh.1]
      exact .single (.sendTaken (hS.task_live hq rfl (by simp)).1 hh.2
        (cell_tasks hh.1 hq outputOf_self.1) hx)
    · exact .same (Sys.updConn_of_ne _ hc) rfl (filter_taken_ne hq (outputOf_ne hc).1)
  | @shutTaken l r ks c' x' hs hq hx =>
    by_cases hc : c = c'
    · subst hc
      have hf := hS.tasks l _ (hq ▸ List.mem_cons_self)
      rw [cell_updConn, cell_dequeue hf.home]
      exact .single (.shutTaken (hS.task_live hq rfl (by simp)).1
        (cell_tasks hf.home hq (outputOf_self (T := t) (m := [])).2) (hf.shut c rfl) hx)
    · exact .same (Sys.updConn_of_ne _ hc) rfl
        (filter_taken_ne hq (outputOf_ne (T := t) (m := []) hc).2)
  | @establish l r ks c' p hs hq ht ho =>
    by_cases hc : c = c'
    · subst hc
      obtain ⟨hcell, hst⟩ := cell_establish (s := s.dequeue t l (.connectEstablished c) ks) ho
      show CellSteps d t c (s.cell c) (Sys.cell (Sys.establish _ c p) c)
      rw [hcell, cell_dequeue_ne hq rfl]
      have hn := (hS.pending l c (hq ▸ List.mem_cons_self)).1
      exact .single (.establish hn (fun hd => hn (hI.est_of_disconnected hd)) hst)
    · exact .same (Sys.establish_of_ne hc) (chan_establish_of_ne (s := s.dequeue t l _ ks) hc ho)
        (filter_taken_ne hq rfl)
  | @close r c' p hr hl ht hcl ho =>
    by_cases hc : c = c'
    · subst hc
      obtain ⟨hcell, hst⟩ := cell_closeConn ho
      show CellSteps d t c (s.cell c) ((s.closeConn c p).cell c)
      rw [hcell]
      exact .single (.close hl.1 (fun h => (hcl h).1) hst)
    · exact .same (Sys.closeConn_of_ne hc) (chan_closeConn_of_ne hc ho) rfl
  | @sendFailed l r ks c' T m p hs hq ht hd ho =>
    by_cases hc : c = c'
    · subst hc
      have hh := (hS.tasks l _ (hq ▸ List.mem_cons_self)).home
      obtain ⟨hcell, hst⟩ := cell_closeConn (s := (s.dequeue t l (.sendInLoop c T m) ks).updConn c
        fun x => { x with entered := x.entered ++ [(T, m)] }) ho
      show CellSteps d t c (s.cell c) (Sys.cell (Sys.closeConn _ c p) c)
      rw [hcell, cell_updConn, cell_dequeue hh.1, Sys.updConn_self]
      exact .single (.sendFailed (hS.task_live hq rfl (by simp)).1 hh.2
        (cell_tasks hh.1 hq outputOf_self.1) hd hst)
    · refine .same ?_ ?_ (filter_taken_ne hq (outputOf_ne hc).1)
      · exact (Sys.closeConn_of_ne hc).trans (Sys.updConn_of_ne (s := s.dequeue t l _ ks) _ hc)
      · exact chan_closeConn_of_ne (s := (s.dequeue t l (.sendInLoop c' T m) ks).updConn c' _) hc ho
  | @handOver r c' hs ho =>
    have hq := filter_appended_ne (c := c) (q := s.queue) (l := cfg.serverLoop)
      (k := .removeConnectionInLoop c') rfl
    by_cases hc : c = c'
    · subst hc
      exact CellSteps.to (.single (.closeCb (hI.closeCb_due hs))) (Function.update_self ..) rfl rfl hq
    · exact .same (note_of_ne hc) rfl hq
  | unlink hs ho ht => exact hI.cell_unlink hs
  | @unlinkTaken l r ks c' hs hq ht =>
    have hq' := (filter_appended_ne (c := c) (q := Function.update s.queue l ks) (l := c'.loop)
      (k := .connectDestoryed c') rfl).trans (filter_taken_ne hq rfl)
    by_cases hc : c = c'
    · subst hc
      have hcl := hI.closed_of_task (.inl rfl) (hq ▸ List.mem_cons_self)
      exact CellSteps.to (.single (.unlink hcl)) (Function.update_self ..) rfl rfl hq'
    · exact .same (Function.update_of_ne hc ..) rfl hq'
  | unlinkClient hs ho ht => exact hI.cell_unlink hs
  | @destroyed l r ks c' p hs hq ht ho =>
    obtain ⟨hev, hst, hne⟩ := removeEventChannel_chan ho
    by_cases hc : c = c'
    · subst hc
      have hcl := hI.closed_of_task (.inr rfl) (hq ▸ List.mem_cons_self)
      have hch : ((s.setPoller c.loop p).chan c).events = (s.chan c).events ∧
          ((s.setPoller c.loop p).chan c).status = .newChannel := by
        rw [chan_setPoller_self, hst]
        exact ⟨rfl, rfl⟩
      exact CellSteps.to (.single (.destroyed hcl hev (removeEventChannel_cases ho).2.2.1))
        (Function.update_self ..) hch.1 hch.2 (filter_taken_ne hq rfl)
    · exact .same (Function.update_of_ne hc ..)
        (chan_setPoller_of_ne (s := s) (i := .conn c') (by simpa using Ne.symm hc) hne)
        (filter_taken_ne hq rfl)
  | @accept c' hc hf ht =>
    have hq := filter_appended_ne (c := c) (q := s.queue) (l := c'.loop)
      (k := .connectEstablished c') rfl
    by_cases hcc : c = c'
    · subst hcc
      have hser : c.serial = s.nextSerial := by rw [hc]
      exact CellSteps.to (.single (.create (hS.pristine c (Nat.le_of_eq hser.symm)) (hI.no_tasks hser)
        ⟨_, _, _, rfl⟩)) (Function.update_self ..) rfl rfl hq
    · exact .same (Function.update_of_ne hcc ..) rfl hq
  | @attempt k s₀ r fd n p hs ht hf hn ho =>
    have hch : (s.setPoller (cfg.clientLoop k) p).chan c = s.chan c :=
      chan_setPoller_of_ne (i := .connector k n fd) (by simp) (setEvents_chan ho).2.2
    cases hs with
    | frame hs => exact .same rfl hch rfl
    | task hs hq => exact .same rfl hch (filter_taken_ne hq rfl)
  | attemptFailed hs =>
    cases hs with
    | frame hs => exact .refl
    | task hs hq => exact .same rfl rfl (filter_taken_ne hq rfl)
  | @removeChannel k r n fd p p' hs ht hk ho hp =>
    have hch : (s.setPoller (cfg.clientLoop k) p').chan c = s.chan c :=
      chan_setPoller_of_ne (i := .connector k n fd) (by simp) fun j hj =>
        ((removeEventChannel_chan hp).2.2 j hj).trans ((setEvents_chan ho).2.2 j hj)
    exact .same rfl hch (filter_appended_ne (q := s.queue) rfl)
  | @newConnection k r c' p hs hc ht ho =>
    have hser : c'.serial = s.nextSerial := by rw [hc]
    by_cases hcc : c = c'
    · subst hcc
      have hnew : (s.create c (TcpClient.newConn cfg k)).conns c = TcpClient.newConn cfg k :=
        Function.update_self ..
      obtain ⟨hcell, hst⟩ := cell_establish (s := (s.create c (TcpClient.newConn cfg k)).updClient k
        fun x => { x with connection := some c, phase := .ended }) ho
      have hcr : CellSteps d t c (s.cell c) ((s.create c (TcpClient.newConn cfg k)).cell c) :=
        CellSteps.to (.single (.create (hS.pristine c (Nat.le_of_eq hser.symm)) (hI.no_tasks hser)
          ⟨_, _, _, rfl⟩)) hnew rfl rfl rfl
      refine hcr.trans ?_
      show CellSteps d t c _ (Sys.cell (Sys.establish ((s.create c _).updClient k _) c p) c)
      rw [hcell]
      refine .single (.establish (fun he => ?_) (fun hd => ?_) hst)
      · have he : (Sys.conns (s.create c _) c).Est := he
        rw [hnew] at he
        cases he
      · have hd : (Sys.conns (s.create c _) c).state = .disconnected := hd
        rw [hnew] at hd
        cases hd
    · exact .same ((Sys.establish_of_ne hcc).trans (Function.update_of_ne hcc ..))
        (chan_establish_of_ne (s := s.create c' (TcpClient.newConn cfg k)) hcc ho) rfl
  | reset hs hq => exact .same rfl rfl (filter_taken_ne hq rfl)
  | connectQueued hs => exact .same rfl rfl (filter_appended_ne (q := s.queue) rfl)
  | retry hs hf => exact .same rfl rfl (filter_appended_ne (q := s.queue) rfl)
  | dispatch | dispatched | idle | finish | handled | connect | openFd | closeFd | destroy | hold
  | start | initPool | stop => exact .refl

/-- What every step of a cell keeps, an effect does. -/
theorem Cell.effect {I : Cell → Prop} (hs : ∀ a b, I a → CellStep d t c a b → I b)
    (hI : Inv cfg d s) (hi : I (s.cell c)) (he : Effect cfg d t s s') : I (s'.cell c) := by
  have h := he.cell (c := c) hI
  generalize s'.cell c = b at h ⊢
  induction h with
  | refl => exact hi
  | tail _ hlast ih => exact hs _ _ ih hlast

/-- The invariant rule for one connection. -/
theorem Cell.reach {P : Sys → Act → Prop} {I : Cell → Prop}
    (h0 : I ⟨{}, Event.noneEventFlag, .newChannel, []⟩)
    (hs : ∀ t a b, I a → CellStep d t c a b → I b)
    (ha : ∀ s a s', Inv cfg d s → I (s.cell c) → P s a → step cfg s a = some s' →
      d.Allows cfg s a) (h : Runs.Reach (step cfg) P (Sys.init cfg) s) : I (s.cell c) :=
  (Inv.reach (I := fun s => I (s.cell c)) h0 (fun t _ _ hI hi he => Cell.effect (hs t) hI hi he)
    ha h).2

end Liang.Net
