import NetworkPoller.Net.Proof.Cell
import Mathlib.Data.List.TakeWhile

/-!
# Closed connections

`Cell.Quiet`: after `CloseHandler` the channel asks for no events, as long as `StartReadInLoop` does
not arm it again. `Sys.Gone`: after `ConnectDestoryed` the channel is out of the poller, it is not
on the active list and no handler runs on it; it never comes back, since all that could arm it is a
handler, or looks at the state first. Together they give `closed_stays_quiet`, and with
`Cell.Hushed`, for the runs in which the handlers find no closed connection, `closed_once`.
-/

namespace Liang.Net

open Base TcpConnection EpollPoller

variable {cfg : Cfg} {d : Discipline} {s s' : Sys} {t t' : Tid} {c : ConnId}

/-! ## After `CloseHandler` -/

structure Cell.Quiet (a : Cell) : Prop where
  est : a.conn.Closed → a.conn.Est
  disc : a.conn.Closed → a.conn.state = .disconnected
  silent : a.conn.Closed → a.events = Event.noneEventFlag
  known : a.conn.Est → .destroyed ∉ a.conn.trace → a.status ≠ .newChannel

/-- The trace of a handler that makes the status callback. -/
theorem mem_handlerTrace {es : List ConnEv} {e e' : ConnEv} {cb : Bool}
    (h : e ∈ es ++ [e'] ++ if cb then [.statusCb] else []) : e ∈ es ∨ e = e' ∨ e = .statusCb := by
  cases cb <;> simp at h <;> tauto

namespace Cell.Quiet

variable {a b : Cell}

/-- The trace grows by events that are not the handlers'. -/
theorem of_trace (h : a.Quiet) (he : b.conn.Est ↔ a.conn.Est) (hc : b.conn.Closed ↔ a.conn.Closed)
    (hd : .destroyed ∈ a.conn.trace → .destroyed ∈ b.conn.trace)
    (hst : a.conn.state = .disconnected → b.conn.state = .disconnected)
    (hev : b.events = a.events) (hs : .destroyed ∉ b.conn.trace → b.status = a.status) :
    b.Quiet where
  est hcl := he.2 (h.est (hc.1 hcl))
  disc hcl := hst (h.disc (hc.1 hcl))
  silent hcl := by rw [hev]; exact h.silent (hc.1 hcl)
  known hest hn := by
    rw [hs hn]
    exact h.known (he.1 hest) fun hm => hn (hd hm)

theorem of_sameTrace (h : a.Quiet) (ht : b.conn.trace = a.conn.trace)
    (hst : a.conn.state = .disconnected → b.conn.state = .disconnected)
    (hev : b.events = a.events) (hs : b.status = a.status) : b.Quiet :=
  h.of_trace (by rw [Conn.Est, ht]; rfl) (by rw [Conn.Closed, ht]; rfl) (fun hm => ht ▸ hm) hst hev
    fun _ => hs

/-- `CloseHandler` has just run. -/
theorem close {x : Conn} (he : x.Est) {st : ChannelStatus} (hst : st ≠ .newChannel)
    {ks : List Task} : Cell.Quiet ⟨x.closed, Event.noneEventFlag, st, ks⟩ :=
  ⟨fun _ => List.mem_append_left _ (List.mem_append_left _ he), fun _ => rfl, fun _ => rfl,
    fun _ _ => hst⟩

theorem step (h : a.Quiet) (hd : ¬ d.rearms) (hs : CellStep d t c a b) : b.Quiet := by
  cases hs with
  | create hp hq hx =>
    obtain ⟨cm, cw, cs, rfl⟩ := hx
    exact ⟨nofun, nofun, nofun, nofun⟩
  | establish hn hdis hst =>
    have hcl : ¬ a.conn.established.Closed := fun hm => by
      rcases mem_handlerTrace hm with hm | hm | hm
      · exact hn (h.est hm)
      · cases hm
      · cases hm
    exact ⟨fun hm => absurd hm hcl, fun hm => absurd hm hcl, fun hm => absurd hm hcl,
      fun _ _ => hst⟩
  | conn he hx =>
    cases hx with
    | misc | drain | shut => exact h.of_sameTrace rfl id rfl rfl
    | msg =>
      refine h.of_trace ?_ ?_ (List.mem_append_left _) id rfl fun _ => rfl <;>
        simp [Conn.Est, Conn.Closed]
    | send ht hen => exact h.of_sameTrace hen.same.1 (fun hst => hen.same.2.2 ▸ hst) rfl rfl
    | shutdown hc => exact h.of_sameTrace rfl (fun hst => by rw [hc] at hst; cases hst) rfl rfl
    | forceClose hc => exact h.of_sameTrace rfl (fun hst => by rw [hc] at hst; cases hst) rfl rfl
  | events he hc hw hst =>
    have hcl : ¬ a.conn.Closed := fun hm => hd (hc hm (h.silent hm))
    exact ⟨h.est, h.disc, fun hm => absurd hm hcl, fun _ _ => hst⟩
  | sendQueued => exact h.of_sameTrace rfl id rfl rfl
  | sendTaken he hT hq hx => exact h.of_sameTrace hx.same.1 (fun hst => hx.same.2.2 ▸ hst) rfl rfl
  | sendFailed he hT hq hs hst =>
    refine close ?_ hst
    exact he
  | shutQueued => exact h.of_sameTrace rfl id rfl rfl
  | shutTaken he hq hz hx =>
    rcases hx with rfl | ⟨-, rfl⟩ <;> exact h.of_sameTrace rfl id rfl rfl
  | close he hc hst => exact close he hst
  | closeCb | unlink =>
    refine h.of_trace ?_ ?_ (List.mem_append_left _) id rfl fun _ => rfl <;>
      simp [Conn.noted, Conn.Est, Conn.Closed]
  | destroyed =>
    refine h.of_trace ?_ ?_ (List.mem_append_left _) id rfl fun hn => ?_
    · simp [Conn.noted, Conn.Est]
    · simp [Conn.noted, Conn.Closed]
    · exact absurd (List.mem_append_right _ (List.mem_singleton_self _)) hn

end Cell.Quiet

theorem Cell.Quiet.isNoneEvent (h : (s.cell c).Quiet) (hcl : s.Closed c) :
    (s.chan c).isNoneEvent = true := by
  have hev : (s.chan c).events = Event.noneEventFlag := h.silent hcl
  simp [EventChannel.isNoneEvent, hev]

/-! ## After `ConnectDestoryed` -/

/-- The reactor does not reach the connection: its channel is out of the poller and not active, and
no handler runs on it. -/
structure Sys.Off (s : Sys) (c : ConnId) : Prop where
  chan : (s.chan c).status = .newChannel
  active : ∀ l, .conn c ∉ s.active l
  handlers : ∀ t, ¬ s.Handling t (some c)

def Sys.Gone (s : Sys) (c : ConnId) : Prop := .destroyed ∈ (s.conns c).trace → s.Off c

/-- The handlers on `c?` among `fs` are those of the stack of `t`. -/
def Sys.Old (s : Sys) (t : Tid) (c? : Option ConnId) (fs : List Frame) : Prop :=
  ∀ f ∈ fs, f.isHandler = true → f.about = c? → s.Handling t c?

namespace Sys.Old

variable {c? : Option ConnId} {f : Frame} {r fs gs : List Frame}

theorem cons (hf : f.isHandler = true → f.about = c? → s.Handling t c?) (h : s.Old t c? fs) :
    s.Old t c? (f :: fs) := by
  intro g hg
  rcases List.mem_cons.1 hg with rfl | hg
  · exact hf
  · exact h g hg

/-- A frame that is no handler. -/
theorem plain (hf : f.isHandler = false) (h : s.Old t c? fs) : s.Old t c? (f :: fs) :=
  h.cons fun hh => by rw [hf] at hh; cases hh

theorem append (h : s.Old t c? gs) (h' : s.Old t c? fs) : s.Old t c? (gs ++ fs) := by
  intro g hg
  rcases List.mem_append.1 hg with hg | hg
  · exact h g hg
  · exact h' g hg

theorem of_stack (hs : s.stack t = f :: r) : s.Old t c? r :=
  fun g hg hh ha => ⟨g, hs ▸ List.mem_cons_of_mem _ hg, hh, ha⟩

theorem of_rest (hr : Rest d s t r) : s.Old t c? r := by
  cases hr with
  | frame hs _ => exact of_stack hs
  | task hs _ => exact plain rfl (plain rfl (of_stack hs))

theorem of_start {k : ClientId} {s₀ : Sys} (hs : StartSource t k s s₀ r) : s.Old t c? r := by
  cases hs with
  | frame hs => exact of_stack hs
  | task hs _ => exact plain rfl (plain rfl (of_stack hs))

theorem status : s.Old t c? (statusFrames c s) :=
  fun g hg hh => by rw [mem_statusFrames hg] at hh; cases hh

/-- No handler is new on the stack of `t`. -/
theorem push (h : s.Old t c? fs) (hst : s'.stack = Function.update s.stack t fs) :
    s'.Handling t' c? → s.Handling t' c? := by
  rintro ⟨f, hf, hh, ha⟩
  rw [hst] at hf
  by_cases ht : t' = t
  · subst ht
    rw [Function.update_self] at hf
    exact h f hf hh ha
  · rw [Function.update_of_ne ht] at hf
    exact ⟨f, hf, hh, ha⟩

end Sys.Old

theorem Conn.SameLife.destroyed_mem {x x' : Conn} (h : x.SameLife x')
    (hm : .destroyed ∈ x'.trace) : .destroyed ∈ x.trace :=
  List.count_pos_iff.1 (Nat.lt_of_lt_of_eq (List.count_pos_iff.2 hm) h.destroyed)

theorem Inv.closed_of_destroyed (hI : Inv cfg d s) (hm : .destroyed ∈ (s.conns c).trace) :
    s.Closed c := by
  have hpos : 0 < (s.ledger cfg c).destroyed := List.count_pos_iff.2 hm
  have h1 := (hI.life c).closes
  have h2 := (hI.life c).unlinked
  exact Conn.closed_of_num (show 0 < (s.ledger cfg c).closes by omega)

/-- A handler on a connection runs on the thread of its loop. -/
theorem Sound.handling (hS : Sound cfg d s) (h : s.Handling t (some c)) : t = .loop c.loop := by
  obtain ⟨f, hf, hh, ha⟩ := h
  have hhome := (hS.frames t f hf).home
  cases f with
  | handleEvent i =>
    cases i with
    | conn c' => cases ha; exact hhome
    | acceptor | connector => cases ha
  | closeHandler | errorHandler | readHandler | writeHandler | writeHandlerRest =>
    cases ha
    exact hhome
  | acceptHandle | closeIdle | reAccept | reOpen | writeEventHandler | writeEventRest => cases ha
  | _ => cases hh

/-- What reaches the connection now did before. -/
theorem Sys.Off.mono (h : s.Off c) (hch : s'.chan c = s.chan c)
    (ha : ∀ l, .conn c ∈ s'.active l → .conn c ∈ s.active l)
    (hst : ∀ t, s'.Handling t (some c) → s.Handling t (some c)) : s'.Off c :=
  ⟨hch ▸ h.chan, fun l hl => h.active l (ha l hl), fun t ht => h.handlers t (hst t ht)⟩

/-- When the loop runs a functor, it reaches no channel of its own. -/
theorem Inv.off_of_tasks (hI : Inv cfg d s) {r fs : List Frame}
    (hs : s.stack t = .loopTasks c.loop :: r) (ha : s'.active = s.active)
    (hst : s'.stack = Function.update s.stack t fs) (hf : ∀ f ∈ fs, f.isHandler = false)
    (hch : (s'.chan c).status = .newChannel) : s'.Off c := by
  obtain ⟨rfl, rfl, hact⟩ := hI.shape.of_tasks hI.sound hs
  refine ⟨hch, fun l hl => ?_, ?_⟩
  · rw [ha] at hl
    obtain rfl : c.loop = l := (hI.sound.active l _ hl).home
    rw [hact] at hl
    cases hl
  · rintro t' ⟨f, hfm, hh, hab⟩
    rw [hst] at hfm
    by_cases ht : t' = .loop c.loop
    · subst ht
      rw [Function.update_self] at hfm
      rw [hf f hfm] at hh
      cases hh
    · rw [Function.update_of_ne ht] at hfm
      exact ht (hI.sound.handling ⟨f, hfm, hh, hab⟩)

namespace Sys.Gone

theorem keep (h : s.Gone c) (hd : .destroyed ∈ (s'.conns c).trace → .destroyed ∈ (s.conns c).trace)
    (ho : .destroyed ∈ (s.conns c).trace → s.Off c → s'.Off c) : s'.Gone c :=
  fun hm => ho (hd hm) (h (hd hm))

/-- Only the stack of `t` and the trace are others. -/
theorem of_push (h : s.Gone c) {fs : List Frame} (hf : s.Old t (some c) fs)
    (hd : .destroyed ∈ (s'.conns c).trace → .destroyed ∈ (s.conns c).trace)
    (hch : s'.chan c = s.chan c) (ha : s'.active = s.active)
    (hst : s'.stack = Function.update s.stack t fs) : s'.Gone c :=
  h.keep hd fun _ ho => ho.mono hch (fun _ hl => ha ▸ hl) fun _ => hf.push hst

/-- The connections are others, and the stacks the same. -/
theorem of_conns (h : s.Gone c) (hx : (s.conns c).SameLife (s'.conns c))
    (hch : s'.chan c = s.chan c) (ha : s'.active = s.active) (hst : s'.stack = s.stack) :
    s'.Gone c :=
  h.keep hx.destroyed_mem fun _ ho => ho.mono hch (fun _ hl => ha ▸ hl) fun t ht => by
    rwa [Sys.Handling, hst] at ht

/-- The connection was made with another identity. -/
theorem of_eq_conns (h : s.Gone c) {fs : List Frame} (hf : s.Old t (some c) fs)
    (hx : s'.conns c = s.conns c) (hch : s'.chan c = s.chan c) (ha : s'.active = s.active)
    (hst : s'.stack = Function.update s.stack t fs) : s'.Gone c :=
  h.of_push hf (fun hm => hx ▸ hm) hch ha hst

theorem poll (h : s.Gone c) (hI : Inv cfg d s) {l : LoopId} {r : List Frame}
    {evs : List (Fd × Mask)} (hs : s.stack t = .loopPoll l :: r) :
    ((s.poll l evs).push t (.loopDispatch l :: r)).Gone c := by
  obtain ⟨-, hst⟩ := setRecieved_spec (hI.sound.books l) evs
  intro hm
  have ho := h hm
  refine ⟨?_, fun l' hl' => ?_, fun t' ht' => ho.handlers t' ?_⟩
  · show ((s.setPoller l (setRecieved (s.pollers l) evs)).chan c).status = _
    by_cases hl : c.loop = l
    · subst hl
      rw [chan_setPoller_self, (hst _).1]
      exact ho.chan
    · rw [Sys.chan, Sys.setPoller_of_ne _ hl]
      exact ho.chan
  · have hl' : .conn c ∈ Function.update s.active l (activeChannels (s.pollers l) evs) l' := hl'
    by_cases hl : l' = l
    · subst hl
      rw [Function.update_self] at hl'
      -- a channel that is reported is registered
      obtain ⟨n, m, hint⟩ := Sound.mem_activeChannels hl'
      have hst' := ((hI.sound.books l').polled n _ m hint).2
      obtain rfl : c.loop = l' := (hI.sound.chans l' (.conn c) (by simp [hst'])).home
      have hnew := ho.chan
      rw [Sys.chan, hst'] at hnew
      cases hnew
    · rw [Function.update_of_ne hl] at hl'
      exact ho.active l' hl'
  · exact ((Sys.Old.of_stack hs).plain rfl).push rfl ht'

theorem dispatch (h : s.Gone c) {l : LoopId} {r : List Frame} {i : ChanId} {is : List ChanId}
    (hs : s.stack t = .loopDispatch l :: r) (ha : s.active l = i :: is) :
    ((s.dispatch l (some i) is).push t (.handleEvent i :: .loopDispatch l :: r)).Gone c := by
  refine h.keep id fun _ ho => ho.mono rfl (fun l' hl' => ?_) fun t' => ?_
  · have hl' : .conn c ∈ Function.update s.active l is l' := hl'
    by_cases hl : l' = l
    · subst hl
      rw [Function.update_self] at hl'
      exact ha ▸ List.mem_cons_of_mem _ hl'
    · rwa [Function.update_of_ne hl] at hl'
  · refine Sys.Old.push (.cons (fun _ hab => ?_) ((Sys.Old.of_stack hs).plain rfl)) rfl
    cases i with
    | conn c' =>
      cases hab
      exact absurd (ha ▸ List.mem_cons_self) (ho.active l)
    | acceptor | connector => cases hab

theorem effect (h : s.Gone c) (hq : (s.cell c).Quiet) (hd : ¬ d.rearms) (hI : Inv cfg d s)
    (he : Effect cfg d t s s') : s'.Gone c := by
  have hS := hI.sound
  have hclosed : .destroyed ∈ (s.conns c).trace → s.Closed c := hI.closed_of_destroyed
  cases he with
  | poll hs hp => exact h.poll hI hs
  | dispatch hs ha => exact h.dispatch hs ha
  | @dispatched l r hs ha =>
    refine h.keep id fun _ ho => ho.mono rfl (fun l' hl' => ?_) fun _ =>
      ((Sys.Old.of_stack hs).plain rfl).push rfl
    have hl' : .conn c ∈ Function.update s.active l [] l' := hl'
    by_cases hl : l' = l
    · subst hl
      rw [Function.update_self] at hl'
      cases hl'
    · rwa [Function.update_of_ne hl] at hl'
  | idle hs hq => exact h.of_push ((Sys.Old.of_stack hs).plain rfl) id rfl rfl rfl
  | finish hr hg =>
    refine h.of_push (.append (fun g hg' hh ha => ?_) (.of_rest hr)) id rfl rfl rfl
    have hold := ((hg g hg').2.2 hh).2
    rwa [ha] at hold
  | conn hl hx => exact h.of_conns (updConn_sameLife hx.sameLife) rfl rfl rfl
  | @events i g p ht ho hi =>
    refine h.keep id fun hm hoff => ?_
    by_cases hic : i = .conn c
    · subst hic
      exact absurd (hi.2.1 (hclosed hm) (hq.silent (hclosed hm))) hd
    · exact hoff.mono (chan_setPoller_of_ne hic (setEvents_chan ho).2.2) (fun _ => id) fun _ => id
  | @sendQueued c' m hl ht =>
    have hx : (s.conns c).SameLife ((s.updConn c' fun x =>
        { x with sent := x.sent ++ [(t, m)] }).conns c) := updConn_sameLife (.of_eq rfl .rfl)
    exact h.of_conns hx rfl rfl rfl
  | sendTaken hs hq hx =>
    exact h.of_conns (updConn_sameLife (s := s.dequeue t _ _ _) hx.sameLife) rfl rfl rfl
  | shutTaken hs hq hx =>
    refine h.of_conns (updConn_sameLife (s := s.dequeue t _ _ _) ?_) rfl rfl rfl
    rcases hx with rfl | ⟨-, rfl⟩ <;> exact .of_eq rfl .rfl
  | @establish l r ks c' p hs hq' ht ho =>
    have hf : s.Old t (some c)
        (statusFrames c' s ++ .taskDone (.connectEstablished c') :: .loopPoll l :: r) :=
      Sys.Old.status.append (((Sys.Old.of_stack hs).plain rfl).plain rfl)
    by_cases hc : c = c'
    · subst hc
      intro hm
      have hm : .destroyed ∈ (Sys.conns (Sys.establish (s.dequeue t l _ ks) c p) c).trace := hm
      rw [Sys.establish_self] at hm
      rcases mem_handlerTrace hm with hm | hm | hm
      · exact absurd (hq.est (hclosed hm)) (hS.pending l c (hq' ▸ List.mem_cons_self)).1
      · cases hm
      · cases hm
    · exact h.of_eq_conns hf (Sys.establish_of_ne hc)
        (chan_establish_of_ne (s := s.dequeue t l _ ks) hc ho) rfl rfl
  | @close r c' p hr hl ht hcl ho =>
    by_cases hc : c = c'
    · subst hc
      intro hm
      have hm : .destroyed ∈ ((s.closeConn c p).conns c).trace := hm
      rw [Sys.closeConn_self] at hm
      rcases mem_handlerTrace hm with hm | hm | hm
      · exact absurd (hcl (hclosed hm)).2 ((h hm).handlers t)
      · cases hm
      · cases hm
    · exact h.of_eq_conns (Sys.Old.status.append ((Sys.Old.of_rest hr).plain rfl))
        (Sys.closeConn_of_ne hc) (chan_closeConn_of_ne hc ho) rfl rfl
  | @sendFailed l r ks c' T m p hs hq' ht hst ho =>
    by_cases hc : c = c'
    · subst hc
      intro hm
      have hm : .destroyed ∈ (Sys.conns (Sys.closeConn ((s.dequeue t l _ ks).updConn c fun x =>
        { x with entered := x.entered ++ [(T, m)] }) c p) c).trace := hm
      rw [Sys.closeConn_self, Sys.updConn_self] at hm
      rcases mem_handlerTrace hm with hm | hm | hm
      · exact absurd (hq.disc (hclosed hm)) hst
      · cases hm
      · cases hm
    · refine h.of_eq_conns (Sys.Old.status.append
        ((((Sys.Old.of_stack hs).plain rfl).plain rfl).plain rfl)) ?_ ?_ rfl rfl
      · exact (Sys.closeConn_of_ne hc).trans (Sys.updConn_of_ne (s := s.dequeue t l _ ks) _ hc)
      · exact chan_closeConn_of_ne (s := (s.dequeue t l (.sendInLoop c' T m) ks).updConn c' _) hc ho
  | handOver hs ho =>
    exact h.of_push (.of_stack hs) (mem_note (by decide)).1 rfl rfl rfl
  | unlink hs ho ht =>
    exact h.of_push (.of_stack hs)
      ((mem_note (by decide)).trans (mem_note (by decide))).1 rfl rfl rfl
  | unlinkTaken hs hq ht =>
    exact h.of_push (((Sys.Old.of_stack hs).plain rfl).plain rfl)
      (mem_note (s := s) (by decide)).1 rfl rfl rfl
  | unlinkClient hs ho ht =>
    exact h.of_push (.of_stack hs)
      ((mem_note (by decide)).trans (mem_note (by decide))).1 rfl rfl rfl
  | @destroyed l r ks c' p hs hq' ht ho =>
    obtain ⟨-, hst, hne⟩ := removeEventChannel_chan ho
    by_cases hc : c = c'
    · subst hc
      obtain rfl : l = c.loop :=
        (hS.tasks l (.connectDestoryed c) (hq' ▸ List.mem_cons_self)).home
      refine fun _ => hI.off_of_tasks hs rfl rfl (fun f hf => ?_) ?_
      · obtain ⟨rfl, rfl, -⟩ := hI.shape.of_tasks hS hs
        simp only [List.mem_cons, List.not_mem_nil, or_false] at hf
        rcases hf with rfl | rfl <;> rfl
      · show ((s.setPoller c.loop p).chan c).status = _
        rw [chan_setPoller_self, hst]
    · exact h.of_eq_conns (((Sys.Old.of_stack hs).plain rfl).plain rfl)
        (Function.update_of_ne hc ..)
        (chan_setPoller_of_ne (s := s) (i := .conn c') (by simpa using Ne.symm hc) hne) rfl rfl
  | @accept c' hc hf ht =>
    have hser : c'.serial = s.nextSerial := by rw [hc]
    exact h.of_conns (create_sameLife hS hser rfl rfl) rfl rfl rfl
  | connect hr hst => exact h.of_push ((Sys.Old.of_rest hr).plain rfl) id rfl rfl rfl
  | connectQueued hs => exact h.of_push (.of_stack hs) id rfl rfl rfl
  | @attempt k s₀ r fd n p hs ht hf hn ho =>
    have hch : (s.setPoller (cfg.clientLoop k) p).chan c = s.chan c :=
      chan_setPoller_of_ne (i := .connector k n fd) nofun (setEvents_chan ho).2.2
    have hold : s.Old t (some c) r := .of_start hs
    cases hs <;> exact h.of_push hold id hch rfl rfl
  | attemptFailed hs =>
    have hold : s.Old t (some c) _ := .of_start hs
    cases hs <;> exact h.of_push hold id rfl rfl rfl
  | handled hs hg =>
    refine h.of_push (.append (fun g hg' hh ha => ?_) (.of_stack hs)) id rfl rfl rfl
    rcases hg with rfl | rfl
    · cases hg'
    · rw [List.mem_singleton.1 hg'] at ha
      cases ha
  | @removeChannel k r n fd p p' hs ht hk ho hp =>
    have hch : (s.setPoller (cfg.clientLoop k) p').chan c = s.chan c :=
      chan_setPoller_of_ne (i := .connector k n fd) nofun fun j hj =>
        ((removeEventChannel_chan hp).2.2 j hj).trans ((setEvents_chan ho).2.2 j hj)
    exact h.of_push (.cons (fun _ ha => by cases ha) (.of_stack hs)) id hch rfl rfl
  | retry hs hf => exact h.of_push (.of_stack hs) id rfl rfl rfl
  | @newConnection k r c' p hs hc ht ho =>
    have hf : s.Old t (some c) ((if cfg.clientStatusCb k then [.user (some c')] else []) ++ r) := by
      refine .append (fun g hg hh => ?_) (.of_stack hs)
      split at hg
      · rw [List.mem_singleton.1 hg] at hh
        cases hh
      · cases hg
    have hser : c'.serial = s.nextSerial := by rw [hc]
    by_cases hcc : c = c'
    · subst hcc
      intro hm
      have hm : .destroyed ∈ (Sys.conns (Sys.establish ((s.create c _).updClient k _) c p) c).trace :=
        hm
      rw [Sys.establish_self] at hm
      rcases mem_handlerTrace hm with hm | hm | hm
      · have hm := (create_sameLife hS hser (x := TcpClient.newConn cfg k) rfl rfl).destroyed_mem hm
        rw [hS.pristine c (Nat.le_of_eq hser.symm)] at hm
        cases hm
      · cases hm
      · cases hm
    · exact h.of_eq_conns hf ((Sys.establish_of_ne hcc).trans (Function.update_of_ne hcc ..))
        (chan_establish_of_ne (s := s.create c' (TcpClient.newConn cfg k)) hcc ho) rfl rfl
  | reset hs hq =>
    exact h.of_push (((Sys.Old.of_stack hs).plain rfl).plain rfl) id rfl rfl rfl
  | dequeue | enqueue | openFd | closeFd | destroy | hold | start | initPool | stop =>
    exact h.of_conns (.refl _) rfl rfl rfl

end Sys.Gone

/-- In the runs that do not arm a closed connection, what was closed stays quiet, and what was
destroyed stays out of reach. -/
theorem quiet_reach {P : Sys → Act → Prop} (hd : ¬ d.rearms)
    (ha : ∀ s a s', Inv cfg d s → (∀ c, (s.cell c).Quiet ∧ s.Gone c) → P s a →
      step cfg s a = some s' → d.Allows cfg s a)
    (h : Runs.Reach (step cfg) P (Sys.init cfg) s) :
    Inv cfg d s ∧ ∀ c, (s.cell c).Quiet ∧ s.Gone c := by
  refine Inv.reach (fun c => ⟨⟨nofun, nofun, nofun, nofun⟩, nofun⟩) (fun t s s' hI hi he c => ?_) ha h
  exact ⟨Cell.effect (fun _ _ hq hs => hq.step hd hs) hI (hi c).1 he,
    (hi c).2.effect (hi c).1 hd hI he⟩

theorem Inv.not_closed (hI : Inv cfg d s) (hst : (s.conns c).state ≠ .disconnected) :
    ¬ s.Closed c := fun hcl =>
  hst (of_decide_eq_true ((hI.life c).disc.2 (List.count_pos_iff.2 hcl)))

/-! ## Armed again -/

def Discipline.unarmed : Discipline := { Discipline.any with rearms := False }

theorem StartsOpen.allows {a : Act} (hI : Inv cfg .unarmed s) (h : StartsOpen s a) :
    Discipline.unarmed.Allows cfg s a := by
  cases a with
  | thread t inp =>
    intro f r hs
    simp only [StartsOpen, hs] at h
    cases f with
    | loopTasks l =>
      intro c ks hq _ hcl
      simp only [hq] at h
      exact hI.not_closed h hcl
    | user | closeHandler | readHandler | writeHandlerRest | closeIdle | writeEventRest =>
      simp [Discipline.AllowsFrame, Discipline.unarmed, Discipline.any]
    | _ => trivial
  | destroy c => exact ⟨.inr trivial, .inr trivial⟩
  | openFd | closeFd => trivial

/-- **A closed connection is not armed again** in a run in which `StartReadInLoop` never runs on a
`DISCONNECTED` one: after `CloseHandler` its channel asks for no events, also when
`ConnectDestoryed` comes to run; and after that its channel is neither in `evt_channel_list_` nor in
the interest set. -/
theorem closed_stays_quiet (h : Runs.Reach (step cfg) StartsOpen (Sys.init cfg) s) (c : ConnId) :
    (.closeHandler ∈ (s.conns c).trace → (s.chan c).events = Event.noneEventFlag) ∧
    (.connectDestoryed c ∈ s.queue c.loop → (s.chan c).isNoneEvent = true) ∧
    (.destroyed ∈ (s.conns c).trace →
      (∀ n, (s.pollers c.loop).evtChannelList n ≠ some (.conn c)) ∧
        ∀ n m, (s.pollers c.loop).interest n ≠ some (.conn c, m)) := by
  obtain ⟨hI, hi⟩ := quiet_reach (d := .unarmed) id (fun _ _ _ hI _ hP _ => hP.allows hI) h
  refine ⟨(hi c).1.silent, fun hm => ?_, fun hm => ?_⟩
  · exact (hi c).1.isNoneEvent (hI.closed_of_task (.inr rfl) hm)
  · exact (hI.sound.books c.loop).out ((hi c).2 hm).chan

/-- The peer closes the connection, and `ConnectDestoryed` is queued. -/
def sampleClose : List Act :=
  sampleStart ++ loopActs [.poll [(5, pollIn)], .none, .none, .read (.data []), .ret, .none]

theorem closed_stays_quiet_sample :
    ∃ s, Runs.run (step .sample) (Sys.init .sample) (sampleClose ++ loopActs [.none, .none]) = some s ∧
      .destroyed ∈ (s.conns sampleConn).trace ∧
      (s.chan sampleConn).events = Event.noneEventFlag ∧
      (s.pollers 0).evtChannelList 5 ≠ some (.conn sampleConn) := by
  have hrun : (Runs.run (step .sample) (Sys.init .sample)
      (sampleClose ++ loopActs [.none, .none])).map (fun s => (s.conns sampleConn).trace) =
      some [.established, .statusCb, .closeHandler, .statusCb, .closeCb, .destroyQueued,
        .destroyed] := by decide +kernel
  obtain ⟨s, hs, hx, hr⟩ := Runs.Reach.of_map _ hrun (P := StartsOpen) (by decide +kernel)
  obtain ⟨hev, -, hout⟩ := closed_stays_quiet hr sampleConn
  exact ⟨s, hs, by rw [hx]; decide, hev (by rw [hx]; decide), (hout (by rw [hx]; decide)).1 5⟩

/-- A user's thread calls `StartRead` just before the loop finds that the peer has closed the
connection: the functor runs before that of `ConnectDestoryed`. -/
def rearmingRun : List Act :=
  sampleStart ++
  [.thread (.user 7) (.call (.startRead sampleConn)), .thread (.user 7) .none] ++
  loopActs [
    .poll [(5, pollIn)], .none, .none, .read (.data []), .ret, .none, .none, .none, .none,
    .poll [], .none, .none]

/-- The closed connection is armed, and the assert of `RemoveEventChannel` fails. -/
theorem closed_rearmed :
    ∃ s, Runs.run (step .sample) (Sys.init .sample) rearmingRun = some s ∧
      (s.conns sampleConn).trace =
        [.established, .statusCb, .closeHandler, .statusCb, .closeCb, .destroyQueued] ∧
      (s.chan sampleConn).events = Event.readEventFlag ∧
      s.failed = some (.poller .noneEvent) := by
  have hrun : (Runs.run (step .sample) (Sys.init .sample) rearmingRun).map
      (fun s => ((s.conns sampleConn).trace, (s.chan sampleConn).events, s.failed)) =
      some ([.established, .statusCb, .closeHandler, .statusCb, .closeCb, .destroyQueued],
        Event.readEventFlag, some (.poller .noneEvent)) := by decide +kernel
  obtain ⟨s, hs, hx⟩ := Option.map_eq_some_iff.1 hrun
  simp only [Prod.mk.injEq] at hx
  exact ⟨s, hs, hx⟩

/-! ## Closed once -/

def ConnEv.isCallback : ConnEv → Bool
  | msgCb | statusCb | closeCb => true
  | _ => false

/-- The callbacks of a trace from the first `CloseHandler` on. -/
def callbacksFrom (tr : List ConnEv) : List ConnEv :=
  (tr.dropWhile (· ≠ .closeHandler)).filter (·.isCallback)

theorem callbacksFrom_nil {tr : List ConnEv} (h : .closeHandler ∉ tr) : callbacksFrom tr = [] := by
  have hdrop : tr.dropWhile (· ≠ .closeHandler) = [] :=
    List.dropWhile_eq_nil_iff.2 fun e he => by
      simpa using fun heq : e = .closeHandler => h (heq ▸ he)
  rw [callbacksFrom, hdrop, List.filter_nil]

theorem callbacksFrom_append {tr es : List ConnEv} (h : .closeHandler ∈ tr) :
    callbacksFrom (tr ++ es) = callbacksFrom tr ++ es.filter (·.isCallback) := by
  have hdrop : tr.dropWhile (· ≠ .closeHandler) ≠ [] := fun hnil => by
    simpa using List.dropWhile_eq_nil_iff.1 hnil _ h
  rw [callbacksFrom, List.dropWhile_append, if_neg (by simpa using hdrop), List.filter_append]
  rfl

/-- The callbacks of the first `CloseHandler` itself. -/
theorem callbacksFrom_closed {tr : List ConnEv} (h : .closeHandler ∉ tr) (cb : Bool) :
    callbacksFrom (tr ++ [.closeHandler] ++ if cb then [.statusCb] else []) =
      if cb then [.statusCb] else [] := by
  have hfirst : callbacksFrom (tr ++ [.closeHandler]) = [] := by
    have hdrop : tr.dropWhile (· ≠ .closeHandler) = [] :=
      List.dropWhile_eq_nil_iff.2 fun e he => by
        simpa using fun heq : e = .closeHandler => h (heq ▸ he)
    rw [callbacksFrom, List.dropWhile_append, hdrop]
    rfl
  rw [callbacksFrom_append (by simp), hfirst]
  cases cb <;> rfl

/-- `CloseHandler` has run once at most, and then its own callbacks only. -/
structure Hushed (tr : List ConnEv) : Prop where
  once : tr.count .closeHandler ≤ 1
  callbacks : (callbacksFrom tr).Sublist [.statusCb, .closeCb]

namespace Hushed

variable {tr : List ConnEv}

theorem of_open (h : .closeHandler ∉ tr) : Hushed tr := by
  refine ⟨?_, ?_⟩
  · rw [List.count_eq_zero_of_not_mem h]
    exact Nat.zero_le _
  · rw [callbacksFrom_nil h]
    exact List.nil_sublist _

/-- `CloseHandler` runs for the first time. -/
theorem close (h : .closeHandler ∉ tr) (cb : Bool) :
    Hushed (tr ++ [.closeHandler] ++ if cb then [.statusCb] else []) := by
  refine ⟨?_, ?_⟩
  · rw [List.count_append, List.count_append, List.count_eq_zero_of_not_mem h,
      count_status (by decide)]
    decide
  · rw [callbacksFrom_closed h]
    cases cb <;> decide

/-- Something other than a callback is noted. -/
theorem noted (h : Hushed tr) (hcl : .closeHandler ∈ tr) {e : ConnEv} (he : e ≠ .closeHandler)
    (hcb : e.isCallback = false) : Hushed (tr ++ [e]) := by
  refine ⟨?_, ?_⟩
  · rw [List.count_append, List.count_singleton, beq_eq_false_iff_ne.2 he]
    exact h.once
  · rw [callbacksFrom_append hcl]
    simpa [hcb] using h.callbacks

theorem closeCb (h : Hushed tr) (hn : tr.count .closeCb < tr.count .closeHandler) :
    Hushed (tr ++ [.closeCb]) := by
  refine ⟨?_, ?_⟩
  · rw [List.count_append]
    exact h.once
  · rw [callbacksFrom_append (List.count_pos_iff.1 (Nat.lt_of_le_of_lt (Nat.zero_le _) hn))]
    -- `close_cb_` has not been called yet, so what was is the status callback at most
    have hnot : .closeCb ∉ tr := by
      have := h.once
      exact List.count_eq_zero.1 (by omega)
    have hsub : (callbacksFrom tr).Sublist [.statusCb] := by
      have hf := h.callbacks.filter (· ≠ .closeCb)
      rwa [List.filter_eq_self.2] at hf
      intro e he
      have hmem : e ∈ tr := (List.dropWhile_sublist _).subset (List.mem_of_mem_filter he)
      simpa using fun heq : e = .closeCb => hnot (heq ▸ hmem)
    exact hsub.append (List.filter_sublist ..)

end Hushed

/-- The trace of the cell is hushed. -/
def Cell.Hushed (a : Cell) : Prop := Net.Hushed a.conn.trace

theorem Cell.Hushed.step {a b : Cell} (h : a.Hushed) (hq : a.Quiet) (hd : ¬ d.recloses)
    (hs : CellStep d t c a b) : b.Hushed := by
  cases hs with
  | create hp hq hx =>
    obtain ⟨cm, cw, cs, rfl⟩ := hx
    exact .of_open nofun
  | establish hn hdis hst =>
    refine .of_open fun hm => ?_
    rcases mem_handlerTrace hm with hm | hm | hm
    · exact hn (hq.est hm)
    · cases hm
    · cases hm
  | conn he hx =>
    cases hx with
    | misc | drain | shut | shutdown | forceClose => exact h
    | msg hm =>
      refine .of_open fun hm' => ?_
      rcases List.mem_append.1 hm' with hcl | hcl
      · exact hd (hm hcl)
      · cases List.mem_singleton.1 hcl
    | send ht hen =>
      show Net.Hushed _
      rw [hen.same.1]
      exact h
  | sendTaken he hT hq' hx =>
    show Net.Hushed _
    rw [hx.same.1]
    exact h
  | sendFailed he hT hq' hs hst => exact Hushed.close (fun hcl => hs (hq.disc hcl)) _
  | shutTaken he hq' hz hx =>
    rcases hx with rfl | ⟨-, rfl⟩ <;> exact h
  | close he hc hst => exact Hushed.close (fun hcl => hd (hc hcl)) _
  | closeCb hn => exact Hushed.closeCb h hn
  | unlink hcl => exact Hushed.noted h hcl (by decide) rfl
  | destroyed hcl hev hst => exact Hushed.noted h hcl (by decide) rfl
  | events | sendQueued | shutQueued => exact h

def Discipline.closesOnce : Discipline :=
  { Discipline.any with reads := False, rearms := False, recloses := False }

theorem FindsOpen.allows {a : Act} (hI : Inv cfg .closesOnce s) (h : FindsOpen s a) :
    Discipline.closesOnce.Allows cfg s a := by
  cases a with
  | thread t inp =>
    intro f r hs
    simp only [FindsOpen, hs] at h
    cases f with
    | user c? =>
      rintro c rfl
      exact h
    | closeHandler c => exact fun hcl => hI.not_closed h hcl
    | readHandler c =>
      rintro bytes rfl hcl
      exact hI.not_closed h hcl
    | loopTasks l => exact fun c ks hq hr => hr.elim
    | writeHandlerRest | closeIdle | writeEventRest =>
      simp [Discipline.AllowsFrame, Discipline.closesOnce, Discipline.any]
    | _ => trivial
  | destroy c => exact ⟨.inr trivial, .inr trivial⟩
  | openFd | closeFd => trivial

theorem hushed_reach (h : Runs.Reach (step cfg) FindsOpen (Sys.init cfg) s) (c : ConnId) :
    (s.cell c).Hushed := by
  refine (Cell.reach (d := .closesOnce) (I := fun a => a.Quiet ∧ a.Hushed) ?_ ?_
    (fun _ _ _ hI _ hP _ => hP.allows hI) h).2
  · exact ⟨⟨nofun, nofun, nofun, nofun⟩, Hushed.of_open nofun⟩
  · exact fun t a b hi hs => ⟨hi.1.step id hs, hi.2.step hi.1 id hs⟩

/-- **A connection is closed once** in a run whose handlers find no closed connection: `CloseHandler`
runs once at most, from then on its own callbacks are the last ones made, `ConnectDestoryed` is
queued once at most, and when it is about to run the asserts of `RemoveEventChannel` hold. -/
theorem closed_once (h : Runs.Reach (step cfg) FindsOpen (Sys.init cfg) s) (c : ConnId) :
    (s.conns c).trace.count .closeHandler ≤ 1 ∧
    (callbacksFrom (s.conns c).trace).Sublist [.statusCb, .closeCb] ∧
    (s.conns c).trace.count .destroyQueued ≤ 1 ∧
    (.connectDestoryed c ∈ s.queue c.loop →
      ∃ p, (s.pollers c.loop).removeEventChannel (ChanId.fd cfg) (.conn c) = .ok p) := by
  obtain ⟨hI, hi⟩ := quiet_reach (d := .closesOnce) id (fun _ _ _ hI _ hP _ => hP.allows hI) h
  obtain ⟨honce, hcb⟩ := hushed_reach h c
  have honce : (s.ledger cfg c).closes ≤ 1 := honce
  have hc := (hI.life c).closes
  have hu := (hI.life c).unlinked
  refine ⟨honce, hcb, show (s.ledger cfg c).unlinked ≤ 1 by omega, fun hm => ?_⟩
  have hcl := hI.closed_of_task (.inr rfl) hm
  -- the one functor is still to run
  have hpos : 0 < (s.ledger cfg c).destroys := List.count_pos_iff.2 hm
  have hnot : .destroyed ∉ (s.conns c).trace :=
    List.count_eq_zero.1 (show (s.ledger cfg c).destroyed = 0 by omega)
  exact removeEventChannel_ok (hI.sound.books c.loop)
    ((hi c).1.known ((hi c).1.est hcl) hnot) ((hi c).1.isNoneEvent hcl)

theorem closed_once_sample :
    ∃ s, Runs.run (step .sample) (Sys.init .sample) sampleClose = some s ∧
      (s.conns sampleConn).trace =
        [.established, .statusCb, .closeHandler, .statusCb, .closeCb, .destroyQueued] ∧
      (s.conns sampleConn).trace.count .closeHandler ≤ 1 ∧
      ∃ p, (s.pollers 0).removeEventChannel (ChanId.fd .sample) (.conn sampleConn) = .ok p := by
  have hrun : (Runs.run (step .sample) (Sys.init .sample) sampleClose).map
      (fun s => ((s.conns sampleConn).trace, s.queue 0)) =
      some ([.established, .statusCb, .closeHandler, .statusCb, .closeCb, .destroyQueued],
        [.connectDestoryed sampleConn]) := by decide +kernel
  obtain ⟨s, hs, hx, hr⟩ := Runs.Reach.of_map _ hrun (P := FindsOpen) (by decide +kernel)
  simp only [Prod.mk.injEq] at hx
  obtain ⟨htr, hq⟩ := hx
  obtain ⟨honce, -, -, hok⟩ := closed_once hr sampleConn
  exact ⟨s, hs, htr, honce, hok (hq ▸ List.mem_singleton_self _)⟩

/-- A message arrives; its callback sends an answer, and the write fails with `EPIPE`. `CloseHandler`
runs inside `Send`, the callback returns into the loop of `ReadHandler`, and that reads the end of
the stream. -/
def reclosingRun : List Act :=
  sampleStart ++
  loopActs [
    .poll [(5, pollIn)], .none, .none, .read (.data [1]),
    .call (.send sampleConn [2]), .write (.error ePipe), .ret, .none, .ret,
    .read (.data []), .ret, .none, .none,
    -- the two functors of `ConnectDestoryed`
    .none, .none, .poll [], .none, .none]

/-- `CloseHandler` runs twice, and the second `ConnectDestoryed` fails the asserts of
`RemoveEventChannel`. -/
theorem closed_twice :
    ∃ s, Runs.run (step .sample) (Sys.init .sample) reclosingRun = some s ∧
      (s.conns sampleConn).trace = [.established, .statusCb, .msgCb,
        .closeHandler, .statusCb, .closeCb, .destroyQueued,
        .closeHandler, .statusCb, .closeCb, .destroyQueued, .destroyed] ∧
      s.failed = some (.poller .same) := by
  have hrun : (Runs.run (step .sample) (Sys.init .sample) reclosingRun).map
      (fun s => ((s.conns sampleConn).trace, s.failed)) =
      some ([.established, .statusCb, .msgCb,
        .closeHandler, .statusCb, .closeCb, .destroyQueued,
        .closeHandler, .statusCb, .closeCb, .destroyQueued, .destroyed],
        some (.poller .same)) := by decide +kernel
  obtain ⟨s, hs, hx⟩ := Option.map_eq_some_iff.1 hrun
  simp only [Prod.mk.injEq] at hx
  exact ⟨s, hs, hx⟩

end Liang.Net
