import NetworkPoller.Net.Proof.Output

/-!
# The write side of a connection

`Port` is what decides when a connection writes: its state, `write_buffer_`, the interest of its
channel in write events, and the calls of `ShutdownWrite`. The functions change these in pairs (a
buffer that becomes non-empty and the interest), so what holds between two steps is more than what
every effect keeps: `PortStep` is what a whole function does to the port of its connection, and
`Sys.Works` says so of each function of `TcpConnection`. `Sys.Local` is their frame, the other
connections and the clients being as they were.
-/

namespace Liang.Net

open Base TcpConnection EpollPoller

variable {cfg : Cfg} {d : Discipline} {s s' s₁ s₂ : Sys} {t : Tid} {c c' : ConnId} {gs : List Frame}
  {inp : Input} {l : LoopId}

/-! ## The frame of a connection's functions -/

/-- The clients, the output that waits, and the connections other than `c?` with the masks of their
channels are as they were. -/
structure Sys.Local (c? : Option ConnId) (s s' : Sys) : Prop where
  clients : s'.clients = s.clients
  outputs : ∀ c, s'.outputs c = s.outputs c
  conns : ∀ c, c? ≠ some c → s'.conns c = s.conns c
  events : ∀ c, c? ≠ some c → (s'.chan c).events = (s.chan c).events

namespace Sys.Local

variable {c? : Option ConnId}

/-- Nothing that is looked at has changed. -/
theorem of_rfl (hcl : s'.clients = s.clients) (hq : ∀ c, s'.outputs c = s.outputs c)
    (hx : s'.conns = s.conns) (hp : s'.pollers = s.pollers) : s.Local c? s' :=
  ⟨hcl, hq, fun _ _ => by rw [hx], fun _ _ => by rw [Sys.chan, hp]; rfl⟩

theorem refl (s : Sys) : s.Local c? s := .of_rfl rfl (fun _ => rfl) rfl rfl

theorem trans (h : s.Local c? s₁) (h' : s₁.Local c? s₂) : s.Local c? s₂ :=
  ⟨h'.clients.trans h.clients, fun c => (h'.outputs c).trans (h.outputs c),
    fun c hc => (h'.conns c hc).trans (h.conns c hc),
    fun c hc => (h'.events c hc).trans (h.events c hc)⟩

theorem updConn (f : Conn → Conn) : s.Local (some c) (s.updConn c f) :=
  ⟨rfl, fun _ => rfl, fun _ hc => Sys.updConn_of_ne f fun h => hc (by rw [h]), fun _ _ => rfl⟩

/-- A functor is queued that is no output. -/
theorem queueInLoop {k : Task} (hk : ∀ c, k.outputOf c = false) :
    s.Local c? (s.queueInLoop t l k) :=
  .of_rfl rfl (fun c => filter_appended_ne (hk c)) rfl rfl

theorem note (es : List ConnEv) : s.Local (some c) (s.note c es) := updConn _

theorem setPoller {p : EpollPoller ChanId}
    (hp : ∀ j, j ≠ .conn c → p.chan j = (s.pollers l).chan j) :
    s.Local (some c) (s.setPoller l p) :=
  ⟨rfl, fun _ => rfl, fun _ _ => rfl, fun c' hc => congrArg _ (chan_setPoller_of_ne (i := .conn c)
    (fun h => hc (by cases h; rfl)) hp)⟩

end Sys.Local

/-! ## Ports -/

@[ext] structure Port where
  state : ConnState
  buffer : Buffer
  wrapped : Bool
  shutWr : List ShutWr
  /-- `IsWriting` -/
  writing : Bool
  /-- the output that waits -/
  tasks : List Task

def Conn.port (x : Conn) (w : Bool) (ks : List Task) : Port :=
  ⟨x.state, x.writeBuffer, x.wrapped, x.shutWr, w, ks⟩

def Sys.port (s : Sys) (c : ConnId) : Port := (s.conns c).port (s.chan c).isWriting (s.outputs c)

/-- Which of the two functions that matter most a step runs on a connection: `SendInLoop`, and
`ShutdownInLoop`. -/
structure Enters where
  send : Prop
  shut : Prop

/-- What a function does to the port of a connection. -/
inductive PortStep (e : Enters) (a : Port) : Port → Prop
  | same : PortStep e a a
  | move {st : ConnState} (h : a.state = .disconnected → st = .disconnected) :
      PortStep e a { a with state := st }
  | close : PortStep e a { a with state := .disconnected, writing := false }
  | append {m : Msg} (he : e.send) (hst : a.state ≠ .disconnected) (hm : m ≠ []) :
      PortStep e a { a with
        buffer := a.buffer.append m
        wrapped := a.wrapped || decide (u32Size ≤ a.buffer.writeIndex + m.length)
        writing := true }
  | drain {n : Nat} (hw : a.writing = true) (hn : n ≤ a.buffer.readable.length) :
      PortStep e a { a with
        buffer := a.buffer.clearReadIndex n, writing := !(a.buffer.clearReadIndex n).isEmpty }
  | shut {w : ShutWr} (he : e.shut) (hw : a.writing = false) :
      PortStep e a { a with shutWr := a.shutWr ++ [w] }

namespace PortStep

variable {e e' : Enters} {a b : Port}

theorem of_eq (h : b = a) : PortStep e a b := h ▸ .same

theorem mono (h : PortStep e a b) (hs : e.send → e'.send) (hz : e.shut → e'.shut) :
    PortStep e' a b := by
  cases h with
  | same => exact .same
  | move h => exact .move h
  | close => exact .close
  | append he hst hm => exact .append (hs he) hst hm
  | drain hw hn => exact .drain hw hn
  | shut he hw => exact .shut (hz he) hw

end PortStep

theorem port_updConn (f : Conn → Conn) :
    (s.updConn c f).port c = (f (s.conns c)).port (s.chan c).isWriting (s.outputs c) := by
  rw [Sys.port, Sys.updConn_self]
  rfl

theorem port_note (es : List ConnEv) : (s.note c' es).port c = s.port c := by
  by_cases hc : c = c'
  · subst hc
    exact port_updConn _
  · rw [Sys.port, note_of_ne hc]
    rfl

theorem port_setPoller {p : EpollPoller ChanId} :
    (s.setPoller c.loop p).port c =
      (s.conns c).port (p.chan (.conn c)).isWriting (s.outputs c) := by
  rw [Sys.port, chan_setPoller_self]
  rfl

theorem port_congr (hc : s'.conns c = s.conns c) (he : (s'.chan c).events = (s.chan c).events)
    (hq : s'.outputs c = s.outputs c) : s'.port c = s.port c := by
  rw [Sys.port, EventChannel.isWriting, hc, he, hq]
  rfl

theorem Sys.Local.port (h : s.Local (some c) s') (hc : c' ≠ c) : s'.port c' = s.port c' := by
  have hne : some c ≠ some c' := fun h => hc (Option.some.inj h).symm
  exact port_congr (h.conns c' hne) (h.events c' hne) (h.outputs c')

/-- The functions of a connection: its port makes a step, and the rest is as it was. -/
structure Sys.Works (e : Enters) (c : ConnId) (s s' : Sys) : Prop where
  rest : s.Local (some c) s'
  port : PortStep e (s.port c) (s'.port c)

namespace Sys.Works

variable {e : Enters}

theorem refl (s : Sys) (c : ConnId) : s.Works e c s := ⟨.refl s, .same⟩

/-- The port is as it was. -/
theorem of_same (h : s.Local (some c) s') (hp : s'.port c = s.port c) : s.Works e c s' :=
  ⟨h, hp ▸ .same⟩

/-- Before or after something that leaves the port as it was. -/
theorem after (h : s.Local (some c) s₁) (hp : s₁.port c = s.port c) (h' : s₁.Works e c s₂) :
    s.Works e c s₂ := ⟨h.trans h'.rest, hp ▸ h'.port⟩

theorem before (h : s.Works e c s₁) (h' : s₁.Local (some c) s₂) (hp : s₂.port c = s₁.port c) :
    s.Works e c s₂ := ⟨h.rest.trans h', hp ▸ h.port⟩

/-- A change of the object that the port does not show. -/
theorem updConn {f : Conn → Conn} (hf : ∀ w ks, (f (s.conns c)).port w ks = (s.conns c).port w ks) :
    s.Works e c (s.updConn c f) :=
  of_same (.updConn f) (by rw [port_updConn, hf]; rfl)

theorem queueInLoop {k : Task} (hk : ∀ c, k.outputOf c = false) :
    s.Works e c (s.queueInLoop t l k) :=
  of_same (.queueInLoop hk) (port_congr rfl rfl (filter_appended_ne (hk c)))

/-- A mask that leaves the interest in write events. -/
theorem setEvents {g : Mask → Mask} {p : EpollPoller ChanId}
    (ho : (s.pollers c.loop).setEvents (ChanId.fd cfg) (.conn c) g = .ok p)
    (hg : ∀ e, Event.writeEventFlag &&& g e = Event.writeEventFlag &&& e) :
    s.Works e c (s.setPoller c.loop p) := by
  obtain ⟨hev, -, hne⟩ := setEvents_chan ho
  refine of_same (.setPoller hne) ?_
  rw [port_setPoller, EventChannel.isWriting, hev, hg]
  rfl

end Sys.Works

/-! ## The functions of a connection -/

variable {e : Enters}

theorem closeConn_works {p : EpollPoller ChanId}
    (ho : (s.pollers c.loop).disableAll (ChanId.fd cfg) (.conn c) = .ok p) :
    s.Works e c (s.closeConn c p) := by
  obtain ⟨hev, -, hne⟩ := setEvents_chan ho
  refine ⟨⟨rfl, fun _ => rfl, fun c' hc => Sys.closeConn_of_ne fun h => hc (by rw [h]), fun c' hc =>
    congrArg _ (chan_closeConn_of_ne (fun h => hc (by rw [h])) ho)⟩, ?_⟩
  have hp : (s.closeConn c p).port c = { s.port c with state := .disconnected, writing := false } := by
    have hch : (s.closeConn c p).chan c = p.chan (.conn c) := chan_setPoller_self (s := s)
    rw [Sys.port, hch, EventChannel.isWriting, hev, Sys.closeConn_self]
    rfl
  rw [hp]
  exact .close

theorem closeHandler_works (h : closeHandler cfg t c s = .ok s' gs) : s.Works e c s' := by
  obtain ⟨-, p, ho, rfl, -⟩ := closeHandler_ok h
  exact closeConn_works ho

theorem port_establish {p : EpollPoller ChanId}
    (ho : (s.pollers c.loop).enableReading (ChanId.fd cfg) (.conn c) = .ok p) :
    (s.establish c p).port c = { s.port c with state := .connected } := by
  have hch : (s.establish c p).chan c = p.chan (.conn c) := chan_setPoller_self (s := s)
  rw [Sys.port, hch, EventChannel.isWriting, (setEvents_chan ho).1, Sys.establish_self,
    writing_enableReading]
  rfl

theorem connectEstablished_works (hst : (s.conns c).state ≠ .disconnected)
    (h : connectEstablished cfg t c s = .ok s' gs) : s.Works e c s' := by
  obtain ⟨-, p, ho, rfl, -⟩ := connectEstablished_ok h
  refine ⟨⟨rfl, fun _ => rfl, fun c' hc => Sys.establish_of_ne fun h => hc (by rw [h]), fun c' hc =>
    congrArg _ (chan_establish_of_ne (fun h => hc (by rw [h])) ho)⟩, ?_⟩
  rw [port_establish ho]
  exact .move fun hd => absurd hd hst

theorem connectDestoryedRest_works (h : connectDestoryedRest cfg t c s = .ok s' gs) :
    s.Works e c s' := by
  obtain ⟨s₁, hrem, h⟩ := Res.bind_ok h
  obtain ⟨-, p, ho, rfl⟩ := removeFromLoop_ok hrem
  obtain ⟨-, hst, hne⟩ := removeEventChannel_chan ho
  cases h
  refine .before (.of_same (.setPoller hne) ?_) (.note _) (port_note _)
  refine port_setPoller.trans ?_
  rw [hst]
  rfl

theorem connectDestoryed_works (h : connectDestoryed cfg t c s = .ok s' gs) : s.Works e c s' := by
  obtain ⟨-, h⟩ := Res.assert_ok h
  split at h
  · obtain ⟨s₁, hop, h⟩ := Res.bind_ok h
    obtain ⟨-, p, ho, rfl⟩ := channelOp_ok hop
    obtain ⟨hev, -, hne⟩ := setEvents_chan ho
    cases h
    have hp : (Sys.setPoller (setState c .disconnected s) c.loop p).port c =
        { s.port c with state := .disconnected, writing := false } := by
      rw [port_setPoller, EventChannel.isWriting, hev, setState, Sys.updConn_self]
      rfl
    have hw : s.Works e c (Sys.setPoller (setState c .disconnected s) c.loop p) :=
      ⟨(Sys.Local.updConn _).trans (.setPoller hne), hp ▸ .close⟩
    exact hw.before (.note _) (port_note _)
  · exact connectDestoryedRest_works h

theorem readHandler_works {x : ReadRes} (h : readHandler cfg t c x s = .ok s' gs) :
    s.Works e c s' := by
  obtain ⟨-, h⟩ := Res.assert_ok h
  split at h
  · have hread : s.Works e c (s.updConn c fun y =>
        { y with readBuffer := ((s.conns c).readBuffer.readFromFD x).1 }) := .updConn fun _ _ => rfl
    have hport := port_updConn (s := s) (c := c) fun y =>
        { y with readBuffer := ((s.conns c).readBuffer.readFromFD x).1 }
    dsimp only at h
    split at h
    · split at h
      · cases h
        exact hread.before (.note _) (port_note _)
      · exact .after hread.rest hport (closeHandler_works h)
    · split at h
      · exact .after hread.rest hport (closeHandler_works h)
      · split at h <;> cases h <;> exact hread
  · cases h

theorem shutdownInLoop_works (he : e.shut) (h : shutdownInLoop t c s = .ok s' gs) :
    s.Works e c s' := by
  obtain ⟨-, -, ⟨-, rfl⟩ | ⟨hw, rfl⟩⟩ := shutdownInLoop_ok h
  · exact .refl s' c
  · refine ⟨.updConn _, ?_⟩
    rw [port_updConn]
    exact .shut he hw

theorem writeHandler_works (h : writeHandler cfg t c inp s = .ok s' gs) : s.Works e c s' := by
  obtain ⟨-, h⟩ := Res.assert_ok h
  split at h
  · rename_i hw
    split at h
    · rename_i n _
      split at h
      · rename_i hn
        split at h
        · dsimp only at h
          split at h
          · rename_i hemp
            obtain ⟨s₁, hop, h⟩ := Res.bind_ok h
            obtain ⟨-, p, ho, rfl⟩ := channelOp_ok hop
            obtain ⟨hev, -, hne⟩ := setEvents_chan ho
            cases h
            refine ⟨(Sys.Local.updConn _).trans (.setPoller hne), ?_⟩
            have hdr := PortStep.drain (e := e) (a := s.port c) hw hn
            rw [Sys.updConn_self] at hemp
            rw [port_setPoller, EventChannel.isWriting, hev, writing_disableWriting, Sys.updConn_self]
            have hemp : ((s.port c).buffer.clearReadIndex n).isEmpty = true := hemp
            rw [hemp] at hdr
            exact hdr
          · rename_i hemp
            cases h
            refine ⟨.updConn _, ?_⟩
            have hdr := PortStep.drain (e := e) (a := s.port c) hw hn
            rw [Sys.updConn_self] at hemp
            rw [port_updConn]
            have hemp : ((s.port c).buffer.clearReadIndex n).isEmpty = false :=
              Bool.eq_false_iff.2 hemp
            rw [hemp] at hdr
            rw [hw]
            exact hdr
        · cases h
          exact .refl _ c
      · cases h
    · cases h
      exact .refl _ c
    · cases h
  · cases h
    exact .refl _ c

theorem writeHandlerRest_works (he : (s.conns c).state = .disconnecting → e.shut)
    (h : writeHandlerRest t c s = .ok s' gs) : s.Works e c s' := by
  unfold writeHandlerRest at h
  split at h
  · rename_i hst
    exact shutdownInLoop_works (he hst) h
  · cases h
    exact .refl _ c

theorem forceCloseInLoop_works (h : forceCloseInLoop cfg t c s = .ok s' gs) : s.Works e c s' := by
  obtain ⟨-, h⟩ := Res.assert_ok h
  split at h
  · exact closeHandler_works h
  · cases h
    exact .refl _ c

theorem startReadInLoop_works (h : startReadInLoop cfg t c s = .ok s' gs) : s.Works e c s' := by
  obtain ⟨-, h⟩ := Res.assert_ok h
  split at h
  · cases h
    exact .refl _ c
  · obtain ⟨s₁, hop, h⟩ := Res.bind_ok h
    obtain ⟨-, p, ho, rfl⟩ := channelOp_ok hop
    cases h
    exact .setEvents ho writing_enableReading

theorem stopReadInLoop_works (h : stopReadInLoop cfg t c s = .ok s' gs) : s.Works e c s' := by
  obtain ⟨-, h⟩ := Res.assert_ok h
  split at h
  · obtain ⟨s₁, hop, h⟩ := Res.bind_ok h
    obtain ⟨-, p, ho, rfl⟩ := channelOp_ok hop
    cases h
    exact .setEvents ho writing_disableReading
  · cases h
    exact .refl _ c

theorem Armed.local (h : Armed cfg t c s s₁) : s.Local (some c) s₁ := by
  cases h with
  | already => exact .refl s
  | armed ht hst ho => exact .setPoller (setEvents_chan ho).2.2

theorem Queued.local (h : Queued t c s s') : s.Local (some c) s' ∧ s'.port c = s.port c := by
  have hport : ∀ {k : Task}, (∀ c, k.outputOf c = false) →
      (s.queueInLoop t c.loop k).port c = s.port c := fun hk =>
    port_congr rfl rfl (filter_appended_ne (hk c))
  cases h with
  | nothing => exact ⟨.refl s, rfl⟩
  | written => exact ⟨.queueInLoop fun _ => rfl, hport fun _ => rfl⟩
  | highWater => exact ⟨.queueInLoop fun _ => rfl, hport fun _ => rfl⟩

/-- What the kernel has not taken is kept, and the channel asks for write events. -/
theorem sendRemaining_works {m : Msg} (he : e.send) (hst : (s.conns c).state ≠ .disconnected)
    (h : sendRemaining cfg t c m s = .ok s' gs) : s.Works e c s' := by
  rcases eq_or_ne m [] with rfl | hm
  · cases h
    exact .refl _ c
  obtain ⟨-, ⟨hm', -⟩ | ⟨s₁, ha, hw, hq⟩⟩ := sendRemaining_ok hst h
  · exact absurd hm' hm
  refine .before ⟨ha.local.trans (.updConn _), ?_⟩ hq.local.1 hq.local.2
  rw [port_updConn, hw, ha.conns, ha.local.outputs]
  exact .append he hst hm

theorem sendInLoop_works {T : Tid} {m : Msg} (he : e.send)
    (h : sendInLoop cfg t c T m inp s = .ok s' gs) : s.Works e c s' := by
  obtain ⟨-, h⟩ := Res.assert_ok h
  -- the entry itself is not shown by the port
  have hent := port_updConn (s := s) (c := c) fun x => { x with entered := x.entered ++ [(T, m)] }
  refine .after (.updConn fun x => { x with entered := x.entered ++ [(T, m)] }) hent ?_
  dsimp only at h
  split at h
  · cases h
    exact .refl _ c
  · rename_i hst
    split at h
    · split at h
      · rename_i n _
        split at h
        · refine .after (.updConn fun x => { x with out := x.out ++ m.take n }) (port_updConn _) ?_
          split at h
          · exact .after (.queueInLoop fun _ => rfl)
              (port_congr rfl rfl (filter_appended_ne (k := .writtenCb c) rfl))
              (sendRemaining_works he (by simpa [Sys.queueInLoop] using hst) h)
          · exact sendRemaining_works he (by simpa using hst) h
        · cases h
      · split at h
        · exact closeHandler_works h
        · exact sendRemaining_works he hst h
      · cases h
    · exact sendRemaining_works he hst h

/-- `CONNECTED` to `DISCONNECTING`. -/
theorem disconnecting_works {f : Conn → Conn} (hst : (s.conns c).state = .connected)
    (hf : ∀ w ks, (f (s.conns c)).port w ks =
      { (s.conns c).port w ks with state := .disconnecting }) :
    s.Works e c (s.updConn c f) := by
  refine ⟨.updConn f, ?_⟩
  rw [port_updConn, hf]
  exact .move fun hd => by rw [show (s.conns c).state = .disconnected from hd] at hst; cases hst

theorem shutdown_works (h : shutdown t c inp s = .ok s' gs) : s.Works e c s' := by
  unfold shutdown at h
  split at h
  · split at h
    · rename_i hc
      cases h
      exact disconnecting_works hc.2 fun _ _ => rfl
    · cases h
      exact .refl _ c
  · cases h

theorem forceClose_works (h : forceClose c inp s = .ok s' gs) : s.Works e c s' := by
  unfold forceClose at h
  split at h
  · split at h
    · rename_i hc
      cases h
      exact disconnecting_works hc.2 fun _ _ => rfl
    · cases h
      exact .refl _ c
  · cases h

theorem forceCloseAgain_works (h : forceCloseAgain c inp s = .ok s' gs) : s' = s := by
  unfold forceCloseAgain at h
  split at h
  · split at h <;> cases h <;> rfl
  · cases h

end Liang.Net
