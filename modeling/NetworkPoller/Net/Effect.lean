import NetworkPoller.Net.EventLoop
import Mathlib.Logic.Relation

/-!
# What a step can do

`Effect cfg d t s s'`: the thread `t` does one thing to the system that the invariants of the
development survive; a step of a thread is a sequence of effects (`exec_effects`), so that an
invariant has to be shown for effects only. An effect says what it needs: the frames and functors
it leaves fit the thread or the loop they are left to (`Frame.Fits`, `Task.Fits`), the channel it
arms belongs to a connection that is not closed, and so on. `Discipline` names what a run may do
beyond that.

Frames and functors that stand for one obligation each (a `close_cb_` to call, a connection to
remove, a message to send, a connector's attempt) are not `light`: the effect that creates or
consumes one says what it is exchanged for.
-/

namespace Liang.Net

open Base TcpConnection

/-- What a run may do. -/
structure Discipline where
  /-- `StartRead` is called -/
  reads : Prop
  /-- `StartReadInLoop` runs on a connection after its `CloseHandler` -/
  rearms : Prop
  /-- the close callback of the channel or `ReadHandler` finds such a connection -/
  recloses : Prop
  /-- a number is closed that is the descriptor of a connection -/
  steals : Prop
  /-- a number is closed that is the socket of a connector -/
  strips : Prop
  /-- `WriteHandler` shuts the socket down ahead of a message sent before `Shutdown` -/
  overtakes : Prop
  /-- a connection is destroyed that a handler or the reactor still has a pointer to -/
  dangles : Prop

/-- No restriction. -/
def Discipline.any : Discipline := ⟨True, True, True, True, True, True, True⟩

/-- `ConnectEstablished` has run on the connection. -/
def Conn.Est (x : Conn) : Prop := .established ∈ x.trace

/-- `CloseHandler` has run on the connection. -/
def Conn.Closed (x : Conn) : Prop := .closeHandler ∈ x.trace

abbrev Sys.Est (s : Sys) (c : ConnId) : Prop := (s.conns c).Est
abbrev Sys.Closed (s : Sys) (c : ConnId) : Prop := (s.conns c).Closed

/-- The object is there for whoever points to it. -/
def Sys.There (d : Discipline) (s : Sys) (c : ConnId) : Prop := s.alive c = true ∨ d.dangles

/-- Established and there. -/
def Sys.Live (d : Discipline) (s : Sys) (c : ConnId) : Prop := s.Est c ∧ s.There d c

/-! ## Frames and functors in their place -/

def Frame.isLoop : Frame → Bool
  | loopPoll _ | loopDispatch _ | loopTasks _ => true
  | _ => false

/-- The frames of `HandleEvent` and of the handlers it calls. -/
def Frame.isHandler : Frame → Bool
  | handleEvent _ | closeHandler _ | errorHandler _ | readHandler _ | writeHandler _
  | writeHandlerRest _ | acceptHandle | closeIdle | reAccept | reOpen | writeEventHandler _
  | writeEventRest _ _ => true
  | _ => false

def Frame.light : Frame → Bool
  | loopPoll _ | loopDispatch _ | loopTasks _ | closeCb _ | destoryedRest _ | connectorRun _
  | handleEvent (.connector _ _ _) | writeEventHandler _ | writeEventRest _ _ => false
  | _ => true

def Task.light : Task → Bool
  | connectEstablished _ | connectDestoryed _ | removeConnectionInLoop _ | sendInLoop _ _ _
  | shutdownInLoop _ | connectorStart _ | connectorReset _ => false
  | _ => true

/-- The connection a frame works on, held or not. -/
def Frame.about : Frame → Option ConnId
  | closeHandler c | errorHandler c | readHandler c | writeHandler c | writeHandlerRest c
  | destoryedRest c => some c
  | handleEvent (.conn c) => some c
  | f => f.conn?

/-- The loop a functor belongs to. -/
def Task.Home (cfg : Cfg) (l : LoopId) : Task → Prop
  | removeConnectionInLoop c => l = cfg.serverLoop ∧ c.owner = .server
  | listen => l = cfg.serverLoop
  | connectorStart k | connectorReset k | connectorStop k => l = cfg.clientLoop k
  | functor => True
  | connectEstablished c => l = c.loop ∧ c.owner = .server
  | sendInLoop c sender _ => l = c.loop ∧ sender ≠ .loop c.loop
  | connectDestoryed c | startReadInLoop c | stopReadInLoop c | shutdownInLoop c
  | forceCloseInLoop c | writtenCb c | highWaterCb c _ => l = c.loop

/-- The thread a frame can stand with. -/
def Frame.Home (cfg : Cfg) (t : Tid) : Frame → Prop
  | loopPoll l | loopDispatch l | loopTasks l => t = .loop l
  | taskDone _ | user _ | api _ | forceCloseAgain _ | startPool | connectorRun _ => True
  | queueInLoop l k => k.Home cfg l ∧ (k = .functor ∨ ∃ c, k = .shutdownInLoop c ∨ k = .forceCloseInLoop c)
  | runInLoop l k => k.Home cfg l ∧ (k = .functor ∨ ∃ j, k = .connectorStop j)
  | handleEvent i => t = .loop (i.loop cfg)
  | closeHandler c | errorHandler c | readHandler c | writeHandler c | writeHandlerRest c
  | closeCb c => t = .loop c.loop
  | destoryedRest _ => False
  | acceptHandle | closeIdle | reAccept | reOpen => t = .loop cfg.serverLoop
  | writeEventHandler k | writeEventRest k _ => t = .loop (cfg.clientLoop k)

/-- What a frame or a functor relies on: the connections that are live, and those that a
`Shutdown` has moved. -/
structure View where
  live : ConnId → Prop
  shut : ConnId → Prop

def Sys.view (d : Discipline) (s : Sys) : View := ⟨s.Live d, fun c => (s.conns c).closer ≠ none⟩

/-- The frame can stand on the stack of `t`. -/
structure Frame.Fits (cfg : Cfg) (d : Discipline) (V : View) (t : Tid) (f : Frame) : Prop where
  home : f.Home cfg t
  about : ∀ c, f.about = some c → V.live c
  reads : ∀ c, f = .api (.startRead c) → d.reads
  shut : ∀ l c, f = .queueInLoop l (.shutdownInLoop c) → V.shut c

/-- The functor can stand in the queue of `l`. -/
structure Task.Fits (cfg : Cfg) (d : Discipline) (V : View) (l : LoopId) (k : Task) : Prop where
  home : k.Home cfg l
  about : ∀ c, k.conn? = some c → k = .connectEstablished c ∨ V.live c
  reads : ∀ c, k = .startReadInLoop c → d.reads
  shut : ∀ c, k = .shutdownInLoop c → V.shut c

/-- What stands below the frame or functor `t` is running: the frames left when it is done. -/
inductive Rest (d : Discipline) (s : Sys) (t : Tid) : List Frame → Prop
  | frame {f : Frame} {r : List Frame} (h : s.stack t = f :: r) (hf : f.light = true) : Rest d s t r
  | task {l : LoopId} {k : Task} {r : List Frame} (h : s.stack t = .loopTasks l :: r)
      (hk : ∀ c, k.conn? = some c → s.Live d c) : Rest d s t (.taskDone k :: .loopPoll l :: r)

/-- A channel in its loop, of a connection that is there. -/
structure ChanId.Fits (cfg : Cfg) (V : View) (l : LoopId) (i : ChanId) : Prop where
  home : i.loop cfg = l
  about : ∀ c, i = .conn c → V.live c

/-- Nobody has a pointer to the connection `c`. -/
structure Sys.Unreached (s : Sys) (c : ConnId) : Prop where
  stack : ∀ t, ∀ f ∈ s.stack t, f.about ≠ some c
  queue : ∀ l, ∀ k ∈ s.queue l, k.conn? ≠ some c
  active : ∀ l, .conn c ∉ s.active l
  chan : ∀ l, ((s.pollers l).chan (.conn c)).status = .newChannel
  held : s.held c = false
  client : ∀ k, (s.clients k).connection ≠ some c
  connections : ∀ n, s.connections n ≠ some c

/-! ## Connections -/

/-- What the entry of `SendInLoop` for the message `m` of `T` does to a connection, short of a
fatal error; `w` is `IsWriting` after it. -/
inductive Enter (w : Bool) (T : Tid) (m : Msg) (x : Conn) : Conn → Prop
  | dropped (h : x.state = .disconnected) :
      Enter w T m x { x with entered := x.entered ++ [(T, m)] }
  | written (h : x.state ≠ .disconnected) (he : x.writeBuffer.readableBytes = 0) :
      Enter w T m x { x with entered := x.entered ++ [(T, m)], out := x.out ++ m }
  | kept (n : Nat) (h : x.state ≠ .disconnected) (hn : n ≤ m.length)
      (he : n = 0 ∨ x.writeBuffer.readableBytes = 0) (hw : w = true) :
      Enter w T m x (append (m.drop n)
        { x with entered := x.entered ++ [(T, m)], out := x.out ++ m.take n })
  | empty (h : x.state ≠ .disconnected) (hm : m = []) :
      Enter w T m x { x with entered := x.entered ++ [(T, m)] }

/-- The messages of `T` for which `SendInLoop` has been entered. -/
def Conn.enteredBy (x : Conn) (T : Tid) : List Msg := (x.entered.filter (·.1 = T)).map (·.2)

/-- The messages `T` has given to `Send`. -/
def Conn.sentBy (x : Conn) (T : Tid) : List Msg := (x.sent.filter (·.1 = T)).map (·.2)

/-- `SendInLoop` has been entered for all that the closer had sent. -/
def Conn.CloserEntered (x : Conn) : Prop :=
  ∀ T n, x.closer = some (T, n) → n ≤ (x.enteredBy T).length

/-- `ShutdownWrite` on the connection. -/
def Conn.shut (x : Conn) : Conn := { x with shutWr := x.shutWr ++ [⟨x.state, x.out, x.entered⟩] }

/-- What a thread `t` can do to the connection `c` alone; `w` is `IsWriting`. -/
inductive ConnStep (d : Discipline) (t : Tid) (c : ConnId) (w : Bool) (x : Conn) : Conn → Prop
  | misc (b : Buffer) (cm cw ch cs : Bool) (n : Nat) :
      ConnStep d t c w x { x with
        readBuffer := b, msgCb := cm, writtenCb := cw, highWaterCb := ch, highWater := n
        statusCb := cs }
  | msg (h : x.Closed → d.recloses) : ConnStep d t c w x { x with trace := x.trace ++ [.msgCb] }
  | send {m : Msg} {x' : Conn} (ht : t = .loop c.loop)
      (h : Enter w t m { x with sent := x.sent ++ [(t, m)] } x') : ConnStep d t c w x x'
  | drain (n : Nat) (hn : n ≤ x.writeBuffer.readable.length) :
      ConnStep d t c w x { x with
        out := x.out ++ x.writeBuffer.readable.take n
        writeBuffer := x.writeBuffer.clearReadIndex n }
  | shut (hs : x.state = .disconnecting) (hw : w = false) (h : x.CloserEntered ∨ d.overtakes) :
      ConnStep d t c w x x.shut
  | shutdown (h : x.state = .connected) :
      ConnStep d t c w x { x with
        state := .disconnecting, closer := some (t, (x.sent.filter (·.1 = t)).length) }
  | forceClose (h : x.state = .connected) : ConnStep d t c w x { x with state := .disconnecting }

/-- A new mask on the channel `i` is in order: the connection is established, a closed one is not
armed again, and it stops writing with an empty buffer only. -/
def EventsOk (d : Discipline) (s : Sys) (g : Mask → Mask) : ChanId → Prop
  | .acceptor => True
  | .conn c => s.Live d c ∧ (s.Closed c → (s.chan c).events = Event.noneEventFlag → d.rearms) ∧
      (Event.writeEventFlag &&& g (s.chan c).events = 0 → (s.chan c).isWriting = true →
        (s.conns c).writeBuffer.readableBytes = 0)
  | .connector _ _ _ => False

/-- No connection has the descriptor `n`. -/
def Sys.Harmless (s : Sys) (n : Fd) : Prop :=
  (∀ c, s.fds n ≠ some (.conn c)) ∨ ∀ c, s.alive c = true → c.fd ≠ n

/-- No other connection has the descriptor of `c`. -/
def Sys.SoleOn (s : Sys) (c : ConnId) : Prop := ∀ c', s.alive c' = true → c'.fd = c.fd → c' = c

/-- The thread is in a handler on this connection, or on none. -/
def Sys.Handling (s : Sys) (t : Tid) (c? : Option ConnId) : Prop :=
  ∃ f ∈ s.stack t, f.isHandler = true ∧ f.about = c?

namespace Sys

variable (s : Sys)

/-- `ConnectEstablished` up to its callback, with the poller `p` it leaves. -/
def establish (c : ConnId) (p : EpollPoller ChanId) : Sys :=
  noteStatus c (((setState c .connected s).note c [.established]).setPoller c.loop p)

/-- `CloseHandler` up to its callback. -/
def closeConn (c : ConnId) (p : EpollPoller ChanId) : Sys :=
  noteStatus c (((setState c .disconnected s).note c [.closeHandler]).setPoller c.loop p)

/-- `RemoveConnectionInLoop`. -/
def unlink (t : Tid) (c : ConnId) : Sys :=
  (note { s with connections := Function.update s.connections c.fd none } c
    [.destroyQueued]).queueInLoop t c.loop (.connectDestoryed c)

/-- `TcpClient::RemoveConnection`. -/
def unlinkClient (t : Tid) (k : ClientId) (c : ConnId) : Sys :=
  ((s.updClient k fun x => { x with connection := none }).note c [.destroyQueued]).queueInLoop t
    (c.loop) (.connectDestoryed c)

/-- The object `c` is made on its descriptor. -/
def create (c : ConnId) (x : Conn) : Sys :=
  { s with
    nextSerial := s.nextSerial + 1
    alive := Function.update s.alive c true
    conns := Function.update s.conns c x
    fds := Function.update s.fds c.fd (some (.conn c)) }

/-- The destructor of `c`. -/
def destroy (c : ConnId) : Sys :=
  closeFd { s with alive := Function.update s.alive c false } c.fd

end Sys

section

variable {s : Sys} {c c' : ConnId} {p : EpollPoller ChanId}

theorem Sys.establish_self : (s.establish c p).conns c =
    { s.conns c with
      state := .connected
      trace := (s.conns c).trace ++ [.established] ++
        if (s.conns c).statusCb then [.statusCb] else [] } := by
  simp [establish, noteStatus, note, setState, updConn, setPoller]

theorem Sys.establish_of_ne (h : c' ≠ c) : (s.establish c p).conns c' = s.conns c' := by
  simp [establish, noteStatus, note, setState, updConn, setPoller, Function.update_of_ne h]

theorem Sys.closeConn_self : (s.closeConn c p).conns c =
    { s.conns c with
      state := .disconnected
      trace := (s.conns c).trace ++ [.closeHandler] ++
        if (s.conns c).statusCb then [.statusCb] else [] } := by
  simp [closeConn, noteStatus, note, setState, updConn, setPoller]

theorem Sys.closeConn_of_ne (h : c' ≠ c) : (s.closeConn c p).conns c' = s.conns c' := by
  simp [closeConn, noteStatus, note, setState, updConn, setPoller, Function.update_of_ne h]

end

/-- `StartInLoop` begins, from `Start` itself or from the queue. -/
inductive StartSource (t : Tid) (k : ClientId) (s : Sys) : Sys → List Frame → Prop
  | frame {r : List Frame} (h : s.stack t = .connectorRun k :: r) : StartSource t k s s r
  | task {l : LoopId} {ks : List Task} {r : List Frame} (h : s.stack t = .loopTasks l :: r)
      (hq : s.queue l = .connectorStart k :: ks) :
      StartSource t k s (s.dequeue t l (.connectorStart k) ks)
        (.taskDone (.connectorStart k) :: .loopPoll l :: r)

/-- One effect of thread `t` (module doc). -/
inductive Effect (cfg : Cfg) (d : Discipline) (t : Tid) (s : Sys) : Sys → Prop
  -- the loop
  | poll {l r evs} (h : s.stack t = .loopPoll l :: r) (hp : canPoll (s.pollers l) evs = true) :
      Effect cfg d t s ((s.poll l evs).push t (.loopDispatch l :: r))
  | dispatch {l r i is} (h : s.stack t = .loopDispatch l :: r) (ha : s.active l = i :: is) :
      Effect cfg d t s
        ((s.dispatch l (some i) is).push t (.handleEvent i :: .loopDispatch l :: r))
  | dispatched {l r} (h : s.stack t = .loopDispatch l :: r) (ha : s.active l = []) :
      Effect cfg d t s ((s.dispatch l none []).push t (.loopTasks l :: r))
  | idle {l r} (h : s.stack t = .loopTasks l :: r) (hq : s.queue l = []) :
      Effect cfg d t s (s.push t (.loopPoll l :: r))
  | dequeue {l r k ks} (h : s.stack t = .loopTasks l :: r) (hq : s.queue l = k :: ks)
      (hk : k.light = true) : Effect cfg d t s (s.dequeue t l k ks)
  | finish {r gs} (hr : Rest d s t r) (hg : ∀ g ∈ gs, g.light = true ∧ g.Fits cfg d (s.view d) t ∧
      (g.isHandler = true → (∃ l, .loopDispatch l ∈ r) ∧ s.Handling t g.about)) :
      Effect cfg d t s (s.push t (gs ++ r))
  | enqueue {l k} (hk : k.light = true ∨ ∃ c, k = .shutdownInLoop c) (hf : k.Fits cfg d (s.view d) l) :
      Effect cfg d t s (s.queueInLoop t l k)
  -- connections
  | conn {c x'} (he : s.Live d c) (h : ConnStep d t c (s.chan c).isWriting (s.conns c) x') :
      Effect cfg d t s (s.updConn c fun _ => x')
  | events {i g p} (ht : t = .loop (i.loop cfg))
      (ho : (s.pollers (i.loop cfg)).setEvents (ChanId.fd cfg) i g = .ok p)
      (hi : EventsOk d s g i) : Effect cfg d t s (s.setPoller (i.loop cfg) p)
  | sendQueued {c m} (he : s.Live d c) (ht : t ≠ .loop c.loop) :
      Effect cfg d t s ((s.updConn c fun x => { x with sent := x.sent ++ [(t, m)] }).queueInLoop t
        c.loop (.sendInLoop c t m))
  | sendTaken {l r ks c T m x'} (h : s.stack t = .loopTasks l :: r)
      (hq : s.queue l = .sendInLoop c T m :: ks)
      (he : Enter (s.chan c).isWriting T m (s.conns c) x') :
      Effect cfg d t s ((s.dequeue t l (.sendInLoop c T m) ks).updConn c fun _ => x')
  | shutTaken {l r ks c x'} (h : s.stack t = .loopTasks l :: r)
      (hq : s.queue l = .shutdownInLoop c :: ks)
      (hx : x' = s.conns c ∨ (s.chan c).isWriting = false ∧ x' = (s.conns c).shut) :
      Effect cfg d t s ((s.dequeue t l (.shutdownInLoop c) ks).updConn c fun _ => x')
  | establish {l r ks c p} (h : s.stack t = .loopTasks l :: r)
      (hq : s.queue l = .connectEstablished c :: ks) (ht : t = .loop c.loop)
      (ho : (s.pollers c.loop).enableReading (ChanId.fd cfg) (.conn c) = .ok p) :
      Effect cfg d t s (((s.dequeue t l (.connectEstablished c) ks).establish c p).push t
        (statusFrames c s ++ .taskDone (.connectEstablished c) :: .loopPoll l :: r))
  | close {r c p} (hr : Rest d s t r) (he : s.Live d c) (ht : t = .loop c.loop)
      (hc : s.Closed c → d.recloses ∧ s.Handling t (some c))
      (ho : (s.pollers c.loop).disableAll (ChanId.fd cfg) (.conn c) = .ok p) :
      Effect cfg d t s ((s.closeConn c p).push t (statusFrames c s ++ .closeCb c :: r))
  | sendFailed {l r ks c T m p} (h : s.stack t = .loopTasks l :: r)
      (hq : s.queue l = .sendInLoop c T m :: ks) (ht : t = .loop c.loop)
      (hs : (s.conns c).state ≠ .disconnected)
      (ho : (s.pollers c.loop).disableAll (ChanId.fd cfg) (.conn c) = .ok p) :
      Effect cfg d t s ((((s.dequeue t l (.sendInLoop c T m) ks).updConn c fun x =>
          { x with entered := x.entered ++ [(T, m)] }).closeConn c p).push t
        (statusFrames c s ++ .closeCb c :: .taskDone (.sendInLoop c T m) :: .loopPoll l :: r))
  | handOver {r c} (h : s.stack t = .closeCb c :: r) (ho : c.owner = .server) :
      Effect cfg d t s (((s.note c [.closeCb]).queueInLoop t cfg.serverLoop
        (.removeConnectionInLoop c)).push t r)
  | unlink {r c} (h : s.stack t = .closeCb c :: r) (ho : c.owner = .server)
      (ht : t = .loop cfg.serverLoop) :
      Effect cfg d t s (((s.note c [.closeCb]).unlink t c).push t r)
  | unlinkTaken {l r ks c} (h : s.stack t = .loopTasks l :: r)
      (hq : s.queue l = .removeConnectionInLoop c :: ks) (ht : t = .loop cfg.serverLoop) :
      Effect cfg d t s (((s.dequeue t l (.removeConnectionInLoop c) ks).unlink t c).push t
        (.taskDone (.removeConnectionInLoop c) :: .loopPoll l :: r))
  | unlinkClient {r c k} (h : s.stack t = .closeCb c :: r) (ho : c.owner = .client k)
      (ht : t = .loop c.loop) :
      Effect cfg d t s (((s.note c [.closeCb]).unlinkClient t k c).push t r)
  | destroyed {l r ks c p} (h : s.stack t = .loopTasks l :: r)
      (hq : s.queue l = .connectDestoryed c :: ks) (ht : t = .loop c.loop)
      (ho : (s.pollers c.loop).removeEventChannel (ChanId.fd cfg) (.conn c) = .ok p) :
      Effect cfg d t s ((((s.dequeue t l (.connectDestoryed c) ks).setPoller c.loop p).note c
        [.destroyed]).push t (.taskDone (.connectDestoryed c) :: .loopPoll l :: r))
  | accept {c} (hc : c = ⟨s.nextSerial, c.fd, TcpServer.getEventLoopFromPoolForHash cfg c.fd,
      .server⟩) (hf : s.fds c.fd = none) (ht : t = .loop cfg.serverLoop) :
      Effect cfg d t s (Sys.queueInLoop { s.create c (TcpServer.newConn cfg) with
        connections := Function.update s.connections c.fd (some c) } t c.loop
          (.connectEstablished c))
  -- connectors
  | connect {k r} (hr : Rest d s t r) (hs : (s.clients k).state = .disconnected) :
      Effect cfg d t s ((s.updClient k fun x =>
        { x with state := .connecting, phase := .called t }).push t (.connectorRun k :: r))
  | connectQueued {k r} (h : s.stack t = .connectorRun k :: r) :
      Effect cfg d t s (((s.updClient k fun x => { x with phase := .queued }).queueInLoop t
        (cfg.clientLoop k) (.connectorStart k)).push t r)
  | attempt {k s₀ r fd n p} (hs : StartSource t k s s₀ r) (ht : t = .loop (cfg.clientLoop k))
      (hf : s.fds fd = none) (hn : (s.clients k).attempts = n)
      (ho : (s.pollers (cfg.clientLoop k)).enableWriting (ChanId.fd cfg) (.connector k n fd)
        = .ok p) :
      Effect cfg d t s ((((s₀.openFd fd (.connector k)).updClient k fun x =>
          { x with attempts := n + 1, channel := some (n, fd), phase := .polling n fd }).setPoller
        (cfg.clientLoop k) p).push t r)
  | attemptFailed {k s₀ r} (hs : StartSource t k s s₀ r) :
      Effect cfg d t s ((s₀.updClient k fun x => { x with phase := .ended }).push t r)
  | handled {k n fd r gs} (h : s.stack t = .handleEvent (.connector k n fd) :: r)
      (hg : gs = [] ∨ gs = [.writeEventHandler k]) : Effect cfg d t s (s.push t (gs ++ r))
  | removeChannel {k r n fd p p'} (h : s.stack t = .writeEventHandler k :: r)
      (ht : t = .loop (cfg.clientLoop k)) (hk : (s.clients k).channel = some (n, fd))
      (ho : (s.pollers (cfg.clientLoop k)).disableAll (ChanId.fd cfg) (.connector k n fd) = .ok p)
      (hp : p.removeEventChannel (ChanId.fd cfg) (.connector k n fd) = .ok p') :
      Effect cfg d t s ((((s.setPoller (cfg.clientLoop k) p').updClient k fun x =>
          { x with phase := .judging fd }).queueInLoop t (cfg.clientLoop k)
            (.connectorReset k)).push t (.writeEventRest k fd :: r))
  | retry {k fd r} (h : s.stack t = .writeEventRest k fd :: r) (hf : s.Harmless fd ∨ d.steals) :
      Effect cfg d t s ((((s.closeFd fd).updClient k fun x =>
        { x with phase := .queued }).queueInLoop t (cfg.clientLoop k)
          (.connectorStart k)).push t r)
  | newConnection {k r c p} (h : s.stack t = .writeEventRest k c.fd :: r)
      (hc : c = ⟨s.nextSerial, c.fd, cfg.clientLoop k, .client k⟩) (ht : t = .loop c.loop)
      (ho : (s.pollers c.loop).enableReading (ChanId.fd cfg) (.conn c) = .ok p) :
      Effect cfg d t s ((((s.create c (TcpClient.newConn cfg k)).updClient k fun x =>
          { x with connection := some c, phase := .ended }).establish c p).push t
        ((if cfg.clientStatusCb k then [.user (some c)] else []) ++ r))
  | reset {l r ks k} (h : s.stack t = .loopTasks l :: r)
      (hq : s.queue l = .connectorReset k :: ks) :
      Effect cfg d t s (((s.dequeue t l (.connectorReset k) ks).updClient k fun x =>
        { x with channel := none }).push t (.taskDone (.connectorReset k) :: .loopPoll l :: r))
  -- the rest
  | openFd {n u} (hn : s.fds n = none) (hu : u = .leaked ∨ u = .other) :
      Effect cfg d t s (s.openFd n u)
  | closeFd {n} (h : s.Harmless n ∨ d.steals)
      (hk : (∀ k, s.fds n ≠ some (.connector k)) ∨ d.strips) : Effect cfg d t s (s.closeFd n)
  | destroy {c} (ha : s.alive c = true) (hr : s.referenced cfg c = false)
      (hu : s.Unreached c ∨ d.dangles) (hf : s.SoleOn c ∨ d.steals) :
      Effect cfg d t s (s.destroy c)
  | hold {c b} (he : s.Live d c) :
      Effect cfg d t s { s with held := Function.update s.held c b }
  | start : Effect cfg d t s { s with started := true }
  | initPool : Effect cfg d t s { s with initialized := s.initialized ++ [t] }
  | stop {a} : Effect cfg d t s { s with failed := some a }

/-- A sequence of effects of one thread. -/
abbrev Effects (cfg : Cfg) (d : Discipline) (t : Tid) : Sys → Sys → Prop :=
  Relation.ReflTransGen (Effect cfg d t)

end Liang.Net
