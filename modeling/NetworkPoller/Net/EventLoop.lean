import NetworkPoller.Net.TcpServer
import NetworkPoller.Net.TcpClient

/-!
# `EventLoop` and the steps of a run

`exec` runs the top frame of a thread, `step` makes the step of one thread or of the environment.
A failed assert stops the run.
-/

namespace Liang.Net

namespace EventChannel

/-- The callbacks `HandleEvent` makes for the events received, in its order. -/
def callbacks (ev : Mask) (close error read write : List Frame) : List Frame :=
  (if ev &&& pollHup ≠ 0 ∧ pollIn &&& ev = 0 then close else []) ++
  (if ev &&& (pollErr ||| pollNval) ≠ 0 then error else []) ++
  (if ev &&& (pollIn ||| pollPri ||| pollRdhup) ≠ 0 then read else []) ++
  (if ev &&& pollOut ≠ 0 then write else [])

/-- `HandleEvent` with the callbacks each kind of channel has set. -/
def handleEvent (ev : Mask) : ChanId → List Frame
  | .acceptor => callbacks ev [] [] [.acceptHandle] []
  | .conn c => callbacks ev [.closeHandler c] [.errorHandler c] [.readHandler c] [.writeHandler c]
  | .connector k _ _ => callbacks ev [] [] [] [.writeEventHandler k]

end EventChannel

section

variable (cfg : Cfg) (t : Tid)

/-- The body of a functor. -/
def Task.run (inp : Input) (s : Sys) : Task → Res
  | .connectEstablished c => TcpConnection.connectEstablished cfg t c s
  | .connectDestoryed c => TcpConnection.connectDestoryed cfg t c s
  | .sendInLoop c sender msg => TcpConnection.sendInLoop cfg t c sender msg inp s
  | .startReadInLoop c => TcpConnection.startReadInLoop cfg t c s
  | .stopReadInLoop c => TcpConnection.stopReadInLoop cfg t c s
  | .shutdownInLoop c => TcpConnection.shutdownInLoop t c s
  | .forceCloseInLoop c => TcpConnection.forceCloseInLoop cfg t c s
  | .writtenCb c => .ok s [.user (some c)]
  | .highWaterCb c _ => .ok s [.user (some c)]
  | .removeConnectionInLoop c => TcpServer.removeConnectionInLoop cfg t c s
  | .listen => TcpAcceptor.listen cfg t s
  | .connectorStart k => TcpConnector.startInLoop cfg t k inp s
  | .connectorReset k => TcpConnector.resetChannelPtr k s
  | .connectorStop _ => TcpConnector.stopInLoop s
  | .functor => .ok s [.user none]

/-- A call of user code. A call on a connection is made through a reference. -/
def Api.run (inp : Input) (s : Sys) : Api → Res
  | .send c msg => TcpConnection.send cfg t c msg inp s
  | .startRead c => .ok (s.queueInLoop t c.loop (.startReadInLoop c)) []
  | .stopRead c => .ok (s.queueInLoop t c.loop (.stopReadInLoop c)) []
  | .shutdown c => TcpConnection.shutdown t c inp s
  | .forceClose c => TcpConnection.forceClose c inp s
  | .setCallbacks c cbs => .ok (s.updConn c fun x =>
      { x with
        msgCb := cbs.msg
        writtenCb := cbs.written
        highWaterCb := cbs.highWater.isSome
        highWater := cbs.highWater.getD x.highWater
        statusCb := cbs.status }) []
  | .buffer c op =>
    match op.exec (s.conns c).readBuffer with
    | some (b, _) => .ok (s.updConn c fun x => { x with readBuffer := b }) []
    -- more than `readv` has room for, which it does not return
    | none => .ok s []
  | .swapBuffer c rhs =>
    .ok (s.updConn c fun x => { x with readBuffer := (x.readBuffer.swap rhs).1 }) []
  | .retain c => .ok { s with held := Function.update s.held c true } []
  | .release c => .ok { s with held := Function.update s.held c false } []
  | .start => TcpServer.start inp s
  | .connect k => TcpConnector.start t k inp s
  | .disconnect k => TcpClient.disconnect t k inp s
  | .stop k => TcpConnector.stop cfg k s
  | .runInLoop l => .ok s [.runInLoop l .functor]
  | .queueInLoop l => .ok s [.queueInLoop l .functor]

/-- User code in a callback of `c?` can make the call: it holds the connection, and the loop
exists. -/
def Api.possible (s : Sys) (c? : Option ConnId) : Api → Bool
  | .runInLoop l | .queueInLoop l => decide (l ∈ cfg.loops)
  | a => match a.conn? with
    | some c => s.held c || c? == some c
    | none => true

/-- What `epoll_wait` can report: registered descriptors, each once, with events asked for and
with `EPOLLERR` and `EPOLLHUP`. -/
def canPoll (p : EpollPoller ChanId) (evs : List (Fd × Mask)) : Bool :=
  decide (evs.map (·.1)).Nodup && evs.all fun (n, ev) =>
    match p.interest n with
    | some (_, m) => ev &&& ~~~(m ||| pollErr ||| pollHup) == 0
    | none => false

/-- The channels reported, by `data.ptr`. -/
def activeChannels (p : EpollPoller ChanId) (evs : List (Fd × Mask)) : List ChanId :=
  evs.filterMap fun (n, _) => (p.interest n).map (·.1)

/-- `SetRecievedEvent` on every channel reported. -/
def setRecieved (p : EpollPoller ChanId) (evs : List (Fd × Mask)) : EpollPoller ChanId :=
  evs.foldl (fun q (n, ev) =>
    match p.interest n with
    | some (i, _) => q.setRecievedEvent i ev
    | none => q) p

/-- `Poll` into a cleared active list. -/
def Sys.poll (s : Sys) (l : LoopId) (evs : List (Fd × Mask)) : Sys :=
  { s with
    pollers := Function.update s.pollers l (setRecieved (s.pollers l) evs)
    polled := Function.update s.polled l (activeChannels (s.pollers l) evs)
    active := Function.update s.active l (activeChannels (s.pollers l) evs)
    current := Function.update s.current l none }

/-- The step of `HandleEventContext` to the channel `i`, or to the end. -/
def Sys.dispatch (s : Sys) (l : LoopId) (i : Option ChanId) (rest : List ChanId) : Sys :=
  { s with
    active := Function.update s.active l rest
    current := Function.update s.current l i }

/-- `try_dequeue` of the functor `k` in front of `rest`. -/
def Sys.dequeue (s : Sys) (l : LoopId) (k : Task) (rest : List Task) : Sys :=
  { s with
    queue := Function.update s.queue l rest
    executed := Function.update s.executed l (s.executed l ++ [(t, k)]) }

/-- Run a frame. -/
def exec (inp : Input) (s : Sys) : Frame → Res
  | .loopPoll l =>
    .assert (t = .loop l) .ownerThread <|
    match inp with
    | .poll evs => if canPoll (s.pollers l) evs then .ok (s.poll l evs) [.loopDispatch l] else .disabled
    | _ => .disabled
  | .loopDispatch l =>
    match s.active l with
    | [] => .ok (s.dispatch l none []) [.loopTasks l]
    | i :: rest => .ok (s.dispatch l (some i) rest) [.handleEvent i, .loopDispatch l]
  | .loopTasks l =>
    -- `RunTaskFuncs` runs one functor at most, then the loop polls again
    match s.queue l with
    | [] => .ok s [.loopPoll l]
    | k :: rest => (k.run cfg t inp (s.dequeue t l k rest)).followedBy [.taskDone k, .loopPoll l]
  | .taskDone _ => .ok s []
  | .user c? =>
    match inp with
    | .call a => if a.possible cfg s c? then .ok s [.api a, .user c?] else .disabled
    | .ret => .ok s []
    | _ => .disabled
  | .api a => a.run cfg t inp s
  | .forceCloseAgain c => TcpConnection.forceCloseAgain c inp s
  | .startPool => TcpServer.startPool cfg t s
  | .queueInLoop l k => .ok (s.queueInLoop t l k) []
  | .runInLoop l k => if t = .loop l then k.run cfg t inp s else .ok (s.queueInLoop t l k) []
  | .handleEvent i =>
    .ok s (EventChannel.handleEvent ((s.pollers (i.loop cfg)).chan i).recievedEvents i)
  | .closeHandler c => TcpConnection.closeHandler cfg t c s
  | .errorHandler _ => .ok s []
  | .readHandler c =>
    match inp with
    | .read r => TcpConnection.readHandler cfg t c r s
    | _ => .disabled
  | .writeHandler c => TcpConnection.writeHandler cfg t c inp s
  | .writeHandlerRest c => TcpConnection.writeHandlerRest t c s
  | .closeCb c =>
    match c.owner with
    | .server => TcpServer.removeConnection cfg t c (s.note c [.closeCb])
    | .client k => TcpClient.removeConnection cfg t k c (s.note c [.closeCb])
  | .destoryedRest c => TcpConnection.connectDestoryedRest cfg t c s
  | .acceptHandle => TcpAcceptor.acceptHandle cfg t inp s
  | .closeIdle => TcpAcceptor.closeIdle cfg s
  | .reAccept => TcpAcceptor.dropNewFd inp s
  | .reOpen => TcpAcceptor.dropNewFd inp s
  | .connectorRun k => TcpConnector.startRest cfg t k inp s
  | .writeEventHandler k => TcpConnector.writeEventHandler cfg t k s
  | .writeEventRest k fd => TcpConnector.writeEventRest cfg t k fd inp s

end

/-- A `shared_ptr` to the connection exists: in `connections_`, as `connection_`, with user code,
bound into a queued functor, or on a stack. -/
def Sys.referenced (cfg : Cfg) (s : Sys) (c : ConnId) : Bool :=
  s.connections c.fd == some c ||
  (match c.owner with
    | .server => false
    | .client k => (s.clients k).connection == some c) ||
  s.held c ||
  cfg.loops.any (fun l => (s.queue l).any fun k => k.conn? == some c) ||
  cfg.threads.any (fun t => (s.stack t).any fun f => f.conn? == some c)

inductive Act
  /-- a thread runs its top frame -/
  | thread (t : Tid) (inp : Input)
  /-- the destructor of a connection, after its last reference is dropped -/
  | destroy (c : ConnId)
  /-- other code of the process opens or closes a descriptor of its own -/
  | openFd (n : Fd)
  | closeFd (n : Fd)

/-- Push the frames `gs` in place of the top frame. -/
def Sys.push (s : Sys) (t : Tid) (fs : List Frame) : Sys :=
  { s with stack := Function.update s.stack t fs }

section

variable {s : Sys} {t t' : Tid}

@[simp] theorem Sys.push_self (fs : List Frame) : (s.push t fs).stack t = fs :=
  Function.update_self ..

theorem Sys.push_of_ne (fs : List Frame) (h : t' ≠ t) : (s.push t fs).stack t' = s.stack t' :=
  Function.update_of_ne h ..

@[simp] theorem Sys.dequeue_self (l : LoopId) (k : Task) (ks : List Task) :
    (s.dequeue t l k ks).queue l = ks := Function.update_self ..

theorem Sys.dequeue_of_ne {l l' : LoopId} (k : Task) (ks : List Task) (h : l' ≠ l) :
    (s.dequeue t l k ks).queue l' = s.queue l' := Function.update_of_ne h ..

end

def step (cfg : Cfg) (s : Sys) (a : Act) : Option Sys :=
  if s.failed ≠ none then none
  else match a with
    | .thread t inp =>
      match s.stack t with
      | [] => none
      | f :: rest =>
        match exec cfg t inp s f with
        | .disabled => none
        | .fail a => some { s with failed := some a }
        | .ok s' gs => some (s'.push t (gs ++ rest))
    | .destroy c =>
      if s.alive c ∧ s.referenced cfg c = false then
        some ({ s with alive := Function.update s.alive c false }.closeFd c.fd)
      else none
    | .openFd n => if s.fds n = none then some (s.openFd n .other) else none
    | .closeFd n => if s.fds n = some .other then some (s.closeFd n) else none

/-- Every thread is in user code; a loop's thread enters `Loop` when it returns. -/
def Sys.init (cfg : Cfg) : Sys where
  conns := fun _ => {}
  pollers := fun _ => .init
  queue := fun _ => []
  enqueued := fun _ => []
  executed := fun _ => []
  polled := fun _ => []
  active := fun _ => []
  current := fun _ => none
  stack
    | .loop l => if l ∈ cfg.loops then [.user none, .loopPoll l] else []
    | .user u => if u ∈ cfg.users then [.user none] else []
  connections := fun _ => none
  started := false
  initialized := []
  clients := fun _ => {}
  fds n :=
    if n = cfg.idleFd then some .idle
    else if n = cfg.listenFd then some .listen
    else if n ∈ cfg.otherFds then some .other
    else none
  held := fun _ => false
  alive := fun _ => false
  nextSerial := 0
  failed := none

end Liang.Net
