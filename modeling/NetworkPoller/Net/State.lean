import NetworkPoller.Base.Buffer
import NetworkPoller.Event.EpollPoller

/-!
# The state of a server with its clients

Any number of loops with their threads, one `TcpServer`, any number of `TcpClient`s, their
connections and the user's threads. Every thread has a stack of `Frame`s, the functions it still
has to run or to finish; a step runs the top frame of one thread. A frame runs until the next
point where another thread can interfere (an atomic read or write of `state_`, a queue operation)
or where user code is called, and leaves the rest of its function as frames.

* A connection object is its identity with the members fixed at construction (`ConnId`); what
  changes is in `Conn`, its channel in the poller of its loop.
* `queue l` is `queue_task_funcs_` of loop `l`, an atomic FIFO; `active l` the part of the loop's
  active list that is not dispatched yet.
* Fields named as histories record what has happened and are read by no function.
-/

namespace Liang.Net

open Base

abbrev LoopId := Nat
abbrev ClientId := Nat
abbrev Fd := Nat
abbrev Msg := List UInt8

def eAgain : Nat := 11
def eWouldBlock : Nat := eAgain
def eIntr : Nat := 4
def eBadf : Nat := 9
def eNfile : Nat := 23
def ePipe : Nat := 32
def eConnReset : Nat := 104
def eIsConn : Nat := 106
def eConnRefused : Nat := 111
def eInProgress : Nat := 115

/-- A thread: the one that owns a loop, or another of the program's. -/
inductive Tid
  | loop (l : LoopId)
  | user (u : Nat)
  deriving DecidableEq, Repr

/-- Whose `RemoveConnection` a connection's `close_cb_` is bound to. -/
inductive Owner
  | server
  | client (k : ClientId)
  deriving DecidableEq, Repr

/-- A `TcpConnection` object with `fd_`, `loop_` and the target of `close_cb_`. -/
structure ConnId where
  serial : Nat
  fd : Fd
  loop : LoopId
  owner : Owner
  deriving DecidableEq, Repr

/-- An `EventChannel` object: the acceptor's, a connection's, or the one of an attempt of a
connector. -/
inductive ChanId
  | acceptor
  | conn (c : ConnId)
  | connector (k : ClientId) (attempt : Nat) (fd : Fd)
  deriving DecidableEq, Repr

inductive ConnState
  | connecting
  | connected
  | disconnecting
  | disconnected
  deriving DecidableEq, Repr

/-- What is recorded of a connection: its handlers, the callbacks it invoked, and the two steps of
its removal. -/
inductive ConnEv
  | established
  | msgCb
  | statusCb
  | closeHandler
  | closeCb
  | destroyQueued
  | destroyed
  deriving DecidableEq, Repr

/-- A call of `ShutdownWrite`: the state, the bytes the kernel had accepted and the messages
`SendInLoop` had been entered for by then. -/
structure ShutWr where
  state : ConnState
  out : List UInt8
  entered : List (Tid × Msg)
  deriving DecidableEq, Repr

structure Conn where
  state : ConnState := .connecting
  readBuffer : Buffer := .new Buffer.initSize
  writeBuffer : Buffer := .new Buffer.initSize
  highWater : Nat := 6 * 1024 * 1024
  /-- which callbacks are set; `close_cb_` always is -/
  msgCb : Bool := false
  writtenCb : Bool := false
  highWaterCb : Bool := false
  statusCb : Bool := false
  /-- history: the bytes `::write` has accepted -/
  out : List UInt8 := []
  /-- history: the calls of `Send`, in order, with the calling thread -/
  sent : List (Tid × Msg) := []
  /-- history: the entries of `SendInLoop`, with the thread that called `Send` -/
  entered : List (Tid × Msg) := []
  /-- history: an `Append` has carried `write_index_` to `2 ^ 32` -/
  wrapped : Bool := false
  /-- history: the thread whose `Shutdown` moved the state, and how many `Send`s it had made -/
  closer : Option (Tid × Nat) := none
  /-- history: the calls of `ShutdownWrite` -/
  shutWr : List ShutWr := []
  /-- history -/
  trace : List ConnEv := []

inductive ConnectorState
  | disconnected
  | connecting
  | connected
  deriving DecidableEq, Repr

/-- How far a connector is: a thread is in its `Start`, `StartInLoop` is queued, a socket is
polled, its outcome is looked at, or there is nothing more to come. -/
inductive Phase
  | idle
  | called (t : Tid)
  | queued
  | polling (attempt : Nat) (fd : Fd)
  | judging (fd : Fd)
  | ended
  deriving DecidableEq, Repr

/-- A `TcpClient` with its `TcpConnector`; `channel` is `channel_`, by attempt and descriptor. -/
structure Client where
  state : ConnectorState := .disconnected
  attempts : Nat := 0
  channel : Option (Nat × Fd) := none
  connection : Option ConnId := none
  /-- history -/
  phase : Phase := .idle

/-- A functor bound for a loop's queue. -/
inductive Task
  | connectEstablished (c : ConnId)
  | connectDestoryed (c : ConnId)
  | sendInLoop (c : ConnId) (sender : Tid) (msg : Msg)
  | startReadInLoop (c : ConnId)
  | stopReadInLoop (c : ConnId)
  | shutdownInLoop (c : ConnId)
  | forceCloseInLoop (c : ConnId)
  | writtenCb (c : ConnId)
  | highWaterCb (c : ConnId) (mark : Nat)
  | removeConnectionInLoop (c : ConnId)
  | listen
  | connectorStart (k : ClientId)
  | connectorReset (k : ClientId)
  | connectorStop (k : ClientId)
  /-- a functor of the user's -/
  | functor
  deriving DecidableEq, Repr

/-- The connection a functor holds a `shared_ptr` to. -/
def Task.conn? : Task → Option ConnId
  | connectEstablished c | connectDestoryed c | sendInLoop c _ _ | startReadInLoop c
  | stopReadInLoop c | shutdownInLoop c | forceCloseInLoop c | writtenCb c | highWaterCb c _
  | removeConnectionInLoop c => some c
  | listen | connectorStart _ | connectorReset _ | connectorStop _ | functor => none

/-- The callbacks and the mark set by `SetMessagCB`, `SetWriteCompleteCB`, `SetHighWaterCB` and
`SetConnStatusCB` on a connection. -/
structure Callbacks where
  msg : Bool
  written : Bool
  highWater : Option Nat
  status : Bool
  deriving DecidableEq, Repr

/-- What user code can call. `buffer` and `swapBuffer` are the calls on the `Buffer &` a message
callback is given, the second its `Swap` with a buffer of the user's. `retain` and `release` stand for
keeping a copy of the `shared_ptr` a callback is given, and for dropping the user's last copy. -/
inductive Api
  | send (c : ConnId) (msg : Msg)
  | startRead (c : ConnId)
  | stopRead (c : ConnId)
  | shutdown (c : ConnId)
  | forceClose (c : ConnId)
  | setCallbacks (c : ConnId) (cbs : Callbacks)
  | buffer (c : ConnId) (op : BufOp)
  | swapBuffer (c : ConnId) (rhs : Buffer)
  | retain (c : ConnId)
  | release (c : ConnId)
  | start
  | connect (k : ClientId)
  | disconnect (k : ClientId)
  | stop (k : ClientId)
  | runInLoop (l : LoopId)
  | queueInLoop (l : LoopId)
  deriving DecidableEq, Repr

/-- The connection a call is made on. -/
def Api.conn? : Api → Option ConnId
  | send c _ | startRead c | stopRead c | shutdown c | forceClose c | setCallbacks c _
  | buffer c _ | swapBuffer c _ | retain c | release c => some c
  | start | connect _ | disconnect _ | stop _ | runInLoop _ | queueInLoop _ => none

/-- A function a thread has to run, or the rest of one. -/
inductive Frame
  /-- `EventLoop::Loop`, before `Poll`, before the next channel, and before `RunTaskFuncs` -/
  | loopPoll (l : LoopId)
  | loopDispatch (l : LoopId)
  | loopTasks (l : LoopId)
  /-- `RunTaskFuncs` after the call, still holding the functor -/
  | taskDone (k : Task)
  /-- user code; a callback holds the `shared_ptr` it was given -/
  | user (c? : Option ConnId)
  | api (a : Api)
  /-- `ForceClose` before its second exchange -/
  | forceCloseAgain (c : ConnId)
  /-- `TcpServer::Start` after its exchange -/
  | startPool
  | queueInLoop (l : LoopId) (k : Task)
  | runInLoop (l : LoopId) (k : Task)
  | handleEvent (i : ChanId)
  | closeHandler (c : ConnId)
  | errorHandler (c : ConnId)
  | readHandler (c : ConnId)
  | writeHandler (c : ConnId)
  /-- `WriteHandler` after `written_cb_` -/
  | writeHandlerRest (c : ConnId)
  /-- `CloseHandler` after `conn_status_cb_` -/
  | closeCb (c : ConnId)
  /-- `ConnectDestoryed` after `conn_status_cb_` -/
  | destoryedRest (c : ConnId)
  | acceptHandle
  /-- the steps of `AcceptHandle` after a failed accept -/
  | closeIdle
  | reAccept
  | reOpen
  /-- `TcpConnector::Start` after its exchange -/
  | connectorRun (k : ClientId)
  | writeEventHandler (k : ClientId)
  /-- `WriteEventHandler` after `RemoveChannel` -/
  | writeEventRest (k : ClientId) (fd : Fd)
  deriving DecidableEq, Repr

/-- The connection a frame keeps alive. Handlers run on a raw `this`. -/
def Frame.conn? : Frame → Option ConnId
  | user c? => c?
  | api a => a.conn?
  | taskDone k | queueInLoop _ k | runInLoop _ k => k.conn?
  | forceCloseAgain c | closeCb c => some c
  | _ => none

/-- What a number of the process's descriptor table is open as. -/
inductive FdUse
  | conn (c : ConnId)
  | connector (k : ClientId)
  /-- the acceptor's socket, and `idle_fd_` as it was opened -/
  | listen
  | idle
  /-- what `AcceptHandle` opened and forgot -/
  | leaked
  | other
  deriving DecidableEq, Repr

/-- The asserts, and the null dereference of `channel_`. -/
inductive Assert
  /-- `assert(loop->IsInLoopThread())` -/
  | inLoopThread
  /-- `assert(IsOwnerThread(*this))` in `Poller`, and the same check of `EventLoop` -/
  | ownerThread
  | poller (a : PollerAssert)
  /-- `evt_channel == evt_channel_active_ || find(...) == end` in `RemoveEventChannel` -/
  | notActive
  /-- `kConnecting == state_` -/
  | connecting
  /-- `loop_ == conn->Loop()` -/
  | sameLoop
  | nullChannel
  deriving DecidableEq, Repr

/-- What is fixed in a run. -/
structure Cfg where
  serverLoop : LoopId
  /-- `loop_list_` of the server's thread pool -/
  workers : List LoopId
  clientLoop : ClientId → LoopId
  loops : List LoopId
  /-- the program's threads that own no loop -/
  users : List Nat
  listenFd : Fd
  idleFd : Fd
  /-- other descriptors open at the start -/
  otherFds : List Fd
  /-- the callbacks set on the server and on the clients -/
  msgCb : Bool
  wroteCb : Bool
  statusCb : Bool
  clientMsgCb : ClientId → Bool
  clientWroteCb : ClientId → Bool
  clientStatusCb : ClientId → Bool
  server_mem : serverLoop ∈ loops
  workers_mem : ∀ l ∈ workers, l ∈ loops
  client_mem : ∀ k, clientLoop k ∈ loops
  workers_ne : serverLoop ∉ workers

def Cfg.threads (cfg : Cfg) : List Tid := cfg.loops.map .loop ++ cfg.users.map .user

/-- The descriptor of a channel. -/
def ChanId.fd (cfg : Cfg) : ChanId → Fd
  | acceptor => cfg.listenFd
  | conn c => c.fd
  | connector _ _ fd => fd

/-- The loop of a channel. -/
def ChanId.loop (cfg : Cfg) : ChanId → LoopId
  | acceptor => cfg.serverLoop
  | conn c => c.loop
  | connector k _ _ => cfg.clientLoop k

structure Sys where
  conns : ConnId → Conn
  pollers : LoopId → EpollPoller ChanId
  queue : LoopId → List Task
  /-- history: the functors queued and run, with the thread that did it -/
  enqueued : LoopId → List (Tid × Task)
  executed : LoopId → List (Tid × Task)
  /-- the active list of the loop's current round, its part not yet dispatched, and
  `evt_channel_active_` -/
  polled : LoopId → List ChanId
  active : LoopId → List ChanId
  current : LoopId → Option ChanId
  stack : Tid → List Frame
  /-- `connections_` -/
  connections : Fd → Option ConnId
  started : Bool
  /-- history: the threads that have called `thread_pool_->Initialize()` -/
  initialized : List Tid
  clients : ClientId → Client
  fds : Fd → Option FdUse
  /-- user code outside a callback holds a reference -/
  held : ConnId → Bool
  /-- constructed and not yet destroyed -/
  alive : ConnId → Bool
  nextSerial : Nat
  failed : Option Assert

namespace Sys

variable (s : Sys)

def updConn (c : ConnId) (f : Conn → Conn) : Sys :=
  { s with conns := Function.update s.conns c (f (s.conns c)) }

def note (c : ConnId) (es : List ConnEv) : Sys :=
  s.updConn c fun x => { x with trace := x.trace ++ es }

def updClient (k : ClientId) (f : Client → Client) : Sys :=
  { s with clients := Function.update s.clients k (f (s.clients k)) }

/-- `QueueInLoop` called by thread `t`. -/
def queueInLoop (t : Tid) (l : LoopId) (k : Task) : Sys :=
  { s with
    queue := Function.update s.queue l (s.queue l ++ [k])
    enqueued := Function.update s.enqueued l (s.enqueued l ++ [(t, k)]) }

/-- The channel of a connection. -/
def chan (c : ConnId) : EventChannel := (s.pollers c.loop).chan (.conn c)

/-- `close(n)`: the number is free, and no interest set holds it. -/
def closeFd (n : Fd) : Sys :=
  { s with
    fds := Function.update s.fds n none
    pollers := fun l => (s.pollers l).dropFd n }

def openFd (n : Fd) (u : FdUse) : Sys := { s with fds := Function.update s.fds n (some u) }

def setPoller (l : LoopId) (p : EpollPoller ChanId) : Sys :=
  { s with pollers := Function.update s.pollers l p }

/-- An operation of a channel on its loop `l`, run by thread `t`; the poller checks the thread. -/
def channelOp (t : Tid) (l : LoopId)
    (op : EpollPoller ChanId → Except PollerAssert (EpollPoller ChanId)) : Except Assert Sys :=
  if t ≠ .loop l then .error .ownerThread
  else match op (s.pollers l) with
    | .ok p => .ok (s.setPoller l p)
    | .error a => .error (.poller a)

/-- `EventChannel::RemoveFromLoop` through `EventLoop::RemoveEventChannel`. -/
def removeFromLoop (cfg : Cfg) (t : Tid) (i : ChanId) : Except Assert Sys :=
  if t ≠ .loop (i.loop cfg) then .error .ownerThread
  else if s.current (i.loop cfg) ≠ none ∧ s.current (i.loop cfg) ≠ some i ∧
      i ∈ s.polled (i.loop cfg) then .error .notActive
  else s.channelOp t (i.loop cfg) fun p => p.removeFromLoop (ChanId.fd cfg) i

variable {s}

@[simp] theorem updConn_self (c : ConnId) (f : Conn → Conn) :
    (s.updConn c f).conns c = f (s.conns c) := Function.update_self ..

theorem updConn_of_ne {c c' : ConnId} (f : Conn → Conn) (h : c' ≠ c) :
    (s.updConn c f).conns c' = s.conns c' := Function.update_of_ne h ..

@[simp] theorem updClient_self (k : ClientId) (f : Client → Client) :
    (s.updClient k f).clients k = f (s.clients k) := Function.update_self ..

theorem updClient_of_ne {k k' : ClientId} (f : Client → Client) (h : k' ≠ k) :
    (s.updClient k f).clients k' = s.clients k' := Function.update_of_ne h ..

@[simp] theorem queueInLoop_self (t : Tid) (l : LoopId) (k : Task) :
    (s.queueInLoop t l k).queue l = s.queue l ++ [k] := Function.update_self ..

theorem queueInLoop_of_ne (t : Tid) {l l' : LoopId} (k : Task) (h : l' ≠ l) :
    (s.queueInLoop t l k).queue l' = s.queue l' := Function.update_of_ne h ..

@[simp] theorem setPoller_self (l : LoopId) (p : EpollPoller ChanId) :
    (s.setPoller l p).pollers l = p := Function.update_self ..

theorem setPoller_of_ne {l l' : LoopId} (p : EpollPoller ChanId) (h : l' ≠ l) :
    (s.setPoller l p).pollers l' = s.pollers l' := Function.update_of_ne h ..

end Sys

/-- What running a frame gives: it waits for another input, an assert fails, or a new state with
the frames that take its place. -/
inductive Res
  | disabled
  | fail (a : Assert)
  | ok (s : Sys) (gs : List Frame)

namespace Res

def assert (p : Prop) [Decidable p] (a : Assert) (r : Res) : Res := if p then r else .fail a

def bind (e : Except Assert Sys) (k : Sys → Res) : Res :=
  match e with
  | .ok s => k s
  | .error a => .fail a

/-- The frames of `r`, then `hs`. -/
def followedBy (r : Res) (hs : List Frame) : Res :=
  match r with
  | .ok s gs => .ok s (gs ++ hs)
  | r => r

end Res

/-- What `::write` does: accept this many bytes, or fail. -/
inductive WriteRes
  | accepted (n : Nat)
  | error (errno : Nat)
  deriving DecidableEq, Repr

/-- What the environment decides in a step: results of system calls, whether a
`compare_exchange_weak` fails spuriously, and what user code does next. -/
inductive Input
  | none
  | poll (evs : List (Fd × Mask))
  | read (r : ReadRes)
  | write (r : WriteRes)
  /-- a new descriptor, or an `errno` -/
  | fd (r : Except Nat Fd)
  /-- the socket (`none` for -1), how `connect` failed if it did, and the `errno` left before it -/
  | connect (sock : Option Fd) (err : Option Nat) (stale : Nat)
  | soError (e : Nat)
  | cas (spurious : Bool)
  | call (a : Api)
  | ret

end Liang.Net
