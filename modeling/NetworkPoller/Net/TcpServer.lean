import NetworkPoller.Net.State

/-!
# `TcpServer` and `TcpAcceptor`
-/

namespace Liang.Net

/-- The functions given to the setters of the server. -/
inductive ServerCb
  | message
  | writeComplete
  | connection
  | connStatus
  deriving DecidableEq, Repr

/-- The callback members of a connection that user code can be called through, with what they hold. -/
structure TcpConnection.Slots where
  msgCb : Option ServerCb := none
  writtenCb : Option ServerCb := none
  highWaterCb : Option ServerCb := none
  connStatusCb : Option ServerCb := none
  deriving DecidableEq, Repr

namespace TcpConnection.Slots

def setMessagCB (cb : Option ServerCb) (x : Slots) : Slots := { x with msgCb := cb }

def setWriteCompleteCB (cb : Option ServerCb) (x : Slots) : Slots := { x with writtenCb := cb }

def setConnStatusCB (cb : Option ServerCb) (x : Slots) : Slots := { x with connStatusCb := cb }

end TcpConnection.Slots

/-- The callback members of the server; `high_water_cb_` has no setter. -/
structure TcpServer.Slots where
  msgCb : Option ServerCb := none
  wroteCb : Option ServerCb := none
  connectionCb : Option ServerCb := none
  highWaterCb : Option ServerCb := none
  connStatusCb : Option ServerCb := none
  deriving DecidableEq, Repr

namespace TcpServer.Slots

def setMessageCB (cb : ServerCb) (x : Slots) : Slots := { x with msgCb := some cb }

def setWriteCompleteCB (cb : ServerCb) (x : Slots) : Slots := { x with wroteCb := some cb }

def setConnectionCB (cb : ServerCb) (x : Slots) : Slots := { x with connectionCb := some cb }

def setConnStatusCB (cb : ServerCb) (x : Slots) : Slots := { x with connStatusCb := some cb }

/-- The setters that are called before `Start`. -/
def register (reg : ServerCb → Bool) : Slots :=
  let x : Slots := {}
  let x := if reg .message then x.setMessageCB .message else x
  let x := if reg .writeComplete then x.setWriteCompleteCB .writeComplete else x
  let x := if reg .connection then x.setConnectionCB .connection else x
  if reg .connStatus then x.setConnStatusCB .connStatus else x

/-- What `NewConnected` sets on a connection. -/
def newConnected (x : Slots) : TcpConnection.Slots :=
  let conn : TcpConnection.Slots := {}
  let conn := conn.setWriteCompleteCB x.wroteCb
  let conn := conn.setConnStatusCB x.connStatusCb
  let conn := conn.setMessagCB x.msgCb
  let conn := conn.setWriteCompleteCB x.wroteCb
  conn.setWriteCompleteCB x.highWaterCb

end TcpServer.Slots

namespace TcpServer

variable (cfg : Cfg) (t : Tid)

/-- `EventLoopThreadPool::GetEventLoopFromPoolForHash` of the server's pool. -/
def getEventLoopFromPoolForHash (hashCode : Nat) : LoopId :=
  if cfg.workers.length = 0 then cfg.serverLoop
  else cfg.workers.getD (hashCode % cfg.workers.length) cfg.serverLoop

/-- `high_water_cb_` of the server has no setter: it is always empty. -/
def highWaterCb : Bool := false

/-- The connection `NewConnected` makes. Its write-complete callback is set three times, the last
time to `high_water_cb_`. -/
def newConn : Conn :=
  let x : Conn := {}
  let x := { x with writtenCb := cfg.wroteCb }
  let x := { x with statusCb := cfg.statusCb }
  let x := { x with msgCb := cfg.msgCb }
  let x := { x with writtenCb := cfg.wroteCb }
  { x with writtenCb := highWaterCb }

def newConnected (fd : Fd) (s : Sys) : Res :=
  .assert (t = .loop cfg.serverLoop) .inLoopThread <|
  let c : ConnId := ⟨s.nextSerial, fd, getEventLoopFromPoolForHash cfg fd, .server⟩
  let s :=
    { s with
      nextSerial := s.nextSerial + 1
      alive := Function.update s.alive c true
      conns := Function.update s.conns c (newConn cfg)
      connections := Function.update s.connections fd (some c)
      fds := Function.update s.fds fd (some (.conn c)) }
  .ok (s.queueInLoop t c.loop (.connectEstablished c)) []

def removeConnectionInLoop (c : ConnId) (s : Sys) : Res :=
  .assert (t = .loop cfg.serverLoop) .inLoopThread <|
  let s := { s with connections := Function.update s.connections c.fd none }
  .ok ((s.note c [.destroyQueued]).queueInLoop t c.loop (.connectDestoryed c)) []

def removeConnection (c : ConnId) (s : Sys) : Res :=
  if t = .loop cfg.serverLoop then removeConnectionInLoop cfg t c s
  else .ok (s.queueInLoop t cfg.serverLoop (.removeConnectionInLoop c)) []

/-- `Start` up to its exchange of `started_`. -/
def start (inp : Input) (s : Sys) : Res :=
  match inp with
  | .cas spurious =>
    if spurious = false ∧ s.started = false then .ok { s with started := true } [.startPool]
    else .ok s []
  | _ => .disabled

/-- `Start` after it: `thread_pool_->Initialize()`, then `QueueInLoop` of `Listen`. The worker loops
are there from the beginning and idle until then. -/
def startPool (s : Sys) : Res :=
  .ok (Sys.queueInLoop { s with initialized := s.initialized ++ [t] } t cfg.serverLoop .listen) []

end TcpServer

namespace TcpAcceptor

variable (cfg : Cfg) (t : Tid)

def listen (s : Sys) : Res :=
  .assert (t = .loop cfg.serverLoop) .inLoopThread <|
  .bind (s.channelOp t cfg.serverLoop fun p => p.enableReading (ChanId.fd cfg) .acceptor) fun s =>
  .ok s []

/-- One round of the loop of `AcceptHandle`, with the `new_conn_cb_` of the server. The test of
`origin_errno` is always true. -/
def acceptHandle (inp : Input) (s : Sys) : Res :=
  .assert (t = .loop cfg.serverLoop) .inLoopThread <|
  match inp with
  | .fd (.ok n) =>
    if s.fds n = none then (TcpServer.newConnected cfg t n s).followedBy [.acceptHandle]
    else .disabled
  | .fd (.error e) =>
    if e = eAgain ∨ e = eWouldBlock then .ok s []
    else .ok s [.closeIdle, .reAccept, .closeIdle, .reOpen, .acceptHandle]
  | _ => .disabled

/-- `::close(idle_fd_)`, whatever is open under that number. -/
def closeIdle (s : Sys) : Res := .ok (s.closeFd cfg.idleFd) []

/-- A system call whose result, a new descriptor or an error, is dropped: `::accept` and `::open`
after a failed accept. -/
def dropNewFd (inp : Input) (s : Sys) : Res :=
  match inp with
  | .fd (.ok n) => if s.fds n = none then .ok (s.openFd n .leaked) [] else .disabled
  | .fd (.error _) => .ok s []
  | _ => .disabled

end TcpAcceptor

end Liang.Net
