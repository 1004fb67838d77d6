import NetworkPoller.Net.TcpConnection

/-!
# `TcpClient` and `TcpConnector`
-/

namespace Liang.Net

namespace TcpClient

variable (cfg : Cfg) (t : Tid) (k : ClientId)

/-- The connection `NewConnection` makes. -/
def newConn : Conn :=
  { statusCb := cfg.clientStatusCb k
    msgCb := cfg.clientMsgCb k
    writtenCb := cfg.clientWroteCb k }

def newConnection (fd : Fd) (s : Sys) : Res :=
  .assert (t = .loop (cfg.clientLoop k)) .inLoopThread <|
  let c : ConnId := ⟨s.nextSerial, fd, cfg.clientLoop k, .client k⟩
  let s :=
    { s with
      nextSerial := s.nextSerial + 1
      alive := Function.update s.alive c true
      conns := Function.update s.conns c (newConn cfg k)
      fds := Function.update s.fds fd (some (.conn c)) }
  TcpConnection.connectEstablished cfg t c (s.updClient k fun x =>
    { x with connection := some c, phase := .ended })

def removeConnection (c : ConnId) (s : Sys) : Res :=
  .assert (t = .loop (cfg.clientLoop k)) .inLoopThread <|
  .assert (cfg.clientLoop k = c.loop) .sameLoop <|
  let s := s.updClient k fun x => { x with connection := none }
  .ok ((s.note c [.destroyQueued]).queueInLoop t (cfg.clientLoop k) (.connectDestoryed c)) []

/-- `Disconnect`: `connection_` is read and its state exchanged in one step. -/
def disconnect (inp : Input) (s : Sys) : Res :=
  match (s.clients k).connection with
  | some c => TcpConnection.shutdown t c inp s
  | none => .ok s []

end TcpClient

namespace TcpConnector

variable (cfg : Cfg) (t : Tid) (k : ClientId)

/-- `Start`, the whole of `TcpClient::Connect`, up to its exchange of `state_`. -/
def start (inp : Input) (s : Sys) : Res :=
  match inp with
  | .cas spurious =>
    if spurious = false ∧ (s.clients k).state = .disconnected then
      .ok (s.updClient k fun x => { x with state := .connecting, phase := .called t })
        [.connectorRun k]
    else .ok s []
  | _ => .disabled

/-- `Stop`, the whole of `TcpClient::Stop`; `state_` is read here. -/
def stop (s : Sys) : Res :=
  if (s.clients k).state = .disconnected then .ok s []
  else .ok s [.runInLoop (cfg.clientLoop k) (.connectorStop k)]

/-- `StopInLoop` has no body. -/
def stopInLoop (s : Sys) : Res := .ok s []

/-- The values of `errno` after `connect` on which `StartInLoop` goes on with the socket. -/
def goesOn (errno : Nat) : Bool :=
  errno == 0 || errno == eInProgress || errno == eIntr || errno == eIsConn

/-- `StartInLoop`. `errno` is looked at whether `connect` failed or not; on -1 it fails with
`EBADF`. -/
def startInLoop (inp : Input) (s : Sys) : Res :=
  .assert (t = .loop (cfg.clientLoop k)) .inLoopThread <|
  .assert ((s.clients k).state = .connecting) .connecting <|
  match inp with
  | .connect (some fd) err stale =>
    if s.fds fd = none then
      let s := s.openFd fd (.connector k)
      if goesOn (err.getD stale) then
        let n := (s.clients k).attempts
        let s := s.updClient k fun x =>
          { x with attempts := n + 1, channel := some (n, fd), phase := .polling n fd }
        .bind (s.channelOp t (cfg.clientLoop k) fun p =>
          p.enableWriting (ChanId.fd cfg) (.connector k n fd)) fun s => .ok s []
      else .ok ((s.closeFd fd).updClient k fun x => { x with phase := .ended }) []
    else .disabled
  | .connect none err _ =>
    if err = some eBadf then .ok (s.updClient k fun x => { x with phase := .ended }) []
    else .disabled
  | _ => .disabled

/-- `Start` after its exchange: `RunInLoop` of `StartInLoop`. -/
def startRest (inp : Input) (s : Sys) : Res :=
  if t = .loop (cfg.clientLoop k) then startInLoop cfg t k inp s
  else
    let s := s.updClient k fun x => { x with phase := .queued }
    .ok (s.queueInLoop t (cfg.clientLoop k) (.connectorStart k)) []

def resetChannelPtr (s : Sys) : Res :=
  .ok (s.updClient k fun x => { x with channel := none }) []

/-- `WriteEventHandler` up to the end of `RemoveChannel`. -/
def writeEventHandler (s : Sys) : Res :=
  .assert ((s.clients k).state = .connecting) .connecting <|
  match (s.clients k).channel with
  | none => .fail .nullChannel
  | some (n, fd) =>
    .bind (s.channelOp t (cfg.clientLoop k) fun p =>
      p.disableAll (ChanId.fd cfg) (.connector k n fd)) fun s =>
    .bind (s.removeFromLoop cfg t (.connector k n fd)) fun s =>
    let s := s.updClient k fun x => { x with phase := .judging fd }
    .ok (s.queueInLoop t (cfg.clientLoop k) (.connectorReset k)) [.writeEventRest k fd]

/-- `WriteEventHandler` after it: `SO_ERROR` decides between `RetryConn` and
`new_connection_cb_`. -/
def writeEventRest (fd : Fd) (inp : Input) (s : Sys) : Res :=
  match inp with
  | .soError e =>
    if e ≠ 0 then
      let s := (s.closeFd fd).updClient k fun x => { x with phase := .queued }
      .ok (s.queueInLoop t (cfg.clientLoop k) (.connectorStart k)) []
    else TcpClient.newConnection cfg t k fd s
  | _ => .disabled

end TcpConnector

end Liang.Net
