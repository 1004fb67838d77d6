import NetworkPoller.Net.State

/-!
# `TcpConnection`

The handlers, the functions bound for the loop's queue and the public calls. `t` is the thread
that runs the function. A call of user code is a `Frame.user`; what the function does after it is
left as a frame of its own.
-/

namespace Liang.Net.TcpConnection

open Base

variable (cfg : Cfg) (t : Tid) (c : ConnId)

/-- `conn_status_cb_(shared_from_this())` if it is set. -/
def statusFrames (s : Sys) : List Frame := if (s.conns c).statusCb then [.user (some c)] else []

def noteStatus (s : Sys) : Sys := s.note c (if (s.conns c).statusCb then [.statusCb] else [])

def setState (st : ConnState) (s : Sys) : Sys := s.updConn c fun x => { x with state := st }

def connectEstablished (s : Sys) : Res :=
  .assert (t = .loop c.loop) .inLoopThread <|
  let s := (setState c .connected s).note c [.established]
  .bind (s.channelOp t c.loop fun p => p.enableReading (ChanId.fd cfg) (.conn c)) fun s =>
  .ok (noteStatus c s) (statusFrames c s)

/-- The end of `ConnectDestoryed`. -/
def connectDestoryedRest (s : Sys) : Res :=
  .bind (s.removeFromLoop cfg t (.conn c)) fun s => .ok (s.note c [.destroyed]) []

def connectDestoryed (s : Sys) : Res :=
  .assert (t = .loop c.loop) .inLoopThread <|
  if (s.conns c).state = .connected then
    let s := setState c .disconnected s
    .bind (s.channelOp t c.loop fun p => p.disableAll (ChanId.fd cfg) (.conn c)) fun s =>
    .ok (noteStatus c s) (statusFrames c s ++ [.destoryedRest c])
  else connectDestoryedRest cfg t c s

def closeHandler (s : Sys) : Res :=
  .assert (t = .loop c.loop) .inLoopThread <|
  let s := (setState c .disconnected s).note c [.closeHandler]
  .bind (s.channelOp t c.loop fun p => p.disableAll (ChanId.fd cfg) (.conn c)) fun s =>
  .ok (noteStatus c s) (statusFrames c s ++ [.closeCb c])

/-- What `readv` can return on the iovecs `ReadFromFD` gives it. -/
def canRead (b : Buffer) : ReadRes → Bool
  | .error _ => true
  | .data d => decide (d.length ≤ b.iovTotal ∧ d.length < 2 ^ 31)

/-- One round of the loop of `ReadHandler`; `r` is what `readv` does. -/
def readHandler (r : ReadRes) (s : Sys) : Res :=
  .assert (t = .loop c.loop) .inLoopThread <|
  if canRead (s.conns c).readBuffer r then
    let res := (s.conns c).readBuffer.readFromFD r
    let s := s.updConn c fun x => { x with readBuffer := res.1 }
    if 0 < res.2.1 then
      if (s.conns c).msgCb then .ok (s.note c [.msgCb]) [.user (some c), .readHandler c]
      else closeHandler cfg t c s
    else if 0 = res.2.1 then closeHandler cfg t c s
    else if res.2.2 = some eAgain then .ok s []
    else .ok s [.errorHandler c]
  else .disabled

def shutdownInLoop (s : Sys) : Res :=
  .assert (t = .loop c.loop) .inLoopThread <|
  if (s.chan c).isWriting then .ok s []
  else .ok (s.updConn c fun x => { x with shutWr := x.shutWr ++ [⟨x.state, x.out, x.entered⟩] }) []

/-- `WriteHandler` up to `written_cb_`, which `RunInLoop` runs at once. -/
def writeHandler (inp : Input) (s : Sys) : Res :=
  .assert (t = .loop c.loop) .inLoopThread <|
  if (s.chan c).isWriting then
    match inp with
    | .write (.accepted n) =>
      if n ≤ (s.conns c).writeBuffer.readable.length then
        if 0 < n then
          let s := s.updConn c fun x =>
            { x with
              out := x.out ++ x.writeBuffer.readable.take n
              writeBuffer := x.writeBuffer.clearReadIndex n }
          if (s.conns c).writeBuffer.isEmpty then
            .bind (s.channelOp t c.loop fun p => p.disableWriting (ChanId.fd cfg) (.conn c)) fun s =>
            .ok s ((if (s.conns c).writtenCb then [.user (some c)] else []) ++ [.writeHandlerRest c])
          else .ok s []
        else .ok s []
      else .disabled
    | .write (.error _) => .ok s []
    | _ => .disabled
  else .ok s []

def writeHandlerRest (s : Sys) : Res :=
  if (s.conns c).state = .disconnecting then shutdownInLoop t c s else .ok s []

def forceCloseInLoop (s : Sys) : Res :=
  .assert (t = .loop c.loop) .inLoopThread <|
  if (s.conns c).state = .connected ∨ (s.conns c).state = .disconnecting then
    closeHandler cfg t c s
  else .ok s []

/-- The static `highWaterMark_` of `SendInLoop`. -/
def highWaterMark : Nat := 6 * 1024 * 1024

/-- `write_buffer_.Append` of `rest`. -/
def append (rest : Msg) (x : Conn) : Conn :=
  { x with
    writeBuffer := x.writeBuffer.append rest
    wrapped := x.wrapped || decide (u32Size ≤ x.writeBuffer.writeIndex + rest.length) }

/-- The end of `SendInLoop`: keep what the kernel has not taken. -/
def sendRemaining (rest : Msg) (s : Sys) : Res :=
  if 0 < rest.length then
    let x := s.conns c
    let s :=
      if highWaterMark < x.writeBuffer.readableBytes + rest.length ∧ x.highWaterCb then
        s.queueInLoop t c.loop (.highWaterCb c x.highWater)
      else s
    let s := s.updConn c (append rest)
    if (s.chan c).isWriting then .ok s []
    else
      .bind (s.channelOp t c.loop fun p => p.enableWriting (ChanId.fd cfg) (.conn c)) fun s =>
      .ok s []
  else .ok s []

/-- `SendInLoop` for a message that `sender` gave to `Send`. -/
def sendInLoop (sender : Tid) (msg : Msg) (inp : Input) (s : Sys) : Res :=
  .assert (t = .loop c.loop) .inLoopThread <|
  let s := s.updConn c fun x => { x with entered := x.entered ++ [(sender, msg)] }
  if (s.conns c).state = .disconnected then .ok s []
  else if (s.chan c).isWriting = false ∧ (s.conns c).writeBuffer.readableBytes = 0 then
    match inp with
    | .write (.accepted n) =>
      if n ≤ msg.length then
        let s := s.updConn c fun x => { x with out := x.out ++ msg.take n }
        let s :=
          if n = msg.length ∧ (s.conns c).writtenCb then s.queueInLoop t c.loop (.writtenCb c)
          else s
        sendRemaining cfg t c (msg.drop n) s
      else .disabled
    | .write (.error e) =>
      if (e ≠ eWouldBlock ∨ e ≠ eAgain) ∧ (e = ePipe ∨ e = eConnReset) then closeHandler cfg t c s
      else sendRemaining cfg t c msg s
    | _ => .disabled
  else sendRemaining cfg t c msg s

def startReadInLoop (s : Sys) : Res :=
  .assert (t = .loop c.loop) .inLoopThread <|
  if (s.chan c).isReading then .ok s []
  else
    .bind (s.channelOp t c.loop fun p => p.enableReading (ChanId.fd cfg) (.conn c)) fun s => .ok s []

def stopReadInLoop (s : Sys) : Res :=
  .assert (t = .loop c.loop) .inLoopThread <|
  if (s.chan c).isReading then
    .bind (s.channelOp t c.loop fun p => p.disableReading (ChanId.fd cfg) (.conn c)) fun s => .ok s []
  else .ok s []

/-- `Send`; the message is run or queued at once. -/
def send (msg : Msg) (inp : Input) (s : Sys) : Res :=
  let s := s.updConn c fun x => { x with sent := x.sent ++ [(t, msg)] }
  if t = .loop c.loop then sendInLoop cfg t c t msg inp s
  else .ok (s.queueInLoop t c.loop (.sendInLoop c t msg)) []

/-- `Shutdown`: the exchange of `state_`, which may fail spuriously; its functor is queued by a
later step. -/
def shutdown (inp : Input) (s : Sys) : Res :=
  match inp with
  | .cas spurious =>
    if spurious = false ∧ (s.conns c).state = .connected then
      .ok (s.updConn c fun x =>
        { x with
          state := .disconnecting
          closer := some (t, (x.sent.filter (·.1 = t)).length) })
        [.queueInLoop c.loop (.shutdownInLoop c)]
    else .ok s []
  | _ => .disabled

/-- The second exchange of `ForceClose`, from `DISCONNECTING` to itself. -/
def forceCloseAgain (inp : Input) (s : Sys) : Res :=
  match inp with
  | .cas spurious =>
    if spurious = false ∧ (s.conns c).state = .disconnecting then
      .ok s [.queueInLoop c.loop (.forceCloseInLoop c)]
    else .ok s []
  | _ => .disabled

def forceClose (inp : Input) (s : Sys) : Res :=
  match inp with
  | .cas spurious =>
    if spurious = false ∧ (s.conns c).state = .connected then
      .ok (setState c .disconnecting s)
        [.queueInLoop c.loop (.forceCloseInLoop c), .forceCloseAgain c]
    else .ok s [.forceCloseAgain c]
  | _ => .disabled

end Liang.Net.TcpConnection
