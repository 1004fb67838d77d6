import NetworkPoller.Net.State

/-!
# `TcpAcceptor` and the process's descriptors

`core/net/tcp/tcp_acceptor.cpp` on its own: `AcceptHandle`, called any number of times, and the
destructor, one system call at a time, with `new_conn_cb_` set or not. The rest of the process opens
and closes descriptors of its own at any time; a system call returns any number that is not open.
`Holder` says for whom a number is open, `closed` what the acceptor has closed. The destructor's work
on the channel is left out here, as is what the server's callback does (`TcpServer.newConnected`).
-/

namespace Liang.Net

def eMfile : Nat := 24
def eConnAborted : Nat := 103

/-- What an open descriptor is. -/
inductive Holder
  /-- `socket_` -/
  | listen
  /-- `/dev/null`, opened by the acceptor -/
  | reserve
  /-- the `k`-th connection accepted -/
  | accepted (k : Nat)
  /-- the same, after `new_conn_cb_` has been called with it -/
  | handed (k : Nat)
  | other
  deriving DecidableEq, Repr

/-- Where the acceptor is. -/
inductive AcceptPc
  /-- in no function -/
  | idle
  /-- `socket_.Accept` -/
  | accept
  /-- it has returned `n` -/
  | accepted (k : Nat) (n : Fd)
  -- the four calls after another error
  | closeIdle
  | reAccept
  | closeIdleAgain
  | reOpen
  -- the destructor, and that of `socket_`
  | dtorIdle
  | dtorSocket
  | gone
  deriving DecidableEq, Repr

structure Acceptor where
  listenFd : Fd
  /-- assigned in the constructor only -/
  idleFd : Fd
  /-- `new_conn_cb_` is set -/
  newConnCb : Bool
  pc : AcceptPc
  fds : Fd → Option Holder
  /-- how many connections have been accepted -/
  accepts : Nat
  /-- history: the connections `new_conn_cb_` was called with -/
  handed : List Nat
  /-- history: the numbers the acceptor has closed, and what they were -/
  closed : List (Fd × Option Holder)

inductive AcceptorAct
  /-- `AcceptHandle` is called -/
  | handle
  /-- `accept` returns a descriptor or an `errno` -/
  | accept (r : Except Nat Fd)
  /-- `open` of `/dev/null` -/
  | openNull (r : Except Nat Fd)
  /-- the callback, or a `close` -/
  | run
  | destroy
  | setNewConnectionCB (cb : Bool)
  -- the rest of the process
  | otherOpen (n : Fd)
  | otherClose (n : Fd)

namespace Acceptor

variable (s : Acceptor)

/-- `close(n)`. -/
def close (n : Fd) (pc : AcceptPc) : Acceptor :=
  { s with
    pc := pc
    fds := Function.update s.fds n none
    closed := s.closed ++ [(n, s.fds n)] }

/-- A system call has returned the new descriptor `n`. -/
def opened (n : Fd) (h : Holder) (pc : AcceptPc) : Acceptor :=
  { s with pc := pc, fds := Function.update s.fds n (some h) }

/-- `ENFILE == origin_errno || EMFILE || origin_errno`. -/
def exhausted (originErrno : Nat) : Bool :=
  eNfile == originErrno || eMfile != 0 || originErrno != 0

/-- `socket_.Accept` of `AcceptHandle` returns. -/
def accept : Except Nat Fd → Option Acceptor
  | .ok n =>
    if s.fds n = none then
      some { s.opened n (.accepted s.accepts) (.accepted s.accepts n) with
        accepts := s.accepts + 1 }
    else none
  | .error e =>
    if eAgain = e ∨ eWouldBlock = e then some { s with pc := .idle }
    else if exhausted e then some { s with pc := .closeIdle }
    else some s

/-- `::accept` after an error; its result is dropped. -/
def reAccept : Except Nat Fd → Option Acceptor
  | .ok n =>
    if s.fds n = none then
      some { s.opened n (.accepted s.accepts) .closeIdleAgain with accepts := s.accepts + 1 }
    else none
  | .error _ => some { s with pc := .closeIdleAgain }

/-- `::open` after an error; its result is dropped. -/
def reOpen : Except Nat Fd → Option Acceptor
  | .ok n => if s.fds n = none then some (s.opened n .reserve .accept) else none
  | .error _ => some { s with pc := .accept }

/-- `new_conn_cb_`, or `Close` when it is not set. -/
def newConnection (k : Nat) (n : Fd) : Acceptor :=
  if s.newConnCb then { s.opened n (.handed k) .accept with handed := s.handed ++ [k] }
  else s.close n .accept

def step : AcceptorAct → Option Acceptor
  | .handle => if s.pc = .idle then some { s with pc := .accept } else none
  | .accept r =>
    match s.pc with
    | .accept => s.accept r
    | .reAccept => s.reAccept r
    | _ => none
  | .openNull r => if s.pc = .reOpen then s.reOpen r else none
  | .run =>
    match s.pc with
    | .accepted k n => some (s.newConnection k n)
    | .closeIdle => some (s.close s.idleFd .reAccept)
    | .closeIdleAgain => some (s.close s.idleFd .reOpen)
    | .dtorIdle => some (s.close s.idleFd .dtorSocket)
    | .dtorSocket => some (s.close s.listenFd .gone)
    | _ => none
  | .destroy => if s.pc = .idle then some { s with pc := .dtorIdle } else none
  | .setNewConnectionCB cb => some { s with newConnCb := cb }
  | .otherOpen n => if s.fds n = none then some (s.opened n .other s.pc) else none
  | .otherClose n =>
    match s.fds n with
    | some .other | some (.handed _) => some { s with fds := Function.update s.fds n none }
    | _ => none

/-- After the constructor, with the descriptors `others` open. -/
def init (listenFd idleFd : Fd) (others : Fd → Bool) (cb : Bool) : Acceptor where
  listenFd := listenFd
  idleFd := idleFd
  newConnCb := cb
  pc := .idle
  fds n :=
    if n = idleFd then some .reserve
    else if n = listenFd then some .listen
    else if others n then some .other
    else none
  accepts := 0
  handed := []
  closed := []

end Acceptor

end Liang.Net
