import NetworkPoller.Net.EventLoop

/-!
# The destructors of `TcpServer` and `TcpClient`

User code calls a destructor on the thread of the owner's loop. The members are destroyed in the
reverse order of their declarations:

* `~TcpServer` has no body: `connections_`, then `acceptor_`, then `thread_pool_`, which makes the
  worker loops quit and joins their threads one after the other. The other threads run on meanwhile.
* `~TcpClient` gives `connection_` another `close_cb_`, then `connection_` and `connector_` go. On the
  loop's thread `RunInLoop` makes the call at once, and none of this waits.

A connection is destroyed with the last reference to it; `~TcpConnection` has no body either, so
that its socket is closed and its channel stays where it is. A run ends with the destructor.
-/

namespace Liang.Net

/-- The loop whose thread runs the owner's destructor. -/
def Owner.loop (cfg : Cfg) : Owner → LoopId
  | server => cfg.serverLoop
  | client k => cfg.clientLoop k

/-- The destructor of `connections_`. -/
def TcpServer.dropConnections (cfg : Cfg) (s : Sys) : Sys :=
  let s₁ := { s with connections := fun _ => none }
  let dies (c : ConnId) : Bool := s.connections c.fd == some c && !s₁.referenced cfg c
  let closed (n : Fd) : Bool := (s.connections n).any fun c => c.fd == n && dies c
  { s₁ with
    alive := fun c => s.alive c && !dies c
    fds := fun n => if closed n then none else s.fds n
    pollers := fun l =>
      { s.pollers l with
        interest := fun n => if closed n then none else (s.pollers l).interest n } }

/-- `~TcpAcceptor`, then that of its `socket_`. -/
def TcpAcceptor.dtor (cfg : Cfg) (t : Tid) (s : Sys) : Except Assert Sys := do
  let s ← s.channelOp t cfg.serverLoop fun p => p.disableAll (ChanId.fd cfg) .acceptor
  let s ← s.removeFromLoop cfg t .acceptor
  return (s.closeFd cfg.idleFd).closeFd cfg.listenFd

/-- `~TcpClient`. The `close_cb_` it sets does what `RemoveConnection` does once `connection_` is
null. `~TcpConnector` drops `channel_` wherever it is registered, and leaves its socket open. -/
def TcpClient.dtor (cfg : Cfg) (k : ClientId) (s : Sys) : Sys :=
  let s₁ := s.updClient k fun x => { x with connection := none, channel := none }
  match (s.clients k).connection with
  | some c =>
    if s₁.referenced cfg c then s₁
    else { s₁ with alive := Function.update s₁.alive c false }.closeFd c.fd
  | none => s₁

/-- Where the destructor is. -/
inductive TeardownPc
  | live
  /-- `~TcpServer` after `connections_` -/
  | acceptor
  /-- in `~EventLoopThreadPool`, with the loops whose threads are to be joined -/
  | pool (ls : List LoopId)
  | done (o : Owner)
  deriving DecidableEq, Repr

/-- A step that can be made meanwhile: not by the thread in the destructor, nor by that of a loop
that has been joined. -/
def TeardownPc.allows (cfg : Cfg) : TeardownPc → Act → Bool
  | .live, _ => true
  | .acceptor, .thread t _ => t != .loop cfg.serverLoop
  | .pool ls, .thread t _ =>
    t != .loop cfg.serverLoop && cfg.workers.all fun l => t != .loop l || ls.contains l
  | .acceptor, _ | .pool _, _ => true
  | .done _, _ => false

/-- The program, in which one owner may be destroyed. -/
structure Teardown where
  sys : Sys
  pc : TeardownPc

inductive TeardownAct
  | run (a : Act)
  /-- user code calls the destructor -/
  | delete (o : Owner)
  /-- the destructor goes on -/
  | next

/-- User code runs on the thread. -/
def Sys.inUserCode (s : Sys) (t : Tid) : Bool :=
  match s.stack t with
  | .user _ :: _ => true
  | _ => false

namespace Teardown

def step (cfg : Cfg) (x : Teardown) (a : TeardownAct) : Option Teardown :=
  if x.sys.failed ≠ none then none
  else match a with
    | .run a =>
      if x.pc.allows cfg a then (Net.step cfg x.sys a).map fun s => { x with sys := s } else none
    | .delete o =>
      if x.pc = .live ∧ x.sys.inUserCode (.loop (o.loop cfg)) then
        match o with
        | .server => some ⟨TcpServer.dropConnections cfg x.sys, .acceptor⟩
        | .client k => some ⟨TcpClient.dtor cfg k x.sys, .done o⟩
      else none
    | .next => match x.pc with
      | .acceptor => match TcpAcceptor.dtor cfg (.loop cfg.serverLoop) x.sys with
        -- before `Start` there is no pool
        | .ok s => some ⟨s, .pool (if s.started then cfg.workers else [])⟩
        | .error e => some { x with sys := { x.sys with failed := some e } }
      | .pool [] => some { x with pc := .done .server }
      | .pool (l :: ls) =>
        -- `quit_` is looked at between two rounds
        if x.sys.stack (.loop l) = [.loopPoll l] then some { x with pc := .pool ls } else none
      | _ => none

def init (cfg : Cfg) : Teardown := ⟨Sys.init cfg, .live⟩

end Teardown

end Liang.Net
