import NetworkPoller.Net.Effect

/-!
# Conditions on the steps of a run

The conditions under which the results about runs are stated, and steps they speak of, as predicates
on the state a step is made in and the step. They can be evaluated, so that a run on given inputs is
checked against them.
-/

namespace Liang.Net

open Base

/-! ## What they look at -/

/-- A functor that carries output of `c`. -/
def Task.outputOf (c : ConnId) : Task → Bool
  | sendInLoop c' _ _ | shutdownInLoop c' => decide (c' = c)
  | _ => false

/-- The output of `c` that waits in its loop's queue. -/
def Sys.outputs (s : Sys) (c : ConnId) : List Task := (s.queue c.loop).filter (·.outputOf c)

def Task.isSend : Task → Bool
  | sendInLoop _ _ _ => true
  | _ => false

/-- The connection the frame works on. -/
def Frame.on? (s : Sys) : Frame → Option ConnId
  | .loopTasks l => match s.queue l with
    | k :: _ => k.conn?
    | [] => none
  | .api (.disconnect k) => (s.clients k).connection
  | f => f.about

/-! ## Connections -/

/-- `StartReadInLoop` runs on no `DISCONNECTED` connection. -/
def StartsOpen (s : Sys) : Act → Prop
  | .thread t _ => match s.stack t with
    | .loopTasks l :: _ => match s.queue l with
      | .startReadInLoop c :: _ => (s.conns c).state ≠ .disconnected
      | _ => True
    | _ => True
  | _ => True

instance (s : Sys) (a : Act) : Decidable (StartsOpen s a) := by
  unfold StartsOpen
  split
  · split
    · split <;> infer_instance
    · infer_instance
  · infer_instance

/-- `StartRead` is not called, and neither the close callback of a channel nor a `ReadHandler` that
reads data or the end of the stream finds a `DISCONNECTED` connection. -/
def FindsOpen (s : Sys) : Act → Prop
  | .thread t inp => match s.stack t, inp with
    | .user _ :: _, .call (.startRead _) => False
    | .closeHandler c :: _, _ => (s.conns c).state ≠ .disconnected
    | .readHandler c :: _, .read (.data _) => (s.conns c).state ≠ .disconnected
    | _, _ => True
  | _ => True

instance (s : Sys) (a : Act) : Decidable (FindsOpen s a) := by
  unfold FindsOpen
  split
  · split <;> infer_instance
  · infer_instance

instance (x : Conn) : Decidable x.CloserEntered :=
  match h : x.closer with
  | none => isTrue fun T n hn => by rw [h] at hn; cases hn
  | some (T, n) => decidable_of_iff (n ≤ (x.enteredBy T).length)
    ⟨fun hle T' n' hn => by rw [h] at hn; cases hn; exact hle, fun hx => hx T n h⟩

/-- `WriteHandler` shuts no socket down before `SendInLoop` has been entered for what the closer
sent. -/
def ShutsInTurn (s : Sys) : Act → Prop
  | .thread t _ => match s.stack t with
    | .writeHandlerRest c :: _ => (s.conns c).state = .disconnecting →
        (s.chan c).isWriting = false → (s.conns c).CloserEntered
    | _ => True
  | _ => True

instance (s : Sys) (a : Act) : Decidable (ShutsInTurn s a) := by
  unfold ShutsInTurn
  split
  · split <;> infer_instance
  · infer_instance

/-- `Send` is called on no `DISCONNECTING` connection, and when `WriteHandler` goes on to
`ShutdownInLoop` no message waits in the queue. -/
def SendsEarly (s : Sys) : Act → Prop
  | .thread t _ => match s.stack t with
    | .api (.send c _) :: _ => (s.conns c).state ≠ .disconnecting
    | .writeHandlerRest c :: _ => (s.conns c).state = .disconnecting →
        (s.chan c).isWriting = false → ∀ k ∈ s.outputs c, k.isSend = false
    | _ => True
  | _ => True

instance (s : Sys) (a : Act) : Decidable (SendsEarly s a) := by
  unfold SendsEarly
  split
  · split <;> infer_instance
  · infer_instance

/-- `SendInLoop` gives its message to `Write`. -/
def Sys.SendWrites (s : Sys) (c : ConnId) : Prop :=
  (s.conns c).state ≠ .disconnected ∧ (s.chan c).isWriting = false ∧
    (s.conns c).writeBuffer.readableBytes = 0

/-- The step calls `SocketUtility::Write` on the socket of `c`, from `WriteHandler` or from
`SendInLoop`. -/
def Act.Writes (s : Sys) (c : ConnId) : Act → Prop
  | .thread t _ => match s.stack t with
    | .writeHandler c' :: _ => c' = c ∧ (s.chan c).isWriting = true
    | .api (.send c' _) :: _ => c' = c ∧ t = .loop c.loop ∧ s.SendWrites c
    | .loopTasks l :: _ => match s.queue l with
      | .sendInLoop c' _ _ :: _ => c' = c ∧ s.SendWrites c
      | _ => False
    | _ => False
  | _ => False

instance (s : Sys) (c : ConnId) : Decidable (s.SendWrites c) := by
  unfold Sys.SendWrites
  infer_instance

instance (s : Sys) (c : ConnId) (a : Act) : Decidable (a.Writes s c) := by
  unfold Act.Writes
  split
  · split
    · infer_instance
    · infer_instance
    · split <;> infer_instance
    · infer_instance
  · infer_instance

/-! ## Calls -/

/-- A call with `n` frames below it on the stack of `t` has not returned. -/
def Sys.Inside (t : Tid) (n : Nat) (s : Sys) : Prop := n < (s.stack t).length

instance (t : Tid) (n : Nat) (s : Sys) : Decidable (s.Inside t n) :=
  inferInstanceAs (Decidable (_ < _))

/-- The thread `t` takes the step. -/
def Act.By (t : Tid) : Act → Prop
  | .thread u _ => u = t
  | _ => False

instance (t : Tid) (a : Act) : Decidable (a.By t) := by
  unfold Act.By
  split <;> infer_instance

/-- The read a `ReadHandler` on `c` with `n` frames below it makes, and the state it is made in. -/
def readsAt (c : ConnId) (n : Nat) (s : Sys) : Act → List (ReadRes × ConnState)
  | .thread t (.read x) =>
    if t = .loop c.loop ∧ (s.stack t).head? = some (.readHandler c) ∧ (s.stack t).length = n + 1 then
      [(x, (s.conns c).state)]
    else []
  | _ => []

/-- No `compare_exchange_weak` fails spuriously. -/
def NoSpurious (_ : Sys) : Act → Prop
  | .thread _ (.cas true) => False
  | _ => True

instance (s : Sys) (a : Act) : Decidable (NoSpurious s a) := by
  unfold NoSpurious
  split <;> infer_instance

/-- `t` has queued `k` in the loop `l` between `s` and `s'`, as the functor number `n` of the loop. -/
def Sys.QueuedAt (t : Tid) (l : LoopId) (k : Task) (n : Nat) (s s' : Sys) : Prop :=
  (s.enqueued l).length ≤ n ∧ (s'.enqueued l)[n]? = some (t, k)

/-- How often `Listen` has been queued. -/
def Sys.listens (cfg : Cfg) (s : Sys) : Nat := ((s.enqueued cfg.serverLoop).map (·.2)).count .listen

/-- The runs of `CloseHandler` that `ForceCloseInLoop`, taken from the queue, adds to the trace. -/
def forcedCloses (cfg : Cfg) (c : ConnId) (s : Sys) (a : Act) : List ConnEv :=
  match a with
  | .thread t _ => match s.stack t, step cfg s a with
    | .loopTasks l :: _, some s' =>
      if (s.queue l).head? = some (.forceCloseInLoop c) then
        ((s'.conns c).trace.drop (s.conns c).trace.length).filter (· = .closeHandler)
      else []
    | _, _ => []
  | _ => []

/-- In one of the steps `L` the thread `t` has run `StartInLoop`. -/
def StartRan (cfg : Cfg) (k : ClientId) (t : Tid) (L : List (Sys × Act)) : Prop :=
  ∃ s inp s' r, (s, .thread t inp) ∈ L ∧ TcpConnector.startInLoop cfg t k inp s = .ok s' [] ∧
    step cfg s (.thread t inp) = some (s'.push t r)

/-- In one of the steps `L` the exchange of a `Start` that `t` has called succeeded, with `RunInLoop` to
come. -/
def StartWon (cfg : Cfg) (k : ClientId) (t : Tid) (L : List (Sys × Act)) : Prop :=
  ∃ s inp s', (s, .thread t inp) ∈ L ∧ step cfg s (.thread t inp) = some s' ∧
    (s.clients k).state = .disconnected ∧ (s'.clients k).state = .connecting ∧
    .connectorRun k ∈ s'.stack t

/-- A `Start` called by `t`, with the steps `L` from its call in `s₀` to its return in `s₁`, starts an
attempt: it has queued `StartInLoop` or run it, or the `Start` of another thread was faster. -/
def StartsAttempt (cfg : Cfg) (k : ClientId) (t : Tid) (s₀ : Sys) (L : List (Sys × Act)) (s₁ : Sys) : Prop :=
  (∃ n, s₀.QueuedAt t (cfg.clientLoop k) (.connectorStart k) n s₁) ∨ StartRan cfg k t L ∨
    ∃ u, u ≠ t ∧ StartWon cfg k u L

/-- The callbacks of `c` are not set anew. -/
def KeepsCallbacks (c : ConnId) (s : Sys) : Act → Prop
  | .thread t _ => match s.stack t with
    | .api (.setCallbacks c' _) :: _ => c' ≠ c
    | _ => True
  | _ => True

instance (c : ConnId) (s : Sys) (a : Act) : Decidable (KeepsCallbacks c s a) := by
  unfold KeepsCallbacks
  split
  · split <;> infer_instance
  · infer_instance

/-! ## Numbers and objects -/

/-- `AcceptHandle` closes no number that is a connection's or a connector's, and `StartRead` is not
called. -/
def KeepsNumbers (cfg : Cfg) (s : Sys) : Act → Prop
  | .thread t inp => match s.stack t with
    | .closeIdle :: _ => match s.fds cfg.idleFd with
      | some (.conn _) | some (.connector _) => False
      | _ => True
    | .user _ :: _ => match inp with
      | .call (.startRead _) => False
      | _ => True
    | _ => True
  | _ => True

instance (cfg : Cfg) (s : Sys) (a : Act) : Decidable (KeepsNumbers cfg s a) := by
  unfold KeepsNumbers
  split
  · split
    · split <;> infer_instance
    · split <;> infer_instance
    · infer_instance
  · infer_instance

/-- The number the step closes is the descriptor of no connection that exists, but the one that is
destroyed. -/
def ClosesOwn (cfg : Cfg) (s : Sys) : Act → Prop
  | .thread t inp => match s.stack t with
    | .closeIdle :: _ => ∀ c, s.alive c = true → c.fd ≠ cfg.idleFd
    | .writeEventRest _ fd :: _ => ∀ e, inp = .soError e → e ≠ 0 → ∀ c, s.alive c = true → c.fd ≠ fd
    | _ => True
  | .destroy c => s.SoleOn c
  | .openFd _ | .closeFd _ => True

/-- A handler that a channel calls, on a raw `this`, finds its connection there. -/
def HandlersAlive (s : Sys) : Act → Prop
  | .thread t _ => ∀ f r, s.stack t = f :: r → f.isHandler = true →
      ∀ c, f.about = some c → s.alive c = true
  | _ => True

/-! ## Callers and connectors -/

/-- The functions of the library are called on the thread of the server's loop, and no client
connects. -/
def CallsOnLoop (cfg : Cfg) (s : Sys) : Act → Prop
  | .thread t _ => match s.stack t with
    | .api (.connect _) :: _ => False
    | .api _ :: _ => t = .loop cfg.serverLoop
    | _ => True
  | _ => True

instance (cfg : Cfg) (s : Sys) (a : Act) : Decidable (CallsOnLoop cfg s a) := by
  unfold CallsOnLoop
  split
  · split <;> infer_instance
  · infer_instance

/-- No attempt comes to an end: `connect` gets a socket and goes on with it, and `SO_ERROR` is an
error. -/
def KeepsTrying (_ : Sys) : Act → Prop
  | .thread _ (.connect none _ _) => False
  | .thread _ (.connect (some _) err stale) => TcpConnector.goesOn (err.getD stale) = true
  | .thread _ (.soError e) => e ≠ 0
  | _ => True

instance (s : Sys) (a : Act) : Decidable (KeepsTrying s a) := by
  unfold KeepsTrying
  split <;> infer_instance

end Liang.Net
