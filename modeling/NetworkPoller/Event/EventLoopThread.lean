import Mathlib.Logic.Function.Basic

/-!
# `EventLoopThread`

`EventLoopThread` (`core/net/event/event_loop_thread.cpp`) over `EncThread` (`core/thread/thread.cpp`)
with the parts of `EventLoop` that matter to it: the thread that `Start` creates, and any number of
threads that call `Start`, `GetLoopInThread`, `Quit` and the destructor, one access to shared memory
at a time. The `EventLoop` is a local variable of `run`, so there is one of it at most. The two
classes have a mutex and a condition variable each; a wait may end at any time.
-/

namespace Liang.Net

/-- The local variable `loop` of `run`. -/
inductive LoopLife
  | notMade
  | alive
  | destroyed
  deriving DecidableEq, Repr

/-- In `ThreadFunc`. -/
inductive FuncPc
  | lock
  | test
  | wait
  | woken
  | callRun
  deriving DecidableEq, Repr

/-- In `EventLoopThread::run` and `Loop`. -/
inductive RunPc
  | construct
  | lock
  | publish
  | unlock
  -- `Loop`
  | setLooping
  | clearQuit
  | test
  | body
  | clearLooping
  /-- `run` returns -/
  | destroy
  deriving DecidableEq, Repr

/-- Where the created thread is. -/
inductive WorkerPc
  | notStarted
  | func (p : FuncPc)
  | run (p : RunPc)
  /-- `EncThread::run` -/
  | baseRun
  | exited
  deriving DecidableEq, Repr

/-- Who calls: another thread, or code that the loop runs. -/
inductive Caller
  | user (u : Nat)
  | inside
  deriving DecidableEq, Repr

/-- In `Start`. -/
inductive StartPc
  | test
  | lock
  | create
  | assign
  | notify
  deriving DecidableEq, Repr

/-- In `GetLoopInThread`. -/
inductive GetPc
  | lock
  | test
  | wait
  | unlock
  | read
  deriving DecidableEq, Repr

/-- In `Quit`. -/
inductive QuitPc
  | store
  | wakeup
  deriving DecidableEq, Repr

/-- In `~EventLoopThread`, then `~EncThread`. -/
inductive DtorPc
  | test
  | quit
  | wakeup
  | base
  | thread
  | join
  deriving DecidableEq, Repr

/-- Where a caller is. -/
inductive CallPc
  | idle
  | start (p : StartPc)
  | get (p : GetPc)
  | quit (p : QuitPc)
  | dtor (p : DtorPc)
  deriving DecidableEq, Repr

/-- Who holds a mutex. -/
inductive Party
  | worker
  | caller (c : Caller)
  deriving DecidableEq, Repr

/-- A use of `loop_`: what it points to when it is returned or dereferenced, if it is not null. -/
inductive LoopUse
  | returned (life : Option LoopLife)
  | quitByDtor (life : LoopLife)
  deriving DecidableEq, Repr

structure LoopThread where
  -- `EncThread`
  threadobj : Bool := false
  started : Bool := false
  quited : Bool := false
  baseMutex : Option Party := none
  -- `EventLoopThread`; `loop_` is null or points to the loop of `run`
  loop : Bool := false
  mutex : Option Party := none
  /-- the object is an `EncThread` again: its `run` is that of `EncThread` -/
  baseOnly : Bool := false
  destroying : Bool := false
  gone : Bool := false
  -- the `EventLoop`
  life : LoopLife := .notMade
  quit : Bool := false
  looping : Bool := false
  worker : WorkerPc := .notStarted
  calls : Caller → CallPc := fun _ => .idle
  /-- the caller has the pointer `GetLoopInThread` returned -/
  has : Caller → Bool := fun _ => false
  /-- history: the calls of `Quit` that have stored `quit_`, and whether one has returned -/
  quits : Nat := 0
  quitReturned : Bool := false
  /-- history -/
  uses : List LoopUse := []
  /-- `std::terminate` was called -/
  terminated : Bool := false

/-- The functions that can be called. -/
inductive ThreadCall
  | start
  | getLoopInThread
  | quit
  | destroy
  deriving DecidableEq, Repr

inductive ThreadAct
  /-- the created thread goes on -/
  | worker
  | call (c : Caller) (f : ThreadCall)
  /-- a call goes on -/
  | caller (c : Caller)
  deriving DecidableEq, Repr

namespace LoopThread

variable (s : LoopThread)

def setCall (c : Caller) (pc : CallPc) : LoopThread :=
  { s with calls := Function.update s.calls c pc }

/-- What `loop_` points to. -/
def pointee : Option LoopLife := if s.loop then some s.life else none

/-- `quit_ = true`. -/
def storeQuit : LoopThread := { s with quit := true, quits := s.quits + 1 }

def threadFunc : FuncPc → Option LoopThread
  | .lock =>
    if s.baseMutex = none then some { s with baseMutex := some .worker, worker := .func .test }
    else none
  | .test =>
    if s.started then some { s with baseMutex := none, worker := .func .callRun }
    else some { s with baseMutex := none, worker := .func .wait }
  | .wait =>
    if s.baseMutex = none then some { s with baseMutex := some .worker, worker := .func .woken }
    else none
  | .woken =>
    if s.quited then some { s with baseMutex := none, worker := .exited }
    else some { s with baseMutex := none, worker := .func .callRun }
  | .callRun =>
    if s.baseOnly then some { s with worker := .baseRun }
    else some { s with worker := .run .construct }

def run : RunPc → Option LoopThread
  | .construct => some { s with life := .alive, quit := false, looping := false, worker := .run .lock }
  | .lock =>
    if s.mutex = none then some { s with mutex := some .worker, worker := .run .publish } else none
  | .publish => some { s with loop := true, worker := .run .unlock }
  | .unlock => some { s with mutex := none, worker := .run .setLooping }
  | .setLooping => some { s with looping := true, worker := .run .clearQuit }
  | .clearQuit => some { s with quit := false, worker := .run .test }
  | .test =>
    if s.quit then some { s with worker := .run .clearLooping } else some { s with worker := .run .body }
  | .body => if s.calls .inside = .idle then some { s with worker := .run .test } else none
  | .clearLooping => some { s with looping := false, worker := .run .destroy }
  | .destroy => some { s with life := .destroyed, worker := .exited }

/-- The thread that `Start` created. -/
def workerStep : Option LoopThread :=
  match s.worker with
  | .func p => s.threadFunc p
  | .run p => s.run p
  | .baseRun => if s.quited then some { s with worker := .exited } else some s
  | .notStarted | .exited => none

/-- A call begins. Code inside the loop runs while the loop does, and has its pointer; the destructor
is called once, by another thread. -/
def begin (c : Caller) (f : ThreadCall) : Option LoopThread :=
  if s.calls c ≠ .idle ∨ s.gone ∨ c = .inside ∧ s.worker ≠ .run .body then none
  else match f with
    | .start => some (s.setCall c (.start .test))
    | .getLoopInThread => some (s.setCall c (.get .lock))
    | .quit => if s.has c ∨ c = .inside then some (s.setCall c (.quit .store)) else none
    | .destroy =>
      if s.destroying ∨ c = .inside then none
      else some { s.setCall c (.dtor .test) with destroying := true }

def start (c : Caller) : StartPc → Option LoopThread
  | .test => if s.threadobj then some (s.setCall c .idle) else some (s.setCall c (.start .lock))
  | .lock =>
    if s.baseMutex = none then
      some { s.setCall c (.start .create) with baseMutex := some (.caller c) }
    else none
  | .create =>
    -- the thread object that would be overwritten is joinable
    if s.threadobj then some { s with terminated := true }
    else some { s.setCall c (.start .assign) with worker := .func .lock }
  | .assign => some { s.setCall c (.start .notify) with threadobj := true }
  | .notify => some { s.setCall c .idle with started := true, baseMutex := none }

def getLoopInThread (c : Caller) : GetPc → Option LoopThread
  | .lock =>
    if s.mutex = none then some { s.setCall c (.get .test) with mutex := some (.caller c) } else none
  | .test =>
    if s.loop then some (s.setCall c (.get .unlock))
    else some { s.setCall c (.get .wait) with mutex := none }
  | .wait =>
    -- notified or not
    if s.mutex = none then some { s.setCall c (.get .unlock) with mutex := some (.caller c) } else none
  | .unlock => some { s.setCall c (.get .read) with mutex := none }
  | .read =>
    some { s.setCall c .idle with
      has := Function.update s.has c s.loop
      uses := s.uses ++ [.returned s.pointee] }

/-- `Quit` of the loop. What `Wakeup` writes has no effect on a loop that never waits. -/
def quitLoop (c : Caller) : QuitPc → Option LoopThread
  | .store => some (s.storeQuit.setCall c (.quit .wakeup))
  | .wakeup => some { s.setCall c .idle with quitReturned := true }

/-- The destructors. -/
def dtor (c : Caller) : DtorPc → Option LoopThread
  | .test => if s.loop then some (s.setCall c (.dtor .quit)) else some (s.setCall c (.dtor .base))
  | .quit =>
    some { s.storeQuit.setCall c (.dtor .wakeup) with uses := s.uses ++ [.quitByDtor s.life] }
  | .wakeup => some { s.setCall c (.dtor .base) with quitReturned := true }
  | .base => some { s.setCall c (.dtor .thread) with baseOnly := true }
  | .thread =>
    if s.threadobj then some { s.setCall c (.dtor .join) with quited := true }
    else some { s.setCall c .idle with gone := true }
  | .join => if s.worker = .exited then some { s.setCall c .idle with gone := true } else none

/-- A call goes on. -/
def callerStep (c : Caller) : Option LoopThread :=
  match s.calls c with
  | .idle => none
  | .start p => s.start c p
  | .get p => s.getLoopInThread c p
  | .quit p => s.quitLoop c p
  | .dtor p => s.dtor c p

def step : ThreadAct → Option LoopThread
  | .worker => if s.terminated then none else s.workerStep
  | .call c f => if s.terminated then none else s.begin c f
  | .caller c => if s.terminated then none else s.callerStep c

def init : LoopThread := {}

end LoopThread

end Liang.Net
