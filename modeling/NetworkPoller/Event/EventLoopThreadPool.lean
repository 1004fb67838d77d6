/-!
# `EventLoopThreadPool`

The two selectors of `core/net/event/event_loop_thread_pool.cpp` over a vector of loops. `next_index_` is
a `uint32_t`, the size of the vector a `size_t`; an index outside the vector is undefined behaviour and
has no result. A call also tells the index it used.
-/

namespace Liang.Net

/-- A loop a pool returns: the `loop` it was constructed with, or the one its thread number `i` runs. -/
inductive PoolLoop
  | main
  | thread (i : Nat)
  deriving DecidableEq, Repr

structure EventLoopThreadPool (α : Type) where
  threadNum : UInt32
  mainLoop : α
  nextIndex : UInt32 := 0
  loopList : List α := []

/-- What a call returns, and the index into `loop_list_` it used. -/
structure Pick (α : Type) where
  loop : α
  index : Option UInt32
  deriving DecidableEq, Repr

namespace EventLoopThreadPool

variable {α : Type}

/-- The constructor. -/
def new (num : UInt32) (loop : α) : EventLoopThreadPool α where
  threadNum := num
  mainLoop := loop

/-- `Initialize`; `getLoopInThread i` is what `GetLoopInThread` of the thread number `i` returns. -/
def initializePool (getLoopInThread : Nat → α) (p : EventLoopThreadPool α) : EventLoopThreadPool α :=
  { p with loopList := p.loopList ++ (List.range p.threadNum.toNat).map getLoopInThread }

def getEventLoopFromPool (p : EventLoopThreadPool α) : Option (Pick α × EventLoopThreadPool α) :=
  if p.loopList.isEmpty then some (⟨p.mainLoop, none⟩, p)
  else
    (p.loopList[p.nextIndex.toNat]?).map fun loop =>
      let next := p.nextIndex + 1
      -- the size is cast to `int`, which the comparison with an unsigned makes unsigned again
      let next := if (Int32.ofNat p.loopList.length).toUInt32 ≤ next then 0 else next
      (⟨loop, some p.nextIndex⟩, { p with nextIndex := next })

def getEventLoopFromPoolForHash (p : EventLoopThreadPool α) (hashCode : UInt32) : Option (Pick α) :=
  if p.loopList.length = 0 then some ⟨p.mainLoop, none⟩
  else
    let hashIndex := UInt32.ofNat (hashCode.toNat % p.loopList.length)
    (p.loopList[hashIndex.toNat]?).map fun loop => ⟨loop, some hashIndex⟩

inductive Call
  | fromPool
  | forHash (hashCode : UInt32)
  deriving DecidableEq, Repr

def call (p : EventLoopThreadPool α) : Call → Option (Pick α × EventLoopThreadPool α)
  | .fromPool => p.getEventLoopFromPool
  | .forHash hashCode => (p.getEventLoopFromPoolForHash hashCode).map fun pick => (pick, p)

/-- The pool after a call. -/
def step (p : EventLoopThreadPool α) (a : Call) : Option (EventLoopThreadPool α) := (p.call a).map (·.2)

/-- A call with what it returns. -/
def report (p : EventLoopThreadPool α) (a : Call) : List (Call × Pick α) :=
  (p.call a).toList.map fun x => (a, x.1)

/-- A pool of `num` loops, after `Initialize`. -/
def start (num : UInt32) : EventLoopThreadPool PoolLoop := (new num PoolLoop.main).initializePool .thread

end EventLoopThreadPool

end Liang.Net
