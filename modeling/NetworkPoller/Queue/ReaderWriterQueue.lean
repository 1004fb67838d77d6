import NetworkPoller.Lib.Linear
import Mathlib.Algebra.BigOperators.Group.List.Basic
import Mathlib.Algebra.Ring.Nat

/-!
# `moodycamel::ReaderWriterQueue`

The queue that holds the functors of a loop (`thirdparty/readerwriterqueue-1.0.6`): a circular linked
list of blocks, each a circular buffer with one slot left empty. One thread at a time enqueues, one at
a time dequeues; the two run side by side.

A call is a program counter (`EnqPc`, `DeqPc`) over the queue in memory (`Queue`). A step makes one
access to what the other side may write or read at the same time; accesses to a thread's own variables
(`tail`, `localFront` and `tailBlock` are the producer's, `front`, `localTail` and `frontBlock` the
consumer's) go with the step before. Memory is sequentially consistent. A slot is `none` while no
element is constructed in it; constructing over an element, and moving or destroying one that is not
there, are faults, as are the asserts.
-/

namespace Moodycamel

open Linear

/-- `ceilToPow2`. -/
def ceilToPow2 (x : UInt64) : UInt64 :=
  let x := x - 1
  let x := x ||| x >>> 1
  let x := x ||| x >>> 2
  let x := x ||| x >>> 4
  -- `i <<= 1` from 1 while `i < sizeof(size_t)`
  let x := ([1, 2, 4] : List UInt64).foldl (fun (x i : UInt64) => x ||| x >>> (i <<< 3)) x
  x + 1

/-- A `Block *`, by the order of allocation. -/
abbrev BlockId := Nat

structure Block (α : Type) where
  front : Nat := 0
  localTail : Nat := 0
  tail : Nat := 0
  localFront : Nat := 0
  next : Option BlockId := none
  data : Nat → Option α := fun _ => none
  sizeMask : Nat

/-- `make_block`, when `malloc` succeeds. -/
def Block.make {α : Type} (capacity : Nat) : Block α := { sizeMask := capacity - 1 }

structure Queue (α : Type) where
  heap : BlockId → Block α
  /-- the blocks allocated so far are those below -/
  made : Nat
  frontBlock : BlockId
  tailBlock : BlockId
  largestBlockSize : Nat
  enqueuing : Bool := false
  dequeuing : Bool := false

inductive AllocationMode
  | canAlloc
  | cannotAlloc
  deriving DecidableEq, Repr

inductive DeqOp
  | tryDequeue
  | pop
  | peek
  deriving DecidableEq, Repr

/-- The public calls: `enqueue` and `emplace` (`canAlloc`), `try_enqueue` and `try_emplace`
(`cannotAlloc`), and those of the consumer. -/
inductive Op (α : Type)
  | enqueue (mode : AllocationMode) (x : α)
  | dequeue (op : DeqOp)
  deriving DecidableEq, Repr

/-- A result: a `bool`, or the element moved or pointed to. -/
inductive Ret (α : Type)
  | flag (b : Bool)
  | elem (x? : Option α)
  deriving DecidableEq, Repr

inductive Fault
  /-- the assert of `ReentrantGuard` -/
  | reentered
  /-- `assert(nextBlockFront == nextBlockTail)` -/
  | nextNotEmpty
  /-- `assert(nextBlockFront != nextBlockTail)` -/
  | nextEmpty
  | liveSlot
  | rawSlot
  | nullBlock
  deriving DecidableEq, Repr

/-- Where a call of `inner_enqueue` is, before which access. -/
inductive EnqPc (α : Type)
  | idle
  | enter (mode : AllocationMode) (x : α)
  | loadFront (mode : AllocationMode) (x : α) (b : BlockId) (blockTail nextBlockTail : Nat)
  | construct (x : α) (b : BlockId) (blockTail nextBlockTail : Nat)
  | storeTail (x : α) (b : BlockId) (nextBlockTail : Nat)
  | checkNext (mode : AllocationMode) (x : α) (b : BlockId)
  | loadNext (x : α) (b : BlockId)
  | constructNext (x : α) (b : BlockId) (nextBlockTail : Nat)
  | storeNextTail (x : α) (b : BlockId) (nextBlockTail : Nat)
  | makeBlock (x : α) (b : BlockId)
  | linkBlock (x : α) (b newBlock : BlockId)
  | storeTailBlock (x : α) (b : BlockId)
  | leave (r : Bool)
  deriving DecidableEq, Repr

/-- Where a call of `try_dequeue`, `pop` or `peek` is. -/
inductive DeqPc (α : Type)
  | idle
  | enter (op : DeqOp)
  | loadTail (op : DeqOp) (b : BlockId) (blockFront : Nat)
  /-- `non_empty_front_block`, and the same code after `frontBlock` has been advanced -/
  | take (op : DeqOp) (b : BlockId) (blockFront : Nat)
  | storeFront (op : DeqOp) (x : α) (b : BlockId) (blockFront : Nat)
  | checkTailBlock (op : DeqOp) (b : BlockId)
  | reload (op : DeqOp)
  | loadNext (op : DeqOp) (b : BlockId)
  | loadNextTail (op : DeqOp) (nextBlock : BlockId)
  | storeFrontBlock (op : DeqOp) (nextBlock : BlockId) (nextBlockFront : Nat)
  /-- the end of `peek` in the next block -/
  | peekNext (nextBlock : BlockId) (nextBlockFront : Nat)
  | leave (r : Ret α)
  deriving DecidableEq, Repr

variable {α : Type}

namespace Queue

def upd (q : Queue α) (b : BlockId) (f : Block α → Block α) : Queue α :=
  { q with heap := Function.update q.heap b (f (q.heap b)) }

/-- `new (location) T(...)` in slot `i` of block `b`. -/
def construct (q : Queue α) (b : BlockId) (i : Nat) (x : α) : Except Fault (Queue α) :=
  match (q.heap b).data i with
  | some _ => .error .liveSlot
  | none => .ok (q.upd b fun y => { y with data := Function.update y.data i (some x) })

end Queue

/-- The result when there is nothing to dequeue. -/
def DeqOp.nothing : DeqOp → Ret α
  | .tryDequeue | .peek => .elem none
  | .pop => .flag false

/-- The result for the element `x`. -/
def DeqOp.found (x : α) : DeqOp → Ret α
  | .tryDequeue | .peek => .elem (some x)
  | .pop => .flag true

/-- The next access of `inner_enqueue`; `malloc` tells whether an allocation succeeds. -/
def EnqPc.step (maxBlockSize : Nat) (malloc : Bool) (q : Queue α) :
    EnqPc α → Except Fault (Queue α × EnqPc α)
  | .idle => .ok (q, .idle)
  | .enter mode x =>
    if q.enqueuing then .error .reentered
    else
      let q := { q with enqueuing := true }
      let b := q.tailBlock
      let blockFront := (q.heap b).localFront
      let blockTail := (q.heap b).tail
      let nextBlockTail := (blockTail + 1) &&& (q.heap b).sizeMask
      if nextBlockTail ≠ blockFront then .ok (q, .construct x b blockTail nextBlockTail)
      else .ok (q, .loadFront mode x b blockTail nextBlockTail)
  | .loadFront mode x b blockTail nextBlockTail =>
    let q := q.upd b fun y => { y with localFront := y.front }
    if nextBlockTail ≠ (q.heap b).localFront then .ok (q, .construct x b blockTail nextBlockTail)
    else .ok (q, .checkNext mode x b)
  | .construct x b blockTail nextBlockTail =>
    (q.construct b blockTail x).map fun q => (q, .storeTail x b nextBlockTail)
  | .storeTail _ b nextBlockTail =>
    .ok (q.upd b fun y => { y with tail := nextBlockTail }, .leave true)
  | .checkNext mode x b =>
    if (q.heap b).next ≠ some q.frontBlock then .ok (q, .loadNext x b)
    else match mode with
      | .canAlloc => .ok (q, .makeBlock x b)
      | .cannotAlloc => .ok (q, .leave false)
  | .loadNext x b =>
    match (q.heap b).next with
    | none => .error .nullBlock
    | some tailBlockNext =>
      let nextBlockFront := (q.heap tailBlockNext).front
      let nextBlockTail := (q.heap tailBlockNext).tail
      if nextBlockFront ≠ nextBlockTail then .error .nextNotEmpty
      else .ok (q.upd tailBlockNext fun y => { y with localFront := nextBlockFront },
        .constructNext x tailBlockNext nextBlockTail)
  | .constructNext x b nextBlockTail =>
    (q.construct b nextBlockTail x).map fun q => (q, .storeNextTail x b nextBlockTail)
  | .storeNextTail x b nextBlockTail =>
    .ok (q.upd b fun y => { y with tail := (nextBlockTail + 1) &&& y.sizeMask }, .storeTailBlock x b)
  | .makeBlock x b =>
    if malloc then
      let newBlockSize :=
        if maxBlockSize ≤ q.largestBlockSize then q.largestBlockSize else q.largestBlockSize * 2
      let newBlock : Block α := Block.make newBlockSize
      -- the block is not linked yet: nobody else sees what is stored here
      let newBlock := { newBlock with
        data := Function.update newBlock.data 0 (some x)
        tail := 1
        localTail := 1
        next := (q.heap b).next }
      .ok ({ q with
        heap := Function.update q.heap q.made newBlock
        made := q.made + 1
        largestBlockSize := newBlockSize }, .linkBlock x b q.made)
    else .ok (q, .leave false)
  | .linkBlock x b newBlock =>
    .ok (q.upd b fun y => { y with next := some newBlock }, .storeTailBlock x newBlock)
  | .storeTailBlock _ b => .ok ({ q with tailBlock := b }, .leave true)
  | .leave _ => .ok ({ q with enqueuing := false }, .idle)

/-- The next access of the consumer's call. -/
def DeqPc.step (q : Queue α) : DeqPc α → Except Fault (Queue α × DeqPc α)
  | .idle => .ok (q, .idle)
  | .enter op =>
    if q.dequeuing then .error .reentered
    else
      let q := { q with dequeuing := true }
      let b := q.frontBlock
      let blockTail := (q.heap b).localTail
      let blockFront := (q.heap b).front
      if blockFront ≠ blockTail then .ok (q, .take op b blockFront)
      else .ok (q, .loadTail op b blockFront)
  | .loadTail op b blockFront =>
    let q := q.upd b fun y => { y with localTail := y.tail }
    if blockFront ≠ (q.heap b).localTail then .ok (q, .take op b blockFront)
    else .ok (q, .checkTailBlock op b)
  | .take op b blockFront =>
    match (q.heap b).data blockFront with
    | none => .error .rawSlot
    | some x =>
      match op with
      | .peek => .ok (q, .leave (op.found x))
      | .tryDequeue | .pop =>
        .ok (q.upd b fun y => { y with data := Function.update y.data blockFront none },
          .storeFront op x b ((blockFront + 1) &&& (q.heap b).sizeMask))
  | .storeFront op x b blockFront =>
    .ok (q.upd b fun y => { y with front := blockFront }, .leave (op.found x))
  | .checkTailBlock op b =>
    if b ≠ q.tailBlock then .ok (q, .reload op) else .ok (q, .leave op.nothing)
  | .reload op =>
    let b := q.frontBlock
    let q := q.upd b fun y => { y with localTail := y.tail }
    let blockTail := (q.heap b).localTail
    let blockFront := (q.heap b).front
    if blockFront ≠ blockTail then .ok (q, .take op b blockFront) else .ok (q, .loadNext op b)
  | .loadNext op b =>
    match (q.heap b).next with
    | none => .error .nullBlock
    | some nextBlock => .ok (q, .loadNextTail op nextBlock)
  | .loadNextTail op nextBlock =>
    let nextBlockFront := (q.heap nextBlock).front
    let nextBlockTail := (q.heap nextBlock).tail
    if nextBlockFront = nextBlockTail then .error .nextEmpty
    else match op with
      | .peek => .ok (q, .peekNext nextBlock nextBlockFront)
      | .tryDequeue | .pop =>
        .ok (q.upd nextBlock fun y => { y with localTail := nextBlockTail },
          .storeFrontBlock op nextBlock nextBlockFront)
  | .storeFrontBlock op nextBlock nextBlockFront =>
    .ok ({ q with frontBlock := nextBlock }, .take op nextBlock nextBlockFront)
  | .peekNext nextBlock nextBlockFront =>
    match (q.heap nextBlock).data nextBlockFront with
    | none => .error .rawSlot
    | some x => .ok (q, .leave (DeqOp.peek.found x))
  | .leave _ => .ok ({ q with dequeuing := false }, .idle)

/-- The two sides of a queue. -/
structure State (α : Type) where
  q : Queue α
  enq : EnqPc α
  deq : DeqPc α
  fault : Option Fault

/-- A call, or the next access of a call in progress. -/
inductive Act (α : Type)
  | call (op : Op α)
  | enq (malloc : Bool)
  | deq
  deriving DecidableEq, Repr

/-- A failed assert or a misused slot stops the run. -/
def step (maxBlockSize : Nat) (s : State α) (a : Act α) : Option (State α) :=
  if s.fault ≠ none then none
  else match a with
    | .call (.enqueue mode x) =>
      match s.enq with
      | .idle => some { s with enq := .enter mode x }
      | _ => none
    | .call (.dequeue op) =>
      match s.deq with
      | .idle => some { s with deq := .enter op }
      | _ => none
    | .enq malloc =>
      match s.enq with
      | .idle => none
      | pc => match pc.step maxBlockSize malloc s.q with
        | .ok (q, pc') => some { s with q := q, enq := pc' }
        | .error f => some { s with fault := some f }
    | .deq =>
      match s.deq with
      | .idle => none
      | pc => match pc.step s.q with
        | .ok (q, pc') => some { s with q := q, deq := pc' }
        | .error f => some { s with fault := some f }

inductive Role
  | producer
  | consumer
  deriving DecidableEq

instance : Fintype Role := ⟨{.producer, .consumer}, fun r => by cases r <;> simp⟩

/-- The calls and returns a step makes. -/
def report (s : State α) : Act α → List (Event Role (Op α) (Ret α))
  | .call (.enqueue mode x) => [.call .producer (.enqueue mode x)]
  | .call (.dequeue op) => [.call .consumer (.dequeue op)]
  | .enq _ => match s.enq with
    | .leave r => [.ret .producer (.flag r)]
    | _ => []
  | .deq => match s.deq with
    | .leave r => [.ret .consumer r]
    | _ => []

/-! ## The constructor -/

/-- The size and the number of the blocks that the constructor makes. -/
def initialBlocks (maxBlockSize size : UInt64) : UInt64 × UInt64 :=
  let largestBlockSize := ceilToPow2 (size + 1)
  if largestBlockSize > maxBlockSize * 2 then
    (maxBlockSize, (size + maxBlockSize * 2 - 3) / (maxBlockSize - 1))
  else (largestBlockSize, 1)

/-- The heap after `n` rounds of its loop. -/
def initialHeap (largestBlockSize : Nat) : Nat → BlockId → Block α
  | 0 => fun _ => Block.make 0
  | i + 1 =>
    let heap := Function.update (initialHeap largestBlockSize i) i (Block.make largestBlockSize)
    let heap :=
      if i = 0 then heap else Function.update heap (i - 1) { heap (i - 1) with next := some i }
    Function.update heap i { heap i with next := some 0 }

/-- `ReaderWriterQueue(size)`, when `malloc` succeeds. -/
def Queue.new (maxBlockSize size : UInt64) : Queue α where
  heap := initialHeap (initialBlocks maxBlockSize size).1.toNat
    (initialBlocks maxBlockSize size).2.toNat
  made := (initialBlocks maxBlockSize size).2.toNat
  frontBlock := 0
  tailBlock := 0
  largestBlockSize := (initialBlocks maxBlockSize size).1.toNat

def State.init (maxBlockSize size : UInt64) : State α := ⟨.new maxBlockSize size, .idle, .idle, none⟩

/-! ## What walks over all blocks

`size_approx`, `max_capacity` and the destructor, on a queue that no other thread uses meanwhile. -/

namespace Queue

/-- The blocks of `do { ... block = block->next } while (block != frontBlock_)` from `b` on. -/
def walk (q : Queue α) : Nat → BlockId → Option (List BlockId)
  | 0, _ => none
  | fuel + 1, b =>
    match (q.heap b).next with
    | none => none
    | some nb => if nb = q.frontBlock then some [b] else (q.walk fuel nb).map (b :: ·)

def blocks (q : Queue α) : Option (List BlockId) := q.walk q.made q.frontBlock

/-- `(blockTail - blockFront) & block->sizeMask`. -/
def count (q : Queue α) (b : BlockId) : Nat :=
  ((q.heap b).tail + 2 ^ 64 - (q.heap b).front) % 2 ^ 64 &&& (q.heap b).sizeMask

def sizeApprox (q : Queue α) : Option Nat := q.blocks.map fun bs => (bs.map q.count).sum

def maxCapacity (q : Queue α) : Option Nat :=
  q.blocks.map fun bs => (bs.map fun b => (q.heap b).sizeMask).sum

/-- The elements destroyed by the loop over the slots of a block, from slot `i` on. -/
def destroy (y : Block α) : Nat → Nat → Except Fault (List α)
  | 0, _ => .error .rawSlot
  | fuel + 1, i =>
    if i = y.tail then .ok []
    else match y.data i with
      | none => .error .rawSlot
      | some x => (destroy y fuel ((i + 1) &&& y.sizeMask)).map (x :: ·)

/-- `~ReaderWriterQueue`: the elements destroyed and the blocks freed, in order. -/
def dtor (q : Queue α) : Except Fault (List α × List BlockId) :=
  match q.blocks with
  | none => .error .nullBlock
  | some bs =>
    (bs.mapM fun b => destroy (q.heap b) ((q.heap b).sizeMask + 1) (q.heap b).front).map fun xs =>
      (xs.flatten, bs)

end Queue

end Moodycamel
