import NetworkPoller.Queue.Proof.Steps

/-!
# The queue is linearizable

Whatever the interleaving of the two sides, the calls and returns are those of a first-in first-out
list on which every call acts at one moment (`Fifo`). An enqueue takes effect with the store of
`tail` or of `tailBlock`, a dequeue with the store of `front`. A call that ends without effect has
seen the queue full or empty at some moment since its start.
-/

namespace Moodycamel

open Linear Runs

variable {α : Type}

/-- The list that the queue implements. An enqueue is refused only when `size` elements are there,
and then only if it may not allocate or an allocation may fail. -/
inductive Fifo (size : Nat) (mayFail : Prop) : List α → Op α → Ret α → List α → Prop
  | enqueued {xs mode x} : Fifo size mayFail xs (.enqueue mode x) (.flag true) (xs ++ [x])
  | refused {xs mode x} (full : size ≤ xs.length) (cause : mode = .canAlloc → mayFail) :
      Fifo size mayFail xs (.enqueue mode x) (.flag false) xs
  | dequeued {op x xs} (takes : op ≠ .peek) :
      Fifo size mayFail (x :: xs) (.dequeue op) (op.found x) xs
  | peeked {x xs} : Fifo size mayFail (x :: xs) (.dequeue .peek) (DeqOp.peek.found x) (x :: xs)
  | empty {op} : Fifo size mayFail [] (.dequeue op) op.nothing []

/-! ## What the calls in progress have seen -/

/-- The producer's call, with the results it may still return without effect. -/
inductive EnqWatch (mayFail : Prop) (free : List BlockId) : EnqPc α → Watch (Op α) (Ret α) → Prop
  | idle : EnqWatch mayFail free .idle .idle
  | done {r} : EnqWatch mayFail free (.leave r) (.done (.flag r))
  | called {pc x m seen} (arg : pc.arg = some x) (mode : pc.mode = none ∨ pc.mode = some m)
      (full : pc.FoundFull free → (m = .canAlloc → mayFail) → .flag false ∈ seen) :
      EnqWatch mayFail free pc (.called (.enqueue m x) seen)

inductive DeqWatch (used : List BlockId) : DeqPc α → Watch (Op α) (Ret α) → Prop
  | idle : DeqWatch used .idle .idle
  | done {r} : DeqWatch used (.leave r) (.done r)
  | called {pc op seen} (op_eq : pc.op = some op) (none : pc.SeesNone used → op.nothing ∈ seen) :
      DeqWatch used pc (.called (.dequeue op) seen)

section

variable {size : Nat} {mayFail : Prop} {used used' free free' : List BlockId} {enq : EnqPc α}
  {deq : DeqPc α} {w : Watch (Op α) (Ret α)}

theorem EnqWatch.see (h : EnqWatch mayFail free enq w) (xs : List α) :
    EnqWatch mayFail free enq (w.see (Fifo size mayFail) xs) := by
  cases h with
  | idle => exact .idle
  | done => exact .done
  | called arg mode full => exact .called arg mode fun h1 h2 => .inl (full h1 h2)

theorem DeqWatch.see (h : DeqWatch used deq w) (xs : List α) :
    DeqWatch used deq (w.see (Fifo size mayFail) xs) := by
  cases h with
  | idle => exact .idle
  | done => exact .done
  | called op_eq none => exact .called op_eq fun h1 => .inl (none h1)

/-- More free blocks do not hurt a call that waits for one. -/
theorem EnqWatch.mono (h : EnqWatch mayFail free enq w) (hfree : free <+: free') :
    EnqWatch mayFail free' enq w := by
  cases h with
  | idle => exact .idle
  | done => exact .done
  | called arg mode full => exact .called arg mode fun h1 => full (h1.mono hfree)

theorem DeqWatch.mono (h : DeqWatch used deq w) (hused : used <+: used') (hne : used ≠ []) :
    DeqWatch used' deq w := by
  cases h with
  | idle => exact .idle
  | done => exact .done
  | called op_eq none =>
    refine .called op_eq fun h1 => none ?_
    cases deq with
    | checkTailBlock op b =>
      have h1 : used'.length = 1 := h1
      have hle := hused.length_le
      have hpos := List.length_pos_iff.2 hne
      show used.length = 1
      omega
    | _ => exact h1.elim

theorem EnqWatch.of_idle (h : EnqWatch mayFail free (.idle : EnqPc α) w) : w = .idle := by
  cases h with
  | idle => rfl
  | called arg => cases arg

theorem DeqWatch.of_idle (h : DeqWatch used (.idle : DeqPc α) w) : w = .idle := by
  cases h with
  | idle => rfl
  | called op_eq => cases op_eq

theorem EnqWatch.of_leave {r : Bool} (h : EnqWatch mayFail free (.leave r : EnqPc α) w) :
    w = .done (.flag r) := by
  cases h with
  | done => rfl
  | called arg => cases arg

theorem DeqWatch.of_leave {r : Ret α} (h : DeqWatch used (.leave r) w) : w = .done r := by
  cases h with
  | done => rfl
  | called op_eq => cases op_eq

theorem EnqWatch.of_arg {x : α} (h : EnqWatch mayFail free enq w) (hx : enq.arg = some x) :
    ∃ m seen, w = .called (.enqueue m x) seen ∧ (enq.mode = none ∨ enq.mode = some m) ∧
      (enq.FoundFull free → (m = .canAlloc → mayFail) → .flag false ∈ seen) := by
  cases h with
  | idle => cases hx
  | done => cases hx
  | called arg mode full =>
    obtain rfl := Option.some.inj (arg.symm.trans hx)
    exact ⟨_, _, rfl, mode, full⟩

theorem DeqWatch.of_op {op : DeqOp} (h : DeqWatch used deq w) (hop : deq.op = some op) :
    ∃ seen, w = .called (.dequeue op) seen ∧ (deq.SeesNone used → op.nothing ∈ seen) := by
  cases h with
  | idle => cases hop
  | done => cases hop
  | called op_eq none =>
    obtain rfl := Option.some.inj (op_eq.symm.trans hop)
    exact ⟨_, rfl, none⟩

end

/-! ## The simulation -/

/-- The queue and the list with the calls in progress. -/
structure Rel (size : Nat) (mayFail : Prop) (s : State α) (xs : List α)
    (w : Role → Watch (Op α) (Ret α)) (used free : List BlockId) (items : BlockId → List α) :
    Prop where
  fault : s.fault = none
  good : Good size s.q s.enq s.deq used free items
  list : used.flatMap items = xs
  producer : EnqWatch mayFail free s.enq (w .producer)
  consumer : DeqWatch used s.deq (w .consumer)

namespace Rel

variable {size : Nat} {mayFail : Prop} {s : State α} {xs : List α} {w : Role → Watch (Op α) (Ret α)}
  {used free : List BlockId} {items : BlockId → List α} {h : List (Event Role (Op α) (Ret α))}

/-- The list can follow `s` to `s'`, with the events `es`. -/
def Follows (size : Nat) (mayFail : Prop) (h es : List (Event Role (Op α) (Ret α))) (s' : State α) :
    Prop :=
  ∃ xs' w', Watched (Fifo size mayFail) [] (h ++ es) xs' w' ∧
    ∃ used' free' items', Rel size mayFail s' xs' w' used' free' items'

theorem enq {malloc : Bool} {x : α} {q' : Queue α} {pc' : EnqPc α}
    (R : Rel size mayFail s xs w used free items)
    (hw : Watched (Fifo size mayFail) [] h xs w) (hm : malloc = false → mayFail)
    (hx : s.enq.arg = some x)
    (out : EnqOutcome size malloc s.q s.enq s.deq used free items x q' pc') :
    Follows size mayFail h [] { s with q := q', enq := pc' } := by
  obtain ⟨m, seen, hwp, hmode, hfull⟩ := R.producer.of_arg hx
  cases out with
  | quiet good same arg mode why _ =>
    refine ⟨xs, w, by rwa [List.append_nil], used, _, _, R.fault, good, same.trans R.list, ?_,
      R.consumer⟩
    rw [hwp]
    refine .called arg ?_ fun h1 hc => ?_
    · rcases mode with h0 | h0
      · exact .inl h0
      · rwa [h0]
    · rcases why h1 with h2 | ⟨hfree, hcrowd⟩
      · exact hfull h2 hc
      · -- the queue is full now
        refine hw.still_subset hwp (Fifo.refused ?_ hc)
        rw [← R.list]
        exact R.good.size_le_of_crowded hfree hcrowd
  | pushed good used_le added _ =>
    refine ⟨_, _, by rw [List.append_nil]; exact hw.effect hwp .enqueued, _, _, _, R.fault, good,
      ?_, ?_, ?_⟩
    · rw [added, R.list]
    · rw [Function.update_self]
      exact .done
    · rw [Function.update_of_ne (by decide)]
      exact (R.consumer.mono used_le (List.ne_nil_of_mem R.good.ring.front_mem)).see _
  | refused good why cause =>
    have hc : m = .canAlloc → mayFail := by
      rintro rfl
      rcases cause with h0 | h0
      · rw [h0] at hmode
        rcases hmode with h1 | h1 <;> cases h1
      · exact hm h0
    refine ⟨_, _, by rw [List.append_nil]; exact hw.settle hwp (hfull why hc), used, free, items,
      R.fault, good, R.list, ?_, ?_⟩
    · rw [Function.update_self]
      exact .done
    · rw [Function.update_of_ne (by decide)]
      exact R.consumer

theorem deq {op : DeqOp} {q' : Queue α} {pc' : DeqPc α} (R : Rel size mayFail s xs w used free items)
    (hw : Watched (Fifo size mayFail) [] h xs w) (hop : s.deq.op = some op)
    (out : DeqOutcome size s.q s.enq s.deq used free items op q' pc') :
    Follows size mayFail h [] { s with q := q', deq := pc' } := by
  obtain ⟨seen, hwc, hnone⟩ := R.consumer.of_op hop
  cases out with
  | quiet good step same op_eq why =>
    refine ⟨xs, w, by rwa [List.append_nil], _, _, items, R.fault, good, same.trans R.list,
      R.producer.mono step.free_le, ?_⟩
    rw [hwc]
    refine .called op_eq fun h1 => ?_
    rcases why h1 with h2 | h2
    · exact hnone h2
    · -- the queue is empty now
      obtain rfl : xs = [] := R.list.symm.trans h2
      exact hw.still_subset hwc Fifo.empty
  | taken good step takes removed =>
    have happ := removed.symm.trans R.list
    subst happ
    refine ⟨_, _, by rw [List.append_nil]; exact hw.effect hwc (.dequeued takes), used, free, _,
      R.fault, good, rfl, ?_, ?_⟩
    · rw [Function.update_of_ne (by decide)]
      exact R.producer.see _
    · rw [Function.update_self]
      exact .done
  | looked good looks first =>
    subst looks
    have happ := first.symm.trans R.list
    subst happ
    refine ⟨_, _, by rw [List.append_nil]; exact hw.effect hwc .peeked, used, free, items, R.fault,
      good, R.list, ?_, ?_⟩
    · rw [Function.update_of_ne (by decide)]
      exact R.producer.see _
    · rw [Function.update_self]
      exact .done
  | nothing good why =>
    refine ⟨_, _, by rw [List.append_nil]; exact hw.settle hwc (hnone why), used, free, items,
      R.fault, good, R.list, ?_, ?_⟩
    · rw [Function.update_of_ne (by decide)]
      exact R.producer
    · rw [Function.update_self]
      exact .done

theorem callEnqueue {mode : AllocationMode} {x : α} (R : Rel size mayFail s xs w used free items)
    (hw : Watched (Fifo size mayFail) [] h xs w) (idle : s.enq = .idle) :
    Follows size mayFail h [.call .producer (.enqueue mode x)] { s with enq := .enter mode x } := by
  have hp := R.producer
  have g := R.good
  rw [idle] at hp g
  refine ⟨xs, _, hw.call .producer (.enqueue mode x) hp.of_idle, used, free, items, R.fault,
    g.callEnqueue, R.list, ?_, ?_⟩
  · rw [Function.update_self]
    exact .called rfl (.inr rfl) False.elim
  · rw [Function.update_of_ne (by decide)]
    exact R.consumer

theorem callDequeue {op : DeqOp} (R : Rel size mayFail s xs w used free items)
    (hw : Watched (Fifo size mayFail) [] h xs w) (idle : s.deq = .idle) :
    Follows size mayFail h [.call .consumer (.dequeue op)] { s with deq := .enter op } := by
  have hc := R.consumer
  have g := R.good
  rw [idle] at hc g
  refine ⟨xs, _, hw.call .consumer (.dequeue op) hc.of_idle, used, free, items, R.fault, g.callDequeue,
    R.list, ?_, ?_⟩
  · rw [Function.update_of_ne (by decide)]
    exact R.producer
  · rw [Function.update_self]
    exact .called rfl False.elim

theorem leaveEnq {r : Bool} (R : Rel size mayFail s xs w used free items)
    (hw : Watched (Fifo size mayFail) [] h xs w) (pc : s.enq = .leave r) :
    Follows size mayFail h [.ret .producer (.flag r)]
      { s with q := { s.q with enqueuing := false }, enq := .idle } := by
  have hp := R.producer
  have g := R.good
  rw [pc] at hp g
  refine ⟨xs, _, hw.ret hp.of_leave, used, free, items, R.fault, g.leaveEnq, R.list, ?_, ?_⟩
  · rw [Function.update_self]
    exact .idle
  · rw [Function.update_of_ne (by decide)]
    exact R.consumer

theorem leaveDeq {r : Ret α} (R : Rel size mayFail s xs w used free items)
    (hw : Watched (Fifo size mayFail) [] h xs w) (pc : s.deq = .leave r) :
    Follows size mayFail h [.ret .consumer r]
      { s with q := { s.q with dequeuing := false }, deq := .idle } := by
  have hc := R.consumer
  have g := R.good
  rw [pc] at hc g
  refine ⟨xs, _, hw.ret hc.of_leave, used, free, items, R.fault, g.leaveDeq, R.list, ?_, ?_⟩
  · rw [Function.update_of_ne (by decide)]
    exact R.producer
  · rw [Function.update_self]
    exact .idle

theorem step {maxBlockSize : Nat} {s' : State α} {a : Act α}
    (R : Rel size mayFail s xs w used free items)
    (hw : Watched (Fifo size mayFail) [] h xs w) (hm : a = .enq false → mayFail)
    (hs : Moodycamel.step maxBlockSize s a = some s') : Follows size mayFail h (report s a) s' := by
  cases stepped R.good R.fault hs with
  | callEnqueue idle => exact R.callEnqueue hw idle
  | callDequeue idle => exact R.callDequeue hw idle
  | @enq malloc x q' pc' arg _ out =>
    have hrep : report s (.enq malloc) = [] := by
      cases hpc : s.enq with
      | leave r =>
        rw [hpc] at arg
        cases arg
      | _ => rw [report, hpc]
    rw [hrep]
    exact R.enq hw (fun h0 => hm (by rw [h0])) arg out
  | @leaveEnq malloc r pc =>
    rw [show report s (.enq malloc) = [.ret .producer (.flag r)] by rw [report, pc]]
    exact R.leaveEnq hw pc
  | @deq op q' pc' op_eq _ out =>
    have hrep : report s .deq = [] := by
      cases hpc : s.deq with
      | leave r =>
        rw [hpc] at op_eq
        cases op_eq
      | _ => rw [report, hpc]
    rw [hrep]
    exact R.deq hw op_eq out
  | @leaveDeq r pc =>
    rw [show report s .deq = [.ret .consumer r] by rw [report, pc]]
    exact R.leaveDeq hw pc

end Rel

/-- The list that a run ends with is what the blocks hold. -/
theorem simulated {maxBlockSize size : UInt64} (hsz : Sizes maxBlockSize size) {mayFail : Prop}
    {L : List (Event Role (Op α) (Ret α))} {s : State α}
    (hL : Logged (step maxBlockSize.toNat) (fun _ a => a = .enq false → mayFail) report
      (State.init maxBlockSize size) L s) :
    ∃ xs w, (∃ used free items, Rel size.toNat mayFail s xs w used free items) ∧
      Atomic (Fifo size.toNat mayFail) [] L xs fun i => (w i).choose none := by
  obtain ⟨n, hg⟩ := good_new (α := α) hsz
  refine linearizable_of_sim
    (fun s xs w => ∃ used free items, Rel size.toNat mayFail s xs w used free items)
    ⟨_, _, _, rfl, hg, rfl, .idle, .idle⟩ ?_ hL
  rintro s a s' h xs w hw ⟨used, free, items, R⟩ hp hs
  exact R.step hw hp hs

/-- **Linearizability.** Any interleaving of a producer and a consumer makes calls and returns that
a list makes on which each call acts at one moment. -/
theorem linearizable {maxBlockSize size : UInt64} (hsz : Sizes maxBlockSize size) {mayFail : Prop}
    {L : List (Event Role (Op α) (Ret α))} {s : State α}
    (hL : Logged (step maxBlockSize.toNat) (fun _ a => a = .enq false → mayFail) report
      (State.init maxBlockSize size) L s) :
    ∃ xs st, Atomic (Fifo size.toNat mayFail) [] L xs st := by
  obtain ⟨xs, w, -, hat⟩ := simulated hsz hL
  exact ⟨xs, _, hat⟩

/-- A dequeue that looks at `tail` before the enqueue stores it finds nothing, the next one the
element. -/
theorem linearizable_overlap : ∃ L : List (Event Role (Op Nat) (Ret Nat)),
    L = [.call .producer (.enqueue .canAlloc 7), .call .consumer (.dequeue .tryDequeue),
      .ret .consumer (.elem none), .ret .producer (.flag true), .call .consumer (.dequeue .tryDequeue),
      .ret .consumer (.elem (some 7))] ∧
    ∃ xs st, Atomic (Fifo 2 False) [] L xs st := by
  obtain ⟨s, hs⟩ := Option.isSome_iff_exists.1 (show (run (step 4) (State.init 4 2 : State Nat)
    [.call (.enqueue .canAlloc 7), .enq true, .call (.dequeue .tryDequeue), .deq, .enq true, .deq,
      .enq true, .deq, .deq, .enq true, .call (.dequeue .tryDequeue), .deq, .deq, .deq, .deq,
      .deq]).isSome from rfl)
  exact ⟨_, rfl, linearizable sizes_four_two (Logged.of_run _ hs (by decide))⟩

end Moodycamel
