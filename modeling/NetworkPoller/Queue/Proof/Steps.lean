import NetworkPoller.Lib.Progress
import NetworkPoller.Queue.Proof.Ctor
import NetworkPoller.Queue.Proof.Dequeue
import NetworkPoller.Queue.Proof.Enqueue

/-!
# The steps of the two sides

What a step of the queue does in a good state (`Stepped`), said once; the states that the queue
reaches are good, no assert fails there, and a call returns after a few accesses of its own whatever
the other side does.
-/

namespace Moodycamel

open Runs Progress

variable {α : Type}

variable {size maxBlockSize : Nat} {s s' : State α} {a : Act α} {used free : List BlockId}
  {items : BlockId → List α}

inductive Stepped (maxBlockSize size : Nat) (s : State α) (used free : List BlockId)
    (items : BlockId → List α) : Act α → State α → Prop
  | callEnqueue {mode x} (idle : s.enq = .idle) :
      Stepped maxBlockSize size s used free items (.call (.enqueue mode x))
        { s with enq := .enter mode x }
  | callDequeue {op} (idle : s.deq = .idle) :
      Stepped maxBlockSize size s used free items (.call (.dequeue op)) { s with deq := .enter op }
  | enq {malloc x q' pc'} (arg : s.enq.arg = some x)
      (eq : s.enq.step maxBlockSize malloc s.q = .ok (q', pc'))
      (out : EnqOutcome size malloc s.q s.enq s.deq used free items x q' pc') :
      Stepped maxBlockSize size s used free items (.enq malloc) { s with q := q', enq := pc' }
  | leaveEnq {malloc r} (pc : s.enq = .leave r) :
      Stepped maxBlockSize size s used free items (.enq malloc)
        { s with q := { s.q with enqueuing := false }, enq := .idle }
  | deq {op q' pc'} (op_eq : s.deq.op = some op) (eq : s.deq.step s.q = .ok (q', pc'))
      (out : DeqOutcome size s.q s.enq s.deq used free items op q' pc') :
      Stepped maxBlockSize size s used free items .deq { s with q := q', deq := pc' }
  | leaveDeq {r} (pc : s.deq = .leave r) :
      Stepped maxBlockSize size s used free items .deq
        { s with q := { s.q with dequeuing := false }, deq := .idle }

theorem EnqPc.cases_arg (pc : EnqPc α) : pc = .idle ∨ (∃ r, pc = .leave r) ∨ ∃ x, pc.arg = some x := by
  cases pc with
  | idle => exact .inl rfl
  | leave r => exact .inr (.inl ⟨r, rfl⟩)
  | _ => exact .inr (.inr ⟨_, rfl⟩)

theorem DeqPc.cases_op (pc : DeqPc α) : pc = .idle ∨ (∃ r, pc = .leave r) ∨ ∃ op, pc.op = some op := by
  cases pc with
  | idle => exact .inl rfl
  | leave r => exact .inr (.inl ⟨r, rfl⟩)
  | _ => exact .inr (.inr ⟨_, rfl⟩)

theorem step_enq (hf : s.fault = none) (hpc : s.enq ≠ .idle) (malloc : Bool) :
    step maxBlockSize s (.enq malloc) = match s.enq.step maxBlockSize malloc s.q with
      | .ok (q, pc') => some { s with q := q, enq := pc' }
      | .error f => some { s with fault := some f } := by
  rw [step, if_neg (not_not.2 hf)]
  split
  · exact absurd ‹_› hpc
  · rfl

theorem step_deq (hf : s.fault = none) (hpc : s.deq ≠ .idle) :
    step maxBlockSize s .deq = match s.deq.step s.q with
      | .ok (q, pc') => some { s with q := q, deq := pc' }
      | .error f => some { s with fault := some f } := by
  rw [step, if_neg (not_not.2 hf)]
  split
  · exact absurd ‹_› hpc
  · rfl

theorem stepped (g : Good size s.q s.enq s.deq used free items) (hf : s.fault = none)
    (h : step maxBlockSize s a = some s') : Stepped maxBlockSize size s used free items a s' := by
  cases a with
  | call op =>
    cases op with
    | enqueue mode x =>
      rw [step, if_neg (not_not.2 hf)] at h
      split at h
      · cases h
        exact .callEnqueue ‹_›
      · cases h
    | dequeue op =>
      rw [step, if_neg (not_not.2 hf)] at h
      split at h
      · cases h
        exact .callDequeue ‹_›
      · cases h
  | enq malloc =>
    rcases s.enq.cases_arg with hidle | ⟨r, hr⟩ | ⟨x, hx⟩
    · rw [step, if_neg (not_not.2 hf), hidle] at h
      cases h
    · rw [step_enq hf (by rw [hr]; exact nofun), hr] at h
      cases h
      exact .leaveEnq hr
    · obtain ⟨q', pc', hstep, hout⟩ := g.enq_step maxBlockSize malloc hx
      rw [step_enq hf (fun h0 => by rw [h0] at hx; cases hx), hstep] at h
      cases h
      exact .enq hx hstep hout
  | deq =>
    rcases s.deq.cases_op with hidle | ⟨r, hr⟩ | ⟨op, hop⟩
    · rw [step, if_neg (not_not.2 hf), hidle] at h
      cases h
    · rw [step_deq hf (by rw [hr]; exact nofun), hr] at h
      cases h
      exact .leaveDeq hr
    · obtain ⟨q', pc', hstep, hout⟩ := g.deq_step hop
      rw [step_deq hf (fun h0 => by rw [h0] at hop; cases hop), hstep] at h
      cases h
      exact .deq hop hstep hout

/-! ## Reachable states -/

theorem EnqOutcome.good {malloc : Bool} {q q' : Queue α} {pc pc' : EnqPc α} {deq : DeqPc α} {x : α}
    (h : EnqOutcome size malloc q pc deq used free items x q' pc') :
    ∃ used' free' items', Good size q' pc' deq used' free' items' := by
  cases h with
  | quiet good => exact ⟨_, _, _, good⟩
  | pushed good => exact ⟨_, _, _, good⟩
  | refused good => exact ⟨_, _, _, good⟩

theorem DeqOutcome.good {q q' : Queue α} {enq : EnqPc α} {pc pc' : DeqPc α} {op : DeqOp}
    (h : DeqOutcome size q enq pc used free items op q' pc') :
    ∃ used' free' items', Good size q' enq pc' used' free' items' := by
  cases h with
  | quiet good => exact ⟨_, _, _, good⟩
  | taken good => exact ⟨_, _, _, good⟩
  | looked good => exact ⟨_, _, _, good⟩
  | nothing good => exact ⟨_, _, _, good⟩

/-- No assert has failed, and the invariant holds. -/
def State.Sound (size : Nat) (s : State α) : Prop :=
  s.fault = none ∧ ∃ used free items, Good size s.q s.enq s.deq used free items

theorem Stepped.sound (h : Stepped maxBlockSize size s used free items a s')
    (g : Good size s.q s.enq s.deq used free items) (hf : s.fault = none) : s'.Sound size := by
  cases h with
  | callEnqueue idle => exact ⟨hf, _, _, _, (idle ▸ g).callEnqueue⟩
  | callDequeue idle => exact ⟨hf, _, _, _, (idle ▸ g).callDequeue⟩
  | enq _ _ out => exact ⟨hf, out.good⟩
  | leaveEnq pc => exact ⟨hf, _, _, _, (pc ▸ g).leaveEnq⟩
  | deq _ _ out => exact ⟨hf, out.good⟩
  | leaveDeq pc => exact ⟨hf, _, _, _, (pc ▸ g).leaveDeq⟩

theorem State.Sound.step (h : s.Sound size) (hs : step maxBlockSize s a = some s') :
    s'.Sound size ∧ ∃ used free items, Stepped maxBlockSize size s used free items a s' := by
  obtain ⟨hf, used, free, items, g⟩ := h
  have hst := stepped g hf hs
  exact ⟨hst.sound g hf, used, free, items, hst⟩

theorem sound_init {max sz : UInt64} (hsz : Sizes max sz) :
    (State.init max sz : State α).Sound sz.toNat := by
  obtain ⟨n, hg⟩ := good_new (α := α) hsz
  exact ⟨rfl, _, _, _, hg⟩

theorem reach_sound {max sz : UInt64} (hsz : Sizes max sz) {P : State α → Act α → Prop}
    (hr : Reach (step max.toNat) P (State.init max sz) s) : s.Sound sz.toNat :=
  hr.inv (sound_init hsz) fun _ _ _ _ h _ hs => (h.step hs).1

/-! ## Every call returns -/

/-- The number of accesses that are left at most, with the return. -/
def EnqPc.rank : EnqPc α → Nat
  | .idle => 0
  | .leave _ => 1
  | .storeTail .. | .storeTailBlock .. => 2
  | .construct .. | .storeNextTail .. | .linkBlock .. => 3
  | .constructNext .. | .makeBlock .. => 4
  | .loadNext .. => 5
  | .checkNext .. => 6
  | .loadFront .. => 7
  | .enter .. => 8

def DeqPc.rank : DeqPc α → Nat
  | .idle => 0
  | .leave _ => 1
  | .storeFront .. | .peekNext .. => 2
  | .take .. => 3
  | .storeFrontBlock .. => 4
  | .loadNextTail .. => 5
  | .loadNext .. => 6
  | .reload _ => 7
  | .checkTailBlock .. => 8
  | .loadTail .. => 9
  | .enter _ => 10

def Act.isEnq : Act α → Bool
  | .enq _ => true
  | _ => false

def Act.isDeq : Act α → Bool
  | .deq => true
  | _ => false

theorem EnqPc.step_rank {malloc : Bool} {q q' : Queue α} {pc pc' : EnqPc α} (hpc : pc ≠ .idle)
    (h : pc.step maxBlockSize malloc q = .ok (q', pc')) : pc'.rank < pc.rank := by
  cases pc with
  | idle => exact absurd rfl hpc
  | checkNext mode x b => cases mode <;> grind [EnqPc.step, EnqPc.rank]
  | _ => grind [EnqPc.step, EnqPc.rank, Queue.construct, Except.map]

theorem DeqPc.step_rank {q q' : Queue α} {pc pc' : DeqPc α} (hpc : pc ≠ .idle)
    (h : pc.step q = .ok (q', pc')) : pc'.rank < pc.rank := by
  cases pc with
  | idle => exact absurd rfl hpc
  | take op b bf => cases op <;> grind [DeqPc.step, DeqPc.rank]
  | loadNextTail op nb => cases op <;> grind [DeqPc.step, DeqPc.rank]
  | _ => grind [DeqPc.step, DeqPc.rank]

/-- An access lowers the rank of its own side and leaves that of the other. -/
theorem Stepped.enq_rank (h : Stepped maxBlockSize size s used free items a s')
    (hbusy : s.enq ≠ .idle) :
    if a.isEnq then s'.enq.rank < s.enq.rank else s'.enq.rank = s.enq.rank := by
  cases h with
  | callEnqueue idle => exact absurd idle hbusy
  | callDequeue => rfl
  | enq _ eq _ => exact EnqPc.step_rank hbusy eq
  | leaveEnq pc =>
    show 0 < s.enq.rank
    rw [pc]
    exact Nat.one_pos
  | deq => rfl
  | leaveDeq => rfl

theorem Stepped.deq_rank (h : Stepped maxBlockSize size s used free items a s')
    (hbusy : s.deq ≠ .idle) :
    if a.isDeq then s'.deq.rank < s.deq.rank else s'.deq.rank = s.deq.rank := by
  cases h with
  | callEnqueue => rfl
  | callDequeue idle => exact absurd idle hbusy
  | enq => rfl
  | leaveEnq => rfl
  | deq _ eq _ => exact DeqPc.step_rank hbusy eq
  | leaveDeq pc =>
    show 0 < s.deq.rank
    rw [pc]
    exact Nat.one_pos

theorem EnqPc.rank_le (pc : EnqPc α) : pc.rank ≤ 8 := by
  cases pc <;> simp [EnqPc.rank]

theorem DeqPc.rank_le (pc : DeqPc α) : pc.rank ≤ 10 := by
  cases pc <;> simp [DeqPc.rank]

theorem EnqPc.idle_of_rank {pc : EnqPc α} (h : pc.rank = 0) : pc = .idle := by
  cases pc with
  | idle => rfl
  | _ => cases h

theorem DeqPc.idle_of_rank {pc : DeqPc α} (h : pc.rank = 0) : pc = .idle := by
  cases pc with
  | idle => rfl
  | _ => cases h

theorem enq_within {as : List (Act α)} (h : s.Sound size)
    (hrun : run (step maxBlockSize) s as = some s') (hn : 8 ≤ as.countP Act.isEnq) :
    Within (step maxBlockSize) (fun t => t.enq = .idle) Act.isEnq 8 s as := by
  refine (within_of_rank (fun t => t.enq.rank) (fun _ _ _ ht hs => (State.Sound.step ht hs).1)
    (fun _ _ h0 => EnqPc.idle_of_rank h0) ?_ ?_ as h hrun (Nat.le_trans s.enq.rank_le hn)).mono
    s.enq.rank_le
  · intro t a t' ht hd hm hs
    obtain ⟨-, _, _, _, hst⟩ := ht.step hs
    have := hst.enq_rank hd
    rwa [if_pos hm] at this
  · intro t a t' ht hd hm hs
    obtain ⟨-, _, _, _, hst⟩ := ht.step hs
    have := hst.enq_rank hd
    rw [hm, if_neg Bool.false_ne_true] at this
    exact Nat.le_of_eq this

theorem deq_within {as : List (Act α)} (h : s.Sound size)
    (hrun : run (step maxBlockSize) s as = some s') (hn : 10 ≤ as.countP Act.isDeq) :
    Within (step maxBlockSize) (fun t => t.deq = .idle) Act.isDeq 10 s as := by
  refine (within_of_rank (fun t => t.deq.rank) (fun _ _ _ ht hs => (State.Sound.step ht hs).1)
    (fun _ _ h0 => DeqPc.idle_of_rank h0) ?_ ?_ as h hrun (Nat.le_trans s.deq.rank_le hn)).mono
    s.deq.rank_le
  · intro t a t' ht hd hm hs
    obtain ⟨-, _, _, _, hst⟩ := ht.step hs
    have := hst.deq_rank hd
    rwa [if_pos hm] at this
  · intro t a t' ht hd hm hs
    obtain ⟨-, _, _, _, hst⟩ := ht.step hs
    have := hst.deq_rank hd
    rw [hm, if_neg Bool.false_ne_true] at this
    exact Nat.le_of_eq this

/-- **Wait-freedom.** In every reachable state no assert has failed and a call in progress can go
on. It is over by its eighth access if it enqueues, by its tenth if it dequeues, whatever the other
side does between them. -/
theorem wait_free {max sz : UInt64} (hsz : Sizes max sz) {P : State α → Act α → Prop}
    {as : List (Act α)} (hr : Reach (step max.toNat) P (State.init max sz) s)
    (hrun : run (step max.toNat) s as = some s') :
    s.fault = none ∧ (s.enq ≠ .idle → ∀ m, (step max.toNat s (.enq m)).isSome) ∧
      (s.deq ≠ .idle → (step max.toNat s .deq).isSome) ∧
      (8 ≤ as.countP Act.isEnq → Within (step max.toNat) (fun t => t.enq = .idle) Act.isEnq 8 s as) ∧
      (10 ≤ as.countP Act.isDeq →
        Within (step max.toNat) (fun t => t.deq = .idle) Act.isDeq 10 s as) := by
  have h := reach_sound hsz hr
  refine ⟨h.1, fun hne m => ?_, fun hne => ?_, enq_within h hrun, deq_within h hrun⟩
  · rw [step_enq h.1 hne]
    split <;> rfl
  · rw [step_deq h.1 hne]
    split <;> rfl

/-- Two elements added one after the other. -/
theorem wait_free_two : ∃ (s : State Nat) (as : List (Act Nat)), 8 ≤ as.countP Act.isEnq ∧
    Within (step 4) (fun t => t.enq = .idle) Act.isEnq 8 s as := by
  have hrun : (run (step 4) (State.init 4 2 : State Nat) [.call (.enqueue .canAlloc 7), .enq true]).map
      (fun s => s.fault) = some none := rfl
  obtain ⟨s, hs, -, hr⟩ := Reach.of_map _ hrun (admits_of_forall (fun _ _ => trivial) _ _)
  obtain ⟨s', hs'⟩ := Option.isSome_iff_exists.1 (show (run (step 4) s
    [.enq true, .enq true, .enq true, .call (.enqueue .canAlloc 8), .enq true, .enq true, .enq true,
      .enq true, .call (.enqueue .canAlloc 9), .enq true]).isSome by
    cases hs
    rfl)
  exact ⟨s, _, by decide, (wait_free sizes_four_two hr hs').2.2.2.1 (by decide)⟩

end Moodycamel
