import NetworkPoller.Queue.Proof.Walk

/-!
# Room and memory

A queue made for `size` elements allocates nothing and refuses nothing while fewer are in it.
Whatever happens, the room it keeps is bounded by the largest number of elements it has held: blocks
are used again, and a new one is made only when all the others but the first are full.
-/

namespace Moodycamel

open Queue Linear Runs

variable {α : Type} {size : Nat} {q : Queue α} {enq : EnqPc α} {deq : DeqPc α}
  {used free free' : List BlockId} {items : BlockId → List α}

/-- Only an access that has found the queue full makes a block. -/
theorem EnqPc.step_made {maxBlockSize : Nat} {malloc : Bool} {q' : Queue α} {pc pc' : EnqPc α}
    (h : pc.step maxBlockSize malloc q = .ok (q', pc')) (hpc : ¬ pc.FoundFull free) :
    q'.made = q.made := by
  cases pc with
  | makeBlock => exact absurd trivial hpc
  | checkNext mode x b => cases mode <;> grind [EnqPc.step]
  | _ => grind [EnqPc.step, Queue.construct, Except.map, Queue.upd]

theorem DeqOutcome.made {op : DeqOp} {q' : Queue α} {pc pc' : DeqPc α}
    (h : DeqOutcome size q enq pc used free items op q' pc') : q'.made = q.made := by
  cases h with
  | quiet _ step => exact step.made
  | taken _ step => exact step.made
  | looked => rfl
  | nothing => rfl

/-- An enqueue that returns `false` was about to. -/
theorem leave_of_report {s : State α} {a : Act α} (h : .ret .producer (.flag false) ∈ report s a) :
    s.enq = .leave false := by
  cases a with
  | call op => cases op <;> simp [report] at h
  | enq malloc =>
    cases hpc : s.enq with
    | leave r =>
      rw [report, hpc, List.mem_singleton] at h
      cases h
      rfl
    | _ =>
      rw [report, hpc] at h
      cases h
  | deq =>
    cases hpc : s.deq with
    | leave r =>
      rw [report, hpc, List.mem_singleton] at h
      cases h
    | _ =>
      rw [report, hpc] at h
      cases h

/-- What a step does to the room, and why a call finds the queue full. -/
structure Roomed (s s' : State α) (used free : List BlockId) (items : BlockId → List α)
    (used' free' : List BlockId) : Prop where
  full : s'.enq.FoundFull free' → s.enq.FoundFull free ∨ free = [] ∧ s.q.Crowded used items
  refused : s'.enq = .leave false → s.enq = .leave false ∨ s.enq.FoundFull free
  room : s'.q.room (used' ++ free') = s.q.room (used ++ free) ∨
    s.enq.FoundFull free ∧ ¬ s'.enq.FoundFull free' ∧
      s'.q.room (used' ++ free') + 1 = s.q.room (used ++ free) + s.q.largestBlockSize

theorem ConsumerStep.roomed {s : State α} {q' : Queue α} {pc' : DeqPc α} {used' : List BlockId}
    {items' : BlockId → List α} (h : ConsumerStep s.q q' used used' free free' items items') :
    Roomed s { s with q := q', deq := pc' } used free items used' free' :=
  ⟨fun hf => .inl (hf.mono h.free_le), .inl,
    .inl ((room_perm h.perm).trans (room_congr fun b _ => h.size b))⟩

theorem Stepped.roomed {maxBlockSize : Nat} {s s' : State α} {a : Act α}
    (h : Stepped maxBlockSize size s used free items a s')
    (g : Good size s.q s.enq s.deq used free items) :
    ∃ used' free' items', Good size s'.q s'.enq s'.deq used' free' items' ∧
      Roomed s s' used free items used' free' := by
  cases h with
  | callEnqueue idle => exact ⟨_, _, _, (idle ▸ g).callEnqueue, False.elim, nofun, .inl rfl⟩
  | callDequeue idle => exact ⟨_, _, _, (idle ▸ g).callDequeue, .inl, .inl, .inl rfl⟩
  | leaveEnq pc => exact ⟨_, _, _, (pc ▸ g).leaveEnq, False.elim, nofun, .inl rfl⟩
  | leaveDeq pc => exact ⟨_, _, _, (pc ▸ g).leaveDeq, .inl, .inl, .inl rfl⟩
  | @enq _ _ _ pc' _ _ out =>
    cases out with
    | quiet good _ arg _ why room =>
      refine ⟨_, _, _, good, why, fun hl => ?_, room⟩
      obtain rfl : pc' = .leave false := hl
      cases arg
    | pushed good _ _ room => exact ⟨_, _, _, good, False.elim, nofun, .inl room⟩
    | refused good why _ => exact ⟨_, _, _, good, False.elim, fun _ => .inr why, .inl rfl⟩
  | deq _ _ out =>
    cases out with
    | quiet good step => exact ⟨_, _, _, good, step.roomed⟩
    | taken good step => exact ⟨_, _, _, good, step.roomed⟩
    | looked good => exact ⟨_, _, _, good, ConsumerStep.same.roomed⟩
    | nothing good => exact ⟨_, _, _, good, ConsumerStep.same.roomed⟩

section

variable {max sz : UInt64} {s : State α}

/-- At most as many elements are in the queue as `size_approx` counts. -/
theorem length_le_sizeApprox {n : Nat} (hsz : Sizes max sz) {P : State α → Act α → Prop}
    (hr : Reach (step max.toNat) P (State.init max sz) s)
    (g : Good sz.toNat s.q s.enq s.deq used free items) (hn : s.q.sizeApprox = some n) :
    (used.flatMap items).length ≤ n := by
  rw [g.sizeApprox (largest_le hsz hr), Option.some.injEq] at hn
  omega

/-- A call that finds the queue full finds `size` elements in it. -/
theorem le_of_full {n : Nat} (hsz : Sizes max sz) {P : State α → Act α → Prop}
    (hr : Reach (step max.toNat) P (State.init max sz) s)
    (g : Good sz.toNat s.q s.enq s.deq used free items) (hn : s.q.sizeApprox = some n)
    (hfree : free = [])
    (hc : s.q.Crowded used items) : sz.toNat ≤ n :=
  Nat.le_trans (g.size_le_of_crowded hfree hc) (length_le_sizeApprox hsz hr g hn)

/-- No call has found the queue full. -/
def Ample (max sz : UInt64) (s : State α) : Prop :=
  ∃ used free items, Good sz.toNat s.q s.enq s.deq used free items ∧ ¬ s.enq.FoundFull free ∧
    s.enq ≠ .leave false ∧ s.q.made = (initialBlocks max sz).2.toNat

theorem ample_step (hsz : Sizes max sz) {P : State α → Act α → Prop} {s' : State α} {a : Act α}
    (hr : Reach (step max.toNat) P (State.init max sz) s) (h : Ample max sz s)
    (hlt : ∀ n ∈ s.q.sizeApprox, n < sz.toNat) (hs : step max.toNat s a = some s') :
    Ample max sz s' := by
  obtain ⟨used, free, items, g, hfull, hleave, hmade⟩ := h
  have hst := stepped g (reach_sound hsz hr).1 hs
  obtain ⟨used', free', items', g', hroom⟩ := hst.roomed g
  refine ⟨used', free', items', g', fun hf' => ?_, fun hl' => ?_, ?_⟩
  · rcases hroom.full hf' with hf | ⟨hfree, hc⟩
    · exact hfull hf
    · obtain ⟨n, hn⟩ : ∃ n, s.q.sizeApprox = some n := ⟨_, by rw [Queue.sizeApprox, g.blocks]; rfl⟩
      exact absurd (le_of_full hsz hr g hn hfree hc) (Nat.not_le.2 (hlt n hn))
  · rcases hroom.refused hl' with hl | hf
    · exact hleave hl
    · exact hfull hf
  · cases hst with
    | callEnqueue => exact hmade
    | callDequeue => exact hmade
    | enq _ eq _ => exact (EnqPc.step_made eq hfull).trans hmade
    | leaveEnq => exact hmade
    | deq _ _ out => exact out.made.trans hmade
    | leaveDeq => exact hmade

/-- **No allocation, no refusal.** As long as fewer than `size` elements are in the queue, no block
is made and no enqueue fails. -/
theorem no_alloc (hsz : Sizes max sz) {L : List (Event Role (Op α) (Ret α))}
    (hL : Logged (step max.toNat) (fun s _ => ∀ n ∈ s.q.sizeApprox, n < sz.toNat) report
      (State.init max sz) L s) :
    s.q.made = (initialBlocks max sz).2.toNat ∧ .ret .producer (.flag false) ∉ L := by
  have hinv : Ample max sz s ∧ .ret .producer (.flag false) ∉ L := by
    refine hL.inv (I := fun L s => Ample max sz s ∧ .ret .producer (.flag false) ∉ L) ?_ ?_
    · obtain ⟨n, hg⟩ := good_new (α := α) hsz
      exact ⟨⟨_, _, _, hg, id, nofun, rfl⟩, List.not_mem_nil⟩
    · rintro L s a s' hr ⟨h, hL⟩ hlt hs
      refine ⟨ample_step hsz hr h hlt hs, fun hmem => ?_⟩
      rcases List.mem_append.1 hmem with hmem | hmem
      · exact hL hmem
      · obtain ⟨_, _, _, -, -, hleave, -⟩ := h
        exact hleave (leave_of_report hmem)
  obtain ⟨⟨_, _, _, -, -, -, hmade⟩, hL⟩ := hinv
  exact ⟨hmade, hL⟩

/-- One element added and taken. -/
theorem no_alloc_one : ∃ (L : List (Event Role (Op Nat) (Ret Nat))) (s : State Nat),
    L = [.call .producer (.enqueue .cannotAlloc 7), .ret .producer (.flag true),
      .call .consumer (.dequeue .pop), .ret .consumer (.flag true)] ∧
    s.q.made = 1 ∧ .ret .producer (.flag false) ∉ L := by
  obtain ⟨s, hs⟩ := Option.isSome_iff_exists.1 (show (run (step 4) (State.init 4 2 : State Nat)
    [.call (.enqueue .cannotAlloc 7), .enq true, .enq true, .enq true, .enq true,
      .call (.dequeue .pop), .deq, .deq, .deq, .deq, .deq]).isSome from rfl)
  exact ⟨_, s, rfl, no_alloc sizes_four_two (Logged.of_run _ hs (by decide))⟩

/-- The room is bounded, and the more so when a call has found the queue full. -/
def Bounded (N : Nat) (max sz : UInt64) (c₀ : Nat) (s : State α) : Prop :=
  ∃ used free items, Good sz.toNat s.q s.enq s.deq used free items ∧
    s.q.room (used ++ free) ≤ Nat.max c₀ (N + 4 * max.toNat) ∧
    (s.enq.FoundFull free → s.q.room (used ++ free) ≤ N + 2 * max.toNat)

theorem bounded_step {N c₀ : Nat} (hsz : Sizes max sz) {P : State α → Act α → Prop} {s' : State α}
    {a : Act α} (hr : Reach (step max.toNat) P (State.init max sz) s) (h : Bounded N max sz c₀ s)
    (hle : ∀ n ∈ s.q.sizeApprox, n ≤ N) (hs : step max.toNat s a = some s') :
    Bounded N max sz c₀ s' := by
  obtain ⟨used, free, items, g, hroom, hfull⟩ := h
  obtain ⟨used', free', items', g', hr'⟩ := (stepped g (reach_sound hsz hr).1 hs).roomed g
  have hlarge := reach_largest hsz hr
  refine ⟨used', free', items', g', ?_, fun hf' => ?_⟩
  · rcases hr'.room with he | ⟨hf, -, he⟩
    · rw [he]
      exact hroom
    · have := hfull hf
      exact Nat.le_trans (by omega) (Nat.le_max_right ..)
  · have hsame : s'.q.room (used' ++ free') = s.q.room (used ++ free) := by
      rcases hr'.room with he | ⟨-, hnf, -⟩
      · exact he
      · exact absurd hf' hnf
    rw [hsame]
    rcases hr'.full hf' with hf | ⟨hfree, hc⟩
    · exact hfull hf
    · -- all blocks but the first are full
      obtain ⟨n, hn⟩ : ∃ n, s.q.sizeApprox = some n := ⟨_, by rw [Queue.sizeApprox, g.blocks]; rfl⟩
      have h1 := length_le_sizeApprox hsz hr g hn
      have h2 := hle n hn
      have h3 : (s.q.heap s.q.frontBlock).size ≤ s.q.largestBlockSize :=
        g.reserve.largest _ (List.mem_append_left _ g.ring.front_mem)
      rw [Block.size] at h3
      rw [hfree, List.append_nil]
      unfold Crowded at hc
      split at hc <;> omega

/-- **Memory.** While at most `N` elements are in the queue at a time, its room stays below what it
was made with or `N` and four times the largest block, however long it runs. -/
theorem capacity_le {N : Nat} (hsz : Sizes max sz)
    (hr : Reach (step max.toNat) (fun s _ => ∀ n ∈ s.q.sizeApprox, n ≤ N) (State.init max sz) s) :
    ∃ c₀ c, (State.init max sz : State α).q.maxCapacity = some c₀ ∧ s.q.maxCapacity = some c ∧
      c ≤ Nat.max c₀ (N + 4 * max.toNat) := by
  obtain ⟨n, hg⟩ := good_new (α := α) hsz
  have hinv : Bounded N max sz
      ((new max sz : Queue α).room ([0] ++ (List.range n).map Nat.succ)) s := by
    refine hr.inv ?_ fun s a s' hr h hle hs => bounded_step hsz hr h hle hs
    exact ⟨_, _, _, hg, Nat.le_max_left .., False.elim⟩
  obtain ⟨used, free, items, g, hroom, -⟩ := hinv
  exact ⟨_, _, hg.maxCapacity, g.maxCapacity, hroom⟩

/-- Two elements in a queue made for one: a block is added. -/
theorem capacity_le_two : ∃ s : State Nat, s.q.made = 2 ∧
    ∃ c₀ c, (State.init 2 1 : State Nat).q.maxCapacity = some c₀ ∧ s.q.maxCapacity = some c ∧
      c ≤ Nat.max c₀ 10 := by
  have hsz : Sizes 2 1 := ⟨⟨0, rfl⟩, by decide, by decide, by decide⟩
  have hrun : (run (step 2) (State.init 2 1 : State Nat)
      [.call (.enqueue .canAlloc 7), .enq true, .enq true,
      .enq true, .enq true, .call (.enqueue .canAlloc 8), .enq true, .enq true, .enq true, .enq true,
      .enq true, .enq true, .enq true]).map (fun s => s.q.made) = some 2 := rfl
  obtain ⟨s, hs, hmade, hr⟩ := Reach.of_map (P := fun s _ => ∀ n ∈ s.q.sizeApprox, n ≤ 2) _ hrun
    (by decide)
  exact ⟨s, hmade, capacity_le hsz hr⟩

end

end Moodycamel
