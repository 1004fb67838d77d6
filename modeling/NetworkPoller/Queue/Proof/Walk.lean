import NetworkPoller.Queue.Proof.Linearizable

/-!
# Walks over the blocks

`size_approx`, `max_capacity` and the destructor visit every block of the ring once. What they find:
the number of the elements, the room of the blocks, and the elements themselves, in order.
-/

namespace Moodycamel

open Queue Circular Linear Runs

variable {α : Type} {size : Nat} {q : Queue α} {enq : EnqPc α} {deq : DeqPc α}
  {used free : List BlockId} {items : BlockId → List α} {b : BlockId}

/-! ## The blocks visited -/

/-- From a block on, the walk visits the blocks behind it. -/
theorem Queue.Ring.walk {built ready : BlockId → List α} {taken : BlockId → Nat}
    (h : q.Ring built ready taken used free items) :
    ∀ {v u : List BlockId} {b : BlockId} {fuel : Nat}, used ++ free = u ++ b :: v → v.length < fuel →
      q.walk fuel b = some (b :: v) := by
  obtain ⟨rest, hused⟩ := h.used_cons
  intro v
  induction v with
  | nil =>
    intro u b fuel hids hf
    obtain ⟨fuel, rfl⟩ := Nat.exists_eq_succ_of_ne_zero (Nat.ne_zero_of_lt hf)
    have hl := h.linked
    rw [hids] at hl
    have hnext : (q.heap b).next = some q.frontBlock := by
      rw [hl.follows, List.nil_append, ← hids, hused]
      rfl
    rw [Queue.walk, hnext]
    exact if_pos rfl
  | cons c v ih =>
    intro u b fuel hids hf
    obtain ⟨fuel, rfl⟩ := Nat.exists_eq_succ_of_ne_zero (Nat.ne_zero_of_lt hf)
    have hl := h.linked
    have hn := h.nodup
    rw [hids] at hl hn
    have hnext : (q.heap b).next = some c := hl.follows
    have hids' : used ++ free = (u ++ [b]) ++ c :: v := by
      rw [hids, List.append_assoc, List.singleton_append]
    -- the first block is one of those already visited
    have hc : c ≠ q.frontBlock := by
      rintro rfl
      have hn' := h.nodup
      rw [hids', List.nodup_append] at hn'
      refine hn'.2.2 q.frontBlock ?_ q.frontBlock List.mem_cons_self rfl
      have hhead : (u ++ [b] ++ q.frontBlock :: v).head? = some q.frontBlock := by
        rw [← hids', hused]
        rfl
      rw [List.head?_append_of_ne_nil _ (by simp)] at hhead
      exact List.mem_of_mem_head? hhead
    rw [Queue.walk, hnext]
    simp only [if_neg hc]
    rw [ih hids' (Nat.lt_of_succ_lt_succ hf)]
    rfl

namespace Good

theorem blocks (g : Good size q enq deq used free items) : q.blocks = some (used ++ free) := by
  obtain ⟨rest, hused⟩ := g.ring.used_cons
  have hids : used ++ free = [] ++ q.frontBlock :: (rest ++ free) := by rw [hused]; rfl
  rw [Queue.blocks, g.ring.walk hids, hids, List.nil_append]
  have := g.made
  rw [hids, List.nil_append, List.length_cons] at this
  omega

theorem maxCapacity (g : Good size q enq deq used free items) :
    q.maxCapacity = some (q.room (used ++ free)) := by
  rw [Queue.maxCapacity, g.blocks]
  rfl

end Good

/-! ## The elements counted -/

/-- The difference of `tail` and `front` in `size_t`, masked, is the number of elements between
them. -/
theorem Block.Holds.count {xs e : List α} {d : Nat} (h : (q.heap b).Holds xs d e)
    (hs : (q.heap b).size ≤ 2 ^ 64) : q.count b = xs.length := by
  obtain ⟨k, hk⟩ := h.pow
  have hdvd : (q.heap b).size ∣ 2 ^ 64 := by
    rw [hk] at hs ⊢
    exact Nat.pow_dvd_pow 2 ((Nat.pow_le_pow_iff_right Nat.one_lt_two).1 hs)
  have hlen : xs.length < (q.heap b).size := Nat.lt_of_le_of_lt (Nat.le_add_right ..) h.room
  rw [Queue.count, h.and_mask, Nat.mod_mod_of_dvd _ hdvd]
  refine offset_inj (f := (q.heap b).front) (Nat.mod_lt _ h.pos) hlen ?_
  have hfront := h.front_lt
  obtain ⟨m, hm⟩ := hdvd
  rw [Nat.add_mod_mod, show (q.heap b).front + ((q.heap b).tail + 2 ^ 64 - (q.heap b).front) =
      (q.heap b).tail + 2 ^ 64 by omega, hm, Nat.add_mul_mod_self_left, ← h.tail_eq,
    Nat.mod_eq_of_lt h.tail_lt]

theorem Good.sizeApprox (g : Good size q enq deq used free items) (hl : q.largestBlockSize ≤ 2 ^ 64) :
    q.sizeApprox = some ((used.flatMap items).length + (free.flatMap items).length) := by
  have hcount : ∀ b ∈ used ++ free, q.count b = (items b).length := fun b hb =>
    (g.ring.holds b hb).count (Nat.le_trans (g.reserve.largest b hb) hl)
  rw [Queue.sizeApprox, g.blocks, ← List.length_append, ← List.flatMap_append, List.length_flatMap]
  exact congrArg some (congrArg List.sum (List.map_congr_left hcount))

/-! ## The elements destroyed -/

/-- The loop over a block, when the elements `ys` are left. -/
theorem Block.Holds.destroy {y : Block α} {xs : List α} (h : y.Holds xs 0 []) :
    ∀ (fuel : Nat) {n : Nat}, n ≤ xs.length → xs.length < n + fuel →
      Queue.destroy y fuel ((y.front + n) % y.size) = .ok (xs.drop n) := by
  intro fuel
  induction fuel with
  | zero => exact fun h1 h2 => absurd h2 (by omega)
  | succ fuel ih =>
    intro n hn hf
    have hroom : xs.length < y.size := h.room
    rw [Queue.destroy]
    by_cases hend : n = xs.length
    · rw [if_pos (by rw [hend, h.tail_eq]), hend, List.drop_length]
    · have hlt : n < xs.length := by omega
      have hne : (y.front + n) % y.size ≠ y.tail := by
        rw [h.tail_eq]
        exact fun he => hend (offset_inj (by omega) hroom he)
      have hdata : y.data ((y.front + n) % y.size) = some xs[n] := by
        rw [h.data_eq_zero, List.append_nil, layout_offset h.front_lt (by omega),
          List.getElem?_eq_getElem hlt]
      have hnext : ((y.front + n) % y.size + 1) &&& y.sizeMask = (y.front + (n + 1)) % y.size := by
        rw [h.and_mask, Nat.mod_add_mod, Nat.add_assoc]
      rw [if_neg hne]
      simp only [hdata]
      rw [hnext, ih hlt (by omega), List.drop_eq_getElem_cons hlt]
      rfl

theorem mapM_ok {β γ ε : Type} {f : β → Except ε γ} {g : β → γ} :
    ∀ {l : List β}, (∀ b ∈ l, f b = .ok (g b)) → l.mapM f = .ok (l.map g)
  | [], _ => rfl
  | b :: l, h => by
    rw [List.mapM_cons, h b List.mem_cons_self, mapM_ok fun c hc => h c (List.mem_cons_of_mem b hc)]
    rfl

/-- A queue that nobody uses any more. -/
theorem Good.dtor (g : Good size q .idle .idle used free items) :
    q.dtor = .ok (used.flatMap items, used ++ free) := by
  have hdes : ∀ b ∈ used ++ free,
      Queue.destroy (q.heap b) ((q.heap b).sizeMask + 1) (q.heap b).front = .ok (items b) := by
    intro b hb
    have hh : (q.heap b).Holds (items b) 0 [] := g.ring.holds b hb
    have hroom : (items b).length < (q.heap b).sizeMask + 1 := hh.room
    have hd := hh.destroy ((q.heap b).sizeMask + 1) (n := 0) (Nat.zero_le _) (by omega)
    rwa [Nat.add_zero (q.heap b).front, Nat.mod_eq_of_lt hh.front_lt, List.drop_zero] at hd
  have hfree : (free.map items).flatten = [] := by
    rw [List.flatten_eq_nil_iff]
    intro l hl
    obtain ⟨b, hb, rfl⟩ := List.mem_map.1 hl
    exact g.ring.spare b hb
  rw [Queue.dtor, g.blocks]
  simp only [mapM_ok hdes]
  rw [List.map_append]
  show Except.ok (((used.map items) ++ (free.map items)).flatten, used ++ free) = _
  rw [List.flatten_append, hfree, List.append_nil, List.flatMap_def]

/-! ## Blocks stay small -/

theorem EnqPc.step_largest {maxBlockSize : Nat} {malloc : Bool} {q' : Queue α} {pc pc' : EnqPc α}
    (h : pc.step maxBlockSize malloc q = .ok (q', pc')) :
    q'.largestBlockSize = q.largestBlockSize ∨
      q.largestBlockSize < maxBlockSize ∧ q'.largestBlockSize = q.largestBlockSize * 2 := by
  cases pc with
  | checkNext mode x b => cases mode <;> grind [EnqPc.step]
  | _ => grind [EnqPc.step, Queue.construct, Except.map, Queue.upd]

theorem DeqOutcome.largest {op : DeqOp} {q' : Queue α} {pc pc' : DeqPc α}
    (h : DeqOutcome size q enq pc used free items op q' pc') :
    q'.largestBlockSize = q.largestBlockSize := by
  cases h with
  | quiet _ step => exact step.largest
  | taken _ step => exact step.largest
  | looked => rfl
  | nothing => rfl

theorem Sizes.largest {max sz : UInt64} (h : Sizes max sz) :
    (initialBlocks max sz).1.toNat ≤ 2 * max.toNat := by
  unfold initialBlocks
  by_cases hbig : ceilToPow2 (sz + 1) > max * 2
  · rw [if_pos hbig]
    exact Nat.le_mul_of_pos_left _ Nat.two_pos
  · rw [if_neg hbig, Nat.mul_comm, ← h.toNat_dbl]
    exact UInt64.le_iff_toNat_le.1 (UInt64.not_lt.1 hbig)

theorem reach_largest {max sz : UInt64} (hsz : Sizes max sz) {P : State α → Act α → Prop} {s : State α}
    (hr : Reach (step max.toNat) P (State.init max sz) s) : s.q.largestBlockSize ≤ 2 * max.toNat := by
  refine hr.inv (I := fun s => s.q.largestBlockSize ≤ 2 * max.toNat) hsz.largest ?_
  intro s a s' hr hle _ hs
  obtain ⟨-, used, free, items, hst⟩ := (reach_sound hsz hr).step hs
  cases hst with
  | callEnqueue => exact hle
  | callDequeue => exact hle
  | @enq _ _ q' _ _ eq _ =>
    show q'.largestBlockSize ≤ 2 * max.toNat
    rcases EnqPc.step_largest eq with h1 | ⟨h1, h2⟩
    · exact h1 ▸ hle
    · omega
  | leaveEnq => exact hle
  | deq _ _ out => exact out.largest ▸ hle
  | leaveDeq => exact hle

theorem largest_le {max sz : UInt64} (hsz : Sizes max sz) {P : State α → Act α → Prop} {s : State α}
    (hr : Reach (step max.toNat) P (State.init max sz) s) : s.q.largestBlockSize ≤ 2 ^ 64 := by
  have hlarge := reach_largest hsz hr
  have hmax := hsz.max_le
  omega

/-- **At rest.** When both sides are outside, the elements of the list are those counted by
`size_approx` and, in order, those that the destructor would destroy; it frees every block ever
made, each one once. -/
theorem at_rest {max sz : UInt64} (hsz : Sizes max sz) {mayFail : Prop}
    {L : List (Event Role (Op α) (Ret α))} {s : State α}
    (hL : Logged (step max.toNat) (fun _ a => a = .enq false → mayFail) report (State.init max sz) L s)
    (he : s.enq = .idle) (hd : s.deq = .idle) :
    ∃ xs ids, Atomic (Fifo sz.toNat mayFail) [] L xs (fun _ => .idle) ∧
      s.q.sizeApprox = some xs.length ∧ s.q.dtor = .ok (xs, ids) ∧ ids.Perm (List.range s.q.made) := by
  obtain ⟨xs, w, ⟨used, free, items, R⟩, hat⟩ := simulated hsz hL
  have g := R.good
  have hp := R.producer
  have hc := R.consumer
  rw [he] at hp g
  rw [hd] at hc g
  have hst : (fun i => (w i).choose none) = fun _ => Status.idle := by
    funext i
    cases i with
    | producer => rw [hp.of_idle]; rfl
    | consumer => rw [hc.of_idle]; rfl
  refine ⟨xs, used ++ free, hst ▸ hat, ?_, ?_, ?_⟩
  · have hfree : free.flatMap items = [] := List.flatMap_eq_nil_iff.2 fun b hb => g.ring.spare b hb
    rw [g.sizeApprox (largest_le hsz hL.reach), R.list, hfree]
    rfl
  · rw [g.dtor, R.list]
  · have hmade : s.q.made = (used ++ free).length := g.made
    rw [hmade]
    refine (List.subperm_of_subset g.ring.nodup fun b hb => ?_).perm_of_length_le ?_
    · exact List.mem_range.2 (hmade ▸ g.ring.made b hb)
    · rw [List.length_range]

/-- Two elements added, one taken. -/
theorem at_rest_one : ∃ (L : List (Event Role (Op Nat) (Ret Nat))) (s : State Nat),
    L = [.call .producer (.enqueue .canAlloc 7), .ret .producer (.flag true),
      .call .producer (.enqueue .canAlloc 8), .ret .producer (.flag true),
      .call .consumer (.dequeue .tryDequeue), .ret .consumer (.elem (some 7))] ∧
    ∃ xs ids, Atomic (Fifo 2 False) [] L xs (fun _ => .idle) ∧
      s.q.sizeApprox = some xs.length ∧ s.q.dtor = .ok (xs, ids) ∧ ids.Perm (List.range s.q.made) := by
  have hrun : (run (step 4) (State.init 4 2 : State Nat)
      [.call (.enqueue .canAlloc 7), .enq true, .enq true,
      .enq true, .enq true, .call (.enqueue .canAlloc 8), .enq true, .enq true, .enq true, .enq true,
      .call (.dequeue .tryDequeue), .deq, .deq, .deq, .deq, .deq]).map (fun s => (s.enq, s.deq)) =
      some (.idle, .idle) := rfl
  obtain ⟨s, hs, hidle⟩ := Option.map_eq_some_iff.1 hrun
  exact ⟨_, s, rfl, at_rest sizes_four_two (Logged.of_run _ hs (by decide)) (congrArg Prod.fst hidle)
    (congrArg Prod.snd hidle)⟩

end Moodycamel
