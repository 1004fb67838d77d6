import NetworkPoller.Queue.Proof.Invariant

/-!
# The accesses of the consumer

What each access of `try_dequeue`, `pop` and `peek` does, one lemma per program counter.
`DeqOutcome` says what it means for the elements in the queue: nothing, or the first one is taken,
or the call ends with a look at the first one or without effect.
-/

namespace Moodycamel

open Queue

variable {α : Type}

def DeqPc.op : DeqPc α → Option DeqOp
  | .idle | .leave _ => none
  | .enter op | .loadTail op .. | .take op .. | .storeFront op .. | .checkTailBlock op _ | .reload op
  | .loadNext op _ | .loadNextTail op _ | .storeFrontBlock op .. => some op
  | .peekNext .. => some .peek

/-- The call ends without effect unless `tailBlock` has moved on. -/
def DeqPc.SeesNone (used : List BlockId) : DeqPc α → Prop
  | .checkTailBlock .. => used.length = 1
  | _ => False

inductive DeqOutcome (size : Nat) (q : Queue α) (enq : EnqPc α) (pc : DeqPc α)
    (used free : List BlockId) (items : BlockId → List α) (op : DeqOp) : Queue α → DeqPc α → Prop
  | quiet {q' pc' used' free'} (good : Good size q' enq pc' used' free' items)
      (step : ConsumerStep q q' used used' free free' items items)
      (same : used'.flatMap items = used.flatMap items) (op_eq : pc'.op = some op)
      (why : pc'.SeesNone used' → pc.SeesNone used ∨ used.flatMap items = []) :
      DeqOutcome size q enq pc used free items op q' pc'
  | taken {q' x items'} (good : Good size q' enq (.leave (op.found x)) used free items')
      (step : ConsumerStep q q' used used free free items items') (takes : op ≠ .peek)
      (removed : used.flatMap items = x :: used.flatMap items') :
      DeqOutcome size q enq pc used free items op q' (.leave (op.found x))
  | looked {x xs} (good : Good size q enq (.leave (op.found x)) used free items) (looks : op = .peek)
      (first : used.flatMap items = x :: xs) :
      DeqOutcome size q enq pc used free items op q (.leave (op.found x))
  | nothing (good : Good size q enq (.leave op.nothing) used free items) (why : pc.SeesNone used) :
      DeqOutcome size q enq pc used free items op q (.leave op.nothing)

variable {size : Nat} {q : Queue α} {enq : EnqPc α} {deq : DeqPc α} {used free : List BlockId}
  {items items' : BlockId → List α} {op : DeqOp} {b nb : BlockId} {x : α}

theorem ConsumerStep.upd {f : Block α → Block α} (hb : b ∈ used ++ free)
    (htail : (f (q.heap b)).tail = (q.heap b).tail)
    (hlocal : (f (q.heap b)).localFront = (q.heap b).localFront)
    (hnext : (f (q.heap b)).next = (q.heap b).next) (hsize : (f (q.heap b)).size = (q.heap b).size)
    (hi : used.length ≠ 1 → items' q.tailBlock = items q.tailBlock) :
    ConsumerStep q (q.upd b f) used used free free items items' :=
  ⟨rfl, rfl, rfl, rfl, upd_congr Block.tail htail, upd_congr Block.localFront hlocal,
    upd_congr Block.next hnext, upd_congr Block.size hsize,
    fun _ hb' => Function.update_of_ne (ne_of_mem_of_not_mem hb hb').symm .., .refl _, List.prefix_rfl,
    fun hl => ⟨hl, hi hl⟩⟩

theorem ConsumerStep.same : ConsumerStep q q used used free free items items :=
  ⟨rfl, rfl, rfl, rfl, fun _ => rfl, fun _ => rfl, fun _ => rfl, fun _ => rfl, fun _ _ => rfl, .refl _,
    List.prefix_rfl, fun hl => ⟨hl, rfl⟩⟩

namespace Good

theorem deq_enter (g : Good size q enq (.enter op) used free items) :
    ∃ q' pc', DeqPc.step q (.enter op) = .ok (q', pc') ∧
      DeqOutcome size q enq (.enter op) used free items op q' pc' := by
  have hidle : q.dequeuing = false := g.dequeuing
  have hs : ConsumerStep q { q with dequeuing := true } used used free free items items :=
    ⟨rfl, rfl, rfl, rfl, fun _ => rfl, fun _ => rfl, fun _ => rfl, fun _ => rfl, fun _ _ => rfl,
      .refl _, List.prefix_rfl, fun hl => ⟨hl, rfl⟩⟩
  have hr := g.ring.flags q.enqueuing true q.largestBlockSize
  by_cases hne : (q.heap q.frontBlock).front ≠ (q.heap q.frontBlock).localTail
  · refine ⟨{ q with dequeuing := true }, .take op q.frontBlock (q.heap q.frontBlock).front, ?_,
      .quiet (g.consumer hs hr ⟨rfl, rfl, hne⟩ rfl) hs rfl rfl False.elim⟩
    simp [DeqPc.step, hidle, hne]
  · refine ⟨{ q with dequeuing := true }, .loadTail op q.frontBlock (q.heap q.frontBlock).front, ?_,
      .quiet (g.consumer hs hr ⟨rfl, rfl⟩ rfl) hs rfl rfl False.elim⟩
    simp [DeqPc.step, hidle, hne]

/-- The consumer looks at `tail` of a block. -/
theorem loadTail_ring (g : Good size q enq deq used free items) (hb : b ∈ used ++ free)
    (hd : deq.taken b = 0) (hd' : ∀ b', b' ≠ b → deq.taken b' = 0) :
    (q.upd b fun y => { y with localTail := y.tail }).Ring enq.built enq.ready (fun _ => 0) used
      free items :=
  g.ring.touch _ _ (fun y => { y with localTail := y.tail }) hb rfl rfl
    (hd ▸ (g.ring.holds b hb).loadTail) fun b' hb' => ⟨(hd' b' hb').symm, rfl⟩

theorem deq_loadTail {bf : Nat} (g : Good size q enq (.loadTail op b bf) used free items) :
    ∃ q' pc', DeqPc.step q (.loadTail op b bf) = .ok (q', pc') ∧
      DeqOutcome size q enq (.loadTail op b bf) used free items op q' pc' := by
  obtain ⟨rfl, rfl⟩ := g.deqAt
  have hb : q.frontBlock ∈ used ++ free := List.mem_append_left _ g.ring.front_mem
  have hr := g.loadTail_ring hb rfl fun _ _ => rfl
  have hs : ConsumerStep q (q.upd q.frontBlock fun y => { y with localTail := y.tail }) used used
      free free items items := .upd hb rfl rfl rfl rfl fun _ => rfl
  have hq := upd_heap q q.frontBlock fun y => { y with localTail := y.tail }
  by_cases hne : (q.heap q.frontBlock).front = (q.heap q.frontBlock).tail
  · -- the first block is empty: so is the queue if it is the only one
    have hnil := g.ring.front_holds.front_eq_tail_iff.1 hne
    refine ⟨_, .checkTailBlock op q.frontBlock, ?_, .quiet (g.consumer hs hr rfl g.dequeuing) hs rfl
      rfl fun h1 => .inr ?_⟩
    · simp only [DeqPc.step, hq]
      rw [if_neg (not_not.2 hne)]
    · obtain ⟨rest, hr⟩ := g.ring.used_cons
      have h1' : used.length = 1 := h1
      rw [hr, List.length_cons] at h1'
      rw [hr, List.length_eq_zero_iff.1 (Nat.succ.inj h1'), List.flatMap_singleton, hnil]
  · refine ⟨_, .take op q.frontBlock (q.heap q.frontBlock).front, ?_,
      .quiet (g.consumer hs hr ⟨rfl, ?_, ?_⟩ g.dequeuing) hs rfl rfl False.elim⟩
    · simp only [DeqPc.step, hq]
      rw [if_pos hne]
    · rw [hq]
    · rw [hq]
      exact hne

/-- The first block holds the first element. -/
theorem flatMap_front {ys : List α} (g : Good size q enq deq used free items)
    (hx : items q.frontBlock = x :: ys) :
    used.flatMap items = x :: used.flatMap (Function.update items q.frontBlock ys) := by
  obtain ⟨rest, hr⟩ := g.ring.used_cons
  have hn := g.ring.used_nodup
  rw [hr] at hn ⊢
  exact flatMap_pop hn hx

theorem deq_take {bf : Nat} (g : Good size q enq (.take op b bf) used free items) :
    ∃ q' pc', DeqPc.step q (.take op b bf) = .ok (q', pc') ∧
      DeqOutcome size q enq (.take op b bf) used free items op q' pc' := by
  obtain ⟨rfl, rfl, hne⟩ := g.deqAt
  have hb : q.frontBlock ∈ used ++ free := List.mem_append_left _ g.ring.front_mem
  have hh := g.ring.front_holds
  obtain ⟨x, ys, hx⟩ := List.exists_cons_of_ne_nil (hh.ne_nil_of_seen hne)
  rw [hx] at hh
  have hdata := hh.data_front
  by_cases hop : op = .peek
  · subst hop
    refine ⟨q, .leave (DeqOp.peek.found x), ?_,
      .looked (g.consumer .same g.ring trivial g.dequeuing) rfl (g.flatMap_front hx)⟩
    simp only [DeqPc.step, hdata]
  · have hr := g.ring.touch enq.built (fun b' => if b' = q.frontBlock then 1 else 0)
      (fun y => { y with data := Function.update y.data (q.heap q.frontBlock).front none }) hb rfl rfl
      (by rw [hx, if_pos rfl]; exact hh.take hne) fun b' hb' => ⟨if_neg hb', rfl⟩
    have hs : ConsumerStep q (q.upd q.frontBlock fun y =>
        { y with data := Function.update y.data (q.heap q.frontBlock).front none }) used used free free
        items items := .upd hb rfl rfl rfl rfl fun _ => rfl
    refine ⟨_, .storeFront op x q.frontBlock
      (((q.heap q.frontBlock).front + 1) % (q.heap q.frontBlock).size), ?_,
      .quiet (g.consumer hs hr ⟨hop, rfl, ?_, ?_⟩ g.dequeuing) hs rfl rfl False.elim⟩
    · rw [← hh.and_mask]
      cases op with
      | peek => exact absurd rfl hop
      | tryDequeue | pop => simp only [DeqPc.step, hdata]
    · rw [upd_heap]
      rfl
    · rw [hx]
      exact List.prefix_append [x] ys

theorem deq_storeFront {bf : Nat} (g : Good size q enq (.storeFront op x b bf) used free items) :
    ∃ q' pc', DeqPc.step q (.storeFront op x b bf) = .ok (q', pc') ∧
      DeqOutcome size q enq (.storeFront op x b bf) used free items op q' pc' := by
  obtain ⟨hop, rfl, rfl, ys, hx⟩ := g.deqAt
  have hx : items q.frontBlock = x :: ys := hx.symm
  have hb : q.frontBlock ∈ used ++ free := List.mem_append_left _ g.ring.front_mem
  have hh := g.ring.front_holds
  rw [DeqPc.taken_storeFront, hx] at hh
  obtain ⟨rest, hrest⟩ := g.ring.used_cons
  have hnt : q.frontBlock ∉ used.tail := by
    have hn := g.ring.used_nodup
    rw [hrest] at hn ⊢
    exact (List.nodup_cons.1 hn).1
  have hr := g.ring.upd enq.built enq.ready (fun _ => 0) ys
    (fun y => { y with front := ((q.heap q.frontBlock).front + 1) % (q.heap q.frontBlock).size }) hb
    rfl rfl hh.pop (fun b' hb' => ⟨(if_neg hb').symm, rfl⟩)
    (fun b' hb' => by
      have hne : b' ≠ q.frontBlock := fun e => g.ring.not_used_of_free hb' (e ▸ g.ring.front_mem)
      rw [Function.update_of_ne hne]
      exact g.ring.spare b' hb')
    (fun hm => absurd hm hnt) fun hm => absurd (List.mem_of_mem_dropLast hm) hnt
  have hs : ConsumerStep q (q.upd q.frontBlock fun y =>
      { y with front := ((q.heap q.frontBlock).front + 1) % (q.heap q.frontBlock).size }) used used
        free free
      items (Function.update items q.frontBlock ys) :=
    .upd hb rfl rfl rfl rfl fun hl =>
      Function.update_of_ne (fun e => hl (g.ring.length_one_iff.2 e.symm)) ..
  exact ⟨_, .leave (op.found x), rfl,
    .taken (g.consumer hs hr trivial g.dequeuing) hs hop (g.flatMap_front hx)⟩

theorem deq_checkTailBlock (g : Good size q enq (.checkTailBlock op b) used free items) :
    ∃ q' pc', DeqPc.step q (.checkTailBlock op b) = .ok (q', pc') ∧
      DeqOutcome size q enq (.checkTailBlock op b) used free items op q' pc' := by
  obtain rfl : b = q.frontBlock := g.deqAt
  by_cases hne : q.frontBlock = q.tailBlock
  · refine ⟨q, .leave op.nothing, ?_,
      .nothing (g.consumer .same g.ring trivial g.dequeuing) (g.ring.length_one_iff.2 hne)⟩
    simp [DeqPc.step, hne]
  · refine ⟨q, .reload op, ?_, .quiet (g.consumer .same g.ring
      (fun h1 => hne (g.ring.length_one_iff.1 h1)) g.dequeuing) .same rfl rfl False.elim⟩
    simp [DeqPc.step, hne]

theorem deq_reload (g : Good size q enq (.reload op) used free items) :
    ∃ q' pc', DeqPc.step q (.reload op) = .ok (q', pc') ∧
      DeqOutcome size q enq (.reload op) used free items op q' pc' := by
  have hl : used.length ≠ 1 := g.deqAt
  have hb : q.frontBlock ∈ used ++ free := List.mem_append_left _ g.ring.front_mem
  have hr := g.loadTail_ring hb rfl fun _ _ => rfl
  have hs : ConsumerStep q (q.upd q.frontBlock fun y => { y with localTail := y.tail }) used used
      free free items items := .upd hb rfl rfl rfl rfl fun _ => rfl
  have hq := upd_heap q q.frontBlock fun y => { y with localTail := y.tail }
  by_cases hne : (q.heap q.frontBlock).front = (q.heap q.frontBlock).tail
  · refine ⟨_, .loadNext op q.frontBlock, ?_, .quiet (g.consumer hs hr
      ⟨rfl, hl, g.ring.front_holds.front_eq_tail_iff.1 hne⟩ g.dequeuing) hs rfl rfl False.elim⟩
    simp only [DeqPc.step, hq]
    rw [if_neg (not_not.2 hne)]
  · refine ⟨_, .take op q.frontBlock (q.heap q.frontBlock).front, ?_,
      .quiet (g.consumer hs hr ⟨rfl, ?_, ?_⟩ g.dequeuing) hs rfl rfl False.elim⟩
    · simp only [DeqPc.step, hq]
      rw [if_pos hne]
    · rw [hq]
    · rw [hq]
      exact hne

theorem deq_loadNext (g : Good size q enq (.loadNext op b) used free items) :
    ∃ q' pc', DeqPc.step q (.loadNext op b) = .ok (q', pc') ∧
      DeqOutcome size q enq (.loadNext op b) used free items op q' pc' := by
  obtain ⟨rfl, hl, hnil⟩ := g.deqAt
  obtain ⟨nb, rest, hu, hnext⟩ := g.ring.next_front hl
  refine ⟨q, .loadNextTail op nb, ?_, .quiet (g.consumer .same g.ring ⟨hnil, ?_⟩ g.dequeuing)
    .same rfl rfl False.elim⟩
  · simp only [DeqPc.step, hnext]
  · rw [hu]
    exact List.prefix_append [q.frontBlock, nb] rest

/-- The block behind the first one. -/
theorem next_used (g : Good size q enq deq used free items) (hp : [q.frontBlock, nb] <+: used) :
    nb ∈ used ++ free ∧ ∃ x ys, items nb = x :: ys := by
  obtain ⟨rest, rfl⟩ := hp
  exact ⟨by simp, List.exists_cons_of_ne_nil (g.ring.nonempty nb (by simp))⟩

theorem deq_loadNextTail (g : Good size q enq (.loadNextTail op nb) used free items) :
    ∃ q' pc', DeqPc.step q (.loadNextTail op nb) = .ok (q', pc') ∧
      DeqOutcome size q enq (.loadNextTail op nb) used free items op q' pc' := by
  obtain ⟨hnil, hp⟩ := g.deqAt
  obtain ⟨hb, x, ys, hx⟩ := g.next_used hp
  have hne : (q.heap nb).front ≠ (q.heap nb).tail := fun he => by
    have := (g.ring.holds nb hb).front_eq_tail_iff.1 he
    rw [hx] at this
    cases this
  by_cases hop : op = .peek
  · subst hop
    refine ⟨q, .peekNext nb (q.heap nb).front, ?_,
      .quiet (g.consumer .same g.ring ⟨hnil, hp, rfl⟩ g.dequeuing) .same rfl rfl False.elim⟩
    simp [DeqPc.step, hne]
  · have hr := g.loadTail_ring hb rfl fun _ _ => rfl
    have hs : ConsumerStep q (q.upd nb fun y => { y with localTail := y.tail }) used used free free
        items items := .upd hb rfl rfl rfl rfl fun _ => rfl
    refine ⟨q.upd nb fun y => { y with localTail := y.tail },
      .storeFrontBlock op nb (q.heap nb).front, ?_,
      .quiet (g.consumer hs hr ⟨hnil, hp, ?_, ?_⟩ g.dequeuing) hs rfl rfl False.elim⟩
    · cases op with
      | peek => exact absurd rfl hop
      | tryDequeue | pop =>
        simp only [DeqPc.step, hne, if_false]
        rfl
    · rw [upd_heap]
    · rw [upd_heap]
      exact hne

/-- Only a free block is filled ahead of `tailBlock`. -/
theorem ready_used (g : Good size q enq deq used free items) (hb : b ∈ used) : enq.ready b = [] := by
  cases enq with
  | storeTailBlock x c =>
    obtain ⟨-, hc⟩ := g.enqAt
    exact if_neg (ne_of_mem_of_not_mem hb (g.ring.not_used_of_free (List.mem_of_mem_head? hc)))
  | _ => rfl

theorem deq_storeFrontBlock {nf : Nat}
    (g : Good size q enq (.storeFrontBlock op nb nf) used free items) :
    ∃ q' pc', DeqPc.step q (.storeFrontBlock op nb nf) = .ok (q', pc') ∧
      DeqOutcome size q enq (.storeFrontBlock op nb nf) used free items op q' pc' := by
  obtain ⟨hnil, ⟨rest, rfl⟩, hnf, hne⟩ := g.deqAt
  have hr := g.ring.advanceFront hnil (g.ready_used g.ring.front_mem)
  have hperm : (nb :: rest ++ (free ++ [q.frontBlock])).Perm (q.frontBlock :: nb :: rest ++ free) := by
    rw [← List.append_assoc]
    exact List.perm_append_singleton ..
  have hs : ConsumerStep q { q with frontBlock := nb } (q.frontBlock :: nb :: rest) (nb :: rest) free
      (free ++ [q.frontBlock]) items items :=
    ⟨rfl, rfl, rfl, rfl, fun _ => rfl, fun _ => rfl, fun _ => rfl, fun _ => rfl, fun _ _ => rfl, hperm,
      List.prefix_append .., fun _ => ⟨by simp, rfl⟩⟩
  refine ⟨_, .take op nb nf, rfl, .quiet (g.consumer hs hr ⟨rfl, hnf, hne⟩ g.dequeuing) hs ?_ rfl
    False.elim⟩
  show _ = (q.frontBlock :: nb :: rest).flatMap items
  rw [List.flatMap_cons (x := q.frontBlock), hnil, List.nil_append]

theorem deq_peekNext {nf : Nat} (g : Good size q enq (.peekNext nb nf) used free items) :
    ∃ q' pc', DeqPc.step q (.peekNext nb nf) = .ok (q', pc') ∧
      DeqOutcome size q enq (.peekNext nb nf) used free items .peek q' pc' := by
  obtain ⟨hnil, hp, rfl⟩ := g.deqAt
  obtain ⟨hb, x, ys, hx⟩ := g.next_used hp
  have hh := g.ring.holds nb hb
  rw [hx] at hh
  obtain ⟨rest, rfl⟩ := hp
  have hfirst : (q.frontBlock :: nb :: rest).flatMap items = x :: (ys ++ rest.flatMap items) := by
    rw [List.flatMap_cons, List.flatMap_cons, hnil, hx]
    rfl
  refine ⟨q, .leave (DeqOp.peek.found x), ?_,
    .looked (g.consumer .same g.ring trivial g.dequeuing) rfl hfirst⟩
  simp only [DeqPc.step, hh.data_front]

/-- Every access of a call of the consumer. -/
theorem deq_step (g : Good size q enq deq used free items) (hop : deq.op = some op) :
    ∃ q' pc', deq.step q = .ok (q', pc') ∧
      DeqOutcome size q enq deq used free items op q' pc' := by
  cases deq with
  | idle => cases hop
  | leave r => cases hop
  | enter op' => cases hop; exact g.deq_enter
  | loadTail op' b bf => cases hop; exact g.deq_loadTail
  | take op' b bf => cases hop; exact g.deq_take
  | storeFront op' x b bf => cases hop; exact g.deq_storeFront
  | checkTailBlock op' b => cases hop; exact g.deq_checkTailBlock
  | reload op' => cases hop; exact g.deq_reload
  | loadNext op' b => cases hop; exact g.deq_loadNext
  | loadNextTail op' nb => cases hop; exact g.deq_loadNextTail
  | storeFrontBlock op' nb nf => cases hop; exact g.deq_storeFrontBlock
  | peekNext nb nf => cases hop; exact g.deq_peekNext

end Good

end Moodycamel
