import NetworkPoller.Queue.Proof.Invariant

/-!
# The accesses of the producer

What each access of `inner_enqueue` does, one lemma per program counter: the invariant is kept and no
assert fails. `EnqOutcome` says what an access means for the elements in the queue: it changes nothing
there, or it is the one that adds the element, or it ends the call without effect.
-/

namespace Moodycamel

open Queue

variable {α : Type}

/-- The element that a call in progress is to add. -/
def EnqPc.arg : EnqPc α → Option α
  | .idle | .leave _ => none
  | .enter _ x | .loadFront _ x .. | .construct x .. | .storeTail x .. | .checkNext _ x _
  | .loadNext x _ | .constructNext x .. | .storeNextTail x .. | .makeBlock x _ | .linkBlock x ..
  | .storeTailBlock x _ =>
    some x

/-- The call has found all blocks in use and no room in the last. -/
def EnqPc.FoundFull (free : List BlockId) : EnqPc α → Prop
  | .checkNext .. => free = []
  | .makeBlock .. | .linkBlock .. => True
  | _ => False

theorem EnqPc.FoundFull.mono {free free' : List BlockId} {pc : EnqPc α} (h : pc.FoundFull free')
    (hfree : free <+: free') : pc.FoundFull free := by
  cases pc with
  | checkNext mode x b => exact List.prefix_nil.1 ((show free' = [] from h) ▸ hfree)
  | makeBlock | linkBlock => exact trivial
  | _ => exact h.elim

def EnqPc.mode : EnqPc α → Option AllocationMode
  | .enter mode _ | .loadFront mode .. | .checkNext mode .. => some mode
  | _ => none

/-- All blocks in use but the first are full, and so is the first if it is the only one. -/
def Queue.Crowded (q : Queue α) (used : List BlockId) (items : BlockId → List α) : Prop :=
  q.room used ≤ (used.flatMap items).length +
    if used.length = 1 then 0 else (q.heap q.frontBlock).sizeMask

inductive EnqOutcome (size : Nat) (malloc : Bool) (q : Queue α) (pc : EnqPc α) (deq : DeqPc α)
    (used free : List BlockId) (items : BlockId → List α) (x : α) : Queue α → EnqPc α → Prop
  | quiet {q' pc' free' items'} (good : Good size q' pc' deq used free' items')
      (same : used.flatMap items' = used.flatMap items) (arg : pc'.arg = some x)
      (mode : pc'.mode = none ∨ pc'.mode = pc.mode)
      (why : pc'.FoundFull free' → pc.FoundFull free ∨ free = [] ∧ q.Crowded used items)
      (room : q'.room (used ++ free') = q.room (used ++ free) ∨
        pc.FoundFull free ∧ ¬ pc'.FoundFull free' ∧
          q'.room (used ++ free') + 1 = q.room (used ++ free) + q.largestBlockSize) :
      EnqOutcome size malloc q pc deq used free items x q' pc'
  | pushed {q' used' free' items'} (good : Good size q' (.leave true) deq used' free' items')
      (used_le : used <+: used') (added : used'.flatMap items' = used.flatMap items ++ [x])
      (room : q'.room (used' ++ free') = q.room (used ++ free)) :
      EnqOutcome size malloc q pc deq used free items x q' (.leave true)
  | refused (good : Good size q (.leave false) deq used free items) (why : pc.FoundFull free)
      (cause : pc.mode = some .cannotAlloc ∨ malloc = false) :
      EnqOutcome size malloc q pc deq used free items x q (.leave false)

variable {size maxBlockSize : Nat} {malloc : Bool} {q q' : Queue α} {enq : EnqPc α} {deq : DeqPc α}
  {used free : List BlockId} {items items' : BlockId → List α} {mode : AllocationMode} {b nb : BlockId}
  {x : α}

theorem ProducerStep.upd {f : Block α → Block α} (hfront : (f (q.heap b)).front = (q.heap b).front)
    (hlocal : (f (q.heap b)).localTail = (q.heap b).localTail)
    (hsize : (f (q.heap b)).size = (q.heap b).size) (hi : ∀ b' ∈ used, items b' <+: items' b')
    (hfi : used.length ≠ 1 → items' q.frontBlock = items q.frontBlock) :
    ProducerStep q (q.upd b f) used used items items' :=
  ⟨rfl, rfl, fun b' _ => upd_congr Block.front hfront b',
    fun b' _ => upd_congr Block.localTail hlocal b',
    fun b' _ => upd_congr Block.size hsize b', List.prefix_rfl, hi, hfi⟩

namespace Good

theorem room_eq (g : Good size q enq deq used free items) {used' : List BlockId}
    (hs : ProducerStep q q' used used' items items') :
    q'.room (used ++ free) = q.room (used ++ free) :=
  room_congr fun b hb => hs.size b (g.ring.made b hb)

/-- An access of the producer that changes neither the blocks in use nor the elements in them. -/
theorem quiet {pc' : EnqPc α} (g : Good size q enq deq used free items)
    (hs : ProducerStep q q' used used items items') (hl : q'.largestBlockSize = q.largestBlockSize)
    (hm : q'.made + enq.unlinked = q.made + pc'.unlinked)
    (hr : q'.Ring pc'.built pc'.ready deq.taken used free items') (hat : pc'.At q' used free items')
    (hb : q'.enqueuing = pc'.busy) (same : used.flatMap items' = used.flatMap items)
    (arg : pc'.arg = some x)
    (mode : pc'.mode = none ∨ pc'.mode = enq.mode)
    (why : pc'.FoundFull free → enq.FoundFull free ∨ free = [] ∧ q.Crowded used items) :
    EnqOutcome size malloc q enq deq used free items x q' pc' :=
  .quiet (g.producer hs hr hat hb
    (g.reserve.congr (fun b hb => hs.size b (g.ring.made b hb)) hl (.refl _))
    (by have := g.made; omega)) same arg mode why
    (.inl (g.room_eq hs))

theorem enq_enter (g : Good size q (.enter mode x) deq used free items) :
    ∃ q' pc', EnqPc.step maxBlockSize malloc q (.enter mode x) = .ok (q', pc') ∧
      EnqOutcome size malloc q (.enter mode x) deq used free items x q' pc' := by
  have hidle : q.enqueuing = false := g.enqueuing
  have hmask := g.ring.tail_holds.and_mask ((q.heap q.tailBlock).tail + 1)
  have hs : ProducerStep q { q with enqueuing := true } used used items items :=
    ⟨rfl, rfl, fun _ _ => rfl, fun _ _ => rfl, fun _ _ => rfl, List.prefix_rfl,
      fun _ _ => List.prefix_rfl, fun _ => rfl⟩
  have hr := g.ring.flags true q.dequeuing q.largestBlockSize
  by_cases hne : ((q.heap q.tailBlock).tail + 1) % (q.heap q.tailBlock).size ≠
      (q.heap q.tailBlock).localFront
  · refine ⟨{ q with enqueuing := true }, .construct x q.tailBlock (q.heap q.tailBlock).tail _, ?_,
      g.quiet hs rfl rfl hr ⟨rfl, rfl, rfl, hne⟩ rfl rfl rfl (.inl rfl) False.elim⟩
    simp [EnqPc.step, hidle, hmask, hne]
  · refine ⟨{ q with enqueuing := true }, .loadFront mode x q.tailBlock (q.heap q.tailBlock).tail _,
      ?_, g.quiet hs rfl rfl hr ⟨rfl, rfl, rfl⟩ rfl rfl rfl (.inr rfl) False.elim⟩
    simp [EnqPc.step, hidle, hmask, hne]

/-- The blocks other than the first are full as soon as the last one is. -/
theorem crowded (g : Good size q enq deq used free items)
    (hfull : (items q.tailBlock).length + 1 = (q.heap q.tailBlock).size) : q.Crowded used items := by
  obtain ⟨rest, hr⟩ := g.ring.used_cons
  have hrest : ∀ b ∈ rest, (items b).length = (q.heap b).sizeMask := by
    intro b hb
    have hl : used.length ≠ 1 := by
      rw [hr, List.length_cons]
      exact fun h1 => List.ne_nil_of_mem hb (List.length_eq_zero_iff.1 (Nat.succ.inj h1))
    have hmem : b ∈ used.tail := by
      rw [hr]
      exact hb
    rw [g.ring.tail_eq_concat hl, List.mem_append, List.mem_singleton] at hmem
    rcases hmem with hmem | rfl
    · exact Nat.succ.inj (g.ring.full b hmem)
    · exact Nat.succ.inj hfull
  have hroom : q.room rest = (rest.flatMap items).length := by
    rw [List.length_flatMap]
    exact congrArg List.sum (List.map_congr_left fun b hb => (hrest b hb).symm)
  unfold Crowded
  by_cases h1 : used.length = 1
  · have hf := g.ring.length_one_iff.1 h1
    have hnil : rest = [] := by
      rw [hr, List.length_cons] at h1
      exact List.length_eq_zero_iff.1 (Nat.succ.inj h1)
    have hmask : (items q.frontBlock).length = (q.heap q.frontBlock).sizeMask := by
      rw [hf]
      exact Nat.succ.inj hfull
    rw [if_pos h1, hr, hnil]
    simp [room, hmask]
  · rw [if_neg h1, hr, room_cons, List.flatMap_cons, List.length_append, hroom]
    omega

/-- A queue whose blocks are all full but for the first holds `size` elements at least. -/
theorem size_le_of_crowded (g : Good size q enq deq used free items) (hfree : free = [])
    (hc : q.Crowded used items) : size ≤ (used.flatMap items).length := by
  have hres := g.reserve
  rw [hfree, List.append_nil] at hres
  unfold Crowded at hc
  by_cases h1 : used.length = 1
  · rw [if_pos h1] at hc
    exact Nat.le_trans (hres.one h1) hc
  · rw [if_neg h1] at hc
    have := hres.several h1 _ g.ring.front_mem
    omega

theorem enq_loadFront {bt nt : Nat} (g : Good size q (.loadFront mode x b bt nt) deq used free items) :
    ∃ q' pc', EnqPc.step maxBlockSize malloc q (.loadFront mode x b bt nt) = .ok (q', pc') ∧
      EnqOutcome size malloc q (.loadFront mode x b bt nt) deq used free items x q' pc' := by
  obtain ⟨rfl, rfl, rfl⟩ := g.enqAt
  have hb : q.tailBlock ∈ used ++ free := List.mem_append_left _ g.ring.tail_mem
  have hs : ProducerStep q (q.upd q.tailBlock fun y => { y with localFront := y.front }) used used
      items items := .upd rfl rfl rfl (fun _ _ => List.prefix_rfl) fun _ => rfl
  have hr := g.ring.touch (fun _ => []) deq.taken (fun y => { y with localFront := y.front }) hb rfl
    rfl g.ring.tail_holds.loadFront fun _ _ => ⟨rfl, rfl⟩
  have hq : (q.upd q.tailBlock fun y => { y with localFront := y.front }).heap q.tailBlock =
      { q.heap q.tailBlock with localFront := (q.heap q.tailBlock).front } := Function.update_self ..
  by_cases hne : ((q.heap q.tailBlock).tail + 1) % (q.heap q.tailBlock).size =
    (q.heap q.tailBlock).front
  · -- the block is full: the answer may be that there is no room
    have hfull := g.ring.tail_holds.next_eq_front_iff.1 hne
    refine ⟨_, .checkNext mode x q.tailBlock, ?_, g.quiet hs rfl rfl hr ⟨rfl, fun _ => ?_⟩
      g.enqueuing rfl rfl (.inr rfl) fun hfree => .inr ⟨hfree, g.crowded hfull⟩⟩
    · simp only [EnqPc.step, hq]
      rw [if_neg (not_not.2 hne)]
    · show (items q.tailBlock).length + 1 = Block.size (Queue.heap _ q.tailBlock)
      rw [hq]
      exact hfull
  · refine ⟨_, .construct x q.tailBlock (q.heap q.tailBlock).tail
      (((q.heap q.tailBlock).tail + 1) % (q.heap q.tailBlock).size), ?_,
      g.quiet hs rfl rfl hr ⟨rfl, ?_, ?_, ?_⟩ g.enqueuing rfl rfl (.inl rfl) False.elim⟩
    · simp only [EnqPc.step, hq]
      rw [if_pos hne]
    · rw [hq]
    · rw [hq]
      rfl
    · rw [hq]
      exact hne

theorem enq_construct {bt nt : Nat} (g : Good size q (.construct x b bt nt) deq used free items) :
    ∃ q' pc', EnqPc.step maxBlockSize malloc q (.construct x b bt nt) = .ok (q', pc') ∧
      EnqOutcome size malloc q (.construct x b bt nt) deq used free items x q' pc' := by
  obtain ⟨rfl, rfl, rfl, hne⟩ := g.enqAt
  have hb : q.tailBlock ∈ used ++ free := List.mem_append_left _ g.ring.tail_mem
  obtain ⟨hnone, hh⟩ := g.ring.tail_holds.build (x := x) hne
  have hs : ProducerStep q (q.upd q.tailBlock fun y =>
      { y with data := Function.update y.data (q.heap q.tailBlock).tail (some x) })
      used used items items :=
    .upd rfl rfl rfl (fun _ _ => List.prefix_rfl) fun _ => rfl
  have hr := g.ring.touch (fun b' => if b' = q.tailBlock then [x] else []) deq.taken
    (fun y => { y with data := Function.update y.data (q.heap q.tailBlock).tail (some x) }) hb rfl rfl
    (by rw [if_pos rfl]; exact hh) fun b' hb' => ⟨rfl, if_neg hb'⟩
  refine ⟨_, .storeTail x q.tailBlock (((q.heap q.tailBlock).tail + 1) % (q.heap q.tailBlock).size),
    ?_, g.quiet hs rfl rfl hr ⟨rfl, ?_⟩ g.enqueuing rfl rfl (.inl rfl) False.elim⟩
  · rw [EnqPc.step, construct_eq hnone]
    rfl
  · rw [upd_heap]
    rfl

theorem enq_storeTail {nt : Nat} (g : Good size q (.storeTail x b nt) deq used free items) :
    ∃ q' pc', EnqPc.step maxBlockSize malloc q (.storeTail x b nt) = .ok (q', pc') ∧
      EnqOutcome size malloc q (.storeTail x b nt) deq used free items x q' pc' := by
  obtain ⟨rfl, rfl⟩ := g.enqAt
  have hb : q.tailBlock ∈ used ++ free := List.mem_append_left _ g.ring.tail_mem
  have hh := g.ring.tail_holds
  rw [EnqPc.built_storeTail] at hh
  have hfree : ∀ b ∈ free, b ≠ q.tailBlock := fun b hb e =>
    g.ring.not_used_of_free hb (e ▸ g.ring.tail_mem)
  have hs : ProducerStep q (q.upd q.tailBlock fun y =>
      { y with tail := ((q.heap q.tailBlock).tail + 1) % (q.heap q.tailBlock).size }) used used items
      (Function.update items q.tailBlock (items q.tailBlock ++ [x])) := by
    refine .upd rfl rfl rfl (fun b' _ => ?_) fun hl => ?_
    · by_cases hbb : b' = q.tailBlock
      · rw [hbb, Function.update_self]
        exact List.prefix_append ..
      · rw [Function.update_of_ne hbb]
    · exact Function.update_of_ne (fun e => hl (g.ring.length_one_iff.2 e)) ..
  have hr := g.ring.upd (fun _ => []) (fun _ => []) deq.taken (items q.tailBlock ++ [x])
    (fun y => { y with tail := ((q.heap q.tailBlock).tail + 1) % (q.heap q.tailBlock).size }) hb rfl
    rfl hh.push (fun b' hb' => ⟨rfl, (if_neg hb').symm⟩)
    (fun b' hb' => by
      rw [Function.update_of_ne (hfree b' hb')]
      exact g.ring.spare b' hb')
    (fun _ => by simp) fun hmid => by
      -- the last block is not one of those between
      obtain ⟨u, hu⟩ := g.ring.used_concat
      have hn := g.ring.used_nodup
      rw [hu] at hmid hn
      refine absurd ?_ (List.disjoint_of_nodup_append hn · List.mem_cons_self)
      cases u with
      | nil => cases hmid
      | cons c u =>
        rw [List.cons_append, List.tail_cons, List.dropLast_concat] at hmid
        exact List.mem_cons_of_mem _ hmid
  refine ⟨_, .leave true, rfl, .pushed (g.producer hs hr trivial g.enqueuing
    (g.reserve.congr (fun b hb => hs.size b (g.ring.made b hb)) rfl (.refl _)) g.made)
    List.prefix_rfl ?_
    (g.room_eq hs)⟩
  obtain ⟨u, hu⟩ := g.ring.used_concat
  have hn := g.ring.used_nodup
  rw [hu] at hn ⊢
  exact flatMap_push hn

theorem enq_checkNext (g : Good size q (.checkNext mode x b) deq used free items) :
    ∃ q' pc', EnqPc.step maxBlockSize malloc q (.checkNext mode x b) = .ok (q', pc') ∧
      EnqOutcome size malloc q (.checkNext mode x b) deq used free items x q' pc' := by
  obtain ⟨rfl, hfull⟩ := g.enqAt
  have hnext := g.ring.next_tail
  have hs : ProducerStep q q used used items items :=
    ⟨rfl, rfl, fun _ _ => rfl, fun _ _ => rfl, fun _ _ => rfl, List.prefix_rfl,
      fun _ _ => List.prefix_rfl, fun _ => rfl⟩
  cases hf : free with
  | nil =>
    subst hf
    cases mode with
    | canAlloc =>
      refine ⟨q, .makeBlock x q.tailBlock, ?_, g.quiet hs rfl rfl g.ring ⟨rfl, hfull⟩ g.enqueuing
        rfl rfl (.inl rfl) fun _ => .inl rfl⟩
      simp [EnqPc.step, hnext]
    | cannotAlloc =>
      refine ⟨q, .leave false, ?_,
        .refused (g.producer hs g.ring trivial g.enqueuing g.reserve g.made) rfl (.inl rfl)⟩
      simp [EnqPc.step, hnext]
  | cons c rest =>
    subst hf
    have hc : c ≠ q.frontBlock := fun e =>
      g.ring.not_used_of_free List.mem_cons_self (e ▸ g.ring.front_mem)
    refine ⟨q, .loadNext x q.tailBlock, ?_, g.quiet hs rfl rfl g.ring
      ⟨rfl, hfull, List.cons_ne_nil c rest⟩ g.enqueuing rfl rfl (.inl rfl) False.elim⟩
    simp [EnqPc.step, hnext, hc]

theorem enq_loadNext (g : Good size q (.loadNext x b) deq used free items) :
    ∃ q' pc', EnqPc.step maxBlockSize malloc q (.loadNext x b) = .ok (q', pc') ∧
      EnqOutcome size malloc q (.loadNext x b) deq used free items x q' pc' := by
  obtain ⟨rfl, hfull, hne⟩ := g.enqAt
  obtain ⟨c, rest, rfl⟩ := List.exists_cons_of_ne_nil hne
  have hnext : (q.heap q.tailBlock).next = some c := g.ring.next_tail
  have hc : c ∈ used ++ c :: rest := List.mem_append_right _ List.mem_cons_self
  have hh := g.ring.holds c hc
  have hnil : items c = [] := g.ring.spare c List.mem_cons_self
  have hempty : (q.heap c).front = (q.heap c).tail := hh.front_eq_tail_iff.2 hnil
  have hs : ProducerStep q (q.upd c fun y => { y with localFront := (q.heap c).front }) used used items
      items := .upd rfl rfl rfl (fun _ _ => List.prefix_rfl) fun _ => rfl
  have hr := g.ring.touch (fun _ => []) deq.taken (fun y => { y with localFront := (q.heap c).front })
    hc rfl rfl hh.loadFront fun _ _ => ⟨rfl, rfl⟩
  refine ⟨_, .constructNext x c (q.heap c).tail, ?_, g.quiet hs rfl rfl hr
    ⟨?_, rfl, ?_, ?_⟩ g.enqueuing rfl rfl (.inl rfl) False.elim⟩
  · rw [EnqPc.step, hnext]
    simp only [hempty, ne_eq, not_true_eq_false, if_false]
  · intro hl
    rw [upd_congr Block.size rfl]
    exact hfull hl
  · rw [upd_heap]
  · -- an empty block has room
    rw [upd_heap]
    show ((q.heap c).tail + 1) % (q.heap c).size ≠ (q.heap c).front
    intro he
    have h1 := hh.next_eq_front_iff.1 he
    have h2 := hh.two_le
    rw [hnil, List.length_nil] at h1
    omega

/-- What the producer does in the free block ahead does not touch the last block in use. -/
theorem tailFull_upd {f : Block α → Block α} {c : BlockId} {ys : List α} (h : q.TailFull used items)
    (hb : q.tailBlock ≠ b) (hsize : (f (q.heap c)).size = (q.heap c).size) :
    (q.upd c f).TailFull used (Function.update items b ys) := by
  intro hl
  show (Function.update items b ys q.tailBlock).length + 1 = ((q.upd c f).heap q.tailBlock).size
  rw [Function.update_of_ne hb, upd_congr Block.size hsize]
  exact h hl

theorem enq_constructNext {nt : Nat} (g : Good size q (.constructNext x b nt) deq used free items) :
    ∃ q' pc', EnqPc.step maxBlockSize malloc q (.constructNext x b nt) = .ok (q', pc') ∧
      EnqOutcome size malloc q (.constructNext x b nt) deq used free items x q' pc' := by
  obtain ⟨hfull, hhead, rfl, hne⟩ := g.enqAt
  have hb : b ∈ used ++ free := List.mem_append_right _ (List.mem_of_mem_head? hhead)
  obtain ⟨hnone, hh⟩ := (g.ring.holds b hb).build (x := x) hne
  have hs : ProducerStep q (q.upd b fun y =>
      { y with data := Function.update y.data (q.heap b).tail (some x) }) used used items items :=
    .upd rfl rfl rfl (fun _ _ => List.prefix_rfl) fun _ => rfl
  have hr := g.ring.touch (fun b' => if b' = b then [x] else []) deq.taken
    (fun y => { y with data := Function.update y.data (q.heap b).tail (some x) }) hb rfl rfl
    (by rw [if_pos rfl]; exact hh) fun b' hb' => ⟨rfl, if_neg hb'⟩
  refine ⟨_, .storeNextTail x b (q.heap b).tail, ?_, g.quiet hs rfl rfl hr ⟨fun hl => ?_, hhead, ?_⟩
    g.enqueuing rfl rfl (.inl rfl) False.elim⟩
  · rw [EnqPc.step, construct_eq hnone]
    rfl
  · rw [upd_congr Block.size rfl]
    exact hfull hl
  · rw [upd_heap]

theorem enq_storeNextTail {nt : Nat} (g : Good size q (.storeNextTail x b nt) deq used free items) :
    ∃ q' pc', EnqPc.step maxBlockSize malloc q (.storeNextTail x b nt) = .ok (q', pc') ∧
      EnqOutcome size malloc q (.storeNextTail x b nt) deq used free items x q' pc' := by
  obtain ⟨hfull, hhead, rfl⟩ := g.enqAt
  have hfree : b ∈ free := List.mem_of_mem_head? hhead
  have hb : b ∈ used ++ free := List.mem_append_right _ hfree
  have hnu : b ∉ used := g.ring.not_used_of_free hfree
  have hh := g.ring.holds b hb
  have hnil : items b = [] := g.ring.spare b hfree
  rw [EnqPc.built_storeNextTail, hnil] at hh
  have hs : ProducerStep q
      (q.upd b fun y => { y with tail := ((q.heap b).tail + 1) &&& y.sizeMask }) used used items (Function.update items b [x]) := by
    refine .upd rfl rfl rfl (fun b' hb' => ?_) fun _ => ?_
    · rw [Function.update_of_ne (ne_of_mem_of_not_mem hb' hnu)]
    · exact Function.update_of_ne (ne_of_mem_of_not_mem g.ring.front_mem hnu) ..
  have hr := g.ring.upd (fun _ => []) (fun b' => if b' = b then [x] else []) deq.taken [x]
    (fun y => { y with tail := ((q.heap b).tail + 1) &&& y.sizeMask }) hb rfl rfl
    (by rw [hh.and_mask]; exact hh.push) (fun b' hb' => ⟨rfl, (if_neg hb').symm⟩)
    (fun b' hb' => by
      by_cases hbb : b' = b
      · rw [hbb, Function.update_self, if_pos rfl]
      · rw [Function.update_of_ne hbb, if_neg hbb]
        exact g.ring.spare b' hb')
    (fun _ => List.cons_ne_nil x [])
    (fun hmid => absurd (List.mem_of_mem_tail (List.mem_of_mem_dropLast hmid)) hnu)
  exact ⟨_, .storeTailBlock x b, rfl, g.quiet hs rfl rfl hr
    ⟨tailFull_upd hfull (ne_of_mem_of_not_mem g.ring.tail_mem hnu) rfl, hhead⟩ g.enqueuing
    (flatMap_update_of_notMem hnu) rfl (.inl rfl) False.elim⟩

theorem enq_makeBlock (g : Good size q (.makeBlock x b) deq used free items) :
    ∃ q' pc', EnqPc.step maxBlockSize malloc q (.makeBlock x b) = .ok (q', pc') ∧
      EnqOutcome size malloc q (.makeBlock x b) deq used free items x q' pc' := by
  obtain ⟨rfl, hfull⟩ := g.enqAt
  cases malloc with
  | false =>
    have hs : ProducerStep q q used used items items :=
      ⟨rfl, rfl, fun _ _ => rfl, fun _ _ => rfl, fun _ _ => rfl, List.prefix_rfl,
        fun _ _ => List.prefix_rfl, fun _ => rfl⟩
    exact ⟨q, .leave false, rfl,
      .refused (g.producer hs g.ring trivial g.enqueuing g.reserve g.made) trivial (.inr rfl)⟩
  | true =>
    obtain ⟨n, hn⟩ : ∃ n, n = if maxBlockSize ≤ q.largestBlockSize then q.largestBlockSize
      else q.largestBlockSize * 2 := ⟨_, rfl⟩
    have hpow : ∃ k, n = 2 ^ (k + 1) := by
      obtain ⟨k, hk⟩ := g.reserve.pow
      rw [hn]
      split
      · exact ⟨k, hk⟩
      · exact ⟨k + 1, by rw [hk, Nat.pow_succ 2 (k + 1)]⟩
    have hle : q.largestBlockSize ≤ n := by
      rw [hn]
      split <;> omega
    obtain ⟨y, hy⟩ : ∃ y : Block α, y = { (Block.make n : Block α) with
      data := Function.update (Block.make n : Block α).data 0 (some x)
      tail := 1
      localTail := 1
      next := (q.heap q.tailBlock).next } := ⟨_, rfl⟩
    have hh : y.Holds [x] 0 [] := hy ▸ Block.holds_new hpow _ x
    have hsize : y.size = n := by
      obtain ⟨k, rfl⟩ := hpow
      rw [hy]
      exact Block.size_make (α := α)
    have hout : q.made ∉ used ++ free := fun hm => Nat.lt_irrefl _ (g.ring.made _ hm)
    have hold : ∀ b' < q.made, Function.update q.heap q.made y b' = q.heap b' := fun b' hb' =>
      Function.update_of_ne (Nat.ne_of_lt hb') ..
    have htail := hold _ (g.ring.made _ (List.mem_append_left _ g.ring.tail_mem))
    have hs : ProducerStep q { q with
        heap := Function.update q.heap q.made y
        made := q.made + 1
        largestBlockSize := n } used used items items :=
      ⟨rfl, rfl, fun b' hb' => congrArg Block.front (hold b' hb'),
        fun b' hb' => congrArg Block.localTail (hold b' hb'),
        fun b' hb' => congrArg Block.size (hold b' hb'), List.prefix_rfl, fun _ _ => List.prefix_rfl,
        fun _ => rfl⟩
    have hr := (g.ring.outside (y := y) hout (Nat.le_succ q.made)).flags q.enqueuing q.dequeuing n
    refine ⟨_, .linkBlock x q.tailBlock q.made, ?_, .quiet (g.producer hs hr
      ⟨rfl, fun hl => ?_, hout, Nat.lt_succ_self _, ?_, ?_, ?_⟩ g.enqueuing
      (g.reserve.grow (fun b' hb' => hs.size b' (g.ring.made b' hb')) hle hpow)
      (congrArg Nat.succ g.made)) rfl rfl
      (.inl rfl) (fun _ => .inl trivial) (.inl (g.room_eq hs))⟩
    · rw [EnqPc.step, if_pos rfl, hy, hn]
    · show (items q.tailBlock).length + 1 = (Function.update q.heap q.made y q.tailBlock).size
      rw [htail]
      exact hfull hl
    · show (Function.update q.heap q.made y q.made).Holds _ _ _
      rw [Function.update_self]
      exact hh
    · show (Function.update q.heap q.made y q.made).next =
        (Function.update q.heap q.made y q.tailBlock).next
      rw [Function.update_self, htail, hy]
    · show (Function.update q.heap q.made y q.made).size = n
      rw [Function.update_self]
      exact hsize

theorem enq_linkBlock (g : Good size q (.linkBlock x b nb) deq used free items) :
    ∃ q' pc', EnqPc.step maxBlockSize malloc q (.linkBlock x b nb) = .ok (q', pc') ∧
      EnqOutcome size malloc q (.linkBlock x b nb) deq used free items x q' pc' := by
  obtain ⟨rfl, hfull, hnb, hm, hh, hnext, hsz⟩ := g.enqAt
  have hnu : nb ∉ used := fun hu => hnb (List.mem_append_left _ hu)
  have hs : ProducerStep q (q.upd q.tailBlock fun y => { y with next := some nb }) used used items
      (Function.update items nb [x]) := by
    refine .upd rfl rfl rfl (fun b' hb' => ?_) fun _ => ?_
    · rw [Function.update_of_ne (ne_of_mem_of_not_mem hb' hnu)]
    · exact Function.update_of_ne (ne_of_mem_of_not_mem g.ring.front_mem hnu) ..
  have htaken : deq.taken nb = 0 := by
    cases deq with
    | storeFront op x' b' bf =>
      obtain ⟨-, rfl, -⟩ := g.deqAt
      exact if_neg (ne_of_mem_of_not_mem g.ring.front_mem hnu).symm
    | _ => rfl
  have hr := g.ring.link (EnqPc.storeTailBlock x nb).ready hnb hm (by rw [htaken]; exact hh)
    hnext fun _ => rfl
  have hperm : (used ++ nb :: free).Perm (nb :: (used ++ free)) := List.perm_middle
  have hsizes : ∀ b', ((q.upd q.tailBlock fun y => { y with next := some nb }).heap b').size =
      (q.heap b').size := upd_congr Block.size rfl
  refine ⟨_, .storeTailBlock x nb, rfl, .quiet (g.producer hs hr
    ⟨tailFull_upd hfull (ne_of_mem_of_not_mem g.ring.tail_mem hnu) rfl, rfl⟩ g.enqueuing
    ((g.reserve.insert (List.ne_nil_of_mem (List.mem_append_left _ g.ring.front_mem)) hsz).congr
      (fun b' _ => hsizes b') rfl hperm) (g.made.trans hperm.length_eq.symm))
      (flatMap_update_of_notMem hnu) rfl (.inl rfl) False.elim
    (.inr ⟨trivial, id, ?_⟩)⟩
  rw [room_perm hperm, room_congr (q := q) fun b' _ => hsizes b', room_cons, ← hsz, Block.size]
  omega

theorem enq_storeTailBlock (g : Good size q (.storeTailBlock x b) deq used free items) :
    ∃ q' pc', EnqPc.step maxBlockSize malloc q (.storeTailBlock x b) = .ok (q', pc') ∧
      EnqOutcome size malloc q (.storeTailBlock x b) deq used free items x q' pc' := by
  obtain ⟨hfull, hhead⟩ := g.enqAt
  obtain ⟨free', rfl⟩ : ∃ free', free = b :: free' := by
    cases free with
    | nil => cases hhead
    | cons c free' =>
      rw [List.head?_cons, Option.some.injEq] at hhead
      exact ⟨free', by rw [hhead]⟩
  have hi : items b = [x] := (g.ring.spare b List.mem_cons_self).trans (EnqPc.ready_storeTailBlock x b)
  have hn : b ∉ free' := (List.nodup_cons.1 (List.nodup_append.1 g.ring.nodup).2.1).1
  have hr := g.ring.advanceTail (fun _ => []) (by rw [hi]; exact List.cons_ne_nil x []) hfull
    fun b' hb' => if_neg (ne_of_mem_of_not_mem hb' hn)
  have hs : ProducerStep q { q with tailBlock := b } used (used ++ [b]) items items :=
    ⟨rfl, rfl, fun _ _ => rfl, fun _ _ => rfl, fun _ _ => rfl, List.prefix_append .., fun _ _ =>
      List.prefix_rfl, fun _ => rfl⟩
  have happ : used ++ [b] ++ free' = used ++ b :: free' := by
    rw [List.append_assoc, List.singleton_append]
  refine ⟨_, .leave true, rfl, .pushed (g.producer hs hr trivial g.enqueuing
    (g.reserve.congr (fun _ _ => rfl) rfl (.of_eq happ)) (by rw [happ]; exact g.made))
    (List.prefix_append ..) ?_ ?_⟩
  · rw [List.flatMap_append, List.flatMap_singleton, hi]
  · rw [happ]
    rfl

/-- Every access of a call to enqueue `x`. -/
theorem enq_step (maxBlockSize : Nat) (malloc : Bool) (g : Good size q enq deq used free items)
    (hx : enq.arg = some x) :
    ∃ q' pc', enq.step maxBlockSize malloc q = .ok (q', pc') ∧
      EnqOutcome size malloc q enq deq used free items x q' pc' := by
  cases enq with
  | idle => cases hx
  | leave r => cases hx
  | enter mode y => cases hx; exact g.enq_enter
  | loadFront mode y b bt nt => cases hx; exact g.enq_loadFront
  | construct y b bt nt => cases hx; exact g.enq_construct
  | storeTail y b nt => cases hx; exact g.enq_storeTail
  | checkNext mode y b => cases hx; exact g.enq_checkNext
  | loadNext y b => cases hx; exact g.enq_loadNext
  | constructNext y b nt => cases hx; exact g.enq_constructNext
  | storeNextTail y b nt => cases hx; exact g.enq_storeNextTail
  | makeBlock y b => cases hx; exact g.enq_makeBlock
  | linkBlock y b nb => cases hx; exact g.enq_linkBlock
  | storeTailBlock y b => cases hx; exact g.enq_storeTailBlock

end Good

end Moodycamel
