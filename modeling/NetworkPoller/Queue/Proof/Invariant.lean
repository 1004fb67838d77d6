import NetworkPoller.Queue.Proof.Ring

/-!
# The invariant of the queue

What is known of the queue before each access of a call (`EnqPc.At`, `DeqPc.At`), and that the
accesses of the other side keep it. `Good` puts the two sides and the ring together.
-/

namespace Moodycamel

variable {α : Type}

/-! ## What each side knows -/

/-- The producer is past its guard. -/
def EnqPc.busy : EnqPc α → Bool
  | .idle | .enter .. => false
  | _ => true

/-- The number of blocks that are made and not in the ring yet. -/
def EnqPc.unlinked : EnqPc α → Nat
  | .linkBlock .. => 1
  | _ => 0

def DeqPc.busy : DeqPc α → Bool
  | .idle | .enter _ => false
  | _ => true

/-- The producer found the last block full. While another block is in use the consumer takes nothing
from it, so it still is. -/
def Queue.TailFull (q : Queue α) (used : List BlockId) (items : BlockId → List α) : Prop :=
  used.length ≠ 1 → (items q.tailBlock).length + 1 = (q.heap q.tailBlock).size

def EnqPc.At (q : Queue α) (used free : List BlockId) (items : BlockId → List α) : EnqPc α → Prop
  | .idle | .enter .. | .leave _ => True
  | .loadFront _ _ b blockTail nextBlockTail =>
    b = q.tailBlock ∧ blockTail = (q.heap b).tail ∧ nextBlockTail = (blockTail + 1) % (q.heap b).size
  | .construct _ b blockTail nextBlockTail =>
    b = q.tailBlock ∧ blockTail = (q.heap b).tail ∧ nextBlockTail = (blockTail + 1) % (q.heap b).size ∧
      nextBlockTail ≠ (q.heap b).localFront
  | .storeTail _ b nextBlockTail =>
    b = q.tailBlock ∧ nextBlockTail = ((q.heap b).tail + 1) % (q.heap b).size
  | .checkNext _ _ b | .makeBlock _ b => b = q.tailBlock ∧ q.TailFull used items
  | .loadNext _ b => b = q.tailBlock ∧ q.TailFull used items ∧ free ≠ []
  | .constructNext _ b nextBlockTail =>
    q.TailFull used items ∧ free.head? = some b ∧ nextBlockTail = (q.heap b).tail ∧
      (nextBlockTail + 1) % (q.heap b).size ≠ (q.heap b).localFront
  | .storeNextTail _ b nextBlockTail =>
    q.TailFull used items ∧ free.head? = some b ∧ nextBlockTail = (q.heap b).tail
  | .linkBlock x b newBlock =>
    b = q.tailBlock ∧ q.TailFull used items ∧ newBlock ∉ used ++ free ∧ newBlock < q.made ∧
      (q.heap newBlock).Holds [x] 0 [] ∧ (q.heap newBlock).next = (q.heap b).next ∧
      (q.heap newBlock).size = q.largestBlockSize
  | .storeTailBlock _ b => q.TailFull used items ∧ free.head? = some b

def DeqPc.At (q : Queue α) (used : List BlockId) (items : BlockId → List α) : DeqPc α → Prop
  | .idle | .enter _ | .leave _ => True
  | .loadTail _ b blockFront => b = q.frontBlock ∧ blockFront = (q.heap b).front
  | .take _ b blockFront =>
    b = q.frontBlock ∧ blockFront = (q.heap b).front ∧ blockFront ≠ (q.heap b).localTail
  | .storeFront op x b blockFront =>
    op ≠ .peek ∧ b = q.frontBlock ∧ blockFront = ((q.heap b).front + 1) % (q.heap b).size ∧
      [x] <+: items b
  | .checkTailBlock _ b => b = q.frontBlock
  | .reload _ => used.length ≠ 1
  | .loadNext _ b => b = q.frontBlock ∧ used.length ≠ 1 ∧ items b = []
  | .loadNextTail _ nextBlock => items q.frontBlock = [] ∧ [q.frontBlock, nextBlock] <+: used
  | .storeFrontBlock _ nextBlock nextBlockFront =>
    items q.frontBlock = [] ∧ [q.frontBlock, nextBlock] <+: used ∧
      nextBlockFront = (q.heap nextBlock).front ∧ nextBlockFront ≠ (q.heap nextBlock).localTail
  | .peekNext nextBlock nextBlockFront =>
    items q.frontBlock = [] ∧ [q.frontBlock, nextBlock] <+: used ∧
      nextBlockFront = (q.heap nextBlock).front

/-! ## What the other side leaves alone -/

/-- An access of the producer, as the consumer sees it. -/
structure ProducerStep (q q' : Queue α) (used used' : List BlockId) (items items' : BlockId → List α) :
    Prop where
  frontBlock : q'.frontBlock = q.frontBlock
  dequeuing : q'.dequeuing = q.dequeuing
  front : ∀ b < q.made, (q'.heap b).front = (q.heap b).front
  localTail : ∀ b < q.made, (q'.heap b).localTail = (q.heap b).localTail
  size : ∀ b < q.made, (q'.heap b).size = (q.heap b).size
  used_le : used <+: used'
  items_le : ∀ b ∈ used, items b <+: items' b
  frontItems : used.length ≠ 1 → items' q.frontBlock = items q.frontBlock

/-- An access of the consumer, as the producer sees it. -/
structure ConsumerStep (q q' : Queue α) (used used' free free' : List BlockId)
    (items items' : BlockId → List α) : Prop where
  tailBlock : q'.tailBlock = q.tailBlock
  enqueuing : q'.enqueuing = q.enqueuing
  made : q'.made = q.made
  largest : q'.largestBlockSize = q.largestBlockSize
  tail : ∀ b, (q'.heap b).tail = (q.heap b).tail
  localFront : ∀ b, (q'.heap b).localFront = (q.heap b).localFront
  next : ∀ b, (q'.heap b).next = (q.heap b).next
  size : ∀ b, (q'.heap b).size = (q.heap b).size
  outside : ∀ b, b ∉ used ++ free → q'.heap b = q.heap b
  perm : (used' ++ free').Perm (used ++ free)
  free_le : free <+: free'
  tailItems : used'.length ≠ 1 → used.length ≠ 1 ∧ items' q.tailBlock = items q.tailBlock

section

variable {q q' : Queue α} {used used' free free' : List BlockId} {items items' : BlockId → List α}

theorem DeqPc.At.mono {pc : DeqPc α} (h : pc.At q used items)
    (hs : ProducerStep q q' used used' items items') (hf : q.frontBlock ∈ used)
    (hm : ∀ b ∈ used, b < q.made) : pc.At q' used' items' := by
  have hl : used.length ≠ 1 → used'.length ≠ 1 := fun hne h1 => by
    have h2 := hs.used_le.length_le
    have h3 := List.length_pos_of_mem hf
    omega
  have hpair : ∀ {nb}, [q.frontBlock, nb] <+: used → used.length ≠ 1 ∧ nb < q.made := fun hp =>
    ⟨fun h1 => by have := hp.length_le; simp [h1] at this, hm _ (hp.subset (by simp))⟩
  have hfm := hm _ hf
  cases pc with
  | idle | enter | leave => trivial
  | loadTail op b blockFront =>
    obtain ⟨rfl, hbf⟩ := h
    refine ⟨hs.frontBlock.symm, ?_⟩
    rw [hs.front _ hfm]
    exact hbf
  | take op b blockFront =>
    obtain ⟨rfl, hbf, hlt⟩ := h
    refine ⟨hs.frontBlock.symm, ?_, ?_⟩
    · rw [hs.front _ hfm]
      exact hbf
    · rw [hs.localTail _ hfm]
      exact hlt
  | storeFront op x b blockFront =>
    obtain ⟨hop, rfl, hbf, hx⟩ := h
    refine ⟨hop, hs.frontBlock.symm, ?_, hx.trans (hs.items_le _ hf)⟩
    rw [hs.front _ hfm, hs.size _ hfm]
    exact hbf
  | checkTailBlock op b => exact Eq.trans h hs.frontBlock.symm
  | reload op => exact hl h
  | loadNext op b =>
    obtain ⟨rfl, hlen, he⟩ := h
    refine ⟨hs.frontBlock.symm, hl hlen, ?_⟩
    rw [hs.frontItems hlen]
    exact he
  | loadNextTail op nb =>
    obtain ⟨he, hp⟩ := h
    refine ⟨?_, ?_⟩
    · rw [hs.frontBlock, hs.frontItems (hpair hp).1]
      exact he
    · rw [hs.frontBlock]
      exact hp.trans hs.used_le
  | storeFrontBlock op nb nf =>
    obtain ⟨he, hp, hnf, hlt⟩ := h
    refine ⟨?_, ?_, ?_, ?_⟩
    · rw [hs.frontBlock, hs.frontItems (hpair hp).1]
      exact he
    · rw [hs.frontBlock]
      exact hp.trans hs.used_le
    · rw [hs.front _ (hpair hp).2]
      exact hnf
    · rw [hs.localTail _ (hpair hp).2]
      exact hlt
  | peekNext nb nf =>
    obtain ⟨he, hp, hnf⟩ := h
    refine ⟨?_, ?_, ?_⟩
    · rw [hs.frontBlock, hs.frontItems (hpair hp).1]
      exact he
    · rw [hs.frontBlock]
      exact hp.trans hs.used_le
    · rw [hs.front _ (hpair hp).2]
      exact hnf

theorem ConsumerStep.tailFull (hs : ConsumerStep q q' used used' free free' items items')
    (h : q.TailFull used items) : q'.TailFull used' items' := by
  intro hl
  obtain ⟨hl', hi⟩ := hs.tailItems hl
  rw [hs.tailBlock, hi, hs.size]
  exact h hl'

theorem ConsumerStep.head? (hs : ConsumerStep q q' used used' free free' items items') {b : BlockId}
    (h : free.head? = some b) : free'.head? = some b := by
  obtain ⟨t, ht⟩ := hs.free_le
  rw [← ht, List.head?_append, h]
  rfl

theorem EnqPc.At.mono {pc : EnqPc α} (h : pc.At q used free items)
    (hs : ConsumerStep q q' used used' free free' items items') : pc.At q' used' free' items' := by
  cases pc with
  | idle | enter | leave => trivial
  | loadFront mode x b bt nt =>
    simp only [EnqPc.At, hs.tailBlock, hs.tail, hs.size] at h ⊢
    exact h
  | construct x b bt nt =>
    simp only [EnqPc.At, hs.tailBlock, hs.tail, hs.size, hs.localFront] at h ⊢
    exact h
  | storeTail x b nt =>
    simp only [EnqPc.At, hs.tailBlock, hs.tail, hs.size] at h ⊢
    exact h
  | checkNext mode x b => exact ⟨h.1.trans hs.tailBlock.symm, hs.tailFull h.2⟩
  | makeBlock x b => exact ⟨h.1.trans hs.tailBlock.symm, hs.tailFull h.2⟩
  | loadNext x b =>
    exact ⟨h.1.trans hs.tailBlock.symm, hs.tailFull h.2.1, fun e =>
      h.2.2 (List.prefix_nil.1 (e ▸ hs.free_le))⟩
  | constructNext x b nt =>
    obtain ⟨hfull, hb, ht, hne⟩ := h
    refine ⟨hs.tailFull hfull, hs.head? hb, ?_, ?_⟩
    · rw [hs.tail]
      exact ht
    · rw [hs.size, hs.localFront]
      exact hne
  | storeNextTail x b nt =>
    obtain ⟨hfull, hb, ht⟩ := h
    refine ⟨hs.tailFull hfull, hs.head? hb, ?_⟩
    rw [hs.tail]
    exact ht
  | linkBlock x b nb =>
    obtain ⟨hb, hfull, hnb, hm, hh, hnext, hsz⟩ := h
    refine ⟨hb.trans hs.tailBlock.symm, hs.tailFull hfull, fun hmem => hnb (hs.perm.mem_iff.1 hmem),
      ?_, ?_, ?_, ?_⟩
    · rw [hs.made]
      exact hm
    · rw [hs.outside _ hnb]
      exact hh
    · rw [hs.next, hs.next]
      exact hnext
    · rw [hs.size, hs.largest]
      exact hsz
  | storeTailBlock x b => exact ⟨hs.tailFull h.1, hs.head? h.2⟩

end

/-! ## The room there is -/

/-- The number of elements that the blocks have room for. -/
def Queue.room (q : Queue α) (ids : List BlockId) : Nat := (ids.map fun b => (q.heap b).sizeMask).sum

/-- The blocks have room for `size` elements wherever those begin: a first block that is partly taken
does not count when others are full. -/
structure Queue.Reserve (size : Nat) (q : Queue α) (ids : List BlockId) : Prop where
  one : ids.length = 1 → size ≤ q.room ids
  several : ids.length ≠ 1 → ∀ b ∈ ids, size + (q.heap b).sizeMask ≤ q.room ids
  largest : ∀ b ∈ ids, (q.heap b).size ≤ q.largestBlockSize
  pow : ∃ k, q.largestBlockSize = 2 ^ (k + 1)

namespace Queue

variable {size : Nat} {q q' : Queue α} {ids ids' : List BlockId}

theorem room_congr (h : ∀ b ∈ ids, (q'.heap b).size = (q.heap b).size) : q'.room ids = q.room ids :=
  congrArg List.sum (List.map_congr_left fun b hb => Nat.succ.inj (h b hb))

theorem room_perm (h : ids.Perm ids') : q.room ids = q.room ids' := (h.map _).sum_eq

theorem room_cons (b : BlockId) : q.room (b :: ids) = (q.heap b).sizeMask + q.room ids := by
  simp [room]

theorem Reserve.congr (h : q.Reserve size ids) (hs : ∀ b ∈ ids, (q'.heap b).size = (q.heap b).size)
    (hl : q'.largestBlockSize = q.largestBlockSize) (hp : ids'.Perm ids) : q'.Reserve size ids' := by
  have hroom : q'.room ids' = q.room ids := (room_perm hp).trans (room_congr hs)
  refine ⟨fun h1 => ?_, fun h1 b hb => ?_, fun b hb => ?_, ?_⟩
  · rw [hroom]
    exact h.one (hp.length_eq ▸ h1)
  · have hmask : (q'.heap b).sizeMask = (q.heap b).sizeMask := Nat.succ.inj (hs b (hp.mem_iff.1 hb))
    rw [hroom, hmask]
    exact h.several (hp.length_eq ▸ h1) b (hp.mem_iff.1 hb)
  · rw [hs b (hp.mem_iff.1 hb), hl]
    exact h.largest b (hp.mem_iff.1 hb)
  · rw [hl]
    exact h.pow

/-- `largestBlockSize` grows with a block that is not in the ring yet. -/
theorem Reserve.grow (h : q.Reserve size ids) (hs : ∀ b ∈ ids, (q'.heap b).size = (q.heap b).size)
    (hl : q.largestBlockSize ≤ q'.largestBlockSize) (hp : ∃ k, q'.largestBlockSize = 2 ^ (k + 1)) :
    q'.Reserve size ids := by
  have hroom : q'.room ids = q.room ids := room_congr hs
  refine ⟨fun h1 => ?_, fun h1 b hb => ?_, fun b hb => ?_, hp⟩
  · rw [hroom]
    exact h.one h1
  · have hmask : (q'.heap b).sizeMask = (q.heap b).sizeMask := Nat.succ.inj (hs b hb)
    rw [hroom, hmask]
    exact h.several h1 b hb
  · rw [hs b hb]
    exact Nat.le_trans (h.largest b hb) hl

/-- The block joins the ring. -/
theorem Reserve.insert {b : BlockId} (h : q.Reserve size ids) (hne : ids ≠ [])
    (hb : (q.heap b).size = q.largestBlockSize) : q.Reserve size (b :: ids) := by
  refine ⟨fun h1 => ?_, fun _ b' hb' => ?_, fun b' hb' => ?_, h.pow⟩
  · exact absurd (List.length_eq_zero_iff.1 (Nat.succ.inj h1)) hne
  · rw [room_cons]
    by_cases h1 : ids.length = 1
    · have hone := h.one h1
      rcases List.mem_cons.1 hb' with rfl | hb'
      · omega
      · obtain ⟨c, rfl⟩ := List.length_eq_one_iff.1 h1
        obtain rfl := List.mem_singleton.1 hb'
        have hc := h.largest b' hb'
        rw [← hb] at hc
        have hc' : (q.heap b').sizeMask ≤ (q.heap b).sizeMask := Nat.le_of_succ_le_succ hc
        omega
    · rcases List.mem_cons.1 hb' with rfl | hb'
      · obtain ⟨c, hc⟩ := List.exists_mem_of_ne_nil _ hne
        have := h.several h1 c hc
        omega
      · have := h.several h1 b' hb'
        omega
  · rcases List.mem_cons.1 hb' with rfl | hb'
    · exact Nat.le_of_eq hb
    · exact h.largest b' hb'

end Queue

/-! ## Both sides -/

structure Good (size : Nat) (q : Queue α) (enq : EnqPc α) (deq : DeqPc α) (used free : List BlockId)
    (items : BlockId → List α) : Prop where
  ring : q.Ring enq.built enq.ready deq.taken used free items
  enqAt : enq.At q used free items
  deqAt : deq.At q used items
  enqueuing : q.enqueuing = enq.busy
  dequeuing : q.dequeuing = deq.busy
  reserve : q.Reserve size (used ++ free)
  made : q.made = (used ++ free).length + enq.unlinked

namespace Good

variable {size : Nat} {q q' : Queue α} {enq enq' : EnqPc α} {deq deq' : DeqPc α}
  {used used' free free' : List BlockId} {items items' : BlockId → List α}

theorem producer (g : Good size q enq deq used free items)
    (hs : ProducerStep q q' used used' items items')
    (hr : q'.Ring enq'.built enq'.ready deq.taken used' free' items')
    (hat : enq'.At q' used' free' items')
    (hb : q'.enqueuing = enq'.busy) (hres : q'.Reserve size (used' ++ free'))
    (hm : q'.made = (used' ++ free').length + enq'.unlinked) :
    Good size q' enq' deq used' free' items' :=
  ⟨hr, hat,
    g.deqAt.mono hs g.ring.front_mem fun b hb => g.ring.made b (List.mem_append_left _ hb), hb,
    hs.dequeuing.trans g.dequeuing, hres, hm⟩

theorem consumer (g : Good size q enq deq used free items)
    (hs : ConsumerStep q q' used used' free free' items items')
    (hr : q'.Ring enq.built enq.ready deq'.taken used' free' items') (hat : deq'.At q' used' items')
    (hb : q'.dequeuing = deq'.busy) : Good size q' enq deq' used' free' items' :=
  ⟨hr, g.enqAt.mono hs, hat, hs.enqueuing.trans g.enqueuing, hb,
    g.reserve.congr (fun b _ => hs.size b) hs.largest hs.perm,
    by rw [hs.made, hs.perm.length_eq]; exact g.made⟩

theorem callEnqueue {mode : AllocationMode} {x : α} (g : Good size q .idle deq used free items) :
    Good size q (.enter mode x) deq used free items :=
  ⟨g.ring, trivial, g.deqAt, g.enqueuing, g.dequeuing, g.reserve, g.made⟩

theorem callDequeue {op : DeqOp} (g : Good size q enq .idle used free items) :
    Good size q enq (.enter op) used free items :=
  ⟨g.ring, g.enqAt, trivial, g.enqueuing, g.dequeuing, g.reserve, g.made⟩

theorem leaveEnq {r : Bool} (g : Good size q (.leave r) deq used free items) :
    Good size { q with enqueuing := false } .idle deq used free items :=
  g.producer ⟨rfl, rfl, fun _ _ => rfl, fun _ _ => rfl, fun _ _ => rfl, List.prefix_rfl,
    fun _ _ => List.prefix_rfl, fun _ => rfl⟩ (g.ring.flags false q.dequeuing q.largestBlockSize)
    trivial
    rfl (g.reserve.congr (fun _ _ => rfl) rfl (.refl _)) g.made

theorem leaveDeq {r : Ret α} (g : Good size q enq (.leave r) used free items) :
    Good size { q with dequeuing := false } enq .idle used free items :=
  g.consumer ⟨rfl, rfl, rfl, rfl, fun _ => rfl, fun _ => rfl, fun _ => rfl, fun _ => rfl,
    fun _ _ => rfl, .refl _, List.prefix_rfl, fun hl => ⟨hl, rfl⟩⟩
    (g.ring.flags q.enqueuing false q.largestBlockSize) trivial
    rfl

end Good

end Moodycamel
