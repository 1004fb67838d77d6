import NetworkPoller.Lib.Cyclic
import NetworkPoller.Queue.Proof.Blocks

/-!
# The ring of blocks

The blocks are a circular linked list: those in use, from `frontBlock` to `tailBlock`, then the free
ones. `items b` are the elements of block `b` between its `front` and its `tail`; the queue holds
the items of the blocks in use, in order. Blocks behind the first are never empty, and those between
the first and the last are full, since the producer leaves a block only when it is full and the
consumer takes from the first block only. The free blocks are empty, but for one that the producer
has filled and is about to use.
-/

namespace Moodycamel

open Cyclic

variable {α : Type}

/-- What the producer has built in a block without having stored its `tail`. -/
def EnqPc.built : EnqPc α → BlockId → List α
  | .storeTail x b _ | .storeNextTail x b _ => fun b' => if b' = b then [x] else []
  | _ => fun _ => []

theorem EnqPc.built_storeTail (x : α) (b : BlockId) (n : Nat) :
    (EnqPc.storeTail x b n).built b = [x] :=
  if_pos rfl

theorem EnqPc.built_storeNextTail (x : α) (b : BlockId) (n : Nat) :
    (EnqPc.storeNextTail x b n).built b = [x] := if_pos rfl

/-- What it has put into a block that `tailBlock` does not point to yet. -/
def EnqPc.ready : EnqPc α → BlockId → List α
  | .storeTailBlock x b => fun b' => if b' = b then [x] else []
  | _ => fun _ => []

theorem EnqPc.ready_storeTailBlock (x : α) (b : BlockId) : (EnqPc.storeTailBlock x b).ready b = [x] :=
  if_pos rfl

/-- How many elements of a block the consumer has moved out without having stored its `front`. -/
def DeqPc.taken : DeqPc α → BlockId → Nat
  | .storeFront _ _ b _ => fun b' => if b' = b then 1 else 0
  | _ => fun _ => 0

theorem DeqPc.taken_storeFront (op : DeqOp) (x : α) (b : BlockId) (n : Nat) :
    (DeqPc.storeFront op x b n).taken b = 1 := if_pos rfl

namespace Queue

theorem upd_heap (q : Queue α) (b : BlockId) (f : Block α → Block α) :
    (q.upd b f).heap b = f (q.heap b) := Function.update_self ..

theorem construct_eq {q : Queue α} {b : BlockId} {i : Nat} (h : (q.heap b).data i = none) (x : α) :
    q.construct b i x = .ok
      (q.upd b fun y => { y with data := Function.update y.data i (some x) }) := by
  rw [construct, h]

/-- A part of the blocks that a change of one of them leaves alone. -/
theorem upd_congr {β : Type} {q : Queue α} {b : BlockId} {f : Block α → Block α} (p : Block α → β)
    (hp : p (f (q.heap b)) = p (q.heap b)) (b' : BlockId) :
    p ((q.upd b f).heap b') = p (q.heap b') := by
  show p (Function.update q.heap b (f (q.heap b)) b') = _
  by_cases hb : b' = b
  · rw [hb, Function.update_self, hp]
  · rw [Function.update_of_ne hb]

structure Ring (q : Queue α) (built ready : BlockId → List α) (taken : BlockId → Nat)
    (used free : List BlockId) (items : BlockId → List α) : Prop where
  nodup : (used ++ free).Nodup
  linked : Linked (fun b => (q.heap b).next) (used ++ free)
  front : used.head? = some q.frontBlock
  tail : used.getLast? = some q.tailBlock
  made : ∀ b ∈ used ++ free, b < q.made
  holds : ∀ b ∈ used ++ free, (q.heap b).Holds (items b) (taken b) (built b)
  spare : ∀ b ∈ free, items b = ready b
  nonempty : ∀ b ∈ used.tail, items b ≠ []
  full : ∀ b ∈ used.tail.dropLast, (items b).length + 1 = (q.heap b).size

namespace Ring

variable {q : Queue α} {built built' ready ready' : BlockId → List α} {taken taken' : BlockId → Nat}
  {used free : List BlockId} {items : BlockId → List α} {b : BlockId} {x : α}

theorem used_cons (h : q.Ring built ready taken used free items) :
    ∃ rest, used = q.frontBlock :: rest := by
  cases used with
  | nil => cases h.front
  | cons b rest =>
    have := h.front
    rw [List.head?_cons, Option.some.injEq] at this
    exact ⟨rest, by rw [this]⟩

theorem used_concat (h : q.Ring built ready taken used free items) :
    ∃ u, used = u ++ [q.tailBlock] := by
  have ht := h.tail
  rw [List.getLast?_eq_some_iff] at ht
  exact ht

theorem front_mem (h : q.Ring built ready taken used free items) : q.frontBlock ∈ used := by
  obtain ⟨rest, hr⟩ := h.used_cons
  rw [hr]
  exact List.mem_cons_self

theorem tail_mem (h : q.Ring built ready taken used free items) : q.tailBlock ∈ used := by
  obtain ⟨u, hu⟩ := h.used_concat
  rw [hu]
  exact List.mem_append_right _ List.mem_cons_self

theorem front_holds (h : q.Ring built ready taken used free items) :
    (q.heap q.frontBlock).Holds (items q.frontBlock) (taken q.frontBlock) (built q.frontBlock) :=
  h.holds _ (List.mem_append_left _ h.front_mem)

theorem tail_holds (h : q.Ring built ready taken used free items) :
    (q.heap q.tailBlock).Holds (items q.tailBlock) (taken q.tailBlock) (built q.tailBlock) :=
  h.holds _ (List.mem_append_left _ h.tail_mem)

theorem used_nodup (h : q.Ring built ready taken used free items) : used.Nodup :=
  (List.nodup_append.1 h.nodup).1

theorem not_used_of_free (h : q.Ring built ready taken used free items) (hb : b ∈ free) : b ∉ used :=
  fun hu => (List.nodup_append.1 h.nodup).2.2 b hu b hb rfl

/-- The two ends are one block exactly if no other is in use. -/
theorem length_one_iff (h : q.Ring built ready taken used free items) :
    used.length = 1 ↔ q.frontBlock = q.tailBlock := by
  obtain ⟨rest, hr⟩ := h.used_cons
  have ht := h.tail
  have hn := h.used_nodup
  rw [hr] at ht hn ⊢
  cases rest with
  | nil =>
    rw [List.getLast?_singleton, Option.some.injEq] at ht
    simp [ht]
  | cons c rest =>
    have hm : q.tailBlock ∈ c :: rest := by
      rw [List.getLast?_cons_cons] at ht
      exact List.mem_of_mem_getLast? ht
    constructor
    · intro hl
      simp at hl
    · intro he
      rw [he] at hn
      exact absurd hm (List.nodup_cons.1 hn).1

theorem tail_eq_concat (h : q.Ring built ready taken used free items) (hl : used.length ≠ 1) :
    used.tail = used.tail.dropLast ++ [q.tailBlock] := by
  obtain ⟨u, hu⟩ := h.used_concat
  cases u with
  | nil => exact absurd (by rw [hu]; rfl) hl
  | cons c u =>
    rw [hu, List.cons_append, List.tail_cons, List.dropLast_concat]

/-- What follows the last block in use. -/
theorem next_tail (h : q.Ring built ready taken used free items) :
    (q.heap q.tailBlock).next = (free ++ [q.frontBlock]).head? := by
  obtain ⟨u, hu⟩ := h.used_concat
  obtain ⟨rest, hr⟩ := h.used_cons
  have hl := h.linked
  rw [hu, List.append_assoc, List.singleton_append] at hl
  rw [hl.follows, ← hu, hr]
  cases free <;> rfl

/-- What follows the first block, when others are in use. -/
theorem next_front (h : q.Ring built ready taken used free items) (hl : used.length ≠ 1) :
    ∃ nb rest, used = q.frontBlock :: nb :: rest ∧ (q.heap q.frontBlock).next = some nb := by
  obtain ⟨rest, hr⟩ := h.used_cons
  cases rest with
  | nil => exact absurd (by rw [hr]; rfl) hl
  | cons nb rest =>
    have hlk := h.linked
    rw [hr] at hlk
    exact ⟨nb, rest, hr, hlk.follows (u := [])⟩

/-! ## Changes -/

/-- The members that the ring does not depend on. -/
theorem flags (h : q.Ring built ready taken used free items) (enqueuing dequeuing : Bool) (n : Nat) :
    Ring { q with enqueuing := enqueuing, dequeuing := dequeuing, largestBlockSize := n } built ready
      taken used free items :=
  ⟨h.nodup, h.linked, h.front, h.tail, h.made, h.holds, h.spare, h.nonempty, h.full⟩

/-- A block of the ring is changed, and holds `ys` then. -/
theorem upd (built' ready' : BlockId → List α) (taken' : BlockId → Nat) (ys : List α)
    (f : Block α → Block α) (h : q.Ring built ready taken used free items)
    (hb : b ∈ used ++ free) (hnext : (f (q.heap b)).next = (q.heap b).next)
    (hsize : (f (q.heap b)).size = (q.heap b).size)
    (hh : (f (q.heap b)).Holds ys (taken' b) (built' b))
    (hother : ∀ b', b' ≠ b → taken' b' = taken b' ∧ built' b' = built b')
    (hspare : ∀ b' ∈ free, Function.update items b ys b' = ready' b')
    (hne : b ∈ used.tail → ys ≠ [])
    (hfull : b ∈ used.tail.dropLast → ys.length + 1 = (q.heap b).size) :
    (q.upd b f).Ring built' ready' taken' used free (Function.update items b ys) := by
  refine ⟨h.nodup, ?_, h.front, h.tail, h.made, fun b' hb' => ?_, hspare, fun b' hb' => ?_,
    fun b' hb' => ?_⟩
  · exact h.linked.congr fun b' _ => upd_congr Block.next hnext b'
  · show (Function.update q.heap b (f (q.heap b)) b').Holds _ _ _
    by_cases hbb : b' = b
    · subst hbb
      rw [Function.update_self, Function.update_self]
      exact hh
    · rw [Function.update_of_ne hbb, Function.update_of_ne hbb, (hother b' hbb).1, (hother b' hbb).2]
      exact h.holds b' hb'
  · by_cases hbb : b' = b
    · subst hbb
      rw [Function.update_self]
      exact hne hb'
    · rw [Function.update_of_ne hbb]
      exact h.nonempty b' hb'
  · rw [upd_congr Block.size hsize]
    by_cases hbb : b' = b
    · subst hbb
      rw [Function.update_self]
      exact hfull hb'
    · rw [Function.update_of_ne hbb]
      exact h.full b' hb'

/-- A block is changed, its elements are not. -/
theorem touch (built' : BlockId → List α) (taken' : BlockId → Nat) (f : Block α → Block α)
    (h : q.Ring built ready taken used free items)
    (hb : b ∈ used ++ free) (hnext : (f (q.heap b)).next = (q.heap b).next)
    (hsize : (f (q.heap b)).size = (q.heap b).size)
    (hh : (f (q.heap b)).Holds (items b) (taken' b) (built' b))
    (hother : ∀ b', b' ≠ b → taken' b' = taken b' ∧ built' b' = built b') :
    (q.upd b f).Ring built' ready taken' used free items := by
  have hu := h.upd built' ready taken' (items b) f hb hnext hsize hh hother
    (by rw [Function.update_eq_self]; exact h.spare) (h.nonempty b) (h.full b)
  rwa [Function.update_eq_self] at hu

/-- A block outside the ring is changed. -/
theorem outside {y : Block α} (h : q.Ring built ready taken used free items) (hb : b ∉ used ++ free)
    {n : Nat} (hn : q.made ≤ n) :
    Ring { q with heap := Function.update q.heap b y, made := n } built ready taken used free
      items := by
  have hsame : ∀ b' ∈ used ++ free, Function.update q.heap b y b' = q.heap b' := fun b' hb' =>
    Function.update_of_ne (ne_of_mem_of_not_mem hb' hb) ..
  refine ⟨h.nodup, h.linked.congr fun b' hb' => congrArg Block.next (hsame b' hb'), h.front, h.tail,
    fun b' hb' => Nat.lt_of_lt_of_le (h.made b' hb') hn, fun b' hb' => ?_, h.spare, h.nonempty,
    fun b' hb' => ?_⟩
  · show (Function.update q.heap b y b').Holds _ _ _
    rw [hsame b' hb']
    exact h.holds b' hb'
  · show _ = (Function.update q.heap b y b').size
    rw [hsame b' (List.mem_append_left _ (List.mem_of_mem_tail (List.mem_of_mem_dropLast hb')))]
    exact h.full b' hb'

/-- A block that holds `x` is put behind the last one in use. -/
theorem link (ready' : BlockId → List α) (h : q.Ring built ready taken used free items)
    (hb : b ∉ used ++ free) (hm : b < q.made) (hh : (q.heap b).Holds [x] (taken b) (built b))
    (hnext : (q.heap b).next = (q.heap q.tailBlock).next)
    (hready : ∀ b', ready' b' = if b' = b then [x] else ready b') :
    (q.upd q.tailBlock fun y => { y with next := some b }).Ring built ready' taken used (b :: free)
      (Function.update items b [x]) := by
  have hbt : b ≠ q.tailBlock := fun e => hb (e ▸ List.mem_append_left _ h.tail_mem)
  have hne : ∀ b' ∈ used ++ free, b' ≠ b := fun b' hb' => ne_of_mem_of_not_mem hb' hb
  obtain ⟨u, hu⟩ := h.used_concat
  have hperm : (used ++ b :: free).Perm (b :: (used ++ free)) := List.perm_middle
  have hheap : ∀ b', b' ≠ q.tailBlock →
      (q.upd q.tailBlock fun y => { y with next := some b }).heap b' = q.heap b' := fun b' hb' =>
    Function.update_of_ne hb' ..
  have htail : (q.upd q.tailBlock fun y => { y with next := some b }).heap q.tailBlock =
      { q.heap q.tailBlock with next := some b } := Function.update_self ..
  have hsize : ∀ b', ((q.upd q.tailBlock fun y => { y with next := some b }).heap b').size =
      (q.heap b').size := upd_congr Block.size rfl
  refine ⟨hperm.nodup_iff.2 (List.nodup_cons.2 ⟨hb, h.nodup⟩), ?_, h.front, h.tail, fun b' hb' => ?_,
    fun b' hb' => ?_, fun b' hb' => ?_, fun b' hb' => ?_, fun b' hb' => ?_⟩
  · have hl := h.linked
    have hn := h.nodup
    rw [hu, List.append_assoc, List.singleton_append] at hl hn hb ⊢
    refine hl.insert hn hb (by rw [htail]) ?_ fun b' hbt' _ => by rw [hheap b' hbt']
    rw [hheap b hbt, hnext]
  · rcases List.mem_cons.1 (hperm.mem_iff.1 hb') with rfl | hb''
    · exact hm
    · exact h.made b' hb''
  · rcases List.mem_cons.1 (hperm.mem_iff.1 hb') with rfl | hb''
    · rw [hheap b' hbt, Function.update_self]
      exact hh
    · rw [Function.update_of_ne (hne b' hb'')]
      by_cases hbt' : b' = q.tailBlock
      · rw [hbt', htail]
        exact h.tail_holds.setNext _
      · rw [hheap b' hbt']
        exact h.holds b' hb''
  · rw [hready]
    rcases List.mem_cons.1 hb' with rfl | hb''
    · rw [Function.update_self, if_pos rfl]
    · have := hne b' (List.mem_append_right _ hb'')
      rw [Function.update_of_ne this, if_neg this]
      exact h.spare b' hb''
  · rw [Function.update_of_ne (hne b' (List.mem_append_left _ (List.mem_of_mem_tail hb')))]
    exact h.nonempty b' hb'
  · rw [hsize, Function.update_of_ne
      (hne b' (List.mem_append_left _ (List.mem_of_mem_tail (List.mem_of_mem_dropLast hb'))))]
    exact h.full b' hb'

/-- `tailBlock` is advanced to the free block that holds `x`. -/
theorem advanceTail (ready' : BlockId → List α)
    (h : q.Ring built ready taken used (b :: free) items) (hb : items b ≠ [])
    (hfull : used.length ≠ 1 → (items q.tailBlock).length + 1 = (q.heap q.tailBlock).size)
    (hready : ∀ b' ∈ free, ready b' = ready' b') :
    Ring { q with tailBlock := b } built ready' taken (used ++ [b]) free items := by
  have happ : used ++ [b] ++ free = used ++ b :: free := by
    rw [List.append_assoc, List.singleton_append]
  obtain ⟨rest, hr⟩ := h.used_cons
  have htl : (used ++ [b]).tail = used.tail ++ [b] := by rw [hr]; rfl
  refine ⟨happ ▸ h.nodup, happ ▸ h.linked, ?_, List.getLast?_concat, happ ▸ h.made, happ ▸ h.holds,
    fun b' hb' => ?_, fun b' hb' => ?_, fun b' hb' => ?_⟩
  · rw [hr]
    rfl
  · rw [h.spare b' (List.mem_cons_of_mem _ hb'), hready b' hb']
  · rw [htl, List.mem_append, List.mem_singleton] at hb'
    rcases hb' with hb' | rfl
    · exact h.nonempty b' hb'
    · exact hb
  · -- the block left behind joins those in the middle, unless it is the first
    rw [htl, List.dropLast_concat] at hb'
    by_cases hmid : b' ∈ used.tail.dropLast
    · exact h.full b' hmid
    · have hl : used.length ≠ 1 := by
        intro h1
        rw [hr, List.length_cons] at h1
        rw [hr, List.tail_cons, List.length_eq_zero_iff.1 (Nat.succ.inj h1)] at hb'
        cases hb'
      rw [h.tail_eq_concat hl, List.mem_append, List.mem_singleton] at hb'
      rcases hb' with hb' | rfl
      · exact absurd hb' hmid
      · exact hfull hl

/-- `frontBlock` is advanced; the empty block left behind is free. -/
theorem advanceFront {nb : BlockId} {rest : List BlockId}
    (h : q.Ring built ready taken (q.frontBlock :: nb :: rest) free items)
    (he : items q.frontBlock = []) (hr : ready q.frontBlock = []) :
    Ring { q with frontBlock := nb } built ready taken (nb :: rest) (free ++ [q.frontBlock])
      items := by
  have happ : nb :: rest ++ (free ++ [q.frontBlock]) = nb :: rest ++ free ++ [q.frontBlock] :=
    (List.append_assoc ..).symm
  have hperm : (nb :: rest ++ free ++ [q.frontBlock]).Perm (q.frontBlock :: (nb :: rest ++ free)) :=
    List.perm_append_singleton ..
  refine ⟨?_, ?_, rfl, ?_, fun b' hb' => ?_, fun b' hb' => ?_, fun b' hb' => ?_, fun b' hb' => ?_,
    fun b' hb' => ?_⟩
  · rw [happ, hperm.nodup_iff]
    exact h.nodup
  · rw [happ]
    exact h.linked.rotate
  · have ht := h.tail
    rwa [List.getLast?_cons_cons] at ht
  · rw [happ, hperm.mem_iff] at hb'
    exact h.made b' hb'
  · rw [happ, hperm.mem_iff] at hb'
    exact h.holds b' hb'
  · rcases List.mem_append.1 hb' with hb' | hb'
    · exact h.spare b' hb'
    · rw [List.mem_singleton.1 hb', he, hr]
  · exact h.nonempty b' (List.mem_cons_of_mem _ hb')
  · cases rest with
    | nil => cases hb'
    | cons c rest => exact h.full b' (List.mem_cons_of_mem _ hb')

end Ring

/-! ## The elements in the queue -/

variable {used : List BlockId} {items : BlockId → List α} {b : BlockId} {ys : List α} {x : α}

/-- A block that is not in use does not count. -/
theorem flatMap_update_of_notMem (hb : b ∉ used) :
    used.flatMap (Function.update items b ys) = used.flatMap items := by
  refine List.flatMap_congr fun b' hb' => ?_
  rw [Function.update_of_ne (ne_of_mem_of_not_mem hb' hb)]

theorem flatMap_push {u : List BlockId} (hn : (u ++ [b]).Nodup) :
    (u ++ [b]).flatMap (Function.update items b (items b ++ [x])) =
      (u ++ [b]).flatMap items ++ [x] := by
  have hb : b ∉ u := fun hm => (List.nodup_append.1 hn).2.2 b hm b List.mem_cons_self rfl
  rw [List.flatMap_append, flatMap_update_of_notMem hb, List.flatMap_append, List.append_assoc]
  simp

theorem flatMap_pop {rest : List BlockId} (hn : (b :: rest).Nodup) (hx : items b = x :: ys) :
    (b :: rest).flatMap items = x :: (b :: rest).flatMap (Function.update items b ys) := by
  rw [List.flatMap_cons, List.flatMap_cons, flatMap_update_of_notMem (List.nodup_cons.1 hn).1,
    Function.update_self, hx, List.cons_append]

end Queue

end Moodycamel
