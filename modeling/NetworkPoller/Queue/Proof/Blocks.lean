import NetworkPoller.Lib.Circular
import NetworkPoller.Queue.ReaderWriterQueue

/-!
# One block

`Block.Holds y xs d e`: the block `y` holds the elements `xs` between `front` and `tail`. The first
`d` of them have been moved out by the consumer, which has not stored `front` yet; `e` are built
behind the last one by the producer, which has not stored `tail` yet. The copies `localTail` and
`localFront` are values that `tail` and `front` had since the last turn. One lemma for each access
says what it does.
-/

namespace Moodycamel

open Circular

variable {α : Type}

namespace Block

/-- The number of slots. -/
def size (y : Block α) : Nat := y.sizeMask + 1

structure Holds (y : Block α) (xs : List α) (d : Nat) (e : List α) : Prop where
  pow : ∃ k, y.size = 2 ^ (k + 1)
  front_lt : y.front < y.size
  room : xs.length + e.length < y.size
  tail_eq : y.tail = (y.front + xs.length) % y.size
  taken : d ≤ xs.length
  data_eq : y.data = layout y.size ((y.front + d) % y.size) (xs.drop d ++ e)
  seenTail : ∃ m, d ≤ m ∧ m ≤ xs.length ∧ y.localTail = (y.front + m) % y.size
  seenFront : y.localFront < y.size ∧
    ∃ m, m + xs.length + e.length < y.size ∧ y.front = (y.localFront + m) % y.size

namespace Holds

variable {y : Block α} {xs e : List α} {d : Nat} {x : α}

theorem pos (h : y.Holds xs d e) : 0 < y.size := Nat.zero_lt_of_lt h.front_lt

theorem two_le (h : y.Holds xs d e) : 2 ≤ y.size := by
  obtain ⟨k, hk⟩ := h.pow
  rw [hk, Nat.pow_succ]
  have := Nat.one_le_two_pow (n := k)
  omega

/-- The mask is a remainder. -/
theorem and_mask (h : y.Holds xs d e) (i : Nat) : i &&& y.sizeMask = i % y.size := by
  obtain ⟨k, hk⟩ := h.pow
  have hm : y.sizeMask = 2 ^ (k + 1) - 1 := by
    rw [← hk]
    rfl
  rw [hm, Nat.and_two_pow_sub_one_eq_mod, hk]

theorem tail_lt (h : y.Holds xs d e) : y.tail < y.size := by
  rw [h.tail_eq]
  exact Nat.mod_lt _ h.pos

theorem front_eq_tail_iff (h : y.Holds xs d e) : y.front = y.tail ↔ xs = [] := by
  have hl : xs.length < y.size := Nat.lt_of_le_of_lt (Nat.le_add_right ..) h.room
  rw [h.tail_eq, ← List.length_eq_zero_iff]
  constructor
  · intro he
    refine offset_inj (f := y.front) hl h.pos ?_
    rw [← he, Nat.add_zero, Nat.mod_eq_of_lt h.front_lt]
  · intro he
    rw [he, Nat.add_zero, Nat.mod_eq_of_lt h.front_lt]

/-- The consumer's copy tells of an element. -/
theorem ne_nil_of_seen (h : y.Holds xs d e) (hs : y.front ≠ y.localTail) : xs ≠ [] := by
  rintro rfl
  obtain ⟨m, -, hm, hl⟩ := h.seenTail
  obtain rfl : m = 0 := Nat.le_zero.1 hm
  rw [Nat.add_zero, Nat.mod_eq_of_lt h.front_lt] at hl
  exact hs hl.symm

/-- The slot behind `tail` is the last free one exactly if the block is full. -/
theorem next_eq_front_iff (h : y.Holds xs d e) :
    (y.tail + 1) % y.size = y.front ↔ xs.length + 1 = y.size := by
  have hl : xs.length < y.size := Nat.lt_of_le_of_lt (Nat.le_add_right ..) h.room
  rw [h.tail_eq, Nat.mod_add_mod, Nat.add_assoc]
  constructor
  · intro he
    by_contra hne
    have h0 := offset_inj (f := y.front) (show xs.length + 1 < y.size by omega) h.pos
      (he.trans (by rw [Nat.add_zero, Nat.mod_eq_of_lt h.front_lt]))
    omega
  · intro he
    rw [he, Nat.add_mod_right, Nat.mod_eq_of_lt h.front_lt]

/-- There is room as long as the slot behind `tail` is not the producer's copy of `front`. -/
theorem room_of_seen (h : y.Holds xs d []) (hs : (y.tail + 1) % y.size ≠ y.localFront) :
    ∃ m, m + xs.length + 1 < y.size ∧ y.front = (y.localFront + m) % y.size := by
  obtain ⟨hlt, m, hm, hf⟩ := h.seenFront
  refine ⟨m, ?_, hf⟩
  by_contra hge
  apply hs
  have hm' : m + (xs.length + 1) = y.size := by
    rw [List.length_nil] at hm
    omega
  rw [h.tail_eq, hf, Nat.mod_add_mod, Nat.add_assoc, Nat.mod_add_mod, Nat.add_assoc, hm',
    Nat.add_mod_right, Nat.mod_eq_of_lt hlt]

/-! ## The accesses -/

/-- `localFront = front.load()`. -/
theorem loadFront (h : y.Holds xs d e) : Holds { y with localFront := y.front } xs d e where
  pow := h.pow
  front_lt := h.front_lt
  room := h.room
  tail_eq := h.tail_eq
  taken := h.taken
  data_eq := h.data_eq
  seenTail := h.seenTail
  seenFront := by
    refine ⟨h.front_lt, 0, ?_, ?_⟩
    · rw [Nat.zero_add]
      exact h.room
    · exact (Nat.mod_eq_of_lt h.front_lt).symm

/-- `localTail = tail.load()`. -/
theorem loadTail (h : y.Holds xs d e) : Holds { y with localTail := y.tail } xs d e where
  pow := h.pow
  front_lt := h.front_lt
  room := h.room
  tail_eq := h.tail_eq
  taken := h.taken
  data_eq := h.data_eq
  seenTail := ⟨xs.length, h.taken, Nat.le_refl _, h.tail_eq⟩
  seenFront := h.seenFront

/-- A new value of `next`. -/
theorem setNext (h : y.Holds xs d e) (nb : Option BlockId) : Holds { y with next := nb } xs d e where
  pow := h.pow
  front_lt := h.front_lt
  room := h.room
  tail_eq := h.tail_eq
  taken := h.taken
  data_eq := h.data_eq
  seenTail := h.seenTail
  seenFront := h.seenFront

/-- Where the next element is built, seen from the first that is still there. -/
theorem tail_offset (h : y.Holds xs d e) :
    y.tail = ((y.front + d) % y.size + (xs.drop d).length) % y.size := by
  rw [h.tail_eq, List.length_drop, Nat.mod_add_mod, Nat.add_assoc, Nat.add_sub_cancel' h.taken]

/-- An element is constructed at `tail`. -/
theorem build (h : y.Holds xs d []) (hs : (y.tail + 1) % y.size ≠ y.localFront) :
    y.data y.tail = none ∧
      Holds { y with data := Function.update y.data y.tail (some x) } xs d [x] := by
  have hlt : (y.front + d) % y.size < y.size := Nat.mod_lt _ h.pos
  obtain ⟨m, hm, hf⟩ := h.room_of_seen hs
  have hdrop : (xs.drop d).length < y.size := by
    rw [List.length_drop]
    omega
  have hdata := h.data_eq
  rw [List.append_nil] at hdata
  refine ⟨?_, ⟨h.pow, h.front_lt, ?_, h.tail_eq, h.taken, ?_, h.seenTail, h.seenFront.1, m, ?_, hf⟩⟩
  · rw [hdata, h.tail_offset, layout_behind hlt hdrop]
  · show xs.length + 1 < y.size
    omega
  · show Function.update y.data y.tail (some x) = _
    rw [hdata, h.tail_offset, layout_build hlt hdrop]
    rfl
  · exact hm

/-- `tail` is stored. -/
theorem push (h : y.Holds xs d [x]) :
    Holds { y with tail := (y.tail + 1) % y.size } (xs ++ [x]) d [] := by
  have hlen : (xs ++ [x]).length = xs.length + 1 := by simp
  have hroom : xs.length + 1 < y.size := h.room
  obtain ⟨hlt, m, hm, hf⟩ := h.seenFront
  refine ⟨h.pow, h.front_lt, ?_, ?_, ?_, ?_, ?_, hlt, m, ?_, hf⟩
  · rw [hlen]
    exact hroom
  · show (y.tail + 1) % y.size = (y.front + (xs ++ [x]).length) % y.size
    rw [h.tail_eq, Nat.mod_add_mod, hlen, Nat.add_assoc]
  · rw [hlen]
    exact Nat.le_succ_of_le h.taken
  · show y.data = layout y.size _ ((xs ++ [x]).drop d ++ [])
    rw [List.append_nil, List.drop_append_of_le_length h.taken]
    exact h.data_eq
  · obtain ⟨n, hd, hn, hl⟩ := h.seenTail
    exact ⟨n, hd, by rw [hlen]; exact Nat.le_succ_of_le hn, hl⟩
  · rw [hlen, List.length_nil, Nat.add_zero]
    exact hm

theorem data_eq_zero (h : y.Holds xs 0 e) : y.data = layout y.size y.front (xs ++ e) := by
  have hdata := h.data_eq
  rwa [Nat.add_zero, Nat.mod_eq_of_lt h.front_lt, List.drop_zero] at hdata

/-- The first element is at `front`. -/
theorem data_front (h : y.Holds (x :: xs) 0 e) : y.data y.front = some x := by
  rw [h.data_eq_zero, layout_front h.front_lt]
  rfl

/-- The first element is moved out. -/
theorem take (h : y.Holds (x :: xs) 0 e) (hs : y.front ≠ y.localTail) :
    Holds { y with data := Function.update y.data y.front none } (x :: xs) 1 e := by
  have hroom : (xs ++ e).length < y.size := by
    have := h.room
    rw [List.length_cons] at this
    rw [List.length_append]
    omega
  refine ⟨h.pow, h.front_lt, h.room, h.tail_eq, ?_, ?_, ?_, h.seenFront⟩
  · exact Nat.succ_le_of_lt (Nat.zero_lt_succ _)
  · show Function.update y.data y.front none = layout y.size ((y.front + 1) % y.size) (xs ++ e)
    rw [h.data_eq_zero]
    exact layout_take h.front_lt hroom
  · obtain ⟨m, -, hm, hl⟩ := h.seenTail
    refine ⟨m, Nat.one_le_iff_ne_zero.2 ?_, hm, hl⟩
    rintro rfl
    rw [Nat.add_zero, Nat.mod_eq_of_lt h.front_lt] at hl
    exact hs hl.symm

/-- `front` is stored. -/
theorem pop (h : y.Holds (x :: xs) 1 e) :
    Holds { y with front := (y.front + 1) % y.size } xs 0 e := by
  have hroom := h.room
  rw [List.length_cons] at hroom
  have hadd : ∀ n, ((y.front + 1) % y.size + n) % y.size = (y.front + (n + 1)) % y.size := fun n => by
    rw [Nat.mod_add_mod, Nat.add_assoc, Nat.add_comm 1]
  refine ⟨h.pow, Nat.mod_lt _ h.pos, ?_, ?_, Nat.zero_le _, ?_, ?_, h.seenFront.1, ?_⟩
  · show xs.length + e.length < y.size
    omega
  · show y.tail = ((y.front + 1) % y.size + xs.length) % y.size
    rw [hadd]
    exact h.tail_eq
  · show y.data = layout y.size (((y.front + 1) % y.size + 0) % y.size) (xs.drop 0 ++ e)
    rw [Nat.add_zero, Nat.mod_mod]
    exact h.data_eq
  · obtain ⟨m, hd, hm, hl⟩ := h.seenTail
    refine ⟨m - 1, Nat.zero_le _, ?_, ?_⟩
    · rw [List.length_cons] at hm
      omega
    · show y.localTail = ((y.front + 1) % y.size + (m - 1)) % y.size
      rw [hadd, Nat.sub_add_cancel hd]
      exact hl
  · obtain ⟨-, m, hm, hf⟩ := h.seenFront
    rw [List.length_cons] at hm
    refine ⟨m + 1, by show m + 1 + xs.length + e.length < y.size; omega, ?_⟩
    show (y.front + 1) % y.size = (y.localFront + (m + 1)) % y.size
    rw [hf, Nat.mod_add_mod, Nat.add_assoc]

end Holds

theorem size_make {k : Nat} : (make (2 ^ (k + 1)) : Block α).size = 2 ^ (k + 1) :=
  Nat.sub_add_cancel Nat.one_le_two_pow

/-- A block as `make_block` leaves it, but for `next`. -/
theorem holds_make {n : Nat} (hn : ∃ k, n = 2 ^ (k + 1)) (nb : Option BlockId) :
    Holds { (make n : Block α) with next := nb } [] 0 [] := by
  obtain ⟨k, rfl⟩ := hn
  have hpos : 0 < (make (2 ^ (k + 1)) : Block α).size := Nat.succ_pos _
  refine ⟨⟨k, size_make (α := α)⟩, hpos, hpos, rfl, Nat.le_refl _, ?_,
    ⟨0, Nat.le_refl _, Nat.le_refl _, rfl⟩, hpos, 0, hpos, rfl⟩
  exact layout_nil.symm

/-- The block that an enqueue has made for its element. -/
theorem holds_new {n : Nat} (hn : ∃ k, n = 2 ^ (k + 1)) (nb : Option BlockId) (x : α) :
    Holds { (make n : Block α) with
      data := Function.update (make n : Block α).data 0 (some x)
      tail := 1
      localTail := 1
      next := nb } [x] 0 [] := by
  have h2 : 2 ≤ (make n : Block α).size := (holds_make (α := α) hn nb).two_le
  obtain ⟨k, rfl⟩ := hn
  have hmod : 1 = (0 + 1) % (make (2 ^ (k + 1)) : Block α).size := (Nat.mod_eq_of_lt h2).symm
  have hpos : 0 < (make (2 ^ (k + 1)) : Block α).size := Nat.succ_pos _
  refine ⟨⟨k, size_make (α := α)⟩, hpos, h2, hmod, Nat.zero_le _, ?_,
    ⟨1, Nat.zero_le _, Nat.le_refl _, hmod⟩, hpos, 0, h2, rfl⟩
  show Function.update (fun _ => none) 0 (some x) = layout (make (2 ^ (k + 1)) : Block α).size _ [x]
  have hb : Function.update (layout _ 0 []) ((0 + 0) % _) (some x) = layout _ 0 [x] :=
    layout_build hpos hpos
  rwa [layout_nil] at hb

end Block

end Moodycamel
