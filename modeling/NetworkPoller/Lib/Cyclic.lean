import Mathlib.Data.List.Chain

/-!
# Circular linked lists

`Linked next l`: following `next` from the first element of `l` visits the elements of `l` in order
and comes back to the first. What is needed of it: which element follows (`Linked.follows`), that
the list may start anywhere (`Linked.rotate`), and the insertion of an element (`Linked.insert`).
-/

namespace Cyclic

variable {ι : Type*} {next next' : ι → Option ι} {l u v : List ι} {a t x : ι}

def Linked (next : ι → Option ι) (l : List ι) : Prop :=
  (l ++ l.take 1).IsChain fun a b => next a = some b

/-- A chain keeps its links when the elements that point on keep theirs. -/
theorem isChain_congr (h : (u ++ [t]).IsChain fun a b => next a = some b)
    (ho : ∀ b ∈ u, next' b = next b) : (u ++ [t]).IsChain fun a b => next' a = some b := by
  rw [List.isChain_append] at h ⊢
  obtain ⟨h1, h2, h3⟩ := h
  refine ⟨h1.imp_of_mem_imp fun a b ha _ hab => ?_, List.isChain_singleton t, fun a ha b hb => ?_⟩
  · rw [ho a ha, hab]
  · rw [ho a (List.mem_of_mem_getLast? ha), h3 a ha b hb]

theorem take_one_append (t : ι) (v : List ι) : (u ++ t :: v).take 1 = (u ++ [t]).take 1 := by
  cases u <;> rfl

/-- The element the list comes back to. -/
theorem take_one_eq (t : ι) : ∃ a, (u ++ [t]).take 1 = [a] := by
  cases u with
  | nil => exact ⟨t, rfl⟩
  | cons b u => exact ⟨b, rfl⟩

/-- The numbers below `n`, each one linked to the next. -/
theorem linked_range {next : Nat → Option Nat} {n : Nat}
    (h : ∀ i < n, next i = some (if i + 1 = n then 0 else i + 1)) : Linked next (List.range n) := by
  cases n with
  | zero => exact List.isChain_nil
  | succ n =>
    have htake : (List.range (n + 1)).take 1 = [0] := by
      rw [List.range_succ_eq_map]
      rfl
    rw [Linked, htake, List.isChain_iff_getElem]
    intro i hi
    rw [List.length_append, List.length_range, List.length_singleton] at hi
    have hin : i < n + 1 := by omega
    rw [List.getElem_append_left (by rwa [List.length_range]), List.getElem_range, h i hin]
    by_cases hl : i + 1 = n + 1
    · rw [if_pos hl, List.getElem_append_right (by rw [List.length_range]; omega)]
      simp
    · rw [if_neg hl, List.getElem_append_left (by rw [List.length_range]; omega), List.getElem_range]

theorem Linked.congr (h : Linked next l) (ho : ∀ b ∈ l, next' b = next b) : Linked next' l := by
  cases l with
  | nil => exact List.isChain_nil
  | cons a l => exact isChain_congr (u := a :: l) h ho

/-- What follows `t`: the element behind it, or the first one. -/
theorem Linked.follows (h : Linked next (u ++ t :: v)) : next t = (v ++ (u ++ [t])).head? := by
  rw [Linked, take_one_append, List.append_assoc, List.cons_append, List.isChain_split] at h
  obtain ⟨a, ha⟩ := take_one_eq (u := u) t
  rw [ha] at h
  have hhead : (v ++ (u ++ [t])).head? = (v ++ [a]).head? := by
    rw [← ha]
    cases v <;> cases u <;> rfl
  rw [hhead]
  cases hv : (v ++ [a]).head? with
  | none => simp at hv
  | some b => exact h.2.rel_head? hv

theorem Linked.rotate (h : Linked next (a :: l)) : Linked next (l ++ [a]) := by
  cases l with
  | nil => exact h
  | cons b l =>
    have h' : (a :: b :: (l ++ [a])).IsChain fun a b => next a = some b := h
    rw [List.isChain_cons_cons] at h'
    show ((b :: l ++ [a]) ++ [b]).IsChain fun a b => next a = some b
    rw [List.append_assoc, List.singleton_append, List.isChain_append_cons_cons]
    exact ⟨h'.2, h'.1, List.isChain_singleton b⟩

/-- `x` is put behind `t`. -/
theorem Linked.insert (h : Linked next (u ++ t :: v)) (hn : (u ++ t :: v).Nodup)
    (hx : x ∉ u ++ t :: v) (ht : next' t = some x) (hx' : next' x = next t)
    (ho : ∀ b, b ≠ t → b ≠ x → next' b = next b) : Linked next' (u ++ t :: x :: v) := by
  obtain ⟨hu, hv⟩ : t ∉ u ∧ t ∉ v := by
    rw [List.nodup_append] at hn
    exact ⟨fun hm => hn.2.2 t hm t List.mem_cons_self rfl, (List.nodup_cons.1 hn.2.1).1⟩
  rw [List.mem_append, List.mem_cons, not_or, not_or] at hx
  have hsame : ∀ b, b ∈ u ∨ b ∈ v → next' b = next b := by
    rintro b (hb | hb)
    · exact ho b (fun e => hu (e ▸ hb)) fun e => hx.1 (e ▸ hb)
    · exact ho b (fun e => hv (e ▸ hb)) fun e => hx.2.2 (e ▸ hb)
  rw [Linked, take_one_append, List.append_assoc, List.cons_append, List.isChain_split] at h
  obtain ⟨a, ha⟩ := take_one_eq (u := u) t
  rw [ha] at h
  rw [Linked, take_one_append, List.append_assoc, List.cons_append, List.cons_append,
    List.isChain_append_cons_cons, ha]
  refine ⟨isChain_congr h.1 fun b hb => hsame b (.inl hb), ht, ?_⟩
  have htail : (v ++ [a]).IsChain fun a b => next' a = some b :=
    isChain_congr h.2.tail fun b hb => hsame b (.inr hb)
  refine htail.cons fun b hb => ?_
  rw [hx']
  exact h.2.rel_head? hb

end Cyclic
