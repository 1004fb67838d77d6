import Mathlib.Data.Nat.ModEq
import Mathlib.Data.List.Basic
import Mathlib.Logic.Function.Basic

/-!
# Lists in circular storage

`layout n f ys` are the slots of a circular store of `n` slots that holds the list `ys` from slot `f`
on, as a function from slot numbers; a slot that holds no element is `none`. An element is added
behind the last one (`layout_build`) and removed at the front (`layout_take`); positions are compared
through the number of slots between them (`offset_inj`).
-/

namespace Circular

variable {α : Type*} {n f : Nat} {ys : List α} {x : α}

def layout (n f : Nat) (ys : List α) (j : Nat) : Option α :=
  if j < n then ys[(j + n - f) % n]? else none

/-- Positions less than a turn away from `f` are told apart by their distance. -/
theorem offset_inj {i j : Nat} (hi : i < n) (hj : j < n) (h : (f + i) % n = (f + j) % n) : i = j := by
  have hmod : i ≡ j [MOD n] := Nat.ModEq.add_left_cancel' f h
  rwa [Nat.ModEq, Nat.mod_eq_of_lt hi, Nat.mod_eq_of_lt hj] at hmod

/-- The distance of a slot from `f`. -/
theorem distance {i : Nat} (hf : f < n) (hi : i < n) : ((f + i) % n + n - f) % n = i := by
  rcases Nat.lt_or_ge (f + i) n with h | h
  · rw [Nat.mod_eq_of_lt h, show f + i + n - f = i + n by omega, Nat.add_mod_right,
      Nat.mod_eq_of_lt hi]
  · rw [Nat.mod_eq_sub_mod h, Nat.mod_eq_of_lt (show f + i - n < n by omega),
      show f + i - n + n - f = i by omega, Nat.mod_eq_of_lt hi]

/-- Every slot is at some distance from `f`. -/
theorem exists_offset {j : Nat} (hf : f < n) (hj : j < n) : ∃ i < n, (f + i) % n = j := by
  refine ⟨(j + n - f) % n, Nat.mod_lt _ (by omega), ?_⟩
  rcases Nat.lt_or_ge j f with h | h
  · rw [Nat.mod_eq_of_lt (show j + n - f < n by omega), show f + (j + n - f) = j + n by omega,
      Nat.add_mod_right, Nat.mod_eq_of_lt hj]
  · rw [show j + n - f = j - f + n by omega, Nat.add_mod_right,
      Nat.mod_eq_of_lt (show j - f < n by omega), Nat.add_sub_cancel' h, Nat.mod_eq_of_lt hj]

theorem layout_offset {i : Nat} (hf : f < n) (hi : i < n) : layout n f ys ((f + i) % n) = ys[i]? := by
  rw [layout, if_pos (Nat.mod_lt _ (by omega)), distance hf hi]

@[simp] theorem layout_nil : layout n f ([] : List α) = fun _ => none := by
  funext j
  simp [layout]

theorem layout_front (hf : f < n) : layout n f ys f = ys.head? := by
  have h : layout n f ys ((f + 0) % n) = ys[0]? := layout_offset hf (Nat.zero_lt_of_lt hf)
  rwa [Nat.add_zero, Nat.mod_eq_of_lt hf, ← List.head?_eq_getElem?] at h

/-- The slot behind the last element is free. -/
theorem layout_behind (hf : f < n) (hl : ys.length < n) :
    layout n f ys ((f + ys.length) % n) = none := by
  rw [layout_offset hf hl, List.getElem?_eq_none (Nat.le_refl _)]

/-- Two stores that agree at every distance below `n` are equal. -/
theorem layout_ext {g : Nat → Option α} (hf : f < n) (hout : ∀ j, n ≤ j → g j = none)
    (h : ∀ i < n, g ((f + i) % n) = ys[i]?) : g = layout n f ys := by
  funext j
  rcases Nat.lt_or_ge j n with hj | hj
  · obtain ⟨i, hi, rfl⟩ := exists_offset hf hj
    rw [h i hi, layout_offset hf hi]
  · rw [hout j hj, layout, if_neg (by omega)]

theorem layout_out {j : Nat} (hj : n ≤ j) : layout n f ys j = none := if_neg (by omega)

/-- An element built behind the last one. -/
theorem layout_build (hf : f < n) (hl : ys.length < n) :
    Function.update (layout n f ys) ((f + ys.length) % n) (some x) = layout n f (ys ++ [x]) := by
  refine layout_ext hf (fun j hj => ?_) fun i hi => ?_
  · rw [Function.update_of_ne, layout_out hj]
    rintro rfl
    exact absurd (Nat.mod_lt (f + ys.length) (Nat.zero_lt_of_lt hf)) (by omega)
  · by_cases hil : i = ys.length
    · subst hil
      rw [Function.update_self, List.getElem?_concat_length]
    · rw [Function.update_of_ne fun he => hil (offset_inj hi hl he), layout_offset hf hi]
      rcases Nat.lt_or_ge i ys.length with h | h
      · rw [List.getElem?_append_left h]
      · rw [List.getElem?_eq_none h, List.getElem?_eq_none]
        rw [List.length_append, List.length_singleton]
        omega

/-- The first element taken out. -/
theorem layout_take (hf : f < n) (hl : ys.length < n) :
    Function.update (layout n f (x :: ys)) f none = layout n ((f + 1) % n) ys := by
  have hn : 0 < n := Nat.zero_lt_of_lt hf
  refine layout_ext (Nat.mod_lt _ hn) (fun j hj => ?_) fun i hi => ?_
  · rw [Function.update_of_ne (by omega), layout_out hj]
  · rw [Nat.mod_add_mod, Nat.add_assoc, Nat.add_comm 1 i]
    rcases Nat.lt_or_ge (i + 1) n with h | h
    · rw [Function.update_of_ne, layout_offset hf h, List.getElem?_cons_succ]
      intro he
      have h0 := offset_inj (i := i + 1) (j := 0) h hn (by rw [he, Nat.add_zero, Nat.mod_eq_of_lt hf])
      omega
    · -- a whole turn: back at the slot that was emptied
      obtain rfl : i + 1 = n := by omega
      rw [Nat.add_mod_right, Nat.mod_eq_of_lt hf, Function.update_self, List.getElem?_eq_none]
      omega

end Circular
