import Mathlib.Algebra.Ring.Nat
import Mathlib.Data.List.Basic

/-!
# Numbers and joined pieces as text

Texts as lists of characters: the digits `Nat.toDigits` writes, hexadecimal digits read back, and the
length, the characters and the separators of `[sep].intercalate pieces`. That the pieces can be read back
is `List.splitOn_intercalate`.
-/

namespace Texts

/-! ## Digits -/

theorem mem_toDigits {b : Nat} (hb : 1 < b) {x : Char} : ∀ {n : Nat}, x ∈ Nat.toDigits b n →
    ∃ d < b, x = Nat.digitChar d := by
  intro n
  induction n using Nat.strongRecOn with
  | ind n ih =>
    rw [Nat.toDigits_eq_if hb]
    split
    · rename_i hn
      intro hx
      exact ⟨n, hn, List.mem_singleton.1 hx⟩
    · intro hx
      rcases List.mem_append.1 hx with hx | hx
      · exact ih (n / b) (Nat.div_lt_self (by omega) hb) hx
      · exact ⟨n % b, Nat.mod_lt _ (by omega), List.mem_singleton.1 hx⟩

/-- The digits of base 16, in order. -/
def hexDigits : List Char := "0123456789abcdef".toList

/-- The number hexadecimal digits stand for. -/
def ofHex (t : List Char) : Nat := t.foldl (fun n c => 16 * n + hexDigits.idxOf c) 0

theorem idxOf_digitChar : ∀ d < 16, hexDigits.idxOf (Nat.digitChar d) = d := by decide

theorem ofHex_toDigits (n : Nat) : ofHex (Nat.toDigits 16 n) = n := by
  induction n using Nat.strongRecOn with
  | ind n ih =>
    rw [Nat.toDigits_eq_if (by decide)]
    split
    · rename_i hn
      simp [ofHex, idxOf_digitChar n hn]
    · have hdiv := ih (n / 16) (Nat.div_lt_self (by omega) (by decide))
      have hlast := idxOf_digitChar (n % 16) (Nat.mod_lt _ (by decide))
      simp only [ofHex] at hdiv
      simp only [ofHex, List.foldl_append, hdiv, List.foldl_cons, List.foldl_nil, hlast]
      omega

/-! ## Joined pieces -/

section

variable {α : Type} {sep x : α} {pieces : List (List α)}

theorem mem_intercalate (h : x ∈ [sep].intercalate pieces) : x = sep ∨ ∃ t ∈ pieces, x ∈ t := by
  induction pieces with
  | nil => cases h
  | cons t ts ih =>
    cases ts with
    | nil => exact .inr ⟨t, List.mem_cons_self, by rwa [List.intercalate_singleton] at h⟩
    | cons t' ts =>
      rw [List.intercalate_cons_cons, List.mem_append, List.mem_append, List.mem_singleton] at h
      rcases h with (h | h) | h
      · exact .inr ⟨t, List.mem_cons_self, h⟩
      · exact .inl h
      · exact (ih h).imp_right fun ⟨u, hu, hx⟩ => ⟨u, List.mem_cons_of_mem _ hu, hx⟩

/-- Every piece counts with its separator, but for the last one. -/
theorem length_intercalate (sep : α) (h : pieces ≠ []) :
    ([sep].intercalate pieces).length + 1 = (pieces.map (·.length + 1)).sum := by
  induction pieces with
  | nil => exact absurd rfl h
  | cons t ts ih =>
    cases ts with
    | nil => simp
    | cons t' ts =>
      have := ih (by simp)
      rw [List.intercalate_cons_cons, List.map_cons, List.sum_cons, ← this]
      simp only [List.length_append, List.length_singleton]
      omega

theorem count_intercalate [BEq α] [LawfulBEq α] (hs : ∀ t ∈ pieces, sep ∉ t) (h : pieces ≠ []) :
    ([sep].intercalate pieces).count sep + 1 = pieces.length := by
  induction pieces with
  | nil => exact absurd rfl h
  | cons t ts ih =>
    have ht := List.count_eq_zero.2 (hs t List.mem_cons_self)
    cases ts with
    | nil => simp [ht]
    | cons t' ts =>
      have := ih (fun u hu => hs u (List.mem_cons_of_mem _ hu)) (by simp)
      rw [List.intercalate_cons_cons, List.length_cons, ← this]
      simp [List.count_append, ht]

/-- Pieces of at most `k` characters. -/
theorem sum_length_le (k : Nat) {pieces : List (List α)} (h : ∀ t ∈ pieces, t.length ≤ k) :
    (pieces.map (·.length + 1)).sum ≤ (k + 1) * pieces.length := by
  induction pieces with
  | nil => simp
  | cons t ts ih =>
    have ht := h t List.mem_cons_self
    have := ih fun u hu => h u (List.mem_cons_of_mem _ hu)
    rw [List.map_cons, List.sum_cons, List.length_cons, Nat.mul_succ]
    omega

end

end Texts
