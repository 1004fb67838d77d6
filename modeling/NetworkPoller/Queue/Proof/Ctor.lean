import NetworkPoller.Lib.Smear
import NetworkPoller.Queue.Proof.Invariant

/-!
# The constructor

`ceilToPow2`, and the ring of empty blocks that the constructor builds: it has room for the elements
that were asked for.
-/

namespace Moodycamel

open Queue Cyclic

variable {α : Type}

/-! ## `ceilToPow2` -/

/-- The least power of two that is not below the argument; 0 for 0 and where the power does not fit.
-/
theorem toNat_ceilToPow2 (x : UInt64) :
    (ceilToPow2 x).toNat = if x = 0 then 0 else 2 ^ Nat.clog 2 x.toNat % 2 ^ 64 := by
  obtain ⟨y, hy⟩ : ∃ y : UInt64, ceilToPow2 x = y + 1 ∧ Smear.Smeared (x - 1).toNat y.toNat 64 := by
    refine ⟨_, rfl, ?_⟩
    have h := ((((((Smear.smeared_self (x - 1).toNat).shift).shift).shift).shift).shift).shift
    simpa [UInt64.toNat_or, UInt64.toNat_shiftRight] using h
  obtain ⟨hc, hs⟩ := hy
  rw [hc, UInt64.toNat_add]
  show (y.toNat + 1) % 2 ^ 64 = _
  by_cases hx : x = 0
  · -- `x - 1` wraps around to the largest number
    have hw : (x - 1).toNat = 2 ^ 64 - 1 := by
      rw [hx]
      rfl
    rw [hw] at hs
    rw [if_pos hx, hs.succ_eq Nat.one_le_two_pow (Nat.le_refl _), Nat.clog_pow 2 64 Nat.one_lt_two,
      Nat.mod_self]
  · have hpos : 1 ≤ x.toNat := Nat.one_le_iff_ne_zero.2 fun h0 => hx (UInt64.toNat_inj.1 h0)
    have hw : (x - 1).toNat = x.toNat - 1 := UInt64.toNat_sub_of_le x 1 (UInt64.le_iff_toNat_le.2 hpos)
    rw [hw] at hs
    rw [if_neg hx, hs.succ_eq hpos (Nat.le_of_lt x.toNat_lt)]

/-- The power fits for arguments up to the largest one. -/
theorem toNat_ceilToPow2_of_le {x : UInt64} (hpos : 1 ≤ x.toNat) (hle : x.toNat ≤ 2 ^ 63) :
    (ceilToPow2 x).toNat = 2 ^ Nat.clog 2 x.toNat := by
  have hclog : Nat.clog 2 x.toNat ≤ 63 := Nat.clog_le_of_le_pow hle
  have hx : x ≠ 0 := fun h0 => by
    rw [h0] at hpos
    cases hpos
  rw [toNat_ceilToPow2, if_neg hx]
  exact Nat.mod_eq_of_lt (Nat.pow_lt_pow_right Nat.one_lt_two (Nat.lt_succ_of_le hclog))

/-- **`ceilToPow2` rounds up to a power of two**, for every argument that has one of 64 bits above
it. -/
theorem ceilToPow2_isLeast {x : UInt64} (hpos : 1 ≤ x.toNat) (hle : x.toNat ≤ 2 ^ 63) :
    IsLeast {n | (∃ k, n = 2 ^ k) ∧ x.toNat ≤ n} (ceilToPow2 x).toNat := by
  rw [toNat_ceilToPow2_of_le hpos hle]
  refine ⟨⟨⟨_, rfl⟩, Nat.le_pow_clog Nat.one_lt_two _⟩, ?_⟩
  rintro _ ⟨⟨k, rfl⟩, hk⟩
  exact Nat.pow_le_pow_right Nat.two_pos (Nat.clog_le_of_le_pow hk)

theorem ceilToPow2_isLeast_thousand :
    IsLeast {n | (∃ k, n = 2 ^ k) ∧ 1000 ≤ n} (ceilToPow2 1000).toNat :=
  ceilToPow2_isLeast (x := 1000) (by decide) (by decide)

/-! ## The ring of empty blocks -/

/-- The constructor's preconditions: those it asserts of `MAX_BLOCK_SIZE`, a size other than 0, and
numbers for which its arithmetic does not wrap around. -/
structure Sizes (maxBlockSize size : UInt64) : Prop where
  pow : ∃ k, maxBlockSize.toNat = 2 ^ (k + 1)
  max_le : maxBlockSize.toNat ≤ 2 ^ 62
  size_pos : 1 ≤ size.toNat
  size_lt : size.toNat < 2 ^ 63

theorem sizes_four_two : Sizes 4 2 := ⟨⟨1, rfl⟩, by decide, by decide, by decide⟩

variable {maxBlockSize size : UInt64}

theorem Sizes.toNat_dbl (h : Sizes maxBlockSize size) :
    (maxBlockSize * 2).toNat = maxBlockSize.toNat * 2 := by
  rw [UInt64.toNat_mul]
  refine Nat.mod_eq_of_lt ?_
  have := h.max_le
  show maxBlockSize.toNat * 2 < 2 ^ 64
  omega

theorem Sizes.two_le (h : Sizes maxBlockSize size) : 2 ≤ maxBlockSize.toNat := by
  obtain ⟨k, hk⟩ := h.pow
  rw [hk, Nat.pow_succ]
  have := Nat.one_le_two_pow (n := k)
  omega

/-- The number of blocks, when one does not do. -/
theorem Sizes.toNat_blocks (h : Sizes maxBlockSize size) :
    ((size + maxBlockSize * 2 - 3) / (maxBlockSize - 1)).toNat =
      (size.toNat + maxBlockSize.toNat * 2 - 3) / (maxBlockSize.toNat - 1) := by
  have hmax := h.max_le
  have hlt := h.size_lt
  have hpos := h.size_pos
  have htwo := h.two_le
  have hsum : (size + maxBlockSize * 2).toNat = size.toNat + maxBlockSize.toNat * 2 := by
    rw [UInt64.toNat_add, h.toNat_dbl]
    exact Nat.mod_eq_of_lt (by omega)
  have hle : (3 : UInt64) ≤ size + maxBlockSize * 2 := by
    rw [UInt64.le_iff_toNat_le, hsum]
    show 3 ≤ _
    omega
  have hone : (1 : UInt64) ≤ maxBlockSize := UInt64.le_iff_toNat_le.2 (show 1 ≤ _ by omega)
  rw [UInt64.toNat_div, UInt64.toNat_sub_of_le _ _ hle, UInt64.toNat_sub_of_le _ _ hone, hsum]
  rfl

/-- One block that is large enough, or as many of the largest size as hold the elements and one block
more. -/
theorem Sizes.initial (h : Sizes maxBlockSize size) :
    ∃ k n, (initialBlocks maxBlockSize size).1.toNat = 2 ^ (k + 1) ∧
      (initialBlocks maxBlockSize size).2.toNat = n + 1 ∧
      (n = 0 → size.toNat + 1 ≤ 2 ^ (k + 1)) ∧
      (n ≠ 0 → size.toNat + (2 ^ (k + 1) - 1) ≤ (n + 1) * (2 ^ (k + 1) - 1)) := by
  have hadd : (size + 1).toNat = size.toNat + 1 := by
    rw [UInt64.toNat_add]
    exact Nat.mod_eq_of_lt (Nat.lt_trans (Nat.succ_lt_succ h.size_lt) (by decide))
  unfold initialBlocks
  by_cases hbig : ceilToPow2 (size + 1) > maxBlockSize * 2
  · obtain ⟨k, hk⟩ := h.pow
    have h2 := h.two_le
    have hpos := h.size_pos
    have htwo : 2 ≤ (size.toNat + maxBlockSize.toNat * 2 - 3) / (maxBlockSize.toNat - 1) := by
      rw [Nat.le_div_iff_mul_le (by omega)]
      omega
    refine ⟨k, (size.toNat + maxBlockSize.toNat * 2 - 3) / (maxBlockSize.toNat - 1) - 1, ?_, ?_,
      fun h0 => ?_, fun _ => ?_⟩
    · rw [if_pos hbig]
      exact hk
    · rw [if_pos hbig, h.toNat_blocks]
      omega
    · omega
    · rw [← hk, Nat.sub_add_cancel (by omega), Nat.mul_comm]
      have hdiv := Nat.div_add_mod (size.toNat + maxBlockSize.toNat * 2 - 3) (maxBlockSize.toNat - 1)
      have hmod := Nat.mod_lt (size.toNat + maxBlockSize.toNat * 2 - 3)
        (show 0 < maxBlockSize.toNat - 1 by omega)
      omega
  · have hlt := h.size_lt
    have hceil : (ceilToPow2 (size + 1)).toNat = 2 ^ Nat.clog 2 (size.toNat + 1) := by
      rw [toNat_ceilToPow2_of_le (by omega) (by omega), hadd]
    have hpos : 0 < Nat.clog 2 (size.toNat + 1) :=
      Nat.clog_pos Nat.one_lt_two (Nat.succ_lt_succ h.size_pos)
    refine ⟨Nat.clog 2 (size.toNat + 1) - 1, 0, ?_, ?_, fun _ => ?_, fun h0 => absurd rfl h0⟩
    · rw [if_neg hbig, Nat.sub_add_cancel hpos]
      exact hceil
    · rw [if_neg hbig]
      rfl
    · rw [Nat.sub_add_cancel hpos]
      exact Nat.le_pow_clog Nat.one_lt_two _

/-- After `n` rounds the first `n` blocks are a ring. -/
theorem initialHeap_apply {L n i : Nat} (hi : i < n) :
    (initialHeap L n i : Block α) =
    { Block.make L with next := some (if i + 1 = n then 0 else i + 1) } := by
  induction n with
  | zero => cases hi
  | succ n ih =>
    rw [initialHeap]
    by_cases hin : i = n
    · subst hin
      by_cases h0 : i = 0
      · subst h0
        simp
      · simp [h0, Function.update_of_ne (show i ≠ i - 1 by omega)]
    · have hlt : i < n := by omega
      have h0 : n ≠ 0 := by omega
      simp only [if_neg h0, Function.update_of_ne hin]
      by_cases hlast : i = n - 1
      · -- the block before is linked to the new one
        subst hlast
        have hs : n - 1 + 1 = n := by omega
        rw [Function.update_self, Function.update_of_ne hin, ih hlt, hs]
        simp
      · rw [Function.update_of_ne hlast, Function.update_of_ne hin, ih hlt, if_neg (by omega),
          if_neg (by omega)]

/-- The queue as constructed: one empty block in use, the others free, with room for `size`
elements. -/
theorem good_new (h : Sizes maxBlockSize size) :
    ∃ n, Good size.toNat (Queue.new maxBlockSize size : Queue α) .idle .idle [0]
      ((List.range n).map Nat.succ) fun _ => [] := by
  obtain ⟨k, n, hL, hn, hone, hmany⟩ := h.initial
  have hids : [0] ++ (List.range n).map Nat.succ = List.range (n + 1) := by
    rw [List.range_succ_eq_map]
    rfl
  have hblock : ∀ b ∈ List.range (n + 1), (Queue.new maxBlockSize size : Queue α).heap b =
      { Block.make (2 ^ (k + 1)) with next := some (if b + 1 = n + 1 then 0 else b + 1) } := by
    intro b hb
    show initialHeap _ _ b = _
    rw [hL, hn]
    exact initialHeap_apply (List.mem_range.1 hb)
  have hmask : ∀ b ∈ List.range (n + 1),
      ((Queue.new maxBlockSize size : Queue α).heap b).sizeMask = 2 ^ (k + 1) - 1 := fun b hb => by
    rw [hblock b hb]
    rfl
  have hroom : (Queue.new maxBlockSize size : Queue α).room (List.range (n + 1)) =
      (n + 1) * (2 ^ (k + 1) - 1) := by
    rw [room, List.map_congr_left hmask]
    simp
  refine ⟨n, ⟨⟨?_, ?_, rfl, rfl, ?_, ?_, fun _ _ => rfl, ?_, ?_⟩, trivial, trivial, rfl, rfl,
    ⟨?_, ?_, ?_, k, hL⟩, ?_⟩⟩
  · rw [hids]
    exact List.nodup_range
  · rw [hids]
    refine linked_range fun i hi => ?_
    rw [hblock i (List.mem_range.2 hi)]
  · rw [hids]
    intro b hb
    show b < (initialBlocks maxBlockSize size).2.toNat
    rw [hn]
    exact List.mem_range.1 hb
  · rw [hids]
    intro b hb
    rw [hblock b hb]
    exact Block.holds_make ⟨k, rfl⟩ _
  · intro b hb
    cases hb
  · intro b hb
    cases hb
  · rw [hids]
    intro h1
    rw [List.length_range] at h1
    obtain rfl : n = 0 := Nat.succ.inj h1
    rw [hroom]
    have := hone rfl
    omega
  · rw [hids]
    intro h1 b hb
    rw [hmask b hb, hroom]
    refine hmany fun h0 => h1 ?_
    rw [h0]
    rfl
  · rw [hids]
    intro b hb
    show _ ≤ (initialBlocks maxBlockSize size).1.toNat
    rw [hL, Block.size, hmask b hb, Nat.sub_add_cancel Nat.one_le_two_pow]
  · rw [hids, List.length_range]
    exact hn

end Moodycamel
