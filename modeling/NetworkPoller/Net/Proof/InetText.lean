import NetworkPoller.Lib.Texts
import NetworkPoller.Net.InetNtop

/-!
# Reading the texts of `inet_ntop` back

`read4` and `read6` find the address in the text that was written (`read4_text4`, `read6_text6`): a piece
between colons is a group or an IPv4 address (`value`), and the empty pieces of a run stand for the groups
that are missing to eight. With the length and the characters of the texts this makes `inetNtop` what
`SocketAddr` relies on.
-/

namespace Liang.Net.Inet

open Texts

/-! ## Pieces -/

theorem mem_hex {x : Char} {w : Nat} (h : x ∈ hex w) : x ∈ hexDigits := by
  obtain ⟨d, hd, rfl⟩ := mem_toDigits (by decide) h
  exact (by decide : ∀ d < 16, Nat.digitChar d ∈ hexDigits) d hd

theorem mem_decimal {x : Char} {n : Nat} (h : x ∈ decimal n) : x ∈ "0123456789".toList := by
  obtain ⟨d, hd, rfl⟩ := mem_toDigits (by decide) h
  exact (by decide : ∀ d < 10, Nat.digitChar d ∈ "0123456789".toList) d hd

theorem mem_dotted {x : Char} {bs : List Nat} (h : x ∈ dotted bs) : x ∈ "0123456789.".toList := by
  rcases mem_intercalate h with rfl | ⟨t, ht, hx⟩
  · decide
  · obtain ⟨b, -, rfl⟩ := List.mem_map.1 ht
    exact (by decide : "0123456789".toList ⊆ "0123456789.".toList) (mem_decimal hx)

theorem hex_ne_nil (w : Nat) : hex w ≠ [] := Nat.toDigits_ne_nil

theorem dotted_ne_nil {b : Nat} {bs : List Nat} : dotted (b :: bs) ≠ [] := by
  intro h
  have hne : (b :: bs).map decimal ≠ [] := List.cons_ne_nil _ _
  have hlen := length_intercalate '.' hne
  have hpos : 0 < (decimal b).length := Nat.length_toDigits_pos
  rw [show ['.'].intercalate ((b :: bs).map decimal) = [] from h] at hlen
  simp only [List.map_cons, List.sum_cons, List.length_nil] at hlen
  omega

theorem hex_length {w : Nat} (h : w < 65536) : (hex w).length ≤ 4 :=
  (Nat.length_toDigits_le_iff (by decide) (by decide)).2 h

theorem decimal_length {n k : Nat} (hk : 0 < k) (h : n < 10 ^ k) : (decimal n).length ≤ k :=
  (Nat.length_toDigits_le_iff (by decide) hk).2 h

/-- Four bytes have at most fifteen characters. -/
theorem dotted_length (bs : List Nat) (hl : bs.length = 4) (hb : ∀ b ∈ bs, b < 256) :
    (dotted bs).length ≤ 15 := by
  have hne : bs.map decimal ≠ [] := by
    intro h
    rw [List.map_eq_nil_iff] at h
    rw [h] at hl
    cases hl
  have hlen := length_intercalate '.' hne
  have hshort : ∀ t ∈ bs.map decimal, t.length ≤ 3 := fun t ht => by
    obtain ⟨b, hm, rfl⟩ := List.mem_map.1 ht
    exact decimal_length (by decide) (Nat.lt_trans (hb b hm) (by decide))
  have hsum := sum_length_le 3 hshort
  rw [List.length_map, hl] at hsum
  rw [dotted]
  omega

/-! ## Reading -/

def read4 (t : Text) : List Nat := (t.splitOn '.').map fun d => Nat.ofDigitChars 10 d 0

/-- The groups a piece stands for. -/
def value (t : Text) : List Nat :=
  match read4 t with
  | [a, b, c, d] => [a * 256 + b, c * 256 + d]
  | _ => [ofHex t]

/-- The groups of the pieces, with zeros for a run. -/
def readPieces (ts : List Text) : List Nat :=
  if [] ∈ ts then
    let before := (ts.takeWhile (· ≠ [])).flatMap value
    let after := (ts.reverse.takeWhile (· ≠ [])).reverse.flatMap value
    before ++ List.replicate (8 - before.length - after.length) 0 ++ after
  else ts.flatMap value

def read6 (t : Text) : List Nat := readPieces (t.splitOn ':')

theorem read4_dotted {bs : List Nat} (h : bs ≠ []) : read4 (dotted bs) = bs := by
  have hdot : ∀ t ∈ bs.map decimal, '.' ∉ t := fun t ht hx => by
    obtain ⟨b, -, rfl⟩ := List.mem_map.1 ht
    exact absurd (mem_decimal hx) (by decide)
  rw [read4, dotted, List.splitOn_intercalate _ hdot (by simpa using h), List.map_map]
  refine (List.map_congr_left fun b _ => ?_).trans (List.map_id bs)
  exact Nat.ofDigitChars_ten_toDigits

theorem value_hex (w : Nat) : value (hex w) = [w] := by
  have hdot : '.' ∉ hex w := fun hx => absurd (mem_hex hx) (by decide)
  rw [value, read4, List.splitOn_eq_singleton hdot]
  simp only [List.map_cons, List.map_nil]
  rw [hex, ofHex_toDigits]

theorem values_hex (ws : List Nat) : (ws.map hex).flatMap value = ws := by
  induction ws with
  | nil => rfl
  | cons w ws ih => rw [List.map_cons, List.flatMap_cons, value_hex, ih, List.singleton_append]

theorem value_dotted (w w' : Nat) : value (dotted (bytes [w, w'])) = [w, w'] := by
  rw [value, read4_dotted (by simp [bytes])]
  simp only [bytes, List.flatMap_cons, List.flatMap_nil, List.cons_append, List.nil_append,
    List.append_nil, List.cons.injEq, and_true]
  omega

/-! ## The run -/

theorem zeros_spec (ws : List Nat) : ws = List.replicate (zeros ws) 0 ++ ws.drop (zeros ws) := by
  induction ws with
  | nil => rfl
  | cons w ws ih =>
    by_cases hw : w = 0
    · have hz : zeros (w :: ws) = zeros ws + 1 := by simp [zeros, hw]
      rw [hz, List.replicate_succ, List.drop_succ_cons, List.cons_append, ← ih, hw]
    · have hz : zeros (w :: ws) = 0 := by simp [zeros, hw]
      rw [hz]
      rfl

theorem bestRun_spec (ws : List Nat) : ws = ws.take (bestRun ws).1 ++
    List.replicate (bestRun ws).2 0 ++ ws.drop ((bestRun ws).1 + (bestRun ws).2) := by
  induction ws with
  | nil => rfl
  | cons w ws ih =>
    rw [bestRun]
    split
    · rw [List.take_zero, List.nil_append, Nat.zero_add]
      exact zeros_spec _
    · rw [List.take_succ_cons, Nat.add_right_comm, List.drop_succ_cons, List.cons_append,
        List.cons_append, ← ih]

theorem bestRun_length (ws : List Nat) : ws.length = (ws.take (bestRun ws).1).length + (bestRun ws).2 +
    (ws.drop ((bestRun ws).1 + (bestRun ws).2)).length := by
  have h := congrArg List.length (bestRun_spec ws)
  rwa [List.length_append, List.length_append, List.length_replicate] at h

section

variable {base len : Nat} {after : List Nat}

/-- The groups behind a run of an address of eight groups. -/
structure Behind (base len : Nat) (after : List Nat) : Prop where
  ipv4 : base = 0 → len = 6 ∨ len = 5 → after.length = 8 - len
  small : ∀ w ∈ after, w < 65536

theorem Behind.split (h : Behind base len after)
    (hip : base = 0 ∧ (len = 6 ∨ len = 5 ∧ after.head? = some 0xffff)) :
    ∃ ws w w', after = ws ++ [w, w'] ∧ after.take (after.length - 2) = ws ∧
      after.drop (after.length - 2) = [w, w'] ∧ ws.length ≤ 1 := by
  have hl := h.ipv4 hip.1 (hip.2.imp_right fun h => h.1)
  have hlen : after.length = 2 ∨ after.length = 3 := by
    rcases hip.2 with rfl | ⟨rfl, -⟩
    · exact .inl hl
    · exact .inr hl
  obtain ⟨w, w', hd⟩ : ∃ w w', after.drop (after.length - 2) = [w, w'] :=
    List.length_eq_two.1 (by rw [List.length_drop]; omega)
  refine ⟨_, w, w', ?_, rfl, hd, by rw [List.length_take]; omega⟩
  rw [← hd, List.take_append_drop]

theorem values_tail (h : Behind base len after) : (tail base len after).flatMap value = after := by
  unfold tail
  split
  · rename_i hip
    obtain ⟨ws, w, w', hafter, ht, hd, -⟩ := h.split hip
    rw [ht, hd, List.flatMap_append, values_hex, List.flatMap_singleton, value_dotted, ← hafter]
  · exact values_hex after

theorem mem_tail {t : Text} (h : Behind base len after) (ht : t ∈ tail base len after) :
    (∃ w < 65536, t = hex w) ∨ ∃ w < 65536, ∃ w' < 65536, t = dotted (bytes [w, w']) := by
  unfold tail at ht
  split at ht
  · rename_i hip
    obtain ⟨ws, w, w', hafter, hws, hd, -⟩ := h.split hip
    have hsmall : ∀ v ∈ ws ++ [w, w'], v < 65536 := hafter ▸ h.small
    rw [hws, hd] at ht
    rcases List.mem_append.1 ht with ht | ht
    · obtain ⟨v, hv, rfl⟩ := List.mem_map.1 ht
      exact .inl ⟨v, hsmall v (List.mem_append_left _ hv), rfl⟩
    · exact .inr ⟨w, hsmall w (by simp), w', hsmall w' (by simp), List.mem_singleton.1 ht⟩
  · obtain ⟨v, hv, rfl⟩ := List.mem_map.1 ht
    exact .inl ⟨v, h.small v hv, rfl⟩

end

/-! ## The pieces of an address -/

/-- Eight groups. -/
structure Groups (ws : List Nat) : Prop where
  length : ws.length = 8
  small : ∀ w ∈ ws, w < 65536

theorem Groups.behind {ws : List Nat} (h : Groups ws) :
    Behind (bestRun ws).1 (bestRun ws).2 (ws.drop ((bestRun ws).1 + (bestRun ws).2)) := by
  refine ⟨fun h0 _ => ?_, fun w hw => h.small w (List.mem_of_mem_drop hw)⟩
  rw [List.length_drop, h.length, h0, Nat.zero_add]

theorem atEnd_ne_nil (ts : List Text) : atEnd ts ≠ [] := by
  unfold atEnd
  split
  · exact List.cons_ne_nil _ _
  · assumption

theorem mem_atEnd {t : Text} {ts : List Text} (h : t ∈ atEnd ts) : t = [] ∨ t ∈ ts := by
  unfold atEnd at h
  split at h
  · exact .inl (List.mem_singleton.1 h)
  · exact .inr h

theorem reverse_atEnd (ts : List Text) : (atEnd ts).reverse = atEnd ts.reverse := by
  by_cases h : ts = [] <;> simp [atEnd, h]

theorem takeWhile_atEnd {ts : List Text} (h : ∀ t ∈ ts, t ≠ []) (rest : List Text) :
    (atEnd ts ++ [] :: rest).takeWhile (· ≠ []) = ts := by
  by_cases h0 : ts = []
  · simp [atEnd, h0]
  · rw [atEnd, if_neg h0, List.takeWhile_append_of_pos fun t ht => decide_eq_true (h t ht)]
    simp

/-- The pieces around a run are read back. -/
theorem readPieces_run {before after : List Text} (hb : ∀ t ∈ before, t ≠ []) (ha : ∀ t ∈ after, t ≠ []) :
    readPieces (atEnd before ++ [[]] ++ atEnd after) = before.flatMap value ++
      List.replicate (8 - (before.flatMap value).length - (after.flatMap value).length) 0 ++
      after.flatMap value := by
  have hrev : (atEnd before ++ [[]] ++ atEnd after).reverse =
      atEnd after.reverse ++ [] :: atEnd before.reverse := by
    simp [reverse_atEnd]
  have ha' : ∀ t ∈ after.reverse, t ≠ [] := fun t ht => ha t (List.mem_reverse.1 ht)
  have hsplit : atEnd before ++ [[]] ++ atEnd after = atEnd before ++ [] :: atEnd after := by simp
  rw [readPieces, if_pos (by simp), hrev, takeWhile_atEnd ha', List.reverse_reverse, hsplit,
    takeWhile_atEnd hb]

theorem readPieces_pieces {ws : List Nat} (h : Groups ws) : readPieces (pieces ws) = ws := by
  unfold pieces
  split
  · rw [readPieces, if_neg, values_hex]
    intro hm
    obtain ⟨w, -, hw⟩ := List.mem_map.1 hm
    exact hex_ne_nil w hw
  · rw [readPieces_run, values_hex, values_tail h.behind]
    · have hlen := bestRun_length ws
      rw [h.length] at hlen
      have hrun : 8 - (ws.take (bestRun ws).1).length -
          (ws.drop ((bestRun ws).1 + (bestRun ws).2)).length = (bestRun ws).2 := by omega
      rw [hrun]
      exact (bestRun_spec ws).symm
    · intro t ht
      obtain ⟨w, -, rfl⟩ := List.mem_map.1 ht
      exact hex_ne_nil w
    · intro t ht
      rcases mem_tail h.behind ht with ⟨w, -, rfl⟩ | ⟨w, -, w', -, rfl⟩
      · exact hex_ne_nil w
      · exact dotted_ne_nil

theorem mem_pieces {ws : List Nat} {t : Text} (h : Groups ws) (ht : t ∈ pieces ws) :
    t = [] ∨ (∃ w < 65536, t = hex w) ∨ ∃ w < 65536, ∃ w' < 65536, t = dotted (bytes [w, w']) := by
  have hhex : ∀ {vs : List Nat}, (∀ v ∈ vs, v ∈ ws) → t ∈ vs.map hex → ∃ w < 65536, t = hex w :=
    fun hv ht => by
      obtain ⟨w, hw, rfl⟩ := List.mem_map.1 ht
      exact ⟨w, h.small w (hv w hw), rfl⟩
  unfold pieces at ht
  split at ht
  · exact .inr (.inl (hhex (fun _ hv => hv) ht))
  · rcases List.mem_append.1 ht with ht | ht
    · rcases List.mem_append.1 ht with ht | ht
      · exact (mem_atEnd ht).imp_right fun ht => .inl (hhex (fun _ hv => List.mem_of_mem_take hv) ht)
      · exact .inl (List.mem_singleton.1 ht)
    · exact (mem_atEnd ht).imp_right (mem_tail h.behind)

theorem mem_of_mem_piece {ws : List Nat} {t : Text} {x : Char} (h : Groups ws) (ht : t ∈ pieces ws)
    (hx : x ∈ t) : x ∈ "0123456789abcdef.".toList := by
  rcases mem_pieces h ht with rfl | ⟨w, -, rfl⟩ | ⟨w, -, w', -, rfl⟩
  · cases hx
  · exact (by decide : hexDigits ⊆ "0123456789abcdef.".toList) (mem_hex hx)
  · exact (by decide : "0123456789.".toList ⊆ "0123456789abcdef.".toList) (mem_dotted hx)

theorem colon_not_mem {ws : List Nat} {t : Text} (h : Groups ws) (ht : t ∈ pieces ws) : ':' ∉ t :=
  fun hx => absurd (mem_of_mem_piece h ht hx) (by decide)

/-- There are three pieces at least. -/
theorem pieces_length {ws : List Nat} (h : Groups ws) : 3 ≤ (pieces ws).length := by
  unfold pieces
  split
  · rw [List.length_map, h.length]
    decide
  · have hb := List.length_pos_iff.2 (atEnd_ne_nil ((ws.take (bestRun ws).1).map hex))
    have ha := List.length_pos_iff.2 (atEnd_ne_nil
      (tail (bestRun ws).1 (bestRun ws).2 (ws.drop ((bestRun ws).1 + (bestRun ws).2))))
    simp only [List.length_append, List.length_singleton]
    omega

theorem pieces_ne_nil {ws : List Nat} (h : Groups ws) : pieces ws ≠ [] :=
  List.length_pos_iff.1 (Nat.lt_of_lt_of_le (by decide) (pieces_length h))

/-! ## The length of a text -/

/-- The characters of pieces, each with a separator. -/
def size (ts : List Text) : Nat := (ts.map (·.length + 1)).sum

theorem size_append (ts ts' : List Text) : size (ts ++ ts') = size ts + size ts' := by
  rw [size, List.map_append, List.sum_append]
  rfl

theorem size_hex {ws : List Nat} (h : ∀ w ∈ ws, w < 65536) : size (ws.map hex) ≤ 5 * ws.length := by
  have hshort : ∀ t ∈ ws.map hex, t.length ≤ 4 := fun t ht => by
    obtain ⟨w, hw, rfl⟩ := List.mem_map.1 ht
    exact hex_length (h w hw)
  have hsum := sum_length_le 4 hshort
  rwa [List.length_map] at hsum

theorem size_atEnd (ts : List Text) : size (atEnd ts) ≤ size ts + 1 := by
  unfold atEnd
  split
  · simp [size]
  · omega

theorem bytes_lt {ws : List Nat} (h : ∀ w ∈ ws, w < 65536) : ∀ b ∈ bytes ws, b < 256 := by
  intro b hb
  obtain ⟨w, hw, hb⟩ := List.mem_flatMap.1 hb
  have := h w hw
  rcases List.mem_cons.1 hb with rfl | hb
  · omega
  · rw [List.mem_singleton] at hb
    omega

theorem size_tail {base len : Nat} {after : List Nat} (h : Behind base len after) :
    size (tail base len after) ≤ 5 * after.length + 6 := by
  unfold tail
  split
  · rename_i hip
    obtain ⟨ws, w, w', hafter, hws, hd, -⟩ := h.split hip
    have hsmall : ∀ v ∈ ws ++ [w, w'], v < 65536 := hafter ▸ h.small
    have hhex := size_hex fun v hv => hsmall v (List.mem_append_left _ hv)
    have hdot := dotted_length (bytes [w, w']) rfl
      (bytes_lt fun v hv => hsmall v (List.mem_append_right _ hv))
    have hlen : after.length = ws.length + 2 := by rw [hafter]; simp
    rw [hws, hd, size_append, hlen]
    simp only [size, List.map_cons, List.map_nil, List.sum_cons, List.sum_nil] at hhex ⊢
    omega
  · have := size_hex h.small
    omega

theorem size_pieces {ws : List Nat} (h : Groups ws) : size (pieces ws) ≤ 46 := by
  unfold pieces
  split
  · have := size_hex h.small
    rw [h.length] at this
    omega
  · rename_i hrun
    have hbefore := size_hex fun v (hv : v ∈ ws.take (bestRun ws).1) =>
      h.small v (List.mem_of_mem_take hv)
    have hafter := size_tail h.behind
    have hb := size_atEnd ((ws.take (bestRun ws).1).map hex)
    have ha := size_atEnd (tail (bestRun ws).1 (bestRun ws).2 (ws.drop ((bestRun ws).1 + (bestRun ws).2)))
    have hlen := bestRun_length ws
    have hone : size [[]] = 1 := rfl
    rw [h.length] at hlen
    rw [size_append, size_append, hone]
    omega

/-! ## Addresses -/

theorem groups_words : ∀ bs : List UInt8, (words bs).length = bs.length / 2 ∧ ∀ w ∈ words bs, w < 65536
  | [] => ⟨rfl, fun _ h => absurd h List.not_mem_nil⟩
  | [_] => ⟨by simp [words], fun _ h => absurd h List.not_mem_nil⟩
  | a :: b :: bs => by
    obtain ⟨hl, hs⟩ := groups_words bs
    refine ⟨?_, fun w hw => ?_⟩
    · simp only [words, List.length_cons, hl]
      omega
    · rcases List.mem_cons.1 hw with rfl | hw
      · have := a.toNat_lt
        have := b.toNat_lt
        omega
      · exact hs w hw

theorem bytes_words : ∀ bs : List UInt8, bs.length % 2 = 0 → bytes (words bs) = bs.map (·.toNat)
  | [], _ => rfl
  | [_], h => by cases h
  | a :: b :: bs, h => by
    have ih := bytes_words bs (by simp only [List.length_cons] at h; omega)
    have hb := b.toNat_lt
    rw [bytes] at ih
    simp only [words, bytes, List.flatMap_cons, ih, List.map_cons, List.cons_append, List.nil_append,
      List.cons.injEq, and_true]
    omega

theorem groups (a : In6Addr) : Groups (words a.toList) := by
  obtain ⟨hl, hs⟩ := groups_words a.toList
  exact ⟨by rw [hl, Vector.length_toList], hs⟩

theorem map_toNat_injective : Function.Injective fun bs : List UInt8 => bs.map (·.toNat) :=
  List.map_injective_iff.2 fun _ _ => UInt8.toNat_inj.1

theorem read4_text4 (a : InAddr) : read4 (text4 a) = a.toList.map (·.toNat) := by
  refine read4_dotted fun h => ?_
  have hl := congrArg List.length h
  rw [List.length_map, Vector.length_toList] at hl
  cases hl

/-- **An IPv6 address is read back from its text.** -/
theorem read6_text6 (a : In6Addr) : bytes (read6 (text6 a)) = a.toList.map (·.toNat) := by
  have h := groups a
  rw [read6, text6, List.splitOn_intercalate _ (fun t ht => colon_not_mem h ht) (pieces_ne_nil h),
    readPieces_pieces h]
  exact bytes_words _ (by rw [Vector.length_toList])

/-- The texts are what `SocketAddr` relies on. -/
def inetNtop : InetNtop where
  text4 := text4
  text6 := text6
  injective4 a b h := by
    have hr := congrArg read4 h
    rw [read4_text4, read4_text4] at hr
    exact Vector.toList_inj.1 (map_toNat_injective hr)
  injective6 a b h := by
    have hr := congrArg (fun t => bytes (read6 t)) h
    simp only [read6_text6] at hr
    exact Vector.toList_inj.1 (map_toNat_injective hr)
  length4 a := by
    refine Nat.le_trans (dotted_length _ ?_ fun b hb => ?_) (by decide)
    · rw [List.length_map, Vector.length_toList]
    · obtain ⟨x, -, rfl⟩ := List.mem_map.1 hb
      exact x.toNat_lt
  length6 a := by
    have h := groups a
    have hlen := length_intercalate ':' (pieces_ne_nil h)
    have hsize := size_pieces h
    rw [size, ← hlen] at hsize
    exact Nat.le_of_succ_le_succ hsize
  chars4 a x hx := mem_dotted hx
  chars6 a x hx := by
    rcases mem_intercalate hx with rfl | ⟨t, ht, hx⟩
    · decide
    · exact (by decide : "0123456789abcdef.".toList ⊆ "0123456789abcdef:.".toList)
        (mem_of_mem_piece (groups a) ht hx)
  colons6 a := by
    have h := groups a
    have hcount := count_intercalate (fun t ht => colon_not_mem h ht) (pieces_ne_nil h)
    have hlen := pieces_length h
    rw [← hcount] at hlen
    exact Nat.le_of_succ_le_succ hlen

example : text6 #v[0x20, 1, 0xd, 0xb8, 0, 0, 0, 1, 0, 0, 0, 0, 0, 0, 0, 0x2a] =
    "2001:db8:0:1::2a".toList := by
  decide +kernel

example : text6 #v[0, 0, 0, 0, 0, 0, 0, 0, 0, 0, 0xff, 0xff, 10, 0, 0, 1] = "::ffff:10.0.0.1".toList := by
  decide +kernel

end Liang.Net.Inet
