import NetworkPoller.Base.Buffer
import NetworkPoller.Lib.Runs

/-!
# `Buffer` is a byte queue

`Wf b`: `read_index_ ≤ write_index_ ≤ buffer_.size()`, both positions below `2 ^ 32`. Under `Wf`
the 32-bit results of `WritableBytes` and `ReadableBytes` are what the 64-bit differences say
(`readableBytes_eq`, `length_mod`), and every operation is an operation on the queue `readable`:

* `append_spec`, `readFromFD_data`: push at the back, as long as `write_index_` plus the length
  stays below `2 ^ 32`;
* `clearReadIndex_spec`, `readBytes_spec`, `retrieveUntil_spec`: take from the front;
* `ensureWritableBytes_spec`, `resetIndex_spec`: nothing, everything.

`Pair` runs any sequence of the operations on two buffers, `Queues` the same sequence on two byte
lists; `pair_sim` is the simulation between them, `buffer_refines_queue` what it says of runs.

Space is reclaimed only when the buffer is drained, so `write_index_` can wrap however little is
unread; `stream_lost` is such a run, `stream_exact` what holds without it.
-/

namespace Liang.Base

/-! ## The vector -/

@[simp] theorem length_resize (xs : List UInt8) (n : Nat) : (resize xs n).length = n := by
  simp only [resize, List.length_append, List.length_take, List.length_replicate]
  omega

theorem take_resize {xs : List UInt8} {i n : Nat} (hn : i ≤ n) (hx : i ≤ xs.length) :
    (resize xs n).take i = xs.take i := by
  rw [resize, List.take_append_of_le_length (by rw [List.length_take]; omega), List.take_take,
    Nat.min_eq_left hn]

@[simp] theorem length_copyAt (xs ys : List UInt8) (i : Nat) :
    (copyAt xs i ys).length = xs.length := by
  simp only [copyAt, List.length_append, List.length_take, List.length_drop]
  omega

/-- A copy within the vector stores all bytes. -/
theorem copyAt_eq {xs ys : List UInt8} {i : Nat} (h : i + ys.length ≤ xs.length) :
    copyAt xs i ys = xs.take i ++ ys ++ xs.drop (i + ys.length) := by
  rw [copyAt, List.take_of_length_le (Nat.le_sub_of_add_le' h)]

/-- The positions up to the end of the copy. -/
theorem take_copyAt {xs ys : List UInt8} {i : Nat} (h : i + ys.length ≤ xs.length) :
    (copyAt xs i ys).take (i + ys.length) = xs.take i ++ ys := by
  have hl : (xs.take i ++ ys).length = i + ys.length := by
    rw [List.length_append, List.length_take, Nat.min_eq_left (Nat.le_of_add_right_le h)]
  rw [copyAt_eq h, ← hl, List.take_left]

namespace Buffer

/-- The representation invariant. -/
structure Wf (b : Buffer) : Prop where
  read_le : b.readIndex ≤ b.writeIndex
  write_le : b.writeIndex ≤ b.buffer.length
  write_lt : b.writeIndex < u32Size

variable {b : Buffer}

theorem wf_new (size : UInt32) : Wf (new size) :=
  ⟨Nat.le_refl _, Nat.zero_le _, by simp [new, u32Size]⟩

namespace Wf

theorem readableBytes_eq (h : Wf b) : b.readableBytes = b.writeIndex - b.readIndex := by
  rw [readableBytes, wrapSub, if_pos h.read_le]

/-- The queue a buffer holds. -/
theorem readable_eq (h : Wf b) : b.readable = (b.buffer.take b.writeIndex).drop b.readIndex := by
  rw [readable, peek, h.readableBytes_eq, List.drop_take]

theorem length_readable (h : Wf b) : b.readable.length = b.readableBytes := by
  have := h.read_le
  have := h.write_le
  rw [h.readable_eq, h.readableBytes_eq, List.length_drop, List.length_take]
  omega

theorem writableBytes_le (h : Wf b) : b.writableBytes ≤ b.buffer.length - b.writeIndex := by
  rw [writableBytes, wrapSub, if_pos h.write_le]
  exact Nat.mod_le _ _

/-- `WritableBytes` loses at most multiples of `2 ^ 32`, so the end of the vector is at
`write_index_ + WritableBytes()` as far as a 32-bit position can tell. -/
theorem length_mod (h : Wf b) (hw : b.writeIndex + b.writableBytes < u32Size) :
    b.buffer.length % u32Size = b.writeIndex + b.writableBytes := by
  have hle := h.write_le
  rw [writableBytes, wrapSub, if_pos hle] at hw ⊢
  calc b.buffer.length % u32Size
      = (b.writeIndex + (b.buffer.length - b.writeIndex)) % u32Size := by
        rw [Nat.add_sub_cancel' hle]
    _ = (b.writeIndex + (b.buffer.length - b.writeIndex) % u32Size) % u32Size := by
        rw [Nat.add_mod_mod]
    _ = _ := Nat.mod_eq_of_lt hw

end Wf

/-! ## The operations -/

theorem u32Size_lt : u32Size < sizeTSize := by decide

theorem ensureWritableBytes_spec (h : Wf b) {n : Nat} (hl : b.writeIndex + n < sizeTSize) :
    Wf (b.ensureWritableBytes n) ∧ (b.ensureWritableBytes n).readable = b.readable ∧
      (b.ensureWritableBytes n).writeIndex = b.writeIndex ∧
      b.writeIndex + n ≤ (b.ensureWritableBytes n).buffer.length := by
  have hw := h.write_le
  have hle := h.writableBytes_le
  unfold ensureWritableBytes
  split
  · have hwf : Wf { b with buffer := resize b.buffer ((b.writeIndex + n) % sizeTSize) } :=
      ⟨h.read_le, by simp only [length_resize]; rw [Nat.mod_eq_of_lt hl]; omega, h.write_lt⟩
    refine ⟨hwf, ?_, rfl, ?_⟩
    · rw [hwf.readable_eq, h.readable_eq]
      simp only
      rw [Nat.mod_eq_of_lt hl, take_resize (by omega) hw]
    · exact Nat.le_of_eq (by rw [length_resize, Nat.mod_eq_of_lt hl])
  · exact ⟨h, rfl, rfl, by omega⟩

/-- Bytes stored behind `write_index_`, within the vector, are pushed. -/
theorem store_spec (h : Wf b) {d : List UInt8} (hl : b.writeIndex + d.length < u32Size)
    (hb : b.writeIndex + d.length ≤ b.buffer.length) {c : Buffer}
    (hw : c.writeIndex = b.writeIndex + d.length)
    (hd : c.buffer = copyAt b.buffer b.writeIndex d) (hr : c.readIndex = b.readIndex) :
    Wf c ∧ c.readable = b.readable ++ d := by
  have h1 := h.read_le
  have hwf : Wf c := ⟨by omega, by rw [hd, length_copyAt, hw]; exact hb, by omega⟩
  refine ⟨hwf, ?_⟩
  rw [hwf.readable_eq, h.readable_eq, hr, hw, hd, take_copyAt hb,
    List.drop_append_of_le_length]
  rw [List.length_take, Nat.min_eq_left h.write_le]
  exact h1

theorem append_spec (h : Wf b) {d : List UInt8} (hl : b.writeIndex + d.length < u32Size) :
    Wf (b.append d) ∧ (b.append d).readable = b.readable ++ d ∧
      (b.append d).writeIndex = b.writeIndex + d.length := by
  obtain ⟨hwf, hq, hw, hb⟩ := ensureWritableBytes_spec h (n := d.length)
    (Nat.lt_trans hl u32Size_lt)
  have hi : (b.append d).writeIndex = (b.ensureWritableBytes d.length).writeIndex + d.length := by
    simp only [append, hw]
    exact Nat.mod_eq_of_lt hl
  obtain ⟨h1, h2⟩ := store_spec hwf (d := d) (c := b.append d) (by rw [hw]; exact hl)
    (by rw [hw]; exact hb) hi rfl rfl
  exact ⟨h1, by rw [h2, hq], by rw [hi, hw]⟩

theorem resetIndex_spec (b : Buffer) : Wf b.resetIndex ∧ b.resetIndex.readable = [] := by
  have hwf : Wf b.resetIndex := ⟨Nat.le_refl _, Nat.zero_le _, by simp [resetIndex, u32Size]⟩
  refine ⟨hwf, ?_⟩
  rw [hwf.readable_eq]
  rfl

theorem clearReadIndex_spec (h : Wf b) (len : Nat) :
    Wf (b.clearReadIndex len) ∧ (b.clearReadIndex len).readable = b.readable.drop len := by
  unfold clearReadIndex
  split
  · rename_i hlt
    have hw := h.write_lt
    rw [h.readableBytes_eq] at hlt
    have hm : (b.readIndex + len) % u32Size = b.readIndex + len := Nat.mod_eq_of_lt (by omega)
    have hwf : Wf { b with readIndex := (b.readIndex + len) % u32Size } :=
      ⟨by simp only [hm]; omega, h.write_le, h.write_lt⟩
    refine ⟨hwf, ?_⟩
    rw [hwf.readable_eq, h.readable_eq, List.drop_drop]
    simp only [hm]
  · rename_i hge
    obtain ⟨h1, h2⟩ := resetIndex_spec b
    refine ⟨h1, ?_⟩
    rw [h2, List.drop_eq_nil_of_le]
    rw [h.length_readable]
    omega

theorem peek_eq_take {n : Nat} (h : n ≤ b.readableBytes) : b.peek n = b.readable.take n := by
  rw [readable, peek, peek, List.take_take, Nat.min_eq_left h]

/-- A read returns the first `min len size` bytes and removes them. -/
theorem readBytes_spec (h : Wf b) (len : Nat) :
    (b.readBytes len).1 = b.readable.take len ∧
      (b.readBytes len).2.1 = toInt32 (min len b.readable.length) ∧
      Wf (b.readBytes len).2.2 ∧ (b.readBytes len).2.2.readable = b.readable.drop len := by
  have hr := h.length_readable
  unfold readBytes
  simp only
  split
  · rename_i hlt
    obtain ⟨h1, h2⟩ := clearReadIndex_spec h b.readableBytes
    refine ⟨?_, by rw [hr, Nat.min_eq_right (by omega)], h1, ?_⟩
    · rw [List.take_of_length_le (by omega)]
      rfl
    · rw [h2, List.drop_eq_nil_of_le (by omega), List.drop_eq_nil_of_le (by omega)]
  · rename_i hge
    obtain ⟨h1, h2⟩ := clearReadIndex_spec h len
    exact ⟨peek_eq_take (by omega), by rw [hr, Nat.min_eq_left (by omega)], h1, h2⟩

theorem readAll_spec (h : Wf b) :
    (b.readBytes b.readableBytes).1 = b.readable ∧
      (b.readBytes b.readableBytes).2.1 = toInt32 b.readable.length ∧
      Wf (b.readBytes b.readableBytes).2.2 ∧
      (b.readBytes b.readableBytes).2.2.readable = [] := by
  obtain ⟨h1, h2, h3, h4⟩ := readBytes_spec h b.readableBytes
  rw [← h.length_readable] at h1 h2 h4
  rw [h.length_readable.symm]
  exact ⟨by rw [h1, List.take_length], by rw [h2, Nat.min_self], by rwa [h.length_readable],
    by rw [h4, List.drop_length]⟩

/-- The bytes `readv` scattered over the vector's tail and `extrabuf` are pushed in order. -/
theorem readFromFD_data (h : Wf b) {d : List UInt8} (hl : b.writeIndex + d.length < u32Size) :
    Wf (b.readFromFD (.data d)).1 ∧ (b.readFromFD (.data d)).1.readable = b.readable ++ d ∧
      (b.readFromFD (.data d)).2 = ((d.length : Int), none) := by
  have hle := h.writableBytes_le
  have hw := h.write_le
  unfold readFromFD
  simp only
  split
  · rename_i hn
    obtain ⟨h1, h2⟩ := store_spec h hl (by omega)
      (c := { b with
        buffer := copyAt b.buffer b.writeIndex d
        writeIndex := (b.writeIndex + d.length) % u32Size }) (Nat.mod_eq_of_lt hl) rfl rfl
    exact ⟨h1, h2, rfl⟩
  · rename_i hn
    have hlen : (d.take b.writableBytes).length = b.writableBytes := by
      rw [List.length_take]; omega
    have hm := h.length_mod (by omega)
    -- the first part fills the vector's tail, and the write index moves to its end
    obtain ⟨h1, h2⟩ := store_spec h (d := d.take b.writableBytes) (by omega) (by omega)
      (c := { b with
        buffer := copyAt b.buffer b.writeIndex (d.take b.writableBytes)
        writeIndex := b.buffer.length % u32Size }) (by rw [hlen]; exact hm) rfl rfl
    obtain ⟨h3, h4, -⟩ := append_spec h1 (d := d.drop b.writableBytes)
      (by simp only [List.length_drop]; omega)
    refine ⟨h3, ?_, rfl⟩
    rw [h4, h2, List.append_assoc, List.take_append_drop]

theorem retrieveUntil_spec (h : Wf b) (e : Int) :
    Wf (b.retrieveUntil e) ∧ (b.retrieveUntil e).readable =
      if (b.readIndex : Int) ≤ e ∧ e ≤ b.writeIndex then
        b.readable.drop (e - b.readIndex).toNat else b.readable := by
  have hw := h.write_lt
  unfold retrieveUntil
  split
  · rename_i h1
    exact ⟨h, by rw [if_neg (fun hc => h1 hc.1)]⟩
  · rename_i h1
    split
    · rename_i h2
      exact ⟨h, by rw [if_neg (fun hc => h2 hc.2)]⟩
    · rename_i h2
      rw [not_not] at h1 h2
      rw [if_pos ⟨h1, h2⟩, Nat.mod_eq_of_lt (by omega)]
      exact clearReadIndex_spec h _

/-! ## When `write_index_` may have wrapped -/

/-- What is left of the representation invariant when `write_index_` has wrapped. -/
structure Bounded (b : Buffer) : Prop where
  read_lt : b.readIndex < u32Size
  write_lt : b.writeIndex < u32Size
  write_le : b.writeIndex ≤ b.buffer.length

namespace Bounded

theorem new (size : UInt32) : Bounded (new size) :=
  ⟨by simp [Buffer.new, u32Size], by simp [Buffer.new, u32Size], Nat.zero_le _⟩

/-- There is room for what is appended. -/
theorem room (h : Bounded b) {n : Nat} (hn : n < u32Size) :
    b.writeIndex + n ≤ (b.ensureWritableBytes n).buffer.length := by
  have hw := h.write_lt
  have hle := h.write_le
  have hlt : b.writeIndex + n < sizeTSize := by
    simp only [u32Size, sizeTSize] at *
    omega
  unfold ensureWritableBytes
  split
  · simp only [length_resize, Nat.mod_eq_of_lt hlt]
    exact Nat.le_refl _
  · rename_i hge
    rw [writableBytes, wrapSub, if_pos hle] at hge
    have := Nat.mod_le (b.buffer.length - b.writeIndex) u32Size
    omega

theorem ensure_index (b : Buffer) (n : Nat) :
    (b.ensureWritableBytes n).writeIndex = b.writeIndex ∧
      (b.ensureWritableBytes n).readIndex = b.readIndex := by
  unfold ensureWritableBytes
  split <;> exact ⟨rfl, rfl⟩

theorem append (h : Bounded b) {d : List UInt8} (hd : d.length < u32Size) : Bounded (b.append d) := by
  obtain ⟨hi, hr⟩ := ensure_index b d.length
  have hroom := h.room hd
  refine ⟨?_, Nat.mod_lt _ (by decide), ?_⟩
  · show (b.ensureWritableBytes d.length).readIndex < _
    rw [hr]
    exact h.read_lt
  · show ((b.ensureWritableBytes d.length).writeIndex + d.length) % u32Size ≤ (copyAt _ _ d).length
    rw [length_copyAt, hi]
    exact Nat.le_trans (Nat.mod_le _ _) hroom

theorem clearReadIndex (h : Bounded b) (n : Nat) : Bounded (b.clearReadIndex n) := by
  unfold Buffer.clearReadIndex
  split
  · exact ⟨Nat.mod_lt _ (by decide), h.write_lt, h.write_le⟩
  · have h0 : 0 < u32Size := by decide
    exact ⟨h0, h0, Nat.zero_le _⟩

/-- What is appended to an empty buffer is what can be read, also when `write_index_` wraps. -/
theorem append_empty (h : Bounded b) (h0 : b.readableBytes = 0) {d : List UInt8}
    (hd : d.length < u32Size) : (b.append d).readable = d := by
  obtain ⟨hi, hr⟩ := ensure_index b d.length
  have hroom := h.room hd
  have hw := h.write_lt
  have heq : b.readIndex = b.writeIndex := by
    have := h.read_lt
    unfold readableBytes wrapSub at h0
    split at h0 <;> omega
  have hlen : (b.append d).readableBytes = d.length := by
    show wrapSub u32Size (((b.ensureWritableBytes d.length).writeIndex + d.length) % u32Size)
      (b.ensureWritableBytes d.length).readIndex = _
    rw [hi, hr, heq]
    rcases Nat.lt_or_ge (b.writeIndex + d.length) u32Size with hlt | hge
    · rw [Nat.mod_eq_of_lt hlt, wrapSub, if_pos (Nat.le_add_right ..)]
      omega
    · rw [Nat.mod_eq_sub_mod hge, Nat.mod_eq_of_lt (by omega), wrapSub, if_neg (by omega)]
      omega
  rw [readable, peek, hlen]
  show ((copyAt _ (b.ensureWritableBytes d.length).writeIndex d).drop
    (b.ensureWritableBytes d.length).readIndex).take d.length = d
  rw [hi, hr, heq, copyAt_eq hroom, List.append_assoc, List.drop_left' (by rw [List.length_take]; omega),
    List.take_left]

end Bounded

end Buffer

/-! ## Sequences of operations on two buffers -/

/-- `write_index_` plus the length being appended stays below `2 ^ 32`; a reservation only has to
keep the `size_t` sum `write_index_ + len` from wrapping. -/
def BufOp.Fits (b : Buffer) : BufOp → Prop
  | append data | appendString data | readFromFD (.data data) =>
    b.writeIndex + data.length < u32Size
  | ensureWritableBytes len => b.writeIndex + len.toNat < sizeTSize
  | _ => True

instance (b : Buffer) : ∀ op : BufOp, Decidable (op.Fits b)
  | .append _ | .appendString _ | .readFromFD (.data _) | .ensureWritableBytes _ =>
    inferInstanceAs (Decidable (_ < _))
  | .readFromFD (.error _) | .readAsString _ | .readAllAsString | .readBytes _ | .readAllAsByte
  | .clearReadIndex _ | .retrieveUntil _ | .resetIndex => isTrue trivial

/-- The same operation on a queue of bytes. -/
def BufOp.queue (q : List UInt8) : BufOp → List UInt8 × BufOut
  | append data | appendString data => (q ++ data, .unit)
  | ensureWritableBytes _ => (q, .unit)
  | readFromFD (.error errno) => (q, .fd (-1) (some errno))
  | readFromFD (.data bytes) => (q ++ bytes, .fd bytes.length none)
  | readAsString len | readBytes len =>
    (q.drop len.toNat, .bytes (q.take len.toNat) (toInt32 (min len.toNat q.length)))
  | readAllAsString | readAllAsByte => ([], .bytes q (toInt32 q.length))
  | clearReadIndex len => (q.drop len.toNat, .unit)
  | retrieveUntil d => (if 0 ≤ d ∧ d ≤ q.length then q.drop d.toNat else q, .unit)
  | resetIndex => ([], .unit)

open Buffer in
/-- **One operation**: it keeps the representation invariant and does to the readable bytes, and
hands to its caller, what the queue operation does. -/
theorem BufOp.exec_spec {b b' : Buffer} {op : BufOp} {o : BufOut} (h : b.Wf) (hf : op.Fits b)
    (he : op.exec b = some (b', o)) : b'.Wf ∧ op.queue b.readable = (b'.readable, o) := by
  cases op with
  | append data | appendString data =>
    cases he
    obtain ⟨h1, h2, -⟩ := append_spec h hf
    exact ⟨h1, congrArg (·, BufOut.unit) h2.symm⟩
  | ensureWritableBytes len =>
    cases he
    obtain ⟨h1, h2, -⟩ := ensureWritableBytes_spec h hf
    exact ⟨h1, congrArg (·, BufOut.unit) h2.symm⟩
  | readFromFD res =>
    cases res with
    | error errno => cases he; exact ⟨h, rfl⟩
    | data bytes =>
      simp only [exec, Option.ite_none_right_eq_some, Option.some.injEq, Prod.mk.injEq] at he
      obtain ⟨-, rfl, rfl⟩ := he
      obtain ⟨h1, h2, h3⟩ := readFromFD_data h hf
      refine ⟨h1, ?_⟩
      rw [h2, h3]
      rfl
  | readAsString len | readBytes len =>
    cases he
    obtain ⟨h1, h2, h3, h4⟩ := readBytes_spec h len.toNat
    exact ⟨h3, Prod.ext h4.symm (congrArg₂ BufOut.bytes h1.symm h2.symm)⟩
  | readAllAsString | readAllAsByte =>
    cases he
    obtain ⟨h1, h2, h3, h4⟩ := readAll_spec h
    exact ⟨h3, Prod.ext h4.symm (congrArg₂ BufOut.bytes h1.symm h2.symm)⟩
  | clearReadIndex len =>
    cases he
    obtain ⟨h1, h2⟩ := clearReadIndex_spec h len.toNat
    exact ⟨h1, congrArg (·, BufOut.unit) h2.symm⟩
  | retrieveUntil d =>
    cases he
    obtain ⟨h1, h2⟩ := retrieveUntil_spec h (b.readIndex + d)
    have hlen : (b.readable.length : Int) = b.writeIndex - b.readIndex := by
      have := h.read_le
      rw [h.length_readable, h.readableBytes_eq]
      omega
    refine ⟨h1, congrArg (·, BufOut.unit) ?_⟩
    rw [h2, hlen, show (b.readIndex : Int) + d - b.readIndex = d by omega]
    exact if_congr ⟨fun hd => ⟨by omega, by omega⟩, fun hd => ⟨by omega, by omega⟩⟩ rfl rfl
  | resetIndex =>
    cases he
    obtain ⟨h1, h2⟩ := resetIndex_spec b
    exact ⟨h1, congrArg (·, BufOut.unit) h2.symm⟩

/-- Two buffers and what their callers have received so far. -/
structure Pair where
  left : Buffer
  right : Buffer
  outs : List BufOut
  deriving DecidableEq

inductive PairOp
  | left (op : BufOp)
  | right (op : BufOp)
  | swap
  deriving DecidableEq

def Pair.step (s : Pair) : PairOp → Option Pair
  | .left op => (op.exec s.left).map fun r => ⟨r.1, s.right, s.outs ++ [r.2]⟩
  | .right op => (op.exec s.right).map fun r => ⟨s.left, r.1, s.outs ++ [r.2]⟩
  | .swap => let r := s.left.swap s.right; some ⟨r.1, r.2, s.outs⟩

def Pair.Fits (s : Pair) : PairOp → Prop
  | .left op => op.Fits s.left
  | .right op => op.Fits s.right
  | .swap => True

instance (s : Pair) : ∀ op : PairOp, Decidable (s.Fits op)
  | .left _ | .right _ => inferInstanceAs (Decidable (BufOp.Fits _ _))
  | .swap => isTrue trivial

/-- Two byte queues and the outputs so far. -/
structure Queues where
  left : List UInt8
  right : List UInt8
  outs : List BufOut
  deriving DecidableEq

def Queues.step (x : Queues) : PairOp → Option Queues
  | .left op => let r := op.queue x.left; some ⟨r.1, x.right, x.outs ++ [r.2]⟩
  | .right op => let r := op.queue x.right; some ⟨x.left, r.1, x.outs ++ [r.2]⟩
  | .swap => some ⟨x.right, x.left, x.outs⟩

/-- Well-formed buffers whose readable bytes are the queues. -/
structure Pair.Rep (s : Pair) (x : Queues) : Prop where
  left : s.left.Wf ∧ s.left.readable = x.left
  right : s.right.Wf ∧ s.right.readable = x.right
  outs : s.outs = x.outs

theorem pair_sim : Runs.Sim Pair.step Pair.Fits Queues.step Pair.Rep := by
  intro s op s' x hR hf hs
  obtain ⟨⟨hl, hlq⟩, ⟨hr, hrq⟩, ho⟩ := hR
  cases op with
  | left op =>
    simp only [Pair.step, Option.map_eq_some_iff] at hs
    obtain ⟨⟨b', o⟩, he, rfl⟩ := hs
    obtain ⟨h1, h2⟩ := BufOp.exec_spec hl hf he
    rw [hlq] at h2
    exact ⟨_, rfl, ⟨h1, by rw [h2]⟩, ⟨hr, hrq⟩, by rw [h2, ho]⟩
  | right op =>
    simp only [Pair.step, Option.map_eq_some_iff] at hs
    obtain ⟨⟨b', o⟩, he, rfl⟩ := hs
    obtain ⟨h1, h2⟩ := BufOp.exec_spec hr hf he
    rw [hrq] at h2
    exact ⟨_, rfl, ⟨hl, hlq⟩, ⟨h1, by rw [h2]⟩, by rw [h2, ho]⟩
  | swap =>
    cases hs
    exact ⟨_, rfl, ⟨hr, hrq⟩, ⟨hl, hlq⟩, ho⟩

/-- **A `Buffer` is a byte queue.** After every sequence of operations on two new buffers of any
initial sizes the positions are in order and within the vector, and the readable bytes and
everything handed to the callers are what the two queues give on the same sequence. -/
theorem buffer_refines_queue (m n : UInt32) (ops : List PairOp) (s : Pair)
    (hr : Runs.run Pair.step ⟨.new m, .new n, []⟩ ops = some s)
    (hf : Runs.Admits Pair.step Pair.Fits ⟨.new m, .new n, []⟩ ops) :
    ∃ x, Runs.run Queues.step ⟨[], [], []⟩ ops = some x ∧
      s.left.readable = x.left ∧ s.right.readable = x.right ∧ s.outs = x.outs ∧
      (s.left.readIndex ≤ s.left.writeIndex ∧ s.left.writeIndex ≤ s.left.buffer.length) ∧
      s.right.readIndex ≤ s.right.writeIndex ∧ s.right.writeIndex ≤ s.right.buffer.length := by
  have h0 : Pair.Rep ⟨.new m, .new n, []⟩ ⟨[], [], []⟩ :=
    ⟨⟨Buffer.wf_new m, (Buffer.wf_new m).readable_eq.trans rfl⟩,
      ⟨Buffer.wf_new n, (Buffer.wf_new n).readable_eq.trans rfl⟩, rfl⟩
  obtain ⟨x, hx, ⟨hl, hlq⟩, ⟨hr', hrq⟩, ho⟩ := pair_sim.run ops h0 hr hf
  exact ⟨x, hx, hlq, hrq, ho, ⟨hl.read_le, hl.write_le⟩, hr'.read_le, hr'.write_le⟩

/-- A run that fills the vector exactly, reads past its end into `extrabuf`, fails once, swaps and
drains. -/
theorem buffer_refines_queue_drained :
    ∃ (s : Pair) (x : Queues), Runs.run Pair.step ⟨.new 2, .new 0, []⟩
        [.left (.append [1, 2]), .left (.readFromFD (.data [3, 4, 5])),
          .left (.readFromFD (.error 11)), .swap, .right (.readBytes 4), .right (.readAllAsByte)]
        = some s ∧ s.outs = x.outs ∧
      x.outs = [.unit, .fd 3 none, .fd (-1) (some 11), .bytes [1, 2, 3, 4] 4, .bytes [5] 1] := by
  obtain ⟨x, hx, -, -, ho, -⟩ := buffer_refines_queue 2 0
    [.left (.append [1, 2]), .left (.readFromFD (.data [3, 4, 5])),
      .left (.readFromFD (.error 11)), .swap, .right (.readBytes 4), .right (.readAllAsByte)]
    _ rfl (by decide)
  refine ⟨_, x, rfl, ho, ?_⟩
  cases hx
  rfl

/-! ## A stream that is never drained -/

/-- A buffer, and the bytes appended to it and not yet cleared. -/
structure Stream where
  buf : Buffer
  unread : List UInt8

inductive StreamOp
  | append (data : List UInt8)
  | clearReadIndex (len : UInt32)

/-- What is cleared is at most `ReadableBytes()`. -/
def Stream.step (s : Stream) : StreamOp → Option Stream
  | .append data => some ⟨s.buf.append data, s.unread ++ data⟩
  | .clearReadIndex len =>
    if len.toNat ≤ s.buf.readableBytes then
      some ⟨s.buf.clearReadIndex len.toNat, s.unread.drop len.toNat⟩
    else none

/-- At most `2 ^ 31` bytes are unread after the call. -/
def StreamOp.Small (s : Stream) : StreamOp → Prop
  | append data => (s.unread ++ data).length ≤ 2 ^ 31
  | clearReadIndex _ => True

/-- `write_index_` does not wrap. -/
def StreamOp.NoWrap (s : Stream) : StreamOp → Prop
  | append data => s.buf.writeIndex + data.length < u32Size
  | clearReadIndex _ => True

instance (s : Stream) : ∀ op : StreamOp, Decidable (op.NoWrap s)
  | .append _ => inferInstanceAs (Decidable (_ < _))
  | .clearReadIndex _ => isTrue trivial

/-- **The buffer holds the unread bytes**, as long as `write_index_` does not wrap. -/
theorem stream_exact (n : UInt32) {s : Stream}
    (h : Runs.Reach Stream.step (fun s op => op.NoWrap s) ⟨.new n, []⟩ s) :
    s.buf.readableBytes = s.unread.length ∧ s.buf.readable = s.unread := by
  have hs : s.buf.Wf ∧ s.buf.readable = s.unread := by
    refine h.inv (I := fun s => s.buf.Wf ∧ s.buf.readable = s.unread)
      ⟨Buffer.wf_new n, (Buffer.wf_new n).readable_eq.trans rfl⟩ fun s op s' _ hi hP hstep => ?_
    obtain ⟨hwf, hq⟩ := hi
    cases op with
    | append data =>
      cases hstep
      obtain ⟨h1, h2, -⟩ := Buffer.append_spec hwf hP
      exact ⟨h1, by rw [h2, hq]⟩
    | clearReadIndex len =>
      simp only [Stream.step, Option.ite_none_right_eq_some, Option.some.injEq] at hstep
      obtain ⟨-, rfl⟩ := hstep
      obtain ⟨h1, h2⟩ := Buffer.clearReadIndex_spec hwf len.toNat
      exact ⟨h1, by rw [h2, hq]⟩
  exact ⟨by rw [← hs.2, hs.1.length_readable], hs.2⟩

theorem stream_exact_small :
    ∃ s, Runs.run Stream.step ⟨.new 2, []⟩
        [.append [1, 2, 3], .clearReadIndex 2, .append [4, 5]] = some s ∧
      s.buf.readableBytes = 3 ∧ s.buf.readable = [3, 4, 5] := by
  have hr : Runs.Reach Stream.step (fun s op => op.NoWrap s) ⟨.new 2, []⟩ _ := Runs.Reach.of_run
    [.append [1, 2, 3], .clearReadIndex 2, .append [4, 5]] rfl (by decide)
  exact ⟨_, rfl, stream_exact 2 hr⟩

/-- The positions and the size of the vector. -/
structure Buffer.At (b : Buffer) (r w n : Nat) : Prop where
  read : b.readIndex = r
  write : b.writeIndex = w
  size : b.buffer.length = n

namespace Buffer.At

variable {b : Buffer} {r w n : Nat}

/-- An append that finds too little space resizes the vector to what is appended, which may be less
than its size if `WritableBytes` has lost a multiple of `2 ^ 32`. -/
theorem append (h : b.At r w n) {d : List UInt8} (hw : wrapSub sizeTSize n w % u32Size < d.length)
    (hl : w + d.length < sizeTSize) :
    (b.append d).At r ((w + d.length) % u32Size) (w + d.length) := by
  obtain ⟨rfl, rfl, rfl⟩ := h
  have hw : b.writableBytes < d.length := hw
  have he : b.ensureWritableBytes d.length =
      { b with buffer := resize b.buffer (b.writeIndex + d.length) } := by
    rw [ensureWritableBytes, if_pos hw, Nat.mod_eq_of_lt hl]
  unfold Buffer.append
  rw [he]
  refine ⟨rfl, rfl, ?_⟩
  show (copyAt _ _ _).length = _
  rw [length_copyAt, length_resize]

theorem clear (h : b.At r w n) {len : Nat} (hlt : len < wrapSub u32Size w r) :
    (b.clearReadIndex len).At ((r + len) % u32Size) w n := by
  obtain ⟨rfl, rfl, rfl⟩ := h
  have hlt : len < b.readableBytes := hlt
  rw [clearReadIndex, if_pos hlt]
  exact ⟨rfl, rfl, rfl⟩

/-- What there is to read is within the vector, and all of it is cleared. -/
theorem clear_all (h : b.At r w n) (hr : r ≤ w) (hw : w ≤ n) :
    b.readable.length = w - r ∧ (b.clearReadIndex (w - r)).isEmpty = true := by
  obtain ⟨rfl, rfl, rfl⟩ := h
  have hn : b.readableBytes = b.writeIndex - b.readIndex := if_pos hr
  constructor
  · simp only [readable, peek, hn, List.length_take, List.length_drop]
    omega
  · rw [clearReadIndex, hn, if_neg (Nat.lt_irrefl _)]
    rfl

/-- The positions are outside of the vector. -/
theorem readable_nil (h : b.At r w n) (hn : n ≤ r) : b.readable = [] := by
  obtain ⟨rfl, rfl, rfl⟩ := h
  rw [readable, peek, List.drop_eq_nil_of_le hn, List.take_nil]

end Buffer.At

/-- A state with `k` unread bytes and these positions is reached with few bytes unread throughout. -/
def Stream.Reaches (k r w n : Nat) : Prop :=
  ∃ s, Runs.Reach Stream.step (fun s op => op.Small s) ⟨.new Buffer.initSize, []⟩ s ∧
    s.unread.length = k ∧ s.buf.At r w n

namespace Stream.Reaches

variable {k r w n : Nat}

theorem init : Reaches 0 0 0 1024 :=
  ⟨_, .init, rfl, rfl, rfl, by simp only [Buffer.new, List.length_replicate]; rfl⟩

theorem append (h : Reaches k r w n) (m : Nat) (hk : k + m ≤ 2 ^ 31)
    (hw : wrapSub sizeTSize n w % u32Size < m) (hl : w + m < sizeTSize) :
    Reaches (k + m) r ((w + m) % u32Size) (w + m) := by
  obtain ⟨s, hr, hs, hb⟩ := h
  have hm : (List.replicate m (0 : UInt8)).length = m := List.length_replicate
  have hu : (s.unread ++ List.replicate m 0).length = k + m := by rw [List.length_append, hs, hm]
  have hb' := hb.append (d := List.replicate m 0) (by rwa [hm]) (by rwa [hm])
  rw [hm] at hb'
  have hsmall := Nat.le_trans (Nat.le_of_eq hu) hk
  exact ⟨⟨_, _⟩, .snoc (a := .append (List.replicate m 0)) hr hsmall rfl, hu, hb'⟩

theorem clear (h : Reaches k r w n) (len : UInt32) (hlt : len.toNat < wrapSub u32Size w r) :
    Reaches (k - len.toNat) ((r + len.toNat) % u32Size) w n := by
  obtain ⟨s, hr, hs, hb⟩ := h
  have hle : len.toNat ≤ s.buf.readableBytes := by
    rw [Buffer.readableBytes, hb.read, hb.write]
    exact Nat.le_of_lt hlt
  exact ⟨⟨_, _⟩, .snoc (a := .clearReadIndex len) hr trivial (if_pos hle),
    by rw [List.length_drop, hs], hb.clear hlt⟩

end Stream.Reaches

/-- Twice `2 ^ 31` unread bytes are cleared down to one, and two more are appended: the first lets
`write_index_` wrap, and `WritableBytes` cuts the size of the vector to 0, so that the second shrinks
the vector to one byte. -/
theorem stream_lost :
    ∃ s, Runs.Reach Stream.step (fun s op => op.Small s) ⟨.new Buffer.initSize, []⟩ s ∧
      s.unread.length = 3 ∧ s.buf.readable = [] := by
  have h₁ : Stream.Reaches (2 ^ 31) 0 (2 ^ 31) (2 ^ 31) :=
    Stream.Reaches.init.append (2 ^ 31) (by decide) (by decide) (by decide)
  have h₂ : Stream.Reaches 1 (2 ^ 31 - 1) (2 ^ 31) (2 ^ 31) := h₁.clear 0x7fffffff (by decide)
  have h₃ : Stream.Reaches (2 ^ 31) (2 ^ 31 - 1) (2 ^ 32 - 1) (2 ^ 32 - 1) :=
    h₂.append (2 ^ 31 - 1) (by decide) (by decide) (by decide)
  have h₄ : Stream.Reaches 1 (2 ^ 32 - 2) (2 ^ 32 - 1) (2 ^ 32 - 1) := h₃.clear 0x7fffffff (by decide)
  have h₅ : Stream.Reaches 2 (2 ^ 32 - 2) 0 (2 ^ 32) :=
    h₄.append 1 (by decide) (by decide) (by decide)
  have h₆ : Stream.Reaches 3 (2 ^ 32 - 2) 1 1 := h₅.append 1 (by decide) (by decide) (by decide)
  obtain ⟨s, hr, hs, hb⟩ := h₆
  exact ⟨s, hr, hs, hb.readable_nil (by decide)⟩

end Liang.Base
