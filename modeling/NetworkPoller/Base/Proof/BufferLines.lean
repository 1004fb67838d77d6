import NetworkPoller.Base.Proof.BufferFifo

/-!
# Lines out of a `Buffer`

A reader of lines appends what arrives to a buffer and takes the lines out of it with `FindCRLF` and
`RetrieveUntil`. `crlfLines` says what the lines of a stream are, whatever the pieces it arrives in:
the segments before each CR LF, from the left, and the tail behind the last one. That a line found in
the bytes at hand is a line of the stream rests on `crlfLines_of_search`: what is appended later does
not move the first CR LF.

Main result: `line_framing`.
-/

namespace Liang.Base

/-! ## The lines of a stream -/

/-- The segments of a stream before each leftmost CR LF that overlaps none before it, and the tail. -/
def crlfLines : List UInt8 → List (List UInt8) × List UInt8
  | [] => ([], [])
  | 13 :: 10 :: xs => ([] :: (crlfLines xs).1, (crlfLines xs).2)
  | x :: xs => match crlfLines xs with
    | (l :: ls, tail) => ((x :: l) :: ls, tail)
    | ([], tail) => ([], x :: tail)

/-- A byte that begins no CR LF belongs to the first segment, or to the tail. -/
theorem crlfLines_cons {x : UInt8} {xs : List UInt8} (h : ¬ kCRLF <+: x :: xs) :
    crlfLines (x :: xs) = match crlfLines xs with
      | (l :: ls, tail) => ((x :: l) :: ls, tail)
      | ([], tail) => ([], x :: tail) := by
  rw [crlfLines]
  intro ys hx hxs
  exact h ⟨ys, by rw [hx, hxs]; rfl⟩

theorem search_le (pat : List UInt8) : ∀ xs : List UInt8, search pat xs ≤ xs.length
  | [] => Nat.le_refl _
  | x :: xs => by
    have ih := search_le pat xs
    rw [search]
    split
    · exact Nat.zero_le _
    · exact Nat.succ_le_succ ih

/-- The search ends at the end of the bytes exactly if there is no CR LF in them. -/
theorem search_eq_length : ∀ {xs : List UInt8}, search kCRLF xs = xs.length ↔ ¬ kCRLF <:+: xs
  | [] => ⟨fun _ h => by simp [kCRLF] at h, fun _ => rfl⟩
  | x :: xs => by
    have ih : search kCRLF xs = xs.length ↔ _ := search_eq_length
    rw [search, List.infix_cons_iff]
    split
    · rename_i hp
      exact ⟨fun h => absurd h.symm (Nat.succ_ne_zero _),
        fun h => absurd (.inl (List.isPrefixOf_iff_prefix.1 hp)) h⟩
    · rename_i hp
      have hp : ¬ kCRLF <+: x :: xs := fun h => hp (List.isPrefixOf_iff_prefix.2 h)
      rw [List.length_cons, Nat.succ_inj, ih, not_or]
      exact ⟨fun h => ⟨hp, h⟩, fun h => h.2⟩

/-- Bytes without a CR LF are all tail. -/
theorem crlfLines_tail : ∀ {xs : List UInt8}, ¬ kCRLF <:+: xs → crlfLines xs = ([], xs)
  | [], _ => by rw [crlfLines]
  | x :: xs, h => by
    rw [List.infix_cons_iff, not_or] at h
    rw [crlfLines_cons h.1, crlfLines_tail h.2]

/-- **The first CR LF found ends the first line**, whatever follows the bytes searched. -/
theorem crlfLines_of_search : ∀ {xs : List UInt8} (ys : List UInt8), search kCRLF xs < xs.length →
    search kCRLF xs + 2 ≤ xs.length ∧
    crlfLines (xs ++ ys) =
      (xs.take (search kCRLF xs) :: (crlfLines (xs.drop (search kCRLF xs + 2) ++ ys)).1,
        (crlfLines (xs.drop (search kCRLF xs + 2) ++ ys)).2)
  | [], _, h => absurd h (Nat.lt_irrefl 0)
  | x :: xs, ys, h => by
    rw [search] at h ⊢
    split
    · rename_i hp
      obtain ⟨zs, hz⟩ := List.isPrefixOf_iff_prefix.1 hp
      rw [← hz]
      exact ⟨by simp [kCRLF], by simp [kCRLF, crlfLines]⟩
    · rename_i hp
      rw [if_neg hp] at h
      have hp : ¬ kCRLF <+: x :: xs := fun h => hp (List.isPrefixOf_iff_prefix.2 h)
      obtain ⟨hle, ih⟩ := crlfLines_of_search ys (Nat.lt_of_succ_lt_succ h)
      refine ⟨Nat.succ_le_succ hle, ?_⟩
      -- a CR LF at the front of the longer stream lies within the bytes searched
      have hp' : ¬ kCRLF <+: x :: (xs ++ ys) := fun hp' => hp <| by
        rw [← List.cons_append] at hp'
        exact List.prefix_of_prefix_length_le hp' (List.prefix_append ..)
          (by simp only [kCRLF, List.length_cons, List.length_nil]; omega)
      rw [List.cons_append, crlfLines_cons hp', ih]
      rfl

namespace Buffer

variable {b : Buffer}

/-! ## `FindCRLF` and `RetrieveUntil` -/

theorem findCRLF_eq (h : Wf b) : b.findCRLF =
    if search kCRLF b.readable = b.readable.length then none
    else some (b.readIndex + search kCRLF b.readable) := by
  have hlen : b.writeIndex = b.readIndex + b.readable.length := by
    rw [h.length_readable, h.readableBytes_eq, Nat.add_sub_cancel' h.read_le]
  rw [findCRLF, ← h.readable_eq]
  simp only [hlen, Nat.add_left_cancel_iff]

/-- `FindCRLF` returns null exactly if there is no CR LF in the readable bytes. -/
theorem findCRLF_eq_none (h : Wf b) : b.findCRLF = none ↔ ¬ kCRLF <:+: b.readable := by
  rw [findCRLF_eq h, ← search_eq_length]
  split <;> simp_all

theorem findCRLF_eq_some (h : Wf b) {p : Nat} (hp : b.findCRLF = some p) :
    p = b.readIndex + search kCRLF b.readable ∧ search kCRLF b.readable < b.readable.length := by
  rw [findCRLF_eq h] at hp
  split at hp
  · cases hp
  · rename_i hne
    cases hp
    exact ⟨rfl, Nat.lt_of_le_of_ne (search_le ..) hne⟩

/-- `RetrieveUntil` of a pointer that is not within the readable bytes. -/
theorem retrieveUntil_outside {e : Int} (h : ¬ ((b.readIndex : Int) ≤ e ∧ e ≤ b.writeIndex)) :
    b.retrieveUntil e = b := by
  unfold retrieveUntil
  split
  · rfl
  · split
    · rfl
    · rename_i h1 h2
      exact absurd ⟨not_not.1 h1, not_not.1 h2⟩ h

/-- The line before the CR LF found is taken out with it. -/
theorem takeLine_spec (h : Wf b) {p : Nat} (hp : b.findCRLF = some p) :
    Wf (b.retrieveUntil (p + 2)) ∧
      (b.retrieveUntil (p + 2)).readable = b.readable.drop (search kCRLF b.readable + 2) ∧
      b.peek (p - b.readIndex) = b.readable.take (search kCRLF b.readable) := by
  obtain ⟨rfl, hlt⟩ := findCRLF_eq_some h hp
  obtain ⟨hle, -⟩ := crlfLines_of_search [] hlt
  have hlen := h.length_readable
  have hw : b.readableBytes = b.writeIndex - b.readIndex := h.readableBytes_eq
  have hr := h.read_le
  obtain ⟨hwf, hread⟩ := retrieveUntil_spec h ((b.readIndex + search kCRLF b.readable : Nat) + 2)
  refine ⟨hwf, ?_, ?_⟩
  · rw [hread, if_pos (by omega)]
    congr 1
    omega
  · rw [Nat.add_sub_cancel_left, peek_eq_take (by omega)]

end Buffer

/-! ## A reader of lines -/

/-- The buffer, the bytes appended to it and the lines taken out of it. -/
structure LineReader where
  buf : Buffer
  appended : List UInt8
  lines : List (List UInt8)

/-- An `Append`, or a call of `FindCRLF` with what follows it. A round is a sequence of the latter up
to one that returns null. -/
inductive LineOp
  | append (data : List UInt8)
  | find

def LineReader.step (s : LineReader) : LineOp → Option LineReader
  | .append data => some { s with buf := s.buf.append data, appended := s.appended ++ data }
  | .find => match s.buf.findCRLF with
    | some p => some { s with
        buf := s.buf.retrieveUntil (p + 2)
        lines := s.lines ++ [s.buf.peek (p - s.buf.readIndex)] }
    | none => some s

def LineReader.init (size : UInt32) : LineReader := ⟨.new size, [], []⟩

/-- `write_index_` stays below `2 ^ 32`. -/
def LineOp.Fits (s : LineReader) : LineOp → Prop
  | append data => s.buf.writeIndex + data.length < u32Size
  | find => True

instance (s : LineReader) : ∀ op : LineOp, Decidable (op.Fits s)
  | .append _ => inferInstanceAs (Decidable (_ < _))
  | .find => isTrue trivial

/-- The lines taken are the first of the stream, and the others come out of the readable bytes and
what is appended to them. -/
structure LineReader.Ok (s : LineReader) : Prop where
  wf : s.buf.Wf
  lines : ∀ ys, crlfLines (s.appended ++ ys) =
    (s.lines ++ (crlfLines (s.buf.readable ++ ys)).1, (crlfLines (s.buf.readable ++ ys)).2)

namespace LineReader.Ok

variable {s s' : LineReader}

theorem init (size : UInt32) : (LineReader.init size).Ok where
  wf := Buffer.wf_new size
  lines ys := by
    rw [show (LineReader.init size).buf.readable = [] from (Buffer.wf_new size).readable_eq.trans rfl]
    rfl

theorem find (h : s.Ok) (hs : s.step .find = some s') : s'.Ok := by
  rw [LineReader.step] at hs
  split at hs
  · rename_i p hp
    cases hs
    obtain ⟨hwf, hread, hline⟩ := Buffer.takeLine_spec h.wf hp
    refine ⟨hwf, fun ys => ?_⟩
    obtain ⟨-, hc⟩ := crlfLines_of_search ys (Buffer.findCRLF_eq_some h.wf hp).2
    rw [h.lines ys, hc, hread, hline, List.append_assoc]
    rfl
  · cases hs
    exact h

theorem step {op : LineOp} (h : s.Ok) (hf : op.Fits s) (hs : s.step op = some s') : s'.Ok := by
  cases op with
  | append data =>
    cases hs
    obtain ⟨hwf, hread, -⟩ := Buffer.append_spec h.wf hf
    refine ⟨hwf, fun ys => ?_⟩
    rw [hread, List.append_assoc, List.append_assoc]
    exact h.lines (data ++ ys)
  | find => exact h.find hs

theorem reach {size : UInt32}
    (h : Runs.Reach LineReader.step (fun s op => op.Fits s) (.init size) s) : s.Ok :=
  h.inv (init size) fun _ _ _ _ hO hf hs => hO.step hf hs

/-- Every call of `FindCRLF` that finds something leaves less to search. -/
theorem round (n : Nat) : ∀ {s : LineReader}, s.Ok → s.buf.readable.length ≤ n →
    ∃ s', Runs.run LineReader.step s (List.replicate n .find) = some s' ∧
      s'.buf.findCRLF = none := by
  induction n with
  | zero =>
    intro s h hn
    refine ⟨s, rfl, (Buffer.findCRLF_eq_none h.wf).2 ?_⟩
    rw [List.eq_nil_of_length_eq_zero (Nat.le_zero.1 hn)]
    simp [kCRLF]
  | succ n ih =>
    intro s h hn
    rw [List.replicate_succ]
    cases hp : s.buf.findCRLF with
    | none =>
      -- the round is over, and further calls find nothing either
      have hstep : s.step .find = some s := by rw [LineReader.step, hp]
      have hall : ∀ m, Runs.run LineReader.step s (List.replicate m .find) = some s := by
        intro m
        induction m with
        | zero => rfl
        | succ m ihm => rw [List.replicate_succ, Runs.run, hstep, Option.bind_some, ihm]
      exact ⟨s, by rw [← List.replicate_succ]; exact hall _, hp⟩
    | some p =>
      obtain ⟨s₁, hs₁⟩ : ∃ s₁, s.step .find = some s₁ := by rw [LineReader.step, hp]; exact ⟨_, rfl⟩
      have hlen : s₁.buf.readable.length ≤ n := by
        rw [LineReader.step, hp] at hs₁
        cases hs₁
        obtain ⟨-, hread, -⟩ := Buffer.takeLine_spec h.wf hp
        show (Buffer.readable (s.buf.retrieveUntil _)).length ≤ n
        rw [hread, List.length_drop]
        omega
      obtain ⟨s', hs', hn'⟩ := ih (h.find hs₁) hlen
      exact ⟨s', by rw [Runs.run, hs₁, Option.bind_some, hs'], hn'⟩

end LineReader.Ok

/-- **Framing does not depend on chunking.** However a stream is split into `Append`s and whenever
`FindCRLF` is called, as long as `write_index_` is below `2 ^ 32`: `FindCRLF` returns null exactly if
there is no CR LF in the readable bytes; when it does the lines taken are the lines of what was
appended and the readable bytes are its tail, and before that they are the first of them; a round
comes to its end; and `RetrieveUntil` does nothing with a position that is not within the readable
bytes. -/
theorem line_framing (size : UInt32) {s : LineReader}
    (h : Runs.Reach LineReader.step (fun s op => op.Fits s) (.init size) s) :
    (s.buf.findCRLF = none ↔ ¬ kCRLF <:+: s.buf.readable) ∧
      (s.buf.findCRLF = none → (s.lines, s.buf.readable) = crlfLines s.appended) ∧
      s.lines <+: (crlfLines s.appended).1 ∧
      (∃ n s', Runs.run LineReader.step s (List.replicate n .find) = some s' ∧
        s'.buf.findCRLF = none) ∧
      ∀ e : Int, ¬ ((s.buf.readIndex : Int) ≤ e ∧ e ≤ s.buf.writeIndex) →
        s.buf.retrieveUntil e = s.buf := by
  have hO := LineReader.Ok.reach h
  have hnull := Buffer.findCRLF_eq_none hO.wf
  have hlines := hO.lines []
  rw [List.append_nil, List.append_nil] at hlines
  refine ⟨hnull, fun hn => ?_, ?_, ⟨_, hO.round _ (Nat.le_refl _)⟩,
    fun e he => Buffer.retrieveUntil_outside he⟩
  · rw [hlines, crlfLines_tail (hnull.1 hn), List.append_nil]
  · rw [hlines]
    exact List.prefix_append ..

/-- A CR at the end of one chunk and the LF at the start of the next. -/
theorem line_framing_split :
    ∃ s, Runs.run LineReader.step (.init 2)
        [.append [97, 13], .find, .append [10, 98, 13, 10, 99], .find, .find, .find] = some s ∧
      s.lines = [[97], [98]] ∧ s.buf.readable = [99] := by
  have hr : Runs.Reach LineReader.step (fun s op => op.Fits s) (.init 2) _ := Runs.Reach.of_run
    [.append [97, 13], .find, .append [10, 98, 13, 10, 99], .find, .find, .find] rfl (by decide)
  have hx := (line_framing 2 hr).2.1 (by decide)
  exact ⟨_, rfl, congrArg Prod.fst hx, congrArg Prod.snd hx⟩

end Liang.Base
