import Mathlib.Data.Int.CardIntervalMod
import NetworkPoller.Event.EventLoopThreadPool
import NetworkPoller.Lib.Runs

/-!
# Which loop a pool returns

Both selectors take an entry of `loop_list_` by a number modulo its size (`Picks`): the hash code, and
the number of round-robin calls so far, which `next_index_` follows (`At`). `call_spec` says this of one
call, `loop_selection` of every sequence of calls.
-/

namespace Liang.Net.EventLoopThreadPool

variable {α : Type} {p p₀ : EventLoopThreadPool α} {k : Nat} {pick : Pick α}

/-- The pick is entry `k` modulo the size, or the main loop if there is no entry. -/
def Picks (p : EventLoopThreadPool α) (k : Nat) (pick : Pick α) : Prop :=
  if p.loopList = [] then pick = ⟨p.mainLoop, none⟩
  else ∃ i, pick.index = some i ∧ i.toNat = k % p.loopList.length ∧
    p.loopList[k % p.loopList.length]? = some pick.loop

/-- The pool `p₀` after `k` calls of `GetEventLoopFromPool`. -/
structure At (p₀ : EventLoopThreadPool α) (k : Nat) (p : EventLoopThreadPool α) : Prop where
  main : p.mainLoop = p₀.mainLoop
  loops : p.loopList = p₀.loopList
  cursor : p.loopList ≠ [] → p.nextIndex.toNat = k % p.loopList.length

/-! ## One call -/

theorem Picks.index_lt (h : p.Picks k pick) (hne : p.loopList ≠ []) :
    ∃ i, pick.index = some i ∧ i.toNat < p.loopList.length := by
  rw [Picks, if_neg hne] at h
  obtain ⟨i, hi, hk, -⟩ := h
  exact ⟨i, hi, hk ▸ Nat.mod_lt _ (List.length_pos_iff.2 hne)⟩

theorem Picks.loop_eq (h : p.Picks k pick) (hne : p.loopList ≠ []) :
    p.loopList[k % p.loopList.length]? = some pick.loop := by
  rw [Picks, if_neg hne] at h
  obtain ⟨-, -, -, hl⟩ := h
  exact hl

theorem exists_entry (hne : p.loopList ≠ []) (k : Nat) :
    ∃ loop, p.loopList[k % p.loopList.length]? = some loop :=
  ⟨_, List.getElem?_eq_getElem (Nat.mod_lt k (List.length_pos_iff.2 hne))⟩

/-- The cursor after a call: the comparison with the size as an `int` wraps it at the size. -/
theorem wrapped_cursor {n : Nat} {i : UInt32} (hn : n < 2 ^ 32) (hi : i.toNat < n) :
    (if (Int32.ofNat n).toUInt32 ≤ i + 1 then 0 else i + 1 : UInt32).toNat = (i.toNat + 1) % n := by
  have hsize : (Int32.ofNat n).toUInt32.toNat = n := by
    rw [Int32.toUInt32_ofNat']
    exact UInt32.toNat_ofNat_of_lt' hn
  have hnext : (i + 1).toNat = i.toNat + 1 := by
    rw [UInt32.toNat_add]
    exact Nat.mod_eq_of_lt (by simp only [UInt32.toNat_one]; omega)
  split <;> rename_i hle <;> rw [UInt32.le_iff_toNat_le, hsize, hnext] at hle
  · have heq : i.toNat + 1 = n := by omega
    rw [heq, Nat.mod_self]
    rfl
  · rw [hnext, Nat.mod_eq_of_lt (by omega)]

theorem At.picks {n : Nat} (h : At p₀ k p) (hp : p.Picks n pick) : p₀.Picks n pick := by
  unfold Picks at hp ⊢
  rwa [h.loops, h.main] at hp

theorem getEventLoopFromPool_spec (hsz : p₀.loopList.length < 2 ^ 32) (h : At p₀ k p) :
    ∃ pick p', p.getEventLoopFromPool = some (pick, p') ∧ p₀.Picks k pick ∧ At p₀ (k + 1) p' := by
  unfold getEventLoopFromPool
  by_cases hne : p.loopList = []
  · rw [if_pos (by rw [hne]; rfl)]
    refine ⟨_, _, rfl, h.picks ?_, h.main, h.loops, fun hc => absurd hne hc⟩
    rw [Picks, if_pos hne]
  · have hcur := h.cursor hne
    obtain ⟨loop, hl⟩ := exists_entry hne k
    rw [if_neg (by simpa using hne), hcur, hl]
    refine ⟨_, _, rfl, h.picks ?_, h.main, h.loops, fun _ => ?_⟩
    · rw [Picks, if_neg hne]
      exact ⟨_, rfl, hcur, hl⟩
    · have hlt : p.nextIndex.toNat < p.loopList.length :=
        hcur ▸ Nat.mod_lt k (List.length_pos_iff.2 hne)
      rw [← Nat.mod_add_mod, ← hcur]
      exact wrapped_cursor (h.loops ▸ hsz) hlt

theorem getEventLoopFromPoolForHash_spec (hsz : p.loopList.length < 2 ^ 32) (hashCode : UInt32) :
    ∃ pick, p.getEventLoopFromPoolForHash hashCode = some pick ∧ p.Picks hashCode.toNat pick := by
  unfold getEventLoopFromPoolForHash
  by_cases hne : p.loopList = []
  · rw [if_pos (by rw [hne]; rfl)]
    refine ⟨_, rfl, ?_⟩
    rw [Picks, if_pos hne]
  · have hpos := List.length_pos_iff.2 hne
    have hidx : (UInt32.ofNat (hashCode.toNat % p.loopList.length)).toNat =
        hashCode.toNat % p.loopList.length :=
      UInt32.toNat_ofNat_of_lt' ((Nat.mod_lt _ hpos).trans hsz)
    obtain ⟨loop, hl⟩ := exists_entry hne hashCode.toNat
    rw [if_neg (Nat.ne_of_gt hpos)]
    simp only [hidx, hl, Option.map_some]
    refine ⟨_, rfl, ?_⟩
    rw [Picks, if_neg hne]
    exact ⟨_, rfl, hidx, hl⟩

/-- The number a call selects by, after `k` round-robin calls. -/
def Call.number (k : Nat) : Call → Nat
  | .fromPool => k
  | .forHash hashCode => hashCode.toNat

/-- How many round-robin calls it is. -/
def Call.rounds : Call → Nat
  | .fromPool => 1
  | .forHash _ => 0

theorem call_spec (hsz : p₀.loopList.length < 2 ^ 32) (h : At p₀ k p) (a : Call) :
    ∃ pick p', p.call a = some (pick, p') ∧ p₀.Picks (a.number k) pick ∧ At p₀ (k + a.rounds) p' := by
  cases a with
  | fromPool => exact getEventLoopFromPool_spec hsz h
  | forHash hashCode =>
    obtain ⟨pick, hp, hk⟩ := getEventLoopFromPoolForHash_spec (h.loops ▸ hsz) hashCode
    exact ⟨pick, p, by rw [call, hp]; rfl, h.picks hk, h⟩

/-! ## Every sequence of calls -/

/-- The picks of the round-robin calls. -/
def pooled (L : List (Call × Pick α)) : List (Pick α) :=
  L.filterMap fun e => if e.1 = .fromPool then some e.2 else none

theorem pooled_append (L L' : List (Call × Pick α)) : pooled (L ++ L') = pooled L ++ pooled L' :=
  List.filterMap_append ..

/-- What the calls made so far have returned. -/
structure Served (p₀ : EventLoopThreadPool α) (L : List (Call × Pick α)) (p : EventLoopThreadPool α) :
    Prop where
  here : At p₀ (pooled L).length p
  round : ∀ k pick, (pooled L)[k]? = some pick → p₀.Picks k pick
  hash : ∀ hashCode pick, (.forHash hashCode, pick) ∈ L → p₀.Picks hashCode.toNat pick

theorem Served.step {L : List (Call × Pick α)} {a : Call} {p' : EventLoopThreadPool α}
    (hsz : p₀.loopList.length < 2 ^ 32) (h : Served p₀ L p) (hs : p.step a = some p') :
    Served p₀ (L ++ p.report a) p' := by
  obtain ⟨pick, p'', hc, hp, hat⟩ := call_spec hsz h.here a
  obtain rfl : p'' = p' := by simpa [EventLoopThreadPool.step, hc] using hs
  rw [report, hc]
  cases a with
  | fromPool =>
    have hpool : pooled (L ++ [(.fromPool, pick)]) = pooled L ++ [pick] := pooled_append ..
    refine ⟨?_, fun k x hx => ?_, fun hashCode x hx => ?_⟩
    · show At p₀ (pooled (L ++ [(.fromPool, pick)])).length p''
      rw [hpool, List.length_append]
      exact hat
    · replace hx : (pooled (L ++ [(.fromPool, pick)]))[k]? = some x := hx
      rw [hpool, List.getElem?_append] at hx
      split at hx
      · exact h.round k x hx
      · rename_i hle
        obtain ⟨hk, rfl⟩ : k - (pooled L).length = 0 ∧ pick = x := by
          simpa [List.getElem?_singleton] using hx
        obtain rfl : k = (pooled L).length := by omega
        exact hp
    · rcases List.mem_append.1 hx with hx | hx
      · exact h.hash hashCode x hx
      · simp at hx
  | forHash hashCode =>
    have hpool : pooled (L ++ [(.forHash hashCode, pick)]) = pooled L :=
      (pooled_append ..).trans (List.append_nil _)
    refine ⟨?_, fun k x hx => ?_, fun hashCode' x hx => ?_⟩
    · show At p₀ (pooled (L ++ [(.forHash hashCode, pick)])).length p''
      rw [hpool]
      exact hat
    · exact h.round k x (hpool ▸ hx)
    · rcases List.mem_append.1 hx with hx | hx
      · exact h.hash hashCode' x hx
      · obtain ⟨rfl, rfl⟩ : hashCode' = hashCode ∧ x = pick := by simpa using hx
        exact hp

theorem Served.picks {L : List (Call × Pick α)} {e : Call × Pick α} (h : Served p₀ L p) (he : e ∈ L) :
    ∃ k, p₀.Picks k e.2 := by
  obtain ⟨a, pick⟩ := e
  cases a with
  | fromPool =>
    have hmem : pick ∈ pooled L := List.mem_filterMap.2 ⟨_, he, if_pos rfl⟩
    obtain ⟨k, hk⟩ := List.getElem?_of_mem hmem
    exact ⟨k, h.round k pick hk⟩
  | forHash hashCode => exact ⟨_, h.hash hashCode pick he⟩

theorem step_total (hsz : p₀.loopList.length < 2 ^ 32) (p : EventLoopThreadPool α) (a : Call)
    (h : ∃ k, At p₀ k p) : ∃ p', p.step a = some p' ∧ ∃ k, At p₀ k p' := by
  obtain ⟨k, hat⟩ := h
  obtain ⟨pick, p', hc, -, hat'⟩ := call_spec hsz hat a
  exact ⟨p', by rw [step, hc]; rfl, _, hat'⟩

/-- Every call has its pick in the log. -/
theorem log_calls (hsz : p₀.loopList.length < 2 ^ 32) : ∀ (calls : List Call) {p : EventLoopThreadPool α}
    {k : Nat}, At p₀ k p → (Runs.log step report p calls).map (·.1) = calls
  | [], _, _, _ => rfl
  | a :: as, p, k, h => by
    obtain ⟨pick, p', hc, -, hat⟩ := call_spec hsz h a
    have hs : p.step a = some p' := by rw [step, hc]; rfl
    simp only [Runs.log, hs, report, hc, Option.toList_some, List.map_cons, List.map_nil,
      List.singleton_append, log_calls hsz as hat]

theorem served_log (hsz : p₀.loopList.length < 2 ^ 32) (h0 : p₀.nextIndex = 0) (calls : List Call) :
    ∃ p, Runs.run step p₀ calls = some p ∧ Served p₀ (Runs.log step report p₀ calls) p := by
  have hat : At p₀ 0 p₀ := ⟨rfl, rfl, fun _ => by rw [h0, Nat.zero_mod]; rfl⟩
  obtain ⟨p, hrun, -⟩ := Runs.run_total (step_total hsz) calls ⟨0, hat⟩
  have hlog : Runs.Logged step (fun _ _ => True) report p₀ (Runs.log step report p₀ calls) p :=
    .of_run calls hrun (Runs.admits_of_forall (fun _ _ => trivial) _ _)
  refine ⟨p, hrun, hlog.inv (I := Served p₀) ⟨hat, fun k pick hx => ?_, fun _ _ hx => ?_⟩
    fun L p a p' _ h _ hs => h.step hsz hs⟩
  · cases hx
  · cases hx

/-! ## The loops of a pool -/

section

variable {num : UInt32}

theorem loopList_start : (start num).loopList = (List.range num.toNat).map .thread := rfl

theorem length_start (num : UInt32) : (start num).loopList.length = num.toNat := by
  rw [loopList_start, List.length_map, List.length_range]

theorem start_ne_nil (h : num ≠ 0) : (start num).loopList ≠ [] := by
  rw [← List.length_pos_iff, length_start]
  exact Nat.pos_of_ne_zero fun h0 => h (UInt32.toNat_inj.1 h0)

theorem start_getElem? {i : Nat} (h : i < num.toNat) : (start num).loopList[i]? = some (.thread i) := by
  rw [loopList_start, List.getElem?_map, List.getElem?_range h]
  rfl

/-- The round-robin calls return the loops in turn. -/
theorem pooled_loops {L : List (Call × Pick PoolLoop)} {p : EventLoopThreadPool PoolLoop}
    (h : Served (start num) L p) (hn : num ≠ 0) :
    (pooled L).map (·.loop) = (List.range (pooled L).length).map fun k => .thread (k % num.toNat) := by
  have hpos : 0 < num.toNat := length_start num ▸ List.length_pos_iff.2 (start_ne_nil hn)
  refine List.ext_getElem? fun k => ?_
  rw [List.getElem?_map, List.getElem?_map]
  by_cases hk : k < (pooled L).length
  · have hloop := (h.round k _ (List.getElem?_eq_getElem hk)).loop_eq (start_ne_nil hn)
    rw [length_start, start_getElem? (Nat.mod_lt k hpos)] at hloop
    rw [List.getElem?_range hk, List.getElem?_eq_getElem hk, Option.map_some, Option.map_some, hloop]
  · rw [Nat.not_lt] at hk
    rw [List.getElem?_eq_none hk, List.getElem?_eq_none (by rwa [List.length_range])]
    rfl

/-- How often a loop comes up in the first `m` round-robin calls. -/
theorem count_rounds {n i : Nat} (hi : i < n) (m : Nat) :
    ((List.range m).map fun k => PoolLoop.thread (k % n)).count (.thread i) =
      m / n + if i < m % n then 1 else 0 := by
  have hcount := Nat.count_modEq_card m (Nat.zero_lt_of_lt hi) i
  rw [Nat.mod_eq_of_lt hi] at hcount
  rw [← hcount, List.count_eq_countP, List.countP_map]
  refine List.countP_congr fun k _ => ?_
  simp [Nat.ModEq, Nat.mod_eq_of_lt hi]

/-- **The loops a pool returns.** Every sequence of calls on a pool of `num` loops has results. Without
loops they are `main_loop_`. With loops every index is below their number, the round-robin call number
`k` returns entry `k` modulo that number whatever hash calls stand between, no loop is returned more than
once more often by them than another, and equal hash codes get the same loop. -/
theorem loop_selection (num : UInt32) (calls : List Call) :
    ∃ L p, Runs.run step (start num) calls = some p ∧ L = Runs.log step report (start num) calls ∧
      L.map (·.1) = calls ∧ (num = 0 → ∀ e ∈ L, e.2.loop = .main) ∧
      (num ≠ 0 →
        (∀ e ∈ L, ∃ i, e.2.index = some i ∧ i < num) ∧
        (∀ k pick, (pooled L)[k]? = some pick →
          (start num).loopList[k % num.toNat]? = some pick.loop) ∧
        (∀ i j, i < num.toNat → j < num.toNat → ((pooled L).map (·.loop)).count (.thread i) ≤
          ((pooled L).map (·.loop)).count (.thread j) + 1) ∧
        ∀ hashCode pick pick', (.forHash hashCode, pick) ∈ L → (.forHash hashCode, pick') ∈ L →
          pick.loop = pick'.loop) := by
  have hsz : (start num).loopList.length < 2 ^ 32 := length_start num ▸ num.toNat_lt
  obtain ⟨p, hrun, h⟩ := served_log hsz rfl calls
  have hcalls := log_calls hsz calls (p := start num) (k := 0) ⟨rfl, rfl, fun _ => (Nat.zero_mod _).symm⟩
  refine ⟨_, p, hrun, rfl, hcalls, fun h0 e he => ?_, fun hn => ⟨fun e he => ?_, ?_, ?_, ?_⟩⟩
  · subst h0
    obtain ⟨k, hp⟩ := h.picks he
    have hnil : (start 0).loopList = [] := rfl
    rw [Picks, if_pos hnil] at hp
    rw [hp]
    rfl
  · obtain ⟨k, hp⟩ := h.picks he
    obtain ⟨i, hi, hlt⟩ := hp.index_lt (start_ne_nil hn)
    rw [length_start] at hlt
    exact ⟨i, hi, UInt32.lt_iff_toNat_lt.2 hlt⟩
  · intro k pick hk
    have hloop := (h.round k pick hk).loop_eq (start_ne_nil hn)
    rwa [length_start] at hloop
  · intro i j hi hj
    rw [pooled_loops h hn, count_rounds hi, count_rounds hj]
    split <;> split <;> omega
  · intro hashCode pick pick' hp hp'
    have hloop := (h.hash _ _ hp).loop_eq (start_ne_nil hn)
    rw [(h.hash _ _ hp').loop_eq (start_ne_nil hn)] at hloop
    exact (Option.some.inj hloop).symm

example : (Runs.log step report (start 3) [.fromPool, .fromPool, .forHash 7, .fromPool, .fromPool]).map
    (·.2.loop) = [.thread 0, .thread 1, .thread 1, .thread 2, .thread 0] := by
  decide +kernel

end

end Liang.Net.EventLoopThreadPool
