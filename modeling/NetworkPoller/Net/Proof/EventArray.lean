import NetworkPoller.Event.Proof.PollerSync
import NetworkPoller.Net.EventLoop
import Mathlib.Data.List.Nodup
import Mathlib.Data.List.Perm.Subperm
import Mathlib.Data.Nat.Log

/-!
# The array of `EpollPoller::Poll`

`epoll_wait` has room for as many events as `events_ready` holds, so a `Poll` may leave out channels
that are ready. It then doubles the array, which ends the matter: as long as no more than `N`
descriptors are registered, at most `Nat.clog 2 ((N + 15) / 16)` Polls of a whole run leave anything
out, and the array stays below `max 16 (2 * N)` (`polls_complete`).

`poll_of_array`: a `Poll` with the array is one of the Polls of the system, which may report any
part of what is ready.
-/

namespace Liang.Net

open Runs

variable {ι : Type} {fd : ι → Nat}

namespace EpollPoller

variable {p p' : EpollPoller ι} {ready : List (Nat × Mask)}

/-! ## What is ready and what is reported -/

theorem canBeReady_nodup (h : p.canBeReady ready = true) : (ready.map (·.1)).Nodup :=
  of_decide_eq_true (Bool.and_eq_true_iff.1 h).1

theorem canBeReady_registered (h : p.canBeReady ready = true) {e : Nat × Mask} (he : e ∈ ready) :
    p.interest e.1 ≠ none := by
  have hall := List.all_eq_true.1 (Bool.and_eq_true_iff.1 h).2 e he
  intro hn
  simp only [hn, Bool.false_eq_true] at hall

theorem canBeReady_take (h : p.canBeReady ready = true) (k : Nat) :
    p.canBeReady (ready.take k) = true := by
  refine Bool.and_eq_true_iff.2 ⟨decide_eq_true ?_, List.all_eq_true.2 fun e he => ?_⟩
  · exact (canBeReady_nodup h).sublist ((List.take_sublist k ready).map _)
  · exact List.all_eq_true.1 (Bool.and_eq_true_iff.1 h).2 e (List.mem_of_mem_take he)

theorem length_channels (h : p.canBeReady ready = true) :
    (p.channels ready).length = ready.length := by
  rw [channels, List.length_filterMap_eq_countP, List.countP_eq_length]
  intro e he
  rw [Option.isSome_map, Option.isSome_iff_ne_none]
  exact canBeReady_registered h he

theorem channels_take (p : EpollPoller ι) (ready : List (Nat × Mask)) (k : Nat) :
    p.channels (ready.take k) <+: p.channels ready :=
  (List.take_prefix k ready).filterMap _

/-- The channels that are ready have the descriptors that are. -/
theorem channels_fds (hb : Book fd p) (ready : List (Nat × Mask)) :
    ((p.channels ready).map fd).Sublist (ready.map (·.1)) := by
  induction ready with
  | nil => exact List.Sublist.slnil
  | cons e ready ih =>
    cases hi : p.interest e.1 with
    | none =>
      rw [channels, List.filterMap_cons_none (by simp [hi])]
      exact ih.cons e.1
    | some o =>
      obtain ⟨i, m⟩ := o
      rw [channels, List.filterMap_cons_some (b := i) (by simp [hi]), List.map_cons, List.map_cons,
        (hb.polled e.1 i m hi).1]
      exact ih.cons_cons e.1

theorem channels_nodup (hb : Book fd p) (h : p.canBeReady ready = true) :
    (p.channels ready).Nodup :=
  List.Nodup.of_map _ ((canBeReady_nodup h).sublist (channels_fds hb ready))

/-- No more than `N` descriptors are registered. -/
def Registered (N : Nat) (p : EpollPoller ι) : Prop :=
  ∃ ns : List Nat, ns.length ≤ N ∧ ∀ n, p.interest n ≠ none → n ∈ ns

theorem length_ready {N : Nat} (hN : p.Registered N) (h : p.canBeReady ready = true) :
    ready.length ≤ N := by
  obtain ⟨ns, hlen, hns⟩ := hN
  have hsub : ready.map (·.1) ⊆ ns := by
    intro n hn
    obtain ⟨e, he, rfl⟩ := List.mem_map.1 hn
    exact hns e.1 (canBeReady_registered h he)
  have hle := (List.subperm_of_subset (canBeReady_nodup h) hsub).length_le
  rw [List.length_map] at hle
  exact Nat.le_trans hle hlen

/-- The descriptors of a process are below its limit. -/
theorem Book.registered {N : Nat} (hb : Book fd p) (hfd : ∀ i, fd i < N) : p.Registered N := by
  refine ⟨List.range N, Nat.le_of_eq List.length_range, fun n hn => List.mem_range.2 ?_⟩
  obtain ⟨⟨i, m⟩, hi⟩ := Option.ne_none_iff_exists'.1 hn
  rw [← (hb.polled n i m hi).1]
  exact hfd i

variable [DecidableEq ι]

theorem setRecievedEvents_book (h : Book fd p) (evs : List (Nat × Mask)) :
    Book fd (p.setRecievedEvents evs) := by
  unfold setRecievedEvents
  generalize hf : (fun (q : EpollPoller ι) (e : Nat × Mask) => _) = f
  have hone : ∀ q e, Book fd q → Book fd (f q e) := by
    intro q e hq
    subst hf
    dsimp only
    split
    · exact setRecievedEvent_book hq _ _
    · exact hq
  clear hf
  generalize p = q at h ⊢
  induction evs generalizing q with
  | nil => exact h
  | cons e evs ih => exact ih _ (hone _ _ h)

theorem apply_book {op : ChanOp ι} (h : Book fd p) (he : apply fd p op = .ok p') : Book fd p' := by
  cases op with
  | removeFromLoop i => exact (removeEventChannel_book h he).1
  | enableReading | disableReading | enableWriting | disableWriting | disableAll =>
    simp only [apply, enableReading, disableReading, enableWriting, disableWriting, disableAll] at he
    exact setEvents_book h he

theorem step_book {op : ChanOp ι} (h : Book fd p) (hst : EpollPoller.step fd p op = some p') :
    Book fd p' := by
  cases ha : apply fd p op with
  | error e =>
    rw [EpollPoller.step, ha] at hst
    cases hst
  | ok q =>
    rw [EpollPoller.step, ha] at hst
    cases hst
    exact apply_book h ha

end EpollPoller

open EpollPoller

/-! ## Runs of a poller with its array -/

/-- What happens to a poller: a call on a channel, a descriptor closed by its owner, a `Poll` at a
time when `ready` are ready. -/
inductive PollerAct (ι : Type)
  | op (o : ChanOp ι)
  | close (n : Nat)
  | poll (ready : List (Nat × Mask))

/-- The channels ready at a `Poll`, and those it reported. -/
structure Polled (ι : Type) where
  ready : List ι
  active : List ι

def Polled.missed [DecidableEq ι] (e : Polled ι) : Bool := e.active ≠ e.ready

namespace ArrayPoller

variable [DecidableEq ι] {x x' : ArrayPoller ι} {ready : List (Nat × Mask)} {N : Nat}

def step (fd : ι → Nat) (x : ArrayPoller ι) : PollerAct ι → Option (ArrayPoller ι)
  | .op o => (EpollPoller.step fd x.poller o).map fun p => { x with poller := p }
  | .close n => some { x with poller := x.poller.dropFd n }
  | .poll ready => if x.poller.canBeReady ready then some (x.poll ready).1 else none

def polled (x : ArrayPoller ι) : PollerAct ι → List (Polled ι)
  | .poll ready => [⟨x.poller.channels ready, (x.poll ready).2⟩]
  | _ => []

/-- No more than `N` descriptors are registered when a `Poll` is made. -/
def Few (N : Nat) (x : ArrayPoller ι) : PollerAct ι → Prop
  | .poll _ => x.poller.Registered N
  | _ => True

theorem poll_book (h : Book fd x.poller) (ready : List (Nat × Mask)) :
    Book fd (x.poll ready).1.poller := by
  unfold poll
  split
  · split
    · exact setRecievedEvents_book h _
    · exact h
  · exact h

theorem reach_book {P : ArrayPoller ι → PollerAct ι → Prop} (h : Reach (step fd) P new x) :
    Book fd x.poller := by
  refine h.inv (I := fun x => Book fd x.poller) book_init fun y a y' _ hy _ hst => ?_
  cases a with
  | op o =>
    obtain ⟨p, hp, rfl⟩ := Option.map_eq_some_iff.1 hst
    exact step_book hy hp
  | close n =>
    cases hst
    exact dropFd_book hy n
  | poll ready =>
    rw [step, Option.ite_none_right_eq_some] at hst
    cases hst.2
    exact poll_book hy ready

/-- The descriptors of a process are below its limit. -/
theorem Few.of_limit {P : ArrayPoller ι → PollerAct ι → Prop} {a : PollerAct ι}
    (h : Reach (step fd) P new x) (hfd : ∀ i, fd i < N) : Few N x a := by
  cases a with
  | poll ready => exact (reach_book h).registered hfd
  | op | close => trivial

/-- `Poll` where the size of the array is a positive `int`. -/
theorem poll_eq (h0 : 0 < x.eventsReady) (h31 : x.eventsReady < 2 ^ 31) :
    x.poll ready =
      ({ poller := x.poller.setRecievedEvents (ready.take x.eventsReady)
         eventsReady := if x.eventsReady ≤ ready.length then x.eventsReady * 2 else x.eventsReady },
        x.poller.channels (ready.take x.eventsReady)) := by
  have hnat : (BitVec.ofNat 32 x.eventsReady).toNat = x.eventsReady := by
    rw [BitVec.toNat_ofNat]
    exact Nat.mod_eq_of_lt (by omega)
  have hint : ¬ (BitVec.ofNat 32 x.eventsReady).toInt ≤ 0 := by
    rw [BitVec.toInt_eq_toNat_of_lt (by omega), hnat]
    omega
  have hfull : (ready.take x.eventsReady).length = x.eventsReady ↔ x.eventsReady ≤ ready.length := by
    rw [List.length_take]
    omega
  simp only [poll, epollWait, hint, if_false, hnat, hfull]
  split
  · rfl
  · -- nothing is ready
    next hnil =>
    have hready : ready = [] := by
      rw [List.length_take] at hnil
      exact List.eq_nil_of_length_eq_zero (by omega)
    subst hready
    simp only [List.take_nil, List.length_nil, Nat.not_le.2 h0, if_false]
    rfl

/-- A `Poll` leaves something out when more is ready than the array holds. -/
theorem missed_iff (h0 : 0 < x.eventsReady) (h31 : x.eventsReady < 2 ^ 31)
    (hready : x.poller.canBeReady ready = true) :
    Polled.missed ⟨x.poller.channels ready, (x.poll ready).2⟩ = true ↔
      x.eventsReady < ready.length := by
  rw [Polled.missed, decide_eq_true_iff, poll_eq h0 h31, ← not_iff_not, not_not, Nat.not_lt]
  refine ⟨fun hall => ?_, fun hle => by rw [List.take_of_length_le hle]⟩
  have hsame := congrArg List.length hall
  rw [length_channels hready, length_channels (canBeReady_take hready _), List.length_take] at hsame
  omega

/-- What holds after the Polls `L`. -/
structure Fits (N : Nat) (L : List (Polled ι)) (x : ArrayPoller ι) : Prop where
  reported : ∀ e ∈ L, e.active <+: e.ready ∧ e.ready.Nodup
  /-- every Poll that left something out has doubled the array -/
  grown : 16 * 2 ^ L.countP Polled.missed ≤ x.eventsReady
  bounded : x.eventsReady ≤ max 16 (2 * N)
  /-- the last of them left out some of `N` -/
  needed : L.countP Polled.missed ≠ 0 → 8 * 2 ^ L.countP Polled.missed < N

theorem Fits.new : Fits N [] (new : ArrayPoller ι) where
  reported := nofun
  grown := Nat.le_refl 16
  bounded := Nat.le_max_left 16 _
  needed h := absurd rfl h

theorem Fits.poll {L : List (Polled ι)} (h : Fits N L x) (hb : Book fd x.poller) (hN : N < 2 ^ 30)
    (hr : x.poller.Registered N) (hready : x.poller.canBeReady ready = true) :
    Fits N (L ++ [⟨x.poller.channels ready, (x.poll ready).2⟩]) (x.poll ready).1 := by
  have hlen := length_ready hr hready
  have hpos : 0 < 2 ^ L.countP Polled.missed := Nat.two_pow_pos _
  have hgrown := h.grown
  have hbounded := h.bounded
  have h0 : 0 < x.eventsReady := by omega
  have h31 : x.eventsReady < 2 ^ 31 := by omega
  have hcount : (L ++ [(⟨x.poller.channels ready, (x.poll ready).2⟩ : Polled ι)]).countP Polled.missed =
      L.countP Polled.missed + if x.eventsReady < ready.length then 1 else 0 := by
    rw [List.countP_append, List.countP_singleton]
    simp only [missed_iff h0 h31 hready]
  have hsize : (x.poll ready).1.eventsReady =
      if x.eventsReady ≤ ready.length then x.eventsReady * 2 else x.eventsReady := by
    rw [poll_eq h0 h31]
  have hreported : ∀ e ∈ L ++ [(⟨x.poller.channels ready, (x.poll ready).2⟩ : Polled ι)],
      e.active <+: e.ready ∧ e.ready.Nodup := by
    intro e he
    rcases List.mem_append.1 he with he | he
    · exact h.reported e he
    · obtain rfl := List.mem_singleton.1 he
      refine ⟨?_, channels_nodup hb hready⟩
      rw [poll_eq h0 h31]
      exact channels_take x.poller ready x.eventsReady
  rcases Nat.lt_or_ge x.eventsReady ready.length with hlt | hge
  · rw [if_pos hlt] at hcount
    rw [if_pos (Nat.le_of_lt hlt)] at hsize
    refine ⟨hreported, ?_, ?_, fun _ => ?_⟩
    · rw [hcount, hsize, Nat.pow_succ]
      omega
    · rw [hsize]
      omega
    · rw [hcount, Nat.pow_succ]
      omega
  · rw [if_neg (Nat.not_lt.2 hge), Nat.add_zero] at hcount
    refine ⟨hreported, ?_, ?_, ?_⟩
    · rw [hcount, hsize]
      split <;> omega
    · rw [hsize]
      split <;> omega
    · rw [hcount]
      exact h.needed

theorem Fits.step {L : List (Polled ι)} {a : PollerAct ι} (h : Fits N L x) (hb : Book fd x.poller)
    (hN : N < 2 ^ 30) (ha : Few N x a) (hst : step fd x a = some x') :
    Fits N (L ++ x.polled a) x' := by
  have same (p : EpollPoller ι) : Fits N (L ++ []) { x with poller := p } := by
    rw [List.append_nil]
    exact ⟨h.reported, h.grown, h.bounded, h.needed⟩
  cases a with
  | op o =>
    obtain ⟨p, hp, rfl⟩ := Option.map_eq_some_iff.1 hst
    exact same p
  | close n =>
    cases hst
    exact same _
  | poll ready =>
    rw [ArrayPoller.step, Option.ite_none_right_eq_some] at hst
    obtain ⟨hready, hst⟩ := hst
    cases hst
    exact h.poll hb hN ha hready

/-- **Nearly every `Poll` reports all that is ready.** Over every run of a poller, `Poll` reports a
first part of the channels that are ready, each of them once. If no more than `N` descriptors are
registered, all but `Nat.clog 2 ((N + 15) / 16)` Polls report all of them (none is incomplete up to
16), and the array has at most `max 16 (2 * N)` entries. -/
theorem polls_complete {L : List (Polled ι)} (hN : N < 2 ^ 30)
    (h : Logged (step fd) (Few N) polled new L x) :
    (∀ e ∈ L, e.active <+: e.ready ∧ e.ready.Nodup) ∧
      L.countP Polled.missed ≤ Nat.clog 2 ((N + 15) / 16) ∧ x.eventsReady ≤ max 16 (2 * N) := by
  have hfits : Fits N L x := by
    refine h.inv .new fun L y a y' hr hI ha hst => ?_
    exact hI.step (reach_book hr) hN ha hst
  refine ⟨hfits.reported, ?_, hfits.bounded⟩
  have hneed := hfits.needed
  cases hc : L.countP Polled.missed with
  | zero => exact Nat.zero_le _
  | succ k =>
    rw [hc, Nat.pow_succ] at hneed
    have hk : 2 ^ k < (N + 15) / 16 := by omega
    exact (Nat.lt_clog_iff_pow_lt Nat.one_lt_two).2 hk

/-- Seventeen channels, all of them ready at two Polls. -/
def sampleActs : List (PollerAct (Fin 17)) :=
  let ready := (List.range 17).map fun n => (n, pollIn)
  (List.finRange 17).map (fun i => .op (.enableReading i)) ++ [.poll ready, .poll ready]

/-- The first of two Polls leaves one of seventeen channels out, which is the most there can be. -/
theorem polls_complete_seventeen :
    ∃ x L, Logged (step Fin.val) (Few 17) polled (new : ArrayPoller (Fin 17)) L x ∧
      L.map Polled.missed = [true, false] ∧ x.eventsReady = 32 ∧
      L.countP Polled.missed ≤ Nat.clog 2 2 := by
  have hrun : (Runs.run (step Fin.val) (new : ArrayPoller (Fin 17)) sampleActs).map eventsReady =
      some 32 := by decide +kernel
  obtain ⟨x, hx, h32⟩ := Option.map_eq_some_iff.1 hrun
  have hall : Logged (step Fin.val) (fun _ _ => True) polled (new : ArrayPoller (Fin 17)) _ x :=
    .of_run sampleActs hx (admits_of_forall (fun _ _ => trivial) _ _)
  have hlog : Logged (step Fin.val) (Few 17) polled (new : ArrayPoller (Fin 17)) _ x :=
    hall.mono fun y a hr _ => Few.of_limit hr fun i => i.2
  refine ⟨x, _, hlog, by decide +kernel, h32, (polls_complete (by decide) hlog).2.1⟩

end ArrayPoller

/-! ## The Polls of the system -/

theorem canPoll_eq (p : EpollPoller ChanId) (evs : List (Fd × Mask)) :
    canPoll p evs = p.canBeReady evs := by
  unfold canPoll canBeReady
  congr 2
  funext ⟨n, ev⟩
  dsimp only
  cases p.interest n <;> rfl

theorem setRecieved_eq (p : EpollPoller ChanId) (evs : List (Fd × Mask)) :
    setRecieved p evs = p.setRecievedEvents evs := by
  unfold setRecieved setRecievedEvents
  congr 1
  funext q ⟨n, ev⟩
  dsimp only
  cases p.interest n <;> rfl

/-- A `Poll` with the array is a `Poll` of the system. -/
theorem Sys.poll_of_array {s : Sys} {l : LoopId} {ready : List (Fd × Mask)}
    (h : canPoll (s.pollers l) ready = true) (size : Nat) :
    ∃ evs, canPoll (s.pollers l) evs = true ∧
      (s.poll l evs).pollers l = (ArrayPoller.poll ⟨s.pollers l, size⟩ ready).1.poller ∧
      (s.poll l evs).active l = (ArrayPoller.poll ⟨s.pollers l, size⟩ ready).2 := by
  have hnone : canPoll (s.pollers l) [] = true ∧ (s.poll l []).pollers l = s.pollers l ∧
      (s.poll l []).active l = [] :=
    ⟨rfl, Function.update_self .., Function.update_self ..⟩
  unfold ArrayPoller.poll epollWait
  dsimp only
  split
  · next evs hevs =>
    rw [Option.ite_none_left_eq_some] at hevs
    obtain ⟨-, hevs⟩ := hevs
    cases hevs
    split
    · refine ⟨ready.take (BitVec.ofNat 32 size).toNat, ?_, ?_, Function.update_self ..⟩
      · rw [canPoll_eq] at h ⊢
        exact canBeReady_take h _
      · exact (Function.update_self ..).trans (setRecieved_eq _ _)
    · exact ⟨[], hnone⟩
  · exact ⟨[], hnone⟩

end Liang.Net
