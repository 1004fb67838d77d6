import NetworkPoller.Net.TcpAcceptor
import NetworkPoller.Lib.Runs

/-!
# Who owns the acceptor's descriptors

After an error of `accept` the acceptor closes its reserve, drops what `::accept` and `::open` return,
and closes the number of the reserve once more in between. This is right if both calls return just
that number, which is what the code counts on: `acceptor_owns_fds`. Otherwise `idle_fd_` is not open,
or names a descriptor of somebody else (`acceptor_closes_handed`).

`Books` is what has become of the connections accepted so far, but for the one in hand, and `Place`
what is open at each place of the acceptor's code.
-/

namespace Liang.Net

/-- Held by the acceptor. -/
def Holder.own : Holder → Bool
  | .listen | .reserve | .accepted _ => true
  | .handed _ | .other => false

/-- Between the two calls of `close` and that of `open` after an error. -/
def AcceptPc.gap : AcceptPc → Bool
  | .reAccept | .closeIdleAgain | .reOpen => true
  | _ => false

/-- The acceptor is past its use of `idle_fd_`. -/
def AcceptPc.ended : AcceptPc → Bool
  | .dtorSocket | .gone => true
  | _ => false

namespace Acceptor

variable {s s' : Acceptor} {n : Fd} {k : Nat} {pc : AcceptPc} {o : Holder} {hand : Option Nat}

/-- How often the acceptor has closed its `k`-th connection. -/
def timesClosed (s : Acceptor) (k : Nat) : Nat := (s.closed.map (·.2)).count (some (.accepted k))

/-- The `k`-th connection was handed over once, or closed once. -/
def Settled (s : Acceptor) (k : Nat) : Prop :=
  s.handed.count k = 1 ∧ s.timesClosed k = 0 ∨ s.handed.count k = 0 ∧ s.timesClosed k = 1

/-- Nothing was done with the `k`-th connection. -/
def Untouched (s : Acceptor) (k : Nat) : Prop := s.handed.count k = 0 ∧ s.timesClosed k = 0

/-- The acceptor has just accepted the `k`-th connection. -/
def InHand (s : Acceptor) (k : Nat) : Prop :=
  (∃ n, s.pc = .accepted k n) ∨ s.pc = .closeIdleAgain ∧ s.fds s.idleFd = some (.accepted k)

/-! ## What has become of the connections -/

structure Books (hand : Option Nat) (s : Acceptor) : Prop where
  last : ∀ k, hand = some k → s.accepts = k + 1
  settled : ∀ k, k < s.accepts → hand ≠ some k → s.Settled k
  untouched : ∀ k, hand = some k ∨ s.accepts ≤ k → s.Untouched k
  own : ∀ x ∈ s.closed, ∀ o, x.2 = some o → o.own = true

namespace Books

theorem same (h : s.Books hand) (ha : s'.accepts = s.accepts) (hh : s'.handed = s.handed)
    (hc : s'.closed = s.closed) : s'.Books hand := by
  refine ⟨by rw [ha]; exact h.last, fun k hk hne => ?_, fun k hk => ?_, by rw [hc]; exact h.own⟩
  · simpa only [Settled, timesClosed, hh, hc] using h.settled k (ha ▸ hk) hne
  · simpa only [Untouched, timesClosed, hh, hc] using h.untouched k (ha ▸ hk)

/-- One more is accepted. -/
theorem accept (h : s.Books none) (ha : s'.accepts = s.accepts + 1) (hh : s'.handed = s.handed)
    (hc : s'.closed = s.closed) : s'.Books (some s.accepts) := by
  refine ⟨by rintro k ⟨⟩; exact ha, fun k hk hne => ?_, fun k hk => ?_, by rw [hc]; exact h.own⟩
  · have hne : s.accepts ≠ k := fun he => hne (congrArg some he)
    simpa only [Settled, timesClosed, hh, hc] using h.settled k (by omega) nofun
  · have hk : s.accepts ≤ k := by
      rcases hk with ⟨⟨⟩⟩ | hk
      · exact Nat.le_refl _
      · omega
    simpa only [Untouched, timesClosed, hh, hc] using h.untouched k (.inr hk)

theorem timesClosed_close (s : Acceptor) (n : Fd) (pc : AcceptPc) (k : Nat) :
    (s.close n pc).timesClosed k =
      s.timesClosed k + if s.fds n = some (.accepted k) then 1 else 0 := by
  simp only [timesClosed, close, List.map_append, List.count_append, List.map_cons, List.map_nil,
    List.count_singleton, beq_iff_eq]

theorem own_close (h : s.Books hand) (hn : ∀ o, s.fds n = some o → o.own = true) :
    ∀ x ∈ (s.close n pc).closed, ∀ o, x.2 = some o → o.own = true := by
  intro x hx o ho
  rcases List.mem_append.1 hx with hx | hx
  · exact h.own x hx o ho
  · obtain rfl := List.mem_singleton.1 hx
    exact hn o ho

/-- A number that is no connection's is closed. -/
theorem close (h : s.Books none) (hn : ∀ o, s.fds n = some o → o.own = true)
    (hk : ∀ k, s.fds n ≠ some (.accepted k)) : (s.close n pc).Books none := by
  have ht : ∀ k, (s.close n pc).timesClosed k = s.timesClosed k := fun k => by
    rw [timesClosed_close, if_neg (hk k), Nat.add_zero]
  refine ⟨nofun, fun k hlt hne => ?_, fun k hk => ?_, h.own_close hn⟩
  · have := h.settled k hlt hne
    rwa [Settled, ht]
  · have := h.untouched k hk
    rwa [Untouched, ht]

theorem closeIdle (h : s.Books none) (hi : s.fds n = some .reserve) : (s.close n pc).Books none := by
  refine h.close (fun o ho => ?_) fun k ho => ?_
  · obtain rfl := Option.some.inj (hi.symm.trans ho)
    rfl
  · cases hi.symm.trans ho

/-- What was done with the one in hand leaves it settled. -/
theorem settle (h : s.Books (some k)) (ha : s'.accepts = s.accepts)
    (hk : s.Untouched k → s'.Settled k)
    (ho : ∀ k', k' ≠ k → s'.handed.count k' = s.handed.count k' ∧ s'.timesClosed k' = s.timesClosed k')
    (hown : ∀ x ∈ s'.closed, ∀ o, x.2 = some o → o.own = true) : s'.Books none := by
  have hlast := h.last k rfl
  refine ⟨nofun, fun k' hlt _ => ?_, fun k' hle => ?_, hown⟩
  · by_cases hkk : k' = k
    · subst hkk
      exact hk (h.untouched k' (.inl rfl))
    · obtain ⟨h1, h2⟩ := ho k' hkk
      have := h.settled k' (ha ▸ hlt) fun he => hkk (Option.some.inj he).symm
      rwa [Settled, h1, h2]
  · have hle : s'.accepts ≤ k' := hle.resolve_left nofun
    obtain ⟨h1, h2⟩ := ho k' (by omega)
    have := h.untouched k' (.inr (ha ▸ hle))
    rwa [Untouched, h1, h2]

/-- The one in hand is closed. -/
theorem closeHand (h : s.Books (some k)) (hn : s.fds n = some (.accepted k)) :
    (s.close n pc).Books none := by
  refine h.settle rfl (fun hu => .inr ⟨hu.1, ?_⟩) (fun k' hk' => ⟨rfl, ?_⟩)
    (h.own_close fun o ho => ?_)
  · rw [timesClosed_close, if_pos hn, hu.2]
  · rw [timesClosed_close, if_neg, Nat.add_zero]
    rw [hn]
    rintro ⟨⟩
    exact hk' rfl
  · rw [hn] at ho
    cases ho
    rfl

/-- The one in hand is handed over. -/
theorem handOver (h : s.Books (some k)) (ha : s'.accepts = s.accepts)
    (hh : s'.handed = s.handed ++ [k]) (hc : s'.closed = s.closed) : s'.Books none := by
  have ht : ∀ k', s'.timesClosed k' = s.timesClosed k' := fun k' => by
    simp only [timesClosed, hc]
  refine h.settle ha (fun hu => .inl ⟨?_, ?_⟩) (fun k' hk' => ⟨?_, ht k'⟩) (by rw [hc]; exact h.own)
  · rw [hh, List.count_append, hu.1, List.count_singleton_self]
  · rw [ht, hu.2]
  · have h0 : [k].count k' = 0 :=
      List.count_eq_zero_of_not_mem fun hm => hk' (List.mem_singleton.1 hm)
    rw [hh, List.count_append, h0, Nat.add_zero]

end Books

/-! ## What is open at each place -/

/-- What `idle_fd_` names, and which connection is in hand. -/
def IdleAt (hand : Option Nat) (s : Acceptor) : AcceptPc → Prop
  | .idle | .accept | .closeIdle | .dtorIdle => hand = none ∧ s.fds s.idleFd = some .reserve
  | .accepted k n =>
    hand = some k ∧ s.fds n = some (.accepted k) ∧ s.fds s.idleFd = some .reserve
  | .reAccept | .reOpen => hand = none ∧ s.fds s.idleFd = none
  | .closeIdleAgain => s.fds s.idleFd = hand.map .accepted
  | .dtorSocket | .gone => hand = none

structure Place (hand : Option Nat) (s : Acceptor) : Prop where
  ne : s.idleFd ≠ s.listenFd
  socket : s.pc ≠ .gone → s.fds s.listenFd = some .listen
  idle : IdleAt hand s s.pc

/-- After an error the number of the reserve stays free for `::accept`, which returns it or fails,
and for `::open`, which returns it. -/
def ReusesIdle (s : Acceptor) : AcceptorAct → Prop
  | .accept (.ok n) => s.pc = .reAccept → n = s.idleFd
  | .openNull r => r.toOption = some s.idleFd
  | .otherOpen n => s.pc.gap = true → n ≠ s.idleFd
  | _ => True

instance (s : Acceptor) : ∀ a, Decidable (ReusesIdle s a)
  | .accept (.ok _) | .otherOpen _ => inferInstanceAs (Decidable (_ → _))
  | .openNull _ => inferInstanceAs (Decidable (_ = _))
  | .accept (.error _) | .handle | .run | .destroy | .setNewConnectionCB _ | .otherClose _ =>
    isTrue trivial

/-- The books and the place agree on what is in hand. -/
def Keeps (s : Acceptor) : Prop := ∃ hand, s.Books hand ∧ s.Place hand

/-- A number changes that the acceptor has nothing to do with. -/
theorem IdleAt.update {x : Option Holder} (h : IdleAt hand s pc) (hi : n ≠ s.idleFd ∨ pc.ended = true)
    (hk : ∀ k, s.fds n ≠ some (.accepted k)) :
    IdleAt hand { s with fds := Function.update s.fds n x } pc := by
  have hidle : pc.ended = false → Function.update s.fds n x s.idleFd = s.fds s.idleFd := fun he =>
    Function.update_of_ne (Ne.symm (hi.resolve_right (by rw [he]; nofun))) ..
  cases pc with
  | idle | accept | closeIdle | dtorIdle | reAccept | reOpen =>
    exact ⟨h.1, (hidle rfl).trans h.2⟩
  | closeIdleAgain => exact (hidle rfl).trans h
  | accepted k m =>
    obtain ⟨h1, h2, h3⟩ := h
    refine ⟨h1, (Function.update_of_ne ?_ ..).trans h2, (hidle rfl).trans h3⟩
    rintro rfl
    exact hk k h2
  | dtorSocket | gone => exact h

theorem Keeps.other {x : Option Holder} (hB : s.Books hand) (h : s.Place hand)
    (hl : s.fds n ≠ some .listen) (hi : n ≠ s.idleFd ∨ s.pc.ended = true)
    (hk : ∀ k, s.fds n ≠ some (.accepted k)) :
    Keeps { s with fds := Function.update s.fds n x } := by
  refine ⟨hand, hB.same rfl rfl rfl, h.ne, fun hg => ?_, h.idle.update hi hk⟩
  have hn : s.listenFd ≠ n := fun he => hl (he ▸ h.socket hg)
  exact (Function.update_of_ne hn ..).trans (h.socket hg)

/-- Outside of the gap `idle_fd_` names the reserve. -/
theorem IdleAt.reserve (h : IdleAt hand s pc) (hg : pc.gap = false) (he : pc.ended = false) :
    s.fds s.idleFd = some .reserve := by
  cases pc with
  | idle | accept | closeIdle | dtorIdle => exact h.2
  | accepted => exact h.2.2
  | reAccept | reOpen | closeIdleAgain => cases hg
  | dtorSocket | gone => cases he

/-- In the gap it names what was just accepted, or nothing. -/
theorem IdleAt.own (h : IdleAt hand s pc) (he : pc.ended = false) (ho : s.fds s.idleFd = some o) :
    o.own = true := by
  cases hg : pc.gap with
  | false =>
    obtain rfl := Option.some.inj ((h.reserve hg he).symm.trans ho)
    rfl
  | true =>
    cases pc with
    | reAccept | reOpen => cases h.2.symm.trans ho
    | closeIdleAgain =>
      obtain ⟨k, -, rfl⟩ := Option.map_eq_some_iff.1 (h.symm.trans ho)
      rfl
    | _ => cases hg

/-! ## The steps -/

/-- `socket_.Accept` in `AcceptHandle`. -/
theorem Keeps.accept {r : Except Nat Fd} (hB : s.Books hand) (h : s.Place hand) (hpc : s.pc = .accept)
    (hs : s.accept r = some s') : s'.Keeps := by
  obtain ⟨hne, hl, hi⟩ := h
  rw [hpc] at hi hl
  obtain ⟨rfl, hi⟩ := hi
  have hl := hl nofun
  cases r with
  | ok n =>
    simp only [Acceptor.accept, Option.ite_none_right_eq_some, Option.some.injEq] at hs
    obtain ⟨hn, rfl⟩ := hs
    have hni : s.idleFd ≠ n := by
      rintro rfl
      rw [hi] at hn
      cases hn
    have hnl : s.listenFd ≠ n := by
      rintro rfl
      rw [hl] at hn
      cases hn
    exact ⟨some s.accepts, hB.accept rfl rfl rfl, hne,
      fun _ => (Function.update_of_ne hnl ..).trans hl, rfl, Function.update_self ..,
      (Function.update_of_ne hni ..).trans hi⟩
  | error e =>
    simp only [Acceptor.accept] at hs
    split at hs
    · cases hs
      exact ⟨none, hB.same rfl rfl rfl, hne, fun _ => hl, rfl, hi⟩
    · split at hs
      · cases hs
        exact ⟨none, hB.same rfl rfl rfl, hne, fun _ => hl, rfl, hi⟩
      · cases hs
        exact ⟨none, hB, hne, fun _ => hl, by rw [hpc]; exact ⟨rfl, hi⟩⟩

/-- `::accept` after an error. -/
theorem Keeps.reAccept {r : Except Nat Fd} (hB : s.Books hand) (h : s.Place hand)
    (hpc : s.pc = .reAccept) (hr : ∀ n, r = .ok n → n = s.idleFd) (hs : s.reAccept r = some s') :
    s'.Keeps := by
  obtain ⟨hne, hl, hi⟩ := h
  rw [hpc] at hi hl
  obtain ⟨rfl, hi⟩ := hi
  have hl := hl nofun
  cases r with
  | ok n =>
    obtain rfl := hr n rfl
    simp only [Acceptor.reAccept, Option.ite_none_right_eq_some, Option.some.injEq] at hs
    obtain ⟨-, rfl⟩ := hs
    exact ⟨some s.accepts, hB.accept rfl rfl rfl, hne,
      fun _ => (Function.update_of_ne hne.symm ..).trans hl, Function.update_self ..⟩
  | error e =>
    cases hs
    exact ⟨none, hB.same rfl rfl rfl, hne, fun _ => hl, hi⟩

/-- The callback, and the calls of `close`. -/
theorem Keeps.run (hB : s.Books hand) (h : s.Place hand) (hs : s.step .run = some s') : s'.Keeps := by
  obtain ⟨hne, hl, hi⟩ := h
  simp only [step] at hs
  split at hs
  · rename_i k n hpc
    rw [hpc] at hi hl
    obtain ⟨rfl, hn, hi⟩ := hi
    replace hl := hl nofun
    have hni : s.idleFd ≠ n := by
      rintro rfl
      rw [hi] at hn
      cases hn
    have hnl : s.listenFd ≠ n := by
      rintro rfl
      rw [hl] at hn
      cases hn
    cases hs
    unfold newConnection
    split
    · exact ⟨none, hB.handOver rfl rfl rfl, hne, fun _ => (Function.update_of_ne hnl ..).trans hl, rfl,
        (Function.update_of_ne hni ..).trans hi⟩
    · exact ⟨none, hB.closeHand hn, hne, fun _ => (Function.update_of_ne hnl ..).trans hl, rfl,
        (Function.update_of_ne hni ..).trans hi⟩
  · rename_i hpc
    rw [hpc] at hi hl
    obtain ⟨rfl, hi⟩ := hi
    cases hs
    exact ⟨none, hB.closeIdle hi, hne, fun _ => (Function.update_of_ne hne.symm ..).trans (hl nofun),
      rfl, Function.update_self ..⟩
  · rename_i hpc
    rw [hpc] at hi hl
    cases hs
    refine ⟨none, ?_, hne, fun _ => (Function.update_of_ne hne.symm ..).trans (hl nofun),
      rfl, Function.update_self ..⟩
    cases hand with
    | none => exact hB.close (fun o ho => by cases hi.symm.trans ho) fun k ho => by cases hi.symm.trans ho
    | some k => exact hB.closeHand hi
  · rename_i hpc
    rw [hpc] at hi hl
    obtain ⟨rfl, hi⟩ := hi
    cases hs
    exact ⟨none, hB.closeIdle hi, hne, fun _ => (Function.update_of_ne hne.symm ..).trans (hl nofun),
      rfl⟩
  · rename_i hpc
    rw [hpc] at hi hl
    cases hi
    have hl := hl nofun
    cases hs
    refine ⟨none, hB.close (fun o ho => ?_) fun k ho => ?_, hne, fun hg => absurd rfl hg, rfl⟩
    · obtain rfl := Option.some.inj (hl.symm.trans ho)
      rfl
    · cases hl.symm.trans ho
  · cases hs

theorem keeps_step {a : AcceptorAct} (h : s.Keeps) (hr : s.ReusesIdle a) (hs : s.step a = some s') :
    s'.Keeps := by
  obtain ⟨hand, hB, hP⟩ := h
  obtain ⟨hne, hl, hi⟩ := id hP
  cases a with
  | handle =>
    simp only [step, Option.ite_none_right_eq_some, Option.some.injEq] at hs
    obtain ⟨hpc, rfl⟩ := hs
    rw [hpc] at hi hl
    exact ⟨hand, hB.same rfl rfl rfl, hne, fun _ => hl nofun, hi⟩
  | destroy =>
    simp only [step, Option.ite_none_right_eq_some, Option.some.injEq] at hs
    obtain ⟨hpc, rfl⟩ := hs
    rw [hpc] at hi hl
    exact ⟨hand, hB.same rfl rfl rfl, hne, fun _ => hl nofun, hi⟩
  | setNewConnectionCB cb =>
    cases hs
    exact ⟨hand, hB.same rfl rfl rfl, hne, hl, hi⟩
  | accept r =>
    simp only [step] at hs
    split at hs
    · rename_i hpc
      exact .accept hB hP hpc hs
    · rename_i hpc
      refine .reAccept hB hP hpc (fun n hn => ?_) hs
      subst hn
      exact hr hpc
    · cases hs
  | openNull r =>
    simp only [step, Option.ite_none_right_eq_some] at hs
    obtain ⟨hpc, hs⟩ := hs
    rw [hpc] at hi hl
    obtain ⟨rfl, hi⟩ := hi
    cases r with
    | error e => cases hr
    | ok n =>
      obtain rfl : n = s.idleFd := Option.some.inj hr
      simp only [reOpen, Option.ite_none_right_eq_some, Option.some.injEq] at hs
      obtain ⟨-, rfl⟩ := hs
      exact ⟨none, hB.same rfl rfl rfl, hne, fun _ => (Function.update_of_ne hne.symm ..).trans (hl nofun),
        rfl, Function.update_self ..⟩
  | run => exact .run hB hP hs
  | otherOpen n =>
    simp only [step, Option.ite_none_right_eq_some, Option.some.injEq] at hs
    obtain ⟨hn, rfl⟩ := hs
    refine Keeps.other hB hP (by rw [hn]; nofun) ?_ (by rw [hn]; nofun)
    by_contra hc
    obtain ⟨hni, hend⟩ := not_or.1 hc
    obtain rfl := not_not.1 hni
    cases hg : s.pc.gap with
    | true => exact hr hg rfl
    | false => cases hn.symm.trans (hi.reserve hg (eq_false_of_ne_true hend))
  | otherClose n =>
    simp only [step] at hs
    have hother : ∀ o, s.fds n = some o → o.own = false →
        Keeps { s with fds := Function.update s.fds n none } := by
      intro o ho hown
      have hne' : ∀ o', o'.own = true → s.fds n ≠ some o' := fun o' ho' he => by
        obtain rfl := Option.some.inj (ho.symm.trans he)
        rw [ho'] at hown
        cases hown
      refine Keeps.other hB hP (hne' _ rfl) ?_ fun k => hne' _ rfl
      by_contra hc
      obtain ⟨hni, hend⟩ := not_or.1 hc
      obtain rfl := not_not.1 hni
      exact hne' o (hi.own (eq_false_of_ne_true hend) ho) ho
    split at hs
    · rename_i ho
      cases hs
      exact hother _ ho rfl
    · rename_i k ho
      cases hs
      exact hother _ ho rfl
    · cases hs

theorem keeps_init {l i : Fd} (h : i ≠ l) (others : Fd → Bool) (cb : Bool) :
    (init l i others cb).Keeps := by
  have hB : (init l i others cb).Books none :=
    ⟨nofun, fun k hk => absurd hk (Nat.not_lt_zero k), fun k _ => ⟨rfl, rfl⟩, nofun⟩
  exact ⟨none, hB, h, fun _ => (if_neg h.symm).trans (if_pos rfl), rfl, if_pos rfl⟩

/-- **The acceptor's descriptors are its own**, if the number of the reserve is used again after an
error: what it closes is its own, every connection accepted was handed over once or closed once,
unless it is just being handled, and `idle_fd_` is the reserve when `AcceptHandle` returns. -/
theorem acceptor_owns_fds {l i : Fd} (hne : i ≠ l) (others : Fd → Bool) (cb : Bool)
    (h : Runs.Reach step ReusesIdle (init l i others cb) s) :
    (∀ x ∈ s.closed, ∀ o, x.2 = some o → o.own = true) ∧
    (∀ k, k < s.accepts → s.Settled k ∨ s.InHand k) ∧
    (s.pc = .idle → s.fds s.idleFd = some .reserve) := by
  obtain ⟨hand, hB, hP⟩ : s.Keeps :=
    h.inv (keeps_init hne others cb) fun _ _ _ _ hk hr hs => keeps_step hk hr hs
  refine ⟨hB.own, fun k hk => ?_, fun hpc => hP.idle.reserve (by rw [hpc]; rfl) (by rw [hpc]; rfl)⟩
  by_cases hh : hand = some k
  · right
    have hi := hP.idle
    subst hh
    cases hpc : s.pc with
    | accepted k' n =>
      rw [hpc] at hi
      obtain rfl := Option.some.inj hi.1
      exact .inl ⟨n, hpc⟩
    | closeIdleAgain =>
      rw [hpc] at hi
      exact .inr ⟨hpc, hi⟩
    | idle | accept | closeIdle | dtorIdle | reAccept | reOpen =>
      rw [hpc] at hi
      cases hi.1
    | dtorSocket | gone =>
      rw [hpc] at hi
      cases hi
  · exact .inl (hB.settled k hk hh)

/-- A connection is handed over, another is dropped when the process has no descriptors left, and the
acceptor is destroyed. -/
theorem acceptor_owns_fds_exhausted :
    ∃ s, Runs.run step (init 3 4 (· < 3) true)
        [.handle, .accept (.ok 5), .run, .accept (.error eMfile), .run, .accept (.ok 4), .run,
          .openNull (.ok 4), .accept (.error eAgain), .destroy, .run, .run] = some s ∧
      s.closed = [(4, some .reserve), (4, some (.accepted 1)), (4, some .reserve), (3, some .listen)] ∧
      s.Settled 0 ∧ s.Settled 1 := by
  have hrun : (Runs.run step (init 3 4 (· < 3) true)
      [.handle, .accept (.ok 5), .run, .accept (.error eMfile), .run, .accept (.ok 4), .run,
        .openNull (.ok 4), .accept (.error eAgain), .destroy, .run, .run]).map
      (fun s => (s.closed, s.accepts, s.pc)) =
      some ([(4, some .reserve), (4, some (.accepted 1)), (4, some .reserve), (3, some .listen)], 2,
        .gone) := by decide +kernel
  obtain ⟨s, hs, hx, hr⟩ := Runs.Reach.of_map _ hrun (P := ReusesIdle) (by decide +kernel)
  simp only [Prod.mk.injEq] at hx
  obtain ⟨hc, ha, hpc⟩ := hx
  obtain ⟨-, hset, -⟩ := acceptor_owns_fds (by decide) _ _ hr
  have hno : ∀ k, ¬ s.InHand k := by
    rintro k (⟨n, hn⟩ | ⟨hn, -⟩) <;> rw [hpc] at hn <;> cases hn
  exact ⟨s, hs, hc, (hset 0 (by omega)).resolve_right (hno 0),
    (hset 1 (by omega)).resolve_right (hno 1)⟩

/-- A connection is aborted before it is accepted. `::accept` finds no other, and the new `/dev/null`
gets a smaller number that has become free, so the next connection gets that of `idle_fd_`; it is
handed over, and closed with the next error. -/
theorem acceptor_closes_handed :
    ∃ s, Runs.run step (init 3 5 (fun n => n < 3 ∨ n = 4) true)
        [.otherClose 4, .handle, .accept (.error eConnAborted), .run, .accept (.error eAgain), .run,
          .openNull (.ok 4), .accept (.ok 5), .run, .accept (.error eConnAborted), .run] = some s ∧
      s.handed = [0] ∧ s.idleFd = 5 ∧
      s.closed = [(5, some .reserve), (5, none), (5, some (.handed 0))] := by
  have hrun : (Runs.run step (init 3 5 (fun n => n < 3 ∨ n = 4) true)
      [.otherClose 4, .handle, .accept (.error eConnAborted), .run, .accept (.error eAgain), .run,
        .openNull (.ok 4), .accept (.ok 5), .run, .accept (.error eConnAborted), .run]).map
      (fun s => (s.handed, s.idleFd, s.closed)) =
      some ([0], 5, [(5, some .reserve), (5, none), (5, some (.handed 0))]) := by decide +kernel
  obtain ⟨s, hs, hx⟩ := Option.map_eq_some_iff.1 hrun
  simp only [Prod.mk.injEq] at hx
  exact ⟨s, hs, hx⟩

end Acceptor

end Liang.Net
