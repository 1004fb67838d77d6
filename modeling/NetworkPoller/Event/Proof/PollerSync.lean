import NetworkPoller.Event.EpollPoller
import NetworkPoller.Lib.Runs
import Mathlib.Tactic.SplitIfs

/-!
# The poller's bookkeeping and the kernel's interest set

`Book p`: the map `evt_channel_list_` holds exactly the channels whose status is not `NEW_CHANNEL`,
each under its descriptor, and the interest set points to `ADDED_CHANNEL` channels only. It is kept
by every update or removal that passes the asserts, whatever the kernel answers, and by the loss of
a descriptor (`setEvents_book`, `removeEventChannel_book`, `dropFd_book`).

`Synced p` adds what holds as long as descriptors are not closed under the poller: an
`ADDED_CHANNEL` channel is registered with its own mask, a `DELETE_CHANNEL` channel is not
registered, and no `epoll_ctl` has failed. On the operations the asserts ask for (`ChanOp.Allowed`)
no assert fails and `Synced` is kept (`apply_synced`); `poller_refines_interest` is the statement
about every sequence of operations.

A registered channel may have the empty mask (`disarmed_registered`), since the mask is looked at in
one of the three statuses only; `disarmed_not_registered` is about the sequences that disarm a
channel in that status.
-/

namespace Liang.Net

namespace EpollPoller

variable {ι : Type} {fd : ι → Nat} {p p' : EpollPoller ι} {i : ι}

/-! ## The books -/

/-- The map and the interest set agree with the statuses (module doc). -/
structure Book (fd : ι → Nat) (p : EpollPoller ι) : Prop where
  listed : ∀ n i, p.evtChannelList n = some i → fd i = n ∧ (p.chan i).status ≠ .newChannel
  known : ∀ i, (p.chan i).status ≠ .newChannel → p.evtChannelList (fd i) = some i
  polled : ∀ n i m, p.interest n = some (i, m) → fd i = n ∧ (p.chan i).status = .addedChannel

theorem book_init : Book fd (init : EpollPoller ι) :=
  ⟨fun _ _ h => by simp [init] at h, fun _ h => absurd rfl h, fun _ _ _ h => by simp [init] at h⟩

/-- A descriptor whose channel is not `ADDED_CHANNEL` is not registered. -/
theorem Book.interest_none (h : Book fd p)
    (hl : p.evtChannelList (fd i) = none ∨ p.evtChannelList (fd i) = some i)
    (hs : (p.chan i).status ≠ .addedChannel) : p.interest (fd i) = none := by
  cases hk : p.interest (fd i) with
  | none => rfl
  | some e =>
    obtain ⟨j, m⟩ := e
    obtain ⟨hj, hst⟩ := h.polled _ _ _ hk
    have hjl := h.known j (by rw [hst]; decide)
    rw [hj] at hjl
    rcases hl with hl | hl
    · rw [hl] at hjl; cases hjl
    · rw [hl, Option.some.injEq] at hjl
      subst hjl
      exact absurd hst hs

/-- A channel with status `NEW_CHANNEL` is in neither store. -/
theorem Book.out (h : Book fd p) (hs : (p.chan i).status = .newChannel) :
    (∀ n, p.evtChannelList n ≠ some i) ∧ ∀ n m, p.interest n ≠ some (i, m) := by
  refine ⟨fun n hl => (h.listed n i hl).2 hs, fun n m hk => ?_⟩
  have := (h.polled n i m hk).2
  rw [hs] at this
  cases this

/-! ## What an update does -/

@[simp] theorem updateEpollCtrl_chan (p : EpollPoller ι) (op : CtlOp) (i : ι) :
    (updateEpollCtrl fd p op i).chan = p.chan := by
  unfold updateEpollCtrl; split <;> rfl

@[simp] theorem updateEpollCtrl_list (p : EpollPoller ι) (op : CtlOp) (i : ι) :
    (updateEpollCtrl fd p op i).evtChannelList = p.evtChannelList := by
  unfold updateEpollCtrl; split <;> rfl

theorem updateEpollCtrl_setList (p : EpollPoller ι) (n : Nat) (l : Option ι) (op : CtlOp) (i : ι) :
    updateEpollCtrl fd (p.setList n l) op i = (updateEpollCtrl fd p op i).setList n l := by
  unfold updateEpollCtrl setList
  dsimp only
  split <;> rfl

theorem updateEpollCtrl_add (h : p.interest (fd i) = none) :
    updateEpollCtrl fd p .add i = { p with
      interest := Function.update p.interest (fd i) (some (i, (p.chan i).events)) } := by
  simp [updateEpollCtrl, epollCtl, h]

theorem updateEpollCtrl_mod (h : (p.interest (fd i)).isSome) :
    updateEpollCtrl fd p .mod i = { p with
      interest := Function.update p.interest (fd i) (some (i, (p.chan i).events)) } := by
  simp [updateEpollCtrl, epollCtl, h]

theorem updateEpollCtrl_del (h : (p.interest (fd i)).isSome) :
    updateEpollCtrl fd p .del i = { p with
      interest := Function.update p.interest (fd i) none } := by
  simp [updateEpollCtrl, epollCtl, h]

/-- A deletion leaves nothing under the descriptor, whether it fails or not. -/
theorem updateEpollCtrl_del_interest (p : EpollPoller ι) (i : ι) :
    (updateEpollCtrl fd p .del i).interest = Function.update p.interest (fd i) none := by
  cases h : p.interest (fd i) with
  | none =>
    rw [show Function.update p.interest (fd i) none = p.interest from
      Function.update_eq_self_iff.2 h.symm]
    simp [updateEpollCtrl, epollCtl, h]
  | some e => rw [updateEpollCtrl_del (by rw [h]; rfl)]

/-- A modification at most changes the entry under the descriptor to the channel's own. -/
theorem updateEpollCtrl_mod_interest {n : Nat} {e : ι × Mask}
    (h : (updateEpollCtrl fd p .mod i).interest n = some e) :
    p.interest n = some e ∨ n = fd i ∧ e = (i, (p.chan i).events) := by
  cases hk : p.interest (fd i) with
  | none => exact .inl (by simpa [updateEpollCtrl, epollCtl, hk] using h)
  | some e' =>
    rw [updateEpollCtrl_mod (by rw [hk]; rfl)] at h
    dsimp only at h
    by_cases hn : n = fd i
    · subst hn
      rw [Function.update_self, Option.some.injEq] at h
      exact .inr ⟨rfl, h.symm⟩
    · rw [Function.update_of_ne hn] at h
      exact .inl h

/-- The two statuses from which a channel is registered: no other channel has its descriptor. -/
theorem Book.addable (h : Book fd p) {st : ChannelStatus} (hst : (p.chan i).status = st)
    (hcase : st = .newChannel ∧ p.evtChannelList (fd i) = none ∨
      st = .deleteChannel ∧ p.evtChannelList (fd i) ≠ none) :
    (p.chan i).status ≠ .addedChannel ∧
      (p.evtChannelList (fd i) = none ∨ p.evtChannelList (fd i) = some i) := by
  rcases hcase with ⟨rfl, hl⟩ | ⟨rfl, -⟩
  · exact ⟨by rw [hst]; decide, .inl hl⟩
  · exact ⟨by rw [hst]; decide, .inr (h.known i (by rw [hst]; decide))⟩

variable [DecidableEq ι]

/-- The poller after a successful `setEvents`: re-registered, deregistered, or with a new mask. -/
theorem setEvents_cases {f : Mask → Mask} (h : setEvents fd p i f = .ok p') :
    (∃ st, (p.chan i).status = st ∧ (st = .newChannel ∧ p.evtChannelList (fd i) = none ∨
        st = .deleteChannel ∧ p.evtChannelList (fd i) ≠ none) ∧
      p' = updateEpollCtrl fd { p with
        chan := Function.update p.chan i
          { p.chan i with events := f (p.chan i).events, status := .addedChannel }
        evtChannelList := Function.update p.evtChannelList (fd i) (some i) } .add i) ∨
    ((p.chan i).status = .addedChannel ∧ p.evtChannelList (fd i) = some i ∧
      f (p.chan i).events = Event.noneEventFlag ∧
      ∃ q, q = updateEpollCtrl fd p .del i ∧ p' = { q with
        chan := Function.update p.chan i
          { p.chan i with events := f (p.chan i).events, status := .deleteChannel } }) ∨
    ((p.chan i).status = .addedChannel ∧ p.evtChannelList (fd i) = some i ∧
      f (p.chan i).events ≠ Event.noneEventFlag ∧
      p' = updateEpollCtrl fd { p with
        chan := Function.update p.chan i
          { p.chan i with events := f (p.chan i).events } } .mod i) := by
  unfold setEvents updateEventChannel at h
  simp only [Function.update_self] at h
  split at h
  · rename_i hst
    split_ifs at h with hl
    cases h
    refine .inl ⟨_, hst, .inl ⟨rfl, not_not.1 hl⟩, ?_⟩
    simp only [setList, setStatus, Function.update_self, Function.update_idem]
  · rename_i hst
    split_ifs at h with h1 h2 h3
    · cases h
      rw [not_not] at h2
      refine .inr (.inl ⟨hst, h2, ?_, _, rfl, ?_⟩)
      · exact (beq_iff_eq.1 h3).symm
      · simp only [updateEpollCtrl, setStatus, epollCtl]
        cases (p.interest (fd i)).isSome <;> simp
    · cases h
      rw [not_not] at h2
      refine .inr (.inr ⟨hst, h2, ?_, rfl⟩)
      exact fun hc => h3 (beq_iff_eq.2 hc.symm)
  · rename_i hst
    split_ifs at h with hl
    cases h
    refine .inl ⟨_, hst, .inr ⟨rfl, hl⟩, ?_⟩
    simp only [setList, setStatus, Function.update_self, Function.update_idem]

/-! ## The books are kept -/

/-- Registering a channel that is not registered. -/
theorem book_add (h : Book fd p) (hs : (p.chan i).status ≠ .addedChannel)
    (hl : p.evtChannelList (fd i) = none ∨ p.evtChannelList (fd i) = some i) (ev : Mask) :
    ∃ q, q = updateEpollCtrl fd { p with
        chan := Function.update p.chan i { p.chan i with events := ev, status := .addedChannel }
        evtChannelList := Function.update p.evtChannelList (fd i) (some i) } .add i ∧
      Book fd q ∧ q.interest = Function.update p.interest (fd i) (some (i, ev)) ∧
      q.ctlFailures = p.ctlFailures := by
  refine ⟨_, rfl, ?_⟩
  rw [updateEpollCtrl_add]
  swap
  · exact h.interest_none hl hs
  dsimp only
  rw [Function.update_self]
  refine ⟨⟨fun n j hj => ?_, fun j hj => ?_, fun n j m hj => ?_⟩, rfl, rfl⟩ <;> dsimp only at hj ⊢
  · by_cases hn : n = fd i
    · subst hn
      rw [Function.update_self, Option.some.injEq] at hj
      subst hj
      rw [Function.update_self]
      exact ⟨rfl, by simp⟩
    · rw [Function.update_of_ne hn] at hj
      obtain ⟨h1, h2⟩ := h.listed n j hj
      have hji : j ≠ i := fun he => hn (by rw [← h1, he])
      rw [Function.update_of_ne hji]
      exact ⟨h1, h2⟩
  · by_cases hji : j = i
    · rw [hji, Function.update_self]
    · rw [Function.update_of_ne hji] at hj
      have hjl := h.known j hj
      rw [Function.update_of_ne, hjl]
      intro hf
      rw [hf] at hjl
      rcases hl with hl | hl <;> rw [hl] at hjl <;> cases hjl
      exact hji rfl
  · by_cases hn : n = fd i
    · subst hn
      rw [Function.update_self, Option.some.injEq, Prod.mk.injEq] at hj
      obtain ⟨rfl, -⟩ := hj
      rw [Function.update_self]
      exact ⟨rfl, rfl⟩
    · rw [Function.update_of_ne hn] at hj
      obtain ⟨h1, h2⟩ := h.polled n j m hj
      have hji : j ≠ i := fun he => hn (by rw [← h1, he])
      rw [Function.update_of_ne hji]
      exact ⟨h1, h2⟩

/-- A channel that stays in the map, with an interest set that lost it or kept it. -/
theorem book_keep (h : Book fd p) (hl : p.evtChannelList (fd i) = some i) {ch : EventChannel}
    (hs : ch.status ≠ .newChannel) {k : Nat → Option (ι × Mask)} {c : Nat}
    (hk : ∀ n j m, k n = some (j, m) → fd j = n ∧
      (Function.update p.chan i ch j).status = .addedChannel) :
    Book fd ⟨Function.update p.chan i ch, p.evtChannelList, k, c⟩ := by
  refine ⟨fun n j hj => ?_, fun j hj => ?_, hk⟩ <;> dsimp only at hj ⊢
  · obtain ⟨h1, h2⟩ := h.listed n j hj
    refine ⟨h1, ?_⟩
    by_cases hji : j = i
    · rw [hji, Function.update_self]; exact hs
    · rw [Function.update_of_ne hji]; exact h2
  · by_cases hji : j = i
    · rw [hji]; exact hl
    · rw [Function.update_of_ne hji] at hj
      exact h.known j hj

/-- An update changes its own channel only, and leaves it known to the poller. -/
theorem setEvents_chan {f : Mask → Mask} (h : setEvents fd p i f = .ok p') :
    (p'.chan i).events = f (p.chan i).events ∧ (p'.chan i).status ≠ .newChannel ∧
      ∀ j, j ≠ i → p'.chan j = p.chan j := by
  rcases setEvents_cases h with ⟨st, -, -, rfl⟩ | ⟨-, -, -, q, rfl, rfl⟩ | ⟨hst, -, -, rfl⟩
  · rw [updateEpollCtrl_chan]
    exact ⟨by simp, by simp, fun j hj => Function.update_of_ne hj ..⟩
  · exact ⟨by simp, by simp, fun j hj => Function.update_of_ne hj ..⟩
  · rw [updateEpollCtrl_chan]
    exact ⟨by simp, by simp [hst], fun j hj => Function.update_of_ne hj ..⟩

theorem setEvents_book {f : Mask → Mask} (h : Book fd p) (he : setEvents fd p i f = .ok p') :
    Book fd p' := by
  rcases setEvents_cases he with ⟨st, hst, hcase, rfl⟩ | ⟨hst, hl, -, q, rfl, rfl⟩ |
    ⟨hst, hl, -, rfl⟩
  · obtain ⟨hs, hl⟩ := h.addable hst hcase
    obtain ⟨_, rfl, hb, -⟩ := book_add h hs hl (f (p.chan i).events)
    exact hb
  · rw [updateEpollCtrl_list, updateEpollCtrl_del_interest]
    refine book_keep h hl (by simp) fun n j m hj => ?_
    by_cases hn : n = fd i
    · rw [hn, Function.update_self] at hj; cases hj
    · rw [Function.update_of_ne hn] at hj
      obtain ⟨h1, h2⟩ := h.polled n j m hj
      have hji : j ≠ i := fun hc => hn (by rw [← h1, hc])
      rw [Function.update_of_ne hji]
      exact ⟨h1, h2⟩
  · have hb : Book fd { p with
        chan := Function.update p.chan i { p.chan i with events := f (p.chan i).events } } := by
      refine book_keep h hl (by rw [hst]; decide) fun n j m hj => ?_
      obtain ⟨h1, h2⟩ := h.polled n j m hj
      refine ⟨h1, ?_⟩
      by_cases hji : j = i
      · rw [hji, Function.update_self]; exact hst
      · rw [Function.update_of_ne hji]; exact h2
    refine ⟨fun n j hj => ?_, fun j hj => ?_, fun n j m hj => ?_⟩
    · rw [updateEpollCtrl_list] at hj
      rw [updateEpollCtrl_chan]
      exact hb.listed n j hj
    · rw [updateEpollCtrl_chan] at hj
      rw [updateEpollCtrl_list]
      exact hb.known j hj
    · rw [updateEpollCtrl_chan]
      rcases updateEpollCtrl_mod_interest hj with ho | ⟨rfl, hi⟩
      · exact hb.polled n j m ho
      · cases hi
        dsimp only
        rw [Function.update_self]
        exact ⟨rfl, hst⟩

/-- What a successful removal does. -/
theorem removeEventChannel_cases (he : removeEventChannel fd p i = .ok p') :
    p.evtChannelList (fd i) = some i ∧ (p.chan i).events = Event.noneEventFlag ∧
      (p.chan i).status ≠ .newChannel ∧
      ∃ q, (q = p ∧ (p.chan i).status = .deleteChannel ∨
          q = updateEpollCtrl fd p .del i ∧ (p.chan i).status = .addedChannel) ∧
        p' = { q with
          chan := Function.update p.chan i { p.chan i with status := .newChannel }
          evtChannelList := Function.update p.evtChannelList (fd i) none } := by
  unfold removeEventChannel at he
  split_ifs at he with h1 h2 h3 h4 <;> rw [not_not] at h1 <;>
    simp only [Bool.not_eq_true', Bool.not_eq_false] at h2 <;> cases he
  · refine ⟨h1, (beq_iff_eq.1 h2).symm, h3, _, .inr ⟨rfl, h4⟩, ?_⟩
    rw [updateEpollCtrl_setList, setStatus, setList]
    simp only [updateEpollCtrl_chan, updateEpollCtrl_list]
  · refine ⟨h1, (beq_iff_eq.1 h2).symm, h3, p, .inl ⟨rfl, ?_⟩, rfl⟩
    cases hst : (p.chan i).status
    · exact absurd hst h3
    · exact absurd hst h4
    · rfl

theorem removeEventChannel_book (h : Book fd p) (he : removeEventChannel fd p i = .ok p') :
    Book fd p' ∧ (p'.chan i).status = .newChannel := by
  obtain ⟨hl, -, hs, q, hq, rfl⟩ := removeEventChannel_cases he
  have hk : ∀ n j m, q.interest n = some (j, m) → n ≠ fd i ∧ p.interest n = some (j, m) := by
    intro n j m hj
    rcases hq with ⟨rfl, hst⟩ | ⟨rfl, hst⟩
    · refine ⟨fun hn => ?_, hj⟩
      rw [hn, h.interest_none (.inr hl) (by rw [hst]; decide)] at hj
      cases hj
    · rw [updateEpollCtrl_del_interest] at hj
      by_cases hn : n = fd i
      · rw [hn, Function.update_self] at hj; cases hj
      · rw [Function.update_of_ne hn] at hj
        exact ⟨hn, hj⟩
  refine ⟨⟨fun n j hj => ?_, fun j hj => ?_, fun n j m hj => ?_⟩, ?_⟩ <;> dsimp only at *
  · by_cases hn : n = fd i
    · rw [hn, Function.update_self] at hj; cases hj
    · rw [Function.update_of_ne hn] at hj
      obtain ⟨h1, h2⟩ := h.listed n j hj
      have hji : j ≠ i := fun hc => hn (by rw [← h1, hc])
      rw [Function.update_of_ne hji]
      exact ⟨h1, h2⟩
  · by_cases hji : j = i
    · rw [hji, Function.update_self] at hj
      exact absurd rfl hj
    · rw [Function.update_of_ne hji] at hj
      have hjl := h.known j hj
      rw [Function.update_of_ne, hjl]
      intro hf
      rw [hf, hl, Option.some.injEq] at hjl
      exact hji hjl.symm
  · obtain ⟨hn, hj⟩ := hk n j m hj
    obtain ⟨h1, h2⟩ := h.polled n j m hj
    have hji : j ≠ i := fun hc => hn (by rw [← h1, hc])
    rw [Function.update_of_ne hji]
    exact ⟨h1, h2⟩
  · rw [Function.update_self]

/-- A removal makes its own channel unknown, and changes no other. -/
theorem removeEventChannel_chan (he : removeEventChannel fd p i = .ok p') :
    (p.chan i).events = Event.noneEventFlag ∧
      p'.chan i = { p.chan i with status := .newChannel } ∧ ∀ j, j ≠ i → p'.chan j = p.chan j := by
  obtain ⟨-, hev, -, q, -, rfl⟩ := removeEventChannel_cases he
  exact ⟨hev, Function.update_self .., fun j hj => Function.update_of_ne hj ..⟩

omit [DecidableEq ι] in
theorem dropFd_book (h : Book fd p) (n : Nat) : Book fd (p.dropFd n) := by
  refine ⟨h.listed, h.known, fun n' j m hj => h.polled n' j m ?_⟩
  by_cases hn : n' = n
  · rw [hn] at hj
    simp [dropFd] at hj
  · simpa [dropFd, Function.update_of_ne hn] using hj

theorem setRecievedEvent_book (h : Book fd p) (i : ι) (ev : Mask) :
    Book fd (p.setRecievedEvent i ev) := by
  have hst : ∀ j, ((p.setRecievedEvent i ev).chan j).status = (p.chan j).status := by
    intro j
    unfold setRecievedEvent
    by_cases hji : j = i
    · subst hji; simp
    · simp [Function.update_of_ne hji]
  exact ⟨fun n j hj => by rw [hst]; exact h.listed n j hj,
    fun j hj => h.known j (by rwa [hst] at hj), fun n j m hj => by rw [hst]; exact h.polled n j m hj⟩

/-! ## In step with the kernel -/

/-- The books, and what the kernel holds of every channel (module doc). -/
structure Synced (fd : ι → Nat) (p : EpollPoller ι) : Prop extends Book fd p where
  added : ∀ i, (p.chan i).status = .addedChannel →
    p.interest (fd i) = some (i, (p.chan i).events)
  noFailure : p.ctlFailures = 0

omit [DecidableEq ι] in
theorem synced_init : Synced fd (init : EpollPoller ι) :=
  ⟨book_init, fun _ h => by simp [init] at h, rfl⟩

omit [DecidableEq ι] in
/-- Two channels in the map have different descriptors. -/
theorem Book.fd_ne (h : Book fd p) {j : ι} (hl : p.evtChannelList (fd i) = some i)
    (hj : (p.chan j).status ≠ .newChannel) (hji : j ≠ i) : fd j ≠ fd i := by
  intro hf
  have := h.known j hj
  rw [hf, hl, Option.some.injEq] at this
  exact hji this.symm

/-- Only the entry of `i` has changed, with the channel's own mask if `i` is registered. -/
theorem Synced.of_entry (h : Synced fd p) (hb : Book fd p') {ch : EventChannel}
    {e : Option (ι × Mask)} (hc : p'.chan = Function.update p.chan i ch)
    (hk : p'.interest = Function.update p.interest (fd i) e) (hn : p'.ctlFailures = p.ctlFailures)
    (hi : ch.status = .addedChannel → e = some (i, ch.events))
    (hf : ∀ j, j ≠ i → (p.chan j).status = .addedChannel → fd j ≠ fd i) : Synced fd p' := by
  refine { hb with added := fun j hj => ?_, noFailure := hn.trans h.noFailure }
  rw [hc] at hj ⊢
  rw [hk]
  by_cases hji : j = i
  · subst hji
    rw [Function.update_self] at hj ⊢
    rw [Function.update_self]
    exact hi hj
  · rw [Function.update_of_ne hji] at hj ⊢
    rw [Function.update_of_ne (hf j hji hj)]
    exact h.added j hj

theorem setEvents_ok (h : Book fd p) (f : Mask → Mask)
    (ha : (p.chan i).status = .newChannel → p.evtChannelList (fd i) = none) :
    ∃ p', setEvents fd p i f = .ok p' := by
  unfold setEvents updateEventChannel
  simp only [Function.update_self]
  cases hst : (p.chan i).status with
  | newChannel => simp [ha hst]
  | addedChannel =>
    simp only [h.known i (by rw [hst]; decide)]
    split_ifs <;> simp_all
  | deleteChannel => simp [h.known i (by rw [hst]; decide)]

theorem setEvents_synced (h : Synced fd p) {f : Mask → Mask} (he : setEvents fd p i f = .ok p') :
    Synced fd p' := by
  have hb := setEvents_book h.toBook he
  rcases setEvents_cases he with ⟨st, hst, hcase, hp⟩ | ⟨hst, hl, -, q, hq, hp⟩ | ⟨hst, hl, -, hp⟩
  · obtain ⟨hs, hl⟩ := h.toBook.addable hst hcase
    obtain ⟨q, rfl, -, hk, hn⟩ := book_add h.toBook hs hl (f (p.chan i).events)
    rw [← hp] at hk hn
    refine h.of_entry hb (by rw [hp, updateEpollCtrl_chan]) hk hn (fun _ => rfl) fun j _ hj hf => ?_
    -- a registered channel of the same descriptor would stand in the interest set
    have := h.added j hj
    rw [hf, h.interest_none hl hs] at this
    cases this
  · have hk : updateEpollCtrl fd p .del i = _ := updateEpollCtrl_del (by rw [h.added i hst]; rfl)
    rw [hq, hk] at hp
    exact h.of_entry hb (by rw [hp]) (by rw [hp]) (by rw [hp]) (fun hc => by cases hc)
      fun j hji hj => h.fd_ne hl (by rw [hj]; decide) hji
  · rw [updateEpollCtrl_mod (by simp only; rw [h.added i hst]; rfl)] at hp
    refine h.of_entry hb (by rw [hp]) (by rw [hp]) (by rw [hp]) (fun _ => ?_)
      fun j hji hj => h.fd_ne hl (by rw [hj]; decide) hji
    simp only [Function.update_self]

theorem removeEventChannel_ok (h : Book fd p) (hs : (p.chan i).status ≠ .newChannel)
    (he : (p.chan i).isNoneEvent = true) : ∃ p', removeEventChannel fd p i = .ok p' := by
  unfold removeEventChannel
  simp [h.known i hs, he, hs]

theorem removeEventChannel_synced (h : Synced fd p) (he : removeEventChannel fd p i = .ok p') :
    Synced fd p' := by
  have hb := (removeEventChannel_book h.toBook he).1
  obtain ⟨hl, -, hs, q, hq, hp⟩ := removeEventChannel_cases he
  have hk : q.interest = Function.update p.interest (fd i) none ∧
      q.ctlFailures = p.ctlFailures := by
    rcases hq with ⟨rfl, hst⟩ | ⟨rfl, hst⟩
    · have := h.interest_none (.inr hl) (by rw [hst]; decide)
      exact ⟨(Function.update_eq_self_iff.2 this.symm).symm, rfl⟩
    · rw [updateEpollCtrl_del (by rw [h.added i hst]; rfl)]
      exact ⟨rfl, rfl⟩
  refine h.of_entry hb (by rw [hp]) (by rw [hp]; exact hk.1) (by rw [hp]; exact hk.2)
    (fun hc => by cases hc) fun j hji hj => h.fd_ne hl (by rw [hj]; decide) hji

/-! ## Sequences of channel operations -/

/-- The operations of `EventChannel` on its loop. -/
inductive ChanOp (ι : Type)
  | enableReading (i : ι)
  | disableReading (i : ι)
  | enableWriting (i : ι)
  | disableWriting (i : ι)
  | disableAll (i : ι)
  | removeFromLoop (i : ι)
  deriving DecidableEq

/-- Run an operation; a failed assert ends in `error`. -/
def apply (fd : ι → Nat) (p : EpollPoller ι) : ChanOp ι → Except PollerAssert (EpollPoller ι)
  | .enableReading i => p.enableReading fd i
  | .disableReading i => p.disableReading fd i
  | .enableWriting i => p.enableWriting fd i
  | .disableWriting i => p.disableWriting fd i
  | .disableAll i => p.disableAll fd i
  | .removeFromLoop i => p.removeFromLoop fd i

/-- What the code asserts of its callers: `RemoveFromLoop` only on a channel that is not new and
has no events, a new channel updated only when no other channel of its descriptor is in the
map. -/
def Allowed (fd : ι → Nat) (p : EpollPoller ι) : ChanOp ι → Prop
  | .enableReading i | .disableReading i | .enableWriting i | .disableWriting i | .disableAll i =>
    (p.chan i).status = .newChannel → ∀ j ∈ p.evtChannelList (fd i), j = i
  | .removeFromLoop i => (p.chan i).status ≠ .newChannel ∧ (p.chan i).isNoneEvent = true

instance (p : EpollPoller ι) : ∀ op, Decidable (Allowed fd p op)
  | .enableReading i | .disableReading i | .enableWriting i | .disableWriting i | .disableAll i =>
    inferInstanceAs (Decidable ((p.chan i).status = .newChannel → ∀ j ∈ p.evtChannelList (fd i),
      j = i))
  | .removeFromLoop _ => inferInstanceAs (Decidable (_ ∧ _))

def step (fd : ι → Nat) (p : EpollPoller ι) (op : ChanOp ι) : Option (EpollPoller ι) :=
  (apply fd p op).toOption

omit [DecidableEq ι] in
/-- An allowed update finds no other channel under its descriptor. -/
theorem Book.list_none (h : Book fd p)
    (ha : (p.chan i).status = .newChannel → ∀ j ∈ p.evtChannelList (fd i), j = i)
    (hs : (p.chan i).status = .newChannel) : p.evtChannelList (fd i) = none := by
  cases hl : p.evtChannelList (fd i) with
  | none => rfl
  | some j =>
    have hji : j = i := ha hs j hl
    subst hji
    exact absurd hs (h.listed _ _ hl).2

theorem apply_synced (h : Synced fd p) {op : ChanOp ι} (ha : Allowed fd p op) :
    ∃ p', apply fd p op = .ok p' ∧ Synced fd p' := by
  have upd : ∀ i f, ((p.chan i).status = .newChannel → ∀ j ∈ p.evtChannelList (fd i), j = i) →
      ∃ p', setEvents fd p i f = .ok p' ∧ Synced fd p' := by
    intro i f ha
    obtain ⟨p', hp⟩ := setEvents_ok h.toBook f (h.list_none ha)
    exact ⟨p', hp, setEvents_synced h hp⟩
  cases op with
  | enableReading i => exact upd i (· ||| Event.readEventFlag) ha
  | disableReading i => exact upd i (· &&& ~~~Event.readEventFlag) ha
  | enableWriting i => exact upd i (· ||| Event.writeEventFlag) ha
  | disableWriting i => exact upd i (· &&& ~~~Event.writeEventFlag) ha
  | disableAll i => exact upd i (fun _ => Event.noneEventFlag) ha
  | removeFromLoop i =>
    obtain ⟨p', hp⟩ := removeEventChannel_ok h.toBook ha.1 ha.2
    exact ⟨p', hp, removeEventChannel_synced h hp⟩

/-- **The poller's bookkeeping refines the kernel's interest set.** After every sequence of allowed
operations on any channels the status of a channel says where it is: nowhere, in the map and
registered with exactly its mask, or in the map only; no `epoll_ctl` has failed, and every allowed
operation passes all asserts. -/
theorem poller_refines_interest (h : Runs.Reach (step fd) (Allowed fd) init p) :
    (∀ i, ((p.chan i).status = .newChannel ↔ ∀ n, p.evtChannelList n ≠ some i) ∧
      ((p.chan i).status = .newChannel → ∀ m, p.interest (fd i) ≠ some (i, m)) ∧
      ((p.chan i).status = .addedChannel ↔ p.evtChannelList (fd i) = some i ∧
        p.interest (fd i) = some (i, (p.chan i).events)) ∧
      ((p.chan i).status = .deleteChannel ↔ p.evtChannelList (fd i) = some i ∧
        p.interest (fd i) = none)) ∧
    p.ctlFailures = 0 ∧ ∀ op, Allowed fd p op → ∃ p', apply fd p op = .ok p' := by
  have hs : Synced fd p := by
    refine h.inv synced_init fun q op q' _ hq ha hstep => ?_
    obtain ⟨q'', hok, hsync⟩ := apply_synced hq ha
    rw [step, hok] at hstep
    cases hstep
    exact hsync
  refine ⟨fun i => ⟨⟨fun hn => (hs.out hn).1, fun hl => ?_⟩, fun hn => (hs.out hn).2 _, ?_, ?_⟩,
    hs.noFailure, fun op ha => ?_⟩
  · by_contra hn
    exact hl _ (hs.known i hn)
  · refine ⟨fun ha => ⟨hs.known i (by rw [ha]; decide), hs.added i ha⟩, fun ha => ?_⟩
    exact (hs.polled _ _ _ ha.2).2
  · refine ⟨fun hd => ?_, fun ⟨hl, hk⟩ => ?_⟩
    · have hl := hs.known i (by rw [hd]; decide)
      exact ⟨hl, hs.interest_none (.inr hl) (by rw [hd]; decide)⟩
    · cases hst : (p.chan i).status with
      | newChannel => exact absurd hst (hs.listed _ _ hl).2
      | addedChannel => rw [hs.added i hst] at hk; cases hk
      | deleteChannel => rfl
  · obtain ⟨p', hp, -⟩ := apply_synced hs ha
    exact ⟨p', hp⟩

/-- Two channels of descriptor 5 in succession; the second is disarmed twice, which registers it
again with an empty mask. -/
theorem poller_refines_interest_succession :
    ∃ p : EpollPoller Bool, Runs.run (step fun _ => 5) init
        [.enableWriting false, .disableAll false, .removeFromLoop false, .enableReading true,
          .disableReading true, .disableAll true] = some p ∧
      (p.chan true).status = .addedChannel ∧ p.evtChannelList 5 = some true ∧
      p.interest 5 = some (true, 0) ∧ p.ctlFailures = 0 := by
  have hr : Runs.Reach (step fun _ => 5) (Allowed fun _ => 5) init _ := Runs.Reach.of_run
    [.enableWriting false, .disableAll false, .removeFromLoop false, .enableReading true,
      .disableReading true, .disableAll true] rfl (by decide)
  obtain ⟨h, hn, -⟩ := poller_refines_interest hr
  obtain ⟨hl, hk⟩ := (h true).2.2.1.1 (by decide)
  exact ⟨_, rfl, by decide, hl, hk, hn⟩

/-! ## Disarmed channels -/

/-- The channel and the mask an update leaves it with. -/
def ChanOp.leaves (p : EpollPoller ι) : ChanOp ι → Option (ι × Mask)
  | .enableReading i => some (i, (p.chan i).events ||| Event.readEventFlag)
  | .disableReading i => some (i, (p.chan i).events &&& ~~~Event.readEventFlag)
  | .enableWriting i => some (i, (p.chan i).events ||| Event.writeEventFlag)
  | .disableWriting i => some (i, (p.chan i).events &&& ~~~Event.writeEventFlag)
  | .disableAll i => some (i, Event.noneEventFlag)
  | .removeFromLoop _ => none

/-- A call that leaves no events is made on an `ADDED_CHANNEL` channel: the empty mask is looked at
in that status only. -/
def DisarmsAdded (p : EpollPoller ι) (op : ChanOp ι) : Prop :=
  ∀ i ∈ op.leaves p, i.2 = Event.noneEventFlag → (p.chan i.1).status = .addedChannel

instance (p : EpollPoller ι) (op : ChanOp ι) : Decidable (DisarmsAdded p op) :=
  inferInstanceAs (Decidable (∀ i ∈ op.leaves p, _ → _))

/-- In step with the kernel, and what is `ADDED_CHANNEL` has events. -/
structure Armed (fd : ι → Nat) (p : EpollPoller ι) : Prop extends Synced fd p where
  armed : ∀ i, (p.chan i).status = .addedChannel → (p.chan i).events ≠ Event.noneEventFlag

theorem setEvents_armed (h : Armed fd p) {f : Mask → Mask} (he : setEvents fd p i f = .ok p')
    (hd : f (p.chan i).events = Event.noneEventFlag → (p.chan i).status = .addedChannel) :
    Armed fd p' := by
  obtain ⟨hev, -, hne⟩ := setEvents_chan he
  refine ⟨setEvents_synced h.toSynced he, fun j hj => ?_⟩
  by_cases hji : j = i
  · subst hji
    rw [hev]
    intro hf
    -- an empty mask makes it `DELETE_CHANNEL`
    rcases setEvents_cases he with ⟨st, hst, hcase, -⟩ | ⟨-, -, -, q, -, rfl⟩ | ⟨-, -, hf', -⟩
    · rw [hd hf] at hst
      subst hst
      rcases hcase with ⟨h, -⟩ | ⟨h, -⟩ <;> cases h
    · simp at hj
    · exact hf' hf
  · rw [hne j hji] at hj ⊢
    exact h.armed j hj

theorem removeEventChannel_armed (h : Armed fd p) (he : removeEventChannel fd p i = .ok p') :
    Armed fd p' := by
  obtain ⟨-, hi, hne⟩ := removeEventChannel_chan he
  refine ⟨removeEventChannel_synced h.toSynced he, fun j hj => ?_⟩
  by_cases hji : j = i
  · subst hji
    rw [hi] at hj
    cases hj
  · rw [hne j hji] at hj ⊢
    exact h.armed j hj

/-- An update is a new mask in `events_`. -/
theorem apply_leaves {op : ChanOp ι} {m : Mask} (h : op.leaves p = some (i, m)) :
    apply fd p op = setEvents fd p i fun _ => m := by
  cases op <;> cases h <;> rfl

theorem apply_armed (h : Armed fd p) {op : ChanOp ι} (hd : DisarmsAdded p op)
    (he : apply fd p op = .ok p') : Armed fd p' := by
  cases hl : op.leaves p with
  | none =>
    cases op with
    | removeFromLoop i => exact removeEventChannel_armed h he
    | _ => cases hl
  | some x =>
    rw [apply_leaves hl] at he
    exact setEvents_armed h he (hd x hl)

/-- **A disarmed channel is out of epoll**, if calls that leave no events are made on
`ADDED_CHANNEL` channels: what is registered, is registered for a channel with events, with its own
mask; so a descriptor of one channel is registered only while that channel has events. -/
theorem disarmed_not_registered
    (h : Runs.Reach (step fd) (fun p op => Allowed fd p op ∧ DisarmsAdded p op) init p) :
    (∀ n i m, p.interest n = some (i, m) →
      fd i = n ∧ m = (p.chan i).events ∧ (p.chan i).events ≠ Event.noneEventFlag) ∧
    ∀ i, (∀ j, fd j = fd i → j = i) → p.interest (fd i) ≠ none →
      (p.chan i).events ≠ Event.noneEventFlag := by
  have ha : Armed fd p := by
    refine h.inv (I := Armed fd) ⟨synced_init, fun _ h => by simp [init] at h⟩
      fun q op q' _ hq hP hstep => ?_
    obtain ⟨q'', hok, -⟩ := apply_synced hq.toSynced hP.1
    rw [step, hok] at hstep
    cases hstep
    exact apply_armed hq hP.2 hok
  have hreg : ∀ n i m, p.interest n = some (i, m) →
      fd i = n ∧ m = (p.chan i).events ∧ (p.chan i).events ≠ Event.noneEventFlag := by
    intro n i m hm
    obtain ⟨rfl, hst⟩ := ha.polled n i m hm
    rw [ha.added i hst] at hm
    cases hm
    exact ⟨rfl, rfl, ha.armed i hst⟩
  refine ⟨hreg, fun i hi hne => ?_⟩
  obtain ⟨⟨j, m⟩, hm⟩ := Option.ne_none_iff_exists'.1 hne
  obtain ⟨hj, -, hev⟩ := hreg _ j m hm
  obtain rfl := hi j hj
  exact hev

/-- A channel that reads and writes, and stops. -/
theorem disarmed_not_registered_unit :
    ∃ p : EpollPoller Unit, Runs.run (step fun _ => 5) init
        [.enableReading (), .enableWriting (), .disableWriting (), .enableWriting (),
          .disableReading ()] = some p ∧
      p.interest 5 = some ((), Event.writeEventFlag) ∧
      (p.chan ()).events ≠ Event.noneEventFlag := by
  have hr : Runs.Reach (step fun _ => 5) (fun p op => Allowed (fun _ => 5) p op ∧ DisarmsAdded p op)
      init _ := Runs.Reach.of_run
    [.enableReading (), .enableWriting (), .disableWriting (), .enableWriting (),
      .disableReading ()] rfl (by decide)
  exact ⟨_, rfl, by decide, (disarmed_not_registered hr).2 () (fun _ _ => rfl) (by decide)⟩

/-- A redundant call: the channel has no events after `DisableReading`, and `DisableAll` registers it
again, with the empty mask. -/
theorem disarmed_registered :
    ∃ p : EpollPoller Unit, Runs.run (step fun _ => 5) init
        [.enableReading (), .disableReading (), .disableAll ()] = some p ∧
      p.interest 5 = some ((), Event.noneEventFlag) ∧
      (p.chan ()).events = Event.noneEventFlag :=
  ⟨_, rfl, by decide, by decide⟩

end EpollPoller

end Liang.Net
