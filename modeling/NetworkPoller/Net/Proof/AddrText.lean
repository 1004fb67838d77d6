import Mathlib.Data.List.Basic
import NetworkPoller.Net.Proof.InetText

/-!
# Addresses that have the same text

`ToString` puts a colon between an IPv4 address and its port, and nothing between an IPv6 address and its
port. The text of an address is therefore its own unless both are IPv6 addresses and the digits of one's
port can be read as the end of the other's address (`Confused`); names of connections are their own
exactly then too (`addr_text_unambiguous`, `addr_text_shared`).
-/

namespace Liang.Net

open SocketAddr

variable {ntop : InetNtop} {a b : SocketAddr}

/-! ## The text -/

theorem ntohs_injective : Function.Injective ntohs := by
  intro p q h
  have := p.toNat_lt
  have := q.toNat_lt
  refine UInt16.toNat_inj.1 ?_
  simp only [ntohs] at h
  omega

theorem decimal_injective : Function.Injective decimal := by
  intro m n h
  have hread := congrArg (fun t => Nat.ofDigitChars 10 t 0) h
  simpa [decimal] using hread

theorem port_length (p : UInt16) : (decimal (ntohs p)).length ≤ 5 := by
  refine Inet.decimal_length (by decide) ?_
  have := p.toNat_lt
  simp only [ntohs]
  omega

/-- The buffer has room for an address and a port. -/
theorem snprintf_fits {buf text : Text} (hb : buf.length ≤ 45) (ht : text.length ≤ 6) :
    snprintf bufSize (stored bufSize buf) text = buf ++ text := by
  have hfits : buf.length < bufSize := Nat.lt_of_le_of_lt hb (by decide)
  rw [stored, if_pos hfits, snprintf, List.take_of_length_le]
  simp only [bufSize]
  omega

theorem toString_inet (addr : InAddr) (port : UInt16) :
    (inet addr port).toString ntop = ntop.text4 addr ++ ':' :: decimal (ntohs port) :=
  snprintf_fits (ntop.length4 addr) (Nat.succ_le_succ (port_length port))

theorem toString_inet6 (addr : In6Addr) (port : UInt16) :
    (inet6 addr port).toString ntop = ntop.text6 addr ++ decimal (ntohs port) :=
  snprintf_fits (ntop.length6 addr) (Nat.le_succ_of_le (port_length port))

theorem colon_not_mem_text4 (addr : InAddr) : ':' ∉ ntop.text4 addr :=
  fun h => absurd (ntop.chars4 addr _ h) (by decide)

theorem colon_not_mem_decimal (n : Nat) : ':' ∉ decimal n :=
  fun h => absurd (Inet.mem_decimal h) (by decide)

/-- An IPv4 address has one colon, an IPv6 address two at least. -/
theorem toString_ne (addr : InAddr) (addr' : In6Addr) (p q : UInt16) :
    (inet addr p).toString ntop ≠ (inet6 addr' q).toString ntop := by
  intro h
  rw [toString_inet, toString_inet6] at h
  have hcount := congrArg (List.count ':') h
  have hcolons := ntop.colons6 addr'
  rw [List.count_append, List.count_cons_self, List.count_append,
    List.count_eq_zero.2 (colon_not_mem_text4 addr), List.count_eq_zero.2 (colon_not_mem_decimal _),
    List.count_eq_zero.2 (colon_not_mem_decimal _)] at hcount
  omega

theorem underscore_not_mem (a : SocketAddr) : '_' ∉ a.toString ntop := by
  have hdec : ∀ n, '_' ∉ decimal n := fun n h => absurd (Inet.mem_decimal h) (by decide)
  cases a with
  | inet addr port =>
    rw [toString_inet, List.mem_append, List.mem_cons]
    rintro (h | h | h)
    · exact absurd (ntop.chars4 addr _ h) (by decide)
    · cases h
    · exact hdec _ h
  | inet6 addr port =>
    rw [toString_inet6, List.mem_append]
    rintro (h | h)
    · exact absurd (ntop.chars6 addr _ h) (by decide)
    · exact hdec _ h

/-! ## Which addresses share a text -/

/-- Both are IPv6 addresses, the text of `b` is the text of `a` with the first digits of `a`'s port, and
the rest of these is the port of `b`. -/
def RunsOn (ntop : InetNtop) : SocketAddr → SocketAddr → Prop
  | inet6 addr port, inet6 addr' port' => ∃ digits, digits ≠ [] ∧
      ntop.text6 addr' = ntop.text6 addr ++ digits ∧
      decimal (ntohs port) = digits ++ decimal (ntohs port')
  | _, _ => False

/-- The port of one runs on from the address of the other. -/
def Confused (ntop : InetNtop) (a b : SocketAddr) : Prop := RunsOn ntop a b ∨ RunsOn ntop b a

theorem RunsOn.text_eq (h : RunsOn ntop a b) : a.toString ntop = b.toString ntop := by
  cases a <;> cases b
  case inet6.inet6 addr port addr' port' =>
    obtain ⟨d, -, ht, hp⟩ := h
    rw [toString_inet6, toString_inet6, ht, hp, List.append_assoc]
  all_goals exact h.elim

section

variable {addr : In6Addr} {port port' : UInt16}

/-- No port runs on from its own address. -/
theorem not_runsOn : ¬ RunsOn ntop (inet6 addr port) (inet6 addr port') := by
  rintro ⟨d, hd, ht, -⟩
  exact hd (List.append_right_eq_self.1 ht.symm)

theorem not_confused : ¬ Confused ntop (inet6 addr port) (inet6 addr port') :=
  fun h => h.elim not_runsOn not_runsOn

end

theorem RunsOn.ne (h : RunsOn ntop a b) : a ≠ b := by
  rintro rfl
  cases a with
  | inet => exact h
  | inet6 addr port => exact not_runsOn h

theorem Confused.text_eq (h : Confused ntop a b) : a.toString ntop = b.toString ntop :=
  h.elim RunsOn.text_eq fun h => h.text_eq.symm

theorem Confused.ne (h : Confused ntop a b) : a ≠ b := h.elim RunsOn.ne fun h => h.ne.symm

/-- Where the text of an IPv6 address goes on inside the other's, digits have changed sides. -/
theorem RunsOn.of_text {addr addr' : In6Addr} {port port' : UInt16} {digits : Text}
    (ht : ntop.text6 addr' = ntop.text6 addr ++ digits)
    (hp : decimal (ntohs port) = digits ++ decimal (ntohs port')) :
    inet6 addr port = inet6 addr' port' ∨ RunsOn ntop (inet6 addr port) (inet6 addr' port') := by
  by_cases hd : digits = []
  · rw [hd, List.append_nil] at ht
    rw [hd, List.nil_append] at hp
    rw [ntop.injective6 ht, ntohs_injective (decimal_injective hp)]
    exact .inl rfl
  · exact .inr ⟨digits, hd, ht, hp⟩

/-- Two addresses share a text if they are equal or confused. -/
theorem text_eq_iff : a.toString ntop = b.toString ntop ↔ a = b ∨ Confused ntop a b := by
  refine ⟨fun h => ?_, fun h => h.elim (fun h => by rw [h]) Confused.text_eq⟩
  cases a with
  | inet addr port =>
    cases b with
    | inet addr' port' =>
      rw [toString_inet, toString_inet,
        List.append_cons_inj_of_notMem (colon_not_mem_text4 addr) (colon_not_mem_decimal _)] at h
      obtain ⟨ha, -, hp⟩ := h
      rw [ntop.injective4 ha, ntohs_injective (decimal_injective hp)]
      exact .inl rfl
    | inet6 addr' port' => exact (toString_ne addr addr' port port' h).elim
  | inet6 addr port =>
    cases b with
    | inet addr' port' => exact (toString_ne addr' addr port' port h.symm).elim
    | inet6 addr' port' =>
      rw [toString_inet6, toString_inet6, List.append_eq_append_iff] at h
      rcases h with ⟨digits, ht, hp⟩ | ⟨digits, ht, hp⟩
      · exact (RunsOn.of_text ht hp).imp_right .inl
      · exact (RunsOn.of_text ht hp).imp Eq.symm .inr

theorem name_eq_iff {l p l' p' : SocketAddr} :
    TcpConnection.name ntop l p = TcpConnection.name ntop l' p' ↔
      l.toString ntop = l'.toString ntop ∧ p.toString ntop = p'.toString ntop := by
  rw [TcpConnection.name, TcpConnection.name,
    List.append_cons_inj_of_notMem (underscore_not_mem l) (underscore_not_mem p)]
  exact ⟨fun h => ⟨h.1, h.2.2⟩, fun h => ⟨h.1, rfl, h.2⟩⟩

/-- **Texts of addresses and names of connections.** Two addresses with the same text are equal, exactly
if they are not confused. Two connections with the same name have the same addresses, exactly if it is
not so that one of the local and peer addresses is confused with the other's, and the other one is equal
or confused too. -/
theorem addr_text_unambiguous (ntop : InetNtop) :
    (∀ a b : SocketAddr, (a.toString ntop = b.toString ntop → a = b) ↔ ¬ Confused ntop a b) ∧
    ∀ l p l' p' : SocketAddr,
      (TcpConnection.name ntop l p = TcpConnection.name ntop l' p' → (l, p) = (l', p')) ↔
        ¬ (Confused ntop l l' ∧ (p = p' ∨ Confused ntop p p') ∨
          Confused ntop p p' ∧ (l = l' ∨ Confused ntop l l')) := by
  refine ⟨fun a b => ?_, fun l p l' p' => ?_⟩
  · rw [text_eq_iff]
    exact ⟨fun h hc => hc.ne (h (.inr hc)), fun h heq => heq.resolve_right h⟩
  · rw [name_eq_iff, text_eq_iff, text_eq_iff, Prod.mk.injEq]
    constructor
    · rintro h (⟨hl, hp⟩ | ⟨hp, hl⟩)
      · exact hl.ne (h ⟨.inr hl, hp⟩).1
      · exact hp.ne (h ⟨hl, .inr hp⟩).2
    · rintro h ⟨hl, hp⟩
      exact ⟨hl.resolve_right fun hc => h (.inl ⟨hc, hp⟩), hp.resolve_right fun hc => h (.inr ⟨hc, hl⟩)⟩

/-- The address `::n`, for a byte that is not 0. -/
def lowAddr (n : UInt8) : In6Addr := #v[0, 0, 0, 0, 0, 0, 0, 0, 0, 0, 0, 0, 0, 0, 0, n]

/-- A small port in network byte order. -/
def htons (n : UInt8) : UInt16 := n.toUInt16 * 256

/-- `::1` with port 23 and `::12` with port 34 are `::123` and `::1234`, so they are not confused; `::1`
with the ports 23 and 34 is not confused, so it has two texts, and connections from it two names. -/
theorem addr_text_unambiguous_sample :
    ¬ Confused Inet.inetNtop (inet6 (lowAddr 0x1) (htons 23)) (inet6 (lowAddr 0x12) (htons 34)) ∧
    (inet6 (lowAddr 0x1) (htons 23)).toString Inet.inetNtop ≠
      (inet6 (lowAddr 0x1) (htons 34)).toString Inet.inetNtop ∧
    TcpConnection.name Inet.inetNtop (inet6 (lowAddr 0x1) (htons 23))
        (inet6 (lowAddr 0x1) (htons 80)) ≠
      TcpConnection.name Inet.inetNtop (inet6 (lowAddr 0x1) (htons 34))
        (inet6 (lowAddr 0x1) (htons 80)) := by
  obtain ⟨htext, hname⟩ := addr_text_unambiguous Inet.inetNtop
  have hne : inet6 (lowAddr 0x1) (htons 23) ≠ inet6 (lowAddr 0x1) (htons 34) := by decide
  refine ⟨(htext _ _).1 fun h => absurd h ?_, fun h => hne ((htext _ _).2 not_confused h),
    fun h => hne (Prod.mk.inj ((hname _ _ _ _).2 ?_ h)).1⟩
  · decide +kernel
  · rintro (⟨hc, -⟩ | ⟨hc, -⟩) <;> exact not_confused hc

/-- `::1` with port 23 and `::12` with port 3 are both `::123`, and connections from them to the same
peer have the same name. -/
theorem addr_text_shared :
    (inet6 (lowAddr 0x1) (htons 23)).toString Inet.inetNtop = "::123".toList ∧
    (inet6 (lowAddr 0x12) (htons 3)).toString Inet.inetNtop = "::123".toList ∧
    inet6 (lowAddr 0x1) (htons 23) ≠ inet6 (lowAddr 0x12) (htons 3) ∧
    (TcpConnection.name Inet.inetNtop (inet6 (lowAddr 0x1) (htons 23))
        (inet6 (lowAddr 0x1) (htons 80)) =
      TcpConnection.name Inet.inetNtop (inet6 (lowAddr 0x12) (htons 3))
        (inet6 (lowAddr 0x1) (htons 80))) := by
  decide +kernel

end Liang.Net
