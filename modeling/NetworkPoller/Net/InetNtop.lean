import NetworkPoller.Net.SocketAddr

/-!
# The texts of `inet_ntop`

`inet_ntop` as glibc has it. An IPv4 address is four decimal numbers. An IPv6 address is eight
hexadecimal groups, where `::` stands for the first of the longest runs of zero groups if it is of two
groups at least; addresses of the form `::a.b.c.d` and `::ffff:a.b.c.d` end in an IPv4 address.
-/

namespace Liang.Net.Inet

/-- `"%x"`. -/
def hex (w : Nat) : Text := Nat.toDigits 16 w

/-- `"%u.%u.%u.%u"`. -/
def dotted (bs : List Nat) : Text := ['.'].intercalate (bs.map decimal)

/-- The groups of an IPv6 address. -/
def words : List UInt8 → List Nat
  | a :: b :: bs => (a.toNat * 256 + b.toNat) :: words bs
  | _ => []

def bytes (ws : List Nat) : List Nat := ws.flatMap fun w => [w / 256, w % 256]

/-- How many zero groups stand in front. -/
def zeros (ws : List Nat) : Nat := (ws.takeWhile (· = 0)).length

/-- Where the first of the longest runs of zero groups starts, and its length. -/
def bestRun : List Nat → Nat × Nat
  | [] => (0, 0)
  | w :: ws =>
    if (bestRun ws).2 ≤ zeros (w :: ws) ∧ 0 < zeros (w :: ws) then (0, zeros (w :: ws))
    else ((bestRun ws).1 + 1, (bestRun ws).2)

/-- The groups behind a run of `len` groups at `base`. -/
def tail (base len : Nat) (after : List Nat) : List Text :=
  if base = 0 ∧ (len = 6 ∨ len = 5 ∧ after.head? = some 0xffff) then
    (after.take (after.length - 2)).map hex ++ [dotted (bytes (after.drop (after.length - 2)))]
  else after.map hex

/-- At an end of the text the run has an empty piece more. -/
def atEnd (pieces : List Text) : List Text := if pieces = [] then [[]] else pieces

/-- What stands between the colons: a run is an empty piece. -/
def pieces (ws : List Nat) : List Text :=
  if (bestRun ws).2 < 2 then ws.map hex
  else
    atEnd ((ws.take (bestRun ws).1).map hex) ++ [[]] ++
      atEnd (tail (bestRun ws).1 (bestRun ws).2 (ws.drop ((bestRun ws).1 + (bestRun ws).2)))

def text4 (a : InAddr) : Text := dotted (a.toList.map (·.toNat))

def text6 (a : In6Addr) : Text := [':'].intercalate (pieces (words a.toList))

end Liang.Net.Inet
