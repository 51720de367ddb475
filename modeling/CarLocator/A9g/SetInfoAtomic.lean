import CarLocator.A9g.SetInfo

/-!
# `CarLocator.A9g.SetInfoAtomic`: `a9g_netdev_set_info`, all or nothing

`a9g_netdev_set_info` writes the netdev in three stages, the flags, the hardware address and the
IP address, with failures before each of the last two. None of them undoes what was written.
`setInfo_allOrNothing_iff` states when the call is all or nothing: a failure comes to nothing
only if the stages before it wrote what was there already, and a success is complete only if
the modem answered with a dotted quad, since the result of `inet_aton` is not looked at.

`inetAton_quad` is what `inet_aton` makes of a dotted quad.
-/

set_option autoImplicit false

namespace CarLocator.A9g

open CarLocator.At
open CarLocator.Library

/-! ### Dotted quads -/

/-- Four numbers of a byte. -/
structure Quad where
  a : UInt8
  b : UInt8
  c : UInt8
  d : UInt8
  deriving DecidableEq, Repr

/-- The dotted quad, without leading zeros. -/
def Quad.text (q : Quad) : Bytes :=
  decimal q.a.toNat ++ 46 :: (decimal q.b.toNat ++ 46 :: (decimal q.c.toNat ++ 46 ::
    decimal q.d.toNat))

/-- The address, in host order. -/
def Quad.value (q : Quad) : Nat :=
  q.a.toNat * 2 ^ 24 + q.b.toNat * 2 ^ 16 + q.c.toNat * 2 ^ 8 + q.d.toNat

/-- `inet_aton` on the digits of a number in base 10. -/
theorem atonDigits_digits (ds : Bytes) (hds : ∀ b ∈ ds, isDigit b = true) (val : UInt32)
    {rest : Bytes} (hrest : ∀ b ∈ rest.head?, isDigit b = false) :
    atonDigits 10 val (ds ++ rest)
      = (val * UInt32.ofNat (10 ^ ds.length) + UInt32.ofNat (decVal ds), rest) := by
  induction ds generalizing val with
  | nil =>
      cases rest with
      | nil => simp [atonDigits]
      | cons b rest =>
          have hb : atonDigit b = false := hrest b (by simp)
          simp [atonDigits, hb]
  | cons d ds ih =>
      have hd : atonDigit d = true := hds d (by simp)
      have hval : (d - 48).toUInt32 = UInt32.ofNat (digitVal d) := by
        have h := (isDigit_iff d).mp (hds d (by simp))
        apply UInt32.toNat_inj.mp
        rw [UInt8.toNat_toUInt32, UInt8.toNat_sub_of_le _ _ (by
          rw [UInt8.le_iff_toNat_le]; exact h.1), digitVal, UInt32.toNat_ofNat']
        show d.toNat - 48 = _
        omega
      have hsplit : decVal (d :: ds) = digitVal d * 10 ^ ds.length + decVal ds := by
        rw [show d :: ds = [d] ++ ds from rfl, decVal_append, decVal_singleton]
      -- one digit more in the value, modulo 2 ^ 32
      rw [List.cons_append, atonDigits, if_pos hd, ih fun b hb => hds b (by simp [hb])]
      rw [hval, hsplit, List.length_cons, pow_succ', UInt32.ofNat_add, UInt32.ofNat_mul,
        UInt32.ofNat_mul, UInt32.add_mul, UInt32.mul_assoc, UInt32.add_assoc]
      rfl

/-- `inet_aton` on one number of a quad. The number 0 goes through base 8, every other one starts
with a digit that is not 0. -/
theorem atonNumber_decimal (n : UInt8) {rest : Bytes}
    (hrest : ∀ b ∈ rest.head?, isDigit b = false ∧ b ≠ 120 ∧ b ≠ 88) :
    atonNumber (decimal n.toNat ++ rest) = some (n.toUInt32, rest) := by
  have hdigits : ∀ b ∈ decimal n.toNat, isDigit b = true := fun b hb =>
    isDigit_of_mem_decimal hb
  have hnot : ∀ b ∈ rest.head?, isDigit b = false := fun b hb => (hrest b hb).1
  have hval : UInt32.ofNat n.toNat = n.toUInt32 := by
    apply UInt32.toNat_inj.mp
    have hn := n.toNat_lt
    rw [UInt8.toNat_toUInt32, UInt32.toNat_ofNat', Nat.mod_eq_of_lt (by omega)]
  -- a leading zero asks for base 8, so the number 0 goes another way
  by_cases hzero : n.toNat = 0
  · have hn : n.toUInt32 = 0 := by rw [← hval, hzero]; rfl
    rw [hzero, hn, decimal, if_pos rfl, List.singleton_append]
    cases rest with
    | nil => rfl
    | cons c rest =>
        obtain ⟨hdigit, h120, h88⟩ := hrest c rfl
        have hc : atonDigit c = false := hdigit
        have h48 : atonDigit 48 = true := rfl
        simp [atonNumber, atonDigits, hc, h48, h120, h88]
  · obtain ⟨d, ds, hd, hne⟩ := decimal_head hzero
    have hten := atonDigits_digits (decimal n.toNat) hdigits 0 hnot
    have hdig : atonDigit d = true := hdigits d (by simp [hd])
    rw [decVal_decimal, hval, UInt32.zero_mul, UInt32.zero_add] at hten
    rw [hd, List.cons_append] at hten ⊢
    unfold atonNumber
    simp only [hdig, hne, Bool.true_eq_false, if_false, hten]

/-- A byte shifted to its place. -/
theorem toNat_shiftLeft_byte (n : UInt8) {s : UInt32} (hs : s.toNat ≤ 24) :
    (n.toUInt32 <<< s).toNat = n.toNat * 2 ^ s.toNat := by
  have hmul : n.toNat * 2 ^ s.toNat < 2 ^ 32 := by
    calc n.toNat * 2 ^ s.toNat
        < 2 ^ 8 * 2 ^ s.toNat := Nat.mul_lt_mul_of_pos_right n.toNat_lt (by positivity)
      _ ≤ 2 ^ 8 * 2 ^ 24 := Nat.mul_le_mul_left _ (Nat.pow_le_pow_right (by decide) hs)
      _ = 2 ^ 32 := by decide
  rw [UInt32.toNat_shiftLeft, UInt8.toNat_toUInt32, Nat.mod_eq_of_lt (show s.toNat < 32 by omega),
    Nat.shiftLeft_eq, Nat.mod_eq_of_lt hmul]

/-- Four bytes put together do not overlap. -/
theorem or_bytes (a : Nat) {b c d : Nat} (hb : b < 2 ^ 8) (hc : c < 2 ^ 8) (hd : d < 2 ^ 8) :
    d ||| (a * 2 ^ 24 ||| b * 2 ^ 16 ||| c * 2 ^ 8)
      = a * 2 ^ 24 + b * 2 ^ 16 + c * 2 ^ 8 + d := by
  -- what is below the shift does not meet what is above it
  have hor : ∀ x y k : Nat, y < 2 ^ k → x * 2 ^ k ||| y = x * 2 ^ k + y := by
    intro x y k hy
    rw [← Nat.shiftLeft_eq, Nat.shiftLeft_add_eq_or_of_lt hy]
  have hab := hor a (b * 2 ^ 16) 24 (by omega)
  have habc := hor (a * 2 ^ 8 + b) (c * 2 ^ 8) 16 (by omega)
  have habcd := hor (a * 2 ^ 16 + b * 2 ^ 8 + c) d 8 hd
  rw [hab, show a * 2 ^ 24 + b * 2 ^ 16 = (a * 2 ^ 8 + b) * 2 ^ 16 by ring, habc,
    show (a * 2 ^ 8 + b) * 2 ^ 16 + c * 2 ^ 8 = (a * 2 ^ 16 + b * 2 ^ 8 + c) * 2 ^ 8 by ring,
    Nat.or_comm, habcd]

/-- **A dotted quad is read as its address.** -/
theorem inetAton_quad (q : Quad) : ∃ v, inetAton q.text = some v ∧ v.toNat = q.value := by
  have hdot : ∀ rest : Bytes, ∀ b ∈ (46 :: rest).head?,
      isDigit b = false ∧ b ≠ 120 ∧ b ≠ 88 := by
    intro rest b hb
    obtain rfl : (46 : UInt8) = b := Option.some.inj hb
    decide
  have hd := atonNumber_decimal q.d (show ∀ b ∈ ([] : Bytes).head?, _ by simp)
  rw [List.append_nil] at hd
  -- The points fill `parts` up, and the last number is left in `val`.
  have hparts : atonParts 3 [] q.text
      = some ([q.a.toUInt32, q.b.toUInt32, q.c.toUInt32], q.d.toUInt32, []) := by
    rw [Quad.text, atonParts, atonNumber_decimal q.a (hdot _)]
    show atonParts 2 [q.a.toUInt32] _ = _
    rw [atonParts, atonNumber_decimal q.b (hdot _)]
    show atonParts 1 [q.a.toUInt32, q.b.toUInt32] _ = _
    rw [atonParts, atonNumber_decimal q.c (hdot _)]
    show atonParts 0 [q.a.toUInt32, q.b.toUInt32, q.c.toUInt32] _ = _
    rw [atonParts, hd]
  -- A byte passes every range check.
  have hbyte : ∀ n : UInt8, ¬ n.toUInt32 > 0xff := by
    intro n h
    have hlt := n.toNat_lt
    rw [gt_iff_lt, UInt32.lt_iff_toNat_lt, UInt8.toNat_toUInt32] at h
    have h255 : (0xff : UInt32).toNat = 255 := rfl
    omega
  refine ⟨q.d.toUInt32 ||| ((q.a.toUInt32 <<< 24) ||| (q.b.toUInt32 <<< 16)
    ||| (q.c.toUInt32 <<< 8)), ?_, ?_⟩
  · rw [inetAton, hparts]
    simp only [hbyte, or_self, if_false]
    rfl
  · rw [UInt32.toNat_or, UInt32.toNat_or, UInt32.toNat_or, toNat_shiftLeft_byte _ (by decide),
      toNat_shiftLeft_byte _ (by decide), toNat_shiftLeft_byte _ (by decide),
      UInt8.toNat_toUInt32]
    exact or_bytes q.a.toNat q.b.toNat_lt q.c.toNat_lt q.d.toNat_lt

/-! ### All or nothing -/

/-- The three flags are set. -/
def NetdevInfo.FlagsSet (netdev : NetdevInfo) : Prop :=
  netdev.up = true ∧ netdev.linkUp = true ∧ netdev.dhcp = true

/-- The hardware address is the one of the IEMI. -/
def NetdevInfo.HwaddrSet (iemi : Bytes) (netdev : NetdevInfo) : Prop :=
  netdev.hwaddrLen = a9gNetdevHwaddrLen
    ∧ netdev.hwaddr = (List.range a9gNetdevHwaddrLen).map (hwaddrByte iemi)

/-- Everything is set: the flags, the hardware address, and the IP address, which is the value of
the dotted quad in the answer. -/
structure InfoSet (a : SetInfoAnswers) (netdev : NetdevInfo) : Prop where
  flags : netdev.FlagsSet
  hwaddr : ∃ iemi, a.iemi = some iemi ∧ netdev.HwaddrSet iemi
  ipAddr : ∃ q : Quad, a.ipaddr = some q.text ∧ netdev.ipAddr.toNat = q.value

/-- An error leaves the netdev as it was, and `RT_EOK` means that everything is set. -/
structure AllOrNothing (a : SetInfoAnswers) (netdev : NetdevInfo) : Prop where
  nothing : (a9gNetdevSetInfo a netdev).result ≠ 0 → (a9gNetdevSetInfo a netdev).netdev = netdev
  all : (a9gNetdevSetInfo a netdev).result = 0 → InfoSet a (a9gNetdevSetInfo a netdev).netdev

/-- The IEMI, if the call gets as far as one. -/
def SetInfoAnswers.iemiRead (a : SetInfoAnswers) : Option Bytes :=
  if a.createResp = true ∧ a.gsn = .ok then a.iemi else none

/-- The text of the IP address, if the commands for it succeed. -/
def SetInfoAnswers.ipaddrRead (a : SetInfoAnswers) : Option Bytes :=
  if a.cifsr = .ok then a.ipaddr else none

/-- The calls that are all or nothing. A call that fails before the hardware address finds the
flags set already, one that fails behind it also the hardware address, and one that succeeds
has got a dotted quad. -/
def SetInfoAnswers.Harmless (a : SetInfoAnswers) (netdev : NetdevInfo) : Prop :=
  a.device = true →
    match a.iemiRead with
    | none => netdev.FlagsSet
    | some iemi =>
      match a.ipaddrRead with
      | none => netdev.FlagsSet ∧ netdev.HwaddrSet iemi
      | some ipaddr => ∃ q : Quad, ipaddr = q.text

/-! ### What a call writes -/

/-- The netdev with the flags set. -/
def NetdevInfo.withFlags (netdev : NetdevInfo) : NetdevInfo :=
  { netdev with up := true, linkUp := true, dhcp := true }

/-- And with the hardware address. -/
def NetdevInfo.withHwaddr (netdev : NetdevInfo) (iemi : Bytes) : NetdevInfo :=
  { netdev.withFlags with
    hwaddrLen := a9gNetdevHwaddrLen
    hwaddr := (List.range a9gNetdevHwaddrLen).map (hwaddrByte iemi) }

/-- The hardware address is not set. -/
theorem setHwaddr_of_none {a : SetInfoAnswers} (netdev : NetdevInfo)
    (h : a.gsn = .ok → a.iemi = none) :
    (setHwaddr a netdev).1 = -rtError ∧ (setHwaddr a netdev).2.1 = netdev := by
  rw [setHwaddr]
  by_cases hgsn : a.gsn = .ok
  · rw [if_neg (not_not.mpr hgsn), h hgsn]
    exact ⟨rfl, rfl⟩
  · rw [if_pos hgsn]
    exact ⟨rfl, rfl⟩

/-- The hardware address is set. -/
theorem setHwaddr_of_some {a : SetInfoAnswers} (netdev : NetdevInfo) {iemi : Bytes}
    (hgsn : a.gsn = .ok) (h : a.iemi = some iemi) :
    (setHwaddr a netdev).1 = 0 ∧ (setHwaddr a netdev).2.1 = { netdev with
      hwaddrLen := a9gNetdevHwaddrLen
      hwaddr := (List.range a9gNetdevHwaddrLen).map (hwaddrByte iemi) } := by
  rw [setHwaddr, if_neg (not_not.mpr hgsn), h]
  exact ⟨rfl, rfl⟩

/-- The IP address is not set. -/
theorem setIpaddr_of_none {a : SetInfoAnswers} (netdev : NetdevInfo) (h : a.ipaddrRead = none) :
    (setIpaddr a netdev).1 = -rtError ∧ (setIpaddr a netdev).2.1 = netdev := by
  rw [setIpaddr]
  by_cases hcifsr : a.cifsr = .ok
  · rw [SetInfoAnswers.ipaddrRead, if_pos hcifsr] at h
    rw [if_neg (not_not.mpr hcifsr), h]
    exact ⟨rfl, rfl⟩
  · rw [if_pos hcifsr]
    exact ⟨rfl, rfl⟩

/-- The IP address is set, or at least written. -/
theorem setIpaddr_of_some {a : SetInfoAnswers} (netdev : NetdevInfo) {ipaddr : Bytes}
    (h : a.ipaddrRead = some ipaddr) :
    (setIpaddr a netdev).1 = 0 ∧ (setIpaddr a netdev).2.1
      = { netdev with ipAddr := (inetAton ipaddr).getD a.addr } := by
  rw [SetInfoAnswers.ipaddrRead] at h
  split at h
  · rename_i hcifsr
    rw [setIpaddr, if_neg (not_not.mpr hcifsr), h]
    exact ⟨rfl, rfl⟩
  · cases h

/-- A call that has a device and a response object. -/
theorem setInfo_eq {a : SetInfoAnswers} (netdev : NetdevInfo) (hd : a.device = true)
    (hr : a.createResp = true) :
    (a9gNetdevSetInfo a netdev).result
        = (if (setHwaddr a netdev.withFlags).1 < 0 then (setHwaddr a netdev.withFlags).1
          else (setIpaddr a (setHwaddr a netdev.withFlags).2.1).1)
      ∧ (a9gNetdevSetInfo a netdev).netdev
        = (if (setHwaddr a netdev.withFlags).1 < 0 then (setHwaddr a netdev.withFlags).2.1
          else (setIpaddr a (setHwaddr a netdev.withFlags).2.1).2.1) := by
  rw [a9gNetdevSetInfo, if_neg (by simp [hd])]
  simp only [if_neg (show ¬ a.createResp = false by simp [hr])]
  change (ite (((setHwaddr a netdev.withFlags).1 : Int) < 0) _ _ : SetInfo).result = _
    ∧ (ite (((setHwaddr a netdev.withFlags).1 : Int) < 0) _ _ : SetInfo).netdev = _
  split
  · exact ⟨rfl, rfl⟩
  · exact ⟨rfl, rfl⟩

/-- Without the device nothing is written. -/
theorem setInfo_of_noDevice {a : SetInfoAnswers} (netdev : NetdevInfo) (h : a.device = false) :
    (a9gNetdevSetInfo a netdev).result ≠ 0 ∧ (a9gNetdevSetInfo a netdev).netdev = netdev := by
  rw [a9gNetdevSetInfo, if_pos h]
  exact ⟨show -rtError ≠ 0 by decide, rfl⟩

/-- A failure before the hardware address. -/
theorem setInfo_of_noIemi {a : SetInfoAnswers} (netdev : NetdevInfo) (hd : a.device = true)
    (h : a.iemiRead = none) :
    (a9gNetdevSetInfo a netdev).result ≠ 0
      ∧ (a9gNetdevSetInfo a netdev).netdev = netdev.withFlags := by
  cases hr : a.createResp with
  | false =>
      rw [a9gNetdevSetInfo, if_neg (by simp [hd])]
      simp only [if_pos hr]
      exact ⟨show -rtEnomem ≠ 0 by decide, rfl⟩
  | true =>
      -- either the command or its parse has failed
      have hnone : a.gsn = .ok → a.iemi = none := by
        intro hgsn
        rwa [SetInfoAnswers.iemiRead, if_pos ⟨hr, hgsn⟩] at h
      obtain ⟨hresult, hnetdev⟩ := setInfo_eq netdev hd hr
      obtain ⟨hfail, hsame⟩ := setHwaddr_of_none netdev.withFlags hnone
      rw [hfail, if_pos (by decide)] at hresult hnetdev
      rw [hresult, hnetdev, hsame]
      exact ⟨by decide, rfl⟩

/-- A call that reads the IEMI goes on to the IP address. -/
theorem setInfo_of_iemi {a : SetInfoAnswers} (netdev : NetdevInfo) (hd : a.device = true)
    {iemi : Bytes} (hi : a.iemiRead = some iemi) :
    a.iemi = some iemi
      ∧ (a9gNetdevSetInfo a netdev).result = (setIpaddr a (netdev.withHwaddr iemi)).1
      ∧ (a9gNetdevSetInfo a netdev).netdev = (setIpaddr a (netdev.withHwaddr iemi)).2.1 := by
  rw [SetInfoAnswers.iemiRead] at hi
  split at hi
  · rename_i h
    obtain ⟨hresult, hnetdev⟩ := setInfo_eq netdev hd h.1
    obtain ⟨hok, hset⟩ := setHwaddr_of_some netdev.withFlags h.2 hi
    rw [hok, if_neg (by decide), hset] at hresult hnetdev
    exact ⟨hi, hresult, hnetdev⟩
  · cases hi

/-- The flags were set before. -/
theorem withFlags_eq_iff (netdev : NetdevInfo) : netdev.withFlags = netdev ↔ netdev.FlagsSet := by
  constructor
  · intro h
    rw [← h]
    exact ⟨rfl, rfl, rfl⟩
  · obtain ⟨up, linkUp, dhcp, hwaddrLen, hwaddr, ipAddr⟩ := netdev
    rintro ⟨rfl, rfl, rfl⟩
    rfl

/-- The hardware address was set before. -/
theorem withHwaddr_eq_iff (netdev : NetdevInfo) (iemi : Bytes) :
    netdev.withHwaddr iemi = netdev ↔ netdev.FlagsSet ∧ netdev.HwaddrSet iemi := by
  constructor
  · intro h
    rw [← h]
    exact ⟨⟨rfl, rfl, rfl⟩, rfl, rfl⟩
  · rintro ⟨hflags, hlen, hhwaddr⟩
    rw [NetdevInfo.withHwaddr, (withFlags_eq_iff netdev).mpr hflags, ← hhwaddr, ← hlen]

/-- A call that fails is all or nothing if it wrote what was there. -/
theorem allOrNothing_of_error {a : SetInfoAnswers} {netdev : NetdevInfo}
    (h : (a9gNetdevSetInfo a netdev).result ≠ 0) :
    AllOrNothing a netdev ↔ (a9gNetdevSetInfo a netdev).netdev = netdev :=
  ⟨fun hall => hall.nothing h, fun hsame => ⟨fun _ => hsame, fun hok => absurd hok h⟩⟩

/-- **When `a9g_netdev_set_info` is all or nothing.** -/
theorem setInfo_allOrNothing_iff (a : SetInfoAnswers) (netdev : NetdevInfo) :
    AllOrNothing a netdev ↔ a.Harmless netdev := by
  cases hd : a.device with
  | false =>
      obtain ⟨herr, hsame⟩ := setInfo_of_noDevice netdev hd
      rw [allOrNothing_of_error herr, SetInfoAnswers.Harmless, hd]
      exact iff_of_true hsame fun h => absurd h Bool.false_ne_true
  | true =>
      have hharmless : a.Harmless netdev ↔ match a.iemiRead with
          | none => netdev.FlagsSet
          | some iemi =>
            match a.ipaddrRead with
            | none => netdev.FlagsSet ∧ netdev.HwaddrSet iemi
            | some ipaddr => ∃ q : Quad, ipaddr = q.text := forall_prop_of_true hd
      rw [hharmless]
      cases hi : a.iemiRead with
      | none =>
          obtain ⟨herr, hnetdev⟩ := setInfo_of_noIemi netdev hd hi
          rw [allOrNothing_of_error herr, hnetdev, withFlags_eq_iff]
      | some iemi =>
          obtain ⟨hiemi, hresult, hnetdev⟩ := setInfo_of_iemi netdev hd hi
          cases hp : a.ipaddrRead with
          | none =>
              -- a failure behind the hardware address
              obtain ⟨hfail, hsame⟩ := setIpaddr_of_none (netdev.withHwaddr iemi) hp
              rw [hfail] at hresult
              have herr : (a9gNetdevSetInfo a netdev).result ≠ 0 := by
                rw [hresult]
                decide
              rw [allOrNothing_of_error herr, hnetdev, hsame, withHwaddr_eq_iff]
          | some ipaddr =>
              -- a success: `inet_aton` has got some text
              obtain ⟨hok, hset⟩ := setIpaddr_of_some (netdev.withHwaddr iemi) hp
              rw [hok] at hresult
              rw [hset] at hnetdev
              have hipaddr : a.ipaddr = some ipaddr := by
                rw [SetInfoAnswers.ipaddrRead] at hp
                split at hp
                · exact hp
                · cases hp
              constructor
              · intro h
                obtain ⟨q, hq, -⟩ := (h.all hresult).ipAddr
                exact ⟨q, Option.some.inj (hipaddr.symm.trans hq)⟩
              · rintro ⟨q, rfl⟩
                obtain ⟨v, haton, hv⟩ := inetAton_quad q
                refine ⟨fun herr => absurd hresult herr, fun _ => ?_⟩
                rw [hnetdev, haton]
                exact ⟨⟨rfl, rfl, rfl⟩, ⟨iemi, hiemi, rfl, rfl⟩, ⟨q, hipaddr, hv⟩⟩

/-- A netdev that is down. -/
def downNetdev : NetdevInfo where
  up := false
  linkUp := false
  dhcp := false
  hwaddrLen := 0
  hwaddr := []
  ipAddr := 0

/-- A modem that does not answer `AT+GSN`. -/
def silentModem : SetInfoAnswers where
  device := true
  createResp := true
  gsn := .failed
  iemi := none
  cifsr := .failed
  ipaddr := none
  addr := 0

/-- When the modem does not answer, the call fails and the netdev is up. -/
theorem not_allOrNothing_silent : ¬ AllOrNothing silentModem downNetdev := by
  intro h
  have hnetdev := h.nothing (by decide)
  exact absurd (congrArg NetdevInfo.up hnetdev) (by decide)

end CarLocator.A9g
