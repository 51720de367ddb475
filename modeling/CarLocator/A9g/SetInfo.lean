import CarLocator.At.Calls
import CarLocator.At.Resources
import CarLocator.Library.Scanf

/-!
# `CarLocator.A9g.SetInfo`: `a9g_netdev_set_info`

The status and the addresses of the netdev. The three status flags are set before anything
is asked of the modem. The hardware address comes from the IEMI (`setHwaddr`), the IP address
from `inet_aton` of the answer to `AT+CIFSR` (`setIpaddr`), whose result is not looked at.
What the commands and the parses come to is in `SetInfoAnswers`.
-/

set_option autoImplicit false

namespace CarLocator.A9g

open CarLocator.At
open CarLocator.Library

/-! ### `inet_aton` -/

/-- `isdigit`, `isxdigit` and `islower` of `netdev_ipaddr.c`. -/
def atonDigit (c : UInt8) : Bool := 48 ≤ c && c ≤ 57
def atonXdigit (c : UInt8) : Bool := atonDigit c || (97 ≤ c && c ≤ 102) || (65 ≤ c && c ≤ 70)
def atonLower (c : UInt8) : Bool := 97 ≤ c && c ≤ 122

/-- The digits of one number, and what is behind them. The value wraps around. -/
def atonDigits (base : UInt32) : UInt32 → Bytes → UInt32 × Bytes
  | val, [] => (val, [])
  | val, c :: cp =>
    if atonDigit c then atonDigits base (val * base + (c - 48).toUInt32) cp
    else if base = 16 && atonXdigit c then
      atonDigits base
        ((val <<< 4) ||| (c.toUInt32 + 10 - (if atonLower c then 97 else 65))) cp
    else (val, c :: cp)

/-- One number: `0x` for base 16, `0` for base 8. -/
def atonNumber : Bytes → Option (UInt32 × Bytes)
  | [] => none
  | c :: cp =>
    if atonDigit c = false then none
    else if c = 48 then
      match cp with
      | 120 :: cp | 88 :: cp => some (atonDigits 16 0 cp)
      | cp => some (atonDigits 8 0 cp)
    else some (atonDigits 10 0 (c :: cp))

/-- The numbers, with room for `n` more of them in `parts`: the parts, the last value, and the
rest. -/
def atonParts : (n : Nat) → (parts : List UInt32) → Bytes → Option (List UInt32 × UInt32 × Bytes)
  | n, parts, cp =>
    match atonNumber cp with
    | none => none
    | some (val, 46 :: cp) =>
      match n with
      | 0 => none
      | n + 1 => atonParts n (parts ++ [val]) cp
    | some (val, cp) => some (parts, val, cp)

/-- `inet_aton`, which is `netdev_ip4addr_aton`: the address in host order, or `none` for a
text it does not take. -/
def inetAton (text : Bytes) : Option UInt32 :=
  match atonParts 3 [] text with
  | none => none
  | some (parts, val, cp) =>
    if cp.head?.any (fun c => !isSpace c) then none
    else
      match parts with
      | [] => some val
      | [a] => if val > 0xffffff ∨ a > 0xff then none else some (val ||| (a <<< 24))
      | [a, b] =>
        if val > 0xffff ∨ a > 0xff ∨ b > 0xff then none
        else some (val ||| ((a <<< 24) ||| (b <<< 16)))
      | a :: b :: c :: _ =>
        if val > 0xff ∨ a > 0xff ∨ b > 0xff ∨ c > 0xff then none
        else some (val ||| ((a <<< 24) ||| (b <<< 16) ||| (c <<< 8)))

/-! ### The operation -/

/-- What `a9g_netdev_set_info` writes of the netdev. -/
structure NetdevInfo where
  up : Bool
  linkUp : Bool
  dhcp : Bool
  hwaddrLen : Nat
  hwaddr : Bytes
  /-- in host order -/
  ipAddr : UInt32
  deriving DecidableEq, Repr

/-- What one call gets. -/
structure SetInfoAnswers where
  -- the device is found
  device : Bool
  -- there is memory for the response object
  createResp : Bool
  -- how `AT+GSN` ends, and the text in `iemi` if its parse finds one
  gsn : ExecOutcome
  iemi : Option Bytes
  -- how `AT+CIFSR` ends, and the text in `ipaddr` if its parse finds one
  cifsr : ExecOutcome
  ipaddr : Option Bytes
  -- what is in `addr` before `inet_aton`
  addr : UInt32

/-- What a call does. -/
structure SetInfo where
  result : Int
  netdev : NetdevInfo
  calls : List ResCall

/-- `A9G_IEMI_LEN` and `A9G_NETDEV_HWADDR_LEN`. -/
def a9gIemiLen : Nat := 15
def a9gNetdevHwaddrLen : Nat := 8

/-- Entry `i` of `netdev->hwaddr`, two digits of the IEMI. The last entry has one. -/
def hwaddrByte (iemi : Bytes) (i : Nat) : UInt8 :=
  let digit := fun j => (iemi ++ List.replicate a9gIemiLen 0).getD j 0 - 48
  if 2 * i ≠ a9gIemiLen - 1 then digit (2 * i) * 10 + digit (2 * i + 1) else digit (2 * i)

/-- The hardware address: the result, the netdev, and the calls. -/
def setHwaddr (a : SetInfoAnswers) (netdev : NetdevInfo) : Int × NetdevInfo × List ResCall :=
  let query := execCalls (some 0) a.gsn
  if a.gsn ≠ .ok then (-rtError, netdev, query)
  else
    match a.iemi with
    | none => (-rtError, netdev, query ++ [.useResp 0])
    | some iemi =>
      let hwaddr := (List.range a9gNetdevHwaddrLen).map (hwaddrByte iemi)
      (0, { netdev with hwaddrLen := a9gNetdevHwaddrLen, hwaddr := hwaddr },
        query ++ [.useResp 0])

/-- The IP address. `at_resp_set_info` comes first. -/
def setIpaddr (a : SetInfoAnswers) (netdev : NetdevInfo) : Int × NetdevInfo × List ResCall :=
  let query := [.useResp 0] ++ execCalls (some 0) a.cifsr
  if a.cifsr ≠ .ok then (-rtError, netdev, query)
  else
    match a.ipaddr with
    | none => (-rtError, netdev, query ++ [.useResp 0])
    | some ipaddr =>
      (0, { netdev with ipAddr := (inetAton ipaddr).getD a.addr }, query ++ [.useResp 0])

/-- `a9g_netdev_set_info`. -/
def a9gNetdevSetInfo (a : SetInfoAnswers) (netdev : NetdevInfo) : SetInfo :=
  if a.device = false then ⟨-rtError, netdev, []⟩
  else
    let netdev := { netdev with up := true, linkUp := true, dhcp := true }
    if a.createResp = false then ⟨-rtEnomem, netdev, []⟩
    else
      let (result, netdev, hwaddr) := setHwaddr a netdev
      if result < 0 then ⟨result, netdev, [.createResp 0] ++ hwaddr ++ [.deleteResp 0]⟩
      else
        let (result, netdev, ipaddr) := setIpaddr a netdev
        ⟨result, netdev, [.createResp 0] ++ (hwaddr ++ ipaddr) ++ [.deleteResp 0]⟩

/-! ### The calls -/

/-- The calls for the hardware address leave the resources as they were. -/
theorem neutral_setHwaddr (a : SetInfoAnswers) (netdev : NetdevInfo) :
    Neutral (Has 0) (setHwaddr a netdev).2.2 := by
  have hquery := neutral_execCalls 0 a.gsn
  rw [setHwaddr]
  by_cases hok : a.gsn ≠ .ok
  · rw [if_pos hok]
    exact hquery
  · rw [if_neg hok]
    cases a.iemi with
    | none => exact hquery.append (neutral_useResp 0)
    | some iemi => exact hquery.append (neutral_useResp 0)

/-- So do the calls for the IP address. -/
theorem neutral_setIpaddr (a : SetInfoAnswers) (netdev : NetdevInfo) :
    Neutral (Has 0) (setIpaddr a netdev).2.2 := by
  have hquery := (neutral_useResp 0).append (neutral_execCalls 0 a.cifsr)
  rw [setIpaddr]
  by_cases hok : a.cifsr ≠ .ok
  · rw [if_pos hok]
    exact hquery
  · rw [if_neg hok]
    cases a.ipaddr with
    | none => exact hquery.append (neutral_useResp 0)
    | some ipaddr => exact hquery.append (neutral_useResp 0)

/-- `a9g_netdev_set_info` cleans up. -/
theorem cleansUp_a9gNetdevSetInfo (a : SetInfoAnswers) (netdev : NetdevInfo) :
    CleansUp (a9gNetdevSetInfo a netdev).calls := by
  have hhas : ∀ s, Holding 0 s → Has 0 s := fun _ h => h.has
  rw [a9gNetdevSetInfo]
  by_cases hdevice : a.device = false
  · rw [if_pos hdevice]
    exact cleansUp_nil
  rw [if_neg hdevice]
  by_cases hresp : a.createResp = false
  · simp only [if_pos hresp]
    exact cleansUp_nil
  simp only [if_neg hresp]
  have hhwaddr := neutral_setHwaddr a { netdev with up := true, linkUp := true, dhcp := true }
  split
  · exact cleansUp_of_neutral (hhwaddr.mono hhas)
  · exact cleansUp_of_neutral ((hhwaddr.append (neutral_setIpaddr a _)).mono hhas)

end CarLocator.A9g
