import RecoveryMenu.Menu

set_option relaxedAutoImplicit false
set_option autoImplicit false

/-!
# Pairing a GamePad (`ios_mcp/source/options/PairDRC.c`)

The option starts the pairing and asks for its status once a second, until it has succeeded or
failed or the time is over.

## Main definitions

* `RecoveryMenu.PairDRC.pollStatus`: the loop that asks for the status.
* `RecoveryMenu.PairDRC.waitWithTimeout`: the loop and the check, for any timeout.
* `RecoveryMenu.PairDRC.optionPairDRC`: a run of the option.

## References

* `ios_mcp/source/options/PairDRC.c`.
* `ios_mcp/source/ccr.c`: `CCRCDCSetup`, `CCRSysGetPincode`, `CCRCDCWpsStatus`.
-/

namespace RecoveryMenu

namespace PairDRC

open Menu

/-- The calls of the option. -/
inductive Call
  | setup (res : ℤ)
  | getPincode (res : ℤ)
  | devicePing (res : ℤ)
  | displayMessage
  | setLcdMute
  | startPairing (res : ℤ)
  | wpsStatus (res : ℤ)
  | wpsStop
  | usleep (microseconds : ℕ)
  deriving DecidableEq, Repr

/-- The results of the calls, and what is on the stack where a call does not write. -/
structure Results where
  getMacAddress : ℤ
  /-- `mac[6]`. -/
  mac : UInt8
  pincode : List UInt8
  devicePing : ℤ
  startPairing : ℤ
  status : UInt32
  /-- The result of each `CCRCDCWpsStatus`, and the status it gives. -/
  wpsStatus : ℕ → ℤ × UInt32

/-- `DRC_PAIRING_TIMEOUT`. -/
def drcPairingTimeout : ℕ := 30

/-- `CCRCDCSetup()`, which does not report that the device cannot be opened. -/
def ccrcdcSetup : ℤ := 0

/-- The pincode after `CCRSysGetPincode(pincode)`, which has the result of the call for the MAC
address. -/
def Results.pincodeRead (r : Results) : List UInt8 :=
  if r.getMacAddress = 0 then
    [r.mac >>> 6, (r.mac >>> 4) &&& 3, (r.mac >>> 2) &&& 3, r.mac &&& 3]
  else r.pincode

/-- `symbol_names`. -/
def symbolNames : List String := ["spade", "heart", "diamond", "clubs"]

/-- `symbol_names[i]`, for a symbol of a pincode. -/
def symbolName (i : UInt8) : String := symbolNames.getD i.toNat ""

/-- The variables behind the loop, whether the option returns from it, and what was shown. -/
structure Polled where
  res : ℤ
  status : UInt32
  timeout : ℤ
  returns : Bool
  events : List (Event Call)

/-- The loop, for the poll with number `i` and the remaining `timeout`. The status is only written
by a call that returns `0`. -/
def pollStatus (wpsStatus : ℕ → ℤ × UInt32) (i : ℕ) (res : ℤ) (status : UInt32) : ℕ → Polled
  | 0 => ⟨res, status, -1, false, []⟩
  | timeout + 1 =>
    let res := (wpsStatus i).1
    let asked := [.call (.wpsStatus res)]
    if res < 0 then
      ⟨res, status, timeout, true,
        asked ++ [.call .wpsStop, .printError "Failed to get status: %x" [.int res]]⟩
    else
      let status := if res = 0 then (wpsStatus i).2 else status
      if status = 2 ∨ status = 1 then
        let rest := pollStatus wpsStatus (i + 1) res status timeout
        { rest with
          events := asked ++ [.print "Waiting for Gamepad... (%lx) (Timeout: %d) "
            [.int status.toNat, .int timeout], .call (.usleep 1000000)] ++ rest.events }
      else ⟨res, status, timeout, false, asked⟩

/-- The loop and the check behind it, for the given `timeout`. -/
def waitWithTimeout (wpsStatus : ℕ → ℤ × UInt32) (res : ℤ) (status : UInt32) (timeout : ℕ) :
    List (Event Call) :=
  let polled := pollStatus wpsStatus 0 res status timeout
  polled.events ++
    if polled.returns then []
    else if polled.status ≠ 0 ∨ polled.timeout ≤ 0 then
      [.call .wpsStop, .printError "Failed to pair GamePad: %lx" [.int polled.res]]
    else [.setNotificationLED notifLedPurple, .print "Paired GamePad" [], .waitButtonInput]

/-- The pairing, once it has been started. -/
def waitForPairing (r : Results) : List (Event Call) :=
  waitWithTimeout r.wpsStatus r.startPairing r.status drcPairingTimeout

/-- `option_PairDRC()`. -/
def optionPairDRC (r : Results) : List (Event Call) :=
  [.drawTopBar "Pairing Gamepad...", .setNotificationLED notifLedRedBlinking,
    .call (.setup ccrcdcSetup)] ++
  if ccrcdcSetup < 0 then [.printError "CCRCDCSetup() failed: %x" [.int ccrcdcSetup]]
  else [.print "Get pincode..." [], .call (.getPincode r.getMacAddress)] ++
  if r.getMacAddress < 0 then
    [.printError "Failed to get pincode: %x" [.int r.getMacAddress]]
  else
    let already := if r.devicePing = 0 then
      [.print "Gamepad already connected, displaying message..." [], .call .displayMessage] else []
    [.print "Pincode: %x%x%x%x (%s %s %s %s)" (r.pincodeRead.map (fun b => .int b.toNat) ++
      r.pincodeRead.map fun b => .str (symbolName b)),
      .call (.devicePing r.devicePing)] ++ already ++
    [.call (.usleep 100000), .call .setLcdMute, .print "Starting pairing..." [],
      .call (.startPairing r.startPairing)] ++
    if r.startPairing < 0 then
      [.printError "Failed to start pairing: %x" [.int r.startPairing]]
    else waitForPairing r

end PairDRC

end RecoveryMenu
