import RecoveryMenu.RegionInfo

set_option relaxedAutoImplicit false
set_option autoImplicit false

/-!
# What an option shows and calls (`ios_mcp/source/menu.c`)

A run of an option of the main menu is the list of what it shows, the colours it gives to the
LED and the calls it makes, in order. A text keeps its format and its arguments apart; colours
and positions are left out.

## Main definitions

* `RecoveryMenu.Menu.Arg`, `RecoveryMenu.Menu.Event`.
* `RecoveryMenu.Menu.gameRegionArgs`: the regions of `game_region`, as two options show them.

## References

* `ios_mcp/source/menu.c`: `drawTopBar`, `drawMenu`, `print_error`, `printf_error`.
* `ios_mcp/source/utils.h`: the colours of the notification LED, the bits of the event flag.
-/

namespace RecoveryMenu

namespace Menu

open RegionInfo

/-- `NOTIF_LED_RED_BLINKING`. -/
def notifLedRedBlinking : UInt8 := 0x0C

/-- `NOTIF_LED_PURPLE`. -/
def notifLedPurple : UInt8 := 0x28

/-- `SYSTEM_EVENT_FLAG_EJECT_BUTTON`. -/
def systemEventFlagEjectButton : UInt8 := 0x20

/-- `SYSTEM_EVENT_FLAG_POWER_BUTTON`. -/
def systemEventFlagPowerButton : UInt8 := 0x40

/-- An argument of a text. -/
inductive Arg
  | int (n : ℤ)
  | str (s : String)
  /-- A string in memory, up to its NUL. -/
  | chars (cs : List UInt8)
  /-- `region_tbl[id]`. -/
  | region (id : ℤ)
  deriving DecidableEq, Repr

/-- What a run of an option shows and calls, where `Call` are the calls of that option. -/
inductive Event (Call : Type)
  | drawTopBar (title : String)
  /-- `gfx_print` or `gfx_printf`. -/
  | print (format : String) (args : List Arg)
  /-- `print_error` or `printf_error`. -/
  | printError (format : String) (args : List Arg)
  /-- `setNotificationLED(mask, 0)`. -/
  | setNotificationLED (mask : UInt8)
  /-- `drawMenu` with the given title and items. -/
  | drawMenu (title : String) (items : List String)
  | waitButtonInput
  | call (c : Call)
  deriving DecidableEq, Repr

/-- The two halves of a title id, as they are shown. -/
def titleArgs (tid : UInt64) : List Arg :=
  [.int (tid >>> 32).toNat, .int (tid &&& 0xFFFFFFFF).toNat]

/-- The region of `gameRegion` with the given index, or dashes. -/
def gameRegionArg (gameRegion : UInt32) (id : ℕ) : Arg :=
  if gameRegion &&& regionBit id ≠ 0 then .region id else .str "---"

/-- The six regions shown of `gameRegion`. -/
def gameRegionArgs (gameRegion : UInt32) : List Arg :=
  [0, 1, 2, 4, 5, 6].map (gameRegionArg gameRegion)

end Menu

end RecoveryMenu
