import RecoveryMenu.Menu

set_option relaxedAutoImplicit false
set_option autoImplicit false

/-!
# Installing a title (`ios_mcp/source/options/InstallWUP.c`)

The option asks MCP about the title on the SD card, lets the user confirm, and starts the
installation, whose reply comes in through another thread. Here is what a run of the menu thread
shows and calls.

## Main definitions

* `RecoveryMenu.InstallWUP.Results`: the results of the calls of a run that returns.
* `RecoveryMenu.InstallWUP.optionInstallWUP`: a run of the option.

## References

* `ios_mcp/source/options/InstallWUP.c`, lines 30-156.
-/

namespace RecoveryMenu

namespace InstallWUP

open Menu

/-- The calls of the option. -/
inductive Call
  | open (res : ℤ)
  | installGetInfo (res : ℤ)
  | installSetTargetDevice (res : ℤ)
  | installSetTargetUsb (res : ℤ)
  | createMessageQueue (res : ℤ)
  | createThread (res : ℤ)
  | startThread (res : ℤ)
  | installTitleAsync (res : ℤ)
  | sendMessage
  | joinThread
  | installGetProgress (res : ℤ)
  | usleep (microseconds : ℕ)
  | destroyMessageQueue
  | close
  deriving DecidableEq, Repr

/-- The result of `MCP_InstallGetProgress`, with the progress in bytes. -/
structure Progress where
  res : ℤ
  sizeProgress : UInt64
  sizeTotal : UInt64
  deriving DecidableEq, Repr

/-- The results of the calls, the choice of the user, and the result of the installation. -/
structure Results where
  mcpHandle : ℤ
  getInfo : ℤ
  titleId : UInt64
  selected : ℤ
  setTargetDevice : ℤ
  setTargetUsb : ℤ
  createMessageQueue : ℤ
  createThread : ℤ
  startThread : ℤ
  installTitleAsync : ℤ
  /-- The rounds of the loop, until `asyncPending` is cleared. -/
  progress : List Progress
  asyncResult : ℤ

/-- A round of the loop. -/
def Progress.events (p : Progress) : List (Event Call) :=
  .call (.installGetProgress p.res) ::
    (if p.res ≥ 0 then
      [.print "Installing... (%lu KiB / %lu KiB)" [.int (p.sizeProgress / 1024).toUInt32.toNat,
        .int (p.sizeTotal / 1024).toUInt32.toNat]]
    else []) ++
    [.call (.usleep 50000)]

/-- The loop and what follows it. -/
def finishInstall (r : Results) : List (Event Call) :=
  r.progress.flatMap Progress.events ++
    (if r.asyncResult < 0 then [.printError "Failed to install: %x" [.int r.asyncResult]]
    else [.setNotificationLED notifLedPurple, .print "Done!" [], .waitButtonInput]) ++
    [.call .joinThread, .call .destroyMessageQueue, .call .close]

/-- The installation, once the user has confirmed it. Where the queue or the thread cannot be
created, the result of the call before is shown. -/
def startInstall (r : Results) : List (Event Call) :=
  [.drawTopBar "Install WUP",
    .print "Starting install for title: %08lx-%08lx" (titleArgs r.titleId),
    .call (.installSetTargetDevice r.setTargetDevice)] ++
  if r.setTargetDevice < 0 then
    [.call .close, .printError "MCP_InstallSetTargetDevice: %x" [.int r.setTargetDevice]]
  else .call (.installSetTargetUsb r.setTargetUsb) ::
  if r.setTargetUsb < 0 then
    [.call .close, .printError "MCP_InstallSetTargetUsb: %x" [.int r.setTargetUsb]]
  else .call (.createMessageQueue r.createMessageQueue) ::
  if r.createMessageQueue < 0 then
    [.call .close, .printError "IOS_CreateMessageQueue: %x" [.int r.setTargetUsb]]
  else .call (.createThread r.createThread) ::
  if r.createThread < 0 then
    [.call .destroyMessageQueue, .call .close,
      .printError "IOS_CreateThread: %x" [.int r.setTargetUsb]]
  else .call (.startThread r.startThread) ::
  if r.startThread < 0 then
    [.call .destroyMessageQueue, .call .close, .printError "IOS_StartThread failed" []]
  else .call (.installTitleAsync r.installTitleAsync) ::
  if r.installTitleAsync < 0 then
    [.call .sendMessage, .call .joinThread, .call .destroyMessageQueue, .call .close,
      .printError "Failed to start install: %x" [.int r.installTitleAsync]]
  else finishInstall r

/-- `option_InstallWUP()`. -/
def optionInstallWUP (r : Results) : List (Event Call) :=
  [.drawTopBar "Install WUP", .setNotificationLED notifLedRedBlinking, .call (.open r.mcpHandle)] ++
  if r.mcpHandle < 0 then [.printError "Failed to open /dev/mcp: %x" [.int r.mcpHandle]]
  else [.print "Querying install info..." [], .call (.installGetInfo r.getInfo)] ++
  if r.getInfo < 0 then
    [.call .close,
      .print "Make sure to place a valid signed WUP directly in 'sd:/install'" [],
      .printError "Failed to get install info: %x" [.int r.getInfo]]
  else
    [.print "Found title: %08lx-%08lx\nDo you want to install this title?" (titleArgs r.titleId),
      .drawMenu "Install WUP" ["Cancel", "Install"]] ++
    if r.selected = 0 then [.call .close]
    else startInstall r

/-- The title is found and the user cancels. -/
def Results.Cancelled (r : Results) : Prop := 0 ≤ r.mcpHandle ∧ 0 ≤ r.getInfo ∧ r.selected = 0

instance (r : Results) : Decidable r.Cancelled := inferInstanceAs (Decidable (_ ∧ _))

end InstallWUP

end RecoveryMenu
