import RecoveryMenu.Fsa
import RecoveryMenu.Options.LoadNetConf.Fields

set_option relaxedAutoImplicit false
set_option autoImplicit false

/-!
# Loading the network configuration (`ios_mcp/source/options/LoadNetConf.c`)

`option_LoadNetConf` reads `network.cfg` into a buffer, scans it, and hands the configuration to
the interface manager.

## Main definitions

* `RecoveryMenu.LoadNetConf.Results`: the results of the calls.
* `RecoveryMenu.LoadNetConf.optionLoadNetConf`: a run of the option.

## References

* `ios_mcp/source/options/LoadNetConf.c`, lines 70-170.
-/

namespace RecoveryMenu

namespace LoadNetConf

open Menu NetConf

/-- The calls of the option, and its accesses to `cfgBuffer`. -/
inductive OptionCall
  | netconfInit (res : ℤ)
  | fsa (c : Fsa.Call)
  /-- `FSA_StatFile(fd, handle, &stat)`. -/
  | statFile (handle res : ℤ)
  /-- `cfgBuffer[i] = '\0'`. -/
  | terminate (i : ℕ)
  /-- The indices that the loop reads and writes. -/
  | scan (touched : List ℤ)
  /-- A call of `network_parse_config_value`, with its pointers into the buffer. -/
  | parseConfigValue (key : ℤ) (value : Option ℤ) (valueLen : ℤ)
  | netconfSetRunning (cfg : List UInt8) (res : ℤ)
  deriving DecidableEq, Repr

/-- The results of the calls, and what the machine has in memory. -/
structure Results where
  ifmgrHandle : ℤ
  ifmgrOpen : ℤ
  openFile : ℤ
  cfgHandle : ℤ
  statFile : ℤ
  /-- `stat.size`. -/
  size : ℕ
  heapAlloc : Bool
  readFile : ℤ
  content : List UInt8
  length_content : content.length = size
  machine : Machine
  setRunning : ℤ

/-- A call at a line end and what it shows. -/
def Call.events (c : Call) : List (Event OptionCall) :=
  .call (.parseConfigValue c.key c.value c.valueLen) ::
    c.effect.texts.map fun text => .print text.1 text.2

/-- The end of a run that has the file and the buffer. -/
def releaseFile (cfgHandle : ℤ) : List (Event OptionCall) :=
  [.call (.fsa .heapFree), .call (.fsa (.closeFile cfgHandle))]

/-- The configuration is parsed and applied. -/
def applyConfiguration (r : Results) : List (Event OptionCall) :=
  [.call (.scan (scanLoop r.machine.base r.machine.heap r.content).touched)] ++
    (r.machine.calls r.content).flatMap Call.events ++
    [.print "Applying configuration..." [],
      .call (.netconfSetRunning (r.machine.netConfCfg r.content) r.setRunning)] ++
    if r.setRunning < 0 then
      releaseFile r.cfgHandle ++
        [.printError "Failed to apply configuration: %x" [.int r.setRunning]]
    else [.print "Done!" [], .waitButtonInput] ++ releaseFile r.cfgHandle

/-- `option_LoadNetConf()`. -/
def optionLoadNetConf (r : Results) : List (Event OptionCall) :=
  let init := netconfInit r.ifmgrHandle r.ifmgrOpen
  [.drawTopBar "Loading network configuration...", .print "Initializing netconf..." [],
    .call (.netconfInit init.res)] ++
  if init.res ≤ 0 then [.printError "Failed to initialize netconf: %x" [.int init.res]]
  else [.print "Reading network.cfg..." [],
    .call (.fsa (.openFile "/vol/storage_recovsd/network.cfg" "r" r.openFile r.cfgHandle))] ++
  if r.openFile < 0 then [.printError "Failed to open network.cfg: %x" [.int r.openFile]]
  else .call (.statFile r.cfgHandle r.statFile) ::
  if r.statFile < 0 then
    [.call (.fsa (.closeFile r.cfgHandle)), .printError "Failed to stat file: %x" [.int r.statFile]]
  else .call (.fsa (.heapAlloc ((r.size + 1) % 2 ^ 32) r.heapAlloc)) ::
  if ¬ r.heapAlloc then
    [.call (.fsa (.closeFile r.cfgHandle)), .printError "Out of memory!" []]
  else [.call (.terminate r.size), .call (.fsa (.readFile r.size r.cfgHandle r.readFile))] ++
  if r.readFile ≠ r.size then
    releaseFile r.cfgHandle ++ [.printError "Failed to read file: %x" [.int r.readFile]]
  else applyConfiguration r

end LoadNetConf

end RecoveryMenu
