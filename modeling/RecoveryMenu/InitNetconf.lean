import RecoveryMenu.Menu
import RecoveryMenu.NetConf

set_option relaxedAutoImplicit false
set_option autoImplicit false

/-!
# Bringing up the network (`ios_mcp/source/menu.c`)

`initNetconf` opens the interface manager, asks both interfaces up to five times for their link
state, gets the address of the first one that is up, and opens the socket library. Each stage
reports its failures in its own way.

## Main definitions

* `RecoveryMenu.InitNetconf.initNetconf`: the run, for what the devices answer.
* `RecoveryMenu.InitNetconf.Connected`: what a `0` is to mean.
* `RecoveryMenu.InitNetconf.EndsWithError`: some stage fails with a result other than `0`.

## Main results

* `RecoveryMenu.InitNetconf.connected_iff`: when a `0` means that.

## References

* `ios_mcp/source/menu.c`, lines 239-301.
* `ios_mcp/source/socket.c`, lines 9-21.
-/

namespace RecoveryMenu

namespace InitNetconf

open NetConf

/-- The calls of `initNetconf`, with what they return. -/
inductive Call
  | netconfInit (res : ℤ)
  | getIfLinkstate (interface : UInt16) (query : LinkQuery)
  | usleep (microseconds : ℕ)
  | getAssignedAddress (interface : UInt16) (res : ℤ)
  | socketInit (res : ℤ)
  deriving DecidableEq, Repr

/-- The two handles that are kept, and what the devices answer. -/
structure Devices where
  ifmgrHandle : ℤ
  socketHandle : ℤ
  /-- What `IOS_Open` returns for the interface manager. -/
  ifmgrOpen : ℤ
  /-- What `IOS_Open` returns for the socket library. -/
  socketOpen : ℤ
  /-- The link states in each round. -/
  link : ℕ → UInt16 → LinkAnswer
  address : UInt16 → AddressAnswer

/-- `socketInit()`, which opens `/dev/socket`. -/
def socketInit (socketHandle ret : ℤ) : Opened := openDevice socketHandle ret

/-- The end of the waiting: the round and the interface that was up, or none where `interface`
is still `0xff`. -/
structure Waited where
  found : Option (ℕ × UInt16)
  events : List (Menu.Event Call)

/-- The rounds of the loop from round `i` on, of which `n` are left. -/
def waitForLink (link : ℕ → UInt16 → LinkAnswer) : ℕ → ℕ → Waited
  | _, 0 => ⟨none, []⟩
  | i, n + 1 =>
    let wifi := netconfGetIfLinkstate (link i) interfaceTypeWifi
    let ethernet := netconfGetIfLinkstate (link i) interfaceTypeEthernet
    let askWifi := [.call (.getIfLinkstate interfaceTypeWifi wifi)]
    let askEthernet := [.call (.getIfLinkstate interfaceTypeEthernet ethernet)]
    if wifi.state = linkStateUp then ⟨some (i, interfaceTypeWifi), askWifi⟩
    else if ethernet.state = linkStateUp then
      ⟨some (i, interfaceTypeEthernet), askWifi ++ askEthernet⟩
    else
      let rest := waitForLink link (i + 1) n
      ⟨rest.found, askWifi ++ askEthernet ++
        [.call (.usleep 1000000),
          .print "Waiting for network connection... %ds" [.int (4 - i)]] ++ rest.events⟩

/-- What `initNetconf` returns, the handles that are kept, and the link state it went by. -/
structure Run where
  res : ℤ
  ifmgrHandle : ℤ
  socketHandle : ℤ
  found : Option (ℕ × UInt16)
  events : List (Menu.Event Call)

/-- The name of an interface as it is shown. -/
def interfaceName (interface : UInt16) : String :=
  if interface = interfaceTypeWifi then "WIFI" else "ETHERNET"

/-- `initNetconf(&index)`. -/
def initNetconf (d : Devices) : Run :=
  let ifmgr := netconfInit d.ifmgrHandle d.ifmgrOpen
  let init := [.print "Initializing netconf..." [], .call (.netconfInit ifmgr.res)]
  if ifmgr.res ≤ 0 then
    ⟨ifmgr.res, ifmgr.handle, d.socketHandle, none,
      init ++ [.printError "Failed to initialize netconf: %x" [.int ifmgr.res]]⟩
  else
    let waited := waitForLink d.link 0 5
    let wait := init ++ [.print "Waiting for network connection... %ds" [.int 5]] ++ waited.events
    match waited.found with
    | none => ⟨1, ifmgr.handle, d.socketHandle, none,
        wait ++ [.printError "No network connection!" []]⟩
    | some (i, interface) =>
      let (res, address) := netconfGetAssignedAddress d.address interface
      let connect := wait ++ [.print "Connected using %s" [.str (interfaceName interface)],
        .call (.getAssignedAddress interface res)]
      if res < 0 then
        ⟨res, ifmgr.handle, d.socketHandle, some (i, interface),
          connect ++ [.printError "Failed to get IP address: %x" [.int res]]⟩
      else
        let socket := socketInit d.socketHandle d.socketOpen
        let shown := connect ++ [.print "IP address: %u.%u.%u.%u"
          ((address.getD []).map fun b => .int b.toNat), .call (.socketInit socket.res)]
        if socket.res ≤ 0 then
          ⟨socket.res, ifmgr.handle, socket.handle, some (i, interface),
            shown ++ [.printError "Failed to initialize socketlib: %x" [.int socket.res]]⟩
        else ⟨0, ifmgr.handle, socket.handle, some (i, interface), shown⟩

/-! ## What a `0` is to mean -/

/-- Both handles are kept, the interface that was chosen has reported that it is up, in a buffer
that is not used after it is freed, and has an address. -/
structure Connected (d : Devices) (r : Run) : Prop where
  ifmgr : 0 < r.ifmgrHandle
  socket : 0 < r.socketHandle
  link : ∃ i interface, r.found = some (i, interface) ∧ 0 ≤ (d.link i interface).res ∧
    (d.link i interface).reported = linkStateUp.toUInt16 ∧
    Lifetime.ReleasesAll (netconfGetIfLinkstate (d.link i) interface).ops ∧
    0 ≤ (d.address interface).res

/-- The link state of an interface is taken for up. -/
def AppearsUp (link : ℕ → UInt16 → LinkAnswer) (i : ℕ) (interface : UInt16) : Prop :=
  (netconfGetIfLinkstate (link i) interface).state = linkStateUp

instance (link : ℕ → UInt16 → LinkAnswer) (i : ℕ) (interface : UInt16) :
    Decidable (AppearsUp link i interface) :=
  inferInstanceAs (Decidable (_ = _))

/-- Neither interface is taken for up in round `i`. -/
def BothDown (link : ℕ → UInt16 → LinkAnswer) (i : ℕ) : Prop :=
  ¬ AppearsUp link i interfaceTypeWifi ∧ ¬ AppearsUp link i interfaceTypeEthernet

/-- The first link state that is taken for up, from round `start` on, of `n` rounds. -/
structure FirstUp (link : ℕ → UInt16 → LinkAnswer) (start n i : ℕ) (interface : UInt16) :
    Prop where
  le : start ≤ i
  lt : i < start + n
  down : ∀ j, start ≤ j → j < i → BothDown link j
  up : AppearsUp link i interface
  order : interface = interfaceTypeWifi ∨
    interface = interfaceTypeEthernet ∧ ¬ AppearsUp link i interfaceTypeWifi

/-- The handle of a device, kept or returned by `IOS_Open`, or the error. -/
def deviceHandle (handle ret : ℤ) : ℤ := if handle > 0 then handle else ret

/-- Opening the interface manager fails with a negative result, or it succeeds and in all rounds
no interface is taken for up, or getting the address of the first one fails, or opening the
socket library fails with a negative result. -/
def EndsWithError (d : Devices) : Prop :=
  deviceHandle d.ifmgrHandle d.ifmgrOpen < 0 ∨
    0 < deviceHandle d.ifmgrHandle d.ifmgrOpen ∧
      ∀ i interface, FirstUp d.link 0 5 i interface →
        (d.address interface).res < 0 ∨ deviceHandle d.socketHandle d.socketOpen < 0

/-- A round in which both interfaces are down can be left out. -/
lemma firstUp_succ_iff {link : ℕ → UInt16 → LinkAnswer} {start n i : ℕ} {interface : UInt16}
    (h : BothDown link start) :
    FirstUp link start (n + 1) i interface ↔ FirstUp link (start + 1) n i interface := by
  constructor
  · intro hfirst
    have hne : start ≠ i := by
      rintro rfl
      rcases hfirst.order with rfl | ⟨rfl, -⟩
      · exact h.1 hfirst.up
      · exact h.2 hfirst.up
    have hle := hfirst.le
    have hlt := hfirst.lt
    exact ⟨by omega, by omega, fun j hj => hfirst.down j (by omega), hfirst.up, hfirst.order⟩
  · intro hfirst
    have hle := hfirst.le
    have hlt := hfirst.lt
    refine ⟨by omega, by omega, fun j hj hji => ?_, hfirst.up, hfirst.order⟩
    rcases Nat.eq_or_lt_of_le hj with rfl | hgt
    · exact h
    · exact hfirst.down j hgt hji

/-- In a round in which an interface is up, it is the first one. -/
lemma FirstUp.eq_start {link : ℕ → UInt16 → LinkAnswer} {start n i : ℕ} {interface : UInt16}
    (h : FirstUp link start n i interface) (hup : ¬ BothDown link start) : i = start := by
  by_contra hne
  exact hup (h.down start (le_refl start) (lt_of_le_of_ne h.le (Ne.symm hne)))

/-- The interface that ends the waiting is the first one that is taken for up.

**Proof sketch.** Induction on the number of rounds that are left. -/
lemma found_waitForLink_iff {link : ℕ → UInt16 → LinkAnswer} {start n i : ℕ} {interface : UInt16} :
    (waitForLink link start n).found = some (i, interface) ↔ FirstUp link start n i interface := by
  induction n generalizing start with
  | zero =>
    refine iff_of_false (fun h => by cases h) fun h => ?_
    exact absurd h.lt (Nat.not_lt.mpr h.le)
  | succ n ih =>
    rw [waitForLink]
    dsimp only
    have hnone (j : ℕ) (hj : start ≤ j) (hlt : j < start) : BothDown link j := by omega
    split_ifs with hwifi hethernet
    · rw [Option.some.injEq, Prod.mk.injEq]
      constructor
      · rintro ⟨rfl, rfl⟩
        exact ⟨le_refl _, by omega, hnone, hwifi, Or.inl rfl⟩
      · intro h
        obtain rfl := h.eq_start fun hdown => hdown.1 hwifi
        exact ⟨rfl, (h.order.resolve_right fun hwired => hwired.2 hwifi).symm⟩
    · rw [Option.some.injEq, Prod.mk.injEq]
      constructor
      · rintro ⟨rfl, rfl⟩
        exact ⟨le_refl _, by omega, hnone, hethernet, Or.inr ⟨rfl, hwifi⟩⟩
      · intro h
        obtain rfl := h.eq_start fun hdown => hdown.2 hethernet
        refine ⟨rfl, (h.order.resolve_left ?_).1.symm⟩
        rintro rfl
        exact hwifi h.up
    · rw [firstUp_succ_iff ⟨hwifi, hethernet⟩]
      exact ih

/-- Opening a device returns its handle or the error. -/
lemma res_openDevice (handle ret : ℤ) : (openDevice handle ret).res = deviceHandle handle ret := by
  unfold openDevice deviceHandle
  split_ifs <;> rfl

/-- With no interface up in any round, the run ends with an error. -/
lemma endsWithError_of_found_eq_none {d : Devices}
    (hifmgr : 0 < deviceHandle d.ifmgrHandle d.ifmgrOpen)
    (hfound : (waitForLink d.link 0 5).found = none) : EndsWithError d := by
  refine Or.inr ⟨hifmgr, fun i interface hfirst => ?_⟩
  cases hfound.symm.trans (found_waitForLink_iff.mpr hfirst)

/-- With an interface up, the run ends with an error where its address or the socket library
fails. -/
lemma endsWithError_iff_of_found {d : Devices} {i : ℕ} {interface : UInt16}
    (hifmgr : 0 < deviceHandle d.ifmgrHandle d.ifmgrOpen)
    (hfound : (waitForLink d.link 0 5).found = some (i, interface)) :
    EndsWithError d ↔
      (d.address interface).res < 0 ∨ deviceHandle d.socketHandle d.socketOpen < 0 := by
  constructor
  · rintro (hneg | ⟨-, hall⟩)
    · omega
    · exact hall i interface (found_waitForLink_iff.mp hfound)
  · refine fun hstage => Or.inr ⟨hifmgr, fun j interface' hfirst => ?_⟩
    cases hfound.symm.trans (found_waitForLink_iff.mpr hfirst)
    exact hstage

/-- The run returns `0` iff no stage fails with another result.

**Proof sketch.** One case for each exit; the first link state that is taken for up is the one
the waiting ends with. -/
lemma res_eq_zero_iff (d : Devices) : (initNetconf d).res = 0 ↔ ¬ EndsWithError d := by
  unfold initNetconf
  simp only [netconfInit, socketInit, res_openDevice, netconfGetAssignedAddress]
  by_cases hifmgr : deviceHandle d.ifmgrHandle d.ifmgrOpen ≤ 0
  · rw [if_pos hifmgr]
    dsimp only
    constructor
    · rintro hzero (hneg | ⟨hpos, -⟩) <;> omega
    · intro hends
      exact le_antisymm hifmgr (not_lt.mp (not_or.mp hends).1)
  · rw [if_neg hifmgr]
    have hpos : 0 < deviceHandle d.ifmgrHandle d.ifmgrOpen := not_le.mp hifmgr
    cases hfound : (waitForLink d.link 0 5).found with
    | none =>
      have hends := endsWithError_of_found_eq_none hpos hfound
      exact iff_of_false Int.one_ne_zero (not_not.mpr hends)
    | some found =>
      obtain ⟨i, interface⟩ := found
      rw [endsWithError_iff_of_found hpos hfound, not_or]
      dsimp only
      by_cases haddress : (d.address interface).res < 0
      · rw [if_pos haddress]
        exact iff_of_false haddress.ne fun h => h.1 haddress
      · rw [if_neg haddress]
        by_cases hsocket : deviceHandle d.socketHandle d.socketOpen ≤ 0
        · rw [if_pos hsocket]
          exact ⟨fun hzero => ⟨haddress, hzero.not_lt⟩,
            fun h => le_antisymm hsocket (not_lt.mp h.2)⟩
        · rw [if_neg hsocket]
          exact iff_of_true rfl ⟨haddress, by omega⟩

/-- A link state that is read from the buffer is read when the buffer has been freed. -/
lemma not_releasesAll_ops (answer : UInt16 → LinkAnswer) {interface : UInt16}
    (h : 0 ≤ (answer interface).res) :
    ¬ Lifetime.ReleasesAll (netconfGetIfLinkstate answer interface).ops := by
  intro hreleases
  rw [netconfGetIfLinkstate, if_pos h] at hreleases
  rcases hreleases () with hnil | ⟨n, hops⟩
  · cases hnil
  · rw [Lifetime.on, List.filter_eq_self.mpr (by simp)] at hops
    have hlast := congrArg List.getLast? hops
    rw [List.getLast?_concat, List.getLast?_concat] at hlast
    cases hlast

/-- **When a `0` means a connection.** For all handles that are kept and all answers of the
devices: a result of `0` means that both handles are kept, that the interface has reported that it
is up in a buffer that is read before it is freed, and that it has an address, iff some stage
fails with a result other than `0`.

**Proof sketch.** The link state is always read behind the free, so no run with a link state that
is up is `Connected`; and the other runs that return `0` have no handle. -/
theorem connected_iff (d : Devices) :
    ((initNetconf d).res = 0 → Connected d (initNetconf d)) ↔ EndsWithError d := by
  have hnever : ¬ Connected d (initNetconf d) := by
    rintro ⟨-, -, i, interface, -, hres, -, hreleases, -⟩
    exact not_releasesAll_ops (d.link i) hres hreleases
  constructor
  · intro h
    by_contra hends
    exact hnever (h ((res_eq_zero_iff d).mpr hends))
  · intro hends hzero
    exact absurd hends ((res_eq_zero_iff d).mp hzero)

/-- Devices that all work, with the wireless interface up. -/
def workingDevices : Devices where
  ifmgrHandle := 5
  socketHandle := 6
  ifmgrOpen := 5
  socketOpen := 6
  link _ _ := ⟨0, 1, 1⟩
  address _ := ⟨0, [192, 168, 0, 2]⟩

/-- With devices that all work, the link state is read from a buffer that has been freed. -/
theorem not_connected :
    ¬ ∀ d : Devices, (initNetconf d).res = 0 → Connected d (initNetconf d) := by
  intro h
  obtain ⟨i, interface, -, hres, -, hreleases, -⟩ := (h workingDevices rfl).link
  exact not_releasesAll_ops (workingDevices.link i) hres hreleases

end InitNetconf

end RecoveryMenu
