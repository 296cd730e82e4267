import RecoveryMenu.Foundations.ByteMemory
import RecoveryMenu.Foundations.Lifetime

set_option relaxedAutoImplicit false
set_option autoImplicit false

/-!
# The network configuration (`ios_mcp/source/netconf.c`)

The calls of the interface manager, and `NetConfCfg` as the bytes it has in memory. The
enumerations of the target ABI take one byte.

## Main definitions

* `RecoveryMenu.NetConf.openDevice`: opening a device whose handle is kept.
* `RecoveryMenu.NetConf.netconfGetIfLinkstate`, `RecoveryMenu.NetConf.netconfGetAssignedAddress`.
* `RecoveryMenu.NetConf.Field`: a field by its offset and its size.
* `RecoveryMenu.NetConf.sizeofCfg` and the fields that the options write.

## Main results

* `RecoveryMenu.NetConf.Field.load_storeAll`: a field that is not written keeps its bytes.

## References

* `ios_mcp/source/netconf.c`, lines 7-19 and 45-83.
* `ios_mcp/source/netconf.h`, lines 30-167.
-/

namespace RecoveryMenu

namespace NetConf

open ByteMemory

/-! ## Values -/

/-- `NET_CFG_INTERFACE_TYPE_WIFI`. -/
def interfaceTypeWifi : UInt16 := 0

/-- `NET_CFG_INTERFACE_TYPE_ETHERNET`. -/
def interfaceTypeEthernet : UInt16 := 1

/-- `NET_CFG_ETH_CFG_NEGOTIATION_AUTO`. -/
def ethCfgNegotiationAuto : UInt16 := 2

/-- `NET_CONFIG_IPV4_MODE_AUTO_OBTAIN_IP`. -/
def ipv4ModeAutoObtainIp : UInt8 := 0

/-- `NET_CFG_LINK_STATE_UP`. -/
def linkStateUp : UInt8 := 1

/-! ## Calls -/

/-- What opening a device returns, and the handle that is kept. -/
structure Opened where
  res : ℤ
  handle : ℤ
  deriving DecidableEq, Repr

/-- `netconf_init` and `socketInit`: `handle` is kept from before, and `ret` is what `IOS_Open`
returns. -/
def openDevice (handle ret : ℤ) : Opened :=
  if handle > 0 then ⟨handle, handle⟩
  else if ret > 0 then ⟨ret, ret⟩
  else ⟨ret, handle⟩

/-- `netconf_init()`, which opens `/dev/net/ifmgr/ncl`. -/
def netconfInit (ifmgrHandle ret : ℤ) : Opened := openDevice ifmgrHandle ret

/-- The answer to the link-state call: its result, `buf[2]` as the call has left it, and what is
read there when the buffer has been freed. -/
structure LinkAnswer where
  res : ℤ
  reported : UInt16
  freed : UInt16
  deriving DecidableEq, Repr

/-- The link state that is returned, and what was done with the buffer. -/
structure LinkQuery where
  state : UInt8
  ops : List (Lifetime.Op Unit)
  deriving DecidableEq, Repr

/-- `netconf_get_if_linkstate(interface)`. The result is narrowed to the enumeration. -/
def netconfGetIfLinkstate (answer : UInt16 → LinkAnswer) (interface : UInt16) : LinkQuery :=
  let res := (answer interface).res
  -- `allocIobuf`, `buf[0]`, the call and `freeIobuf`
  let ops := [.acquire (), .use (), .use (), .release ()]
  if res ≥ 0 then ⟨(answer interface).freed.toUInt8, ops ++ [.use ()]⟩
  else ⟨UInt8.ofInt res, ops⟩

/-- The answer to the address call. -/
structure AddressAnswer where
  res : ℤ
  address : List UInt8
  deriving DecidableEq, Repr

/-- `netconf_get_assigned_address(interface, &address)`: the result, and the address if it is
stored. -/
def netconfGetAssignedAddress (answer : UInt16 → AddressAnswer) (interface : UInt16) :
    ℤ × Option (List UInt8) :=
  let res := (answer interface).res
  (res, if res ≥ 0 then some (answer interface).address else none)

/-! ## Layout -/

/-- A field of a structure: where it starts and how many bytes it has. -/
structure Field where
  off : ℕ
  size : ℕ
  deriving DecidableEq, Repr

/-- Byte `i` of the structure is one of the field. -/
def Field.Has (f : Field) (i : ℕ) : Prop := f.off ≤ i ∧ i < f.off + f.size

instance (f : Field) (i : ℕ) : Decidable (f.Has i) := inferInstanceAs (Decidable (_ ∧ _))

/-- The store of a half-word in a field. -/
def Field.half (f : Field) (w : UInt16) : Store := ⟨f.off, bytesOfHalf w⟩

/-- The number that a field holds. -/
def Field.value (f : Field) (cfg : Frame) : ℕ := BigEndian.toNat (cfg.load f.off f.size)

/-- Two fields have no byte in common. -/
def Field.Disjoint (f g : Field) : Prop := f.off + f.size ≤ g.off ∨ g.off + g.size ≤ f.off

instance (f g : Field) : Decidable (f.Disjoint g) := inferInstanceAs (Decidable (_ ∨ _))

/-- A store writes a part of a field. -/
def Field.Contains (f : Field) (s : Store) : Prop :=
  f.off ≤ s.off ∧ s.off + s.bytes.length ≤ f.off + f.size

instance (f : Field) (s : Store) : Decidable (f.Contains s) :=
  inferInstanceAs (Decidable (_ ∧ _))

/-- The `NetConfInterface` at an offset. -/
def interface (off : ℕ) : Field := ⟨off, 0x20⟩

/-- `if_index` of the `NetConfInterface` at an offset. -/
def ifIndex (off : ℕ) : Field := ⟨off, 2⟩

/-- `if_sate` of the `NetConfInterface` at an offset. -/
def ifSate (off : ℕ) : Field := ⟨off + 2, 2⟩

/-- `ipv4Info.mode` of the `NetConfInterface` at an offset. -/
def ipv4Mode (off : ℕ) : Field := ⟨off + 8, 1⟩

/-- The offset of `wl0`, which has `0x20` bytes as `eth0` has. -/
def wl0 : ℕ := 0

/-- The offset of `wifi`, which has `0x70` bytes. -/
def wifi : ℕ := wl0 + 0x20

/-- The offset of `eth0`. -/
def eth0 : ℕ := wifi + 0x70

/-- The offset of `ethCfg`, which has `8` bytes. -/
def ethCfg : ℕ := eth0 + 0x20

/-- The offset of `proxy`, which has `0x1C8` bytes. -/
def proxy : ℕ := ethCfg + 8

/-- `sizeof(NetConfCfg)`. -/
def sizeofCfg : ℕ := proxy + 0x1C8

-- the assertion behind the structure
example : sizeofCfg = 0x280 := rfl

/-- `wifi.config_method`. -/
def configMethod : Field := ⟨wifi, 2⟩

/-- `wifi.config.ssid`. -/
def ssid : Field := ⟨wifi + 4, 0x20⟩

/-- `wifi.config.ssidlength`. -/
def ssidlength : Field := ⟨wifi + 4 + 0x20, 2⟩

/-- `wifi.config.privacy.mode`. -/
def privacyMode : Field := ⟨wifi + 4 + 0x24, 2⟩

/-- `wifi.config.privacy.aes_key_len`. -/
def aesKeyLen : Field := ⟨wifi + 4 + 0x24 + 4, 2⟩

/-- `wifi.config.privacy.aes_key`. -/
def aesKey : Field := ⟨wifi + 4 + 0x24 + 6, 0x40⟩

/-- `ethCfg.negotiation`. -/
def negotiation : Field := ⟨ethCfg + 4, 2⟩

/-! ## Stores and fields -/

/-- A field has the bytes of the stores it contains. -/
lemma Field.Contains.has {f : Field} {s : Store} (h : f.Contains s) {i : ℕ} (hi : s.Writes i) :
    f.Has i :=
  ⟨h.1.trans hi.1, hi.2.trans_le h.2⟩

/-- A store in a field does not write the bytes of a disjoint field. -/
lemma Field.Contains.not_writes {f g : Field} {s : Store} (h : f.Contains s)
    (hdisjoint : f.Disjoint g) {i : ℕ} (hi : g.Has i) : ¬ s.Writes i := by
  intro hwrites
  have hhas := h.has hwrites
  unfold Field.Has at hhas hi
  unfold Field.Disjoint at hdisjoint
  omega

/-- A half-word that has just been stored is the value of its field. -/
lemma Field.value_store_half {f : Field} (hsize : f.size = 2) (cfg : Frame) (w : UInt16) :
    f.value (cfg.store (f.half w).off (f.half w).bytes) = w.toNat := by
  have hload := Frame.load_store_self cfg f.off (bytesOfHalf w)
  rw [length_bytesOfHalf, ← hsize] at hload
  rw [Field.value, Field.half, hload, toNat_bytesOfHalf]

/-- A field keeps its bytes if no store writes one of them. -/
lemma Field.load_storeAll {f : Field} (cfg : Frame) {ss : List Store}
    (h : ∀ s ∈ ss, ∀ i, f.Has i → ¬ s.Writes i) :
    (cfg.storeAll ss).load f.off f.size = cfg.load f.off f.size :=
  Frame.load_congr fun i hle hlt =>
    Frame.storeAll_of_not_writes cfg fun s hs => h s hs i ⟨hle, hlt⟩

end NetConf

end RecoveryMenu
