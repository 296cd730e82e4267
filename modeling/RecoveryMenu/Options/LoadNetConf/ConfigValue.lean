import Mathlib.Data.List.Find
import RecoveryMenu.Foundations.CString
import RecoveryMenu.Menu
import RecoveryMenu.NetConf

set_option relaxedAutoImplicit false
set_option autoImplicit false

/-!
# One value of `network.cfg` (`ios_mcp/source/options/LoadNetConf.c`)

`network_parse_config_value` gets a key and a value as strings in the buffer. What it stores is
a function of their characters, which an *entry* has.

## Main definitions

* `RecoveryMenu.LoadNetConf.networkParseConfigValue`: what is shown and stored for a key.
* `RecoveryMenu.LoadNetConf.Entry`: the characters of a key and of its value.
* `RecoveryMenu.LoadNetConf.Entry.stores`: what an entry stands for.

## Main results

* `RecoveryMenu.LoadNetConf.Passes.stores_eq`: what is stored for the strings of an entry.

## References

* `ios_mcp/source/options/LoadNetConf.c`, lines 10-68.
-/

namespace RecoveryMenu

namespace LoadNetConf

open ByteMemory NetConf

/-! ## Names -/

/-- `"type"`. -/
def typeKey : List UInt8 := ascii ['t', 'y', 'p', 'e']

/-- `"ssid"`. -/
def ssidKey : List UInt8 := ascii ['s', 's', 'i', 'd']

/-- `"key"`. -/
def keyKey : List UInt8 := ascii ['k', 'e', 'y']

/-- `"key_type"`. -/
def keyTypeKey : List UInt8 := ascii ['k', 'e', 'y', '_', 't', 'y', 'p', 'e']

/-- The values of `type`, and what each of them stores. -/
def interfaceTypes : List (List UInt8 × List Store) :=
  [(ascii ['w', 'i', 'f', 'i'],
    [(ifIndex wl0).half interfaceTypeWifi, (ifSate wl0).half 1,
      ⟨(ipv4Mode wl0).off, [ipv4ModeAutoObtainIp]⟩, configMethod.half 0]),
   (ascii ['e', 't', 'h'],
    [(ifIndex eth0).half interfaceTypeEthernet, (ifSate eth0).half 1,
      ⟨(ipv4Mode eth0).off, [ipv4ModeAutoObtainIp]⟩, negotiation.half ethCfgNegotiationAuto])]

/-- The values of `key_type`, and the `NET_CFG_WIFI_PRIVACY_MODE_` that each of them stores. -/
def keyTypes : List (List UInt8 × List Store) :=
  [(ascii ['N', 'O', 'N', 'E'], [privacyMode.half 0]),
   (ascii ['W', 'E', 'P'], [privacyMode.half 1]),
   (ascii ['W', 'P', 'A', '2', '_', 'P', 'S', 'K', '_', 'T', 'K', 'I', 'P'],
    [privacyMode.half 3]),
   (ascii ['W', 'P', 'A', '_', 'P', 'S', 'K', '_', 'T', 'K', 'I', 'P'], [privacyMode.half 4]),
   (ascii ['W', 'P', 'A', '2', '_', 'P', 'S', 'K', '_', 'A', 'E', 'S'], [privacyMode.half 5]),
   (ascii ['W', 'P', 'A', '_', 'P', 'S', 'K', '_', 'A', 'E', 'S'], [privacyMode.half 6])]

/-! ## The call -/

/-- What `network_parse_config_value` shows and stores in `cfg`. -/
structure Effect where
  texts : List (String × List Menu.Arg)
  stores : List Store

/-- The row of a table whose name a string is equal to. -/
def lookup (table : List (List UInt8 × List Store)) (value : Frame) : Option (List Store) :=
  (table.find? fun row => value.strncmp 0 (row.1 ++ [0]) = 0).map Prod.snd

/-- `%s` of a value; the text is cut off by the buffer of `gfx_printf`. -/
def valueArg : Option Frame → Menu.Arg
  | some value => .chars (value.cString 0 0x100)
  | none => .str "(null)"

/-- `network_parse_config_value(&index, &cfg, key, value, value_len)`, where the frames start at
the pointers. -/
def networkParseConfigValue (key : Frame) (value : Option Frame) (valueLen : ℤ) : Effect :=
  if key.strncmp 0 (typeKey ++ [0]) = 0 then
    { texts := [("Type: %s", [valueArg value])]
      stores := (value.bind (lookup interfaceTypes)).getD [] }
  else if key.strncmp 0 (ssidKey ++ [0]) = 0 then
    { texts := [("SSID: %s (%lu)", [valueArg value, .int valueLen])]
      stores := match value with
        | some value => [⟨ssid.off, value.load 0 valueLen.toNat⟩,
            ssidlength.half (UInt16.ofNat valueLen.toNat)]
        | none => [] }
  else if key.strncmp 0 (keyKey ++ [0]) = 0 then
    { texts := [("Key: ******* (%lu)", [.int valueLen])]
      stores := match value with
        | some value => [⟨aesKey.off, value.load 0 valueLen.toNat⟩,
            aesKeyLen.half (UInt16.ofNat valueLen.toNat)]
        | none => [] }
  else if key.strncmp 0 (keyTypeKey ++ [0]) = 0 then
    match value with
    | some value =>
      match lookup keyTypes value with
      | some stores => ⟨[("Key type: %s", [valueArg value])], stores⟩
      | none => ⟨[("Key type: %s", [valueArg value]), ("Unknown key type!", [])], []⟩
    | none => ⟨[("Key type: %s", [valueArg none])], []⟩
  else ⟨[], []⟩

/-! ## Entries -/

/-- The characters of a key, up to its NUL, and all those of its value. -/
structure Entry where
  key : List UInt8
  value : Option (List UInt8)
  deriving DecidableEq, Repr

/-- The row of a table with a name. -/
def named (table : List (List UInt8 × List Store)) (name : List UInt8) : List Store :=
  ((table.find? fun row => name = row.1).map Prod.snd).getD []

/-- What the value of a key stands for in the configuration. -/
def valueStores (key value : List UInt8) : List Store :=
  if key = typeKey then named interfaceTypes (value.takeWhile (· ≠ 0))
  else if key = ssidKey then
    [⟨ssid.off, value⟩, ssidlength.half (UInt16.ofNat value.length)]
  else if key = keyKey then
    [⟨aesKey.off, value⟩, aesKeyLen.half (UInt16.ofNat value.length)]
  else if key = keyTypeKey then named keyTypes (value.takeWhile (· ≠ 0))
  else []

/-- What an entry stands for in the configuration. -/
def Entry.stores (e : Entry) : List Store := (e.value.map (valueStores e.key)).getD []

/-- A value stands at its pointer, with its length and a NUL behind it. -/
inductive PassesValue : Option Frame → ℤ → Option (List UInt8) → Prop
  | null (n : ℤ) : PassesValue none n none
  | value {value : Frame} {bs : List UInt8} (load_eq : value.load 0 bs.length = bs)
      (nul : value bs.length = 0) : PassesValue (some value) bs.length (some bs)

/-- The arguments of a call are the strings of an entry. -/
structure Passes (key : Frame) (value : Option Frame) (valueLen : ℤ) (e : Entry) : Prop where
  key : key.IsString 0 e.key
  value : PassesValue value valueLen e.value

/-- The characters of a value that is passed on. -/
lemma PassesValue.exists_eq {value : Frame} {n : ℤ} {bs : Option (List UInt8)}
    (h : PassesValue (some value) n bs) :
    ∃ v, bs = some v ∧ n = v.length ∧ value.load 0 v.length = v := by
  cases h with
  | value hload _ => exact ⟨_, rfl, rfl, hload⟩

/-- The arguments of a call are the strings of one entry only. -/
lemma Passes.eq {key : Frame} {value : Option Frame} {valueLen : ℤ} {e e' : Entry}
    (h : Passes key value valueLen e) (h' : Passes key value valueLen e') : e = e' := by
  obtain ⟨ekey, evalue⟩ := e
  obtain ⟨ekey', evalue'⟩ := e'
  obtain rfl : ekey = ekey' := h.key.eq h'.key
  obtain rfl : evalue = evalue' := by
    have hvalue : PassesValue value valueLen evalue := h.value
    have hvalue' : PassesValue value valueLen evalue' := h'.value
    cases value with
    | none =>
      cases hvalue
      cases hvalue'
      rfl
    | some value =>
      obtain ⟨v, rfl, hlen, hload⟩ := hvalue.exists_eq
      obtain ⟨v', rfl, hlen', hload'⟩ := hvalue'.exists_eq
      have hlength : v.length = v'.length := Nat.cast_inj.mp (hlen.symm.trans hlen')
      rw [← hload, ← hload', hlength]
  rfl

/-- Looking up a string by its characters. -/
lemma getD_lookup {table : List (List UInt8 × List Store)} {value : Frame} {s : List UInt8}
    (htable : ∀ row ∈ table, 0 ∉ row.1) (hs : value.IsString 0 s) :
    (lookup table value).getD [] = named table s := by
  rw [lookup, named, List.find?_congr]
  intro row hrow
  exact decide_eq_decide.mpr (hs.strncmp_eq_zero_iff (htable row hrow))

/-- **What a call stores.** The call with the strings of an entry stores what the entry stands
for.

**Proof sketch.** Each comparison of the strings is one of their characters. -/
theorem Passes.stores_eq {key : Frame} {value : Option Frame} {valueLen : ℤ} {e : Entry}
    (h : Passes key value valueLen e) :
    (networkParseConfigValue key value valueLen).stores = e.stores := by
  have hkey (lit : List UInt8) (hlit : 0 ∉ lit) :
      key.strncmp 0 (lit ++ [0]) = 0 ↔ e.key = lit := h.key.strncmp_eq_zero_iff hlit
  obtain ⟨ekey, evalue⟩ := e
  have hvalue : PassesValue value valueLen evalue := h.value
  simp only [networkParseConfigValue, hkey typeKey (by decide), hkey ssidKey (by decide),
    hkey keyKey (by decide), hkey keyTypeKey (by decide), Entry.stores]
  cases hvalue with
  | null n =>
    split_ifs <;> rfl
  | @value value bs hload hnul =>
    -- the value up to its first NUL, as the two tables are searched for it
    have hstring : value.IsString 0 (bs.takeWhile (· ≠ 0)) := by
      have hend : value (0 + bs.length) = 0 := by rwa [Nat.zero_add]
      have hcut := Frame.isString_cString hend
      rwa [Frame.cString, hload] at hcut
    simp only [Option.map_some, Option.getD_some, Option.bind_some, valueStores,
      Int.toNat_natCast, hload]
    split_ifs
    · exact getD_lookup (by decide) hstring
    · rfl
    · rfl
    · rw [← getD_lookup (by decide) hstring]
      cases lookup keyTypes value with
      | none => rfl
      | some stores => rfl
    · rfl

end LoadNetConf

end RecoveryMenu
