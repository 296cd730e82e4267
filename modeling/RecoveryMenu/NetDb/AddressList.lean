import Mathlib.Algebra.Group.Nat.Defs
import Mathlib.Algebra.Order.Group.Int
import RecoveryMenu.NetDb.Relocation

set_option relaxedAutoImplicit false
set_option autoImplicit false

/-!
# The list of addresses (`ios_mcp/source/netdb.c`)

`gethostbyname` fills `addrptrs` with a pointer to each address of the answer, and puts a `NULL`
behind them. The field has a place for each address that an answer can hold, and none for the
`NULL` behind all of them.

## Main definitions

* `RecoveryMenu.NetDb.EntryAddress`: where the static record may be.
* `RecoveryMenu.NetDb.addressesOf`: the addresses that a caller finds in the list.
* `RecoveryMenu.NetDb.AddressListBounds`: the list is right and nothing else is written.

## Main results

* `RecoveryMenu.NetDb.addressList_iff`: the list is right and in bounds iff the answer has at
  most nine addresses.
* `RecoveryMenu.NetDb.not_addressList`: ten addresses are one too many.

## References

* `ios_mcp/source/netdb.c`, lines 96-122.
-/

namespace RecoveryMenu

namespace NetDb

/-! ## The record in memory -/

/-- An address at which an object can be: it is not the `NULL` pointer, and the object does not
run over the end of the address space. -/
structure EntryAddress where
  base : UInt32
  ne_zero : base ≠ 0
  fits : base.toNat + 4 * dnsQuerysWords ≤ 2 ^ 32

/-- The word at an address inside the record. -/
def load (base : UInt32) (w : Words) (p : UInt32) : Option UInt32 :=
  if (p - base).toNat < 4 * dnsQuerysWords then some (w ((p - base).toNat / 4)) else none

/-- The addresses that are found with a list of pointers, up to the `NULL`, which must be among
its first `n` elements. -/
def addressList (base : UInt32) (w : Words) : ℕ → UInt32 → Option (List UInt32)
  | 0, _ => none
  | n + 1, p => do
    let pointer ← load base w p
    if pointer = 0 then some []
    else
      let address ← load base w pointer
      let addresses ← addressList base w n (p + 4)
      some (address :: addresses)

/-- The addresses of `h_addr_list`, which has room for the addresses of an answer and a `NULL`. -/
def addressesOf (base : UInt32) (w : Words) : Option (List UInt32) :=
  addressList base w (maxAddresses + 1) (w hAddrList)

/-- The number of addresses that a record says it has. -/
def addressCount (w : Words) : ℕ := (count w).toNat

/-- The addresses that a record holds. -/
def addressesIn (w : Words) : List UInt32 :=
  (List.range (min (addressCount w) maxAddresses)).map fun i => w (ipaddrList + i)

/-- The word at the address of a field. -/
lemma load_fieldAddress (base : UInt32) (w : Words) {i : ℕ} (hi : i < dnsQuerysWords) :
    load base w (fieldAddress base i) = some (w i) := by
  have hoffset : (fieldAddress base i - base).toNat = 4 * i := by
    rw [dnsQuerysWords] at hi
    rw [fieldAddress, UInt32.add_comm, UInt32.add_sub_cancel, UInt32.toNat_ofNat']
    omega
  rw [load, hoffset, if_pos (by omega), Nat.mul_div_cancel_left i (by omega)]

/-- The next field. -/
lemma fieldAddress_succ (base : UInt32) (i : ℕ) :
    fieldAddress base (i + 1) = fieldAddress base i + 4 := by
  rw [fieldAddress, fieldAddress, Nat.mul_succ, UInt32.ofNat_add, ← UInt32.add_assoc]
  rfl

/-- The record is not at `NULL`. -/
lemma EntryAddress.toNat_ne_zero (a : EntryAddress) : a.base.toNat ≠ 0 :=
  fun h => a.ne_zero (UInt32.toNat_inj.mp h)

/-- The address of a field is not `NULL`. -/
lemma EntryAddress.fieldAddress_ne_zero (a : EntryAddress) {i : ℕ} (hi : i < dnsQuerysWords) :
    fieldAddress a.base i ≠ 0 := by
  intro hzero
  have hpos := a.toNat_ne_zero
  have hfits := a.fits
  have htoNat := congrArg UInt32.toNat hzero
  rw [dnsQuerysWords] at hi hfits
  rw [fieldAddress, UInt32.toNat_add, UInt32.toNat_ofNat', UInt32.toNat_zero] at htoNat
  omega

/-- The addresses found with pointers to fields and a `NULL` behind them.

**Proof sketch.** Induction on the fields. -/
lemma addressList_eq (a : EntryAddress) {w : Words} (fields : List ℕ) {n j : ℕ}
    (hfields : ∀ i ∈ fields, i < dnsQuerysWords)
    (hpointers : ∀ k (hk : k < fields.length), w (j + k) = fieldAddress a.base fields[k])
    (hnull : w (j + fields.length) = 0) (hj : j + fields.length < dnsQuerysWords)
    (hn : fields.length < n) :
    addressList a.base w n (fieldAddress a.base j) = some (fields.map w) := by
  induction fields generalizing n j with
  | nil =>
    obtain ⟨n, rfl⟩ := Nat.exists_eq_add_one_of_ne_zero (Nat.ne_of_gt hn)
    have hnull' : w j = 0 := hnull
    have hj' : j < dnsQuerysWords := hj
    simp [addressList, load_fieldAddress a.base w hj', hnull']
  | cons i fields ih =>
    obtain ⟨n, rfl⟩ := Nat.exists_eq_add_one_of_ne_zero (Nat.ne_of_gt (Nat.zero_lt_of_lt hn))
    obtain ⟨hi, hfields⟩ := List.forall_mem_cons.mp hfields
    rw [List.length_cons] at hj hnull hn
    have hpointer : w j = fieldAddress a.base i := hpointers 0 (Nat.succ_pos _)
    have hrest := @ih n (j + 1) hfields (fun k hk => by
        rw [Nat.add_assoc, Nat.add_comm 1 k]
        exact hpointers (k + 1) (Nat.succ_lt_succ hk))
      (by rwa [Nat.add_assoc, Nat.add_comm 1]) (by omega) (by omega)
    rw [fieldAddress_succ] at hrest
    simp [addressList, load_fieldAddress a.base w (show j < dnsQuerysWords by omega), hpointer,
      a.fieldAddress_ne_zero hi, load_fieldAddress a.base w hi, hrest]

/-- Pointers to fields without a `NULL` among the first `n` elements.

**Proof sketch.** Induction on `n`. -/
lemma addressList_eq_none (a : EntryAddress) {w : Words} {n j : ℕ}
    (hpointers : ∀ k < n, ∃ i < dnsQuerysWords, w (j + k) = fieldAddress a.base i)
    (hj : j + n ≤ dnsQuerysWords) :
    addressList a.base w n (fieldAddress a.base j) = none := by
  induction n generalizing j with
  | zero => rfl
  | succ n ih =>
    obtain ⟨i, hi, hpointer⟩ := hpointers 0 (Nat.succ_pos n)
    have hrest := @ih (j + 1) (fun k hk => by
        rw [Nat.add_assoc, Nat.add_comm 1 k]
        exact hpointers (k + 1) (Nat.succ_lt_succ hk)) (by omega)
    rw [Nat.add_zero] at hpointer
    rw [fieldAddress_succ] at hrest
    simp [addressList, load_fieldAddress a.base w (show j < dnsQuerysWords by omega), hpointer,
      a.fieldAddress_ne_zero hi, hrest]

/-! ## Filling the list -/

/-- The record after the loop: pointers to the addresses, and the `NULL` behind them.

**Proof sketch.** Induction along the loop. Its writes are behind `ipaddrs`, so the number of
addresses stays. -/
lemma addressLoop_spec (base : UInt32) (i : ℕ) (r : Record) {n : ℕ}
    (hn : addressCount r.words = n) (hi : i ≤ n) :
    (addressLoop base i r).written = r.written ++ List.range' (addrptrs + i) (n - i + 1) ∧
      ∀ j, (addressLoop base i r).words j =
        if addrptrs + i ≤ j ∧ j < addrptrs + n then
          fieldAddress base (ipaddrList + (j - addrptrs))
        else if j = addrptrs + n then 0 else r.words j := by
  induction i, r using addressLoop.induct base with
  | case1 i r hlt ih =>
    have hcount : addressCount (r.write (addrptrs + i)
        (fieldAddress base (ipaddrList + i))).words = n := by
      have hne : ipaddrs ≠ addrptrs + i := by
        rw [ipaddrs, addrptrs]
        omega
      rw [addressCount, count, Record.words_write, Function.update_of_ne hne, ← count]
      exact hn
    have hlt' : i < n := by
      rw [addressCount] at hn
      omega
    obtain ⟨hwritten, hwords⟩ := ih hcount hlt'
    rw [addressLoop, if_pos hlt]
    refine ⟨?_, fun j => ?_⟩
    · rw [hwritten, Record.written_write, List.append_assoc, List.singleton_append,
        show n - i + 1 = n - (i + 1) + 1 + 1 by omega, List.range'_succ]
      rfl
    · rw [hwords, Record.words_write]
      by_cases hj : j = addrptrs + i
      · subst hj
        rw [if_neg (by omega), if_neg (by omega), Function.update_self, if_pos (by omega),
          Nat.add_sub_cancel_left]
      · have hbehind : addrptrs + (i + 1) ≤ j ↔ addrptrs + i ≤ j := by omega
        simp only [Function.update_of_ne hj, hbehind]
  | case2 i r hge =>
    have hni : i = n := by
      rw [addressCount] at hn
      omega
    subst hni
    rw [addressLoop, if_neg hge]
    refine ⟨?_, fun j => ?_⟩
    · rw [Nat.sub_self]
      rfl
    · have hempty : ¬ (addrptrs + i ≤ j ∧ j < addrptrs + i) := by omega
      rw [Record.words_write, Function.update_apply, if_neg hempty]

/-- The fields of `hostent` that `gethostbyname` sets. -/
def hostentFields : List ℕ := [hAddrtype, hLength, hAddrList]

/-- The record after the list of addresses was filled. -/
lemma fillHostent_spec (base : UInt32) (w : Words) :
    (fillHostent base w).written =
        hostentFields ++ List.range' addrptrs (addressCount w + 1) ∧
      ∀ j, (fillHostent base w).words j =
        if addrptrs ≤ j ∧ j < addrptrs + addressCount w then
          fieldAddress base (ipaddrList + (j - addrptrs))
        else if j = addrptrs + addressCount w then 0
        else if j = hAddrList then fieldAddress base addrptrs
        else if j = hLength then 4
        else if j = hAddrtype then afInet
        else w j := by
  let r : Record := ((Record.mk w []).write hAddrtype afInet).write hLength 4 |>.write hAddrList
    (fieldAddress base addrptrs)
  have hcount : addressCount r.words = addressCount w := rfl
  obtain ⟨hwritten, hwords⟩ := addressLoop_spec base 0 r hcount (Nat.zero_le _)
  refine ⟨hwritten, fun j => ?_⟩
  rw [fillHostent, hwords, Nat.add_zero]
  simp only [r, Record.words_write, Function.update_apply]

/-- The pointers of the list. -/
lemma fillHostent_pointer (base : UInt32) (w : Words) {k : ℕ} (hk : k < addressCount w) :
    (fillHostent base w).words (addrptrs + k) = fieldAddress base (ipaddrList + k) := by
  rw [(fillHostent_spec base w).2, if_pos (by omega), Nat.add_sub_cancel_left]

/-- A field in front of the list stays. -/
lemma fillHostent_of_lt (base : UInt32) (w : Words) {i : ℕ} (hi : i < addrptrs) :
    (fillHostent base w).words i = w i := by
  have hfields : addrptrs < hAddrtype ∧ addrptrs < hLength ∧ addrptrs < hAddrList := by decide
  rw [(fillHostent_spec base w).2, if_neg (by omega), if_neg (by omega), if_neg (by omega),
    if_neg (by omega), if_neg (by omega)]

/-- A record with as many addresses as it can hold, or fewer: the list is that of its
addresses. -/
lemma addressesOf_fillHostent (a : EntryAddress) {w : Words} (h : addressCount w ≤ maxAddresses) :
    addressesOf a.base (fillHostent a.base w).words = some (addressesIn w) := by
  have hmin : min (addressCount w) maxAddresses = addressCount w := min_eq_left h
  rw [maxAddresses] at h
  have hlist : (fillHostent a.base w).words hAddrList = fieldAddress a.base addrptrs := by
    rw [(fillHostent_spec a.base w).2, if_neg, if_neg, if_pos rfl] <;>
      simp only [hAddrList, addrptrs] <;> omega
  have hnull : (fillHostent a.base w).words (addrptrs + addressCount w) = 0 := by
    rw [(fillHostent_spec a.base w).2, if_neg (by omega), if_pos rfl]
  have hfields : ∀ k < addressCount w, (fillHostent a.base w).words (ipaddrList + k) =
      w (ipaddrList + k) := fun k hk =>
    fillHostent_of_lt a.base w (by simp only [ipaddrList, addrptrs]; omega)
  have heq := addressList_eq a (w := (fillHostent a.base w).words) (j := addrptrs)
    (n := maxAddresses + 1) ((List.range (addressCount w)).map (ipaddrList + ·))
    (by
      simp only [List.mem_map, List.mem_range, ipaddrList, dnsQuerysWords]
      rintro i ⟨k, hk, rfl⟩
      omega)
    (fun k hk => by
      rw [List.length_map, List.length_range] at hk
      rw [List.getElem_map, List.getElem_range]
      exact fillHostent_pointer a.base w hk)
    (by rw [List.length_map, List.length_range, hnull])
    (by simp only [List.length_map, List.length_range, addrptrs, dnsQuerysWords]; omega)
    (by simp only [List.length_map, List.length_range, maxAddresses]; omega)
  rw [addressesOf, hlist, heq, List.map_map, addressesIn, hmin]
  refine congrArg some (List.map_congr_left fun k hk => hfields k (List.mem_range.mp hk))

/-! ## Bounds -/

/-- Behind the query, which left the record `w`, only `addrptrs` and the fields of `hostent` are
written, and of an answer with one to ten addresses the list is returned. -/
structure AddressListBounds (base : UInt32) (reply w : Words) (o : Outcome) : Prop where
  written : ∀ i ∈ o.written, (addrptrs ≤ i ∧ i < addrptrs + maxAddresses) ∨ i ∈ hostentFields
  unchanged : ∀ i, ¬ (addrptrs ≤ i ∧ i < addrptrs + maxAddresses) → i ∉ hostentFields →
    o.state.dnsEntry i = w i
  list : 1 ≤ count reply → count reply ≤ maxAddresses → o.ret = fieldAddress base hName ∧
    addressesOf base o.state.dnsEntry = some (addressesIn reply)

/-- The number of addresses is zero iff its word is. -/
lemma count_eq_zero_iff (w : Words) : count w = 0 ↔ w ipaddrs = 0 := by
  constructor
  · intro h
    have hsigned : (w ipaddrs).toInt32 = 0 := Int32.toInt_inj.mp h
    have hword := congrArg Int32.toUInt32 hsigned
    rwa [UInt32.toUInt32_toInt32] at hword
  · intro h
    rw [count, h]
    rfl

/-- The number of addresses and the addresses are those of the answer. -/
lemma answered_apply (base : UInt32) (w reply : Words) {i : ℕ} (hi : i < addrptrs) :
    translatePointers base (copyQuery w reply) i = reply i := by
  have hfields : addrptrs < hName ∧ addrptrs < hAliases ∧ addrptrs < alist := by decide
  have hwords : addrptrs < dnsQuerysWords := by decide
  rw [translatePointers_apply, if_neg (by omega), if_neg (by omega), if_neg (by omega), copyQuery,
    if_pos (by omega)]

/-- The number of addresses is that of the answer. -/
lemma count_answered (base : UInt32) (w reply : Words) :
    count (translatePointers base (copyQuery w reply)) = count reply := by
  rw [count, answered_apply base w reply (by decide), ← count]

/-- The addresses are those of the answer. -/
lemma addressesIn_answered (base : UInt32) (w reply : Words) :
    addressesIn (translatePointers base (copyQuery w reply)) = addressesIn reply := by
  rw [addressesIn, addressCount, count_answered, ← addressCount, addressesIn]
  refine List.map_congr_left fun i hi => answered_apply base w reply ?_
  rw [List.mem_range, maxAddresses] at hi
  simp only [ipaddrList, addrptrs]
  omega

/-- The list is right and in bounds iff there are at most nine addresses.

**Proof sketch.** The `NULL` is written behind the pointers; with ten or more addresses that is
behind `addrptrs`, or a pointer is. -/
lemma addressListBounds_iff (a : EntryAddress) {reply w : Words} (hcount : count w = count reply)
    (haddresses : addressesIn w = addressesIn reply) :
    AddressListBounds a.base reply w ⟨fieldAddress a.base hName,
      ⟨(fillHostent a.base w).words, 0⟩, (fillHostent a.base w).written⟩ ↔
      count reply < maxAddresses := by
  obtain ⟨hwritten, hwords⟩ := fillHostent_spec a.base w
  constructor
  · intro h
    by_contra hmany
    have hmem : addrptrs + maxAddresses ∈ (fillHostent a.base w).written := by
      rw [hwritten, List.mem_append, List.mem_range'_1, addressCount]
      omega
    rcases h.written _ hmem with ⟨-, hlt⟩ | hfield
    · exact absurd hlt (lt_irrefl _)
    · exact absurd hfield (by decide)
  · intro hfew
    have hlt : addressCount w < maxAddresses := by
      rw [addressCount]
      rw [maxAddresses] at hfew ⊢
      omega
    refine ⟨?_, ?_, fun _ _ => ⟨rfl, haddresses ▸ addressesOf_fillHostent a hlt.le⟩⟩
    · intro i hi
      rw [hwritten, List.mem_append, List.mem_range'_1] at hi
      rcases hi with hfield | hrange
      · exact Or.inr hfield
      · left
        omega
    · intro i hrange hfield
      simp only [hostentFields, List.mem_cons, List.not_mem_nil, or_false, not_or] at hfield
      change (fillHostent a.base w).words i = w i
      rw [hwords, if_neg (by omega), if_neg (by omega), if_neg hfield.2.2, if_neg hfield.2.1,
        if_neg hfield.1]

/-- The lookup of a name that is answered. -/
lemma gethostbyname_answering (base : UInt32) (res : Int32) (reply : Words) (c : UInt8)
    (cs : List UInt8) (s : State) :
    gethostbyname base (answering res reply) (some (c :: cs)) s =
      let w := translatePointers base (copyQuery s.dnsEntry reply)
      if reply ipaddrs = 0 then ⟨0, ⟨w, 1⟩, []⟩
      else ⟨fieldAddress base hName, ⟨(fillHostent base w).words, 0⟩,
        (fillHostent base w).written⟩ := by
  have hipaddrs := answered_apply base s.dnsEntry reply (i := ipaddrs) (by decide)
  simp only [gethostbyname, doDnsQuery_answering, hipaddrs]

/-- When the lookup of a name that is answered is in bounds. -/
lemma gethostbyname_bounds_iff (a : EntryAddress) (res : Int32) (reply : Words) (c : UInt8)
    (cs : List UInt8) (s : State) :
    AddressListBounds a.base reply
        (doDnsQuery (answering res reply) (c :: cs) 1 0 0 a.base s.dnsEntry).2
        (gethostbyname a.base (answering res reply) (some (c :: cs)) s) ↔
      count reply < maxAddresses := by
  rw [doDnsQuery_answering, gethostbyname_answering]
  by_cases hnone : reply ipaddrs = 0
  · have hzero := (count_eq_zero_iff reply).mpr hnone
    simp only [if_pos hnone]
    refine iff_of_true ⟨fun i hi => absurd hi List.not_mem_nil, fun _ _ _ => rfl, ?_⟩ ?_
    · intro hone
      omega
    · rw [hzero]
      decide
  · simp only [if_neg hnone]
    exact addressListBounds_iff a (count_answered _ _ _) (addressesIn_answered _ _ _)

/-- **The list of addresses.** For every answer, whatever number of addresses it gives, the
lookup of a name writes only `addrptrs` and the fields of `hostent`, and returns the list of the
addresses where the answer has room for them, iff the number is at most nine. -/
theorem addressList_iff (a : EntryAddress) (res : Int32) (reply : Words) (c : UInt8)
    (cs : List UInt8) (s : State) :
    AddressListBounds a.base reply
        (doDnsQuery (answering res reply) (c :: cs) 1 0 0 a.base s.dnsEntry).2
        (gethostbyname a.base (answering res reply) (some (c :: cs)) s) ↔ count reply ≤ 9 := by
  rw [gethostbyname_bounds_iff, maxAddresses]
  omega

/-- With ten addresses the `NULL` is written over the next field. -/
theorem not_addressList :
    ¬ ∀ (a : EntryAddress) (res : Int32) (reply : Words) (c : UInt8) (cs : List UInt8) (s : State),
      AddressListBounds a.base reply
        (doDnsQuery (answering res reply) (c :: cs) 1 0 0 a.base s.dnsEntry).2
        (gethostbyname a.base (answering res reply) (some (c :: cs)) s) := by
  intro h
  let a : EntryAddress := ⟨0x05120000, by decide, by decide⟩
  let reply : Words := fun i => if i = ipaddrs then 10 else 0
  have hten := (gethostbyname_bounds_iff a 0 reply 0x61 [] ⟨fun _ => 0, 0⟩).mp (h a _ _ _ _ _)
  exact absurd hten (by decide)

end NetDb

end RecoveryMenu
