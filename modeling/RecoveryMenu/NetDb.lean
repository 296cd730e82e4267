import Mathlib.Data.Int.Notation
import Mathlib.Data.Nat.Notation
import Mathlib.Logic.Function.Basic
import Mathlib.Tactic.SplitIfs
import RecoveryMenu.Foundations.MessageLayout

set_option relaxedAutoImplicit false
set_option autoImplicit false

/-!
# Looking up a host (`ios_mcp/source/netdb.c`)

`gethostbyname` asks the resolver of the system, which answers with a copy of its own record of
the query. The pointers in the record point into the copy of the resolver and are translated to
the record of the caller; the list of addresses is built by `gethostbyname` itself, for as many
addresses as the answer says it has.

The record is taken as words, numbered from its start, and the storage behind its end is still
there, so that a write past a field or past the record has a meaning.

## Main definitions

* `RecoveryMenu.NetDb.doDnsQuery`, `RecoveryMenu.NetDb.gethostbyname`, over
  `RecoveryMenu.NetDb.Resolver`.
* `RecoveryMenu.NetDb.Record`: the record, and the words of it that were written.

## References

* `ios_mcp/source/netdb.c`, `ios_mcp/source/netdb.h`.
-/

namespace RecoveryMenu

namespace NetDb

/-! ## The record -/

/-- The words from the start of a `struct dns_querys` on. -/
abbrev Words := ℕ → UInt32

/-- `sizeof(struct dns_querys) / 4`. -/
def dnsQuerysWords : ℕ := 0x2bc / 4

/-- `ipaddrs`. -/
def ipaddrs : ℕ := 0x20 / 4

/-- `ipaddr_list`. -/
def ipaddrList : ℕ := 0x24 / 4

/-- The number of elements of `ipaddr_list` and of `addrptrs`. -/
def maxAddresses : ℕ := 10

/-- `addrptrs`. -/
def addrptrs : ℕ := 0x4c / 4

/-- `alist`. -/
def alist : ℕ := 0x280 / 4

/-- `hostent.h_name`. -/
def hName : ℕ := 0x290 / 4

/-- `hostent.h_aliases`. -/
def hAliases : ℕ := 0x294 / 4

/-- `hostent.h_addrtype`. -/
def hAddrtype : ℕ := 0x298 / 4

/-- `hostent.h_length`. -/
def hLength : ℕ := 0x29c / 4

/-- `hostent.h_addr_list`. -/
def hAddrList : ℕ := 0x2a0 / 4

/-- `query_ios_ptr`. -/
def queryIosPtr : ℕ := 0x2b8 / 4

/-- The address of a word of the record at `base`. -/
def fieldAddress (base : UInt32) (i : ℕ) : UInt32 := base + UInt32.ofNat (4 * i)

/-- `ipaddrs`, as an `int32_t`. -/
def count (w : Words) : ℤ := (w ipaddrs).toInt32.toInt

/-! ## The query -/

/-- `struct dns_query_params`. -/
structure DnsQueryParams where
  name : List UInt8
  type : UInt8
  addr : UInt32
  ttl : UInt32
  deriving DecidableEq, Repr

/-- What a call of the resolver meets: whether the memory for the request could be allocated, and
the result of the ioctl with the record that it left in the request. -/
structure Resolver where
  allocated : Bool
  ioctlv : DnsQueryParams → Int32 × Words

/-- The parameters of a query. -/
def queryParams (name : List UInt8) (type : UInt8) (addr ttl : UInt32) : DnsQueryParams :=
  { name := ByteMemory.strncpy name 128, type := type, addr := addr, ttl := ttl }

/-- `memcpy(query, &ioctlv->query, sizeof(*query))`. -/
def copyQuery (query reply : Words) : Words :=
  fun i => if i < dnsQuerysWords then reply i else query i

/-- A pointer into the copy of the resolver, translated to the record at `query`. -/
def translate (query : UInt32) (w : Words) (p : UInt32) : UInt32 := query + (p - w queryIosPtr)

/-- An alias is translated if there is one. -/
def translateAlias (query : UInt32) (w : Words) (i : ℕ) : Words :=
  if w (alist + i) ≠ 0 then
    Function.update w (alist + i) (translate query w (w (alist + i)))
  else w

/-- The pointers of the record are translated. -/
def translatePointers (query : UInt32) (w : Words) : Words :=
  let w := Function.update w hAliases (fieldAddress query alist)
  let w := (List.range 2).foldl (translateAlias query) w
  Function.update w hName (translate query w (w hName))

/-- `do_dns_query`: the result, and the record at `query` after the call. -/
def doDnsQuery (r : Resolver) (name : List UInt8) (type : UInt8) (addr ttl : UInt32)
    (query : UInt32) (w : Words) : Int32 × Words :=
  if r.allocated then
    let (res, reply) := r.ioctlv (queryParams name type addr ttl)
    (res, translatePointers query (copyQuery w reply))
  else (-1, w)

/-! ## The list of addresses -/

/-- The record, with the indices of the words that were written. -/
structure Record where
  words : Words
  written : List ℕ

/-- A write to a word. -/
def Record.write (r : Record) (i : ℕ) (v : UInt32) : Record :=
  { words := Function.update r.words i v, written := r.written ++ [i] }

/-- The word that was written. -/
@[simp] lemma Record.words_write (r : Record) (i : ℕ) (v : UInt32) :
    (r.write i v).words = Function.update r.words i v := rfl

/-- The indices after a write. -/
@[simp] lemma Record.written_write (r : Record) (i : ℕ) (v : UInt32) :
    (r.write i v).written = r.written ++ [i] := rfl

/-- The loop over the addresses, and the `NULL` behind it. -/
def addressLoop (base : UInt32) (i : ℕ) (r : Record) : Record :=
  if (i : ℤ) < count r.words then
    addressLoop base (i + 1) (r.write (addrptrs + i) (fieldAddress base (ipaddrList + i)))
  else r.write (addrptrs + i) 0
termination_by (count r.words - i).toNat
decreasing_by
  rename_i h
  have hne : ipaddrs ≠ addrptrs + i := by
    rw [ipaddrs, addrptrs]
    omega
  rw [count, Record.words_write, Function.update_of_ne hne, ← count]
  omega

/-- `AF_INET`. -/
def afInet : UInt32 := 2

/-- The fields of `hostent` that `gethostbyname` sets, and the list of addresses. -/
def fillHostent (base : UInt32) (w : Words) : Record :=
  addressLoop base 0
    (((Record.mk w []).write hAddrtype afInet).write hLength 4 |>.write hAddrList
      (fieldAddress base addrptrs))

/-! ## The lookup -/

/-- The static record `dns_entry` and `h_errno`. -/
structure State where
  dnsEntry : Words
  hErrno : ℤ

/-- What a call of `gethostbyname` did: the pointer it returned, the state it left, and the words
of the record that it wrote after the query. -/
structure Outcome where
  ret : UInt32
  state : State
  written : List ℕ

/-- `gethostbyname`, with `dns_entry` at `base`. -/
def gethostbyname (base : UInt32) (r : Resolver) (name : Option (List UInt8)) (s : State) :
    Outcome :=
  match name with
  | none | some [] => ⟨0, { s with hErrno := 3 }, []⟩
  | some name =>
    let dnsEntry := (doDnsQuery r name 1 0 0 base s.dnsEntry).2
    if dnsEntry ipaddrs = 0 then ⟨0, ⟨dnsEntry, 1⟩, []⟩
    else
      let record := fillHostent base dnsEntry
      ⟨fieldAddress base hName, ⟨record.words, 0⟩, record.written⟩

end NetDb

end RecoveryMenu
