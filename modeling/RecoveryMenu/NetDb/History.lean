import RecoveryMenu.NetDb.AddressList

set_option relaxedAutoImplicit false
set_option autoImplicit false

/-!
# Lookups one after another (`ios_mcp/source/netdb.c`)

All lookups share one record, and `gethostbyname` does not look at the result of `do_dns_query`:
it only asks whether the record says that there are addresses. A query that was not sent leaves
the record of the lookup before it.

## Main definitions

* `RecoveryMenu.NetDb.Call`: a lookup, with what its call of the resolver meets.
* `RecoveryMenu.NetDb.Fresh`: a lookup returns its own answer or fails.
* `RecoveryMenu.NetDb.AllAllowed`: what must be true of the answers in a history.

## Main results

* `RecoveryMenu.NetDb.noStale_iff`: all lookups of a history are fresh iff the history is allowed.
* `RecoveryMenu.NetDb.not_noStale`: without memory for its query, a lookup returns the addresses
  of the one before it.

## References

* `ios_mcp/source/netdb.c`, lines 60-122.
-/

namespace RecoveryMenu

namespace NetDb

/-! ## Histories -/

/-- A call of `gethostbyname`. -/
structure Call where
  name : Option (List UInt8)
  resolver : Resolver

/-- There is a name to look up. -/
def Call.Named (c : Call) : Prop := c.name.getD [] ≠ []

/-- The result of its own query and the answer to it, if the query was sent. -/
def Call.answer (c : Call) : Option (Int32 × Words) :=
  match c.name with
  | none | some [] => none
  | some name =>
    if c.resolver.allocated then some (c.resolver.ioctlv (queryParams name 1 0 0)) else none

/-- What a call does. -/
def Call.run (base : UInt32) (c : Call) (s : State) : Outcome :=
  gethostbyname base c.resolver c.name s

/-- A call that returns a pointer has sent its query, which succeeded, and the list behind the
pointer is that of the addresses of the answer; a call that returns `NULL` reports an error. -/
structure Fresh (base : UInt32) (c : Call) (o : Outcome) : Prop where
  answered : o.ret ≠ 0 → ∃ res reply, c.answer = some (res, reply) ∧ 0 ≤ res ∧
    addressesOf base o.state.dnsEntry = some (addressesIn reply)
  failed : o.ret = 0 → o.state.hErrno ≠ 0

/-- The calls of a history with what they did, from a state on. -/
def results (base : UInt32) : State → List Call → List (Call × Outcome)
  | _, [] => []
  | s, c :: cs => (c, c.run base s) :: results base (c.run base s).state cs

/-- Before the first call, the record and `h_errno` are zero. -/
def initialState : State := ⟨fun _ => 0, 0⟩

/-- The word `ipaddrs` that a call leaves, where earlier ones left `n`. -/
def Call.left (c : Call) (n : UInt32) : UInt32 :=
  match c.answer with
  | some (_, reply) => reply ipaddrs
  | none => n

/-- A call that sends no query must not find addresses; a query that fails must leave an answer
without addresses; and an answer has at most ten of them. -/
def Call.Allowed (c : Call) (n : UInt32) : Prop :=
  match c.answer with
  | some (res, reply) => (res < 0 → reply ipaddrs = 0) ∧ count reply ≤ maxAddresses
  | none => c.Named → n = 0

/-- All calls of a history are allowed. -/
def AllAllowed : UInt32 → List Call → Prop
  | _, [] => True
  | n, c :: cs => c.Allowed n ∧ AllAllowed (c.left n) cs

/-! ## More addresses than there is room for -/

/-- There is nothing to load behind the `NULL` pointer. -/
lemma EntryAddress.load_zero (a : EntryAddress) (w : Words) : load a.base w 0 = none := by
  have hfits := a.fits
  have hpos := a.toNat_ne_zero
  rw [load, if_neg]
  rw [UInt32.toNat_sub, UInt32.toNat_zero]
  omega

/-- With more addresses than there is room for, the list has no end where it must have one.

**Proof sketch.** The pointers run over the next fields. They may reach `h_addr_list` itself,
which then is one of them, or the `NULL`. -/
lemma addressesOf_fillHostent_eq_none (a : EntryAddress) {w : Words}
    (h : maxAddresses < addressCount w) :
    addressesOf a.base (fillHostent a.base w).words = none := by
  have hwords := (fillHostent_spec a.base w).2
  have hpointer : ∀ j, addrptrs ≤ j → j < addrptrs + addressCount w →
      (fillHostent a.base w).words j = fieldAddress a.base (ipaddrList + (j - addrptrs)) :=
    fun j hle hlt => (hwords j).trans (if_pos ⟨hle, hlt⟩)
  have hrun : ∀ j, addrptrs ≤ j → j + (maxAddresses + 1) ≤ addrptrs + addressCount w →
      j + (maxAddresses + 1) ≤ dnsQuerysWords →
      addressList a.base (fillHostent a.base w).words (maxAddresses + 1)
        (fieldAddress a.base j) = none := by
    intro j hle hlt hfits
    refine addressList_eq_none a (fun k hk => ?_) hfits
    refine ⟨ipaddrList + (j + k - addrptrs), ?_, hpointer (j + k) (by omega) (by omega)⟩
    simp only [ipaddrList, addrptrs] at hle hlt ⊢
    omega
  rw [addressesOf]
  rcases Nat.lt_trichotomy (addrptrs + addressCount w) hAddrList with hbefore | hat | hover
  · rw [hwords, if_neg (by omega), if_neg (by omega), if_pos rfl]
    exact hrun addrptrs (le_refl _) (by omega) (by decide)
  · rw [hwords, if_neg (by omega), if_pos hat.symm, maxAddresses, addressList, a.load_zero]
    rfl
  · rw [hpointer hAddrList (by decide) hover]
    refine hrun _ (by decide) ?_ (by decide)
    simp only [ipaddrList, hAddrList, addrptrs, maxAddresses] at hover ⊢
    omega

/-! ## One call -/

/-- A call with a name whose query is sent does what it does with its answer. -/
lemma gethostbyname_of_allocated (base : UInt32) {r : Resolver} (h : r.allocated = true)
    (c : UInt8) (cs : List UInt8) (s : State) :
    let answer := r.ioctlv (queryParams (c :: cs) 1 0 0)
    gethostbyname base r (some (c :: cs)) s =
      gethostbyname base (answering answer.1 answer.2) (some (c :: cs)) s := by
  have hquery : doDnsQuery r (c :: cs) 1 0 0 base s.dnsEntry =
      doDnsQuery (answering (r.ioctlv (queryParams (c :: cs) 1 0 0)).1
        (r.ioctlv (queryParams (c :: cs) 1 0 0)).2) (c :: cs) 1 0 0 base s.dnsEntry := by
    rw [doDnsQuery_answering, doDnsQuery, if_pos h]
  simp only [gethostbyname, hquery]

/-- A call whose query is not sent returns the addresses that the record has from before. -/
lemma gethostbyname_of_not_allocated (base : UInt32) {r : Resolver} (h : r.allocated = false)
    (c : UInt8) (cs : List UInt8) (s : State) :
    gethostbyname base r (some (c :: cs)) s =
      if s.dnsEntry ipaddrs = 0 then ⟨0, { s with hErrno := 1 }, []⟩
      else ⟨fieldAddress base hName, ⟨(fillHostent base s.dnsEntry).words, 0⟩,
        (fillHostent base s.dnsEntry).written⟩ := by
  have hquery : (doDnsQuery r (c :: cs) 1 0 0 base s.dnsEntry).2 = s.dnsEntry := by
    rw [doDnsQuery, h]
    rfl
  simp only [gethostbyname, hquery]

/-- A call that is answered is fresh iff its query succeeded, or the answer has no addresses, and
there are at most ten of them. -/
lemma fresh_answering_iff (a : EntryAddress) {c : Call} {res : Int32} {reply : Words}
    (hanswer : c.answer = some (res, reply)) (x : UInt8) (xs : List UInt8) (s : State) :
    Fresh a.base c (gethostbyname a.base (answering res reply) (some (x :: xs)) s) ↔
      (res < 0 → reply ipaddrs = 0) ∧ count reply ≤ maxAddresses := by
  have hname := a.fieldAddress_ne_zero (i := hName) (by decide)
  rw [gethostbyname_answering]
  by_cases hnone : reply ipaddrs = 0
  · have hzero := (count_eq_zero_iff reply).mpr hnone
    simp only [if_pos hnone]
    refine iff_of_true ⟨fun h => absurd rfl h, fun _ => Int.one_ne_zero⟩ ⟨fun _ => hnone, ?_⟩
    rw [hzero]
    decide
  · simp only [if_neg hnone]
    have hcount := count_answered a.base s.dnsEntry reply
    have hin := addressesIn_answered a.base s.dnsEntry reply
    constructor
    · intro h
      obtain ⟨res', reply', heq, hres, hlist⟩ := h.answered hname
      obtain ⟨rfl, rfl⟩ := Prod.mk.inj (Option.some.inj (hanswer.symm.trans heq))
      refine ⟨fun hneg => absurd hres (Int32.not_le.mpr hneg), ?_⟩
      by_contra hmany
      rw [addressesOf_fillHostent_eq_none a] at hlist
      · cases hlist
      · rw [addressCount, hcount]
        omega
    · rintro ⟨hres, hmany⟩
      refine ⟨fun _ => ⟨res, reply, hanswer, ?_, ?_⟩, fun hzero => absurd hzero hname⟩
      · exact Int32.not_lt.mp (mt hres hnone)
      · rw [← hin]
        refine addressesOf_fillHostent a ?_
        rw [addressCount, hcount]
        omega

/-- A call whose query is not sent is fresh iff the record has no addresses from before. -/
lemma fresh_of_not_answered_iff (a : EntryAddress) {c : Call} (hanswer : c.answer = none)
    {r : Resolver} (hr : r.allocated = false) (x : UInt8) (xs : List UInt8) (s : State) :
    Fresh a.base c (gethostbyname a.base r (some (x :: xs)) s) ↔ s.dnsEntry ipaddrs = 0 := by
  have hname := a.fieldAddress_ne_zero (i := hName) (by decide)
  rw [gethostbyname_of_not_allocated a.base hr]
  split_ifs with hnone
  · exact iff_of_true ⟨fun h => absurd rfl h, fun _ => Int.one_ne_zero⟩ hnone
  · refine iff_of_false (fun h => ?_) hnone
    obtain ⟨res, reply, heq, -⟩ := h.answered hname
    exact absurd (hanswer.symm.trans heq) (Option.some_ne_none _).symm

/-- **One call.** A call is fresh iff it is allowed after what earlier ones left.

**Proof sketch.** Without a name it fails. With one, its query is sent or not, which the two
lemmas are about. -/
lemma fresh_iff (a : EntryAddress) (c : Call) (s : State) :
    Fresh a.base c (c.run a.base s) ↔ c.Allowed (s.dnsEntry ipaddrs) := by
  obtain ⟨name, r⟩ := c
  match name, r with
  | none, r | some [], r =>
    refine iff_of_true ⟨fun h => absurd rfl h, fun _ => ?_⟩ fun h => absurd rfl h
    exact show (3 : ℤ) ≠ 0 by omega
  | some (x :: xs), ⟨true, ioctlv⟩ =>
    have hanswer : Call.answer ⟨some (x :: xs), ⟨true, ioctlv⟩⟩ =
        some (ioctlv (queryParams (x :: xs) 1 0 0)) := rfl
    rw [Call.run, gethostbyname_of_allocated a.base rfl, fresh_answering_iff a hanswer,
      Call.Allowed, hanswer]
  | some (x :: xs), ⟨false, ioctlv⟩ =>
    have hanswer : Call.answer ⟨some (x :: xs), ⟨false, ioctlv⟩⟩ = none := rfl
    have hnamed : Call.Named ⟨some (x :: xs), ⟨false, ioctlv⟩⟩ := List.cons_ne_nil x xs
    rw [Call.run, fresh_of_not_answered_iff a hanswer rfl, Call.Allowed, hanswer]
    exact ⟨fun h _ => h, fun h => h hnamed⟩

/-- The word `ipaddrs` after a call.

**Proof sketch.** The list is filled behind it, so it is that of the answer, or the one from
before. -/
lemma ipaddrs_run (a : EntryAddress) (c : Call) (s : State) :
    (c.run a.base s).state.dnsEntry ipaddrs = c.left (s.dnsEntry ipaddrs) := by
  have hfront : ipaddrs < addrptrs := by decide
  obtain ⟨name, r⟩ := c
  match name, r with
  | none, r | some [], r => rfl
  | some (x :: xs), ⟨true, ioctlv⟩ =>
    have hanswered := fun reply => answered_apply a.base s.dnsEntry reply hfront
    rw [Call.run, gethostbyname_of_allocated a.base rfl, gethostbyname_answering]
    simp only
    split_ifs with hnone
    · exact hanswered _
    · exact (fillHostent_of_lt _ _ hfront).trans (hanswered _)
  | some (x :: xs), ⟨false, ioctlv⟩ =>
    rw [Call.run, gethostbyname_of_not_allocated a.base rfl]
    split_ifs with hnone
    · rfl
    · exact fillHostent_of_lt _ _ hfront

/-! ## Whole histories -/

/-- The calls of a history are fresh iff they are allowed, from any state on.

**Proof sketch.** Induction on the history. -/
lemma results_fresh_iff (a : EntryAddress) (s : State) (calls : List Call) :
    (∀ p ∈ results a.base s calls, Fresh a.base p.1 p.2) ↔
      AllAllowed (s.dnsEntry ipaddrs) calls := by
  induction calls generalizing s with
  | nil => exact iff_of_true (fun p hp => absurd hp List.not_mem_nil) trivial
  | cons c calls ih =>
    rw [results, List.forall_mem_cons, ih, fresh_iff, ipaddrs_run, AllAllowed]

/-- **No stale answers.** For every history of lookups and all that their allocations and their
ioctls can do, every lookup returns the addresses of its own successful query, or `NULL` with an
error, iff no query stays unsent while the last answer has addresses, no failed query leaves an
answer with addresses, and no answer has more than ten of them. -/
theorem noStale_iff (a : EntryAddress) (calls : List Call) :
    (∀ p ∈ results a.base initialState calls, Fresh a.base p.1 p.2) ↔ AllAllowed 0 calls :=
  results_fresh_iff a initialState calls

/-- After a lookup with one address, a lookup without memory for its query returns that
address. -/
theorem not_noStale :
    ¬ ∀ (a : EntryAddress) (calls : List Call),
      ∀ p ∈ results a.base initialState calls, Fresh a.base p.1 p.2 := by
  intro h
  let a : EntryAddress := ⟨0x05120000, by decide, by decide⟩
  let reply : Words := fun i => if i = ipaddrs then 1 else 0
  let first : Call := ⟨some [0x61], ⟨true, fun _ => (0, reply)⟩⟩
  let second : Call := ⟨some [0x62], ⟨false, fun _ => (0, reply)⟩⟩
  have hallowed := (results_fresh_iff a initialState [first, second]).mp (h a [first, second])
  have hnamed : second.Named := List.cons_ne_nil _ _
  exact absurd (hallowed.2.1 hnamed) (by decide)

end NetDb

end RecoveryMenu
