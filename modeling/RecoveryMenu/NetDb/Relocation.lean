import RecoveryMenu.NetDb

set_option relaxedAutoImplicit false
set_option autoImplicit false

/-!
# The pointers of an answer (`ios_mcp/source/netdb.c`)

The answer of the resolver holds pointers into its own copy of the record. `do_dns_query`
translates them to the record of the caller: two of the four aliases if they are there, and the
name in any case.

## Main definitions

* `RecoveryMenu.NetDb.Relocated`: a pointer has become what it must become.

## Main results

* `RecoveryMenu.NetDb.relocation_iff`: all pointers do iff the two copies are at one address, or
  the last two aliases are empty and there is a name.
* `RecoveryMenu.NetDb.not_relocation`: a third alias does not.

## References

* `ios_mcp/source/netdb.c`, lines 60-94.
-/

namespace RecoveryMenu

namespace NetDb

/-! ## One pointer -/

/-- A pointer into the copy at `ios` has become the pointer at the same offset of the copy at
`query`, and an empty one has stayed empty. -/
def Relocated (query ios p p' : UInt32) : Prop :=
  (p = 0 → p' = 0) ∧ ∀ offset, p ≠ 0 → p = ios + offset → p' = query + offset

/-- A pointer that is there is translated right. -/
lemma relocated_translate_iff (query ios p : UInt32) :
    Relocated query ios p (query + (p - ios)) ↔ p ≠ 0 ∨ query = ios := by
  constructor
  · intro h
    by_contra hboth
    obtain ⟨hp, hne⟩ := not_or.mp hboth
    have hzero := h.1 (not_not.mp hp)
    rw [not_not.mp hp] at hzero
    exact hne (by grind)
  · intro h
    refine ⟨?_, ?_⟩
    · rintro rfl
      obtain rfl := h.resolve_left (by simp)
      grind
    · rintro offset - rfl
      grind

/-- A pointer that is left alone is right only if it is empty or the copies are at one address. -/
lemma relocated_self_iff (query ios p : UInt32) :
    Relocated query ios p p ↔ p = 0 ∨ query = ios := by
  constructor
  · intro h
    by_contra hboth
    obtain ⟨hp, hne⟩ := not_or.mp hboth
    have heq := h.2 (p - ios) hp (by grind)
    exact hne (by grind)
  · rintro (rfl | rfl)
    · exact ⟨fun _ => rfl, fun offset hne => absurd rfl hne⟩
    · exact ⟨id, fun offset _ hp => hp⟩

/-! ## All pointers -/

/-- The record after an alias was translated. -/
lemma translateAlias_apply (query : UInt32) (w : Words) (k i : ℕ) :
    translateAlias query w k i =
      if i = alist + k ∧ w i ≠ 0 then translate query w (w i) else w i := by
  by_cases hpointer : w (alist + k) ≠ 0
  · rw [translateAlias, if_pos hpointer]
    by_cases hi : i = alist + k
    · subst hi
      rw [Function.update_self, if_pos ⟨rfl, hpointer⟩]
    · rw [Function.update_of_ne hi, if_neg fun h => hi h.1]
  · rw [translateAlias, if_neg hpointer, if_neg]
    rintro ⟨rfl, hne⟩
    exact hpointer hne

/-- The record after the translation. -/
lemma translatePointers_apply (query : UInt32) (w : Words) (i : ℕ) :
    translatePointers query w i =
      if i = hName then translate query w (w hName)
      else if i = hAliases then fieldAddress query alist
      else if (i = alist ∨ i = alist + 1) ∧ w i ≠ 0 then translate query w (w i)
      else w i := by
  simp only [translatePointers, List.range, List.range.loop, List.foldl_cons, List.foldl_nil,
    Function.update_apply, translateAlias_apply, translate]
  have hfields : [alist + 0, alist + 1, hName, hAliases, queryIosPtr].Nodup := by decide
  simp only [List.nodup_cons, List.mem_cons] at hfields
  grind

/-- The fields that hold pointers into the copy of the resolver. -/
def pointerFields : List ℕ := [alist, alist + 1, alist + 2, alist + 3, hName]

/-- A resolver that answers. -/
def answering (res : Int32) (reply : Words) : Resolver := ⟨true, fun _ => (res, reply)⟩

/-- A query that is answered copies the answer and translates its pointers. -/
lemma doDnsQuery_answering (res : Int32) (reply : Words) (name : List UInt8) (type : UInt8)
    (addr ttl query : UInt32) (w : Words) :
    doDnsQuery (answering res reply) name type addr ttl query w =
      (res, translatePointers query (copyQuery w reply)) := by
  rw [doDnsQuery, if_pos (by rfl)]
  rfl

/-- The pointers of a record are relocated iff the copies are at one address, or the last two
aliases are empty and there is a name.

**Proof sketch.** The first two aliases always are; the last two are left alone, and the name is
translated also if it is empty. -/
lemma relocated_pointerFields_iff (query : UInt32) (w : Words) :
    (∀ i ∈ pointerFields, Relocated query (w queryIosPtr) (w i) (translatePointers query w i)) ↔
      query = w queryIosPtr ∨ (w (alist + 2) = 0 ∧ w (alist + 3) = 0 ∧ w hName ≠ 0) := by
  have hfirst : ∀ i, i = alist ∨ i = alist + 1 →
      Relocated query (w queryIosPtr) (w i) (translatePointers query w i) := by
    intro i hi
    have hname : i ≠ hName := by rcases hi with rfl | rfl <;> decide
    have haliases : i ≠ hAliases := by rcases hi with rfl | rfl <;> decide
    rw [translatePointers_apply, if_neg hname, if_neg haliases]
    split_ifs with hpointer
    · exact (relocated_translate_iff _ _ _).mpr (Or.inl hpointer.2)
    · have hempty : w i = 0 := not_not.mp fun hne => hpointer ⟨hi, hne⟩
      exact (relocated_self_iff _ _ _).mpr (Or.inl hempty)
  have hlast : ∀ i, i = alist + 2 ∨ i = alist + 3 → translatePointers query w i = w i := by
    rintro i (rfl | rfl) <;> rw [translatePointers_apply, if_neg (by decide), if_neg (by decide),
      if_neg fun h => absurd h.1 (by omega)]
  have hname : translatePointers query w hName = query + (w hName - w queryIosPtr) := by
    rw [translatePointers_apply, if_pos rfl, translate]
  simp only [pointerFields, List.forall_mem_cons, List.not_mem_nil, false_implies, implies_true,
    and_true, hfirst alist (Or.inl rfl), hfirst (alist + 1) (Or.inr rfl), true_and,
    hlast (alist + 2) (Or.inl rfl), hlast (alist + 3) (Or.inr rfl), hname,
    relocated_translate_iff, relocated_self_iff]
  by_cases hsame : query = w queryIosPtr <;> simp [hsame]

/-- **Relocation.** For every answer and every two addresses of the copies, each alias and the
name that was empty is empty, and each other one points to the same offset in the record of the
caller, iff the two copies are at one address, or the third and the fourth alias are empty and
there is a name. -/
theorem relocation_iff (res : Int32) (reply : Words) (name : List UInt8) (type : UInt8)
    (addr ttl query : UInt32) (w : Words) :
    (∀ i ∈ pointerFields, Relocated query (reply queryIosPtr) (reply i)
      ((doDnsQuery (answering res reply) name type addr ttl query w).2 i)) ↔
      query = reply queryIosPtr ∨
        (reply (alist + 2) = 0 ∧ reply (alist + 3) = 0 ∧ reply hName ≠ 0) := by
  have hcopy : ∀ i, i < dnsQuerysWords → copyQuery w reply i = reply i := fun i hi => if_pos hi
  have hiff := relocated_pointerFields_iff query (copyQuery w reply)
  rw [hcopy queryIosPtr (by decide), hcopy (alist + 2) (by decide), hcopy (alist + 3) (by decide),
    hcopy hName (by decide)] at hiff
  rw [doDnsQuery_answering, ← hiff]
  refine forall₂_congr fun i hi => ?_
  have hlt : i < dnsQuerysWords := by
    revert i
    decide
  rw [hcopy i hlt]

/-- A third alias that points into the copy of the resolver still points there afterwards. -/
theorem not_relocation :
    ¬ ∀ (res : Int32) (reply : Words) (name : List UInt8) (type : UInt8)
      (addr ttl query : UInt32) (w : Words),
      (∀ i ∈ pointerFields, reply i = 0 ∨
        ∃ offset, offset.toNat < 0x2bc ∧ reply i = reply queryIosPtr + offset) →
      ∀ i ∈ pointerFields, Relocated query (reply queryIosPtr) (reply i)
        ((doDnsQuery (answering res reply) name type addr ttl query w).2 i) := by
  intro h
  let reply : Words := fun i =>
    if i = queryIosPtr then 0x12300000
    else if i = alist + 2 ∨ i = hName then 0x1230007c else 0
  have hinside : ∀ i ∈ pointerFields, reply i = 0 ∨ reply i = reply queryIosPtr + 0x7c := by
    decide
  have hthird := (h 0 reply [] 0 0 0 0x05120000 (fun _ => 0)
    (fun i hi => (hinside i hi).imp_right fun heq => ⟨0x7c, by decide, heq⟩)
    (alist + 2) (by decide)).2 0x7c (by decide) (by decide)
  exact absurd hthird (by decide +kernel)

end NetDb

end RecoveryMenu
