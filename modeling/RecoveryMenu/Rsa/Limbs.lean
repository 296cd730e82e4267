import RecoveryMenu.MiniGmp.ImportExport
import RecoveryMenu.MiniGmp.Powm
import RecoveryMenu.Rsa.RawEncrypt

set_option relaxedAutoImplicit false
set_option autoImplicit false

/-!
# The raw RSA step, limb by limb (`ios_mcp/source/rsa.c`)

The arithmetic that `rsa2048_raw_encrypt` calls is that of big numbers, with limbs, reciprocals and
pointers. Here the function is written with it, and does to a buffer in memory what the function on
numbers does to the bytes of the buffer.

## Main definitions

* `RecoveryMenu.Rsa.rsa2048RawEncryptLimbs`: the function, with the arithmetic of big numbers.

## Main results

* `RecoveryMenu.Rsa.rsa2048RawEncryptLimbs_eq`: it refines `rsa2048RawEncrypt`.

## References

* `ios_mcp/source/rsa.c`: lines 70 to 98.
* `ios_mcp/source/mini-gmp.c`: `mpz_import`, `mpz_powm_ui`, `mpz_export`.
-/

namespace RecoveryMenu

namespace Rsa

open MiniGmp (Mpz)

/-- `rsa2048_raw_encrypt`, with what `buf` points to: the result, and what it points to after the
call. There is none where a limb in front of the modulus is read. -/
def rsa2048RawEncryptLimbs (mpzInvert : Mpz → Mpz → Option Mpz) (buf : ℤ → UInt8) (size : ℕ) :
    Option (ℤ × (ℤ → UInt8)) :=
  if size ≠ rsaPubkey.length then some (-1, buf)
  else do
    let n := MiniGmp.mpzImport 1 1 rsaPubkey.length 1 (fun i => rsaPubkey.getD i.toNat 0)
    let x := MiniGmp.mpzImport 1 1 size 1 buf
    let f ← MiniGmp.mpzPowmUi mpzInvert x (UInt32.ofNat rsaPubexp) n
    some (0, (MiniGmp.mpzExport buf 1 size 1 f).1)

/-- The first bytes of a buffer. -/
def bufBytes (size : ℕ) (buf : ℤ → UInt8) : List UInt8 := (List.range size).map fun i : ℕ => buf i

@[simp] theorem length_bufBytes (size : ℕ) (buf : ℤ → UInt8) :
    (bufBytes size buf).length = size := by
  simp [bufBytes]

/-- One word with its highest byte first is read from its end. -/
lemma map_byteAddrs_one (size : ℕ) (buf : ℤ → UInt8) :
    (MiniGmp.byteAddrs 1 size (MiniGmp.endianOf 1) 1).map buf = (bufBytes size buf).reverse := by
  have hword (n : ℕ) : (MiniGmp.wordAddrs 1 n ((n : ℤ) - 1)).map buf =
      (bufBytes n buf).reverse := by
    induction n with
    | zero => rfl
    | succ n ih =>
      have hp : ((n + 1 : ℕ) : ℤ) - 1 = n := by omega
      rw [hp, MiniGmp.wordAddrs, List.map_cons, ih, bufBytes, bufBytes, List.range_succ,
        List.map_append, List.reverse_append]
      rfl
  have hone : MiniGmp.byteAddrs 1 size (MiniGmp.endianOf 1) 1 =
      MiniGmp.wordAddrs 1 size ((size : ℤ) - 1) := by
    simp [MiniGmp.byteAddrs, MiniGmp.addrsFrom, MiniGmp.firstAddr, MiniGmp.endianOf]
  rw [hone, hword]

/-- The number of bytes from their end. -/
lemma byteNum_reverse (bs : List UInt8) : MiniGmp.byteNum bs.reverse = BigEndian.toNat bs := by
  induction bs using List.reverseRecOn with
  | nil => rfl
  | append_singleton bs b ih =>
    rw [List.reverse_append, List.reverse_singleton, List.singleton_append, MiniGmp.byteNum,
      Positional.value_cons, ← MiniGmp.byteNum, ih, BigEndian.toNat_append_singleton]
    push_cast
    ring

/-- A buffer that is imported as one word is the number of its bytes. -/
lemma value_mpzImport_one (size : ℕ) (buf : ℤ → UInt8) :
    (MiniGmp.mpzImport 1 1 size 1 buf).value = mpzImport size (bufBytes size buf) := by
  rw [MiniGmp.value_mpzImport, map_byteAddrs_one, byteNum_reverse, mpzImport,
    List.take_of_length_le (length_bufBytes size buf).le]

/-- A number with room in a buffer is exported to it as one word, or as none. -/
lemma mpzExport_one {size : ℕ} (hsize : 0 < size) (buf : ℤ → UInt8) (u : Mpz) {f : ℕ}
    (hu : u.value = f) (hf : f < 256 ^ size) :
    bufBytes size (MiniGmp.mpzExport buf 1 size 1 u).1 =
        mpzExport (bufBytes size buf) size f ∧
      ∀ i : ℤ, i < 0 ∨ (size : ℤ) ≤ i → (MiniGmp.mpzExport buf 1 size 1 u).1 i = buf i := by
  obtain ⟨hbytes, hcount, hframe⟩ := MiniGmp.mpzExport_spec buf u (.inl rfl)
    (show -1 ≤ (1 : ℤ) ∧ (1 : ℤ) ≤ 1 by decide) hsize
  rw [hu] at hbytes hcount
  have hone := (hcount 1).mpr (by rw [Nat.one_mul, Nat.abs_cast]; exact_mod_cast hf)
  rw [mpzExport]
  split_ifs with hzero
  · -- no word is written
    have hnone := (hcount 0).mpr (by rw [hzero]; simp)
    rw [Nat.le_zero.mp hnone, Nat.zero_mul] at hframe
    have hsame (i : ℤ) : (MiniGmp.mpzExport buf 1 size 1 u).1 i = buf i :=
      hframe i (by rw [Nat.cast_zero]; omega)
    exact ⟨List.map_congr_left fun i _ => hsame i, fun i _ => hsame i⟩
  · have hpos : ¬ (MiniGmp.mpzExport buf 1 size 1 u).2 ≤ 0 := by
      rw [hcount 0, Nat.zero_mul, Nat.abs_cast, pow_zero]
      omega
    have heq : (MiniGmp.mpzExport buf 1 size 1 u).2 = 1 := by omega
    rw [heq, map_byteAddrs_one, byteNum_reverse, Nat.abs_cast, Nat.cast_inj] at hbytes
    rw [heq, Nat.one_mul] at hframe
    refine ⟨?_, hframe⟩
    have hlen := length_bufBytes size (MiniGmp.mpzExport buf 1 size 1 u).1
    have hback := BigEndian.ofNat_toNat (bufBytes size (MiniGmp.mpzExport buf 1 size 1 u).1)
    rw [hlen, hbytes] at hback
    rw [ByteMemory.overwrite, hback, hlen, List.drop_eq_nil_of_le (by simp)]
    simp

/-- The public key in memory is the modulus. -/
lemma value_pubkey : (MiniGmp.mpzImport 1 1 rsaPubkey.length 1
    (fun i => rsaPubkey.getD i.toNat 0)).value = modulus := by
  have hbytes : bufBytes rsaPubkey.length (fun i => rsaPubkey.getD i.toNat 0) = rsaPubkey := by
    refine List.ext_getElem (length_bufBytes _ _) fun i hi hi' => ?_
    simp only [bufBytes, List.getElem_map, List.getElem_range, Int.toNat_natCast]
    exact List.getD_eq_getElem _ _ hi'
  rw [value_mpzImport_one, hbytes, modulus]

/-- **The raw RSA step, limb by limb.** For every buffer and every size, the call has a result: what
`rsa2048RawEncrypt` returns for the bytes of the buffer, with the bytes that it leaves in the
buffer, and no other bytes are written.

**Proof sketch.** The buffer is imported as the number of its bytes, the power is the one modulo
the modulus, and the export writes its bytes, or none of them where it is zero. -/
theorem rsa2048RawEncryptLimbs_eq (mpzInvert : Mpz → Mpz → Option Mpz) (buf : ℤ → UInt8)
    (size : ℕ) :
    ∃ out, rsa2048RawEncryptLimbs mpzInvert buf size =
        some ((rsa2048RawEncrypt (bufBytes size buf) size).1, out) ∧
      bufBytes size out = (rsa2048RawEncrypt (bufBytes size buf) size).2 ∧
      ∀ i : ℤ, i < 0 ∨ (size : ℤ) ≤ i → out i = buf i := by
  rw [rsa2048RawEncryptLimbs, rsa2048RawEncrypt]
  split_ifs with hsize
  · exact ⟨buf, rfl, rfl, fun _ _ => rfl⟩
  · rw [not_not] at hsize
    obtain ⟨f, hf, hvalue⟩ := MiniGmp.mpzPowm_of_nonneg mpzInvert
      (MiniGmp.mpzImport 1 1 size 1 buf) (MiniGmp.mpzSetUi (UInt32.ofNat rsaPubexp))
      (MiniGmp.mpzImport 1 1 rsaPubkey.length 1 (fun i => rsaPubkey.getD i.toNat 0))
      (by rw [value_pubkey]; exact_mod_cast modulus_ne_zero) (by rw [Mpz.value_mpzSetUi]; omega)
    rw [value_mpzImport_one, value_pubkey, Mpz.value_mpzSetUi,
      show (UInt32.ofNat rsaPubexp).toNat = rsaPubexp from rfl, Int.toNat_natCast] at hvalue
    have hpow : f.value = mpzPowmUi (mpzImport size (bufBytes size buf)) rsaPubexp modulus := by
      rw [hvalue, mpzPowmUi]
      push_cast
      rfl
    have hlt : mpzPowmUi (mpzImport size (bufBytes size buf)) rsaPubexp modulus < 256 ^ size := by
      have hmod := BigEndian.toNat_lt rsaPubkey
      rw [← modulus_eq, ← hsize] at hmod
      exact (Nat.mod_lt _ (Nat.pos_of_ne_zero modulus_ne_zero)).trans hmod
    obtain ⟨hbytes, hframe⟩ :=
      mpzExport_one (by rw [hsize, length_rsaPubkey]; decide) buf f hpow hlt
    have hrun : MiniGmp.mpzPowmUi mpzInvert (MiniGmp.mpzImport 1 1 size 1 buf)
        (UInt32.ofNat rsaPubexp) (MiniGmp.mpzImport 1 1 rsaPubkey.length 1
          (fun i => rsaPubkey.getD i.toNat 0)) = some f := hf
    simp only [hrun, Option.bind_eq_bind, Option.bind_some]
    exact ⟨_, rfl, hbytes, hframe⟩

end Rsa

end RecoveryMenu
