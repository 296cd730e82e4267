import RecoveryMenu.Foundations.ByteMemory
import RecoveryMenu.Foundations.Pkcs1
import Mathlib.Data.Vector.Basic

set_option relaxedAutoImplicit false
set_option autoImplicit false

/-!
# Key transport (`ios_mcp/source/rsa.c`)

`rsa2048_encrypt_aes128_key` wraps an AES key for the operator of the database: it fills a
256-byte buffer with random bytes, lays the frame of an RFC 2313 encryption block over it, and
encrypts the buffer with the public key. The random bytes between the `02` and the separator
are used as they come.

## Main definitions

* `RecoveryMenu.Rsa.rsa2048RawEncrypt`, `RecoveryMenu.Rsa.rsa2048EncryptAes128Key`: the two
  functions.
* `RecoveryMenu.Rsa.encryptionBlock`: the buffer that goes into the RSA step.

## Main results

* `RecoveryMenu.Rsa.keyTransport_iff`: the block is well formed and decodes to the key iff
  none of the random bytes 2 to 238 is zero.
* `RecoveryMenu.Rsa.not_keyTransport`: it is neither when they are all zero.

## References

* `ios_mcp/source/rsa.c`, `ios_mcp/source/rsa.h`.
* `ios_mcp/source/mini-gmp.c`: `mpz_import`, `mpz_powm_ui`, `mpz_export`.
-/

namespace RecoveryMenu

namespace Rsa

open ByteMemory

/-! ## The functions -/

/-- The modulus of the public key, most significant byte first. -/
def rsaPubkey : List UInt8 :=
  [0xc4, 0x6d, 0xf0, 0x29, 0x58, 0x1c, 0x57, 0x9c, 0x9d, 0xed, 0xcf, 0x6d,
    0x56, 0xd8, 0xcd, 0x8f, 0x36, 0xe5, 0xa5, 0x4d, 0x58, 0xae, 0x61, 0x55,
    0xed, 0xf4, 0x4e, 0x8c, 0x45, 0x4a, 0x67, 0xd1, 0x65, 0xd4, 0xe6, 0x71,
    0x55, 0x91, 0x41, 0x4d, 0x74, 0x84, 0x52, 0x7e, 0xe0, 0xb9, 0xca, 0x4c,
    0x6e, 0x62, 0x73, 0xf1, 0xa8, 0x5c, 0x97, 0x2f, 0x44, 0xb2, 0xed, 0x0e,
    0xe4, 0x38, 0xc2, 0xd7, 0xd0, 0x72, 0xc6, 0x33, 0x94, 0xd4, 0x6d, 0x86,
    0xe2, 0xaa, 0x3e, 0xb9, 0x40, 0x70, 0xaf, 0xac, 0x9d, 0x7a, 0x6b, 0xa0,
    0x7b, 0x26, 0xe0, 0x32, 0xfe, 0xcf, 0xbe, 0xd4, 0xcf, 0x09, 0x26, 0x01,
    0xca, 0xa2, 0x33, 0xc7, 0x7b, 0xd9, 0xdb, 0xc4, 0x49, 0x07, 0xd4, 0x4e,
    0xf5, 0x72, 0x0c, 0x57, 0x95, 0xfc, 0x1b, 0xf3, 0x6e, 0xe3, 0x53, 0x03,
    0x94, 0x3e, 0x03, 0x87, 0x7a, 0x08, 0x6d, 0xac, 0x9b, 0x65, 0x6e, 0xe8,
    0x64, 0xcd, 0x84, 0x76, 0x74, 0xe6, 0xa1, 0x02, 0x77, 0x92, 0x3e, 0xed,
    0x1b, 0xc6, 0xfc, 0x4a, 0x14, 0x75, 0x69, 0x2f, 0x7f, 0x67, 0x65, 0x8e,
    0x9c, 0xff, 0xc9, 0x78, 0x6c, 0x72, 0x68, 0xfa, 0x95, 0xc2, 0x25, 0x25,
    0x83, 0xda, 0xa8, 0xfc, 0xe7, 0xf7, 0xd5, 0x7b, 0x3b, 0xff, 0x0b, 0x9a,
    0x40, 0x51, 0xe1, 0x21, 0x4e, 0xc2, 0xe8, 0x06, 0xc7, 0xf1, 0x90, 0xf3,
    0x9e, 0x9d, 0xe2, 0xae, 0x71, 0x6e, 0x81, 0x65, 0x11, 0xd1, 0x70, 0xb6,
    0x04, 0xf7, 0xaa, 0xfb, 0x39, 0x18, 0xe6, 0x11, 0x3a, 0x66, 0x3a, 0x4c,
    0xff, 0xd1, 0x1b, 0xfc, 0x13, 0x84, 0x36, 0x88, 0x8d, 0x98, 0x41, 0x89,
    0x22, 0xde, 0xfa, 0x9c, 0x39, 0xdd, 0x0d, 0x0d, 0x63, 0x50, 0xbb, 0x23,
    0x71, 0xe4, 0x29, 0xfb, 0x56, 0x0a, 0x74, 0xfa, 0x7c, 0x10, 0x99, 0x5b,
    0x1e, 0xdf, 0xab, 0xf1]

/-- The public exponent. -/
def rsaPubexp : ℕ := 0x10001

/-- `AES_128_KEY_SIZE`. -/
def aes128KeySize : ℕ := 16

/-- `mpz_import(rop, 1, 1, size, 1, 0, buf)`: the buffer as one big-endian number. -/
def mpzImport (size : ℕ) (buf : List UInt8) : ℕ := BigEndian.toNat (buf.take size)

/-- `mpz_powm_ui`. -/
def mpzPowmUi (x e n : ℕ) : ℕ := x ^ e % n

/-- `mpz_export(buf, NULL, 1, size, 1, 0, f)`: one word of `size` bytes, or no word at all when
`f` is zero. -/
def mpzExport (buf : List UInt8) (size f : ℕ) : List UInt8 :=
  if f = 0 then buf else overwrite buf 0 (BigEndian.ofNat size f)

/-- `rsa2048_raw_encrypt`: the result and the buffer after the call. -/
def rsa2048RawEncrypt (buf : List UInt8) (size : ℕ) : ℤ × List UInt8 :=
  if size ≠ rsaPubkey.length then (-1, buf)
  else
    let n := mpzImport rsaPubkey.length rsaPubkey
    let x := mpzImport size buf
    let f := mpzPowmUi x rsaPubexp n
    (0, mpzExport buf size f)

/-- Where the key is put: behind the padding, at the end of the buffer. -/
def keyOffset : ℕ := rsaPubkey.length - aes128KeySize

/-- The buffer of the RSA step: the random bytes with the frame of the block and the key laid
over them. -/
def encryptionBlock (buf key : List UInt8) : List UInt8 :=
  overwrite (((buf.set 0 0x00).set 1 0x02).set (keyOffset - 1) 0x00) keyOffset
    (key.take aes128KeySize)

/-- `rsa2048_encrypt_aes128_key`: the result and the buffer after the call. `generateRand` is
`IOSC_GenerateRand`, with its result and what it leaves in a buffer of the given size. -/
def rsa2048EncryptAes128Key (generateRand : ℕ → ℤ × List UInt8) (buf : List UInt8)
    (bufSz : ℕ) (key : List UInt8) (keySz : ℕ) : ℤ × List UInt8 :=
  if bufSz ≠ rsaPubkey.length ∨ keySz ≠ aes128KeySize then (-1, buf)
  else
    let (res, rand) := generateRand bufSz
    if res ≠ 0 then (res, rand)
    else rsa2048RawEncrypt (encryptionBlock rand key) bufSz

/-! ## The block before the RSA step -/

/-- The modulus has 256 bytes. -/
@[simp] theorem length_rsaPubkey : rsaPubkey.length = 256 := by
  decide +kernel

/-- The key starts at byte 240. -/
theorem keyOffset_eq : keyOffset = 240 := by
  simp [keyOffset, aes128KeySize]

/-- The random bytes that stay in the buffer between the `02` and the separator. -/
def paddingString (rand : List UInt8) : List UInt8 := (rand.drop 2).take 237

/-- With 256 random bytes the buffer is the block of the random bytes 2 to 238 and the key.

**Proof sketch.** Split off the first two bytes, which become `00 02`, and write the assignment
of the separator as a cut of the remaining bytes at 237; the key replaces what follows. -/
theorem encryptionBlock_eq {rand key : List UInt8} (hrand : rand.length = 256)
    (hkey : key.length = 16) :
    encryptionBlock rand key = Pkcs1.block (paddingString rand) key := by
  match rand, hrand with
  | a :: b :: rest, hrand =>
    have hrest : rest.length = 254 := by simpa using hrand
    have hkey' : key.take aes128KeySize = key :=
      List.take_of_length_le (by simp [hkey, aes128KeySize])
    have hset : rest.set 237 0 = rest.take 237 ++ 0 :: rest.drop 238 := by
      rw [List.set_eq_take_append_cons_drop, if_pos (by omega)]
    have htake : (rest.take 237 ++ 0 :: rest.drop 238).take 238 = rest.take 237 ++ [0] := by
      rw [List.take_append, List.take_of_length_le (by simp)]
      simp [hrest]
    rw [encryptionBlock, hkey', keyOffset_eq, overwrite]
    simp only [Nat.reduceSub, List.set_cons_zero, List.set_cons_succ, hset, hkey,
      List.take_succ_cons, htake, List.drop_succ_cons, Nat.reduceAdd]
    simp [Pkcs1.block, paddingString, hrest]

/-- The call encrypts exactly that block.

**Proof sketch.** Both sizes are right and the random source reports success. -/
theorem rsa2048EncryptAes128Key_eq (rand buf key : List UInt8) :
    rsa2048EncryptAes128Key (fun _ => (0, rand)) buf 256 key 16 =
      rsa2048RawEncrypt (encryptionBlock rand key) 256 := by
  simp [rsa2048EncryptAes128Key, aes128KeySize]

/-- A zero byte among the random bytes 2 to 238 is one in the padding string. -/
lemma zero_mem_paddingString_iff (rand : List UInt8) :
    0 ∈ paddingString rand ↔ ∃ i, 2 ≤ i ∧ i < 239 ∧ rand[i]? = some 0 := by
  simp only [paddingString, List.mem_iff_getElem?, List.getElem?_take, List.getElem?_drop]
  constructor
  · rintro ⟨i, hi⟩
    split_ifs at hi with h
    exact ⟨2 + i, by omega, by omega, hi⟩
  · rintro ⟨i, h₂, h₁, hi⟩
    refine ⟨i - 2, ?_⟩
    rw [if_pos (by omega), show 2 + (i - 2) = i by omega]
    exact hi

/-- **Key transport.** For every AES key and every 256 random bytes, the buffer that goes into
the RSA step is a block of type 2 for the key from which the decoder recovers the key iff none
of the random bytes 2 to 238 is zero.

**Proof sketch.** The buffer is the block of `paddingString` and the key
(`encryptionBlock_eq`), and the padding string is always 237 bytes long, so both parts come
down to its having no zero byte (`Pkcs1.isBlockType2_block_iff`, `Pkcs1.strip_block_eq_iff`). -/
theorem keyTransport_iff (rand : List.Vector UInt8 256) (key : List.Vector UInt8 16)
    (buf : List UInt8) :
    rsa2048EncryptAes128Key (fun _ => (0, rand.toList)) buf 256 key.toList 16 =
        rsa2048RawEncrypt (encryptionBlock rand.toList key.toList) 256 ∧
      (Pkcs1.IsBlockType2 (encryptionBlock rand.toList key.toList) key.toList ∧
          Pkcs1.strip (encryptionBlock rand.toList key.toList) = some key.toList ↔
        ∀ i, 2 ≤ i → i < 239 → rand.toList[i]? ≠ some 0) := by
  refine ⟨rsa2048EncryptAes128Key_eq _ _ _, ?_⟩
  have hlen : (paddingString rand.toList).length = 237 := by simp [paddingString]
  rw [encryptionBlock_eq rand.toList_length key.toList_length, Pkcs1.isBlockType2_block_iff,
    Pkcs1.strip_block_eq_iff, zero_mem_paddingString_iff, hlen]
  simp only [Nat.reduceLeDiff, true_and, and_self, not_exists, not_and, ne_eq]

/-- With 256 zero bytes from the random source the block is neither well formed for the zero
key nor decoded to it. -/
theorem not_keyTransport :
    ¬ ∀ (rand : List.Vector UInt8 256) (key : List.Vector UInt8 16),
      Pkcs1.IsBlockType2 (encryptionBlock rand.toList key.toList) key.toList ∧
        Pkcs1.strip (encryptionBlock rand.toList key.toList) = some key.toList := by
  intro h
  have hzero := (h (.replicate 256 0) (.replicate 16 0)).2
  rw [encryptionBlock_eq (List.Vector.toList_length _) (List.Vector.toList_length _),
    Pkcs1.strip_block_eq_iff, zero_mem_paddingString_iff] at hzero
  exact hzero ⟨2, by decide, by decide, rfl⟩

end Rsa

end RecoveryMenu
