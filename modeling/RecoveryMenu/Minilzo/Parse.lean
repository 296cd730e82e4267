import RecoveryMenu.Minilzo.Format

set_option relaxedAutoImplicit false
set_option autoImplicit false

/-!
# What is decompressed is a text (`ios_mcp/source/minilzo/minilzo.c`)

The other direction: where `lzo1x_decompress_safe` has a result, its input is a text that is well
formed, and the result is what it says. The parts of the machine are taken in the order in which
they write a text, and each of them is a piece of one if what follows it is the rest of one.

## Main definitions

* `RecoveryMenu.Minilzo.From`, `RecoveryMenu.Minilzo.Leads`: bytes that are a text from a copy on,
  or from the literals before it.
* `RecoveryMenu.Minilzo.Parses`: what they have to be at a label.

## Main results

* `RecoveryMenu.Minilzo.step_sound`: a turn reads a piece of a text.
* `RecoveryMenu.Minilzo.lzo1xDecompressSafe_eq_ok_iff`: what is decompressed are the texts that
  have room, to what they say.

## References

* `ios_mcp/source/minilzo/minilzo.c`.
-/

namespace RecoveryMenu

namespace Minilzo

open Lz77

/-! ## Pieces of a text -/

/-- From a copy on, these bytes make `out` of `u`. -/
def From (b : Behind) (ip u out : List UInt8) : Prop :=
  ∃ rest : Rest, ip = rest.encode ∧ rest.WellFormed b ∧ Expands rest.tokens u out

/-- With the literals before it they do, if their number is in the low bits. -/
def Leads (l : ℕ) (ip u out : List UInt8) : Prop :=
  ∃ ls ip', low ls = l ∧ ip = lead ls ++ ip' ∧ LiteralsValid ls ∧ From (behind ls) ip' (u ++ ls) out

/-- What the bytes at a label have to be. -/
def Parses (out ip u : List UInt8) : Option Label → Prop
  | none => ip = [] ∧ u = out
  | some .top => Leads 0 ip u out
  | some .firstLiteralRun => From .run ip u out
  | some (.lookAt t) => From .literals (UInt8.ofNat t :: ip) u out

/-- What is looked at is a byte. -/
def Label.IsByte : Label → Prop
  | .lookAt t => t < 256
  | _ => True

/-- Where a part of the machine has a result, `P` is true of the output if the bytes that are left
are what they have to be. -/
def Yields (P : List UInt8 → Prop) (r : Except LzoError (Option Label × Lzo)) : Prop :=
  ∀ label s, r = .ok (label, s) → ∃ ip u, s = state ip u ∧ (∀ l ∈ label, l.IsByte) ∧
    ∀ out, Parses out ip u label → P out

variable {outLen : ℕ}

/-- A copy and what it leads to. -/
lemma Leads.copy {c : Copy} {b : Behind} {l : ℕ} {ip u v out : List UInt8} (hc : c.Valid b)
    (h : (Token.copy c.length c.distance).Extends u v) (hleads : Leads l ip v out) :
    From b (c.encode l ++ ip) u out := by
  obtain ⟨ls, ip', rfl, rfl, hvalid, rest, rfl, hwf, hexpands⟩ := hleads
  exact ⟨.copy c ls rest, rfl, ⟨hc, hvalid, hwf⟩, v, h, v ++ ls, rfl, hexpands⟩

/-- Where the first byte is not that of an `M1`, what is before it does not matter. -/
lemma From.of_literals {b : UInt8} {ip u out : List UInt8} (hb : 16 ≤ b.toNat)
    (h : From .literals (b :: ip) u out) (c : Behind) : From c (b :: ip) u out := by
  obtain ⟨rest, heq, hwf, hexpands⟩ := h
  refine ⟨rest, heq, ?_, hexpands⟩
  cases rest with
  | eof length l => exact hwf
  | copy copy ls rest =>
    obtain ⟨hcopy, hrest⟩ := hwf
    refine ⟨?_, hrest⟩
    obtain ⟨kind, length, distance⟩ := copy
    cases kind with
    | m1 =>
      -- the first byte of an `M1` is less than 16
      obtain ⟨rfl, -⟩ : b = UInt8.ofNat ((distance - 1) % 4 * 4 + low ls) ∧ _ := by
        simpa [Rest.encode, Copy.encode] using heq
      have hlow : low ls < 4 := by
        unfold low
        split
        · assumption
        · exact Nat.zero_lt_succ 3
      rw [toNat_ofNat (by omega)] at hb
      omega
    | m1Run =>
      have hrun : Behind.literals = .run := hcopy.1
      cases hrun
    | m2 => exact hcopy
    | m3 => exact hcopy
    | m4 => exact hcopy

/-! ## Parts of the machine -/

/-- A byte is one of the input. -/
lemma next_sound {ip u : List UInt8} {t : ℕ} {s : Lzo} (h : next (state ip u) = .ok (t, s)) :
    ∃ b ip', ip = b :: ip' ∧ t = b.toNat ∧ s = state ip' u := by
  cases ip with
  | nil => cases h
  | cons b ip =>
    obtain ⟨rfl, rfl⟩ : b.toNat = t ∧ state ip u = s := by simpa using h
    exact ⟨b, ip, rfl, rfl, rfl⟩

/-- The bytes of a length are zeros and one that is none. -/
lemma extend_sound {overflow : LzoError} {t n : ℕ} {ip rest : List UInt8}
    (h : extend overflow t ip = .ok (n, rest)) :
    ∃ k b, b ≠ 0 ∧ ip = List.replicate k 0 ++ b :: rest ∧ n = t + k * 255 + b.toNat ∧
      (k = 0 ∨ t + k * 255 ≤ 2 ^ 32 - 511) := by
  induction ip generalizing t with
  | nil => cases h
  | cons b ip ih =>
    rw [extend] at h
    split_ifs at h with hzero hlarge
    · obtain ⟨k, b', hb', rfl, rfl, hsum⟩ := ih h
      refine ⟨k + 1, b', hb', by rw [hzero]; rfl, by omega, Or.inr ?_⟩
      rcases hsum with rfl | hsum <;> omega
    · obtain ⟨rfl, rfl⟩ : t + b.toNat = n ∧ ip = rest := by simpa using h
      exact ⟨0, b, hzero, rfl, by omega, Or.inl rfl⟩

/-- What is read as a length is written as one. -/
theorem readLength_sound {overflow : LzoError} {mask t n : ℕ} {ip u : List UInt8} {s : Lzo}
    (h : readLength overflow mask t (state ip u) = .ok (n, s)) :
    ∃ ip', s = state ip' u ∧ LengthValid mask n ∧ t % (mask + 1) = lengthField mask n ∧
      ip = lengthBytes mask n ++ ip' := by
  unfold readLength at h
  split at h
  · next hzero =>
    obtain ⟨⟨m, rest⟩, hextend, hresult⟩ := bind_eq_ok.mp h
    obtain ⟨rfl, rfl⟩ : mask + m = n ∧ state rest u = s := by
      simpa [pure, Except.pure, state] using hresult
    obtain ⟨k, b, hb, hip, rfl, hsum⟩ := extend_sound hextend
    have hpos : b.toNat ≠ 0 := fun h => hb (UInt8.toNat_inj.mp h)
    have hlt := b.toNat_lt
    have hfits : ¬ mask + (0 + k * 255 + b.toNat) ≤ mask := by omega
    have hzeros : (mask + (0 + k * 255 + b.toNat) - mask - 1) / 255 = k := by omega
    have hlast : (mask + (0 + k * 255 + b.toNat) - mask - 1) % 255 + 1 = b.toNat := by omega
    refine ⟨rest, rfl, ⟨by omega, ?_⟩, ?_, ?_⟩
    · rw [hzeros]
      omega
    · rw [hzero, lengthField, if_neg hfits]
    · rw [lengthBytes, if_neg hfits, hzeros, hlast, UInt8.ofNat_toNat, List.append_assoc]
      exact hip
  · next hpos =>
    obtain ⟨rfl, rfl⟩ : t % (mask + 1) = n ∧ state ip u = s := by simpa using h
    have hfits : t % (mask + 1) ≤ mask := Nat.le_of_lt_succ (Nat.mod_lt _ (Nat.succ_pos mask))
    refine ⟨ip, rfl, ⟨Nat.pos_of_ne_zero hpos, ?_⟩, ?_, ?_⟩
    · have hzeros : t % (mask + 1) - mask - 1 = 0 := by omega
      rw [hzeros, Nat.zero_div, Nat.zero_mul]
      exact Nat.zero_le _
    · rw [lengthField, if_pos hfits]
    · rw [lengthBytes, if_pos hfits, List.nil_append]

/-- A copy that is carried out is one from the text. -/
lemma copyMatch_sound {distance t : ℕ} {ip u : List UInt8} {s : Lzo} (hpos : 0 < distance)
    (h : copyMatch outLen distance t (state ip u) = .ok s) :
    ∃ v, (Token.copy t distance).Extends u v ∧ s = state ip v := by
  have hle : distance ≤ u.length := by
    by_contra hfar
    have hop : ¬ distance ≤ (state ip u).op := hfar
    rw [copyMatch, if_neg hop] at h
    cases h
  refine ⟨_, extends_copyBytes hpos hle, ?_⟩
  have hop : distance ≤ (state ip u).op := hle
  rw [copyMatch, if_pos hop] at h
  split at h
  · obtain rfl := Except.ok.inj h
    simp [state, length_copyBytes]
  · cases h

/-- The literals that are copied are the next bytes. -/
lemma literals_drop {n : ℕ} {ip u : List UInt8} (h : n ≤ ip.length) :
    literals n (state ip u) = state (ip.drop n) (u ++ ip.take n) := by
  have hlength : (ip.take n).length = n := by
    rw [List.length_take]
    exact Nat.min_eq_left h
  have hliterals := literals_state (ip.take n) (ip.drop n) u
  rw [List.take_append_drop, hlength] at hliterals
  exact hliterals

/-- The check of the input. -/
lemma needIp_sound {n : ℕ} {ip u : List UInt8} {x : Unit} (h : needIp n (state ip u) = .ok x) :
    n ≤ ip.length := by
  unfold needIp at h
  split at h
  · next hbytes => exact hasBytes_iff.mp hbytes
  · cases h

/-- The literals behind a copy lead to the next one. -/
theorem matchDone_sound {l : ℕ} {ip u : List UInt8} (hl : l < 4) :
    Yields (Leads l ip u) (matchDone outLen l (state ip u)) := by
  intro label s h
  unfold matchDone at h
  split at h
  · next hzero =>
    obtain ⟨rfl, rfl⟩ : some .top = label ∧ state ip u = s := by simpa using h
    exact ⟨ip, u, rfl, by simp [Label.IsByte], fun out hparses => hzero ▸ hparses⟩
  · next hpos =>
    obtain ⟨_, -, h⟩ := bind_eq_ok.mp h
    obtain ⟨_, hneed, h⟩ := bind_eq_ok.mp h
    obtain ⟨⟨t, s₁⟩, hnext, h⟩ := bind_eq_ok.mp h
    have hbytes := needIp_sound hneed
    rw [literals_drop (by omega)] at hnext
    obtain ⟨b, ip', hip, rfl, rfl⟩ := next_sound hnext
    obtain ⟨rfl, rfl⟩ : some (.lookAt b.toNat) = label ∧ state ip' (u ++ ip.take l) = s := by
      simpa [pure, Except.pure] using h
    have hlength : (ip.take l).length = l := by
      rw [List.length_take]
      omega
    refine ⟨ip', _, rfl, by simpa [Label.IsByte] using b.toNat_lt, fun out hparses => ?_⟩
    refine ⟨ip.take l, b :: ip', ?_, ?_, fun hlong => absurd hlong (by omega), ?_⟩
    · rw [low, hlength, if_pos hl]
    · rw [lead, hlength, if_pos hl, ← hip, List.take_append_drop]
    · rw [behind, hlength, if_neg hpos, if_pos hl]
      have hfrom : From .literals (UInt8.ofNat b.toNat :: ip') (u ++ ip.take l) out := hparses
      rwa [UInt8.ofNat_toNat] at hfrom

/-- A copy with a byte for its distance is a piece of a text. -/
lemma nearMatch_sound {P : List UInt8 → Prop} {n t : ℕ} {distance : ℕ → ℕ} {ip u : List UInt8}
    (hpos : ∀ b, 0 < distance b)
    (hP : ∀ (b : UInt8) ip' v out, ip = b :: ip' → (Token.copy n (distance b.toNat)).Extends u v →
      Leads (t % 4) ip' v out → P out) :
    Yields P (nearMatch outLen n t distance (state ip u)) := by
  intro label s h
  obtain ⟨⟨_, s₁⟩, hnext, h⟩ := bind_eq_ok.mp h
  obtain ⟨b, ip', hip, rfl, rfl⟩ := next_sound hnext
  obtain ⟨s₂, hcopy, hdone⟩ := bind_eq_ok.mp h
  obtain ⟨v, hv, rfl⟩ := copyMatch_sound (hpos _) hcopy
  obtain ⟨ip₂, u₂, rfl, hbyte, hleads⟩ := matchDone_sound (Nat.mod_lt t (by omega)) label s hdone
  exact ⟨ip₂, u₂, rfl, hbyte, fun out hparses => hP b ip' v out hip hv (hleads out hparses)⟩

/-- So is one with two of them, or it is the end. -/
lemma farMatch_sound {P : List UInt8 → Prop} {n : ℕ} {distance : ℕ → Option ℕ} {ip u : List UInt8}
    (hpos : ∀ offset d, distance offset = some d → 0 < d)
    (hend : ∀ offset l, offset < 0x4000 → l < 4 → ip = offsetBytes offset l →
      distance offset = none → P u)
    (hP : ∀ offset l ip' d v out, offset < 0x4000 → l < 4 → ip = offsetBytes offset l ++ ip' →
      distance offset = some d → (Token.copy (n + 2) d).Extends u v → Leads l ip' v out → P out) :
    Yields P (farMatch outLen n distance (state ip u)) := by
  intro label s h
  obtain ⟨⟨_, s₁⟩, hnext, h⟩ := bind_eq_ok.mp h
  obtain ⟨b0, ip₁, rfl, rfl, rfl⟩ := next_sound hnext
  obtain ⟨⟨_, s₂⟩, hnext, h⟩ := bind_eq_ok.mp h
  obtain ⟨b1, ip₂, rfl, rfl, rfl⟩ := next_sound hnext
  have hb0 := b0.toNat_lt
  have hb1 := b1.toNat_lt
  have hlt : b0.toNat / 4 + b1.toNat * 64 < 0x4000 := by omega
  have hl : b0.toNat % 4 < 4 := Nat.mod_lt _ (by omega)
  have hbytes : b0 :: b1 :: ip₂ =
      offsetBytes (b0.toNat / 4 + b1.toNat * 64) (b0.toNat % 4) ++ ip₂ := by
    have h0 : (b0.toNat / 4 + b1.toNat * 64) % 64 * 4 + b0.toNat % 4 = b0.toNat := by omega
    have h1 : (b0.toNat / 4 + b1.toNat * 64) / 64 = b1.toNat := by omega
    rw [offsetBytes, h0, h1, UInt8.ofNat_toNat, UInt8.ofNat_toNat]
    rfl
  dsimp only at h
  split at h
  · next hnone =>
    obtain ⟨rfl, rfl⟩ : none = label ∧ state ip₂ u = s := by simpa [pure, Except.pure] using h
    refine ⟨ip₂, u, rfl, by simp, fun out hparses => ?_⟩
    obtain ⟨rfl, rfl⟩ : ip₂ = [] ∧ u = out := hparses
    rw [List.append_nil] at hbytes
    exact hend _ _ hlt hl hbytes hnone
  · next d hsome =>
    obtain ⟨s₃, hcopy, hdone⟩ := bind_eq_ok.mp h
    obtain ⟨v, hv, rfl⟩ := copyMatch_sound (hpos _ _ hsome) hcopy
    obtain ⟨ip₃, u₃, rfl, hbyte, hleads⟩ := matchDone_sound hl label s hdone
    exact ⟨ip₃, u₃, rfl, hbyte, fun out hparses =>
      hP _ _ ip₂ d v out hlt hl hbytes hsome hv (hleads out hparses)⟩

/-! ## Turns -/

/-- A length and what is behind it. -/
lemma readLength_yields {P : List UInt8 → Prop} {overflow : LzoError} {mask t : ℕ}
    {ip u : List UInt8} {f : ℕ → Lzo → Except LzoError (Option Label × Lzo)}
    (h : ∀ n ip', LengthValid mask n → t % (mask + 1) = lengthField mask n →
      ip = lengthBytes mask n ++ ip' → Yields P (f n (state ip' u))) :
    Yields P (do
      let (n, s) ← readLength overflow mask t (state ip u)
      needIp 2 s
      f n s) := by
  intro label s hr
  obtain ⟨⟨n, s₁⟩, hread, hr⟩ := bind_eq_ok.mp hr
  obtain ⟨ip', rfl, hvalid, hfield, hip⟩ := readLength_sound hread
  obtain ⟨_, -, hr⟩ := bind_eq_ok.mp hr
  exact h n ip' hvalid hfield hip label s hr

section Bytes

variable {t : ℕ} {ip u : List UInt8}

/-- A byte for a copy from a short distance. -/
lemma m2_sound (ht : t < 256) (h64 : 64 ≤ t) :
    Yields (From .literals (UInt8.ofNat t :: ip) u)
      (nearMatch outLen (t / 32 + 1) t (fun b => 1 + t / 4 % 8 + b * 8) (state ip u)) := by
  refine nearMatch_sound (fun b => by omega) fun b ip' v out hip hv hleads => ?_
  have hb := b.toNat_lt
  have hc : (Copy.mk .m2 (t / 32 + 1) (1 + t / 4 % 8 + b.toNat * 8)).Valid .literals := by
    simp only [Copy.Valid]
    omega
  have hfrom := Leads.copy hc hv hleads
  have hfirst : (t / 32 + 1 - 1) * 32 + (1 + t / 4 % 8 + b.toNat * 8 - 1) % 8 * 4 + t % 4 = t := by
    omega
  have hsecond : (1 + t / 4 % 8 + b.toNat * 8 - 1) / 8 = b.toNat := by omega
  simp only [Copy.encode, hfirst, hsecond, UInt8.ofNat_toNat] at hfrom
  rw [hip]
  exact hfrom

/-- A byte for two bytes behind up to three literals. -/
lemma m1_sound (h16 : t < 16) :
    Yields (From .literals (UInt8.ofNat t :: ip) u)
      (nearMatch outLen 2 t (fun b => 1 + t / 4 + b * 4) (state ip u)) := by
  refine nearMatch_sound (fun b => by omega) fun b ip' v out hip hv hleads => ?_
  have hb := b.toNat_lt
  have hc : (Copy.mk .m1 2 (1 + t / 4 + b.toNat * 4)).Valid .literals := by
    simp only [Copy.Valid, true_and]
    omega
  have hfrom := Leads.copy hc hv hleads
  have hfirst : (1 + t / 4 + b.toNat * 4 - 1) % 4 * 4 + t % 4 = t := by omega
  have hsecond : (1 + t / 4 + b.toNat * 4 - 1) / 4 = b.toNat := by omega
  simp only [Copy.encode, hfirst, hsecond, UInt8.ofNat_toNat] at hfrom
  rw [hip]
  exact hfrom

/-- A byte for three bytes behind a run. -/
lemma m1Run_sound (h16 : t < 16) :
    Yields (From .run (UInt8.ofNat t :: ip) u)
      (nearMatch outLen 3 t (fun b => 1 + 0x0800 + t / 4 + b * 4) (state ip u)) := by
  refine nearMatch_sound (fun b => by omega) fun b ip' v out hip hv hleads => ?_
  have hb := b.toNat_lt
  have hc : (Copy.mk .m1Run 3 (1 + 0x0800 + t / 4 + b.toNat * 4)).Valid .run := by
    simp only [Copy.Valid, true_and]
    omega
  have hfrom := Leads.copy hc hv hleads
  have hfirst : (1 + 0x0800 + t / 4 + b.toNat * 4 - 0x801) % 4 * 4 + t % 4 = t := by omega
  have hsecond : (1 + 0x0800 + t / 4 + b.toNat * 4 - 0x801) / 4 = b.toNat := by omega
  simp only [Copy.encode, hfirst, hsecond, UInt8.ofNat_toNat] at hfrom
  rw [hip]
  exact hfrom

/-- The bytes of a copy from a middle distance. -/
lemma m3_sound {n : ℕ} (ht : t < 64) (h32 : 32 ≤ t) (hvalid : LengthValid 31 n)
    (hfield : t % (31 + 1) = lengthField 31 n) :
    Yields (From .literals (UInt8.ofNat t :: (lengthBytes 31 n ++ ip)) u)
      (farMatch outLen n (fun offset => some (1 + offset)) (state ip u)) := by
  refine farMatch_sound (fun offset d hd => ?_) (fun _ _ _ _ _ h => nomatch h)
    fun offset l ip' d v out hoffset hl hip hd hv hleads => ?_
  · obtain rfl := Option.some.inj hd
    omega
  · obtain rfl := Option.some.inj hd
    have hc : (Copy.mk .m3 (n + 2) (1 + offset)).Valid .literals := by
      simp only [Copy.Valid]
      exact ⟨hvalid, by omega, by omega⟩
    have hfrom := Leads.copy hc hv hleads
    have hfirst : 32 + lengthField 31 n = t := by omega
    have hsecond : 1 + offset - 1 = offset := Nat.add_sub_cancel_left 1 offset
    simp only [Copy.encode, Nat.add_sub_cancel, hfirst, hsecond, List.cons_append,
      List.append_assoc] at hfrom
    rw [hip]
    exact hfrom

/-- The bytes of a copy from a long distance, or of the end. -/
lemma m4_sound {n : ℕ} (ht : t < 32) (h16 : 16 ≤ t) (hvalid : LengthValid 7 n)
    (hfield : t % (7 + 1) = lengthField 7 n) :
    Yields (From .literals (UInt8.ofNat t :: (lengthBytes 7 n ++ ip)) u)
      (farMatch outLen n (fun offset =>
        let d := t / 8 % 2 * 0x4000 + offset
        if d = 0 then none else some (d + 0x4000)) (state ip u)) := by
  refine farMatch_sound (fun offset d hd => ?_) (fun offset l hoffset hl hip hd => ?_)
    fun offset l ip' d v out hoffset hl hip hd hv hleads => ?_
  · dsimp only at hd
    split_ifs at hd
    obtain rfl := Option.some.inj hd
    omega
  · dsimp only at hd
    split_ifs at hd with hzero
    obtain ⟨hbit, rfl⟩ : t / 8 % 2 = 0 ∧ offset = 0 := by omega
    have hfirst : 16 + lengthField 7 n = t := by omega
    refine ⟨.eof n l, ?_, ⟨hvalid, hl⟩, rfl⟩
    rw [Rest.encode, hfirst, hip]
  · dsimp only at hd
    split_ifs at hd with hzero
    obtain rfl := Option.some.inj hd
    obtain ⟨e, he⟩ : ∃ e, t / 8 % 2 * 0x4000 + offset = e := ⟨_, rfl⟩
    rw [he] at hv hzero
    have hbit : t / 8 % 2 ≤ 1 := by omega
    have hc : (Copy.mk .m4 (n + 2) (e + 0x4000)).Valid .literals := by
      simp only [Copy.Valid]
      exact ⟨hvalid, by omega, by omega⟩
    have hfrom := Leads.copy hc hv hleads
    have hfirst : 16 + e / 0x4000 * 8 + lengthField 7 n = t := by omega
    have hsecond : e % 0x4000 = offset := by omega
    simp only [Copy.encode, Nat.add_sub_cancel, hfirst, hsecond, List.cons_append,
      List.append_assoc] at hfrom
    rw [hip]
    exact hfrom

end Bytes

/-- At a byte of a copy, a copy or the end is read. -/
theorem lookAt_sound {t : ℕ} {ip u : List UInt8} (ht : t < 256) :
    Yields (From .literals (UInt8.ofNat t :: ip) u) (step outLen (state ip u) (.lookAt t)) := by
  rw [step]
  split_ifs with h64 h32 h16
  · exact m2_sound ht h64
  · exact readLength_yields fun n ip' hvalid hfield hip =>
      hip ▸ m3_sound (by omega) h32 hvalid hfield
  · exact readLength_yields fun n ip' hvalid hfield hip =>
      hip ▸ m4_sound (by omega) h16 hvalid hfield
  · exact m1_sound (by omega)

/-- At the other labels, the literals or the copy that can be there.

**Proof sketch.** A byte of 16 or more is that of a copy, whatever is before it. At the top a
smaller one is the length of a run of literals, and behind a run it is the byte of an `M1`. -/
theorem step_sound {label : Label} {ip u : List UInt8} (hlabel : label.IsByte) :
    Yields (fun out => Parses out ip u (some label)) (step outLen (state ip u) label) := by
  cases label with
  | top =>
    intro label s h
    obtain ⟨_, -, h⟩ := bind_eq_ok.mp h
    obtain ⟨⟨_, s₁⟩, hnext, h⟩ := bind_eq_ok.mp h
    obtain ⟨b, ip', rfl, rfl, rfl⟩ := next_sound hnext
    have hb := b.toNat_lt
    dsimp only at h
    split at h
    · next h16 =>
      obtain ⟨rfl, rfl⟩ : some (.lookAt b.toNat) = label ∧ state ip' u = s := by
        simpa [pure, Except.pure] using h
      refine ⟨ip', u, rfl, by simpa [Label.IsByte] using hb, fun out hparses => ?_⟩
      have hfrom : From .literals (UInt8.ofNat b.toNat :: ip') u out := hparses
      rw [UInt8.ofNat_toNat] at hfrom
      refine ⟨[], b :: ip', rfl, rfl, fun hlong => absurd hlong (by simp), ?_⟩
      rw [List.append_nil]
      exact hfrom.of_literals h16 _
    · next hrun =>
      obtain ⟨⟨n, s₂⟩, hread, hrest⟩ := bind_eq_ok.mp h
      obtain ⟨ip₂, rfl, hvalid, hfield, rfl⟩ := readLength_sound hread
      obtain ⟨_, -, hrest⟩ := bind_eq_ok.mp hrest
      obtain ⟨_, hneed, hrest⟩ := bind_eq_ok.mp hrest
      have hbytes := needIp_sound hneed
      rw [literals_drop (by omega)] at hrest
      obtain ⟨rfl, rfl⟩ : some .firstLiteralRun = label ∧
          state (ip₂.drop (n + 3)) (u ++ ip₂.take (n + 3)) = s := by
        simpa [pure, Except.pure] using hrest
      refine ⟨_, _, rfl, by simp [Label.IsByte], fun out hparses => ?_⟩
      have hlength : (ip₂.take (n + 3)).length = n + 3 := by
        rw [List.length_take]
        omega
      have hlong : ¬ (ip₂.take (n + 3)).length < 4 := by
        have := hvalid.1
        omega
      refine ⟨ip₂.take (n + 3), ip₂.drop (n + 3), ?_, ?_, fun _ => ?_, ?_⟩
      · rw [low, if_neg hlong]
      · have hfirst : lengthField 15 n = b.toNat := by omega
        rw [lead, if_neg hlong, runBytes, hlength, Nat.add_sub_cancel, hfirst, UInt8.ofNat_toNat,
          List.cons_append, List.append_assoc, List.take_append_drop]
      · rw [hlength]
        exact hvalid
      · rw [behind, if_neg (by omega), if_neg hlong]
        exact hparses
  | firstLiteralRun =>
    intro label s h
    obtain ⟨⟨_, s₁⟩, hnext, h⟩ := bind_eq_ok.mp h
    obtain ⟨b, ip', rfl, rfl, rfl⟩ := next_sound hnext
    have hb := b.toNat_lt
    dsimp only at h
    split at h
    · next h16 =>
      obtain ⟨rfl, rfl⟩ : some (.lookAt b.toNat) = label ∧ state ip' u = s := by
        simpa [pure, Except.pure] using h
      refine ⟨ip', u, rfl, by simpa [Label.IsByte] using hb, fun out hparses => ?_⟩
      have hfrom : From .literals (UInt8.ofNat b.toNat :: ip') u out := hparses
      rw [UInt8.ofNat_toNat] at hfrom
      exact hfrom.of_literals h16 _
    · next h16 =>
      have hsound := @m1Run_sound outLen b.toNat ip' u (by omega) label s h
      rw [UInt8.ofNat_toNat] at hsound
      exact hsound
  | lookAt t => exact lookAt_sound hlabel

/-- A run to the end reads the rest of a text. -/
theorem run_sound {turns : ℕ} {label : Label} {ip u : List UInt8} {s : Lzo}
    (hlabel : label.IsByte) (h : run outLen turns label (state ip u) = .ok s) (hs : s.ip = []) :
    Parses s.out.reverse ip u (some label) := by
  induction turns generalizing label ip u with
  | zero => cases h
  | succ turns ih =>
    rw [run] at h
    split at h
    · cases h
    · next _ s₁ hstep =>
      obtain rfl := Except.ok.inj h
      obtain ⟨ip', u', rfl, -, hparses⟩ := step_sound hlabel none s₁ hstep
      refine hparses _ ⟨hs, ?_⟩
      exact (List.reverse_reverse u').symm
    · next label' s₁ hstep =>
      obtain ⟨ip', u', rfl, hbyte, hparses⟩ := step_sound hlabel (some label') s₁ hstep
      exact hparses _ (ih (hbyte label' rfl) h)

/-! ## The whole text -/

/-- A text that begins at the top. -/
lemma Leads.text {b : UInt8} {ip out : List UInt8} (hb : b.toNat ≤ 17)
    (h : Leads 0 (b :: ip) [] out) :
    ∃ text : Text, text.WellFormed ∧ text.encode = b :: ip ∧ Expands text.tokens [] out := by
  obtain ⟨ls, ip', hlow, hip, hvalid, rest, rfl, hwf, hexpands⟩ := h
  refine ⟨⟨ls, false, rest⟩, ⟨fun _ => hvalid, (nomatch ·), fun hnone => ?_, hwf⟩, ?_,
    ls, rfl, hexpands⟩
  · cases rest with
    | eof length l =>
      have hfield := lengthField_le 7 length
      obtain rfl : ls = [] := hnone
      obtain ⟨rfl, -⟩ : b = UInt8.ofNat (16 + lengthField 7 length) ∧ _ := by
        simpa [lead, Rest.encode] using hip
      rw [toNat_ofNat (by omega)] at hb
      show lengthField 7 length ≤ 1
      omega
    | copy c ls' rest => trivial
  · -- up to three literals would be counted in low bits, and there are none
    by_cases hshort : ls.length < 4
    · have hnone : ls.length = 0 := by simpa [low, hshort] using hlow
      obtain rfl := List.length_eq_zero_iff.mp hnone
      exact hip.symm
    · have hfirst : firstBytes ls false = lead ls := by
        rw [firstBytes, lead, if_neg (by omega), if_neg hshort, if_neg (by simpa using hshort)]
      rw [Text.encode, hfirst]
      exact hip.symm

/-- A text that begins with the number of its literals. -/
lemma From.text {b : UInt8} {ls ip out : List UInt8} (hb : 17 < b.toNat)
    (hlength : ls.length = b.toNat - 17) (h : From (behind ls) ip ls out) :
    ∃ text : Text, text.WellFormed ∧ text.encode = b :: (ls ++ ip) ∧
      Expands text.tokens [] out := by
  obtain ⟨rest, rfl, hwf, hexpands⟩ := h
  have hlt := b.toNat_lt
  have hbyte : UInt8.ofNat (17 + ls.length) = b := by
    rw [show 17 + ls.length = b.toNat by omega, UInt8.ofNat_toNat]
  refine ⟨⟨ls, true, rest⟩, ⟨(nomatch ·), fun _ => ?_, fun hnone => ?_, hwf⟩, ?_,
    ls, rfl, hexpands⟩
  · show ls.length ≤ 238
    omega
  · obtain rfl : ls = [] := hnone
    rw [List.length_nil] at hlength
    omega
  · have hfirst : firstBytes ls true = b :: ls := by
      rw [firstBytes, if_neg (by omega), if_pos (Or.inr rfl), hbyte]
    rw [Text.encode, hfirst]
    rfl

/-- The literals at the beginning. -/
lemma start_sound {ip out : List UInt8} {label : Label} {s : Lzo}
    (h : start outLen (state ip []) = .ok (some label, s)) :
    label.IsByte ∧ ∃ ip' u, s = state ip' u ∧ (Parses out ip' u (some label) →
      ∃ text : Text, text.WellFormed ∧ text.encode = ip ∧ Expands text.tokens [] out) := by
  cases ip with
  | nil => cases h
  | cons b ip =>
    have hlt := b.toNat_lt
    by_cases hb : 17 < b.toNat
    · have hstart : start outLen (state (b :: ip) []) =
          if b.toNat - 17 < 4 then matchDone outLen (b.toNat - 17) (state ip [])
          else do
            needOp outLen (b.toNat - 17) (state ip [])
            needIp (b.toNat - 17 + 3) (state ip [])
            return (some .firstLiteralRun, literals (b.toNat - 17) (state ip [])) := if_pos hb
      rw [hstart] at h
      split at h
      · next hshort =>
        obtain ⟨ip', u, rfl, hbyte, hleads⟩ := matchDone_sound hshort _ _ h
        refine ⟨hbyte label rfl, ip', u, rfl, fun hparses => ?_⟩
        obtain ⟨ls, ip₂, hlow, rfl, -, hfrom⟩ := hleads out hparses
        have hls : ls.length < 4 := by
          by_contra hlong
          rw [low, if_neg hlong] at hlow
          omega
        rw [low, if_pos hls] at hlow
        rw [lead, if_pos hls]
        exact hfrom.text hb hlow
      · next hlong =>
        obtain ⟨_, -, hrest⟩ := bind_eq_ok.mp h
        obtain ⟨_, hneed, hrest⟩ := bind_eq_ok.mp hrest
        have hbytes := needIp_sound hneed
        rw [literals_drop (by omega)] at hrest
        obtain ⟨rfl, rfl⟩ : .firstLiteralRun = label ∧
            state (ip.drop (b.toNat - 17)) ([] ++ ip.take (b.toNat - 17)) = s := by
          simpa [pure, Except.pure] using hrest
        refine ⟨trivial, _, _, rfl, fun hparses => ?_⟩
        have hlength : (ip.take (b.toNat - 17)).length = b.toNat - 17 := by
          rw [List.length_take]
          omega
        have hfrom : From (behind (ip.take (b.toNat - 17))) (ip.drop (b.toNat - 17))
            (ip.take (b.toNat - 17)) out := by
          rw [behind, if_neg (by omega), if_neg (by omega)]
          exact hparses
        have htext := hfrom.text hb hlength
        rwa [List.take_append_drop] at htext
    · rw [start_top (by omega)] at h
      obtain ⟨rfl, rfl⟩ : .top = label ∧ state (b :: ip) [] = s := by simpa using h
      exact ⟨trivial, b :: ip, [], rfl, fun hparses => hparses.text (by omega)⟩

/-- **What is decompressed are the texts that have room, and the result is what they say.** -/
theorem lzo1xDecompressSafe_eq_ok_iff (input out : List UInt8) (outLen : ℕ) :
    lzo1xDecompressSafe input outLen = .ok out ↔
      out.length ≤ outLen ∧
        ∃ text : Text, text.WellFormed ∧ text.encode = input ∧ Expands text.tokens [] out := by
  constructor
  · intro h
    refine ⟨length_le_of_decompress h, ?_⟩
    rw [decompress_eq] at h
    split at h
    · cases h
    · next s hrun =>
      split_ifs at h with hs
      obtain rfl := Except.ok.inj h
      cases hstart : start outLen (state input []) with
      | error e =>
        rw [hstart] at hrun
        cases hrun
      | ok r =>
        obtain ⟨_ | label, s₁⟩ := r
        · exact absurd hstart start_ne_none
        · rw [hstart] at hrun
          obtain ⟨hbyte, ip', u, rfl, htext⟩ := start_sound hstart
          exact htext (run_sound hbyte hrun hs)
  · rintro ⟨hroom, text, htext, rfl, hout⟩
    rw [decompress_encode htext hout, if_pos hroom]

end Minilzo

end RecoveryMenu
