import Reflex.Inbound.Tun
import Reflex.Lib.OnesComplement

namespace Reflex.Inbound

open RustStd OnesComplement

/-!
# Inbounds — the checksums of the TUN device

What the checksum functions of `inbound/tun.rs` compute, as ones' complement sums.

* `toNat_finishChecksum` — the complement of the sum of the words, as long as the sum is a `u32`;
* `verifies_summed` — data with that checksum written into it verifies, and with more behind it exactly
  when the words behind it add up to a multiple of `0xFFFF`.
-/

/-! ### Words -/

theorem sumWords_append {front : Bytes} (h : front.length % 2 = 0) (rest : Bytes) :
    sumWords (front ++ rest) = sumWords front + sumWords rest := by
  fun_induction sumWords front with
  | case1 hi lo front ih =>
      have hfront : front.length % 2 = 0 := by
        simp only [List.length_cons] at h
        omega
      rw [List.cons_append, List.cons_append, sumWords, ih hfront]
      omega
  | case2 hi => cases h
  | case3 => rw [List.nil_append, Nat.zero_add]

/-- The sum of the words of some data is at most `0xFFFF` for each of them. -/
theorem sumWords_le (data : Bytes) : sumWords data ≤ 0xFFFF * ((data.length + 1) / 2) := by
  fun_induction sumWords data with
  | case1 hi lo rest ih =>
      have hhi := hi.toNat_lt
      have hlo := lo.toNat_lt
      simp only [List.length_cons]
      omega
  | case2 hi =>
      have hhi := hi.toNat_lt
      simp only [List.length_cons, List.length_nil]
      omega
  | case3 => exact Nat.zero_le _

/-- Data that can stand behind other data and adds one to its sum. -/
theorem exists_sumWords_append_eq_succ (data : Bytes) :
    ∃ rest, sumWords (data ++ rest) = sumWords data + 1 := by
  fun_induction sumWords data with
  | case1 hi lo data ih =>
      obtain ⟨rest, hrest⟩ := ih
      refine ⟨rest, ?_⟩
      rw [List.cons_append, List.cons_append, sumWords, hrest]
      omega
  | case2 hi => exact ⟨[1], by simp [sumWords]⟩
  | case3 => exact ⟨[0, 1], by simp [sumWords]⟩

/-- Two bytes are one word, the number that they were made of. -/
theorem sumWords_beBytes_two (n : Nat) : sumWords (beBytes 2 n) = n % 2 ^ 16 := by
  show (UInt8.ofNat (n / 256)).toNat * 256 + (UInt8.ofNat n).toNat + 0 = n % 2 ^ 16
  rw [UInt8.toNat_ofNat', UInt8.toNat_ofNat']
  omega

/-- The words of a 32-bit number that fits sixteen bits. -/
theorem sumWords_beBytes_four {n : Nat} (h : n < 2 ^ 16) : sumWords (beBytes 4 n) = n := by
  show (UInt8.ofNat (n / 256 / 256 / 256)).toNat * 256 + (UInt8.ofNat (n / 256 / 256)).toNat
    + ((UInt8.ofNat (n / 256)).toNat * 256 + (UInt8.ofNat n).toNat + 0) = n
  simp only [UInt8.toNat_ofNat']
  omega

theorem sumWords_portBytes (port : UInt16) : sumWords (portBytes port) = port.toNat := by
  rw [portBytes, sumWords_beBytes_two, Nat.mod_eq_of_lt port.toNat_lt]

/-- **Overwriting** words replaces what they add to the sum. -/
theorem sumWords_copyFromSlice {bs new : Bytes} {pos : Nat} (hpos : pos % 2 = 0)
    (hnew : new.length % 2 = 0) (h : pos + new.length ≤ bs.length) :
    sumWords (copyFromSlice bs pos new) + sumWords (slice bs pos new.length)
      = sumWords bs + sumWords new := by
  have hfront : (bs.take pos).length = pos := List.length_take_of_le (by omega)
  have hmid : (slice bs pos new.length).length = new.length := length_slice h
  have hbs : sumWords bs = sumWords (bs.take pos) + (sumWords (slice bs pos new.length)
      + sumWords (bs.drop (pos + new.length))) := by
    conv_lhs => rw [← take_append_slice_append_drop bs pos new.length]
    rw [sumWords_append (by rw [hfront, hpos]), sumWords_append (by rw [hmid, hnew])]
  rw [copyFromSlice, List.append_assoc, sumWords_append (by rw [hfront, hpos]),
    sumWords_append hnew, hbs]
  omega

/-! ### Checksums -/

theorem foldCarries_eq (sum : Nat) : foldCarries sum = residue 0xFFFF sum := by
  fun_induction foldCarries sum with
  | case1 sum h => rw [residue_of_le (by omega)]
  | case2 sum h ih => exact ih.trans (residue_carry 0xFFFF sum)

theorem toNat_finishChecksum {sum : Nat} (h : sum < 2 ^ 32) :
    (finishChecksum sum).toNat = complement 0xFFFF sum := by
  have hle := residue_le (by decide : 0 < 0xFFFF) sum
  have hword : residue 0xFFFF sum < 2 ^ 16 := by omega
  rw [finishChecksum, Nat.mod_eq_of_lt h, foldCarries_eq, complement, UInt16.toNat_not,
    UInt16.toNat_ofNat_of_lt' hword]
  rfl

/-- The parts of the IPv6 pseudo header are whole words, so that it can be summed up as one. -/
theorem checksumWithPseudoV6_eq {src dst : Bytes} (hsrc : src.length % 2 = 0)
    (hdst : dst.length % 2 = 0) (proto : UInt8) (data : Bytes) :
    checksumWithPseudoV6 src dst proto data = finishChecksum
      (sumWords (src ++ dst ++ beBytes 4 data.length ++ [0, 0, 0, proto]) + sumWords data) := by
  have hproto : sumWords [0, 0, 0, proto] = proto.toNat := by simp [sumWords]
  rw [checksumWithPseudoV6, List.append_assoc, List.append_assoc, sumWords_append hsrc,
    sumWords_append hdst, sumWords_append (by rw [length_beBytes]), hproto]
  simp only [Nat.add_assoc]

/-- Does a receiver accept the data?  The ones' complement sum of its words is all ones. -/
def Verifies (data : Bytes) : Prop := foldCarries (sumWords data) = 0xFFFF

/-- Verified data does not verify any more with one more in its sum. -/
theorem not_verifies_of_succ {data data' : Bytes} (h : Verifies data)
    (hsucc : sumWords data' = sumWords data + 1) : ¬ Verifies data' := by
  intro h'
  rw [Verifies, foldCarries_eq, residue_eq_top_iff (by decide)] at h h'
  rw [hsucc] at h'
  exact absurd ((Nat.dvd_add_right h.2).mp h'.2) (by decide)

/-- A checksum in two bytes of a packet: zeros, and then the sum of the packet with them. -/
def withChecksum (checksum : Bytes → UInt16) (pkt : Bytes) (sumAt : Nat) : Bytes :=
  let pkt := copyFromSlice pkt sumAt [0, 0]
  copyFromSlice pkt sumAt (portBytes (checksum pkt))

theorem eqOutside_withChecksum {checksum : Bytes → UInt16} {pkt : Bytes} {sumAt : Nat}
    (h : sumAt + 2 ≤ pkt.length) :
    EqOutside (fun i => sumAt ≤ i ∧ i < sumAt + 2) pkt (withChecksum checksum pkt sumAt) := by
  have hzeros : EqOutside (fun i => sumAt ≤ i ∧ i < sumAt + 2) pkt (copyFromSlice pkt sumAt [0, 0]) :=
    eqOutside_copyFromSlice rfl h
  have hsum : EqOutside (fun i => sumAt ≤ i ∧ i < sumAt + 2) (copyFromSlice pkt sumAt [0, 0])
      (withChecksum checksum pkt sumAt) :=
    eqOutside_copyFromSlice (length_beBytes _ _) (hzeros.length_eq.symm ▸ h)
  exact (hzeros.trans hsum).mono fun i hi => hi.elim id id

/-- **A checksum verifies** over the data it was computed for, with zeros in its place.  `front` is the
    sum of what is added to the data, and `rest` that of what follows it. -/
theorem verifies_summed {zeroed : Bytes} {sumAt front : Nat} (rest : Nat) (heven : sumAt % 2 = 0)
    (hlen : sumAt + 2 ≤ zeroed.length) (hzero : slice zeroed sumAt 2 = [0, 0])
    (hfits : front + sumWords zeroed < 2 ^ 32) :
    foldCarries (front + sumWords (copyFromSlice zeroed sumAt
        (portBytes (finishChecksum (front + sumWords zeroed)))) + rest) = 0xFFFF ↔ 0xFFFF ∣ rest := by
  set sum := finishChecksum (front + sumWords zeroed) with hsum
  have hzeros : sumWords [0, 0] = 0 := rfl
  have hport : (portBytes sum).length = 2 := length_beBytes _ _
  have hwords : sumWords (copyFromSlice zeroed sumAt (portBytes sum)) + sumWords (slice zeroed sumAt 2)
      = sumWords zeroed + sumWords (portBytes sum) :=
    sumWords_copyFromSlice heven (by rw [hport]) (by omega)
  rw [hzero, sumWords_portBytes, hzeros, Nat.add_zero, hsum, toNat_finishChecksum hfits] at hwords
  rw [foldCarries_eq, hsum, hwords, ← Nat.add_assoc, residue_add_complement (by decide)]

/-- The check of a receiver, where nothing is behind the data that were summed up: with the checksum in its place the
    words add up to ones. -/
theorem foldCarries_summed {zeroed : Bytes} {sumAt front : Nat} (heven : sumAt % 2 = 0)
    (hlen : sumAt + 2 ≤ zeroed.length) (hzero : slice zeroed sumAt 2 = [0, 0])
    (hfits : front + sumWords zeroed < 2 ^ 32) :
    foldCarries (front + sumWords (copyFromSlice zeroed sumAt
      (portBytes (finishChecksum (front + sumWords zeroed))))) = 0xFFFF := by
  have hsum := (verifies_summed 0 heven hlen hzero hfits).mpr (Nat.dvd_zero _)
  rwa [Nat.add_zero] at hsum

end Reflex.Inbound
