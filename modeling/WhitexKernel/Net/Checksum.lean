import WhitexKernel.Lib.OnesComplement
import WhitexKernel.Net.Rules

/-!
# Checksum — what `wx_checksum` computes

The words are added up in 32 bits, which is room enough for 65535 bytes, and the carries are added
back in, which takes two rounds at most.  A checksum put in the place of two zero bytes makes the
checksum of the whole zero.

* `wxChecksum_sealed` — for the header of a packet;
* `wxChecksum_sound` — for any bytes.
-/

namespace WhitexKernel
namespace Net

open Lib Lib.Bytes Machine

/-! ## Sums of words -/

/-- The sum of the 16-bit words of `data`, and of the byte that is left. -/
def wordSum : List UInt8 → Nat
  | a :: b :: rest => a.toNat + 256 * b.toNat + wordSum rest
  | [a] => a.toNat
  | [] => 0

theorem addWords_eq {sum : Nat} (hsum : sum < 2 ^ 32) (data : List UInt8) :
    addWords sum data = wrap32 (sum + wordSum data) := by
  induction data using wordSum.induct generalizing sum with
  | case1 a b rest ih =>
      rw [addWords, ih (wrap32_lt _), wordSum]
      unfold wrap32
      omega
  | case2 a => rfl
  | case3 => exact (wrap32_of_lt hsum).symm

/-- There is a word for every two bytes, and one for the last if it is alone. -/
theorem wordSum_le (data : List UInt8) : wordSum data ≤ 65535 * ((data.length + 1) / 2) := by
  induction data using wordSum.induct with
  | case1 a b rest ih =>
      have ha : a.toNat < 256 := a.toNat_lt
      have hb : b.toNat < 256 := b.toNat_lt
      have hlength : ((a :: b :: rest).length + 1) / 2 = (rest.length + 1) / 2 + 1 := by
        simp only [List.length_cons]
        omega
      rw [wordSum, hlength]
      omega
  | case2 a =>
      have ha : a.toNat < 256 := a.toNat_lt
      simp only [wordSum, List.length_singleton]
      omega
  | case3 => exact Nat.zero_le _

/-- Words are not torn apart at an even offset. -/
theorem wordSum_append {front : List UInt8} (heven : front.length % 2 = 0) (rest : List UInt8) :
    wordSum (front ++ rest) = wordSum front + wordSum rest := by
  induction front using wordSum.induct with
  | case1 a b front ih =>
      have hfront : front.length % 2 = 0 := by
        simp only [List.length_cons] at heven
        omega
      simp only [List.cons_append, wordSum, ih hfront]
      omega
  | case2 a => simp at heven
  | case3 => simp [wordSum]

theorem wordSum_bytes16 {x : Nat} (hx : x < 2 ^ 16) : wordSum (bytes16 x) = x := by
  simp only [bytes16, wordSum, UInt8.toNat_ofNat']
  omega

/-! ## Checksums -/

theorem foldCarries_eq (sum : Nat) : foldCarries sum = endAround 65536 sum := by
  refine loop_eq_endAround (by decide) (fun n => ?_) sum
  rw [foldCarries]

theorem wxChecksum_eq {data : List UInt8} (hlength : data.length ≤ 65535) :
    wxChecksum data = 65535 - endAround 65536 (wordSum data) := by
  have hsum := wordSum_le data
  have hroom : 0 + wordSum data < 2 ^ 32 := by omega
  have hdigit : endAround 65536 (wordSum data) < 65536 := endAround_lt (by decide) _
  unfold wxChecksum complement16
  rw [addWords_eq (by decide), wrap32_of_lt hroom, Nat.zero_add, foldCarries_eq,
    wrap16_of_lt hdigit]

/-- The checksum of the whole is zero once the checksum of the rest is in it. -/
theorem wxChecksum_insert {front rest : List UInt8} (heven : front.length % 2 = 0)
    (hlength : front.length + 2 + rest.length ≤ 65535) :
    wxChecksum (front ++ (bytes16 (wxChecksum (front ++ (bytes16 0 ++ rest))) ++ rest)) = 0 := by
  have hzero : (front ++ (bytes16 0 ++ rest)).length ≤ 65535 := by
    simp only [List.length_append, bytes16_length]
    omega
  have hbytes : ∀ x, (front ++ (bytes16 x ++ rest)).length ≤ 65535 := by
    intro x
    simpa using hzero
  -- the two bytes of the checksum count as one word
  have hsum : ∀ {x : Nat}, x < 2 ^ 16 →
      wordSum (front ++ (bytes16 x ++ rest)) = wordSum front + wordSum rest + x := by
    intro x hx
    rw [wordSum_append heven, wordSum_append (by simp), wordSum_bytes16 hx]
    omega
  have hdigit : endAround 65536 (wordSum front + wordSum rest) < 65536 :=
    endAround_lt (by decide) _
  have hchecksum : wxChecksum (front ++ (bytes16 0 ++ rest)) =
      65535 - endAround 65536 (wordSum front + wordSum rest) := by
    rw [wxChecksum_eq hzero, hsum (by decide), Nat.add_zero]
  calc wxChecksum (front ++ (bytes16 (wxChecksum (front ++ (bytes16 0 ++ rest))) ++ rest))
      = 65535 - endAround 65536 (wordSum front + wordSum rest +
          (65535 - endAround 65536 (wordSum front + wordSum rest))) := by
        rw [wxChecksum_eq (hbytes _), hchecksum, hsum (by omega)]
    _ = 0 := by rw [endAround_add_complement (by decide : 2 ≤ 65536)]

/-- The header of a packet that is sent checks. -/
theorem wxChecksum_sealed {h : WxIpv4Hdr} (hzero : h.checksum = 0) :
    wxChecksum h.sealed.bytes = 0 := by
  have hsplit : h.bytes = h.bytes.take 10 ++ (bytes16 0 ++ h.bytes.drop 12) := by
    simp [WxIpv4Hdr.bytes, hzero, bytes16]
  have hinsert : wxChecksum (h.bytes.take 10 ++ (bytes16 (wxChecksum (h.bytes.take 10 ++
      (bytes16 0 ++ h.bytes.drop 12))) ++ h.bytes.drop 12)) = 0 :=
    wxChecksum_insert (by simp) (by simp)
  rw [← hsplit, ← List.append_assoc, bytes_sealed] at hinsert
  exact hinsert

/-! ## Soundness -/

/-- `data` with a word stored at an offset, in the order of the machine. -/
def withWord (data : List UInt8) (offset x : Nat) : List UInt8 :=
  data.take offset ++ (bytes16 x ++ data.drop (offset + 2))

/-- A round of the loop that folds the carries. -/
def foldRound (sum : Nat) : Nat := sum % 65536 + sum / 65536

/-- What is expected of the checksum of `data`. -/
structure ChecksumSound (data : List UInt8) : Prop where
  /-- The accumulator holds the sum of the words that have been read. -/
  room : ∀ k, wordSum (data.take k) < 2 ^ 32 ∧ addWords 0 (data.take k) = wordSum (data.take k)
  /-- The loop ends after a number of rounds. -/
  ends : ∃ n ≤ 2, foldRound^[n] (addWords 0 data) / 65536 = 0 ∧
    foldCarries (addWords 0 data) = foldRound^[n] (addWords 0 data)
  /-- The checksum is the complement of the sum with its carries added end-around. -/
  value : wxChecksum data = 65535 - endAround 65536 (wordSum data)
  /-- Two zero bytes at an even offset take the checksum. -/
  seals : ∀ offset, offset % 2 = 0 → data[offset]? = some 0 → data[offset + 1]? = some 0 →
    wxChecksum (withWord data offset (wxChecksum data)) = 0

/-- A sum of 32 bits has no carry left after two rounds. -/
theorem foldCarries_rounds {sum : Nat} (hsum : sum < 2 ^ 32) :
    ∃ n ≤ 2, foldRound^[n] sum / 65536 = 0 ∧ foldCarries sum = foldRound^[n] sum := by
  have hround : ∀ s, ¬ s / 65536 = 0 → foldCarries s = foldCarries (foldRound s) := by
    intro s hs
    rw [foldCarries, if_neg hs]
    rfl
  have hend : ∀ s, s / 65536 = 0 → foldCarries s = s := by
    intro s hs
    rw [foldCarries, if_pos hs]
  by_cases hnone : sum / 65536 = 0
  · exact ⟨0, by decide, hnone, hend sum hnone⟩
  by_cases hone : foldRound sum / 65536 = 0
  · exact ⟨1, by decide, hone, (hround sum hnone).trans (hend _ hone)⟩
  · have htwo : foldRound (foldRound sum) / 65536 = 0 := by
      unfold foldRound
      omega
    exact ⟨2, by decide, htwo, ((hround sum hnone).trans (hround _ hone)).trans (hend _ htwo)⟩

theorem addWords_take {data : List UInt8} (hlength : data.length ≤ 65535) (k : Nat) :
    wordSum (data.take k) < 2 ^ 32 ∧ addWords 0 (data.take k) = wordSum (data.take k) := by
  have hsum := wordSum_le (data.take k)
  have hk : (data.take k).length ≤ 65535 := (List.length_take_le' k data).trans hlength
  have hlt : wordSum (data.take k) < 2 ^ 32 := by omega
  refine ⟨hlt, ?_⟩
  rw [addWords_eq (by decide), Nat.zero_add, wrap32_of_lt hlt]

/-- Two bytes and what is around them. -/
theorem eq_withWord {data : List UInt8} {offset : Nat} (hfirst : data[offset]? = some 0)
    (hsecond : data[offset + 1]? = some 0) : data = withWord data offset 0 := by
  obtain ⟨hlt, hzero⟩ := List.getElem?_eq_some_iff.1 hfirst
  obtain ⟨hlt', hzero'⟩ := List.getElem?_eq_some_iff.1 hsecond
  calc data
      = data.take offset ++ data.drop offset := (List.take_append_drop offset data).symm
    _ = data.take offset ++ (0 :: 0 :: data.drop (offset + 2)) := by
        rw [List.drop_eq_getElem_cons hlt, hzero, List.drop_eq_getElem_cons hlt', hzero']
    _ = withWord data offset 0 := rfl

/-- `wx_checksum` is sound for at most 65535 bytes. -/
theorem wxChecksum_sound {data : List UInt8} (hlength : data.length ≤ 65535) :
    ChecksumSound data := by
  refine
    { room := addWords_take hlength
      ends := ?_
      value := wxChecksum_eq hlength
      seals := fun offset heven hfirst hsecond => ?_ }
  · have hall := addWords_take hlength data.length
    rw [List.take_length] at hall
    exact foldCarries_rounds (by rw [hall.2]; exact hall.1)
  · have hin : offset + 1 < data.length := (List.getElem?_eq_some_iff.1 hsecond).1
    have hfront : (data.take offset).length = offset := List.length_take_of_le (by omega)
    have hinsert := @wxChecksum_insert (data.take offset) (data.drop (offset + 2))
      (by rwa [hfront]) (by rw [hfront, List.length_drop]; omega)
    have hdata := eq_withWord hfirst hsecond
    unfold withWord at hdata ⊢
    rw [← hdata] at hinsert
    exact hinsert

theorem wxChecksum_sound_odd : ChecksumSound [0x12, 0x34, 0, 0, 0xff] :=
  wxChecksum_sound (by decide)

end Net
end WhitexKernel
