import Mathlib.Data.Fintype.Basic
import Mathlib.Tactic.NormNum
import Kora.Lib.Radix
import Kora.Shared.Validation

set_option autoImplicit false

/-!
# IPFS content identifiers

`require_valid_ipfs_cid` accepts a version 0 identifier, 46 characters of base58btc beginning with
`Qm`, and anything of ten bytes or more that begins with a known multibase prefix.

* `base58`, `unbase58`: base58btc, with the round trips `unbase58_base58` and `base58_unbase58`;
* `requireValidIpfsCid_v0_iff`, `requireValidIpfsCid_v1_iff`: what the two branches accept;
* **`ipfs_cid`**: the version 0 branch accepts exactly the encodings of 34 bytes of which the first
  is the code of SHA-256, and every SHA-256 multihash among them.
-/

namespace Kora

open Radix

/-! ## The check -/

/-- Maximum supported IPFS CID length in bytes. -/
def cidMaxLen : ℕ := 128

/-- A byte between two characters. -/
def charBetween (lo hi : Char) (c : UInt8) : Bool := lo.toUInt8 ≤ c && c ≤ hi.toUInt8

/-- The characters of the base58btc alphabet: no `0`, `O`, `I` or `l`. -/
def isBase58Char (c : UInt8) : Bool :=
  charBetween '1' '9' c || charBetween 'A' 'H' c || charBetween 'J' 'N' c ||
    charBetween 'P' 'Z' c || charBetween 'a' 'k' c || charBetween 'm' 'z' c

/-- The multibase prefixes of version 1: base32, base58, base16, base64url and base36. -/
def multibasePrefixes : List UInt8 :=
  ['b', 'B', 'z', 'f', 'F', 'u', 'U', 'k', 'K'].map Char.toUInt8

/-- The buffer the characters are copied into: padded with zeros. -/
def cidBuf (cid : Bytes) : Bytes := cid ++ List.replicate (cidMaxLen - cid.length) 0

/-- Reject what is not structurally an IPFS CID. -/
def requireValidIpfsCid (cid : Bytes) : Except KoraError Unit :=
  if cid.length < 2 ∨ cidMaxLen < cid.length then .error .invalidCid
  else if (cidBuf cid).getD 0 0 = 'Q'.toUInt8 ∧ (cidBuf cid).getD 1 0 = 'm'.toUInt8 then
    if cid.length ≠ 46 then .error .invalidCid
    else if ((cidBuf cid).take 46).all isBase58Char = true then .ok ()
    else .error .invalidCid
  else if (cidBuf cid).getD 0 0 ∈ multibasePrefixes then
    if cid.length < 10 then .error .invalidCid else .ok ()
  else .error .invalidCid

/-! ## Base58 -/

/-- The base58btc alphabet, in the order of its digits. -/
def base58Alphabet : List UInt8 :=
  ['1', '2', '3', '4', '5', '6', '7', '8', '9', 'A', 'B', 'C', 'D', 'E', 'F', 'G', 'H', 'J', 'K',
    'L', 'M', 'N', 'P', 'Q', 'R', 'S', 'T', 'U', 'V', 'W', 'X', 'Y', 'Z', 'a', 'b', 'c', 'd', 'e',
    'f', 'g', 'h', 'i', 'j', 'k', 'm', 'n', 'o', 'p', 'q', 'r', 's', 't', 'u', 'v', 'w', 'x', 'y',
    'z'].map Char.toUInt8

/-- The character of a digit. -/
def base58Char (digit : ℕ) : UInt8 := base58Alphabet.getD digit 0

/-- The digit of a character. -/
def base58Digit (c : UInt8) : ℕ := base58Alphabet.idxOf c

/-- Bytes as base58btc. -/
def base58 (bytes : Bytes) : Bytes :=
  (convert 256 58 (bytes.map UInt8.toNat)).map base58Char

/-- The bytes of a base58btc string. -/
def unbase58 (s : Bytes) : Bytes :=
  (convert 58 256 (s.map base58Digit)).map UInt8.ofNat

theorem base58Digit_char : ∀ digit < 58, base58Digit (base58Char digit) = digit := by
  decide +kernel

theorem isBase58Char_char : ∀ digit < 58, isBase58Char (base58Char digit) = true := by
  decide +kernel

theorem base58Char_digit_nat : ∀ n < 256, isBase58Char (UInt8.ofNat n) = true →
    base58Digit (UInt8.ofNat n) < 58 ∧
      base58Char (base58Digit (UInt8.ofNat n)) = UInt8.ofNat n := by
  decide +kernel

section Base58

variable {s : Bytes}

theorem base58Char_digit {c : UInt8} (h : isBase58Char c = true) :
    base58Digit c < 58 ∧ base58Char (base58Digit c) = c := by
  have hc := base58Char_digit_nat c.toNat c.toNat_lt
  rw [UInt8.ofNat_toNat] at hc
  exact hc h

theorem valid_bytes (bytes : Bytes) : Valid 256 (bytes.map UInt8.toNat) := by
  intro d hd
  obtain ⟨b, -, rfl⟩ := List.mem_map.mp hd
  exact b.toNat_lt

theorem valid_base58 (h : ∀ c ∈ s, isBase58Char c = true) : Valid 58 (s.map base58Digit) := by
  intro d hd
  obtain ⟨c, hc, rfl⟩ := List.mem_map.mp hd
  exact (base58Char_digit (h c hc)).1

theorem unbase58_base58 (bytes : Bytes) : unbase58 (base58 bytes) = bytes := by
  have hdigits : (base58 bytes).map base58Digit = convert 256 58 (bytes.map UInt8.toNat) := by
    rw [base58, List.map_map]
    exact (List.map_congr_left fun d hd =>
      base58Digit_char d (valid_convert (by decide) _ d hd)).trans (List.map_id _)
  rw [unbase58, hdigits, convert_convert (by decide) (valid_bytes bytes), List.map_map]
  exact List.map_id'' (fun _ => UInt8.ofNat_toNat) bytes

theorem base58_unbase58 (h : ∀ c ∈ s, isBase58Char c = true) : base58 (unbase58 s) = s := by
  have hbytes : (unbase58 s).map UInt8.toNat = convert 58 256 (s.map base58Digit) := by
    rw [unbase58, List.map_map]
    exact (List.map_congr_left fun d hd =>
      UInt8.toNat_ofNat_of_lt (valid_convert (by decide) _ d hd)).trans (List.map_id _)
  rw [base58, hbytes, convert_convert (by decide) (valid_base58 h), List.map_map]
  exact (List.map_congr_left fun c hc => (base58Char_digit (h c hc)).2).trans (List.map_id _)

theorem isBase58Char_base58 (bytes : Bytes) : ∀ c ∈ base58 bytes, isBase58Char c = true := by
  intro c hc
  obtain ⟨d, hd, rfl⟩ := List.mem_map.mp hc
  exact isBase58Char_char d (valid_convert (by decide) _ d hd)

end Base58

/-! ## What is accepted -/

/-- The first two characters of a version 0 identifier. -/
def cidV0Prefix : Bytes := ['Q', 'm'].map Char.toUInt8

section Accepted

variable {cid : Bytes}

theorem requireValidIpfsCid_cons {first second : UInt8} {rest : Bytes}
    (hcid : cid = first :: second :: rest) : requireValidIpfsCid cid = .ok () ↔
      cid.length ≤ cidMaxLen ∧ if first = 'Q'.toUInt8 ∧ second = 'm'.toUInt8 then
        cid.length = 46 ∧ ∀ c ∈ cid, isBase58Char c = true
      else first ∈ multibasePrefixes ∧ 10 ≤ cid.length := by
  have htwo : ¬ cid.length < 2 := by
    rw [hcid, List.length_cons, List.length_cons]
    omega
  have htake : cid.length = 46 → (cidBuf cid).take 46 = cid := List.take_left'
  have hfirst : (cidBuf cid).getD 0 0 = first := by
    rw [hcid]
    rfl
  have hsecond : (cidBuf cid).getD 1 0 = second := by
    rw [hcid]
    rfl
  simp only [requireValidIpfsCid, htwo, false_or, hfirst, hsecond]
  by_cases hlong : cidMaxLen < cid.length
  · rw [if_pos hlong]
    simp [not_le.mpr hlong]
  rw [if_neg hlong]
  by_cases hq : first = 'Q'.toUInt8 ∧ second = 'm'.toUInt8
  · rw [if_pos hq, if_pos hq]
    by_cases hlen : cid.length = 46
    · rw [htake hlen, if_neg (not_not.mpr hlen)]
      split_ifs with hall
      · exact iff_of_true rfl ⟨by rw [hlen]; decide, hlen, List.all_eq_true.mp hall⟩
      · exact iff_of_false nofun fun h => hall (List.all_eq_true.mpr h.2.2)
    · simp [hlen]
  · rw [if_neg hq, if_neg hq]
    split_ifs with hqm hshort
    · simp [hshort]
    · simp [not_lt.mp hlong, hqm, not_lt.mp hshort]
    · simp [hqm]

theorem requireValidIpfsCid_v0_iff (h : cidV0Prefix <+: cid) :
    requireValidIpfsCid cid = .ok () ↔
      cid.length = 46 ∧ ∀ c ∈ cid, isBase58Char c = true := by
  obtain ⟨rest, hrest⟩ := h
  rw [requireValidIpfsCid_cons hrest.symm, if_pos ⟨rfl, rfl⟩]
  constructor
  · exact fun h => h.2
  · exact fun h => ⟨by rw [h.1]; decide, h⟩

theorem requireValidIpfsCid_v1_iff (h : ¬ cidV0Prefix <+: cid) :
    requireValidIpfsCid cid = .ok () ↔
      10 ≤ cid.length ∧ cid.length ≤ cidMaxLen ∧ ∃ p ∈ multibasePrefixes, cid.head? = some p := by
  match cid with
  | [] => simp [requireValidIpfsCid]
  | [_] => simp [requireValidIpfsCid]
  | first :: second :: rest =>
    have hq : ¬ (first = 'Q'.toUInt8 ∧ second = 'm'.toUInt8) := by
      rintro ⟨rfl, rfl⟩
      exact h ⟨rest, rfl⟩
    rw [requireValidIpfsCid_cons rfl, if_neg hq]
    simp only [List.head?_cons, Option.some.injEq, exists_eq_right']
    tauto

end Accepted

/-! ## Multihashes -/

section Multihashes

variable {hash : Bytes}

/-- What 34 bytes stand for when the first is `0x12`, the code of SHA-256. -/
theorem value_multihash (hlen : hash.length = 34) (hhead : hash.head? = some 0x12) :
    0x12 * 256 ^ 33 ≤ value 256 (hash.map UInt8.toNat) ∧
      value 256 (hash.map UInt8.toNat) < 0x13 * 256 ^ 33 := by
  match hash, hhead with
  | _ :: rest, rfl =>
    have hrest : (rest.map UInt8.toNat).length = 33 := by simpa using hlen
    have hlt := value_lt (by decide) (valid_bytes rest)
    rw [hrest] at hlt
    rw [List.map_cons, value_cons, hrest]
    constructor
    · exact Nat.le_add_right _ _
    · calc _ < 18 * 256 ^ 33 + 256 ^ 33 := by exact Nat.add_lt_add_left hlt _
        _ = 0x13 * 256 ^ 33 := by norm_num

theorem head_multihash (hhead : hash.head? = some 0x12) :
    ∀ d ∈ (hash.map UInt8.toNat).head?, d ≠ 0 := by
  intro d hd
  rw [List.head?_map, hhead] at hd
  obtain rfl := Option.some.inj hd
  decide

theorem digits_multihash (hhead : hash.head? = some 0x12) :
    base58 hash = (digits 58 (value 256 (hash.map UInt8.toNat))).map base58Char := by
  rw [base58, convert_of_head (head_multihash hhead)]

theorem length_base58 (hlen : hash.length = 34) (hhead : hash.head? = some 0x12) :
    (base58 hash).length = 46 := by
  obtain ⟨hlow, hhigh⟩ := value_multihash hlen hhead
  rw [digits_multihash hhead, List.length_map]
  exact length_digits (by decide) (le_trans (by norm_num) hlow) (hhigh.trans (by norm_num))

/-- **A version 0 identifier decodes to a multihash.** -/
theorem unbase58_v0 {cid : Bytes} (hqm : cidV0Prefix <+: cid) (hlen : cid.length = 46)
    (hchars : ∀ c ∈ cid, isBase58Char c = true) :
    (unbase58 cid).length = 34 ∧ (unbase58 cid).head? = some 0x12 := by
  obtain ⟨rest, rfl⟩ := hqm
  have hdigits : (cidV0Prefix ++ rest).map base58Digit = 23 :: 44 :: rest.map base58Digit := by
    rw [List.map_append]
    rfl
  have hrest : (rest.map base58Digit).length = 44 := by simpa [cidV0Prefix] using hlen
  have hlt := value_lt (by decide)
    (valid_base58 fun c hc => hchars c (List.mem_append_right _ hc))
  rw [hrest] at hlt
  have hvalue : value 58 ((cidV0Prefix ++ rest).map base58Digit) =
      (23 * 58 + 44) * 58 ^ 44 + value 58 (rest.map base58Digit) := by
    rw [hdigits, value_cons, value_cons, List.length_cons, hrest]
    ring
  obtain ⟨bytes, hcons, hbytes, -⟩ := digits_eq_cons (b := 256) (k := 33) (d := 0x12)
    (n := value 58 ((cidV0Prefix ++ rest).map base58Digit)) (by decide) (by decide) (by decide)
    (by rw [hvalue]; exact le_trans (by norm_num) (Nat.le_add_right _ _))
    (by rw [hvalue]; exact lt_of_lt_of_le (Nat.add_lt_add_left hlt _) (by norm_num))
  have hconvert : unbase58 (cidV0Prefix ++ rest) = (0x12 :: bytes).map UInt8.ofNat := by
    rw [unbase58, convert_of_head, hcons]
    rw [hdigits]
    rintro _ ⟨⟩
    decide
  rw [hconvert]
  exact ⟨by simp [hbytes], rfl⟩

end Multihashes

/-! ## Version 0 -/

/-- The version 0 identifier of a SHA-256 digest: the code of SHA-256, the length of the digest and
the digest, in base58btc. -/
def cidV0 (digest : Bytes) : Bytes := base58 (0x12 :: 0x20 :: digest)

theorem cidV0_injective : Function.Injective cidV0 := by
  intro x y h
  have hbytes := congrArg unbase58 h
  rw [cidV0, cidV0, unbase58_base58, unbase58_base58] at hbytes
  exact (List.cons.inj (List.cons.inj hbytes).2).2

theorem prefix_cidV0 {digest : Bytes} (h : digest.length = 32) : cidV0Prefix <+: cidV0 digest := by
  have hlt := value_lt (by decide) (valid_bytes digest)
  rw [List.length_map, h] at hlt
  have hvalue : value 256 ((0x12 :: 0x20 :: digest).map UInt8.toNat) =
      0x1220 * 256 ^ 32 + value 256 (digest.map UInt8.toNat) := by
    rw [List.map_cons, List.map_cons, value_cons, value_cons, List.length_cons, List.length_map, h,
      show (0x12 : UInt8).toNat = 0x12 from rfl, show (0x20 : UInt8).toNat = 0x20 from rfl]
    ring
  set n := value 256 ((0x12 :: 0x20 :: digest).map UInt8.toNat) with hn
  have hlow : (23 * 58 + 44) * 58 ^ 44 ≤ n := by
    rw [hvalue]
    exact le_trans (by norm_num) (Nat.le_add_right _ _)
  have hhigh : n < (23 * 58 + 45) * 58 ^ 44 := by
    rw [hvalue]
    exact lt_of_lt_of_le (Nat.add_lt_add_left hlt _) (by norm_num)
  obtain ⟨rest, hcons, hlen, hvalid, hrest⟩ := digits_eq_cons (b := 58) (k := 45) (d := 23) (n := n)
    (by decide) (by decide) (by decide) (le_trans (by norm_num) hlow) (hhigh.trans (by norm_num))
  obtain ⟨second, rest, rfl⟩ := List.exists_cons_of_length_eq_add_one hlen
  have hlen' : rest.length = 44 := by simpa using hlen
  obtain rfl : second = 44 := by
    refine head_eq_of_value (by decide) hvalid ?_ ?_
    · rw [hlen']
      omega
    · rw [hlen']
      omega
  refine ⟨rest.map base58Char, ?_⟩
  rw [cidV0, digits_multihash rfl, ← hn, hcons]
  rfl

theorem requireValidIpfsCid_mintable {s : String}
    (h : requireValidIpfsCid s.toUTF8.data.toList = .ok ()) :
    requireNonEmptyString s = .ok () ∧ requireMaxLengthString s maxIpfsCidLen = .ok () := by
  have hsize : s.toUTF8.data.toList.length = s.utf8ByteSize := rfl
  have hbounds : ¬ (s.utf8ByteSize < 2 ∨ cidMaxLen < s.utf8ByteSize) := by
    intro hbad
    simp only [requireValidIpfsCid, hsize, if_pos hbad] at h
    cases h
  simp only [requireNonEmptyString, requireMaxLengthString, guardK_ok]
  unfold cidMaxLen at hbounds
  unfold maxIpfsCidLen
  omega

/-- **IPFS content identifiers.** The version 0 branch of the check accepts exactly the base58btc
strings of 34 bytes of which the first is the code of SHA-256; among them are the identifiers of
all SHA-256 digests, and different digests have different ones. What does not begin with `Qm` is
accepted by its length and its first byte alone. -/
theorem ipfs_cid :
    (∀ cid, cidV0Prefix <+: cid → (requireValidIpfsCid cid = .ok () ↔
      ∃ hash : Bytes, hash.length = 34 ∧ hash.head? = some 0x12 ∧ base58 hash = cid)) ∧
    (∀ digest, digest.length = 32 → requireValidIpfsCid (cidV0 digest) = .ok ()) ∧
    Function.Injective cidV0 ∧
    (∀ cid, ¬ cidV0Prefix <+: cid → (requireValidIpfsCid cid = .ok () ↔
      10 ≤ cid.length ∧ cid.length ≤ cidMaxLen ∧
        ∃ p ∈ multibasePrefixes, cid.head? = some p)) ∧
    ∀ s : String, requireValidIpfsCid s.toUTF8.data.toList = .ok () →
      requireNonEmptyString s = .ok () ∧ requireMaxLengthString s maxIpfsCidLen = .ok () := by
  have hiff : ∀ cid, cidV0Prefix <+: cid → (requireValidIpfsCid cid = .ok () ↔
      ∃ hash : Bytes, hash.length = 34 ∧ hash.head? = some 0x12 ∧ base58 hash = cid) := by
    intro cid hqm
    rw [requireValidIpfsCid_v0_iff hqm]
    constructor
    · rintro ⟨hlen, hchars⟩
      obtain ⟨hbytes, hhead⟩ := unbase58_v0 hqm hlen hchars
      exact ⟨unbase58 cid, hbytes, hhead, base58_unbase58 hchars⟩
    · rintro ⟨hash, hlen, hhead, rfl⟩
      exact ⟨length_base58 hlen hhead, isBase58Char_base58 hash⟩
  refine ⟨hiff, fun digest hdigest => ?_, cidV0_injective,
    fun _ hcid => requireValidIpfsCid_v1_iff hcid, fun _ hs => requireValidIpfsCid_mintable hs⟩
  exact (hiff _ (prefix_cidV0 hdigest)).mpr ⟨_, by simp [hdigest], rfl, rfl⟩

end Kora
