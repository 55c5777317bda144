import DeskSync.Lib.Bytes

/-!
# Base64

An alphabet gives the six bits of a character and the character of six bits. `encode` writes bytes in it,
with padding or without, and `decode` reads them back (`decode_encode`). Decoding is not strict: line
breaks are skipped and the unused bits of the last character are dropped, so many texts decode to the
same bytes. They differ in exactly these two things (`decode_unique`).
-/

namespace DeskSync.Base64

/-! ### Alphabets -/

/-- An alphabet reads the characters it writes, and neither line breaks nor the padding are in it. -/
structure Alphabet where
  value : UInt8 → Option UInt8
  digit : UInt8 → UInt8
  value_digit : ∀ n < 64, value (digit (UInt8.ofNat n)) = some (UInt8.ofNat n)
  value_lf : value 0x0A = none
  value_cr : value 0x0D = none
  value_pad : value 0x3D = none

/-- The six bits of `A–Z a–z 0–9` and two more characters. -/
def value (c62 c63 b : UInt8) : Option UInt8 :=
  if 0x41 ≤ b && b ≤ 0x5A then some (b - 0x41)
  else if 0x61 ≤ b && b ≤ 0x7A then some (b - 0x61 + 26)
  else if 0x30 ≤ b && b ≤ 0x39 then some (b - 0x30 + 52)
  else if b == c62 then some 62
  else if b == c63 then some 63
  else none

/-- The character of six bits. -/
def digit (c62 c63 v : UInt8) : UInt8 :=
  if v < 26 then v + 0x41
  else if v < 52 then v - 26 + 0x61
  else if v < 62 then v - 52 + 0x30
  else if v == 62 then c62
  else c63

/-- `A–Z a–z 0–9 + /`. -/
def std : Alphabet where
  value := value 0x2B 0x2F
  digit := digit 0x2B 0x2F
  value_digit := by decide
  value_lf := rfl
  value_cr := rfl
  value_pad := rfl

/-- `A–Z a–z 0–9 - _`. -/
def url : Alphabet where
  value := value 0x2D 0x5F
  digit := digit 0x2D 0x5F
  value_digit := by decide
  value_lf := rfl
  value_cr := rfl
  value_pad := rfl

/-! ### Six bits and eight -/

/-- The bytes of a sequence of six-bit values; what does not fill a byte is dropped. -/
def pack : List UInt8 → Bytes
  | a :: b :: c :: d :: rest =>
    [a <<< 2 ||| b >>> 4, b <<< 4 ||| c >>> 2, c <<< 6 ||| d] ++ pack rest
  | [a, b, c] => [a <<< 2 ||| b >>> 4, b <<< 4 ||| c >>> 2]
  | [a, b] => [a <<< 2 ||| b >>> 4]
  | _ => []

/-- The second value of three bytes, and of two. -/
def second (a b : UInt8) : UInt8 := (a &&& 0x03) <<< 4 ||| b >>> 4

/-- The third value of three bytes. -/
def third (b c : UInt8) : UInt8 := (b &&& 0x0F) <<< 2 ||| c >>> 6

/-- The six-bit values of a sequence of bytes, the last one filled up with zeros. -/
def unpack : Bytes → List UInt8
  | a :: b :: c :: rest => [a >>> 2, second a b, third b c, c &&& 0x3F] ++ unpack rest
  | [a, b] => [a >>> 2, second a b, third b 0]
  | [a] => [a >>> 2, second a 0]
  | [] => []

theorem length_pack (xs : List UInt8) : (pack xs).length = xs.length * 6 / 8 := by
  fun_induction pack xs with
  | case1 a b c d rest ih =>
    simp only [List.length_append, List.length_cons, List.length_nil, ih]
    omega
  | case2 => simp
  | case3 => simp
  | case4 xs h₄ h₃ h₂ =>
    match xs with
    | [] => simp
    | [_] => simp
    | [a, b] => exact absurd rfl (h₂ a b)
    | [a, b, c] => exact absurd rfl (h₃ a b c)
    | a :: b :: c :: d :: rest => exact absurd rfl (h₄ a b c d rest)

theorem length_unpack (bs : Bytes) : (unpack bs).length = (bs.length * 4 + 2) / 3 := by
  fun_induction unpack bs with
  | case1 a b c rest ih =>
    simp only [List.length_append, List.length_cons, List.length_nil, ih]
    omega
  | case2 => simp
  | case3 => simp
  | case4 => simp

theorem eq_of_bits {x y : UInt8} (h : ∀ i < 8, x.toBitVec.getLsbD i = y.toBitVec.getLsbD i) : x = y :=
  UInt8.toBitVec_inj.1 (BitVec.eq_of_getLsbD_eq h)

section Bits
variable (a b c : UInt8)

theorem first_byte : (a >>> 2) <<< 2 ||| second a b >>> 4 = a := by
  refine eq_of_bits fun i hi => ?_
  unfold second
  interval_cases i <;> simp

theorem second_byte : second a b <<< 4 ||| third b c >>> 2 = b := by
  refine eq_of_bits fun i hi => ?_
  unfold second third
  interval_cases i <;> simp

theorem third_byte : third b c <<< 6 ||| (c &&& 0x3F) = c := by
  refine eq_of_bits fun i hi => ?_
  unfold third
  interval_cases i <;> simp

theorem first_mask : (a >>> 2) &&& (0x3F : UInt8) = a >>> 2 := by
  refine eq_of_bits fun i hi => ?_
  interval_cases i <;> simp

theorem second_mask : second a b &&& 0x3F = second a b := by
  refine eq_of_bits fun i hi => ?_
  unfold second
  interval_cases i <;> simp

theorem third_mask : third b c &&& 0x3F = third b c := by
  refine eq_of_bits fun i hi => ?_
  unfold third
  interval_cases i <;> simp

end Bits

theorem pack_unpack (bs : Bytes) : pack (unpack bs) = bs := by
  fun_induction unpack bs with
  | case1 a b c rest ih =>
    rw [List.cons_append, List.cons_append, List.cons_append, List.cons_append, List.nil_append, pack,
      first_byte, second_byte, third_byte, ih]
    rfl
  | case2 a b => rw [pack, first_byte, second_byte]
  | case3 a => rw [pack, first_byte]
  | case4 => rfl

/-- Every value has six bits. -/
theorem unpack_mask {bs : Bytes} {v : UInt8} (h : v ∈ unpack bs) : v &&& 0x3F = v := by
  fun_induction unpack bs with
  | case1 a b c rest ih =>
    rcases List.mem_append.1 h with h | h
    · have hlast : c &&& 0x3F &&& 0x3F = c &&& 0x3F := by rw [UInt8.and_assoc, UInt8.and_self]
      simp only [List.mem_cons, List.not_mem_nil, or_false] at h
      obtain rfl | rfl | rfl | rfl := h
      · exact first_mask a
      · exact second_mask a b
      · exact third_mask b c
      · exact hlast
    · exact ih h
  | case2 a b =>
    simp only [List.mem_cons, List.not_mem_nil, or_false] at h
    obtain rfl | rfl | rfl := h
    · exact first_mask a
    · exact second_mask a b
    · exact third_mask b 0
  | case3 a =>
    simp only [List.mem_cons, List.not_mem_nil, or_false] at h
    obtain rfl | rfl := h
    · exact first_mask a
    · exact second_mask a 0
  | case4 => cases h

/-! ### The bits to spare -/

/-- The bits of the last value that do not fill a byte. -/
def spareBits : List UInt8 → UInt8
  | _ :: _ :: _ :: _ :: rest => spareBits rest
  | [_, _, c] => c &&& 0x03
  | [_, b] => b &&& 0x0F
  | _ => 0

/-- The values of a sequence of bytes, the last one filled up with the given bits. -/
def unpackWith (spare : UInt8) : Bytes → List UInt8
  | a :: b :: c :: rest => [a >>> 2, second a b, third b c, c &&& 0x3F] ++ unpackWith spare rest
  | [a, b] => [a >>> 2, second a b, third b 0 ||| spare]
  | [a] => [a >>> 2, second a 0 ||| spare]
  | [] => []

section Bits
variable {a b c d : UInt8}

/-- A value has no bit past its sixth. -/
theorem bits_of_mask (h : a &&& 0x3F = a) : a.toBitVec.getLsbD 6 = false ∧ a.toBitVec.getLsbD 7 = false := by
  rw [← h]
  simp

theorem value_first (ha : a &&& 0x3F = a) (hb : b &&& 0x3F = b) : (a <<< 2 ||| b >>> 4) >>> 2 = a := by
  obtain ⟨ha₆, ha₇⟩ := bits_of_mask ha
  obtain ⟨hb₆, hb₇⟩ := bits_of_mask hb
  refine eq_of_bits fun i hi => ?_
  interval_cases i <;> simp_all

theorem value_second (hb : b &&& 0x3F = b) (hc : c &&& 0x3F = c) :
    second (a <<< 2 ||| b >>> 4) (b <<< 4 ||| c >>> 2) = b := by
  obtain ⟨hb₆, hb₇⟩ := bits_of_mask hb
  obtain ⟨hc₆, hc₇⟩ := bits_of_mask hc
  refine eq_of_bits fun i hi => ?_
  unfold second
  interval_cases i <;> simp_all

theorem value_third (hc : c &&& 0x3F = c) (hd : d &&& 0x3F = d) :
    third (b <<< 4 ||| c >>> 2) (c <<< 6 ||| d) = c := by
  obtain ⟨hc₆, hc₇⟩ := bits_of_mask hc
  obtain ⟨hd₆, hd₇⟩ := bits_of_mask hd
  refine eq_of_bits fun i hi => ?_
  unfold third
  interval_cases i <;> simp_all

theorem value_fourth (hd : d &&& 0x3F = d) : (c <<< 6 ||| d) &&& 0x3F = d := by
  obtain ⟨hd₆, hd₇⟩ := bits_of_mask hd
  refine eq_of_bits fun i hi => ?_
  interval_cases i <;> simp_all

theorem value_second_last (hb : b &&& 0x3F = b) : second (a <<< 2 ||| b >>> 4) 0 ||| (b &&& 0x0F) = b := by
  obtain ⟨hb₆, hb₇⟩ := bits_of_mask hb
  refine eq_of_bits fun i hi => ?_
  unfold second
  interval_cases i <;> simp_all

theorem value_third_last (hc : c &&& 0x3F = c) : third (b <<< 4 ||| c >>> 2) 0 ||| (c &&& 0x03) = c := by
  obtain ⟨hc₆, hc₇⟩ := bits_of_mask hc
  refine eq_of_bits fun i hi => ?_
  unfold third
  interval_cases i <;> simp_all

end Bits

/-- The bytes and the bits to spare are all there is to a sequence of values. -/
theorem unpackWith_pack {xs : List UInt8} (hlen : xs.length % 4 ≠ 1) (hxs : ∀ x ∈ xs, x &&& 0x3F = x) :
    unpackWith (spareBits xs) (pack xs) = xs := by
  fun_induction pack xs with
  | case1 a b c d rest ih =>
    simp only [List.forall_mem_cons, List.length_cons] at hxs hlen
    obtain ⟨ha, hb, hc, hd, hrest⟩ := hxs
    have hrest := ih (by omega) hrest
    rw [spareBits, List.cons_append, List.cons_append, List.cons_append, List.nil_append, unpackWith,
      value_first ha hb, value_second hb hc, value_third hc hd, value_fourth hd, hrest]
    rfl
  | case2 a b c =>
    simp only [List.forall_mem_cons] at hxs
    obtain ⟨ha, hb, hc, -⟩ := hxs
    rw [spareBits, unpackWith, value_first ha hb, value_second hb hc, value_third_last hc]
  | case3 a b =>
    simp only [List.forall_mem_cons] at hxs
    obtain ⟨ha, hb, -⟩ := hxs
    rw [spareBits, unpackWith, value_first ha hb, value_second_last hb]
  | case4 xs h₄ h₃ h₂ =>
    match xs with
    | [] => rfl
    | [_] => exact absurd rfl hlen
    | [a, b] => exact absurd rfl (h₂ a b)
    | [a, b, c] => exact absurd rfl (h₃ a b c)
    | a :: b :: c :: d :: rest => exact absurd rfl (h₄ a b c d rest)

/-- What is written has no bits set that it has to spare. -/
theorem spareBits_unpack (bs : Bytes) : spareBits (unpack bs) = 0 := by
  fun_induction unpack bs with
  | case1 a b c rest ih => exact ih
  | case2 a b =>
    refine eq_of_bits fun i hi => ?_
    unfold third spareBits
    interval_cases i <;> simp
  | case3 a =>
    refine eq_of_bits fun i hi => ?_
    unfold second spareBits
    interval_cases i <;> simp
  | case4 => rfl

/-! ### Texts -/

section Texts
variable (α : Alphabet)

/-- Encode bytes, with padding characters or without. -/
def encode (padded : Bool) (bs : Bytes) : Bytes :=
  let body := (unpack bs).map α.digit
  body ++ List.replicate (if padded then (4 - body.length % 4) % 4 else 0) 0x3D

/-- Decode a text with padding characters or without. -/
def decode (padded : Bool) (input : Bytes) : Option Bytes :=
  let input := input.filter fun b => b != 0x0A && b != 0x0D
  let body := input.takeWhile fun b => (α.value b).isSome
  let rest := input.dropWhile fun b => (α.value b).isSome
  let padding := if padded then (4 - body.length % 4) % 4 else 0
  if body.length % 4 ≠ 1 ∧ rest = List.replicate padding 0x3D then some (pack (body.filterMap α.value))
  else none

variable {α}

theorem length_filterMap_takeWhile (value : UInt8 → Option UInt8) (input : Bytes) :
    ((input.takeWhile fun b => (value b).isSome).filterMap value).length =
      (input.takeWhile fun b => (value b).isSome).length := by
  induction input with
  | nil => rfl
  | cons b input ih =>
    rw [List.takeWhile_cons]
    split_ifs with hb
    · obtain ⟨v, hv⟩ := Option.isSome_iff_exists.1 hb
      rw [List.filterMap_cons_some hv, List.length_cons, List.length_cons, ih]
    · rfl

theorem value_digit_of_mask {v : UInt8} (h : v &&& 0x3F = v) : α.value (α.digit v) = some v := by
  have hlt : v.toNat < 64 := by
    rw [← h, UInt8.toNat_and]
    exact Nat.lt_succ_of_le Nat.and_le_right
  simpa using α.value_digit v.toNat hlt

/-- The characters of an encoding are read as the values they were written for. -/
theorem filterMap_digits (bs : Bytes) : ((unpack bs).map α.digit).filterMap α.value = unpack bs := by
  rw [List.filterMap_map]
  refine (List.filterMap_congr fun v hv => ?_).trans List.filterMap_some
  exact value_digit_of_mask (unpack_mask hv)

theorem isSome_value_digits {bs : Bytes} {c : UInt8} (h : c ∈ (unpack bs).map α.digit) :
    (α.value c).isSome = true := by
  obtain ⟨v, hv, rfl⟩ := List.mem_map.1 h
  rw [value_digit_of_mask (unpack_mask hv)]
  rfl

/-- The characters of an encoding are those of the alphabet and the padding. -/
theorem mem_encode {padded : Bool} {bs : Bytes} {c : UInt8} (h : c ∈ encode α padded bs) :
    (α.value c).isSome = true ∨ c = 0x3D := by
  rcases List.mem_append.1 h with h | h
  · exact .inl (isSome_value_digits h)
  · exact .inr (List.eq_of_mem_replicate h)

/-- What is neither in the alphabet nor the padding separates encodings. -/
theorem not_mem_encode {padded : Bool} {c : UInt8} (hvalue : α.value c = none) (hpad : c ≠ 0x3D) (bs : Bytes) :
    c ∉ encode α padded bs := by
  intro h
  rcases mem_encode h with hsome | hc
  · rw [hvalue] at hsome
    cases hsome
  · exact hpad hc

theorem encode_filter (padded : Bool) (bs : Bytes) :
    (encode α padded bs).filter (fun b => b != 0x0A && b != 0x0D) = encode α padded bs := by
  refine List.filter_eq_self.2 fun c hc => ?_
  rw [Bool.and_eq_true, bne_iff_ne, bne_iff_ne]
  exact ⟨ne_of_mem_of_not_mem hc (not_mem_encode α.value_lf (by decide) bs),
    ne_of_mem_of_not_mem hc (not_mem_encode α.value_cr (by decide) bs)⟩

/-- What is encoded is read back. -/
theorem decode_encode (padded : Bool) (bs : Bytes) : decode α padded (encode α padded bs) = some bs := by
  have hall : ∀ c ∈ (unpack bs).map α.digit, (α.value c).isSome = true :=
    fun c hc => isSome_value_digits hc
  have hlen : ((unpack bs).map α.digit).length % 4 ≠ 1 := by
    rw [List.length_map, length_unpack]
    omega
  have htake : (encode α padded bs).takeWhile (fun b => (α.value b).isSome) = (unpack bs).map α.digit := by
    rw [encode, List.takeWhile_append_of_pos hall, List.takeWhile_replicate]
    simp [α.value_pad]
  have hdrop : (encode α padded bs).dropWhile (fun b => (α.value b).isSome) =
      List.replicate (if padded then (4 - ((unpack bs).map α.digit).length % 4) % 4 else 0) 0x3D := by
    rw [encode, List.dropWhile_append_of_pos hall, List.dropWhile_replicate]
    simp [α.value_pad]
  simp only [decode, encode_filter, htake, hdrop, filterMap_digits, pack_unpack]
  exact if_pos ⟨hlen, trivial⟩

/-! ### Spellings -/

/-- The line break at each place of a text, or that there is none. -/
def lineBreaks (input : Bytes) : List (Option UInt8) :=
  input.map fun b => if b != 0x0A && b != 0x0D then none else some b

/-- What decoding drops: the line breaks, and the bits the last character has to spare. -/
structure Slack where
  lineBreaks : List (Option UInt8)
  spareBits : UInt8
  deriving DecidableEq

def slack (α : Alphabet) (input : Bytes) : Slack where
  lineBreaks := Base64.lineBreaks input
  spareBits := Base64.spareBits ((input.filter fun b => b != 0x0A && b != 0x0D).filterMap α.value)

/-- The texts without padding that decode are sequences of values, up to line breaks. -/
theorem decode_eq_some {input bs : Bytes} : decode α false input = some bs ↔
    (∀ b ∈ input.filter (fun b => b != 0x0A && b != 0x0D), (α.value b).isSome = true) ∧
      (input.filter fun b => b != 0x0A && b != 0x0D).length % 4 ≠ 1 ∧
      pack ((input.filter fun b => b != 0x0A && b != 0x0D).filterMap α.value) = bs := by
  simp only [decode, Bool.false_eq_true, if_false, List.replicate_zero, List.dropWhile_eq_nil_iff]
  generalize input.filter (fun b => b != 0x0A && b != 0x0D) = text
  constructor
  · intro h
    split_ifs at h with hok
    rw [List.takeWhile_eq_self_iff.2 hok.2] at h hok
    exact ⟨hok.2, hok.1, Option.some.inj h⟩
  · rintro ⟨hall, hlen, hpack⟩
    rw [List.takeWhile_eq_self_iff.2 hall, if_pos ⟨hlen, hall⟩, hpack]

theorem eq_of_lineBreaks {x y : Bytes} (hbreaks : lineBreaks x = lineBreaks y)
    (hfilter : x.filter (fun b => b != 0x0A && b != 0x0D) = y.filter fun b => b != 0x0A && b != 0x0D) :
    x = y := by
  induction x generalizing y with
  | nil => simpa [lineBreaks] using hbreaks.symm
  | cons a x ih =>
    cases y with
    | nil => simp [lineBreaks] at hbreaks
    | cons b y =>
      simp only [lineBreaks, List.map_cons, List.cons.injEq] at hbreaks
      obtain ⟨hhead, htail⟩ := hbreaks
      rw [List.filter_cons, List.filter_cons] at hfilter
      split_ifs at hhead hfilter
      · obtain ⟨hab, hrest⟩ := List.cons.inj hfilter
        rw [hab, ih htail hrest]
      · obtain rfl := Option.some.inj hhead
        rw [ih htail hfilter]

/-- Texts that decode to the same bytes and have the same slack are the same. -/
theorem decode_unique (hα : ∀ b v, α.value b = some v → v &&& 0x3F = v ∧ α.digit v = b) {x y bs : Bytes}
    (hx : decode α false x = some bs) (hy : decode α false y = some bs) (hslack : slack α x = slack α y) :
    x = y := by
  obtain ⟨hxall, hxlen, hxpack⟩ := decode_eq_some.1 hx
  obtain ⟨hyall, hylen, hypack⟩ := decode_eq_some.1 hy
  have hdigits {text : Bytes} (hall : ∀ b ∈ text, (α.value b).isSome = true) :
      (text.filterMap α.value).map α.digit = text ∧ (text.filterMap α.value).length = text.length := by
    induction text with
    | nil => exact ⟨rfl, rfl⟩
    | cons b text ih =>
      rw [List.forall_mem_cons] at hall
      obtain ⟨v, hv⟩ := Option.isSome_iff_exists.1 hall.1
      obtain ⟨hmap, hlen⟩ := ih hall.2
      rw [List.filterMap_cons_some hv, List.map_cons, hmap, (hα b v hv).2, List.length_cons, hlen]
      exact ⟨rfl, rfl⟩
  have hmask (text : Bytes) : ∀ v ∈ text.filterMap α.value, v &&& 0x3F = v := by
    intro v hv
    obtain ⟨b, -, hb⟩ := List.mem_filterMap.1 hv
    exact (hα b v hb).1
  have hspare := congrArg Slack.spareBits hslack
  simp only [slack] at hspare
  refine eq_of_lineBreaks (congrArg Slack.lineBreaks hslack) ?_
  rw [← (hdigits hxall).1, ← (hdigits hyall).1]
  refine congrArg _ ?_
  rw [← unpackWith_pack (by rwa [(hdigits hxall).2]) (hmask _), hspare, hxpack, ← hypack,
    unpackWith_pack (by rwa [(hdigits hyall).2]) (hmask _)]

/-- What is written has no line breaks, and no bits set that it has to spare. -/
theorem slack_encode (bs : Bytes) :
    slack α (encode α false bs) = ⟨List.replicate (encode α false bs).length none, 0⟩ := by
  have hbreaks : lineBreaks (encode α false bs) = List.replicate (encode α false bs).length none := by
    rw [← List.map_const']
    refine List.map_congr_left fun c hc => if_pos ?_
    have hmem : c ∈ (encode α false bs).filter fun b => b != 0x0A && b != 0x0D := by rwa [encode_filter]
    exact (List.mem_filter.1 hmem).2
  have hvalues : (encode α false bs).filterMap α.value = unpack bs := by
    simp only [encode, Bool.false_eq_true, if_false, List.replicate_zero, List.append_nil, filterMap_digits]
  rw [slack, hbreaks, encode_filter, hvalues, spareBits_unpack]

end Texts

end DeskSync.Base64
