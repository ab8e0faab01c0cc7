/-
Radix-64 groups and big-endian integers.  Three bytes are four sextets, an
incomplete last group is two or three of them, and decoding undoes encoding.
-/
import Mathlib.Data.Nat.Digits.Defs
import Mathlib.Data.Nat.Bitwise
import Mathlib.Tactic

namespace Radix64

def sextets : List ℕ → List ℕ
  | [] => []
  | [a] => [a / 4, a % 4 * 16]
  | [a, b] => [a / 4, a % 4 * 16 + b / 16, b % 16 * 4]
  | a :: b :: c :: rest =>
      a / 4 :: (a % 4 * 16 + b / 16) :: (b % 16 * 4 + c / 64) :: c % 64 ::
        sextets rest

def word (v0 v1 v2 v3 : ℕ) : ℕ :=
  v0 <<< 18 ||| v1 <<< 12 ||| v2 <<< 6 ||| v3

/-- The bytes of a sextet string; one left-over sextet is no byte at all. -/
def bytes? : List ℕ → Option (List ℕ)
  | [] => some []
  | [_] => none
  | [v0, v1] => some [word v0 v1 0 0 >>> 16 &&& 0xFF]
  | [v0, v1, v2] =>
      some [word v0 v1 v2 0 >>> 16 &&& 0xFF, word v0 v1 v2 0 >>> 8 &&& 0xFF]
  | v0 :: v1 :: v2 :: v3 :: rest =>
      (bytes? rest).map fun tail =>
        (word v0 v1 v2 v3 >>> 16 &&& 0xFF) ::
          (word v0 v1 v2 v3 >>> 8 &&& 0xFF) ::
            (word v0 v1 v2 v3 &&& 0xFF) :: tail

theorem word_eq {v0 v1 v2 v3 : ℕ} (h1 : v1 < 64) (h2 : v2 < 64) (h3 : v3 < 64) :
    word v0 v1 v2 v3 = v0 * 2 ^ 18 + v1 * 2 ^ 12 + v2 * 2 ^ 6 + v3 := by
  have hlow : v2 <<< 6 ||| v3 = v2 * 2 ^ 6 + v3 := by
    rw [← Nat.shiftLeft_add_eq_or_of_lt (by omega), Nat.shiftLeft_eq]
  have hmid : v1 <<< 12 ||| (v2 <<< 6 ||| v3) =
      v1 * 2 ^ 12 + (v2 * 2 ^ 6 + v3) := by
    rw [hlow, ← Nat.shiftLeft_add_eq_or_of_lt (by omega), Nat.shiftLeft_eq]
  calc word v0 v1 v2 v3 = v0 <<< 18 ||| (v1 <<< 12 ||| (v2 <<< 6 ||| v3)) := by
        simp only [word, Nat.or_assoc]
    _ = v0 * 2 ^ 18 + (v1 * 2 ^ 12 + (v2 * 2 ^ 6 + v3)) := by
        rw [hmid, ← Nat.shiftLeft_add_eq_or_of_lt (by omega), Nat.shiftLeft_eq]
    _ = v0 * 2 ^ 18 + v1 * 2 ^ 12 + v2 * 2 ^ 6 + v3 := by ring

theorem and_byte (n : ℕ) : n &&& 0xFF = n % 256 :=
  Nat.and_two_pow_sub_one_eq_mod n 8

theorem sextets_lt {bs : List ℕ} (hbytes : ∀ b ∈ bs, b < 256) :
    ∀ v ∈ sextets bs, v < 64 := by
  induction bs using sextets.induct with
  | case1 => simp [sextets]
  | case2 a =>
      have ha := hbytes a (by simp)
      simp only [sextets, List.mem_cons, List.not_mem_nil, or_false]
      rintro v (rfl | rfl) <;> omega
  | case3 a b =>
      have ha := hbytes a (by simp)
      have hb := hbytes b (by simp)
      simp only [sextets, List.mem_cons, List.not_mem_nil, or_false]
      rintro v (rfl | rfl | rfl) <;> omega
  | case4 a b c rest ih =>
      have ha := hbytes a (by simp)
      have hb := hbytes b (by simp)
      have hc := hbytes c (by simp)
      simp only [sextets, List.mem_cons]
      rintro v (rfl | rfl | rfl | rfl | hrest)
      · omega
      · omega
      · omega
      · omega
      · exact ih (fun x hx => hbytes x (by simp [hx])) v hrest

/-- Decoding the sextets of a byte string gives the byte string back. -/
theorem bytes?_sextets {bs : List ℕ} (hbytes : ∀ b ∈ bs, b < 256) :
    bytes? (sextets bs) = some bs := by
  induction bs using sextets.induct with
  | case1 => rfl
  | case2 a =>
      have ha := hbytes a (by simp)
      have hfirst : a % 4 * 16 < 64 := by omega
      simp only [sextets, bytes?, Nat.shiftRight_eq_div_pow, and_byte,
        word_eq hfirst (by omega : 0 < 64) (by omega : 0 < 64)]
      have hbyte : (a / 4 * 2 ^ 18 + a % 4 * 16 * 2 ^ 12 + 0 * 2 ^ 6 + 0) /
          2 ^ 16 % 256 = a := by omega
      rw [hbyte]
  | case3 a b =>
      have ha := hbytes a (by simp)
      have hb := hbytes b (by simp)
      have hfirst : a % 4 * 16 + b / 16 < 64 := by omega
      have hsecond : b % 16 * 4 < 64 := by omega
      simp only [sextets, bytes?, Nat.shiftRight_eq_div_pow, and_byte,
        word_eq hfirst hsecond (by omega : 0 < 64)]
      have hbyteA : (a / 4 * 2 ^ 18 + (a % 4 * 16 + b / 16) * 2 ^ 12 +
          b % 16 * 4 * 2 ^ 6 + 0) / 2 ^ 16 % 256 = a := by omega
      have hbyteB : (a / 4 * 2 ^ 18 + (a % 4 * 16 + b / 16) * 2 ^ 12 +
          b % 16 * 4 * 2 ^ 6 + 0) / 2 ^ 8 % 256 = b := by omega
      rw [hbyteA, hbyteB]
  | case4 a b c rest ih =>
      have ha := hbytes a (by simp)
      have hb := hbytes b (by simp)
      have hc := hbytes c (by simp)
      have hfirst : a % 4 * 16 + b / 16 < 64 := by omega
      have hsecond : b % 16 * 4 + c / 64 < 64 := by omega
      have hthird : c % 64 < 64 := by omega
      have hrest := ih fun x hx => hbytes x (by simp [hx])
      simp only [sextets, bytes?, hrest, Option.map_some, Nat.shiftRight_eq_div_pow,
        and_byte, word_eq hfirst hsecond hthird]
      have hbyteA : (a / 4 * 2 ^ 18 + (a % 4 * 16 + b / 16) * 2 ^ 12 +
          (b % 16 * 4 + c / 64) * 2 ^ 6 + c % 64) / 2 ^ 16 % 256 = a := by omega
      have hbyteB : (a / 4 * 2 ^ 18 + (a % 4 * 16 + b / 16) * 2 ^ 12 +
          (b % 16 * 4 + c / 64) * 2 ^ 6 + c % 64) / 2 ^ 8 % 256 = b := by omega
      have hbyteC : (a / 4 * 2 ^ 18 + (a % 4 * 16 + b / 16) * 2 ^ 12 +
          (b % 16 * 4 + c / 64) * 2 ^ 6 + c % 64) % 256 = c := by omega
      rw [hbyteA, hbyteB, hbyteC]

theorem length_sextets (bs : List ℕ) :
    (sextets bs).length = (bs.length * 4 + 2) / 3 := by
  induction bs using sextets.induct with
  | case1 => rfl
  | case2 a => simp [sextets]
  | case3 a b => simp [sextets]
  | case4 a b c rest ih =>
      simp only [sextets, List.length_cons, ih]
      omega

/-- Padding to a multiple of three bytes completes the last group of sextets. -/
theorem length_sextets_pad (bs : List ℕ) :
    ((sextets bs).length + (3 - bs.length % 3) % 3) % 4 = 0 := by
  rw [length_sextets]
  obtain h | h | h : bs.length % 3 = 0 ∨ bs.length % 3 = 1 ∨ bs.length % 3 = 2 := by omega
  · rw [h]
    omega
  · rw [h]
    omega
  · rw [h]
    omega

/-- Decoding fails on one left-over sextet and on nothing else. -/
theorem bytes?_isSome (vals : List ℕ) : (bytes? vals).isSome ↔ vals.length % 4 ≠ 1 := by
  induction vals using bytes?.induct with
  | case1 | case2 | case3 | case4 => simp [bytes?]
  | case5 v0 v1 v2 v3 rest ih =>
      rw [bytes?, Option.isSome_map, ih]
      simp only [List.length_cons]
      omega

theorem bytes?_lt {vals bs : List ℕ} (h : bytes? vals = some bs) :
    ∀ b ∈ bs, b < 256 := by
  induction vals using bytes?.induct generalizing bs with
  | case1 =>
      cases h
      simp
  | case2 => cases h
  | case3 | case4 =>
      cases h
      simp only [List.mem_cons, List.not_mem_nil, or_false, forall_eq_or_imp, forall_eq,
        and_byte]
      omega
  | case5 v0 v1 v2 v3 rest ih =>
      obtain ⟨tail, htail, rfl⟩ := Option.map_eq_some_iff.mp h
      simp only [List.mem_cons, forall_eq_or_imp, and_byte]
      exact ⟨Nat.mod_lt _ (by norm_num), Nat.mod_lt _ (by norm_num),
        Nat.mod_lt _ (by norm_num), ih htail⟩

def tidy : List ℕ → Bool
  | [_, v1] => decide (v1 % 16 = 0)
  | [_, _, v2] => decide (v2 % 4 = 0)
  | _ :: _ :: _ :: _ :: rest => tidy rest
  | _ => true

theorem tidy_sextets (bs : List ℕ) : tidy (sextets bs) = true := by
  induction bs using sextets.induct with
  | case1 => rfl
  | case2 a => simp [sextets, tidy]
  | case3 a b => simp [sextets, tidy]
  | case4 a b c rest ih => simpa [sextets, tidy] using ih

/-- Sextets that leave no bits behind are those of the bytes they decode to. -/
theorem sextets_bytes? {vals bs : List ℕ} (hvals : ∀ v ∈ vals, v < 64)
    (h : bytes? vals = some bs) (htidy : tidy vals = true) : sextets bs = vals := by
  induction vals using bytes?.induct generalizing bs with
  | case1 =>
      cases h
      rfl
  | case2 => cases h
  | case3 v0 v1 =>
      cases h
      have h0 := hvals v0 (by simp)
      have h1 := hvals v1 (by simp)
      have hlow : v1 % 16 = 0 := by simpa [tidy] using htidy
      simp only [sextets, Nat.shiftRight_eq_div_pow, and_byte,
        word_eq h1 (by omega : 0 < 64) (by omega : 0 < 64), List.cons.injEq, and_true]
      omega
  | case4 v0 v1 v2 =>
      cases h
      have h0 := hvals v0 (by simp)
      have h1 := hvals v1 (by simp)
      have h2 := hvals v2 (by simp)
      have hlow : v2 % 4 = 0 := by simpa [tidy] using htidy
      simp only [sextets, Nat.shiftRight_eq_div_pow, and_byte,
        word_eq h1 h2 (by omega : 0 < 64), List.cons.injEq, and_true]
      omega
  | case5 v0 v1 v2 v3 rest ih =>
      obtain ⟨tail, htail, rfl⟩ := Option.map_eq_some_iff.mp h
      have h0 := hvals v0 (by simp)
      have h1 := hvals v1 (by simp)
      have h2 := hvals v2 (by simp)
      have h3 := hvals v3 (by simp)
      have hrest := ih (fun v hv => hvals v (by simp [hv])) htail (by simpa [tidy] using htidy)
      simp only [sextets, hrest, Nat.shiftRight_eq_div_pow, and_byte, word_eq h1 h2 h3,
        List.cons.injEq, and_true]
      omega

/-- The `length` low bytes of a number, least significant first. -/
def bytesLE : ℕ → ℕ → List ℕ
  | 0, _ => []
  | length + 1, n => n % 256 :: bytesLE length (n / 256)

def bytesBE (length n : ℕ) : List ℕ := (bytesLE length n).reverse

def ofBytesBE (bs : List ℕ) : ℕ := Nat.ofDigits 256 bs.reverse

theorem ofDigits_bytesLE (length n : ℕ) (hn : n < 256 ^ length) :
    Nat.ofDigits 256 (bytesLE length n) = n := by
  induction length generalizing n with
  | zero =>
      have hzero : n = 0 := by simpa using hn
      simp [bytesLE, hzero]
  | succ length ih =>
      have hquot : n / 256 < 256 ^ length :=
        Nat.div_lt_of_lt_mul (by rwa [pow_succ, mul_comm] at hn)
      rw [bytesLE, Nat.ofDigits_cons, ih _ hquot]
      exact Nat.mod_add_div n 256

/-- A number that fits its bytes is read back from them. -/
theorem ofBytesBE_bytesBE {length n : ℕ} (hn : n < 256 ^ length) :
    ofBytesBE (bytesBE length n) = n := by
  rw [ofBytesBE, bytesBE, List.reverse_reverse, ofDigits_bytesLE length n hn]

@[simp] theorem length_bytesBE (length n : ℕ) :
    (bytesBE length n).length = length := by
  rw [bytesBE, List.length_reverse]
  induction length generalizing n with
  | zero => rfl
  | succ length ih => rw [bytesLE, List.length_cons, ih]

theorem bytesBE_lt {length n : ℕ} : ∀ b ∈ bytesBE length n, b < 256 := by
  intro b hb
  rw [bytesBE, List.mem_reverse] at hb
  induction length generalizing n with
  | zero => simp [bytesLE] at hb
  | succ length ih =>
      rw [bytesLE, List.mem_cons] at hb
      rcases hb with rfl | hb
      · exact Nat.mod_lt _ (by norm_num)
      · exact ih hb

end Radix64
