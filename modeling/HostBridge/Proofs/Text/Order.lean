import HostBridge.Proofs.Json.Strings
import Mathlib.Data.List.Lex

/-!
# The order of texts

Texts are compared character by character. UTF-8 is made so that it comes to the
same to compare their bytes: the lesser of two characters has the lesser bytes,
whatever comes behind them (`Utf8.Form.append_lt`), and so has the lesser of two
texts (`Utf8.compare_eq_lt_iff`).
-/

namespace HostBridge

namespace Utf8

/-! ## Characters -/

/-- A number as a first byte above `base` and `count` further bytes of six bits
    each. -/
def spread (base : Nat) : Nat → Nat → Bytes
  | 0, n => [UInt8.ofNat (base + n)]
  | count + 1, n => spread base count (n / 64) ++ [UInt8.ofNat (n % 64 + 0x80)]

theorem cons_lt_of_lt {m n : Nat} (h : m < n) (hn : n < 0x100) (u v : Bytes) :
    UInt8.ofNat m :: u < UInt8.ofNat n :: v := by
  rw [List.cons_lt_cons_iff, UInt8.lt_iff_toNat_lt, UInt8.toNat_ofNat', UInt8.toNat_ofNat']
  omega

/-- With the same number of further bytes, the lesser number has the lesser bytes. -/
theorem spread_append_lt {base count m n : Nat} (h : m < n)
    (hn : base + n / Nat.pow 64 count < 0x100) (u v : Bytes) :
    spread base count m ++ u < spread base count n ++ v := by
  induction count generalizing m n u v with
  | zero => exact cons_lt_of_lt (Nat.add_lt_add_left h base) (by simpa using hn) u v
  | succ count ih =>
    rw [spread, spread, List.append_assoc, List.append_assoc]
    -- either the upper bits tell them apart already, or the last byte does
    rcases Nat.lt_or_ge (m / 64) (n / 64) with hlt | hge
    · refine ih hlt ?_ _ _
      rw [Nat.div_div_eq_div_mul, Nat.mul_comm]
      exact hn
    · have heq : m / 64 = n / 64 := by omega
      rw [heq]
      exact List.append_left_lt (cons_lt_of_lt (by omega) (by omega) u v)

/-- What the bytes of a character look like, by their number. -/
inductive Form (n : Nat) : Bytes → Prop
  | one : n < 0x80 → Form n (spread 0 0 n)
  | two : 0x80 ≤ n → n < 0x800 → Form n (spread 0xC0 1 n)
  | three : 0x800 ≤ n → n < 0x10000 → Form n (spread 0xE0 2 n)
  | four : 0x10000 ≤ n → n < 0x110000 → Form n (spread 0xF0 3 n)

theorem form_encodeChar (c : Char) : Form c.toNat (String.utf8EncodeChar c) := by
  have hvalid := c.valid
  have hc : c.val.toNat = c.toNat := rfl
  simp only [UInt32.isValidChar, Nat.isValidChar, hc] at hvalid
  rw [String.utf8EncodeChar, hc]
  rcases Nat.lt_or_ge c.toNat 0x80 with h₁ | h₁
  · have hfirst : [UInt8.ofNat c.toNat] = spread 0 0 c.toNat := by rw [spread, Nat.zero_add]
    rw [if_pos (by omega), hfirst]
    exact .one h₁
  rw [if_neg (by omega)]
  rcases Nat.lt_or_ge c.toNat 0x800 with h₂ | h₂
  · have hfirst : c.toNat / 64 % 32 + 192 = 0xC0 + c.toNat / 64 := by omega
    rw [if_pos (by omega), hfirst]
    exact .two h₁ h₂
  rw [if_neg (by omega)]
  rcases Nat.lt_or_ge c.toNat 0x10000 with h₃ | h₃
  · have hfirst : c.toNat / 4096 % 16 + 224 = 0xE0 + c.toNat / 64 / 64 := by omega
    rw [if_pos (by omega), hfirst]
    exact .three h₂ h₃
  · have hfirst : c.toNat / 262144 % 8 + 240 = 0xF0 + c.toNat / 64 / 64 / 64 := by omega
    have hsecond : c.toNat / 4096 % 64 = c.toNat / 64 / 64 % 64 := by omega
    rw [if_neg (by omega), hfirst, hsecond]
    exact .four h₃ (by omega)

/-- The lesser of two characters has the lesser bytes, whatever comes behind them. -/
theorem Form.append_lt {m n : Nat} {bytes others : Bytes} (hm : Form m bytes) (hn : Form n others)
    (h : m < n) (u v : Bytes) : bytes ++ u < others ++ v := by
  cases hm <;> cases hn
  case one.one | two.two | three.three | four.four => exact spread_append_lt h (by simp; omega) u v
  -- with more bytes the first one is greater
  case one.two | one.three | one.four | two.three | two.four | three.four =>
    exact cons_lt_of_lt (by omega) (by omega) _ _
  -- the greater character does not have fewer bytes
  all_goals omega

/-! ## Texts -/

theorem flatMap_encodeChar_lt {cs ds : List Char} (h : cs < ds) :
    cs.flatMap String.utf8EncodeChar < ds.flatMap String.utf8EncodeChar := by
  induction h with
  | @nil d ds =>
    have hne : String.utf8EncodeChar d ≠ [] := String.utf8EncodeChar_ne_nil
    obtain ⟨byte, bytes, hd⟩ := List.exists_cons_of_ne_nil hne
    rw [List.flatMap_nil, List.flatMap_cons, hd, List.cons_append]
    exact .nil
  | @rel c cs d ds h =>
    rw [List.flatMap_cons, List.flatMap_cons]
    exact (form_encodeChar c).append_lt (form_encodeChar d) h _ _
  | cons _ ih =>
    rw [List.flatMap_cons, List.flatMap_cons]
    exact List.append_left_lt ih

theorem encode_lt_of_compare {s t : String} (h : compare s t = .lt) : encode s < encode t := by
  rw [encode_eq_flatMap, encode_eq_flatMap]
  exact flatMap_encodeChar_lt (String.lt_iff.1 (compareOfLessAndEq_eq_lt.1 h))

/-- The lesser text has the lesser bytes, and the other way round. -/
theorem compare_eq_lt_iff {s t : String} : compare s t = .lt ↔ encode s < encode t := by
  refine ⟨encode_lt_of_compare, fun h => ?_⟩
  cases hcompare : compare s t with
  | lt => rfl
  | eq =>
    obtain rfl := Std.LawfulEqCmp.eq_of_compare hcompare
    exact absurd h (List.lt_irrefl _)
  | gt =>
    exact absurd h (List.lt_asymm (encode_lt_of_compare (Std.OrientedCmp.gt_iff_lt.1 hcompare)))

end Utf8

end HostBridge
