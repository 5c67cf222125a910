import Krl.Text.Utf8

/-!
# UTF-8 of a text

The bytes of a text are read as its characters, each in turn: between two characters nothing has
begun, and every byte of a character behind its first one lies in the range that is left for it.

* `parts_encode`: no part of the bytes of a text is invalid.
* `lossy_encode`: the bytes of a text are read as the text.
-/

set_option autoImplicit false

namespace Krl.Text.Utf8

/-- The bytes of a text. -/
def encode (text : String) : List UInt8 := text.toList.flatMap String.utf8EncodeChar

/-! ## First bytes -/

theorem start_one {n : Nat} (h : n ≤ 0x7F) :
    start (UInt8.ofNat n) = some (.inl (Char.ofNat n)) := by
  have all : ∀ m ∈ List.range 0x80, start (UInt8.ofNat m) = some (.inl (Char.ofNat m)) := by
    decide +kernel
  exact all n (List.mem_range.2 (by omega))

theorem start_two {n : Nat} (hlow : 2 ≤ n) (hhigh : n < 0x20) :
    start (UInt8.ofNat (n + 0xC0)) = some (.inr ⟨n, 1, 0x80, 0xBF⟩) := by
  have all : ∀ m ∈ List.range 0x20, 2 ≤ m →
      start (UInt8.ofNat (m + 0xC0)) = some (.inr ⟨m, 1, 0x80, 0xBF⟩) := by
    decide
  exact all n (List.mem_range.2 hhigh) hlow

theorem start_three {n : Nat} (h : n < 0x10) :
    start (UInt8.ofNat (n + 0xE0)) = some (.inr ⟨n, 2, if n = 0 then 0xA0 else 0x80,
      if n = 0xD then 0x9F else 0xBF⟩) := by
  have all : ∀ m ∈ List.range 0x10,
      start (UInt8.ofNat (m + 0xE0)) = some (.inr ⟨m, 2, if m = 0 then 0xA0 else 0x80,
        if m = 0xD then 0x9F else 0xBF⟩) := by
    decide
  exact all n (List.mem_range.2 h)

theorem start_four {n : Nat} (h : n ≤ 4) :
    start (UInt8.ofNat (n + 0xF0)) = some (.inr ⟨n, 3, if n = 0 then 0x90 else 0x80,
      if n = 4 then 0x8F else 0xBF⟩) := by
  have all : ∀ m ∈ List.range 5,
      start (UInt8.ofNat (m + 0xF0)) = some (.inr ⟨m, 3, if m = 0 then 0x90 else 0x80,
        if m = 4 then 0x8F else 0xBF⟩) := by
    decide
  exact all n (List.mem_range.2 (by omega))

/-! ## Characters -/

namespace Reader

variable {parts : List (Option Char)} {g : Begun} {n : Nat}

theorem next_begin {b : UInt8} (h : start b = some (.inr g)) :
    next ⟨parts, none⟩ b = ⟨parts, some g⟩ := by
  simp only [next, first, h]

theorem toNat_continuation (hn : n < 0x40) : (UInt8.ofNat (n + 0x80)).toNat = n + 0x80 := by
  rw [UInt8.toNat_ofNat']
  omega

/-- A byte in the range that is left for it continues the character that has begun. -/
theorem next_continue {bits missing : Nat} {low high : UInt8} (hn : n < 0x40)
    (hlow : low.toNat ≤ n + 0x80) (hhigh : n + 0x80 ≤ high.toNat) :
    next ⟨parts, some ⟨bits, missing, low, high⟩⟩ (UInt8.ofNat (n + 0x80)) =
      if missing = 1 then ⟨some (Char.ofNat (bits * 64 + n)) :: parts, none⟩
      else ⟨parts, some ⟨bits * 64 + n, missing - 1, 0x80, 0xBF⟩⟩ := by
  have hrange : (decide (low ≤ UInt8.ofNat (n + 0x80)) &&
      decide (UInt8.ofNat (n + 0x80) ≤ high)) = true := by
    simp only [Bool.and_eq_true, decide_eq_true_eq, UInt8.le_iff_toNat_le, toNat_continuation hn]
    exact ⟨hlow, hhigh⟩
  simp only [next, hrange, if_true, toNat_continuation hn, Nat.add_sub_cancel]

/-- A byte whose range is not narrowed. -/
theorem next_tail {bits missing : Nat} (hn : n < 0x40) :
    next ⟨parts, some ⟨bits, missing, 0x80, 0xBF⟩⟩ (UInt8.ofNat (n + 0x80)) =
      if missing = 1 then ⟨some (Char.ofNat (bits * 64 + n)) :: parts, none⟩
      else ⟨parts, some ⟨bits * 64 + n, missing - 1, 0x80, 0xBF⟩⟩ := by
  have hhigh : UInt8.toNat 0xBF = 0xBF := rfl
  exact next_continue hn (Nat.le_add_left _ _) (by simp only [hhigh]; omega)

/-- The bytes of a character are read as that. -/
theorem foldl_encodeChar (c : Char) :
    (String.utf8EncodeChar c).foldl next ⟨parts, none⟩ = ⟨some c :: parts, none⟩ := by
  have hvalid : c.toNat < 0xD800 ∨ 0xDFFF < c.toNat ∧ c.toNat < 0x110000 := c.valid
  have hval : c.val.toNat = c.toNat := rfl
  have hmod : ∀ m : Nat, m % 0x40 < 0x40 := fun m => Nat.mod_lt m (by decide)
  rw [String.utf8EncodeChar]
  simp only [hval]
  split
  · next h =>
    simp only [List.foldl_cons, List.foldl_nil, next, first, start_one h, Char.ofNat_toNat]
  split
  · next h _ =>
    have hsum : c.toNat / 64 % 32 * 64 + c.toNat % 64 = c.toNat := by omega
    rw [List.foldl_cons, next_begin (start_two (by omega) (by omega)), List.foldl_cons,
      next_tail (hmod _), if_pos rfl, hsum, Char.ofNat_toNat, List.foldl_nil]
  split
  · next h _ =>
    have hsum : (c.toNat / 4096 % 16 * 64 + c.toNat / 64 % 64) * 64 + c.toNat % 64 = c.toNat := by
      omega
    have hlow : UInt8.toNat (if c.toNat / 4096 % 16 = 0 then 0xA0 else 0x80) ≤
        c.toNat / 64 % 64 + 0x80 := by
      split
      · show 0xA0 ≤ _
        omega
      · exact Nat.le_add_left _ _
    have hhigh : c.toNat / 64 % 64 + 0x80 ≤
        UInt8.toNat (if c.toNat / 4096 % 16 = 0xD then 0x9F else 0xBF) := by
      split
      · show _ ≤ 0x9F
        omega
      · show _ ≤ 0xBF
        omega
    rw [List.foldl_cons, next_begin (start_three (by omega)), List.foldl_cons,
      next_continue (hmod _) hlow hhigh, if_neg (by decide), List.foldl_cons, next_tail (hmod _),
      if_pos rfl, hsum, Char.ofNat_toNat, List.foldl_nil]
  · have hsum : ((c.toNat / 262144 % 8 * 64 + c.toNat / 4096 % 64) * 64 + c.toNat / 64 % 64) * 64 +
        c.toNat % 64 = c.toNat := by
      omega
    have hlow : UInt8.toNat (if c.toNat / 262144 % 8 = 0 then 0x90 else 0x80) ≤
        c.toNat / 4096 % 64 + 0x80 := by
      split
      · show 0x90 ≤ _
        omega
      · exact Nat.le_add_left _ _
    have hhigh : c.toNat / 4096 % 64 + 0x80 ≤
        UInt8.toNat (if c.toNat / 262144 % 8 = 4 then 0x8F else 0xBF) := by
      split
      · show _ ≤ 0x8F
        omega
      · show _ ≤ 0xBF
        omega
    rw [List.foldl_cons, next_begin (start_four (by omega)), List.foldl_cons,
      next_continue (hmod _) hlow hhigh, if_neg (by decide), List.foldl_cons, next_tail (hmod _),
      if_neg (by decide), List.foldl_cons, next_tail (hmod _), if_pos rfl, hsum, Char.ofNat_toNat,
      List.foldl_nil]

theorem foldl_encode (cs : List Char) :
    (cs.flatMap String.utf8EncodeChar).foldl next ⟨parts, none⟩ =
      ⟨(cs.map some).reverse ++ parts, none⟩ := by
  induction cs generalizing parts with
  | nil => rfl
  | cons c cs ih =>
    rw [List.flatMap_cons, List.foldl_append, foldl_encodeChar, ih, List.map_cons,
      List.reverse_cons, List.append_assoc]
    rfl

end Reader

/-! ## Texts -/

/-- No part of the bytes of a text is invalid. -/
theorem parts_encode (text : String) : parts (encode text) = text.toList.map some := by
  rw [parts, encode, Reader.foldl_encode]
  simp [Reader.finish]

/-- The bytes of a text are read as the text. -/
theorem lossy_encode (text : String) : lossy (encode text) = text := by
  have hget : ((·.getD '\uFFFD') ∘ some : Char → Char) = id := rfl
  rw [lossy, parts_encode, List.map_map, hget, List.map_id, String.ofList_toList]

end Krl.Text.Utf8
