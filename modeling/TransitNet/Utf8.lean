import Mathlib.Data.List.Basic

/-! Texts in UTF-8, each byte taken for a character again. -/
namespace Utf8

def bytes (c : Char) : List Char := (String.utf8EncodeChar c).map fun b => Char.ofNat b.toNat

def encode (s : List Char) : List Char := s.flatMap bytes

theorem bytes_ascii {c : Char} (ascii : c.toNat < 128) : bytes c = [c] := by
  have one : c.utf8Size = 1 :=
    Char.utf8Size_eq_one_iff.mpr (UInt32.le_iff_toNat_le.mpr (Nat.le_of_lt_succ ascii))
  have whole : c.val.toUInt8.toNat = c.toNat := by
    rw [UInt32.toNat_toUInt8]
    exact Nat.mod_eq_of_lt (Nat.lt_trans ascii (by decide))
  rw [bytes, String.utf8EncodeChar_eq_singleton one, List.map_singleton, whole, Char.ofNat_toNat]

/-- The bytes of a character that is not ASCII are not ASCII either. -/
theorem bytes_high {c b : Char} (high : 128 ≤ c.toNat) (member : b ∈ bytes c) : 128 ≤ b.toNat := by
  obtain ⟨byte, inside, rfl⟩ := List.mem_map.mp member
  have top : 128 ≤ byte.toNat := by
    rw [String.utf8EncodeChar] at inside
    have size : c.val.toNat = c.toNat := rfl
    simp only [size] at inside
    split at inside
    · omega
    · split at inside
      · simp only [List.mem_cons, List.not_mem_nil, or_false] at inside
        rcases inside with rfl | rfl <;> rw [UInt8.toNat_ofNat'] <;> omega
      · split at inside
        · simp only [List.mem_cons, List.not_mem_nil, or_false] at inside
          rcases inside with rfl | rfl | rfl <;> rw [UInt8.toNat_ofNat'] <;> omega
        · simp only [List.mem_cons, List.not_mem_nil, or_false] at inside
          rcases inside with rfl | rfl | rfl | rfl <;> rw [UInt8.toNat_ofNat'] <;> omega
  have small := byte.toNat_lt
  rw [Char.ofNat, dif_pos (Or.inl (by omega))]
  exact top

@[simp] theorem encode_nil : encode [] = [] := rfl

@[simp] theorem encode_append (s t : List Char) : encode (s ++ t) = encode s ++ encode t :=
  List.flatMap_append

theorem encode_cons (c : Char) (s : List Char) : encode (c :: s) = bytes c ++ encode s :=
  List.flatMap_cons

theorem encode_ascii {s : List Char} (ascii : ∀ c ∈ s, c.toNat < 128) : encode s = s := by
  induction s with
  | nil => rfl
  | cons c s ih =>
      rw [encode_cons, bytes_ascii (ascii c List.mem_cons_self),
        ih fun d member => ascii d (List.mem_cons_of_mem c member), List.singleton_append]

theorem mem_encode {c : Char} (ascii : c.toNat < 128) {s : List Char} : c ∈ encode s ↔ c ∈ s := by
  rw [encode, List.mem_flatMap]
  constructor
  · rintro ⟨d, member, inside⟩
    by_cases low : d.toNat < 128
    · rw [bytes_ascii low, List.mem_singleton] at inside
      exact inside ▸ member
    · have high := bytes_high (Nat.le_of_not_lt low) inside
      omega
  · intro member
    exact ⟨c, member, by rw [bytes_ascii ascii]; exact List.mem_singleton_self c⟩

theorem encode_ne_nil {s : List Char} (nonempty : s ≠ []) : encode s ≠ [] := by
  cases s with
  | nil => exact absurd rfl nonempty
  | cons c s =>
      have size : (bytes c).length = c.utf8Size := by
        rw [bytes, List.length_map, String.length_utf8EncodeChar]
      have some := c.utf8Size_pos
      rw [encode_cons]
      refine List.append_ne_nil_of_left_ne_nil (List.ne_nil_of_length_pos ?_) _
      omega

/-- The bytes that the characters stand for. -/
def octets (s : List Char) : List UInt8 := s.map fun c => c.toNat.toUInt8

/-- Fails where the bytes are no text in UTF-8. -/
def decode (s : List Char) : Option (List Char) := (octets s).toByteArray.utf8Decode?.map Array.toList

theorem octets_bytes (c : Char) : octets (bytes c) = String.utf8EncodeChar c := by
  have back : ∀ b : UInt8, (Char.ofNat b.toNat).toNat.toUInt8 = b := by
    intro b
    have small := b.toNat_lt
    have same : (Char.ofNat b.toNat).toNat = b.toNat := by
      rw [Char.ofNat, dif_pos (Or.inl (by omega))]
      rfl
    rw [same, Nat.toUInt8_eq, UInt8.ofNat_toNat]
  rw [octets, bytes, List.map_map]
  exact (List.map_congr_left fun b _ => back b).trans (List.map_id _)

theorem decode_encode (s : List Char) : decode (encode s) = some s := by
  have same : octets (encode s) = s.flatMap String.utf8EncodeChar := by
    induction s with
    | nil => rfl
    | cons c s ih =>
        rw [octets] at ih
        rw [encode_cons, octets, List.map_append, ih, List.flatMap_cons, ← octets_bytes c]
        rfl
  have whole : (octets (encode s)).toByteArray = s.utf8Encode := by rw [same, List.utf8Encode]
  rw [decode, whole, List.utf8Decode?_utf8Encode]
  rfl

theorem encode_injective : Function.Injective encode := by
  intro s t same
  exact Option.some.inj ((decode_encode s).symm.trans ((congrArg decode same).trans (decode_encode t)))

theorem decode_ascii {s : List Char} (ascii : ∀ c ∈ s, c.toNat < 128) : decode s = some s := by
  have same := decode_encode s
  rwa [encode_ascii ascii] at same

end Utf8
