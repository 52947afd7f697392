import Mathlib.Tactic.Lemma
import Mend.Digest.Subtree
import Mend.Proofs.Text.Fields

/-!
# What is hashed for a node can be read back

The kind and the label of a node stand in the message as UTF-8, each ended by a zero byte, and the digests
of its children behind them as eight bytes each. UTF-8 has a zero byte for the character U+0000 only
(`zero_not_mem_utf8`). Kinds and labels without that character are thus found again up to the zero bytes,
and the children's digests by counting: no two nodes that differ in one of the three have one message
(`encode_injective`).
-/

namespace Mend.Digest

/-- A text without the character U+0000. -/
def NulFree (s : String) : Prop := Char.ofNat 0 ∉ s.toList

instance (s : String) : Decidable (NulFree s) := inferInstanceAs (Decidable (¬ _))

/-- The bytes of a character other than U+0000: the marks of the leading and the following bytes are
not zero, and a single byte is the character's own number. -/
lemma zero_not_mem_utf8EncodeChar {c : Char} (h : c ≠ Char.ofNat 0) :
    (0 : UInt8) ∉ String.utf8EncodeChar c := by
  have hsize : c.utf8Size = 1 ∨ c.utf8Size = 2 ∨ c.utf8Size = 3 ∨ c.utf8Size = 4 := by
    have := c.utf8Size_pos
    have := c.utf8Size_le_four
    omega
  rcases hsize with h1 | h2 | h3 | h4
  · rw [String.utf8EncodeChar_eq_singleton h1, List.mem_singleton]
    intro hzero
    have hle : c.val.toNat ≤ 127 := UInt32.le_iff_toNat_le.1 (Char.utf8Size_eq_one_iff.1 h1)
    have hmod : 0 = c.val.toNat % 256 := (congrArg UInt8.toNat hzero).trans (UInt32.toNat_toUInt8 _)
    have hval : c.val.toNat = 0 := by omega
    exact h (Char.ext (UInt32.toNat_inj.1 hval))
  · simp [String.utf8EncodeChar_eq_cons_cons h2, eq_comm (a := (0 : UInt8)), UInt8.or_eq_zero_iff]
  · simp [String.utf8EncodeChar_eq_cons_cons_cons h3, eq_comm (a := (0 : UInt8)), UInt8.or_eq_zero_iff]
  · simp [String.utf8EncodeChar_eq_cons_cons_cons_cons h4, eq_comm (a := (0 : UInt8)),
      UInt8.or_eq_zero_iff]

lemma toList_toUTF8 (s : String) :
    s.toUTF8.data.toList = s.toList.flatMap String.utf8EncodeChar := by
  rw [String.toUTF8_eq_toByteArray, ← String.utf8Encode_toList, List.utf8Encode, List.data_toByteArray]

lemma zero_not_mem_utf8 {s : String} (h : NulFree s) : (0 : UInt8) ∉ s.toUTF8.data.toList := by
  rw [toList_toUTF8, List.mem_flatMap]
  rintro ⟨c, hc, hzero⟩
  exact zero_not_mem_utf8EncodeChar (fun heq => h (heq ▸ hc)) hzero

/-- Eight bytes are read back as the number they were written for. -/
lemma read_littleEndian (v : UInt64) :
    (littleEndian v).data.toList.foldr (fun byte n => byte.toNat + 256 * n) 0 = v.toNat := by
  have hlt := v.toNat_lt
  simp only [littleEndian, List.foldr_cons, List.foldr_nil, UInt64.toNat_toUInt8,
    UInt64.toNat_shiftRight, UInt64.reduceToNat, Nat.reduceMod, Nat.shiftRight_eq_div_pow, Nat.reducePow]
  omega

lemma littleEndian_injective {v w : UInt64}
    (h : (littleEndian v).data.toList = (littleEndian w).data.toList) : v = w := by
  rw [← UInt64.toNat_inj, ← read_littleEndian, h, read_littleEndian]

lemma flatMap_littleEndian_injective {l l' : List UInt64}
    (h : l.flatMap (fun v => (littleEndian v).data.toList) =
      l'.flatMap fun v => (littleEndian v).data.toList) : l = l' := by
  induction l generalizing l' with
  | nil =>
    cases l' with
    | nil => rfl
    | cons w l' => simp [littleEndian] at h
  | cons v l ih =>
    cases l' with
    | nil => simp [littleEndian] at h
    | cons w l' =>
      obtain ⟨hhead, htail⟩ := List.append_inj h rfl
      rw [littleEndian_injective hhead, ih htail]

lemma toList_encode (kind label : String) (digests : List UInt64) :
    (encode kind label digests).data.toList =
      kind.toUTF8.data.toList ++ 0 :: (label.toUTF8.data.toList ++ 0 ::
        digests.flatMap fun v => (littleEndian v).data.toList) := by
  have hfold : ∀ bytes : ByteArray,
      (digests.foldl (fun bytes v => bytes ++ littleEndian v) bytes).data.toList =
        bytes.data.toList ++ digests.flatMap fun v => (littleEndian v).data.toList := by
    induction digests with
    | nil => simp
    | cons v digests ih => intro bytes; simp [ih]
  simp [encode, hfold, terminator]

/-- Nodes with one message have one kind, one label and the same digests below them. -/
lemma encode_injective {kind kind' label label' : String} {digests digests' : List UInt64}
    (hk : NulFree kind) (hk' : NulFree kind') (hl : NulFree label) (hl' : NulFree label')
    (h : encode kind label digests = encode kind' label' digests') :
    kind = kind' ∧ label = label' ∧ digests = digests' := by
  have hbytes : (encode kind label digests).data.toList = (encode kind' label' digests').data.toList := by
    rw [h]
  rw [toList_encode, toList_encode] at hbytes
  obtain ⟨hkind, hrest⟩ := Text.append_cons_inj (zero_not_mem_utf8 hk) (zero_not_mem_utf8 hk') hbytes
  obtain ⟨hlabel, hdigests⟩ := Text.append_cons_inj (zero_not_mem_utf8 hl) (zero_not_mem_utf8 hl') hrest
  have htext : ∀ {s t : String}, s.toUTF8.data.toList = t.toUTF8.data.toList → s = t := fun heq =>
    String.toByteArray_inj.1 (ByteArray.ext (Array.toList_inj.1 heq))
  exact ⟨htext hkind, htext hlabel, flatMap_littleEndian_injective hdigests⟩

end Mend.Digest
