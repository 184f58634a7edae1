import OciWrapper.Text.Chars

namespace OciWrapper.Text

/-- The UTF-8 bytes of a text. -/
def utf8 (text : List Char) : CString :=
  (text.flatMap String.utf8EncodeChar).map fun byte => Char.ofNat byte.toNat

/-- The text whose UTF-8 bytes these are. -/
def utf8Decode (bytes : CString) : Option (List Char) :=
  (bytes.map fun byte => byte.toNat.toUInt8).toByteArray.utf8Decode?.map Array.toList

def Ascii (text : List Char) : Prop := ∀ c ∈ text, c.toNat < 128

instance (text : List Char) : Decidable (Ascii text) :=
  decidable_of_iff (text.all (·.toNat < 128) = true) (by simp [Ascii])

theorem ascii_append {before after : List Char} :
    Ascii (before ++ after) ↔ Ascii before ∧ Ascii after := List.forall_mem_append

@[simp] theorem utf8_nil : utf8 [] = [] := rfl

theorem utf8_cons (c : Char) (text : List Char) :
    utf8 (c :: text) =
      (String.utf8EncodeChar c).map (fun byte => Char.ofNat byte.toNat) ++ utf8 text := by
  simp only [utf8, List.flatMap_cons, List.map_append]

theorem utf8_append (before after : List Char) :
    utf8 (before ++ after) = utf8 before ++ utf8 after := by
  simp only [utf8, List.flatMap_append, List.map_append]

theorem utf8Decode_utf8 (text : List Char) : utf8Decode (utf8 text) = some text := by
  have bytes : (utf8 text).map (fun byte => byte.toNat.toUInt8) =
      text.flatMap String.utf8EncodeChar := by
    rw [utf8, List.map_map]
    conv_rhs => rw [← List.map_id (text.flatMap String.utf8EncodeChar)]
    apply List.map_congr_left
    intro byte _
    have valid : byte.toNat.isValidChar := Or.inl (by have := byte.toNat_lt; omega)
    simp [Function.comp, Char.ofNat, valid, Char.ofNatAux]
  rw [utf8Decode, bytes]
  have decoded := List.utf8Decode?_utf8Encode (l := text)
  rw [List.utf8Encode] at decoded
  simp [decoded]

theorem utf8_injective {text other : List Char} (same : utf8 text = utf8 other) : text = other := by
  have decoded := congrArg utf8Decode same
  rw [utf8Decode_utf8, utf8Decode_utf8] at decoded
  exact Option.some.inj decoded

theorem utf8EncodeChar_ascii {c : Char} (plain : c.toNat < 128) :
    (String.utf8EncodeChar c).map (fun byte => Char.ofNat byte.toNat) = [c] := by
  have value : c.val.toNat ≤ 0x7f := Nat.le_of_lt_succ plain
  have same : c.val.toNat % 256 = c.val.toNat := Nat.mod_eq_of_lt (by omega)
  rw [String.utf8EncodeChar]
  simp only [value, if_true, List.map_cons, List.map_nil, UInt8.toNat_ofNat', same]
  rw [show c.val.toNat = c.toNat from rfl, Char.ofNat_toNat]

theorem utf8_ascii {text : List Char} (plain : Ascii text) : utf8 text = text := by
  induction text with
  | nil => rfl
  | cons c text ih =>
    rw [utf8_cons, utf8EncodeChar_ascii (plain c List.mem_cons_self),
      ih fun d member => plain d (List.mem_cons_of_mem c member)]
    rfl

theorem length_utf8_cons (c : Char) (text : List Char) :
    (utf8 (c :: text)).length = c.utf8Size + (utf8 text).length := by
  rw [utf8_cons, List.length_append, List.length_map, String.length_utf8EncodeChar]

theorem length_le_utf8 (text : List Char) : text.length ≤ (utf8 text).length := by
  induction text with
  | nil => exact Nat.le_refl _
  | cons c text ih =>
    have size := Char.utf8Size_pos c
    rw [length_utf8_cons, List.length_cons]
    omega

/-- Only single-byte characters take no more bytes than there are characters. -/
theorem ascii_of_length {text : List Char} (short : (utf8 text).length ≤ text.length) :
    Ascii text := by
  induction text with
  | nil =>
    intro c member
    cases member
  | cons c text ih =>
    rw [length_utf8_cons, List.length_cons] at short
    have size := Char.utf8Size_pos c
    have rest := length_le_utf8 text
    intro d member
    rcases List.mem_cons.mp member with rfl | member
    · have single : d.utf8Size = 1 := by omega
      have value := Char.utf8Size_eq_one_iff.mp single
      exact Nat.lt_succ_of_le (UInt32.le_iff_toNat_le.mp value)
    · exact ih (by omega) d member

end OciWrapper.Text
