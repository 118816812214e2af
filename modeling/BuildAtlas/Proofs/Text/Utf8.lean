import BuildAtlas.Text.Lossy
import Mathlib.Data.String.Basic

/-!
# BuildAtlas.Proofs.Text.Utf8

Texts and their bytes.

The reader that takes every byte string reads the bytes of a text as this text
(`ofBytesLossy_utf8`), and texts stand in the order of their bytes (`utf8_lt_utf8`): a character
comes before another one when its bytes do.
-/

namespace BuildAtlas.Text

/-- The bytes of a text. -/
def utf8 (text : String) : List UInt8 :=
  text.toUTF8.data.toList

theorem utf8_eq (text : String) : utf8 text = text.toList.flatMap String.utf8EncodeChar := by
  conv_lhs => rw [← String.ofList_toList (s := text)]
  exact List.toList_data_toByteArray

/-! ### Reading -/

/-- A byte that may come next carries six bits on. -/
theorem readByte_some {begun : PartialChar} {bits : Nat} (hbits : bits < 64)
    (hlow : begun.low.toNat ≤ bits + 128) (hhigh : bits + 128 ≤ begun.high.toNat) :
    readByte (some begun) (UInt8.ofNat (bits + 128)) =
      match begun.further with
      | 0 => ([Char.ofNat (begun.bits * 64 + bits)], none)
      | further + 1 => ([], some { bits := begun.bits * 64 + bits, further }) := by
  have hbyte : (UInt8.ofNat (bits + 128)).toNat = bits + 128 := by
    rw [UInt8.toNat_ofNat']
    omega
  have hrange : begun.low ≤ UInt8.ofNat (bits + 128) ∧ UInt8.ofNat (bits + 128) ≤ begun.high := by
    rw [UInt8.le_iff_toNat_le, UInt8.le_iff_toNat_le, hbyte]
    exact ⟨hlow, hhigh⟩
  rw [readByte, if_pos hrange]
  cases begun.further with
  | zero => simp only [hbyte, Nat.add_sub_cancel]
  | succ further => simp only [hbyte, Nat.add_sub_cancel]

theorem readByte_first_of_two {bits : Nat} (hlow : 2 ≤ bits) (hhigh : bits < 32) :
    readByte none (UInt8.ofNat (bits + 192)) = ([], some { bits, further := 0 }) := by
  revert hlow
  decide +revert

theorem readByte_first_of_three {bits : Nat} (h : bits < 16) :
    readByte none (UInt8.ofNat (bits + 224)) = ([], some
      { bits
        further := 1
        low := if bits = 0 then 0xA0 else 0x80
        high := if bits = 13 then 0x9F else 0xBF }) := by
  decide +revert

theorem readByte_first_of_four {bits : Nat} (h : bits < 5) :
    readByte none (UInt8.ofNat (bits + 240)) = ([], some
      { bits
        further := 2
        low := if bits = 0 then 0x90 else 0x80
        high := if bits = 4 then 0x8F else 0xBF }) := by
  decide +revert

theorem readBytes_cons (state : Option PartialChar) (byte : UInt8) (bytes : List UInt8) :
    readBytes state (byte :: bytes) =
      (readByte state byte).1 ++ readBytes (readByte state byte).2 bytes :=
  rfl

/-- The bytes of a character are read as this character. -/
theorem readBytes_utf8EncodeChar_append (c : Char) (rest : List UInt8) :
    readBytes none (String.utf8EncodeChar c ++ rest) = c :: readBytes none rest := by
  have hvalid : c.val.isValidChar := c.valid
  have hchar : Char.ofNat c.val.toNat = c := Char.ofNat_toNat c
  simp only [UInt32.isValidChar, Nat.isValidChar] at hvalid
  rw [String.utf8EncodeChar]
  generalize c.val.toNat = code at *
  -- one arm for each number of bytes; the bits are put together again at the end of each
  split
  · rename_i hone
    have hbyte : (UInt8.ofNat code).toNat = code := by
      rw [UInt8.toNat_ofNat']
      omega
    have hsmall : UInt8.ofNat code < 0x80 := by
      rw [UInt8.lt_iff_toNat_lt, hbyte]
      exact Nat.lt_succ_of_le hone
    rw [List.singleton_append, readBytes_cons, readByte, beginChar, if_pos hsmall, hbyte, hchar]
    rfl
  · split
    · rw [List.cons_append, List.singleton_append, readBytes_cons, readBytes_cons,
        readByte_first_of_two (by omega) (by omega),
        readByte_some (by omega) (by simp) (by simp; omega)]
      rw [show code / 64 % 32 * 64 + code % 64 = code by omega, hchar]
      rfl
    · split
      · have hlow : (if code / 4096 % 16 = 0 then (0xA0 : UInt8) else 0x80).toNat ≤
            code / 64 % 64 + 128 := by
          split <;> simp only [UInt8.reduceToNat] <;> omega
        have hhigh : code / 64 % 64 + 128 ≤
            (if code / 4096 % 16 = 13 then (0x9F : UInt8) else 0xBF).toNat := by
          split <;> simp only [UInt8.reduceToNat] <;> omega
        rw [List.cons_append, List.cons_append, List.singleton_append, readBytes_cons,
          readBytes_cons, readBytes_cons, readByte_first_of_three (by omega),
          readByte_some (by omega) hlow hhigh, readByte_some (by omega) (by simp) (by simp; omega)]
        rw [show (code / 4096 % 16 * 64 + code / 64 % 64) * 64 + code % 64 = code by omega, hchar]
        rfl
      · have hfirst : code / 262144 % 8 = code / 262144 := by omega
        have hlow : (if code / 262144 = 0 then (0x90 : UInt8) else 0x80).toNat ≤
            code / 4096 % 64 + 128 := by
          split <;> simp only [UInt8.reduceToNat] <;> omega
        have hhigh : code / 4096 % 64 + 128 ≤
            (if code / 262144 = 4 then (0x8F : UInt8) else 0xBF).toNat := by
          split <;> simp only [UInt8.reduceToNat] <;> omega
        rw [List.cons_append, List.cons_append, List.cons_append, List.singleton_append,
          readBytes_cons, readBytes_cons, readBytes_cons, readBytes_cons, hfirst,
          readByte_first_of_four (by omega), readByte_some (by omega) hlow hhigh,
          readByte_some (by omega) (by simp) (by simp; omega),
          readByte_some (by omega) (by simp) (by simp; omega)]
        rw [show ((code / 262144 * 64 + code / 4096 % 64) * 64 + code / 64 % 64) * 64 + code % 64
          = code by omega, hchar]
        rfl

/-- The bytes of a text are read as this text. -/
theorem ofBytesLossy_utf8 (text : String) : ofBytesLossy (utf8 text) = text := by
  have hread (cs : List Char) : readBytes none (cs.flatMap String.utf8EncodeChar) = cs := by
    induction cs with
    | nil => rfl
    | cons c cs ih => rw [List.flatMap_cons, readBytes_utf8EncodeChar_append, ih]
  rw [ofBytesLossy, utf8_eq, hread, String.ofList_toList]

/-! ### Order -/

theorem ofNat_cons_lt {a b : Nat} {rest more : List UInt8} (hle : a ≤ b) (hb : b < 256)
    (hrest : a = b → rest < more) : UInt8.ofNat a :: rest < UInt8.ofNat b :: more := by
  rw [List.cons_lt_cons_iff, UInt8.lt_iff_toNat_lt, UInt8.toNat_ofNat', UInt8.toNat_ofNat']
  rcases Nat.eq_or_lt_of_le hle with rfl | hlt
  · exact .inr ⟨rfl, hrest rfl⟩
  · exact .inl (by omega)

/-- The bytes of a character come before those of a greater one, whatever follows. -/
theorem utf8EncodeChar_append_lt {c d : Char} (h : c < d) (rest more : List UInt8) :
    String.utf8EncodeChar c ++ rest < String.utf8EncodeChar d ++ more := by
  have hcodes : c.val.toNat < d.val.toNat := h
  have hvalid : d.val.isValidChar := d.valid
  simp only [UInt32.isValidChar, Nat.isValidChar] at hvalid
  rw [String.utf8EncodeChar, String.utf8EncodeChar]
  generalize c.val.toNat = code at *
  generalize d.val.toNat = greater at *
  -- more bytes begin with a greater one, and equally many are compared one by one
  split
  · split
    · exact ofNat_cons_lt (by omega) (by omega) (by omega)
    · split
      · exact ofNat_cons_lt (by omega) (by omega) (by omega)
      · split
        · exact ofNat_cons_lt (by omega) (by omega) (by omega)
        · exact ofNat_cons_lt (by omega) (by omega) (by omega)
  · rw [if_neg (show ¬ greater ≤ 127 by omega)]
    split
    · split
      · exact ofNat_cons_lt (by omega) (by omega) fun _ =>
          ofNat_cons_lt (by omega) (by omega) (by omega)
      · split
        · exact ofNat_cons_lt (by omega) (by omega) (by omega)
        · exact ofNat_cons_lt (by omega) (by omega) (by omega)
    · rw [if_neg (show ¬ greater ≤ 2047 by omega)]
      split
      · split
        · exact ofNat_cons_lt (by omega) (by omega) fun _ =>
            ofNat_cons_lt (by omega) (by omega) fun _ =>
              ofNat_cons_lt (by omega) (by omega) (by omega)
        · exact ofNat_cons_lt (by omega) (by omega) (by omega)
      · rw [if_neg (show ¬ greater ≤ 65535 by omega)]
        exact ofNat_cons_lt (by omega) (by omega) fun _ =>
          ofNat_cons_lt (by omega) (by omega) fun _ =>
            ofNat_cons_lt (by omega) (by omega) fun _ =>
              ofNat_cons_lt (by omega) (by omega) (by omega)

/-- The order of texts is that of their bytes. -/
theorem utf8_lt_utf8 {text other : String} (h : text < other) : utf8 text < utf8 other := by
  rw [String.lt_iff] at h
  rw [utf8_eq, utf8_eq]
  generalize text.toList = cs at h
  generalize other.toList = ds at h
  induction cs generalizing ds with
  | nil =>
      cases ds with
      | nil => exact absurd h (by decide)
      | cons d ds =>
          rw [List.flatMap_nil, List.flatMap_cons]
          obtain ⟨byte, bytes, hbytes⟩ :=
            List.exists_cons_of_ne_nil (String.utf8EncodeChar_ne_nil (c := d))
          rw [hbytes, List.cons_append]
          exact List.nil_lt_cons ..
  | cons c cs ih =>
      cases ds with
      | nil => exact absurd h (List.not_lt_nil _)
      | cons d ds =>
          rw [List.flatMap_cons, List.flatMap_cons]
          rcases List.cons_lt_cons_iff.1 h with hlt | ⟨rfl, hrest⟩
          · exact utf8EncodeChar_append_lt hlt ..
          · exact List.append_left_lt (ih _ hrest)

end BuildAtlas.Text
