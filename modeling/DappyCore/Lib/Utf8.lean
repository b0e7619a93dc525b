import Mathlib.Data.List.Basic

/-!
Texts as UTF-8 bytes. An ASCII byte stands for its own character wherever it occurs.
-/

namespace DappyCore.Lib.Utf8

/-- The bytes of a text. -/
def encode (text : List Char) : List UInt8 := text.flatMap String.utf8EncodeChar

/-- The text the bytes are of, if they are of one. -/
def decode (bytes : List UInt8) : Option (List Char) :=
  bytes.toByteArray.utf8Decode?.map Array.toList

lemma encode_append (s t : List Char) : encode (s ++ t) = encode s ++ encode t := by
  simp [encode]

@[simp] lemma decode_encode (text : List Char) : decode (encode text) = some text := by
  have h : (encode text).toByteArray = text.utf8Encode := rfl
  rw [decode, h, List.utf8Decode?_utf8Encode]
  rfl

lemma eq_encode_of_decode {bytes : List UInt8} {text : List Char}
    (h : decode bytes = some text) : bytes = encode text := by
  obtain ⟨chars, hc, rfl⟩ := Option.map_eq_some_iff.mp h
  have hs : bytes.toByteArray.utf8Decode?.isSome := by simp [hc]
  have he := ByteArray.utf8Encode_get_utf8Decode? (h := hs)
  simp only [hc, Option.get_some] at he
  have hl := congrArg (fun b => b.data.toList) he
  simpa [List.utf8Encode, encode] using hl.symm

/-! ### ASCII -/

lemma encode_ascii {c : Char} (h : c.toNat < 128) :
    String.utf8EncodeChar c = [UInt8.ofNat c.toNat] := by
  have hle : c.val.toNat ≤ 127 := Nat.le_of_lt_succ h
  unfold String.utf8EncodeChar
  simp only [hle, if_true]
  rfl

/-- The bytes of a character past ASCII are past ASCII. -/
lemma lt_of_mem_encodeChar {c : Char} {b : UInt8} (hb : b ∈ String.utf8EncodeChar c)
    (h : b.toNat < 128) : c.toNat < 128 := by
  have hle : c.val.toNat ≤ 127 := by
    by_contra hlt
    unfold String.utf8EncodeChar at hb
    simp only [hlt, if_false] at hb
    split_ifs at hb <;>
      simp only [List.mem_cons, List.not_mem_nil, or_false] at hb <;>
      rcases hb with rfl | rfl | rfl | rfl <;>
      simp only [UInt8.toNat_ofNat'] at h <;>
      omega
  exact Nat.lt_succ_of_le hle

lemma ascii_of_mem_encodeChar {c : Char} {b : UInt8} (hb : b ∈ String.utf8EncodeChar c)
    (h : b.toNat < 128) : c = Char.ofNat b.toNat := by
  have hlt := lt_of_mem_encodeChar hb h
  rw [encode_ascii hlt, List.mem_singleton] at hb
  subst hb
  have hmod : (UInt8.ofNat c.toNat).toNat = c.toNat := by
    rw [UInt8.toNat_ofNat']
    exact Nat.mod_eq_of_lt (by omega)
  rw [hmod, Char.ofNat_toNat]

/-- The byte of an ASCII character is among the bytes of no other. -/
lemma eq_of_mem_encodeChar {c d : Char} (hd : d.toNat < 128)
    (h : UInt8.ofNat d.toNat ∈ String.utf8EncodeChar c) : c = d := by
  have hbyte : (UInt8.ofNat d.toNat).toNat = d.toNat := by
    rw [UInt8.toNat_ofNat']
    exact Nat.mod_eq_of_lt (by omega)
  rw [ascii_of_mem_encodeChar h (by omega), hbyte, Char.ofNat_toNat]

lemma mem_of_mem_encode {text : List Char} {b : UInt8} (hb : b ∈ encode text)
    (h : b.toNat < 128) : Char.ofNat b.toNat ∈ text := by
  obtain ⟨c, hc, hbc⟩ := List.mem_flatMap.mp hb
  exact ascii_of_mem_encodeChar hbc h ▸ hc

end DappyCore.Lib.Utf8
