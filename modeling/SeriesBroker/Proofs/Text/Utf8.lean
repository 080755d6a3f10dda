import Mathlib.Algebra.Group.Nat.Defs
import Mathlib.Tactic.SplitIfs
import SeriesBroker.Text.Utf8

/-! # ASCII in UTF-8

    A byte below 0x80 is a character of its own, wherever it stands. In the other direction the
    characters of several bytes are all above that. So where a text of ASCII characters is read,
    the bytes are these characters. The zero character is left out, since it also stands for
    numbers that are no characters.
-/

namespace SeriesBroker.Text

/-! ### Symbols one by one -/

theorem decodeOnto_append (inner outer : List Symbol) (bytes : List UInt8) :
    decodeOnto (inner ++ outer) bytes = outer.reverse ++ decodeOnto inner bytes := by
  fun_induction decodeOnto inner bytes with
  | case1 inner => rw [decodeOnto, List.reverse_append]
  | case2 inner byte rest step ih =>
    -- The next symbol goes before the inner ones, so the outer ones stay at the end.
    rw [decodeOnto]
    exact ih

@[simp] theorem decodeUtf8_nil : decodeUtf8 [] = [] := by
  rw [decodeUtf8, decodeOnto, List.reverse_nil]

theorem decodeUtf8_cons (byte : UInt8) (rest : List UInt8) :
    decodeUtf8 (byte :: rest) =
      (readSymbol byte rest).1 :: decodeUtf8 (readSymbol byte rest).2 := by
  rw [decodeUtf8, decodeOnto]
  exact decodeOnto_append [] [_] _

theorem decodeUtf8_eq_nil {bytes : List UInt8} : decodeUtf8 bytes = [] ↔ bytes = [] := by
  cases bytes with
  | nil => simp
  | cons byte rest => simp [decodeUtf8_cons]

/-! ### ASCII characters -/

/-- Whether a character is one of ASCII other than zero. -/
def IsAscii (c : Char) : Prop := 0 < c.toNat ∧ c.toNat < 0x80

/-- Only the zero character stands for another number than its own. -/
theorem IsAscii.toNat_eq {number : Nat} (h : IsAscii (Char.ofNat number)) :
    (Char.ofNat number).toNat = number := by
  by_cases hvalid : number.isValidChar
  · rw [Char.ofNat, dif_pos hvalid]
    rfl
  · have hpos := h.1
    rw [Char.ofNat, dif_neg hvalid] at hpos
    cases hpos

def asciiByte (c : Char) : UInt8 := UInt8.ofNat c.toNat

theorem toNat_asciiByte {c : Char} (h : IsAscii c) : (asciiByte c).toNat = c.toNat := by
  have hsmall : c.toNat < 0x80 := h.2
  rw [asciiByte, UInt8.toNat_ofNat']
  omega

theorem readSymbol_asciiByte {c : Char} (h : IsAscii c) (rest : List UInt8) :
    readSymbol (asciiByte c) rest = (some c, rest) := by
  rw [readSymbol, toNat_asciiByte h, if_pos h.2, Char.ofNat_toNat]

/-! ### Characters of several bytes -/

/-- The number that is read is at least what is known of it, moved up by the bytes to come. -/
theorem exists_code_of_readContinuation {count low high code : Nat} {bytes rest : List UInt8}
    {c : Char} (h : readContinuation count low high code bytes = (some c, rest)) :
    ∃ number, code * 64 ^ count ≤ number ∧ c = Char.ofNat number := by
  induction count generalizing low high code bytes with
  | zero =>
    cases h
    exact ⟨code, by omega, rfl⟩
  | succ count ih =>
    cases bytes with
    | nil => cases h
    | cons byte bytes =>
      rw [readContinuation] at h
      split at h
      · obtain ⟨number, hle, hc⟩ := ih h
        refine ⟨number, Nat.le_trans ?_ hle, hc⟩
        rw [Nat.pow_succ', ← Nat.mul_assoc]
        exact Nat.mul_le_mul_right _ (Nat.le_add_right _ _)
      · cases h

/-- The limits of a leading byte keep all numbers out that one byte could say. -/
theorem leadingByte_eq_some {byte count low high : Nat}
    (h : leadingByte byte = some (count, low, high)) :
    ∃ further, count = further + 1 ∧ 0x80 ≤ low ∧ high ≤ 0xbf ∧
      0x80 ≤ (byte % Nat.pow 2 (6 - count) * 64 + (low - 0x80)) * 64 ^ further := by
  unfold leadingByte at h
  split_ifs at h <;> cases h
  all_goals
    refine ⟨_, rfl, by omega, by omega, ?_⟩
    simp only [Nat.pow_eq, Nat.reduceSub, Nat.reducePow]
    omega

theorem not_isAscii_of_readSymbol {byte : UInt8} {bytes rest : List UInt8} {c : Char}
    (hbyte : ¬ byte.toNat < 0x80) (h : readSymbol byte bytes = (some c, rest)) : ¬ IsAscii c := by
  rw [readSymbol, if_neg hbyte] at h
  split at h
  · cases h
  · next count low high hlead =>
    obtain ⟨further, rfl, hlow, hhigh, hbound⟩ := leadingByte_eq_some hlead
    cases bytes with
    | nil => cases h
    | cons next bytes =>
      rw [readContinuation] at h
      split at h
      · next hnext =>
        obtain ⟨number, hle, rfl⟩ := exists_code_of_readContinuation h
        -- The limits hold for the next byte only, and the bytes behind it can only add.
        have hnumber : 0x80 ≤ number := by
          refine Nat.le_trans hbound (Nat.le_trans (Nat.mul_le_mul_right _ ?_) hle)
          simp only [continues, Bool.and_eq_true, decide_eq_true_eq] at hnext
          omega
        intro hascii
        have hsmall := hascii.2
        rw [hascii.toNat_eq] at hsmall
        omega
      · cases h

/-! ### Texts of ASCII characters -/

theorem decodeUtf8_eq_cons_of_isAscii {c : Char} (hc : IsAscii c) {bytes : List UInt8}
    {text : List Symbol} : decodeUtf8 bytes = some c :: text ↔
      ∃ rest, bytes = asciiByte c :: rest ∧ decodeUtf8 rest = text := by
  constructor
  · intro h
    cases bytes with
    | nil => cases h.symm.trans decodeUtf8_nil
    | cons byte rest =>
      rw [decodeUtf8_cons, List.cons.injEq] at h
      obtain ⟨hfirst, hrest⟩ := h
      by_cases hbyte : byte.toNat < 0x80
      · rw [readSymbol, if_pos hbyte] at hfirst hrest
        cases hfirst
        exact ⟨rest, by rw [asciiByte, hc.toNat_eq, UInt8.ofNat_toNat], hrest⟩
      · exact absurd hc (not_isAscii_of_readSymbol hbyte (Prod.ext hfirst rfl))
  · rintro ⟨rest, rfl, rfl⟩
    rw [decodeUtf8_cons, readSymbol_asciiByte hc]

/-- Bytes are read as a text of ASCII characters exactly if they are these characters. -/
theorem decodeUtf8_eq_map_some {text : List Char} (h : ∀ c ∈ text, IsAscii c)
    {bytes : List UInt8} :
    decodeUtf8 bytes = text.map some ↔ bytes = text.map asciiByte := by
  induction text generalizing bytes with
  | nil => exact decodeUtf8_eq_nil
  | cons c text ih =>
    obtain ⟨hc, htext⟩ := List.forall_mem_cons.1 h
    rw [List.map_cons, decodeUtf8_eq_cons_of_isAscii hc, List.map_cons]
    constructor
    · rintro ⟨rest, rfl, hrest⟩
      rw [(ih htext).1 hrest]
    · rintro rfl
      exact ⟨_, rfl, (ih htext).2 rfl⟩

end SeriesBroker.Text
