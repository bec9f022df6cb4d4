import Mathlib.Data.List.Basic
import Mathlib.Data.Char

/-!
# Text and bytes

Strings are lists of Unicode scalar values and byte strings are lists of
octets.  This module fixes the two textual encodings used everywhere else:
hexadecimal digits and UTF-8.
-/

namespace PyChain
namespace Foundation

/-- A text string, one scalar value per position. -/
abbrev Str : Type := List Char

/-- Membership tests on strings in different modules decide by this one instance. -/
instance instLawfulBEqStr : LawfulBEq Str :=
  inferInstance

abbrev Bytes : Type := List UInt8

abbrev str (literal : String) : Str := literal.toList

/-!
## Hexadecimal

Rendering is lowercase.  Reading a byte string accepts both cases and skips
ASCII whitespace between bytes, never inside one.
-/

def hexDigit (n : Nat) : Char :=
  if n < 10 then Char.ofNat (48 + n) else Char.ofNat (87 + n)

def hexValue (c : Char) : Option Nat :=
  if 48 ≤ c.toNat ∧ c.toNat ≤ 57 then some (c.toNat - 48)
  else if 97 ≤ c.toNat ∧ c.toNat ≤ 102 then some (c.toNat - 87)
  else if 65 ≤ c.toNat ∧ c.toNat ≤ 70 then some (c.toNat - 55)
  else none

def isLowerHex (c : Char) : Bool :=
  (48 ≤ c.toNat && c.toNat ≤ 57) || (97 ≤ c.toNat && c.toNat ≤ 102)

def isAsciiSpace (c : Char) : Bool :=
  c.toNat = 32 || (9 ≤ c.toNat && c.toNat ≤ 13)

def byteHex (b : UInt8) : Str :=
  [hexDigit (b.toNat / 16), hexDigit (b.toNat % 16)]

def toHex (data : Bytes) : Str :=
  data.flatMap byteHex

def fromHex : Str -> Option Bytes
  | [] => some []
  | c :: rest =>
      if isAsciiSpace c then fromHex rest
      else
        match rest with
        | [] => none
        | d :: tail =>
            match hexValue c, hexValue d, fromHex tail with
            | some high, some low, some bytes =>
                some (UInt8.ofNat (16 * high + low) :: bytes)
            | _, _, _ => none

theorem hexDigit_spec : forall n, n < 16 ->
    hexValue (hexDigit n) = some n ∧ isLowerHex (hexDigit n) = true ∧
      isAsciiSpace (hexDigit n) = false := by
  decide

theorem toHex_cons (b : UInt8) (rest : Bytes) :
    toHex (b :: rest) =
      hexDigit (b.toNat / 16) :: hexDigit (b.toNat % 16) :: toHex rest := rfl

theorem fromHex_toHex (data : Bytes) : fromHex (toHex data) = some data := by
  induction data with
  | nil =>
      rfl
  | cons b rest ih =>
      have hlt : b.toNat < 256 := b.toNat_lt
      rcases hexDigit_spec (b.toNat / 16) (by omega) with ⟨hhigh, _, hspace⟩
      rcases hexDigit_spec (b.toNat % 16) (by omega) with ⟨hlow, _, _⟩
      rw [toHex_cons, fromHex, hspace]
      simp only [Bool.false_eq_true, if_false, hhigh, hlow, ih]
      have hsum : 16 * (b.toNat / 16) + b.toNat % 16 = b.toNat := by
        omega
      rw [hsum, UInt8.ofNat_toNat]

theorem toHex_injective {x y : Bytes} (h : toHex x = toHex y) : x = y := by
  have hread : fromHex (toHex x) = fromHex (toHex y) := by
    rw [h]
  rw [fromHex_toHex, fromHex_toHex] at hread
  exact Option.some.inj hread

theorem toHex_length (data : Bytes) : (toHex data).length = 2 * data.length := by
  induction data with
  | nil =>
      rfl
  | cons b rest ih =>
      rw [toHex_cons, List.length_cons, List.length_cons, ih, List.length_cons]
      omega

theorem toHex_isLowerHex (data : Bytes) : (toHex data).all isLowerHex = true := by
  induction data with
  | nil =>
      rfl
  | cons b rest ih =>
      have hlt : b.toNat < 256 := b.toNat_lt
      rcases hexDigit_spec (b.toNat / 16) (by omega) with ⟨_, hhigh, _⟩
      rcases hexDigit_spec (b.toNat % 16) (by omega) with ⟨_, hlow, _⟩
      rw [toHex_cons, List.all_cons, List.all_cons, hhigh, hlow, ih]
      rfl

theorem exists_hexDigit {c : Char} (h : isLowerHex c = true) :
    exists n, n < 16 ∧ hexDigit n = c := by
  simp only [isLowerHex, Bool.or_eq_true, Bool.and_eq_true, decide_eq_true_eq] at h
  rcases h with hdecimal | hletter
  · refine ⟨c.toNat - 48, by omega, ?_⟩
    unfold hexDigit
    rw [if_pos (by omega), Nat.add_sub_cancel' hdecimal.left, Char.ofNat_toNat]
  · refine ⟨c.toNat - 87, by omega, ?_⟩
    unfold hexDigit
    rw [if_neg (by omega), Nat.add_sub_cancel' (by omega), Char.ofNat_toNat]

/-- Every lowercase text of even length is the rendering of some bytes. -/
theorem exists_toHex (n : Nat) : forall text : Str, text.all isLowerHex = true ->
    text.length = 2 * n -> exists data : Bytes, data.length = n ∧ toHex data = text := by
  induction n with
  | zero =>
      intro text _ hlength
      exact ⟨[], rfl, (List.length_eq_zero_iff.mp hlength).symm⟩
  | succ n ih =>
      intro text hlower hlength
      match text, hlength with
      | c :: d :: rest, hlength =>
          simp only [List.all_cons, Bool.and_eq_true] at hlower
          rcases hlower with ⟨hc, hd, hrest⟩
          rcases exists_hexDigit hc with ⟨high, hhigh, rfl⟩
          rcases exists_hexDigit hd with ⟨low, hlow, rfl⟩
          rcases ih rest hrest (by simp only [List.length_cons] at hlength; omega) with
            ⟨data, hdata, rfl⟩
          have hbyte : (UInt8.ofNat (16 * high + low)).toNat = 16 * high + low := by
            rw [UInt8.toNat_ofNat']
            omega
          refine ⟨UInt8.ofNat (16 * high + low) :: data, by rw [List.length_cons, hdata], ?_⟩
          rw [toHex_cons, hbyte, show (16 * high + low) / 16 = high by omega,
            show (16 * high + low) % 16 = low by omega]

/-!
## UTF-8

Decoding is strict: overlong forms, surrogates and values past the last scalar
value are refused.
-/

def encodeUtf8 (text : Str) : Bytes :=
  text.flatMap String.utf8EncodeChar

def isContinuation (b : UInt8) : Bool :=
  0x80 ≤ b.toNat && b.toNat ≤ 0xBF

def decodeUtf8 : Bytes -> Option Str
  | [] => some []
  | a :: rest =>
      if a.toNat < 0x80 then
        (decodeUtf8 rest).map (fun tail => Char.ofNat a.toNat :: tail)
      else if 0xC2 ≤ a.toNat ∧ a.toNat ≤ 0xDF then
        match rest with
        | b :: rest =>
            if isContinuation b then
              (decodeUtf8 rest).map (fun tail =>
                Char.ofNat ((a.toNat - 0xC0) * 64 + (b.toNat - 0x80)) :: tail)
            else none
        | _ => none
      else if 0xE0 ≤ a.toNat ∧ a.toNat ≤ 0xEF then
        match rest with
        | b :: c :: rest =>
            let low := if a.toNat = 0xE0 then 0xA0 else 0x80
            let high := if a.toNat = 0xED then 0x9F else 0xBF
            if low ≤ b.toNat ∧ b.toNat ≤ high ∧ isContinuation c then
              (decodeUtf8 rest).map (fun tail =>
                Char.ofNat ((a.toNat - 0xE0) * 4096 + (b.toNat - 0x80) * 64 +
                  (c.toNat - 0x80)) :: tail)
            else none
        | _ => none
      else if 0xF0 ≤ a.toNat ∧ a.toNat ≤ 0xF4 then
        match rest with
        | b :: c :: d :: rest =>
            let low := if a.toNat = 0xF0 then 0x90 else 0x80
            let high := if a.toNat = 0xF4 then 0x8F else 0xBF
            if low ≤ b.toNat ∧ b.toNat ≤ high ∧ isContinuation c ∧ isContinuation d then
              (decodeUtf8 rest).map (fun tail =>
                Char.ofNat ((a.toNat - 0xF0) * 262144 + (b.toNat - 0x80) * 4096 +
                  (c.toNat - 0x80) * 64 + (d.toNat - 0x80)) :: tail)
            else none
        | _ => none
      else none

def IsAscii (text : Str) : Prop :=
  forall c, c ∈ text -> c.toNat < 128

instance : DecidablePred IsAscii :=
  fun text => List.decidableBAll (fun c : Char => c.toNat < 128) text

theorem isAscii_append {x y : Str} (hx : IsAscii x) (hy : IsAscii y) :
    IsAscii (x ++ y) := by
  intro c hc
  rcases List.mem_append.mp hc with h | h
  · exact hx c h
  · exact hy c h

theorem isAscii_cons {c : Char} {x : Str} (hc : c.toNat < 128) (hx : IsAscii x) :
    IsAscii (c :: x) := by
  intro d hd
  rcases List.mem_cons.mp hd with h | h
  · rw [h]
    exact hc
  · exact hx d h

theorem utf8EncodeChar_ascii {c : Char} (h : c.toNat < 128) :
    String.utf8EncodeChar c = [UInt8.ofNat c.toNat] := by
  have hval : c.val.toNat ≤ 127 := by
    have htoNat : c.val.toNat = c.toNat := rfl
    omega
  unfold String.utf8EncodeChar
  simp only [hval, if_true]
  rfl

theorem encodeUtf8_cons_ascii {c : Char} (h : c.toNat < 128) (rest : Str) :
    encodeUtf8 (c :: rest) = UInt8.ofNat c.toNat :: encodeUtf8 rest := by
  unfold encodeUtf8
  rw [List.flatMap_cons, utf8EncodeChar_ascii h]
  rfl

theorem decodeUtf8_encodeUtf8_ascii {text : Str} (h : IsAscii text) :
    decodeUtf8 (encodeUtf8 text) = some text := by
  induction text with
  | nil =>
      rfl
  | cons c rest ih =>
      have hc : c.toNat < 128 := h c List.mem_cons_self
      have hrest : IsAscii rest := fun d hd => h d (List.mem_cons_of_mem c hd)
      have hbyte : (UInt8.ofNat c.toNat).toNat = c.toNat := by
        rw [UInt8.toNat_ofNat']
        omega
      rw [encodeUtf8_cons_ascii hc, decodeUtf8.eq_def]
      simp only [hbyte, hc, if_true, ih hrest, Char.ofNat_toNat, Option.map_some]

theorem encodeUtf8_length_ascii {text : Str} (h : IsAscii text) :
    (encodeUtf8 text).length = text.length := by
  induction text with
  | nil =>
      rfl
  | cons c rest ih =>
      have hc : c.toNat < 128 := h c List.mem_cons_self
      have hrest : IsAscii rest := fun d hd => h d (List.mem_cons_of_mem c hd)
      rw [encodeUtf8_cons_ascii hc, List.length_cons, List.length_cons, ih hrest]

/-!
## UTF-8 outside ASCII
-/

theorem encodeUtf8_append (x y : Str) : encodeUtf8 (x ++ y) = encodeUtf8 x ++ encodeUtf8 y :=
  List.flatMap_append

theorem utf8EncodeChar_cases (c : Char) :
    (c.toNat < 128 ∧ String.utf8EncodeChar c = [UInt8.ofNat c.toNat]) ∨
      (128 ≤ c.toNat ∧ c.toNat < 0x800 ∧ String.utf8EncodeChar c =
        [UInt8.ofNat (0xC0 + c.toNat / 64), UInt8.ofNat (0x80 + c.toNat % 64)]) ∨
      (0x800 ≤ c.toNat ∧ c.toNat < 0x10000 ∧ String.utf8EncodeChar c =
        [UInt8.ofNat (0xE0 + c.toNat / 4096), UInt8.ofNat (0x80 + c.toNat / 64 % 64),
          UInt8.ofNat (0x80 + c.toNat % 64)]) ∨
      (0x10000 ≤ c.toNat ∧ String.utf8EncodeChar c =
        [UInt8.ofNat (0xF0 + c.toNat / 262144), UInt8.ofNat (0x80 + c.toNat / 4096 % 64),
          UInt8.ofNat (0x80 + c.toNat / 64 % 64), UInt8.ofNat (0x80 + c.toNat % 64)]) := by
  have hval : c.val.toNat = c.toNat := rfl
  have hscalar : c.toNat < 0x110000 := by
    have hvalid := c.valid
    simp only [UInt32.isValidChar, Nat.isValidChar, hval] at hvalid
    omega
  unfold String.utf8EncodeChar
  simp only [hval]
  split_ifs with hone htwo hthree
  · exact Or.inl ⟨by omega, rfl⟩
  · refine Or.inr (Or.inl ⟨by omega, by omega, ?_⟩)
    rw [Nat.mod_eq_of_lt (by omega), Nat.add_comm, Nat.add_comm (c.toNat % 64)]
  · refine Or.inr (Or.inr (Or.inl ⟨by omega, by omega, ?_⟩))
    rw [Nat.mod_eq_of_lt (by omega), Nat.add_comm, Nat.add_comm (c.toNat / 64 % 64),
      Nat.add_comm (c.toNat % 64)]
  · refine Or.inr (Or.inr (Or.inr ⟨by omega, ?_⟩))
    rw [Nat.mod_eq_of_lt (by omega), Nat.add_comm, Nat.add_comm (c.toNat / 4096 % 64),
      Nat.add_comm (c.toNat / 64 % 64), Nat.add_comm (c.toNat % 64)]

theorem toNat_ofNat_byte {n : Nat} (h : n < 256) : (UInt8.ofNat n).toNat = n := by
  rw [UInt8.toNat_ofNat']
  omega

/-- Outside ASCII every byte of a character has its high bit set. -/
theorem utf8EncodeChar_high {c : Char} (h : 128 ≤ c.toNat) :
    forall b, b ∈ String.utf8EncodeChar c -> 128 ≤ b.toNat := by
  have hhigh : forall n, 128 ≤ n -> n < 256 -> 128 ≤ (UInt8.ofNat n).toNat := by
    intro n hlow hlt
    rw [toNat_ofNat_byte hlt]
    exact hlow
  have hscalar := c.valid
  simp only [UInt32.isValidChar, Nat.isValidChar] at hscalar
  have hval : c.val.toNat = c.toNat := rfl
  intro b hb
  rcases utf8EncodeChar_cases c with hone | htwo | hthree | hfour
  · omega
  · rw [htwo.right.right] at hb
    simp only [List.mem_cons, List.not_mem_nil, or_false] at hb
    rcases hb with rfl | rfl
    · exact hhigh _ (by omega) (by omega)
    · exact hhigh _ (by omega) (by omega)
  · rw [hthree.right.right] at hb
    simp only [List.mem_cons, List.not_mem_nil, or_false] at hb
    rcases hb with rfl | rfl | rfl
    · exact hhigh _ (by omega) (by omega)
    · exact hhigh _ (by omega) (by omega)
    · exact hhigh _ (by omega) (by omega)
  · rw [hfour.right] at hb
    simp only [List.mem_cons, List.not_mem_nil, or_false] at hb
    rcases hb with rfl | rfl | rfl | rfl
    · exact hhigh _ (by omega) (by omega)
    · exact hhigh _ (by omega) (by omega)
    · exact hhigh _ (by omega) (by omega)
    · exact hhigh _ (by omega) (by omega)

theorem toNat_ofNat_char {n : Nat} (h : n < 0xD800 ∨ 0xDFFF < n ∧ n < 0x110000) :
    (Char.ofNat n).toNat = n := by
  unfold Char.ofNat
  rw [dif_pos h]
  rfl

theorem ofNat_eq_byte {n : Nat} {b : UInt8} (h : n = b.toNat) : UInt8.ofNat n = b := by
  rw [h, UInt8.ofNat_toNat]

theorem utf8EncodeChar_one {a : UInt8} (ha : a.toNat < 0x80) :
    String.utf8EncodeChar (Char.ofNat a.toNat) = [a] := by
  have hcode := toNat_ofNat_char (n := a.toNat) (by omega)
  rcases utf8EncodeChar_cases (Char.ofNat a.toNat) with hone | hmore | hmore | hmore
  · rw [hone.right, hcode, ofNat_eq_byte rfl]
  · omega
  · omega
  · omega

theorem utf8EncodeChar_two {a b : UInt8} (ha : 0xC2 ≤ a.toNat ∧ a.toNat ≤ 0xDF)
    (hb : isContinuation b = true) :
    String.utf8EncodeChar (Char.ofNat ((a.toNat - 0xC0) * 64 + (b.toNat - 0x80))) =
      [a, b] := by
  simp only [isContinuation, Bool.and_eq_true, decide_eq_true_eq] at hb
  generalize hn : (a.toNat - 0xC0) * 64 + (b.toNat - 0x80) = n
  have hcode := toNat_ofNat_char (n := n) (by omega)
  rcases utf8EncodeChar_cases (Char.ofNat n) with hless | heq | hmore | hmore
  · omega
  · rw [heq.right.right, hcode, ofNat_eq_byte (b := a) (by omega),
      ofNat_eq_byte (b := b) (by omega)]
  · omega
  · omega

theorem utf8EncodeChar_three {a b c : UInt8} (ha : 0xE0 ≤ a.toNat ∧ a.toNat ≤ 0xEF)
    (hleast : 0x80 ≤ b.toNat ∧ (a.toNat = 0xE0 -> 0xA0 ≤ b.toNat))
    (hmost : b.toNat ≤ 0xBF ∧ (a.toNat = 0xED -> b.toNat ≤ 0x9F))
    (hc : isContinuation c = true) :
    String.utf8EncodeChar (Char.ofNat ((a.toNat - 0xE0) * 4096 + (b.toNat - 0x80) * 64 +
      (c.toNat - 0x80))) = [a, b, c] := by
  simp only [isContinuation, Bool.and_eq_true, decide_eq_true_eq] at hc
  generalize hn : (a.toNat - 0xE0) * 4096 + (b.toNat - 0x80) * 64 + (c.toNat - 0x80) = n
  have hcode := toNat_ofNat_char (n := n) (by omega)
  rcases utf8EncodeChar_cases (Char.ofNat n) with hless | hless | heq | hmore
  · omega
  · omega
  · rw [heq.right.right, hcode, ofNat_eq_byte (b := a) (by omega),
      ofNat_eq_byte (b := b) (by omega), ofNat_eq_byte (b := c) (by omega)]
  · omega

theorem utf8EncodeChar_four {a b c d : UInt8} (ha : 0xF0 ≤ a.toNat ∧ a.toNat ≤ 0xF4)
    (hleast : 0x80 ≤ b.toNat ∧ (a.toNat = 0xF0 -> 0x90 ≤ b.toNat))
    (hmost : b.toNat ≤ 0xBF ∧ (a.toNat = 0xF4 -> b.toNat ≤ 0x8F))
    (hc : isContinuation c = true) (hd : isContinuation d = true) :
    String.utf8EncodeChar (Char.ofNat ((a.toNat - 0xF0) * 262144 + (b.toNat - 0x80) * 4096 +
      (c.toNat - 0x80) * 64 + (d.toNat - 0x80))) = [a, b, c, d] := by
  simp only [isContinuation, Bool.and_eq_true, decide_eq_true_eq] at hc hd
  generalize hn : (a.toNat - 0xF0) * 262144 + (b.toNat - 0x80) * 4096 +
    (c.toNat - 0x80) * 64 + (d.toNat - 0x80) = n
  have hcode := toNat_ofNat_char (n := n) (by omega)
  rcases utf8EncodeChar_cases (Char.ofNat n) with hless | hless | hless | heq
  · omega
  · omega
  · omega
  · rw [heq.right, hcode, ofNat_eq_byte (b := a) (by omega),
      ofNat_eq_byte (b := b) (by omega), ofNat_eq_byte (b := c) (by omega),
      ofNat_eq_byte (b := d) (by omega)]

theorem encodeUtf8_decoded {c : Char} {front rest : Bytes}
    (hfront : String.utf8EncodeChar c = front)
    (h : forall text, decodeUtf8 rest = some text -> encodeUtf8 text = rest) :
    forall text, (decodeUtf8 rest).map (fun tail => c :: tail) = some text ->
      encodeUtf8 text = front ++ rest := by
  intro text htext
  rcases Option.map_eq_some_iff.mp htext with ⟨tail, htail, rfl⟩
  have hcons : encodeUtf8 (c :: tail) = String.utf8EncodeChar c ++ encodeUtf8 tail :=
    List.flatMap_cons
  rw [hcons, hfront, h tail htail]

/-- Strict decoding only undoes encoding. -/
theorem encodeUtf8_decodeUtf8 (data : Bytes) :
    forall text, decodeUtf8 data = some text -> encodeUtf8 text = data := by
  fun_induction decodeUtf8 data with
  | case1 =>
      intro text h
      cases h
      rfl
  | case2 a rest hsmall ih => exact encodeUtf8_decoded (utf8EncodeChar_one hsmall) ih
  | case3 a hlarge htwo b rest hb ih =>
      exact encodeUtf8_decoded (utf8EncodeChar_two htwo hb) ih
  | case6 a hlarge htwo hthree b c rest low high hbc ih =>
      rcases hbc with ⟨hlow, hhigh, hc⟩
      have hleast : 0x80 ≤ b.toNat ∧ (a.toNat = 0xE0 -> 0xA0 ≤ b.toNat) := by
        by_cases ha : a.toNat = 0xE0
        · rw [show low = 0xA0 from if_pos ha] at hlow
          omega
        · rw [show low = 0x80 from if_neg ha] at hlow
          omega
      have hmost : b.toNat ≤ 0xBF ∧ (a.toNat = 0xED -> b.toNat ≤ 0x9F) := by
        by_cases ha : a.toNat = 0xED
        · rw [show high = 0x9F from if_pos ha] at hhigh
          omega
        · rw [show high = 0xBF from if_neg ha] at hhigh
          omega
      exact encodeUtf8_decoded (utf8EncodeChar_three hthree hleast hmost hc) ih
  | case9 a hlarge htwo hthree hfour b c d rest low high hbcd ih =>
      rcases hbcd with ⟨hlow, hhigh, hc, hd⟩
      have hleast : 0x80 ≤ b.toNat ∧ (a.toNat = 0xF0 -> 0x90 ≤ b.toNat) := by
        by_cases ha : a.toNat = 0xF0
        · rw [show low = 0x90 from if_pos ha] at hlow
          omega
        · rw [show low = 0x80 from if_neg ha] at hlow
          omega
      have hmost : b.toNat ≤ 0xBF ∧ (a.toNat = 0xF4 -> b.toNat ≤ 0x8F) := by
        by_cases ha : a.toNat = 0xF4
        · rw [show high = 0x8F from if_pos ha] at hhigh
          omega
        · rw [show high = 0xBF from if_neg ha] at hhigh
          omega
      exact encodeUtf8_decoded (utf8EncodeChar_four hfour hleast hmost hc hd) ih
  | _ =>
      intro text h
      cases h

end Foundation
end PyChain
