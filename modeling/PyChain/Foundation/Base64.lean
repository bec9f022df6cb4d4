import PyChain.Foundation.Text

/-!
# Base64

The standard alphabet with padding.  Reading is strict about the alphabet, the
grouping and the place of the padding; it does not look at the unused low bits
of a padded group, so a reader that wants one spelling per byte string compares
with the encoding.
-/

namespace PyChain
namespace Foundation
namespace Base64

def digit (n : Nat) : Char :=
  if n < 26 then Char.ofNat (65 + n)
  else if n < 52 then Char.ofNat (71 + n)
  else if n < 62 then Char.ofNat (n - 4)
  else if n = 62 then '+'
  else '/'

def value (c : Char) : Option Nat :=
  if 65 ≤ c.toNat ∧ c.toNat ≤ 90 then some (c.toNat - 65)
  else if 97 ≤ c.toNat ∧ c.toNat ≤ 122 then some (c.toNat - 71)
  else if 48 ≤ c.toNat ∧ c.toNat ≤ 57 then some (c.toNat + 4)
  else if c = '+' then some 62
  else if c = '/' then some 63
  else none

def encode : Bytes -> Str
  | [] => []
  | [a] => [digit (a.toNat / 4), digit (a.toNat % 4 * 16), '=', '=']
  | [a, b] =>
      [digit (a.toNat / 4), digit (a.toNat % 4 * 16 + b.toNat / 16),
        digit (b.toNat % 16 * 4), '=']
  | a :: b :: c :: rest =>
      digit (a.toNat / 4) :: digit (a.toNat % 4 * 16 + b.toNat / 16) ::
        digit (b.toNat % 16 * 4 + c.toNat / 64) :: digit (c.toNat % 64) :: encode rest

/-- The bytes of a group that ends the text. -/
def decodeLast (a b c d : Char) : Option Bytes :=
  match value a, value b, value c, value d with
  | some w, some x, some y, some z =>
      some [UInt8.ofNat (w * 4 + x / 16), UInt8.ofNat (x % 16 * 16 + y / 4),
        UInt8.ofNat (y % 4 * 64 + z)]
  | some w, some x, some y, none =>
      if d = '=' then
        some [UInt8.ofNat (w * 4 + x / 16), UInt8.ofNat (x % 16 * 16 + y / 4)]
      else none
  | some w, some x, none, none =>
      if c = '=' ∧ d = '=' then some [UInt8.ofNat (w * 4 + x / 16)] else none
  | _, _, _, _ => none

def decode : Str -> Option Bytes
  | [] => some []
  | [a, b, c, d] => decodeLast a b c d
  | a :: b :: c :: d :: rest =>
      match value a, value b, value c, value d, decode rest with
      | some w, some x, some y, some z, some bytes =>
          some (UInt8.ofNat (w * 4 + x / 16) :: UInt8.ofNat (x % 16 * 16 + y / 4) ::
            UInt8.ofNat (y % 4 * 64 + z) :: bytes)
      | _, _, _, _, _ => none
  | _ => none

theorem digit_spec : forall n, n < 64 ->
    value (digit n) = some n ∧ (digit n).toNat < 128 ∧ digit n ≠ '=' := by
  decide

theorem group_bytes (a b c : UInt8) :
    UInt8.ofNat (a.toNat / 4 * 4 + (a.toNat % 4 * 16 + b.toNat / 16) / 16) = a ∧
      UInt8.ofNat ((a.toNat % 4 * 16 + b.toNat / 16) % 16 * 16 +
        (b.toNat % 16 * 4 + c.toNat / 64) / 4) = b ∧
      UInt8.ofNat ((b.toNat % 16 * 4 + c.toNat / 64) % 4 * 64 + c.toNat % 64) = c := by
  have ha : a.toNat < 256 := a.toNat_lt
  have hb : b.toNat < 256 := b.toNat_lt
  have hc : c.toNat < 256 := c.toNat_lt
  refine ⟨ofNat_eq_byte ?_, ofNat_eq_byte ?_, ofNat_eq_byte ?_⟩
  · omega
  · omega
  · omega

theorem value_padding : value '=' = none := by
  decide

theorem decode_encode (data : Bytes) : decode (encode data) = some data := by
  induction data using encode.induct with
  | case1 => rfl
  | case2 a =>
      have ha : a.toNat < 256 := a.toNat_lt
      rcases digit_spec (a.toNat / 4) (by omega) with ⟨hfirst, _, _⟩
      rcases digit_spec (a.toNat % 4 * 16) (by omega) with ⟨hsecond, _, _⟩
      have hbyte : UInt8.ofNat (a.toNat / 4 * 4 + a.toNat % 4 * 16 / 16) = a :=
        ofNat_eq_byte (by omega)
      simp only [encode, decode, decodeLast, hfirst, hsecond, value_padding, and_self, if_true,
        hbyte]
  | case3 a b =>
      have ha : a.toNat < 256 := a.toNat_lt
      have hb : b.toNat < 256 := b.toNat_lt
      rcases digit_spec (a.toNat / 4) (by omega) with ⟨hfirst, _, _⟩
      rcases digit_spec (a.toNat % 4 * 16 + b.toNat / 16) (by omega) with ⟨hsecond, _, _⟩
      rcases digit_spec (b.toNat % 16 * 4) (by omega) with ⟨hthird, _, _⟩
      have hbytes : UInt8.ofNat (a.toNat / 4 * 4 + (a.toNat % 4 * 16 + b.toNat / 16) / 16) = a ∧
          UInt8.ofNat ((a.toNat % 4 * 16 + b.toNat / 16) % 16 * 16 +
            b.toNat % 16 * 4 / 4) = b :=
        ⟨ofNat_eq_byte (by omega), ofNat_eq_byte (by omega)⟩
      simp only [encode, decode, decodeLast, hfirst, hsecond, hthird, value_padding, if_true,
        hbytes.left, hbytes.right]
  | case4 a b c rest ih =>
      have ha : a.toNat < 256 := a.toNat_lt
      have hb : b.toNat < 256 := b.toNat_lt
      have hc : c.toNat < 256 := c.toNat_lt
      rcases digit_spec (a.toNat / 4) (by omega) with ⟨hfirst, _, _⟩
      rcases digit_spec (a.toNat % 4 * 16 + b.toNat / 16) (by omega) with ⟨hsecond, _, _⟩
      rcases digit_spec (b.toNat % 16 * 4 + c.toNat / 64) (by omega) with ⟨hthird, _, _⟩
      rcases digit_spec (c.toNat % 64) (by omega) with ⟨hfourth, _, _⟩
      rcases group_bytes a b c with ⟨hone, htwo, hthree⟩
      rw [encode]
      cases hrest : encode rest with
      | nil =>
          rw [hrest] at ih
          have hnil : rest = [] := (Option.some.inj ih).symm
          simp only [decode, decodeLast, hfirst, hsecond, hthird, hfourth, hone, htwo, hthree,
            hnil]
      | cons e tail =>
          rw [hrest] at ih
          simp only [decode, hfirst, hsecond, hthird, hfourth, ih, hone, htwo, hthree]

theorem encode_length (data : Bytes) :
    (encode data).length = 4 * ((data.length + 2) / 3) := by
  induction data using encode.induct with
  | case1 => rfl
  | case2 a => simp [encode]
  | case3 a b => simp [encode]
  | case4 a b c rest ih =>
      rw [encode]
      simp only [List.length_cons, ih]
      omega

/-- The padding fills the last group. -/
theorem encode_padding (data : Bytes) :
    ((encode data).reverse.takeWhile (fun c => c = '=')).length = (3 - data.length % 3) % 3 := by
  induction data using encode.induct with
  | case1 => rfl
  | case2 a =>
      have ha : a.toNat < 256 := a.toNat_lt
      rcases digit_spec (a.toNat % 4 * 16) (by omega) with ⟨_, _, hsecond⟩
      simp [encode, List.takeWhile, hsecond]
  | case3 a b =>
      have hb : b.toNat < 256 := b.toNat_lt
      rcases digit_spec (b.toNat % 16 * 4) (by omega) with ⟨_, _, hthird⟩
      simp [encode, List.takeWhile, hthird]
  | case4 a b c rest ih =>
      have hc : c.toNat < 256 := c.toNat_lt
      rcases digit_spec (c.toNat % 64) (by omega) with ⟨_, _, hfourth⟩
      have hlength := encode_length rest
      rw [encode]
      simp only [List.reverse_cons, List.append_assoc, List.cons_append, List.nil_append,
        List.takeWhile_append]
      by_cases hrest : rest = []
      · rw [hrest]
        simp [encode, hfourth]
      · have hpos : 0 < rest.length := List.length_pos_iff.mpr hrest
        have hpart : ((encode rest).reverse.takeWhile (fun c => c = '=')).length ≠
            (encode rest).reverse.length := by
          rw [ih, List.length_reverse, hlength]
          omega
        rw [if_neg hpart, ih]
        simp only [List.length_cons]
        omega

/-- The characters of an encoding. -/
theorem encode_digits (data : Bytes) :
    forall c, c ∈ encode data -> c = '=' ∨ exists n, n < 64 ∧ c = digit n := by
  have hdigit : forall n, n < 64 -> digit n = '=' ∨ exists m, m < 64 ∧ digit n = digit m :=
    fun n hn => Or.inr ⟨n, hn, rfl⟩
  induction data using encode.induct with
  | case1 => exact List.forall_mem_nil _
  | case2 a =>
      have ha : a.toNat < 256 := a.toNat_lt
      exact List.forall_mem_cons.mpr ⟨hdigit _ (by omega), List.forall_mem_cons.mpr
        ⟨hdigit _ (by omega), List.forall_mem_cons.mpr ⟨Or.inl rfl, List.forall_mem_cons.mpr
          ⟨Or.inl rfl, List.forall_mem_nil _⟩⟩⟩⟩
  | case3 a b =>
      have ha : a.toNat < 256 := a.toNat_lt
      have hb : b.toNat < 256 := b.toNat_lt
      exact List.forall_mem_cons.mpr ⟨hdigit _ (by omega), List.forall_mem_cons.mpr
        ⟨hdigit _ (by omega), List.forall_mem_cons.mpr ⟨hdigit _ (by omega),
          List.forall_mem_cons.mpr ⟨Or.inl rfl, List.forall_mem_nil _⟩⟩⟩⟩
  | case4 a b c rest ih =>
      have ha : a.toNat < 256 := a.toNat_lt
      have hb : b.toNat < 256 := b.toNat_lt
      have hc : c.toNat < 256 := c.toNat_lt
      exact List.forall_mem_cons.mpr ⟨hdigit _ (by omega), List.forall_mem_cons.mpr
        ⟨hdigit _ (by omega), List.forall_mem_cons.mpr ⟨hdigit _ (by omega),
          List.forall_mem_cons.mpr ⟨hdigit _ (by omega), ih⟩⟩⟩⟩

theorem encode_ascii (data : Bytes) : IsAscii (encode data) := by
  intro c hc
  rcases encode_digits data c hc with hpad | ⟨n, hn, hdigit⟩
  · rw [hpad]
    decide
  · rw [hdigit]
    exact (digit_spec n hn).right.left

theorem encode_ne_nil {data : Bytes} (h : data ≠ []) : encode data ≠ [] := by
  intro hnil
  have hdecode := decode_encode data
  rw [hnil] at hdecode
  exact h (Option.some.inj hdecode).symm

end Base64
end Foundation
end PyChain
