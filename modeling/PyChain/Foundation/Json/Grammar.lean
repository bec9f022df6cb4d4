import PyChain.Foundation.Json.Brackets
import PyChain.Foundation.Json.Parse

/-!
# The JSON grammar

The productions of JSON text over scalar values.  Each derivation carries its
nesting: how many arrays and objects are open at once at its deepest place.
-/

namespace PyChain
namespace Foundation
namespace Json
namespace Grammar

/-!
## Tokens
-/

def Blank (text : Str) : Prop :=
  forall c, c ∈ text -> isWhitespace c = true

/-- What stands between the quotes of a string. -/
inductive Chars : Str -> Prop where
  | empty : Chars []
  | unescaped {c : Char} {rest : Str} :
      32 ≤ c.toNat -> c ≠ '"' -> c ≠ '\\' -> Chars rest -> Chars (c :: rest)
  | escaped {c : Char} {rest : Str} :
      c ∈ ['"', '\\', '/', 'b', 'f', 'n', 'r', 't'] -> Chars rest -> Chars ('\\' :: c :: rest)
  | unicode {w x y z : Char} {code : Nat} {rest : Str} :
      hexCode w x y z = some code -> Chars rest ->
        Chars ('\\' :: 'u' :: w :: x :: y :: z :: rest)

def quoted (chars : Str) : Str :=
  '"' :: (chars ++ ['"'])

def Digits (text : Str) : Prop :=
  text ≠ [] ∧ forall c, c ∈ text -> c.isDigit = true

/-- The digits before a fraction: a single zero, or no zero in front. -/
def Whole (text : Str) : Prop :=
  text = ['0'] ∨ Digits text ∧ text.head? ≠ some '0'

def Fraction (text : Str) : Prop :=
  text = [] ∨ exists digits, Digits digits ∧ text = '.' :: digits

def Exponent (text : Str) : Prop :=
  text = [] ∨ exists e sign digits, (e = 'e' ∨ e = 'E') ∧
    (sign = [] ∨ sign = ['+'] ∨ sign = ['-']) ∧ Digits digits ∧ text = e :: (sign ++ digits)

def Number (text : Str) : Prop :=
  exists sign whole fraction exponent, (sign = [] ∨ sign = ['-']) ∧ Whole whole ∧
    Fraction fraction ∧ Exponent exponent ∧ text = sign ++ (whole ++ (fraction ++ exponent))

/-!
## Values
-/

mutual

inductive Value : Nat -> Str -> Prop where
  | null : Value 0 (Foundation.str "null")
  | bool (value : Bool) : Value 0 (Foundation.str (if value then "true" else "false"))
  | number {text : Str} : Number text -> Value 0 text
  | string {chars : Str} : Chars chars -> Value 0 (quoted chars)
  | emptyArray {blank : Str} : Blank blank -> Value 1 ('[' :: (blank ++ [']']))
  | array {n : Nat} {elements : Str} :
      Elements n elements -> Value (n + 1) ('[' :: (elements ++ [']']))
  | emptyObject {blank : Str} : Blank blank -> Value 1 ('{' :: (blank ++ ['}']))
  | object {n : Nat} {members : Str} :
      Members n members -> Value (n + 1) ('{' :: (members ++ ['}']))

/-- A value with whitespace around it. -/
inductive Element : Nat -> Str -> Prop where
  | mk {n : Nat} {before value after : Str} :
      Blank before -> Value n value -> Blank after -> Element n (before ++ (value ++ after))

inductive Elements : Nat -> Str -> Prop where
  | single {n : Nat} {element : Str} : Element n element -> Elements n element
  | more {n m : Nat} {element elements : Str} :
      Element n element -> Elements m elements -> Elements (max n m) (element ++ ',' :: elements)

inductive Member : Nat -> Str -> Prop where
  | mk {n : Nat} {before key after element : Str} :
      Blank before -> Chars key -> Blank after -> Element n element ->
        Member n (before ++ (quoted key ++ (after ++ ':' :: element)))

inductive Members : Nat -> Str -> Prop where
  | single {n : Nat} {member : Str} : Member n member -> Members n member
  | more {n m : Nat} {member members : Str} :
      Member n member -> Members m members -> Members (max n m) (member ++ ',' :: members)

end

/-- A byte string that spells a JSON text of some nesting. -/
def IsText (nesting : Nat) (data : Bytes) : Prop :=
  exists text, Element nesting text ∧ data = encodeUtf8 text

/-!
## The bytes of a text

Only strings, arrays and objects leave a trace in the bytes, so what a derivation
of some nesting derives is balanced, with the same nesting.
-/

theorem isDigit_code {c : Char} (h : c.isDigit = true) : 48 ≤ c.toNat ∧ c.toNat ≤ 57 := by
  simp only [Char.isDigit, Bool.and_eq_true, decide_eq_true_eq] at h
  exact h

theorem blank_plain {text : Str} (h : Blank text) : Plain (encodeUtf8 text) := by
  apply plain_text
  intro c hc
  have hblank := h c hc
  simp only [isWhitespace, Bool.or_eq_true, decide_eq_true_eq] at hblank
  rcases hblank with ((rfl | rfl) | rfl) | rfl <;> decide

theorem digits_plain {text : Str} (h : Digits text) : Plain (encodeUtf8 text) := by
  apply plain_text
  intro c hc
  have hdigit := isDigit_code (h.right c hc)
  simp only [structural, List.mem_cons, List.not_mem_nil, or_false]
  omega

theorem plain_encode_append {x y : Str} (hx : Plain (encodeUtf8 x))
    (hy : Plain (encodeUtf8 y)) : Plain (encodeUtf8 (x ++ y)) := by
  rw [encodeUtf8_append]
  intro b hb
  rcases List.mem_append.mp hb with h | h
  · exact hx b h
  · exact hy b h

theorem plain_cons {c : Char} {rest : Str} (hc : c.toNat ∉ structural)
    (hrest : Plain (encodeUtf8 rest)) : Plain (encodeUtf8 (c :: rest)) := by
  apply plain_encode_append (x := [c]) (plain_text ?_) hrest
  intro d hd
  rw [List.mem_singleton.mp hd]
  exact hc

theorem number_plain {text : Str} (h : Number text) : Plain (encodeUtf8 text) := by
  have hnil : Plain (encodeUtf8 []) := by
    intro b hb
    cases hb
  rcases h with ⟨sign, whole, fraction, exponent, hsign, hwhole, hfraction, hexponent, rfl⟩
  apply plain_encode_append
  · rcases hsign with rfl | rfl
    · exact hnil
    · exact plain_cons (by decide) hnil
  apply plain_encode_append
  · rcases hwhole with rfl | ⟨hdigits, _⟩
    · exact plain_cons (by decide) hnil
    · exact digits_plain hdigits
  apply plain_encode_append
  · rcases hfraction with rfl | ⟨digits, hdigits, rfl⟩
    · exact hnil
    · exact plain_cons (by decide) (digits_plain hdigits)
  · rcases hexponent with rfl | ⟨e, sign, digits, he, hsign, hdigits, rfl⟩
    · exact hnil
    · have hrest : Plain (encodeUtf8 (sign ++ digits)) := by
        apply plain_encode_append _ (digits_plain hdigits)
        rcases hsign with rfl | rfl | rfl
        · exact hnil
        · exact plain_cons (by decide) hnil
        · exact plain_cons (by decide) hnil
      rcases he with rfl | rfl
      · exact plain_cons (by decide) hrest
      · exact plain_cons (by decide) hrest

theorem hexValue_code {c : Char} {n : Nat} (h : hexValue c = some n) :
    c.toNat ≠ 34 ∧ c.toNat ≠ 92 := by
  unfold hexValue at h
  split_ifs at h
  · omega
  · omega
  · omega

theorem hexCode_codes {w x y z : Char} {code : Nat} (h : hexCode w x y z = some code) :
    forall c, c ∈ [w, x, y, z] -> c.toNat ≠ 34 ∧ c.toNat ≠ 92 := by
  unfold hexCode at h
  split at h
  · rename_i hw hx hy hz
    intro c hc
    simp only [List.mem_cons, List.not_mem_nil, or_false] at hc
    rcases hc with rfl | rfl | rfl | rfl
    · exact hexValue_code hw
    · exact hexValue_code hx
    · exact hexValue_code hy
    · exact hexValue_code hz
  · cases h

theorem chars_quoted {text : Str} (h : Chars text) : Quoted (encodeUtf8 text) := by
  induction h with
  | empty => exact Quoted.empty
  | @unescaped c rest _ hquote hslash _ ih =>
      apply quoted_cons _ _ ih
      · intro hcode
        exact hquote (char_eq_of_toNat hcode)
      · intro hcode
        exact hslash (char_eq_of_toNat hcode)
  | @escaped c rest hc _ ih =>
      apply quoted_escape _ ih
      have hall : ['"', '\\', '/', 'b', 'f', 'n', 'r', 't'].all
          (fun d => d.toNat < 128) = true := rfl
      exact of_decide_eq_true (List.all_eq_true.mp hall c hc)
  | @unicode w x y z code rest hcode _ ih =>
      have hcodes := hexCode_codes hcode
      simp only [List.forall_mem_cons, List.not_mem_nil, false_implies, implies_true,
        and_true] at hcodes
      rcases hcodes with ⟨hw, hx, hy, hz⟩
      apply quoted_escape (by decide)
      exact quoted_cons hw.left hw.right (quoted_cons hx.left hx.right
        (quoted_cons hy.left hy.right (quoted_cons hz.left hz.right ih)))

theorem quoted_balanced {chars : Str} (h : Chars chars) :
    Balanced 0 (encodeUtf8 (quoted chars)) := by
  have hbytes : encodeUtf8 (quoted chars) = 34 :: (encodeUtf8 chars ++ [34]) := by
    rw [quoted, encodeUtf8_cons_ascii (by decide), encodeUtf8_append]
    rfl
  rw [hbytes]
  exact Balanced.string (chars_quoted h) Balanced.empty

theorem separated_balanced {n m : Nat} {c : Char} {x y : Str} (hc : c = ',' ∨ c = ':')
    (hx : Balanced n (encodeUtf8 x)) (hy : Balanced m (encodeUtf8 y)) :
    Balanced (max n m) (encodeUtf8 (x ++ c :: y)) := by
  rw [encodeUtf8_append]
  apply hx.append
  rcases hc with rfl | rfl
  · exact Balanced.byte (by decide) hy
  · exact Balanced.byte (by decide) hy

mutual

theorem value_balanced : forall {n : Nat} {text : Str}, Value n text ->
    Balanced n (encodeUtf8 text)
  | _, _, .null => Balanced.of_plain (plain_of_all rfl)
  | _, _, .bool false => Balanced.of_plain (plain_of_all rfl)
  | _, _, .bool true => Balanced.of_plain (plain_of_all rfl)
  | _, _, .number h => Balanced.of_plain (number_plain h)
  | _, _, .string h => quoted_balanced h
  | _, _, .emptyArray h => by
      rw [encodeUtf8_cons_ascii (by decide), encodeUtf8_append]
      exact Balanced.enclosed .array (Balanced.of_plain (blank_plain h))
  | _, _, .array h => by
      rw [encodeUtf8_cons_ascii (by decide), encodeUtf8_append]
      exact Balanced.enclosed .array (elements_balanced h)
  | _, _, .emptyObject h => by
      rw [encodeUtf8_cons_ascii (by decide), encodeUtf8_append]
      exact Balanced.enclosed .object (Balanced.of_plain (blank_plain h))
  | _, _, .object h => by
      rw [encodeUtf8_cons_ascii (by decide), encodeUtf8_append]
      exact Balanced.enclosed .object (members_balanced h)

theorem element_balanced : forall {n : Nat} {text : Str}, Element n text ->
    Balanced n (encodeUtf8 text)
  | n, _, .mk hbefore hvalue hafter => by
      have hrest := (value_balanced hvalue).append (Balanced.of_plain (blank_plain hafter))
      rw [Nat.max_zero] at hrest
      rw [encodeUtf8_append, encodeUtf8_append]
      exact hrest.plain_append (blank_plain hbefore)

theorem elements_balanced : forall {n : Nat} {text : Str}, Elements n text ->
    Balanced n (encodeUtf8 text)
  | _, _, .single h => element_balanced h
  | _, _, .more hfirst hrest =>
      separated_balanced (Or.inl rfl) (element_balanced hfirst) (elements_balanced hrest)

theorem member_balanced : forall {n : Nat} {text : Str}, Member n text ->
    Balanced n (encodeUtf8 text)
  | n, _, .mk hbefore hkey hafter helement => by
      have hcolon := separated_balanced (Or.inr rfl) (Balanced.of_plain (blank_plain hafter))
        (element_balanced helement)
      have hrest := (quoted_balanced hkey).append hcolon
      rw [Nat.zero_max, Nat.zero_max] at hrest
      rw [encodeUtf8_append, encodeUtf8_append]
      exact hrest.plain_append (blank_plain hbefore)

theorem members_balanced : forall {n : Nat} {text : Str}, Members n text ->
    Balanced n (encodeUtf8 text)
  | _, _, .single h => member_balanced h
  | _, _, .more hfirst hrest =>
      separated_balanced (Or.inl rfl) (member_balanced hfirst) (members_balanced hrest)

end

/-!
## Canonical tokens
-/

theorem blank_nil : Blank [] := by
  intro c hc
  cases hc

theorem hexCode_hexDigits {n : Nat} (h : n < 65536) {rest : Str} (hrest : Chars rest) :
    Chars (unicodeEscape n ++ rest) :=
  Chars.unicode (hexCode_hex4 h) hrest

theorem chars_escapeChar (c : Char) {rest : Str} (hrest : Chars rest) :
    Chars (escapeChar c ++ rest) := by
  have hscalar := (char_scalar c).left
  have hpair : forall d, d ∈ ['"', '\\', '/', 'b', 'f', 'n', 'r', 't'] ->
      Chars (['\\', d] ++ rest) :=
    fun d hd => Chars.escaped hd hrest
  unfold escapeChar
  split_ifs with hquote hslash h3 h4 h5 h6 h7 hprint hbasic
  · exact hpair '"' (by decide)
  · exact hpair '\\' (by decide)
  · exact hpair 'n' (by decide)
  · exact hpair 'r' (by decide)
  · exact hpair 't' (by decide)
  · exact hpair 'f' (by decide)
  · exact hpair 'b' (by decide)
  · exact Chars.unescaped hprint.left hquote hslash hrest
  · exact hexCode_hexDigits hbasic hrest
  · rw [List.append_assoc]
    exact hexCode_hexDigits (by omega) (hexCode_hexDigits (by omega) hrest)

theorem chars_escape (text : Str) : Chars (escape text) := by
  induction text with
  | nil => exact Chars.empty
  | cons c rest ih =>
      have hsplit : escape (c :: rest) = escapeChar c ++ escape rest := List.flatMap_cons
      rw [hsplit]
      exact chars_escapeChar c ih

theorem number_renderInt (n : Int) : Number (renderInt n) := by
  have hwhole : Whole (Nat.toDigits 10 n.natAbs) := by
    rcases toDigits_cons n.natAbs with ⟨c, tail, hcons, _, hzero⟩
    by_cases hc : c = '0'
    · rw [hcons, hc, (hzero hc).right]
      exact Or.inl rfl
    · refine Or.inr ⟨⟨Nat.toDigits_ne_nil, toDigits_isDigit n.natAbs⟩, ?_⟩
      rw [hcons, List.head?_cons]
      intro hhead
      exact hc (Option.some.inj hhead)
  unfold renderInt
  split
  · refine ⟨['-'], _, [], [], Or.inr rfl, hwhole, Or.inl rfl, Or.inl rfl, ?_⟩
    rw [List.append_nil, List.append_nil]
    rfl
  · refine ⟨[], _, [], [], Or.inl rfl, hwhole, Or.inl rfl, Or.inl rfl, ?_⟩
    rw [List.append_nil, List.append_nil]
    rfl

end Grammar
end Json
end Foundation
end PyChain
