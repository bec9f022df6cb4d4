import Mathlib.Data.List.Induction
import PyChain.Foundation.Json.Render

/-!
# Reading JSON text

A recursive-descent reader for the JSON grammar over integers.  It accepts
optional whitespace and every escape; it refuses repeated keys and every number
that is not an integer.  A lone surrogate escape names no scalar value and is
refused with the malformed texts.

The fuel bounds the recursion depth.  Every call consumes input, so the length
of the text is always enough; the last section proves this for canonical text.
-/

namespace PyChain
namespace Foundation
namespace Json

inductive ParseError where
  | malformed
  | duplicateKey (key : Str)
  | nonInteger
deriving DecidableEq, Repr

def isWhitespace (c : Char) : Bool :=
  c = ' ' || c = '\t' || c = '\n' || c = '\r'

def skipWs (text : Str) : Str :=
  text.dropWhile isWhitespace

/-!
## Strings
-/

def hexCode (a b c d : Char) : Option Nat :=
  match hexValue a, hexValue b, hexValue c, hexValue d with
  | some w, some x, some y, some z => some (4096 * w + 256 * x + 16 * y + z)
  | _, _, _, _ => none

def unescape (c : Char) : Option Char :=
  if c = '"' then some '"'
  else if c = '\\' then some '\\'
  else if c = '/' then some '/'
  else if c = 'b' then some (Char.ofNat 8)
  else if c = 'f' then some (Char.ofNat 12)
  else if c = 'n' then some '\n'
  else if c = 'r' then some '\r'
  else if c = 't' then some '\t'
  else none

def pushChar (c : Char) : Except ParseError (Str × Str) -> Except ParseError (Str × Str)
  | .ok (text, rest) => .ok (c :: text, rest)
  | .error e => .error e

/-- Read a string body up to its closing quote. -/
def scanString : Str -> Except ParseError (Str × Str)
  | [] => .error .malformed
  | c :: rest =>
      if c = '"' then .ok ([], rest)
      else if c = '\\' then
        match rest with
        | [] => .error .malformed
        | e :: rest =>
            if e = 'u' then
              match rest with
              | a :: b :: c :: d :: rest =>
                  match hexCode a b c d with
                  | none => .error .malformed
                  | some code =>
                      if 0xD800 ≤ code ∧ code ≤ 0xDBFF then
                        match rest with
                        | s :: v :: w :: x :: y :: z :: rest =>
                            match hexCode w x y z with
                            | none => .error .malformed
                            | some low =>
                                if s = '\\' ∧ v = 'u' ∧ 0xDC00 ≤ low ∧ low ≤ 0xDFFF then
                                  pushChar
                                    (Char.ofNat
                                      (0x10000 + (code - 0xD800) * 1024 + (low - 0xDC00)))
                                    (scanString rest)
                                else .error .malformed
                        | _ => .error .malformed
                      else if 0xDC00 ≤ code ∧ code ≤ 0xDFFF then .error .malformed
                      else pushChar (Char.ofNat code) (scanString rest)
              | _ => .error .malformed
            else
              match unescape e with
              | none => .error .malformed
              | some d => pushChar d (scanString rest)
      else if c.toNat < 32 then .error .malformed
      else pushChar c (scanString rest)

/-!
## Numbers
-/

/-- The rest of a number continues with a fraction or an exponent. -/
def continuesAsFloat : Str -> Bool
  | '.' :: d :: _ => d.isDigit
  | 'e' :: c :: rest => c.isDigit || ((c = '+' || c = '-') && (rest.head?.any Char.isDigit))
  | 'E' :: c :: rest => c.isDigit || ((c = '+' || c = '-') && (rest.head?.any Char.isDigit))
  | _ => false

def digitsValue (digits : Str) : Nat :=
  Nat.ofDigitChars 10 digits 0

/-- Read an unsigned integer: a single zero, or digits without a leading zero. -/
def scanNatural (text : Str) : Except ParseError (Nat × Str) :=
  match text with
  | [] => .error .malformed
  | c :: rest =>
      if c = '0' then
        if continuesAsFloat rest then .error .nonInteger else .ok (0, rest)
      else if c.isDigit then
        let digits := text.takeWhile Char.isDigit
        let rest := text.dropWhile Char.isDigit
        if continuesAsFloat rest then .error .nonInteger
        else .ok (digitsValue digits, rest)
      else .error .malformed

def parseNumber (text : Str) : Except ParseError (Json × Str) :=
  match text with
  | '-' :: rest =>
      if Foundation.str "Infinity" <+: rest then .error .nonInteger
      else
        match scanNatural rest with
        | .ok (n, rest) => .ok (int (-(n : Int)), rest)
        | .error e => .error e
  | _ =>
      match scanNatural text with
      | .ok (n, rest) => .ok (int n, rest)
      | .error e => .error e

/-!
## Values
-/

def parseWord (word : Str) (value : Json) (rest : Str) : Except ParseError (Json × Str) :=
  if rest.take word.length = word then .ok (value, rest.drop word.length)
  else .error .malformed

def parseConstant (word rest : Str) : Except ParseError (Json × Str) :=
  if rest.take word.length = word then .error .nonInteger
  else .error .malformed

/-- The first key, in reading order, that was already read. -/
def repeatedKey (seen : List Str) : List Str -> Option Str
  | [] => none
  | key :: keys => if key ∈ seen then some key else repeatedKey (key :: seen) keys

mutual

def parseValue : Nat -> Str -> Except ParseError (Json × Str)
  | 0, _ => .error .malformed
  | _ + 1, [] => .error .malformed
  | fuel + 1, c :: rest =>
      if c = '"' then
        match scanString rest with
        | .ok (text, rest) => .ok (str text, rest)
        | .error e => .error e
      else if c = '{' then
        match skipWs rest with
        | '}' :: rest => .ok (obj [], rest)
        | rest =>
            match parseFields fuel rest with
            | .ok (fields, rest) =>
                match repeatedKey [] (fields.map Prod.fst) with
                | some key => .error (.duplicateKey key)
                | none => .ok (obj fields, rest)
            | .error e => .error e
      else if c = '[' then
        match skipWs rest with
        | ']' :: rest => .ok (arr [], rest)
        | rest =>
            match parseItems fuel rest with
            | .ok (items, rest) => .ok (arr items, rest)
            | .error e => .error e
      else if c = 'n' then parseWord (Foundation.str "ull") null rest
      else if c = 't' then parseWord (Foundation.str "rue") (bool true) rest
      else if c = 'f' then parseWord (Foundation.str "alse") (bool false) rest
      else if c = 'N' then parseConstant (Foundation.str "aN") rest
      else if c = 'I' then parseConstant (Foundation.str "nfinity") rest
      else parseNumber (c :: rest)

def parseItems : Nat -> Str -> Except ParseError (List Json × Str)
  | 0, _ => .error .malformed
  | fuel + 1, text =>
      match parseValue fuel text with
      | .error e => .error e
      | .ok (item, rest) =>
          match skipWs rest with
          | ']' :: rest => .ok ([item], rest)
          | ',' :: rest =>
              match parseItems fuel (skipWs rest) with
              | .ok (items, rest) => .ok (item :: items, rest)
              | .error e => .error e
          | _ => .error .malformed

def parseFields : Nat -> Str -> Except ParseError (List (Str × Json) × Str)
  | 0, _ => .error .malformed
  | fuel + 1, text =>
      match text with
      | '"' :: rest =>
          match scanString rest with
          | .error e => .error e
          | .ok (key, rest) =>
              match skipWs rest with
              | ':' :: rest =>
                  match parseValue fuel (skipWs rest) with
                  | .error e => .error e
                  | .ok (value, rest) =>
                      match skipWs rest with
                      | '}' :: rest => .ok ([(key, value)], rest)
                      | ',' :: rest =>
                          match parseFields fuel (skipWs rest) with
                          | .ok (fields, rest) => .ok ((key, value) :: fields, rest)
                          | .error e => .error e
                      | _ => .error .malformed
              | _ => .error .malformed
      | _ => .error .malformed

end

/-- Read a whole text as one value. -/
def loads (text : Str) : Except ParseError Json :=
  match parseValue (text.length + 1) (skipWs text) with
  | .error e => .error e
  | .ok (value, rest) => if skipWs rest = [] then .ok value else .error .malformed

/-!
## Lone surrogates

A Python string may hold a surrogate that is not half of a pair.  `json.loads` reads
one from an escape, and `json.dumps` writes the same escape in lower case.
-/

/-- The code unit of an escape in lower case. -/
def lowerCode (a b c d : Char) : Option Nat :=
  if [a, b, c, d].all isLowerHex then hexCode a b c d else none

def isHighSurrogate (a b c d : Char) : Bool :=
  (lowerCode a b c d).any (fun code => 0xD800 ≤ code && code ≤ 0xDBFF)

def isLowSurrogate (a b c d : Char) : Bool :=
  (lowerCode a b c d).any (fun code => 0xDC00 ≤ code && code ≤ 0xDFFF)

def startsLow : Str -> Bool
  | '\\' :: 'u' :: a :: b :: c :: d :: _ => isLowSurrogate a b c d
  | _ => false

/-- Write U+FFFD in place of every lone surrogate.  The flag tells whether a high
surrogate awaits its other half. -/
def scalarEscapes (awaits : Bool) : Str -> Str
  | '\\' :: 'u' :: a :: b :: c :: d :: rest =>
      if isHighSurrogate a b c d && startsLow rest then
        '\\' :: 'u' :: a :: b :: c :: d :: scalarEscapes true rest
      else if isHighSurrogate a b c d || (isLowSurrogate a b c d && !awaits) then
        unicodeEscape 0xFFFD ++ scalarEscapes false rest
      else '\\' :: 'u' :: a :: b :: c :: d :: scalarEscapes false rest
  | '\\' :: c :: rest => '\\' :: c :: scalarEscapes false rest
  | c :: rest => c :: scalarEscapes false rest
  | [] => []

theorem scalarEscapes_length (awaits : Bool) (text : Str) :
    (scalarEscapes awaits text).length = text.length := by
  fun_induction scalarEscapes awaits text with
  | case1 _ _ _ _ _ _ _ ih => simp only [List.length_cons, ih]
  | case2 _ _ _ _ _ _ _ _ ih =>
      simp only [unicodeEscape, hex4, List.length_append, List.length_cons, List.length_nil, ih]
      omega
  | case3 _ _ _ _ _ _ _ _ ih => simp only [List.length_cons, ih]
  | case4 _ _ _ _ ih => simp only [List.length_cons, ih]
  | case5 _ _ _ _ _ ih => simp only [List.length_cons, ih]
  | case6 => rfl

/-- A pair stays, a surrogate of its own does not, and neither does the first of two
high ones; an escaped backslash is no escape. -/
example :
    scalarEscapes false (Foundation.str "\\ud83d\\ude00 \\ud83d \\\\ud83d") =
      Foundation.str "\\ud83d\\ude00 \\ufffd \\\\ud83d" := by
  decide +kernel

/-!
## Reading canonical strings
-/

theorem hexCode_hex4 {n : Nat} (h : n < 65536) :
    hexCode (hexDigit (n / 4096 % 16)) (hexDigit (n / 256 % 16))
      (hexDigit (n / 16 % 16)) (hexDigit (n % 16)) = some n := by
  have h1 := (hexDigit_spec (n / 4096 % 16) (by omega)).left
  have h2 := (hexDigit_spec (n / 256 % 16) (by omega)).left
  have h3 := (hexDigit_spec (n / 16 % 16) (by omega)).left
  have h4 := (hexDigit_spec (n % 16) (by omega)).left
  unfold hexCode
  rw [h1, h2, h3, h4]
  simp only [Option.some.injEq]
  omega

theorem scanString_simpleEscape {e d : Char} (hne : e ≠ 'u')
    (hd : unescape e = some d) (rest : Str) :
    scanString ('\\' :: e :: rest) = pushChar d (scanString rest) := by
  rw [scanString.eq_def]
  simp [hne, hd]

theorem scanString_unicodeEscape {n : Nat} (h : n < 65536)
    (hscalar : n < 0xD800 ∨ 0xDFFF < n) (rest : Str) :
    scanString (unicodeEscape n ++ rest) =
      pushChar (Char.ofNat n) (scanString rest) := by
  have hhigh : ¬ (0xD800 ≤ n ∧ n ≤ 0xDBFF) := by
    omega
  have hlow : ¬ (0xDC00 ≤ n ∧ n ≤ 0xDFFF) := by
    omega
  have hcode := hexCode_hex4 h
  unfold unicodeEscape hex4
  simp only [List.cons_append, List.nil_append]
  rw [scanString.eq_def]
  simp only [hcode, hhigh, hlow, if_false]
  simp

theorem scanString_surrogatePair {hi lo : Nat}
    (hhi : 0xD800 ≤ hi ∧ hi ≤ 0xDBFF) (hlo : 0xDC00 ≤ lo ∧ lo ≤ 0xDFFF)
    (rest : Str) :
    scanString (unicodeEscape hi ++ (unicodeEscape lo ++ rest)) =
      pushChar (Char.ofNat (0x10000 + (hi - 0xD800) * 1024 + (lo - 0xDC00)))
        (scanString rest) := by
  have hhiCode := hexCode_hex4 (n := hi) (by omega)
  have hloCode := hexCode_hex4 (n := lo) (by omega)
  unfold unicodeEscape hex4
  simp only [List.cons_append, List.nil_append]
  rw [scanString.eq_def]
  simp only [hhiCode, hloCode, hhi, hlo, and_self, if_true]
  simp

theorem scanString_plain {c : Char} (hquote : c ≠ '"') (hslash : c ≠ '\\')
    (hcontrol : ¬ c.toNat < 32) (rest : Str) :
    scanString (c :: rest) = pushChar c (scanString rest) := by
  rw [scanString.eq_def]
  simp [hquote, hslash, hcontrol]

theorem char_scalar (c : Char) :
    c.toNat < 0x110000 ∧ (c.toNat < 0xD800 ∨ 0xDFFF < c.toNat) := by
  have hvalid := c.valid
  have htoNat : c.val.toNat = c.toNat := rfl
  simp only [UInt32.isValidChar, Nat.isValidChar, htoNat] at hvalid
  omega

theorem char_eq_of_toNat {c d : Char} (h : c.toNat = d.toNat) : c = d := by
  have hc := Char.ofNat_toNat c
  rw [h, Char.ofNat_toNat] at hc
  exact hc.symm

theorem scanString_escapeChar (c : Char) (rest : Str) :
    scanString (escapeChar c ++ rest) = pushChar c (scanString rest) := by
  have hscalar := char_scalar c
  unfold escapeChar
  split_ifs with h1 h2 h3 h4 h5 h6 h7 h8 h9
  · subst h1
    exact scanString_simpleEscape (by decide) (by decide) rest
  · subst h2
    exact scanString_simpleEscape (by decide) (by decide) rest
  · subst h3
    exact scanString_simpleEscape (by decide) (by decide) rest
  · subst h4
    exact scanString_simpleEscape (by decide) (by decide) rest
  · subst h5
    exact scanString_simpleEscape (by decide) (by decide) rest
  · have hc : c = Char.ofNat 12 := char_eq_of_toNat (by rw [h6]; decide)
    subst hc
    exact scanString_simpleEscape (by decide) (by decide) rest
  · have hc : c = Char.ofNat 8 := char_eq_of_toNat (by rw [h7]; decide)
    subst hc
    exact scanString_simpleEscape (by decide) (by decide) rest
  · exact scanString_plain h1 h2 (by omega) rest
  · rw [scanString_unicodeEscape h9 hscalar.right, Char.ofNat_toNat]
  · rw [List.append_assoc, scanString_surrogatePair (by omega) (by omega)]
    have hjoin :
        0x10000 + (0xD800 + (c.toNat - 0x10000) / 1024 - 0xD800) * 1024 +
            (0xDC00 + (c.toNat - 0x10000) % 1024 - 0xDC00) = c.toNat := by
      omega
    rw [hjoin, Char.ofNat_toNat]

theorem scanString_escape (text rest : Str) :
    scanString (escape text ++ '"' :: rest) = .ok (text, rest) := by
  induction text with
  | nil =>
      rw [scanString.eq_def]
      simp [escape]
  | cons c tail ih =>
      have hsplit : escape (c :: tail) = escapeChar c ++ escape tail := by
        simp [escape]
      rw [hsplit, List.append_assoc, scanString_escapeChar, ih]
      rfl

/-!
## Reading canonical values

What follows a value in canonical text is the end, a comma or a closing
bracket; such a continuation neither extends a number nor starts with
whitespace.
-/

def Delimited (rest : Str) : Prop :=
  rest = [] ∨ exists c tail, rest = c :: tail ∧ (c = ',' ∨ c = ']' ∨ c = '}')

theorem delimited_not_digit {rest : Str} (h : Delimited rest) :
    forall c, rest.head? = some c -> c.isDigit = false := by
  intro c hc
  rcases h with h | h
  · subst h
    cases hc
  · rcases h with ⟨d, tail, hrest, hd⟩
    subst hrest
    have hcd : d = c := by
      simpa using hc
    subst hcd
    rcases hd with h | h | h <;> subst h <;> decide

theorem delimited_not_float {rest : Str} (h : Delimited rest) :
    continuesAsFloat rest = false := by
  rcases h with h | h
  · subst h
    rfl
  · rcases h with ⟨d, tail, hrest, hd⟩
    subst hrest
    rcases hd with h | h | h <;> subst h <;> simp [continuesAsFloat]

theorem takeWhile_digits_append {digits rest : Str}
    (hdigits : forall c, c ∈ digits -> c.isDigit = true)
    (hrest : forall c, rest.head? = some c -> c.isDigit = false) :
    (digits ++ rest).takeWhile Char.isDigit = digits ∧
      (digits ++ rest).dropWhile Char.isDigit = rest := by
  induction digits with
  | nil =>
      cases rest with
      | nil =>
          exact ⟨rfl, rfl⟩
      | cons c tail =>
          have hc := hrest c rfl
          simp [hc]
  | cons c tail ih =>
      have hc := hdigits c List.mem_cons_self
      have htail := ih (fun d hd => hdigits d (List.mem_cons_of_mem c hd))
      simp [hc, htail.left, htail.right]

theorem toDigits_isDigit (n : Nat) :
    forall c, c ∈ Nat.toDigits 10 n -> c.isDigit = true := by
  intro c hc
  exact Nat.isDigit_of_mem_toDigits (by decide) (by decide) hc

theorem head?_toDigits_ne_zero {n : Nat} (h : 0 < n) :
    (Nat.toDigits 10 n).head? ≠ some '0' := by
  induction n using Nat.strongRecOn with
  | ind n ih =>
      by_cases hsmall : n < 10
      · rw [Nat.toDigits_of_lt_base hsmall]
        have hdigit : forall m, m < 10 -> 0 < m -> Nat.digitChar m ≠ '0' := by
          decide
        simpa using hdigit n hsmall h
      · rw [Nat.toDigits_of_base_le (by decide) (by omega),
          List.head?_append_of_ne_nil _ Nat.toDigits_ne_nil]
        exact ih (n / 10) (by omega) (by omega)

theorem toDigits_cons (n : Nat) :
    exists c tail, Nat.toDigits 10 n = c :: tail ∧ c.isDigit = true ∧
      (c = '0' -> n = 0 ∧ tail = []) := by
  cases hdigits : Nat.toDigits 10 n with
  | nil =>
      exact absurd hdigits Nat.toDigits_ne_nil
  | cons c tail =>
      exists c, tail
      constructor
      · rfl
      constructor
      · apply toDigits_isDigit n
        rw [hdigits]
        exact List.mem_cons_self
      · intro hc
        by_cases hn : n = 0
        · subst hn
          have hzero : Nat.toDigits 10 0 = ['0'] := by decide
          rw [hzero] at hdigits
          simp only [List.cons.injEq] at hdigits
          exact ⟨rfl, hdigits.right.symm⟩
        · exfalso
          apply head?_toDigits_ne_zero (n := n) (by omega)
          simp [hdigits, hc]

theorem digitChar_isDigit {c : Char} (h : c.isDigit = true) :
    c.toNat - '0'.toNat < 10 ∧ Nat.digitChar (c.toNat - '0'.toNat) = c ∧
      (c ≠ '0' -> 0 < c.toNat - '0'.toNat) := by
  have hdigit : forall n, n < 10 -> (Nat.digitChar n).toNat = n + 48 := by
    decide
  have hzero : '0'.toNat = 48 := rfl
  have hlow : 48 ≤ c.toNat ∧ c.toNat ≤ 57 := by
    simp only [Char.isDigit, Bool.and_eq_true, decide_eq_true_eq] at h
    exact h
  rw [hzero]
  refine ⟨by omega, ?_, ?_⟩
  · apply char_eq_of_toNat
    rw [hdigit _ (by omega)]
    omega
  · intro hne
    have hcode : c.toNat ≠ '0'.toNat := fun heq => hne (char_eq_of_toNat heq)
    rw [hzero] at hcode
    omega

/-- Numerals without a leading zero are the ones the writer produces. -/
theorem toDigits_digitsValue {c : Char} (hc : c ≠ '0') (tail : Str)
    (h : forall d, d ∈ c :: tail -> d.isDigit = true) :
    0 < digitsValue (c :: tail) ∧ Nat.toDigits 10 (digitsValue (c :: tail)) = c :: tail := by
  induction tail using List.reverseRecOn with
  | nil =>
      rcases digitChar_isDigit (h c List.mem_cons_self) with ⟨hlt, hchar, hpos⟩
      have hvalue : digitsValue [c] = c.toNat - '0'.toNat := by
        simp [digitsValue, Nat.ofDigitChars_cons]
      rw [hvalue, Nat.toDigits_of_lt_base hlt, hchar]
      exact ⟨hpos hc, rfl⟩
  | append_singleton front d ih =>
      rcases digitChar_isDigit (h d (by simp)) with ⟨hlt, hchar, _⟩
      rcases ih (fun e he => h e (by
        rcases List.mem_cons.mp he with heq | hmem
        · rw [heq]
          exact List.mem_cons_self
        · exact List.mem_cons_of_mem _ (List.mem_append_left _ hmem))) with ⟨hpos, hdigits⟩
      have hvalue : digitsValue (c :: (front ++ [d])) =
          10 * digitsValue (c :: front) + (d.toNat - '0'.toNat) := by
        unfold digitsValue
        rw [← List.cons_append, Nat.ofDigitChars_append, Nat.ofDigitChars_cons,
          Nat.ofDigitChars_nil]
      rw [hvalue]
      constructor
      · omega
      · have hdiv : (10 * digitsValue (c :: front) + (d.toNat - '0'.toNat)) / 10 =
            digitsValue (c :: front) := by
          omega
        have hmod : (10 * digitsValue (c :: front) + (d.toNat - '0'.toNat)) % 10 =
            d.toNat - '0'.toNat := by
          omega
        rw [Nat.toDigits_of_base_le (by decide) (by omega), hdiv, hmod, hdigits, hchar]
        rfl

theorem scanNatural_toDigits (n : Nat) {rest : Str} (h : Delimited rest) :
    scanNatural (Nat.toDigits 10 n ++ rest) = .ok (n, rest) := by
  rcases toDigits_cons n with ⟨c, tail, hcons, hdigit, hzero⟩
  have hfloat := delimited_not_float h
  have hspan := takeWhile_digits_append (toDigits_isDigit n) (delimited_not_digit h)
  rw [hcons, List.cons_append] at hspan
  rw [hcons, List.cons_append]
  unfold scanNatural
  by_cases hc : c = '0'
  · rcases hzero hc with ⟨hn, htail⟩
    subst hn
    subst htail
    simp [hc, hfloat]
  · simp only [hc, hdigit, if_true, if_false, hspan.left, hspan.right, hfloat]
    unfold digitsValue
    rw [← hcons, Nat.ofDigitChars_ten_toDigits]
    simp

theorem parseNumber_renderInt (n : Int) {rest : Str} (h : Delimited rest) :
    parseNumber (renderInt n ++ rest) = .ok (int n, rest) := by
  have hscan := scanNatural_toDigits n.natAbs h
  rcases toDigits_cons n.natAbs with ⟨c, tail, hcons, hdigit, _⟩
  unfold renderInt
  by_cases hneg : n < 0
  · have hinfinity : ¬ Foundation.str "Infinity" <+: Nat.toDigits 10 n.natAbs ++ rest := by
      intro hfront
      rw [hcons, List.cons_append] at hfront
      have hI : 'I' = c := (List.cons_prefix_cons.mp hfront).left
      subst hI
      exact absurd hdigit (by decide)
    rw [if_pos hneg, List.cons_append]
    simp only [parseNumber, hinfinity, if_false, hscan]
    have hvalue : -(n.natAbs : Int) = n := by
      omega
    rw [hvalue]
  · have hminus : c ≠ '-' := by
      intro hc
      subst hc
      exact absurd hdigit (by decide)
    have hvalue : (n.natAbs : Int) = n := by
      omega
    rw [if_neg hneg]
    unfold parseNumber
    split
    · rename_i other hother
      rw [hcons, List.cons_append] at hother
      exact absurd (List.cons.inj hother).left hminus
    · rw [hscan]
      simp only [hvalue]

theorem skipWs_cons {c : Char} (h : isWhitespace c = false) (rest : Str) :
    skipWs (c :: rest) = c :: rest := by
  simp [skipWs, h]

/-- How a rendered value can start: never with whitespace or a closing bracket. -/
def StartsValue (text : Str) : Prop :=
  exists c tail, text = c :: tail ∧ isWhitespace c = false ∧ c ≠ ']' ∧ c ≠ '}'

theorem startsValue_of_digit {c : Char} (tail : Str) (h : c.isDigit = true) :
    StartsValue (c :: tail) := by
  exists c, tail
  constructor
  · rfl
  have hne : forall d : Char, d.isDigit = false -> c ≠ d := by
    intro d hd heq
    subst heq
    rw [h] at hd
    cases hd
  constructor
  · simp only [isWhitespace, Bool.or_eq_false_iff, decide_eq_false_iff_not]
    exact ⟨⟨⟨hne ' ' (by decide), hne '\t' (by decide)⟩, hne '\n' (by decide)⟩,
      hne '\r' (by decide)⟩
  · exact ⟨hne ']' (by decide), hne '}' (by decide)⟩

theorem render_startsValue (value : Json) : StartsValue (render value) := by
  have hfixed : forall (c : Char) (tail : Str),
      (isWhitespace c = false ∧ c ≠ ']' ∧ c ≠ '}') -> StartsValue (c :: tail) := by
    intro c tail h
    exact ⟨c, tail, rfl, h⟩
  cases value with
  | null =>
      rw [render]
      exact hfixed 'n' _ (by decide)
  | bool b =>
      cases b with
      | true =>
          rw [render]
          exact hfixed 't' _ (by decide)
      | false =>
          rw [render]
          exact hfixed 'f' _ (by decide)
  | int n =>
      rw [render]
      unfold renderInt
      by_cases hneg : n < 0
      · rw [if_pos hneg]
        exact hfixed '-' _ (by decide)
      · rw [if_neg hneg]
        rcases toDigits_cons n.natAbs with ⟨c, tail, hcons, hdigit, _⟩
        rw [hcons]
        exact startsValue_of_digit tail hdigit
  | str text =>
      rw [render]
      exact hfixed '"' _ (by decide)
  | arr items =>
      cases items with
      | nil =>
          rw [render]
          exact hfixed '[' _ (by decide)
      | cons item rest =>
          rw [render]
          exact hfixed '[' _ (by decide)
  | obj fields =>
      cases fields with
      | nil =>
          rw [render]
          exact hfixed '{' _ (by decide)
      | cons field rest =>
          rw [render]
          exact hfixed '{' _ (by decide)

theorem skipWs_startsValue {text : Str} (h : StartsValue text) (rest : Str) :
    skipWs (text ++ rest) = text ++ rest := by
  rcases h with ⟨c, tail, htext, hws, _⟩
  rw [htext, List.cons_append, skipWs_cons hws]

theorem render_length_pos (value : Json) : 0 < (render value).length := by
  rcases render_startsValue value with ⟨c, tail, htext, _⟩
  rw [htext]
  simp

theorem serialize_ne_nil (value : Json) : serialize value ≠ [] := by
  intro hnil
  have hlength := serialize_length value
  have hpos := render_length_pos (sortKeys value)
  rw [hnil] at hlength
  unfold dumps at hlength
  rw [List.length_nil] at hlength
  omega

theorem renderItems_length_pos (items : List Json) :
    0 < (renderItems items).length := by
  cases items with
  | nil => simp [renderItems]
  | cons item rest => simp [renderItems]

theorem renderItems_delimited (items : List Json) (rest : Str) :
    Delimited (renderItems items ++ rest) := by
  cases items with
  | nil => exact Or.inr ⟨']', rest, by simp [renderItems], by simp⟩
  | cons item tail =>
      rw [renderItems, List.cons_append]
      exact Or.inr ⟨',', _, rfl, by simp⟩

theorem renderFields_delimited (fields : List (Str × Json)) (rest : Str) :
    Delimited (renderFields fields ++ rest) := by
  cases fields with
  | nil => exact Or.inr ⟨'}', rest, by simp [renderFields], by simp⟩
  | cons field tail =>
      rw [renderFields, List.cons_append]
      exact Or.inr ⟨',', _, rfl, by simp⟩

theorem parseWord_append (word : Str) (value : Json) (rest : Str) :
    parseWord word value (word ++ rest) = .ok (value, rest) := by
  simp [parseWord]

theorem repeatedKey_eq_none {seen keys : List Str} (hnodup : keys.Nodup)
    (hdisjoint : forall key, key ∈ keys -> key ∉ seen) :
    repeatedKey seen keys = none := by
  induction keys generalizing seen with
  | nil =>
      rfl
  | cons key rest ih =>
      rw [List.nodup_cons] at hnodup
      rw [repeatedKey, if_neg (hdisjoint key List.mem_cons_self)]
      apply ih hnodup.right
      intro other hother hmem
      rcases List.mem_cons.mp hmem with heq | hseen
      · subst heq
        exact hnodup.left hother
      · exact hdisjoint other (List.mem_cons_of_mem key hother) hseen

/-!
## The round trip

The three statements follow the three reading functions.  The length of the
rendered text bounds the fuel: every recursive call reads at least one
character less.
-/

mutual

theorem parseValue_render : forall (value : Json) (fuel : Nat) (rest : Str),
    DistinctKeys value -> Delimited rest -> (render value).length ≤ fuel ->
    parseValue fuel (render value ++ rest) = .ok (value, rest)
  | value, 0, rest, _, _, hfuel => by
      have hpos := render_length_pos value
      omega
  | null, fuel + 1, rest, _, _, _ => by
      rw [render]
      change parseValue (fuel + 1) ('n' :: (Foundation.str "ull" ++ rest)) = _
      rw [parseValue, if_neg (by decide), if_neg (by decide), if_neg (by decide),
        if_pos rfl, parseWord_append]
  | bool true, fuel + 1, rest, _, _, _ => by
      rw [render]
      change parseValue (fuel + 1) ('t' :: (Foundation.str "rue" ++ rest)) = _
      rw [parseValue, if_neg (by decide), if_neg (by decide), if_neg (by decide), if_neg (by decide),
        if_pos rfl, parseWord_append]
  | bool false, fuel + 1, rest, _, _, _ => by
      rw [render]
      change parseValue (fuel + 1) ('f' :: (Foundation.str "alse" ++ rest)) = _
      rw [parseValue, if_neg (by decide), if_neg (by decide), if_neg (by decide), if_neg (by decide), if_neg (by decide),
        if_pos rfl, parseWord_append]
  | int n, fuel + 1, rest, _, hrest, _ => by
      rw [render]
      have hnumber := parseNumber_renderInt n hrest
      have hstart : exists c tail, renderInt n = c :: tail ∧
          (c = '-' ∨ c.isDigit = true) := by
        rcases toDigits_cons n.natAbs with ⟨c, tail, hcons, hdigit, _⟩
        unfold renderInt
        by_cases hneg : n < 0
        · rw [if_pos hneg]
          exact ⟨'-', _, rfl, Or.inl rfl⟩
        · rw [if_neg hneg, hcons]
          exact ⟨c, tail, rfl, Or.inr hdigit⟩
      rcases hstart with ⟨c, tail, hcons, hc⟩
      rw [hcons, List.cons_append] at hnumber
      rw [hcons, List.cons_append, parseValue]
      have hne : forall d : Char, d ≠ '-' -> d.isDigit = false -> c ≠ d := by
        intro d hminus hd heq
        subst heq
        rcases hc with hc | hc
        · exact hminus hc
        · rw [hc] at hd
          cases hd
      rw [if_neg (hne '"' (by decide) (by decide)),
        if_neg (hne '{' (by decide) (by decide)),
        if_neg (hne '[' (by decide) (by decide)),
        if_neg (hne 'n' (by decide) (by decide)),
        if_neg (hne 't' (by decide) (by decide)),
        if_neg (hne 'f' (by decide) (by decide)),
        if_neg (hne 'N' (by decide) (by decide)),
        if_neg (hne 'I' (by decide) (by decide))]
      exact hnumber
  | str text, fuel + 1, rest, _, _, _ => by
      rw [render]
      unfold renderString
      rw [List.cons_append, List.append_assoc, List.singleton_append, parseValue,
        if_pos rfl, scanString_escape]
  | arr [], fuel + 1, rest, _, _, _ => by
      rw [render]
      change parseValue (fuel + 1) ('[' :: ']' :: rest) = _
      rw [parseValue, if_neg (by decide), if_neg (by decide), if_pos rfl,
        skipWs_cons (by decide)]
      rfl
  | arr (item :: items), fuel + 1, rest, hdistinct, hrest, hfuel => by
      rw [render, List.length_cons, List.length_append] at hfuel
      rw [DistinctKeys] at hdistinct
      have hitems := parseItems_render (item :: items) fuel rest hdistinct (by
        simpa using hfuel)
      rcases render_startsValue item with ⟨c, tail, htext, hws, hclose, _⟩
      rw [render, List.cons_append, List.append_assoc, parseValue, if_neg (by decide),
        if_neg (by decide), if_pos rfl, htext, List.cons_append, skipWs_cons hws]
      simp only at hitems
      rw [htext, List.cons_append] at hitems
      split
      · rename_i other hother
        exact absurd (List.cons.inj hother).left hclose
      · rw [hitems]
  | obj [], fuel + 1, rest, _, _, _ => by
      rw [render]
      change parseValue (fuel + 1) ('{' :: '}' :: rest) = _
      rw [parseValue, if_neg (by decide), if_pos rfl, skipWs_cons (by decide)]
      rfl
  | obj ((key, value) :: fields), fuel + 1, rest, hdistinct, hrest, hfuel => by
      rw [render, List.length_cons, List.length_append, List.length_cons,
        List.length_append] at hfuel
      rw [DistinctKeys] at hdistinct
      have hfields :=
        parseFields_render ((key, value) :: fields) fuel rest hdistinct.right (by
          simp only
          omega)
      rw [render, List.cons_append, parseValue, if_neg (by decide), if_pos rfl]
      unfold renderString at hfields ⊢
      rw [List.cons_append, List.cons_append, skipWs_cons (by decide)]
      simp only [List.cons_append, List.append_assoc] at hfields ⊢
      split
      · rename_i other hother
        exact absurd (List.cons.inj hother).left (by decide)
      · rw [hfields]
        simp only [@repeatedKey_eq_none [] _ hdistinct.left
          (fun _ _ hseen => absurd hseen List.not_mem_nil)]

theorem parseItems_render : forall (items : List Json) (fuel : Nat) (rest : Str),
    ItemsDistinct items ->
    (match items with
      | [] => 1
      | item :: items => (render item).length + (renderItems items).length) ≤ fuel ->
    (match items with
      | [] => True
      | item :: tail =>
          parseItems fuel (render item ++ (renderItems tail ++ rest)) =
            .ok (item :: tail, rest))
  | [], _, _, _, _ => trivial
  | item :: items, 0, rest, _, hfuel => by
      have hpos := render_length_pos item
      simp only at hfuel
      omega
  | [item], fuel + 1, rest, hdistinct, hfuel => by
      rw [ItemsDistinct] at hdistinct
      have hpos := renderItems_length_pos []
      have hitem := parseValue_render item fuel (renderItems [] ++ rest) hdistinct.left
        (renderItems_delimited [] rest) (by simp only at hfuel; omega)
      simp only
      rw [parseItems, hitem]
      simp [renderItems, skipWs, isWhitespace]
  | item :: next :: items, fuel + 1, rest, hdistinct, hfuel => by
      rw [ItemsDistinct] at hdistinct
      simp only at hfuel ⊢
      have hpos := render_length_pos item
      have htailPos := renderItems_length_pos (next :: items)
      have hitem := parseValue_render item fuel (renderItems (next :: items) ++ rest)
        hdistinct.left (renderItems_delimited (next :: items) rest) (by omega)
      have hlength : (renderItems (next :: items)).length =
          1 + ((render next).length + (renderItems items).length) := by
        rw [renderItems, List.length_cons, List.length_append]
        omega
      have htail := parseItems_render (next :: items) fuel rest hdistinct.right (by
        simp only
        omega)
      simp only at htail
      rw [parseItems, hitem]
      rw [renderItems, List.cons_append, List.append_assoc]
      simp only [skipWs_cons (c := ',') (by decide),
        skipWs_startsValue (render_startsValue next), htail]

theorem parseFields_render : forall (fields : List (Str × Json)) (fuel : Nat)
    (rest : Str), FieldsDistinct fields ->
    (match fields with
      | [] => 1
      | (key, value) :: fields =>
          (renderString key).length + 1 + (render value).length +
            (renderFields fields).length) ≤ fuel ->
    (match fields with
      | [] => True
      | (key, value) :: tail =>
          parseFields fuel
              (renderString key ++ ':' :: (render value ++ (renderFields tail ++ rest))) =
            .ok ((key, value) :: tail, rest))
  | [], _, _, _, _ => trivial
  | (key, value) :: fields, 0, rest, _, hfuel => by
      have hpos := render_length_pos value
      simp only at hfuel
      omega
  | [(key, value)], fuel + 1, rest, hdistinct, hfuel => by
      rw [FieldsDistinct] at hdistinct
      simp only at hfuel ⊢
      have hvalue := parseValue_render value fuel (renderFields [] ++ rest)
        hdistinct.left (renderFields_delimited [] rest) (by omega)
      unfold renderString
      rw [List.cons_append, List.append_assoc, List.singleton_append, parseFields]
      simp only [scanString_escape, skipWs_cons (c := ':') (by decide),
        skipWs_startsValue (render_startsValue value), hvalue]
      simp [renderFields, skipWs, isWhitespace]
  | (key, value) :: (nextKey, nextValue) :: fields, fuel + 1, rest, hdistinct, hfuel => by
      rw [FieldsDistinct] at hdistinct
      simp only at hfuel ⊢
      have hvalue := parseValue_render value fuel
        (renderFields ((nextKey, nextValue) :: fields) ++ rest) hdistinct.left
        (renderFields_delimited _ rest) (by omega)
      have hlength : (renderFields ((nextKey, nextValue) :: fields)).length =
          1 + ((renderString nextKey).length + 1 + (render nextValue).length +
            (renderFields fields).length) := by
        rw [renderFields, List.length_cons, List.length_append, List.length_cons,
          List.length_append]
        omega
      have htail := parseFields_render ((nextKey, nextValue) :: fields) fuel rest
        hdistinct.right (by
          simp only
          omega)
      simp only at htail
      unfold renderString at htail ⊢
      rw [List.cons_append, List.append_assoc, List.singleton_append, parseFields]
      simp only [scanString_escape, skipWs_cons (c := ':') (by decide),
        skipWs_startsValue (render_startsValue value), hvalue]
      rw [renderFields, List.cons_append, List.append_assoc, List.cons_append,
        List.append_assoc]
      unfold renderString
      simp only [skipWs_cons (c := ',') (by decide), List.cons_append,
        skipWs_cons (c := '"') (by decide)]
      simp only [List.cons_append] at htail
      rw [htail]

end

/-- Reading the canonical text of a value gives the value with sorted keys. -/
theorem loads_dumps {value : Json} (h : DistinctKeys value) :
    loads (dumps value) = .ok (sortKeys value) := by
  have hparse := parseValue_render (sortKeys value) ((dumps value).length + 1) []
    (sortKeys_distinct value h) (Or.inl rfl) (Nat.le_succ _)
  have hskip := skipWs_startsValue (render_startsValue (sortKeys value)) []
  rw [List.append_nil] at hparse hskip
  unfold loads
  unfold dumps at hparse ⊢
  rw [hskip, hparse]
  simp [skipWs]

theorem serialize_injective {x y : Json} (hx : DistinctKeys x) (hy : DistinctKeys y)
    (h : serialize x = serialize y) : sortKeys x = sortKeys y := by
  have hdecode := congrArg decodeUtf8 h
  rw [decodeUtf8_serialize, decodeUtf8_serialize] at hdecode
  have hloads := congrArg loads (Option.some.inj hdecode)
  rw [loads_dumps hx, loads_dumps hy] at hloads
  exact Except.ok.inj hloads

/-!
## Texts give dictionaries
-/

theorem nodup_of_repeatedKey {seen keys : List Str} (h : repeatedKey seen keys = none) :
    keys.Nodup ∧ forall key, key ∈ keys -> key ∉ seen := by
  induction keys generalizing seen with
  | nil =>
      refine ⟨List.nodup_nil, ?_⟩
      intro key hkey
      cases hkey
  | cons key rest ih =>
      rw [repeatedKey] at h
      split at h
      · cases h
      · rename_i hseen
        rcases ih h with ⟨hrest, hfresh⟩
        constructor
        · rw [List.nodup_cons]
          refine ⟨?_, hrest⟩
          intro hkey
          exact hfresh key hkey List.mem_cons_self
        · intro other hother
          rcases List.mem_cons.mp hother with heq | hmem
          · rw [heq]
            exact hseen
          · intro hold
            exact hfresh other hmem (List.mem_cons_of_mem key hold)

theorem parseWord_value {word rest rest' : Str} {value other : Json}
    (h : parseWord word value rest = .ok (other, rest')) : other = value := by
  unfold parseWord at h
  split at h
  · cases h
    rfl
  · cases h

theorem parseConstant_ne_ok {word rest rest' : Str} {value : Json} :
    parseConstant word rest ≠ .ok (value, rest') := by
  unfold parseConstant
  split
  · intro h
    cases h
  · intro h
    cases h

theorem parseNumber_int {text rest : Str} {value : Json}
    (h : parseNumber text = .ok (value, rest)) : exists n, value = .int n := by
  unfold parseNumber at h
  split at h
  · split at h
    · cases h
    · split at h
      · cases h
        exact ⟨_, rfl⟩
      · cases h
  · split at h
    · cases h
      exact ⟨_, rfl⟩
    · cases h

theorem parseObject_distinct {outcome : Except ParseError (List (Str × Json) × Str)}
    {value : Json} {rest : Str}
    (hfields : forall fields rest, outcome = .ok (fields, rest) -> FieldsDistinct fields)
    (h : (match outcome with
      | .ok (fields, rest) =>
          match repeatedKey [] (fields.map Prod.fst) with
          | some key => Except.error (ParseError.duplicateKey key)
          | none => .ok (obj fields, rest)
      | .error e => .error e) = .ok (value, rest)) : DistinctKeys value := by
  cases outcome with
  | error e => cases h
  | ok pair =>
      cases pair with
      | mk fields rest' =>
          simp only at h
          cases hrepeated : repeatedKey [] (fields.map Prod.fst) with
          | some key =>
              rw [hrepeated] at h
              cases h
          | none =>
              rw [hrepeated] at h
              cases h
              rw [DistinctKeys]
              exact ⟨(nodup_of_repeatedKey hrepeated).left, hfields fields _ rfl⟩

theorem parse_distinct (fuel : Nat) :
    (forall text value rest, parseValue fuel text = .ok (value, rest) ->
        DistinctKeys value) ∧
      (forall text items rest, parseItems fuel text = .ok (items, rest) ->
        ItemsDistinct items) ∧
      (forall text fields rest, parseFields fuel text = .ok (fields, rest) ->
        FieldsDistinct fields) := by
  induction fuel with
  | zero =>
      refine ⟨?_, ?_, ?_⟩
      · intro text value rest h
        rw [parseValue] at h
        cases h
      · intro text items rest h
        rw [parseItems] at h
        cases h
      · intro text fields rest h
        rw [parseFields] at h
        cases h
  | succ fuel ih =>
      rcases ih with ⟨hvalue, hitems, hfields⟩
      refine ⟨?_, ?_, ?_⟩
      · intro text value rest h
        cases text with
        | nil =>
            rw [parseValue] at h
            cases h
        | cons c tail =>
            rw [parseValue] at h
            split_ifs at h
            · split at h
              · cases h
                rw [DistinctKeys]
                trivial
              · cases h
            · split at h
              · cases h
                rw [DistinctKeys, FieldsDistinct]
                exact ⟨List.nodup_nil, trivial⟩
              · exact parseObject_distinct (hfields _) h
            · split at h
              · cases h
                rw [DistinctKeys, ItemsDistinct]
                trivial
              · split at h
                · rename_i hparse
                  cases h
                  rw [DistinctKeys]
                  exact hitems _ _ _ hparse
                · cases h
            · rw [parseWord_value h, DistinctKeys]
              trivial
            · rw [parseWord_value h, DistinctKeys]
              trivial
            · rw [parseWord_value h, DistinctKeys]
              trivial
            · exact absurd h parseConstant_ne_ok
            · exact absurd h parseConstant_ne_ok
            · rcases parseNumber_int h with ⟨n, hn⟩
              rw [hn, DistinctKeys]
              trivial
      · intro text items rest h
        rw [parseItems] at h
        split at h
        · cases h
        · rename_i hitem
          split at h
          · cases h
            rw [ItemsDistinct, ItemsDistinct]
            exact ⟨hvalue _ _ _ hitem, trivial⟩
          · split at h
            · rename_i hrest
              cases h
              rw [ItemsDistinct]
              exact ⟨hvalue _ _ _ hitem, hitems _ _ _ hrest⟩
            · cases h
          · cases h
      · intro text fields rest h
        unfold parseFields at h
        split at h
        · split at h
          · cases h
          · split at h
            · split at h
              · cases h
              · rename_i hfield
                split at h
                · cases h
                  rw [FieldsDistinct, FieldsDistinct]
                  exact ⟨hvalue _ _ _ hfield, trivial⟩
                · split at h
                  · rename_i hrest
                    cases h
                    rw [FieldsDistinct]
                    exact ⟨hvalue _ _ _ hfield, hfields _ _ _ hrest⟩
                  · cases h
                · cases h
            · cases h
        · cases h

theorem loads_distinct {text : Str} {value : Json} (h : loads text = .ok value) :
    DistinctKeys value := by
  unfold loads at h
  split at h
  · cases h
  · rename_i hparse
    split at h
    · cases h
      exact (parse_distinct _).left _ _ _ hparse
    · cases h

end Json
end Foundation
end PyChain
