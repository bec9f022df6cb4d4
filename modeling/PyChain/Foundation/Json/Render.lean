import Mathlib.Algebra.Ring.Nat
import Mathlib.Data.List.Sort
import Mathlib.Data.List.Lex
import PyChain.Foundation.Text

/-!
# Canonical JSON text

JSON values with integer numbers, and their canonical rendering: object keys in
increasing code point order, no optional whitespace, and ASCII output with
escapes for everything outside the printable range.
-/

namespace PyChain
namespace Foundation

/-- JSON values; the fields of an object are kept in their given order. -/
inductive Json where
  | null
  | bool (value : Bool)
  | int (value : Int)
  | str (value : Str)
  | arr (items : List Json)
  | obj (fields : List (Str × Json))

namespace Json

/-!
## Strings and numbers
-/

def hex4 (n : Nat) : Str :=
  [hexDigit (n / 4096 % 16), hexDigit (n / 256 % 16), hexDigit (n / 16 % 16),
    hexDigit (n % 16)]

def unicodeEscape (n : Nat) : Str :=
  '\\' :: 'u' :: hex4 n

/-- A scalar value past the basic plane is written as a surrogate pair. -/
def escapeChar (c : Char) : Str :=
  if c = '"' then ['\\', '"']
  else if c = '\\' then ['\\', '\\']
  else if c = '\n' then ['\\', 'n']
  else if c = '\r' then ['\\', 'r']
  else if c = '\t' then ['\\', 't']
  else if c.toNat = 12 then ['\\', 'f']
  else if c.toNat = 8 then ['\\', 'b']
  else if 32 ≤ c.toNat ∧ c.toNat ≤ 126 then [c]
  else if c.toNat < 0x10000 then unicodeEscape c.toNat
  else
    unicodeEscape (0xD800 + (c.toNat - 0x10000) / 1024) ++
      unicodeEscape (0xDC00 + (c.toNat - 0x10000) % 1024)

def escape (text : Str) : Str :=
  text.flatMap escapeChar

def renderString (text : Str) : Str :=
  '"' :: (escape text ++ ['"'])

def renderInt (n : Int) : Str :=
  if n < 0 then '-' :: Nat.toDigits 10 n.natAbs else Nat.toDigits 10 n.natAbs

/-!
## Values

The tail functions render what follows the first item or field, up to and
including the closing bracket.
-/

mutual

def render : Json -> Str
  | null => Foundation.str "null"
  | bool true => Foundation.str "true"
  | bool false => Foundation.str "false"
  | int n => renderInt n
  | str text => renderString text
  | arr [] => Foundation.str "[]"
  | arr (item :: items) => '[' :: (render item ++ renderItems items)
  | obj [] => Foundation.str "\x7b\x7d"
  | obj ((key, value) :: fields) =>
      '{' :: (renderString key ++ ':' :: (render value ++ renderFields fields))

def renderItems : List Json -> Str
  | [] => [']']
  | item :: items => ',' :: (render item ++ renderItems items)

def renderFields : List (Str × Json) -> Str
  | [] => ['}']
  | (key, value) :: fields =>
      ',' :: (renderString key ++ ':' :: (render value ++ renderFields fields))

end

/-- Order on fields: the code point order of their keys. -/
def fieldLe (a b : Str × Json) : Prop :=
  a.1 ≤ b.1

instance : DecidableRel fieldLe :=
  fun a b => inferInstanceAs (Decidable (a.1 ≤ b.1))

mutual

/-- Sort the keys of every object, at every depth. -/
def sortKeys : Json -> Json
  | null => null
  | bool value => bool value
  | int n => int n
  | str text => str text
  | arr items => arr (sortItems items)
  | obj fields => obj ((sortFields fields).insertionSort fieldLe)

def sortItems : List Json -> List Json
  | [] => []
  | item :: items => sortKeys item :: sortItems items

def sortFields : List (Str × Json) -> List (Str × Json)
  | [] => []
  | (key, value) :: fields => (key, sortKeys value) :: sortFields fields

end

def dumps (value : Json) : Str :=
  render (sortKeys value)

/-- The canonical bytes of a value. -/
def serialize (value : Json) : Bytes :=
  encodeUtf8 (dumps value)

theorem sortItems_eq_map (items : List Json) :
    sortItems items = items.map sortKeys := by
  induction items with
  | nil =>
      rfl
  | cons item rest ih =>
      rw [sortItems, ih]
      rfl

/-!
## Distinct keys

Objects with pairwise distinct keys at every depth are the values that a
dictionary can hold.
-/

mutual

def DistinctKeys : Json -> Prop
  | null => True
  | bool _ => True
  | int _ => True
  | str _ => True
  | arr items => ItemsDistinct items
  | obj fields => (fields.map Prod.fst).Nodup ∧ FieldsDistinct fields

def ItemsDistinct : List Json -> Prop
  | [] => True
  | item :: items => DistinctKeys item ∧ ItemsDistinct items

def FieldsDistinct : List (Str × Json) -> Prop
  | [] => True
  | (_, value) :: fields => DistinctKeys value ∧ FieldsDistinct fields

end

theorem itemsDistinct_iff (items : List Json) :
    ItemsDistinct items <-> forall item, item ∈ items -> DistinctKeys item := by
  induction items with
  | nil =>
      simp [ItemsDistinct]
  | cons item rest ih =>
      simp [ItemsDistinct, ih]

theorem fieldsDistinct_iff (fields : List (Str × Json)) :
    FieldsDistinct fields <->
      forall field, field ∈ fields -> DistinctKeys field.2 := by
  induction fields with
  | nil =>
      simp [FieldsDistinct]
  | cons field rest ih =>
      cases field with
      | mk key value =>
          simp [FieldsDistinct, ih]

theorem sortFields_keys (fields : List (Str × Json)) :
    (sortFields fields).map Prod.fst = fields.map Prod.fst := by
  induction fields with
  | nil =>
      rfl
  | cons field rest ih =>
      cases field with
      | mk key value =>
          simp [sortFields, ih]

mutual

theorem sortKeys_distinct : forall value : Json,
    DistinctKeys value -> DistinctKeys (sortKeys value)
  | null, _ => trivial
  | bool _, _ => trivial
  | int _, _ => trivial
  | str _, _ => trivial
  | arr items, h => by
      rw [DistinctKeys] at h
      rw [sortKeys, DistinctKeys]
      exact sortItems_distinct items h
  | obj fields, h => by
      rw [DistinctKeys] at h
      rw [sortKeys, DistinctKeys]
      have hperm := List.perm_insertionSort fieldLe (sortFields fields)
      constructor
      · rw [(hperm.map Prod.fst).nodup_iff, sortFields_keys]
        exact h.left
      · rw [fieldsDistinct_iff]
        intro field hfield
        have hdistinct := sortFields_distinct fields h.right
        rw [fieldsDistinct_iff] at hdistinct
        exact hdistinct field (hperm.mem_iff.mp hfield)

theorem sortItems_distinct : forall items : List Json,
    ItemsDistinct items -> ItemsDistinct (sortItems items)
  | [], _ => trivial
  | item :: items, h => by
      rw [ItemsDistinct] at h
      rw [sortItems, ItemsDistinct]
      exact ⟨sortKeys_distinct item h.left, sortItems_distinct items h.right⟩

theorem sortFields_distinct : forall fields : List (Str × Json),
    FieldsDistinct fields -> FieldsDistinct (sortFields fields)
  | [], _ => trivial
  | (_, value) :: fields, h => by
      rw [FieldsDistinct] at h
      rw [sortFields, FieldsDistinct]
      exact ⟨sortKeys_distinct value h.left, sortFields_distinct fields h.right⟩

end

/-!
## Sorted objects

An object with distinct keys has one sorted form, and it is found by listing its
keys in order.
-/

theorem mem_sortFields {fields : List (Str × Json)} {key : Str} {value : Json}
    (h : (key, value) ∈ fields) : (key, sortKeys value) ∈ sortFields fields := by
  induction fields with
  | nil =>
      cases h
  | cons field rest ih =>
      cases field with
      | mk key' value' =>
          rw [sortFields]
          rcases List.mem_cons.mp h with heq | hrest
          · cases heq
            exact List.mem_cons_self
          · exact List.mem_cons_of_mem _ (ih hrest)

instance : Std.Total fieldLe where
  total a b := le_total a.1 b.1

instance : IsTrans (Str × Json) fieldLe where
  trans _ _ _ hab hbc := le_trans hab hbc

theorem nodup_of_keys {fields : List (Str × Json)} (h : (fields.map Prod.fst).Nodup) :
    fields.Nodup :=
  List.Nodup.of_map Prod.fst h

theorem eq_of_mem_keys {fields : List (Str × Json)} (h : (fields.map Prod.fst).Nodup)
    {a b : Str × Json} (ha : a ∈ fields) (hb : b ∈ fields) (hkey : a.1 = b.1) : a = b :=
  List.inj_on_of_nodup_map h ha hb hkey

theorem sortKeys_obj_eq {fields canonical : List (Str × Json)}
    (hnodup : (fields.map Prod.fst).Nodup)
    (hkeys : forall key, key ∈ fields.map Prod.fst -> key ∈ canonical.map Prod.fst)
    (hsorted : (canonical.map Prod.fst).Pairwise (fun a b => a < b))
    (hvalues : forall entry, entry ∈ canonical ->
      exists value, (entry.1, value) ∈ fields ∧ sortKeys value = entry.2) :
    sortKeys (obj fields) = obj canonical := by
  have hperm := List.perm_insertionSort fieldLe (sortFields fields)
  have hfields : ((sortFields fields).map Prod.fst).Nodup := by
    rw [sortFields_keys]
    exact hnodup
  have hcanonical : (canonical.map Prod.fst).Nodup :=
    hsorted.imp (fun hlt => ne_of_lt hlt)
  have hmem : forall entry, entry ∈ canonical -> entry ∈ sortFields fields := by
    intro entry hentry
    rcases hvalues entry hentry with ⟨value, hvalue, heq⟩
    have hsort := mem_sortFields hvalue
    rw [heq] at hsort
    exact hsort
  have hsame : (sortFields fields).Perm canonical := by
    rw [List.perm_ext_iff_of_nodup (nodup_of_keys hfields) (nodup_of_keys hcanonical)]
    intro entry
    constructor
    · intro hentry
      have hkey : entry.1 ∈ fields.map Prod.fst := by
        rw [← sortFields_keys]
        exact List.mem_map_of_mem hentry
      rcases List.mem_map.mp (hkeys entry.1 hkey) with ⟨other, hother, heq⟩
      have hentries := eq_of_mem_keys hfields (hmem other hother) hentry heq
      rw [← hentries]
      exact hother
    · exact hmem entry
  rw [sortKeys]
  apply congrArg obj
  have hordered : canonical.Pairwise fieldLe := by
    have hmapped := List.pairwise_map.mp hsorted
    exact hmapped.imp (fun hlt => le_of_lt hlt)
  refine (hperm.trans hsame).eq_of_pairwise ?_
    (List.pairwise_insertionSort fieldLe (sortFields fields)) hordered
  intro a b ha hb hab hba
  exact eq_of_mem_keys hcanonical ((hperm.trans hsame).mem_iff.mp ha) hb (le_antisymm hab hba)

/-!
## ASCII output
-/

theorem hexDigit_ascii : forall n, n < 16 -> (hexDigit n).toNat < 128 := by
  decide

theorem unicodeEscape_ascii (n : Nat) : IsAscii (unicodeEscape n) := by
  intro c hc
  simp only [unicodeEscape, hex4, List.mem_cons, List.not_mem_nil, or_false] at hc
  rcases hc with h | h | h | h | h | h
  · rw [h]
    decide
  · rw [h]
    decide
  · rw [h]
    exact hexDigit_ascii _ (by omega)
  · rw [h]
    exact hexDigit_ascii _ (by omega)
  · rw [h]
    exact hexDigit_ascii _ (by omega)
  · rw [h]
    exact hexDigit_ascii _ (by omega)

theorem escapeChar_ascii (c : Char) : IsAscii (escapeChar c) := by
  have hpair : forall d : Char, d.toNat < 128 -> IsAscii ['\\', d] := by
    intro d hd
    exact isAscii_cons (by decide) (isAscii_cons hd (by intro e he; cases he))
  unfold escapeChar
  split_ifs with h1 h2 h3 h4 h5 h6 h7 h8 h9
  · exact hpair '"' (by decide)
  · exact hpair '\\' (by decide)
  · exact hpair 'n' (by decide)
  · exact hpair 'r' (by decide)
  · exact hpair 't' (by decide)
  · exact hpair 'f' (by decide)
  · exact hpair 'b' (by decide)
  · exact isAscii_cons (by omega) (by intro e he; cases he)
  · exact unicodeEscape_ascii c.toNat
  · exact isAscii_append (unicodeEscape_ascii _) (unicodeEscape_ascii _)

theorem renderString_ascii (text : Str) : IsAscii (renderString text) := by
  apply isAscii_cons (by decide)
  apply isAscii_append
  · intro c hc
    rcases List.mem_flatMap.mp hc with ⟨d, _, hcd⟩
    exact escapeChar_ascii d c hcd
  · exact isAscii_cons (by decide) (by intro e he; cases he)

theorem toDigits_ascii (n : Nat) : IsAscii (Nat.toDigits 10 n) := by
  intro c hc
  have hdigit := Nat.isDigit_of_mem_toDigits (by decide) (by decide) hc
  have hle : c.toNat ≤ 57 := by
    simp only [Char.isDigit, Bool.and_eq_true, decide_eq_true_eq] at hdigit
    exact hdigit.right
  omega

theorem renderInt_ascii (n : Int) : IsAscii (renderInt n) := by
  unfold renderInt
  split_ifs
  · exact isAscii_cons (by decide) (toDigits_ascii _)
  · exact toDigits_ascii _

mutual

theorem render_ascii : forall value : Json, IsAscii (render value)
  | null => by unfold render; decide
  | bool true => by unfold render; decide
  | bool false => by unfold render; decide
  | int n => by
      rw [render]
      exact renderInt_ascii n
  | str text => by
      rw [render]
      exact renderString_ascii text
  | arr [] => by unfold render; decide
  | arr (item :: items) => by
      rw [render]
      exact isAscii_cons (by decide)
        (isAscii_append (render_ascii item) (renderItems_ascii items))
  | obj [] => by unfold render; decide
  | obj ((key, value) :: fields) => by
      rw [render]
      exact isAscii_cons (by decide)
        (isAscii_append (renderString_ascii key)
          (isAscii_cons (by decide)
            (isAscii_append (render_ascii value) (renderFields_ascii fields))))

theorem renderItems_ascii : forall items : List Json, IsAscii (renderItems items)
  | [] => by unfold renderItems; decide
  | item :: items => by
      rw [renderItems]
      exact isAscii_cons (by decide)
        (isAscii_append (render_ascii item) (renderItems_ascii items))

theorem renderFields_ascii : forall fields : List (Str × Json),
    IsAscii (renderFields fields)
  | [] => by unfold renderFields; decide
  | (key, value) :: fields => by
      rw [renderFields]
      exact isAscii_cons (by decide)
        (isAscii_append (renderString_ascii key)
          (isAscii_cons (by decide)
            (isAscii_append (render_ascii value) (renderFields_ascii fields))))

end

theorem decodeUtf8_serialize (value : Json) :
    decodeUtf8 (serialize value) = some (dumps value) :=
  decodeUtf8_encodeUtf8_ascii (render_ascii (sortKeys value))

theorem serialize_length (value : Json) :
    (serialize value).length = (dumps value).length :=
  encodeUtf8_length_ascii (render_ascii (sortKeys value))

/-!
## Lengths

A value is rendered inside every value that contains it.
-/

theorem escape_length (text : Str) : text.length ≤ (escape text).length := by
  have hchar : forall c, 1 ≤ (escapeChar c).length := by
    intro c
    unfold escapeChar unicodeEscape hex4
    split_ifs <;> simp
  induction text with
  | nil =>
      exact Nat.le_refl 0
  | cons c rest ih =>
      have hc := hchar c
      unfold escape at *
      rw [List.flatMap_cons, List.length_append, List.length_cons]
      omega

theorem renderString_length (text : Str) :
    text.length + 2 ≤ (renderString text).length := by
  have h := escape_length text
  unfold renderString
  rw [List.length_cons, List.length_append, List.length_singleton]
  omega

theorem renderItems_length {items : List Json} {item : Json} (h : item ∈ items) :
    (render item).length < (renderItems items).length := by
  induction items with
  | nil =>
      cases h
  | cons first rest ih =>
      rw [renderItems, List.length_cons, List.length_append]
      rcases List.mem_cons.mp h with heq | hrest
      · rw [heq]
        omega
      · have hlength := ih hrest
        omega

theorem render_arr_length {items : List Json} {item : Json} (h : item ∈ items) :
    (render item).length < (render (arr items)).length := by
  cases items with
  | nil =>
      cases h
  | cons first rest =>
      rw [render, List.length_cons, List.length_append]
      rcases List.mem_cons.mp h with heq | hrest
      · rw [heq]
        omega
      · have hlength := renderItems_length hrest
        omega

theorem renderFields_length {fields : List (Str × Json)} {key : Str} {value : Json}
    (h : (key, value) ∈ fields) :
    (renderString key).length + (render value).length < (renderFields fields).length := by
  induction fields with
  | nil =>
      cases h
  | cons first rest ih =>
      rw [renderFields, List.length_cons, List.length_append, List.length_cons,
        List.length_append]
      rcases List.mem_cons.mp h with heq | hrest
      · rw [← heq]
        simp only
        omega
      · have hlength := ih hrest
        omega

theorem render_obj_length {fields : List (Str × Json)} {key : Str} {value : Json}
    (h : (key, value) ∈ fields) :
    (renderString key).length + (render value).length < (render (obj fields)).length := by
  cases fields with
  | nil =>
      cases h
  | cons first rest =>
      rw [render, List.length_cons, List.length_append, List.length_cons,
        List.length_append]
      rcases List.mem_cons.mp h with heq | hrest
      · rw [← heq]
        simp only
        omega
      · have hlength := renderFields_length hrest
        omega

/-- Characters that stand for themselves in a string. -/
def isPlain (c : Char) : Bool :=
  32 ≤ c.toNat && c.toNat ≤ 126 && decide (c ≠ '"') && decide (c ≠ '\\')

theorem escapeChar_plain {c : Char} (h : isPlain c = true) : escapeChar c = [c] := by
  unfold isPlain at h
  simp only [Bool.and_eq_true, decide_eq_true_eq] at h
  rcases h with ⟨⟨⟨hlow, hhigh⟩, hquote⟩, hbackslash⟩
  have hne : forall d : Char, d.toNat < 32 -> c ≠ d := by
    intro d hd heq
    rw [heq] at hlow
    omega
  unfold escapeChar
  rw [if_neg hquote, if_neg hbackslash, if_neg (hne _ (by decide)), if_neg (hne _ (by decide)),
    if_neg (hne _ (by decide)), if_neg (by omega), if_neg (by omega), if_pos ⟨hlow, hhigh⟩]

theorem escape_plain {text : Str} (h : text.all isPlain = true) : escape text = text := by
  unfold escape
  induction text with
  | nil => rfl
  | cons c rest ih =>
      rw [List.all_cons, Bool.and_eq_true] at h
      rw [List.flatMap_cons, escapeChar_plain h.left, ih h.right]
      rfl

theorem renderString_length_plain {text : Str} (h : text.all isPlain = true) :
    (renderString text).length = text.length + 2 := by
  unfold renderString
  rw [escape_plain h, List.length_cons, List.length_append]
  rfl

theorem isPlain_of_lowerHex {c : Char} (h : isLowerHex c = true) : isPlain c = true := by
  unfold isLowerHex at h
  simp only [Bool.or_eq_true, Bool.and_eq_true, decide_eq_true_eq] at h
  have hne : forall d : Char, (d.toNat < 48 ∨ (57 < d.toNat ∧ d.toNat < 97)) -> c ≠ d := by
    intro d hd heq
    rw [heq] at h
    omega
  unfold isPlain
  simp only [Bool.and_eq_true, decide_eq_true_eq]
  exact ⟨⟨⟨by omega, by omega⟩, hne _ (by decide)⟩, hne _ (by decide)⟩

theorem renderString_length_lowerHex {text : Str} (h : text.all isLowerHex = true) :
    (renderString text).length = text.length + 2 := by
  apply renderString_length_plain
  rw [List.all_eq_true] at h ⊢
  exact fun c hc => isPlain_of_lowerHex (h c hc)

theorem renderItems_length_congr {xs ys : List Json}
    (h : List.Forall₂ (fun x y => (render x).length = (render y).length) xs ys) :
    (renderItems xs).length = (renderItems ys).length := by
  induction h with
  | nil => rfl
  | cons hxy _ ih =>
      unfold renderItems
      rw [List.length_cons, List.length_cons, List.length_append, List.length_append, hxy, ih]

theorem render_arr_length_congr {xs ys : List Json}
    (h : List.Forall₂ (fun x y => (render x).length = (render y).length) xs ys) :
    (render (arr xs)).length = (render (arr ys)).length := by
  cases h with
  | nil => rfl
  | cons hxy hrest =>
      unfold render
      rw [List.length_cons, List.length_cons, List.length_append, List.length_append, hxy,
        renderItems_length_congr hrest]

/-!
## Bounds
-/

theorem escapeChar_length_le (c : Char) : (escapeChar c).length ≤ 12 := by
  unfold escapeChar unicodeEscape hex4
  split_ifs <;> simp

theorem renderString_length_le (text : Str) :
    (renderString text).length ≤ 12 * text.length + 2 := by
  have hescape : (escape text).length ≤ 12 * text.length := by
    unfold escape
    induction text with
    | nil => exact Nat.le_refl 0
    | cons c rest ih =>
        have hc := escapeChar_length_le c
        rw [List.flatMap_cons, List.length_append, List.length_cons]
        omega
  unfold renderString
  rw [List.length_cons, List.length_append, List.length_singleton]
  omega

theorem renderInt_length_le {n digits : Nat} (hdigits : 0 < digits) (h : n < 10 ^ digits) :
    (renderInt n).length ≤ digits := by
  unfold renderInt
  rw [if_neg (by omega), Int.natAbs_natCast]
  exact (Nat.length_toDigits_le_iff (by decide) hdigits).mpr h

/-- The characters of some fields, each with its colon and comma. -/
def fieldsWidth (fields : List (Str × Json)) : Nat :=
  (fields.map (fun field =>
    (renderString field.1).length + (render field.2).length + 2)).sum

theorem renderFields_length_eq (fields : List (Str × Json)) :
    (renderFields fields).length = fieldsWidth fields + 1 := by
  unfold fieldsWidth
  induction fields with
  | nil => rfl
  | cons field rest ih =>
      rw [renderFields, List.length_cons, List.length_append, List.length_cons,
        List.length_append, List.map_cons, List.sum_cons, ih]
      omega

theorem render_obj_length_le (fields : List (Str × Json)) :
    (render (obj fields)).length ≤ fieldsWidth fields + 2 := by
  cases fields with
  | nil => exact Nat.le_refl 2
  | cons field rest =>
      rw [render, List.length_cons, List.length_append, List.length_cons, List.length_append,
        renderFields_length_eq]
      unfold fieldsWidth
      rw [List.map_cons, List.sum_cons]
      omega

end Json

end Foundation
end PyChain
