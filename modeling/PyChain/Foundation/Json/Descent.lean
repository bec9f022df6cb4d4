import Mathlib.Data.List.TakeWhile
import PyChain.Foundation.Json.Grammar

/-!
# The reader descends

What the reader accepts is JSON text, and every container it has open at any time,
on any text, is one that the brackets of the text open.
-/

namespace PyChain
namespace Foundation
namespace Json

open Grammar

/-!
## What the reader accepts
-/

theorem skipWs_split (text : Str) : exists blank, Blank blank ∧ text = blank ++ skipWs text := by
  refine ⟨text.takeWhile isWhitespace, ?_, List.takeWhile_append_dropWhile.symm⟩
  intro c hc
  exact List.mem_takeWhile_imp hc

theorem unescape_mem {c d : Char} (h : unescape c = some d) :
    c ∈ ['"', '\\', '/', 'b', 'f', 'n', 'r', 't'] := by
  unfold unescape at h
  split_ifs at h with h1 h2 h3 h4 h5 h6 h7 h8 <;> simp [*]

theorem pushChar_eq_ok {c : Char} {result : Except ParseError (Str × Str)}
    {value rest : Str} (h : pushChar c result = .ok (value, rest)) :
    exists tail, result = .ok (tail, rest) := by
  cases result with
  | error e => cases h
  | ok pair =>
      rcases pair with ⟨tail, rest'⟩
      cases h
      exact ⟨tail, rfl⟩

theorem scanString_sound (text : Str) : forall value rest,
    scanString text = .ok (value, rest) ->
      exists chars, Chars chars ∧ text = chars ++ '"' :: rest := by
  fun_induction scanString text with
  | case2 rest =>
      intro value rest' h
      cases h
      exact ⟨[], Chars.empty, rfl⟩
  | case6 a b c d code hcode hhigh s v w x y z rest low hlow hpair hne ih =>
      intro value rest' h
      rcases pushChar_eq_ok h with ⟨tail, htail⟩
      rcases ih tail rest' htail with ⟨chars, hchars, rfl⟩
      rcases hpair with ⟨rfl, rfl, _⟩
      exact ⟨_, Chars.unicode hcode (Chars.unicode hlow hchars), rfl⟩
  | case10 a b c d rest code hcode hhigh hlow hne ih =>
      intro value rest' h
      rcases pushChar_eq_ok h with ⟨tail, htail⟩
      rcases ih tail rest' htail with ⟨chars, hchars, rfl⟩
      exact ⟨_, Chars.unicode hcode hchars, rfl⟩
  | case13 e rest hunicode d hescape hne ih =>
      intro value rest' h
      rcases pushChar_eq_ok h with ⟨tail, htail⟩
      rcases ih tail rest' htail with ⟨chars, hchars, rfl⟩
      exact ⟨_, Chars.escaped (unescape_mem hescape) hchars, rfl⟩
  | case15 c rest hquote hslash hcontrol ih =>
      intro value rest' h
      rcases pushChar_eq_ok h with ⟨tail, htail⟩
      rcases ih tail rest' htail with ⟨chars, hchars, rfl⟩
      exact ⟨_, Chars.unescaped (not_lt.mp hcontrol) hquote hslash hchars, rfl⟩
  | _ =>
      intro value rest' h
      cases h

theorem scanNatural_sound {text rest : Str} {n : Nat} (h : scanNatural text = .ok (n, rest)) :
    exists whole, Whole whole ∧ text = whole ++ rest := by
  unfold scanNatural at h
  split at h
  · cases h
  · rename_i c tail
    split_ifs at h with hzero hfloat hdigit
    · cases h
      exact ⟨['0'], Or.inl rfl, by rw [hzero]; rfl⟩
    · dsimp only at h
      split at h
      · cases h
      cases h
      refine ⟨(c :: tail).takeWhile Char.isDigit, Or.inr ⟨⟨?_, ?_⟩, ?_⟩,
        List.takeWhile_append_dropWhile.symm⟩
      · rw [List.takeWhile_cons_of_pos hdigit]
        exact List.cons_ne_nil _ _
      · intro d hd
        exact List.mem_takeWhile_imp hd
      · rw [List.takeWhile_cons_of_pos hdigit, List.head?_cons]
        intro hhead
        exact hzero (Option.some.inj hhead)

theorem parseNumber_sound {text rest : Str} {value : Json}
    (h : parseNumber text = .ok (value, rest)) :
    exists number, Number number ∧ text = number ++ rest := by
  have hnumber : forall sign whole, (sign = [] ∨ sign = ['-']) -> Whole whole ->
      Number (sign ++ whole) := by
    intro sign whole hsign hwhole
    refine ⟨sign, whole, [], [], hsign, hwhole, Or.inl rfl, Or.inl rfl, ?_⟩
    rw [List.append_nil, List.append_nil]
  unfold parseNumber at h
  split at h
  · split at h
    · cases h
    · split at h
      · rename_i hscan
        cases h
        rcases scanNatural_sound hscan with ⟨whole, hwhole, hsplit⟩
        refine ⟨['-'] ++ whole, hnumber _ _ (Or.inr rfl) hwhole, ?_⟩
        rw [hsplit]
        rfl
      · cases h
  · split at h
    · rename_i hscan
      cases h
      rcases scanNatural_sound hscan with ⟨whole, hwhole, hsplit⟩
      exact ⟨[] ++ whole, hnumber _ _ (Or.inl rfl) hwhole, hsplit⟩
    · cases h

theorem parseWord_sound {word rest rest' : Str} {value other : Json}
    (h : parseWord word value rest = .ok (other, rest')) : rest = word ++ rest' := by
  unfold parseWord at h
  split at h
  · rename_i hword
    cases h
    calc
      rest = rest.take word.length ++ rest.drop word.length :=
        (List.take_append_drop _ _).symm
      _ = word ++ rest.drop word.length := by rw [hword]
  · cases h

theorem blank_append {x y : Str} (hx : Blank x) (hy : Blank y) : Blank (x ++ y) := by
  intro c hc
  rcases List.mem_append.mp hc with h | h
  · exact hx c h
  · exact hy c h

theorem element_blank {n : Nat} {blank element : Str} (hblank : Blank blank)
    (h : Element n element) : Element n (blank ++ element) := by
  cases h with
  | @mk _ before value after hbefore hvalue hafter =>
      rw [← List.append_assoc]
      exact Element.mk (blank_append hblank hbefore) hvalue hafter

theorem elements_blank {n : Nat} {blank elements : Str} (hblank : Blank blank)
    (h : Elements n elements) : Elements n (blank ++ elements) := by
  cases h with
  | single helement => exact Elements.single (element_blank hblank helement)
  | more helement hrest =>
      rw [← List.append_assoc]
      exact Elements.more (element_blank hblank helement) hrest

theorem member_blank {n : Nat} {blank member : Str} (hblank : Blank blank)
    (h : Member n member) : Member n (blank ++ member) := by
  cases h with
  | mk hbefore hkey hafter helement =>
      rw [← List.append_assoc]
      exact Member.mk (blank_append hblank hbefore) hkey hafter helement

theorem members_blank {n : Nat} {blank members : Str} (hblank : Blank blank)
    (h : Members n members) : Members n (blank ++ members) := by
  cases h with
  | single hmember => exact Members.single (member_blank hblank hmember)
  | more hmember hrest =>
      rw [← List.append_assoc]
      exact Members.more (member_blank hblank hmember) hrest

theorem element_of_value {n : Nat} {value : Str} (h : Value n value) (rest : Str) :
    exists element, Element n element ∧ value ++ rest = element ++ skipWs rest := by
  rcases skipWs_split rest with ⟨blank, hblank, hrest⟩
  refine ⟨[] ++ (value ++ blank), Element.mk blank_nil h hblank, ?_⟩
  rw [List.nil_append, List.append_assoc, ← hrest]

/-!
The reader is followed call by call: what is accepted with some fuel comes from what
the calls with less fuel accept.
-/

def ReadsValues (fuel : Nat) : Prop :=
  forall text value rest, parseValue fuel text = .ok (value, rest) ->
    exists n consumed, Value n consumed ∧ text = consumed ++ rest

/-- Up to the bracket that closes the array. -/
def ReadsItems (fuel : Nat) : Prop :=
  forall text items rest, parseItems fuel text = .ok (items, rest) ->
    exists n elements, Elements n elements ∧ text = elements ++ ']' :: rest

/-- Up to the bracket that closes the object. -/
def ReadsFields (fuel : Nat) : Prop :=
  forall text fields rest, parseFields fuel text = .ok (fields, rest) ->
    exists n members, Members n members ∧ text = members ++ '}' :: rest

theorem parseValue_sound {fuel : Nat} (hitems : ReadsItems fuel) (hfields : ReadsFields fuel) :
    ReadsValues (fuel + 1) := by
  intro text value rest h
  cases text with
  | nil =>
      rw [parseValue] at h
      cases h
  | cons c tail =>
      rw [parseValue] at h
      split_ifs at h with hstring hobject harray hnull htrue hfalse hnan hinfinity
      · split at h
        · rename_i hscan
          cases h
          rcases scanString_sound _ _ _ hscan with ⟨chars, hchars, hsplit⟩
          refine ⟨0, quoted chars, Value.string hchars, ?_⟩
          rw [hstring, hsplit, quoted, List.cons_append, List.append_assoc]
          rfl
        · cases h
      · rcases skipWs_split tail with ⟨blank, hblank, hskip⟩
        split at h
        · rename_i hclose
          cases h
          refine ⟨1, '{' :: (blank ++ ['}']), Value.emptyObject hblank, ?_⟩
          rw [hobject, hskip, hclose, List.cons_append, List.append_assoc]
          rfl
        · split at h
          · rename_i hparse
            split at h
            · cases h
            · cases h
              rcases hfields _ _ _ hparse with ⟨n, members, hmembers, hsplit⟩
              refine ⟨n + 1, '{' :: (blank ++ members ++ ['}']),
                Value.object (members_blank hblank hmembers), ?_⟩
              rw [hobject, hskip, hsplit, List.cons_append, List.append_assoc,
                List.append_assoc]
              rfl
          · cases h
      · rcases skipWs_split tail with ⟨blank, hblank, hskip⟩
        split at h
        · rename_i hclose
          cases h
          refine ⟨1, '[' :: (blank ++ [']']), Value.emptyArray hblank, ?_⟩
          rw [harray, hskip, hclose, List.cons_append, List.append_assoc]
          rfl
        · split at h
          · rename_i hparse
            cases h
            rcases hitems _ _ _ hparse with ⟨n, elements, helements, hsplit⟩
            refine ⟨n + 1, '[' :: (blank ++ elements ++ [']']),
              Value.array (elements_blank hblank helements), ?_⟩
            rw [harray, hskip, hsplit, List.cons_append, List.append_assoc,
              List.append_assoc]
            rfl
          · cases h
      · rw [hnull, parseWord_sound h]
        exact ⟨0, _, Value.null, rfl⟩
      · rw [htrue, parseWord_sound h]
        exact ⟨0, _, Value.bool true, rfl⟩
      · rw [hfalse, parseWord_sound h]
        exact ⟨0, _, Value.bool false, rfl⟩
      · exact absurd h parseConstant_ne_ok
      · exact absurd h parseConstant_ne_ok
      · rcases parseNumber_sound h with ⟨number, hnumber, hsplit⟩
        exact ⟨0, number, Value.number hnumber, hsplit⟩

theorem parseItems_sound {fuel : Nat} (hvalue : ReadsValues fuel) (hitems : ReadsItems fuel) :
    ReadsItems (fuel + 1) := by
  intro text items rest h
  rw [parseItems] at h
  split at h
  · cases h
  · rename_i item after hitem
    rcases hvalue _ _ _ hitem with ⟨n, consumed, hconsumed, rfl⟩
    rcases element_of_value hconsumed after with ⟨element, helement, hsplit⟩
    rw [hsplit]
    split at h
    · rename_i hclose
      cases h
      rw [hclose]
      exact ⟨n, element, Elements.single helement, rfl⟩
    · rename_i later hcomma
      split at h
      · rename_i hlater
        cases h
        rcases hitems _ _ _ hlater with ⟨m, elements, helements, hrest⟩
        rcases skipWs_split later with ⟨blank, hblank, hskip⟩
        rw [hcomma, hskip, hrest]
        refine ⟨max n m, element ++ ',' :: (blank ++ elements),
          Elements.more helement (elements_blank hblank helements), ?_⟩
        simp only [List.append_assoc, List.cons_append]
      · cases h
    · cases h

theorem parseFields_sound {fuel : Nat} (hvalue : ReadsValues fuel)
    (hfields : ReadsFields fuel) : ReadsFields (fuel + 1) := by
  intro text fields rest h
  unfold parseFields at h
  split at h
  · rename_i quoteRest
    split at h
    · cases h
    · rename_i key afterKey hkey
      rcases scanString_sound _ _ _ hkey with ⟨chars, hchars, hsplitKey⟩
      rcases skipWs_split afterKey with ⟨beforeColon, hbeforeColon, hskipKey⟩
      split at h
      · rename_i afterColon hcolon
        split at h
        · cases h
        · rename_i value afterValue hparse
          rcases hvalue _ _ _ hparse with ⟨n, consumed, hconsumed, hsplitValue⟩
          rcases skipWs_split afterColon with ⟨blank, hblank, hskipColon⟩
          rcases element_of_value hconsumed afterValue with ⟨element, helement, hsplit⟩
          have hmember : Member n ([] ++ (quoted chars ++ (beforeColon ++
              ':' :: (blank ++ element)))) :=
            Member.mk blank_nil hchars hbeforeColon (element_blank hblank helement)
          have htext : '"' :: quoteRest =
              [] ++ (quoted chars ++ (beforeColon ++ ':' :: (blank ++ element))) ++
                skipWs afterValue := by
            rw [hsplitKey, hskipKey, hcolon, hskipColon, hsplitValue, hsplit, quoted]
            simp only [List.nil_append, List.append_assoc, List.cons_append]
          split at h
          · rename_i hclose
            cases h
            rw [htext, hclose]
            exact ⟨n, _, Members.single hmember, rfl⟩
          · rename_i later hcomma
            split at h
            · rename_i hlater
              cases h
              rcases hfields _ _ _ hlater with ⟨m, members, hmembers, hrest⟩
              rcases skipWs_split later with ⟨between, hbetween, hskip⟩
              refine ⟨max n m, _,
                Members.more hmember (members_blank hbetween hmembers), ?_⟩
              rw [htext, hcomma, hskip, hrest]
              simp only [List.append_assoc, List.cons_append]
            · cases h
          · cases h
      · cases h
  · cases h

theorem parse_sound (fuel : Nat) : ReadsValues fuel ∧ ReadsItems fuel ∧ ReadsFields fuel := by
  induction fuel with
  | zero =>
      refine ⟨?_, ?_, ?_⟩
      · intro text value rest h
        rw [parseValue] at h
        cases h
      · intro text items rest h
        rw [parseItems] at h
        cases h
      · intro text fields rest h
        rw [parseFields] at h
        cases h
  | succ fuel ih =>
      rcases ih with ⟨hvalue, hitems, hfields⟩
      exact ⟨parseValue_sound hitems hfields, parseItems_sound hvalue hitems,
        parseFields_sound hvalue hfields⟩

/-!
## Open containers

How many containers the calls of the reader have open at once, counted along the
recursion of the reader itself, whether it accepts or not.
-/

mutual

def valueOpens : Nat -> Str -> Nat
  | 0, _ => 0
  | _ + 1, [] => 0
  | fuel + 1, c :: rest =>
      if c = '"' then 0
      else if c = '{' then
        match skipWs rest with
        | '}' :: _ => 1
        | rest => fieldsOpens fuel rest + 1
      else if c = '[' then
        match skipWs rest with
        | ']' :: _ => 1
        | rest => itemsOpens fuel rest + 1
      else 0

/-- Above the array whose items are read. -/
def itemsOpens : Nat -> Str -> Nat
  | 0, _ => 0
  | fuel + 1, text =>
      max (valueOpens fuel text)
        (match parseValue fuel text with
          | .error _ => 0
          | .ok (_, rest) =>
              match skipWs rest with
              | ',' :: rest => itemsOpens fuel (skipWs rest)
              | _ => 0)

/-- Above the object whose fields are read. -/
def fieldsOpens : Nat -> Str -> Nat
  | 0, _ => 0
  | fuel + 1, text =>
      match text with
      | '"' :: rest =>
          match scanString rest with
          | .error _ => 0
          | .ok (_, rest) =>
              match skipWs rest with
              | ':' :: rest =>
                  max (valueOpens fuel (skipWs rest))
                    (match parseValue fuel (skipWs rest) with
                      | .error _ => 0
                      | .ok (_, rest) =>
                          match skipWs rest with
                          | ',' :: rest => fieldsOpens fuel (skipWs rest)
                          | _ => 0)
              | _ => 0
      | _ => 0

end

/-- The containers open at once while a whole text is read. -/
def loadsOpens (text : Str) : Nat :=
  valueOpens (text.length + 1) (skipWs text)

/-- A reader of the bytes of a text can have this many more containers open. -/
def Opens (text : Str) (more : Nat) : Prop :=
  forall opened, exists deepest, Descent.Reaches ⟨opened, encodeUtf8 text⟩ deepest ∧
    deepest.opened.length = opened.length + more

theorem opens_zero (text : Str) : Opens text 0 := by
  intro opened
  exact ⟨⟨opened, encodeUtf8 text⟩, Relation.ReflTransGen.refl, rfl⟩

theorem opens_after {n more : Nat} {front rest : Str}
    (hfront : Balanced n (encodeUtf8 front)) (h : Opens rest more) :
    Opens (front ++ rest) more := by
  intro opened
  rcases h opened with ⟨deepest, hreaches, hlength⟩
  refine ⟨deepest, ?_, hlength⟩
  rw [encodeUtf8_append]
  exact (Descent.reaches_balanced hfront opened (encodeUtf8 rest)).left.trans hreaches

theorem opens_max {text : Str} {x y : Nat} (hx : Opens text x) (hy : Opens text y) :
    Opens text (max x y) := by
  rcases Nat.le_total x y with hle | hle
  · rw [Nat.max_eq_right hle]
    exact hy
  · rw [Nat.max_eq_left hle]
    exact hx

theorem opens_enter (container : Container) {c : Char} {rest : Str} {more : Nat}
    (hc : encodeUtf8 (c :: rest) = container.opening :: encodeUtf8 rest)
    (h : Opens rest more) : Opens (c :: rest) (more + 1) := by
  intro opened
  rcases h (container :: opened) with ⟨deepest, hreaches, hlength⟩
  refine ⟨deepest, ?_, ?_⟩
  · rw [hc]
    exact (Descent.Moves.enter opened (encodeUtf8 rest) container).reaches.trans hreaches
  · rw [hlength, List.length_cons]
    omega

theorem opens_skipWs {text : Str} {more : Nat} (h : Opens (skipWs text) more) :
    Opens text more := by
  rcases skipWs_split text with ⟨blank, hblank, hskip⟩
  rw [hskip]
  exact opens_after (Balanced.of_plain (blank_plain hblank)) h

theorem opens_separator {c : Char} {rest : Str} {more : Nat} (hc : c = ',' ∨ c = ':')
    (h : Opens (skipWs rest) more) : Opens (c :: rest) more := by
  have hplain : Plain (encodeUtf8 [c]) := by
    rcases hc with rfl | rfl
    · exact plain_of_all rfl
    · exact plain_of_all rfl
  exact opens_after (Balanced.of_plain hplain) (opens_skipWs h)

theorem opens_value {fuel : Nat} (hitems : forall text, Opens text (itemsOpens fuel text))
    (hfields : forall text, Opens text (fieldsOpens fuel text)) :
    forall text, Opens text (valueOpens (fuel + 1) text) := by
  intro text
  cases text with
  | nil =>
      rw [valueOpens]
      exact opens_zero []
  | cons c tail =>
      rw [valueOpens]
      split_ifs with hstring hobject harray
      · exact opens_zero _
      · have hbyte : encodeUtf8 (c :: tail) = 123 :: encodeUtf8 tail := by
          rw [hobject, encodeUtf8_cons_ascii (by decide)]
          rfl
        split
        · exact opens_enter .object hbyte (opens_zero tail)
        · exact opens_enter .object hbyte (opens_skipWs (hfields _))
      · have hbyte : encodeUtf8 (c :: tail) = 91 :: encodeUtf8 tail := by
          rw [harray, encodeUtf8_cons_ascii (by decide)]
          rfl
        split
        · exact opens_enter .array hbyte (opens_zero tail)
        · exact opens_enter .array hbyte (opens_skipWs (hitems _))
      · exact opens_zero _

theorem opens_items {fuel : Nat} (hvalue : forall text, Opens text (valueOpens fuel text))
    (hitems : forall text, Opens text (itemsOpens fuel text)) :
    forall text, Opens text (itemsOpens (fuel + 1) text) := by
  intro text
  rw [itemsOpens]
  apply opens_max (hvalue text)
  split
  · exact opens_zero text
  · rename_i item after hparse
    rcases (parse_sound fuel).left _ _ _ hparse with ⟨n, consumed, hconsumed, rfl⟩
    split
    · rename_i later hcomma
      apply opens_after (value_balanced hconsumed)
      apply opens_skipWs
      rw [hcomma]
      exact opens_separator (Or.inl rfl) (hitems _)
    · exact opens_zero _

theorem opens_fields {fuel : Nat} (hvalue : forall text, Opens text (valueOpens fuel text))
    (hfields : forall text, Opens text (fieldsOpens fuel text)) :
    forall text, Opens text (fieldsOpens (fuel + 1) text) := by
  intro text
  unfold fieldsOpens
  split
  · split
    · exact opens_zero _
    · rename_i key afterKey hkey
      rcases scanString_sound _ _ _ hkey with ⟨chars, hchars, hsplitKey⟩
      split
      · rename_i afterColon hcolon
        -- the key and the colon open nothing
        have hquoted : '"' :: (chars ++ '"' :: afterKey) = quoted chars ++ afterKey := by
          rw [quoted, List.cons_append, List.append_assoc]
          rfl
        rw [hsplitKey, hquoted]
        apply opens_after (quoted_balanced hchars)
        apply opens_skipWs
        rw [hcolon]
        apply opens_separator (Or.inr rfl)
        apply opens_max (hvalue _)
        split
        · exact opens_zero _
        · rename_i value afterValue hparse
          rcases (parse_sound fuel).left _ _ _ hparse with ⟨n, consumed, hconsumed, hsplit⟩
          split
          · rename_i later hcomma
            rw [hsplit]
            apply opens_after (value_balanced hconsumed)
            apply opens_skipWs
            rw [hcomma]
            exact opens_separator (Or.inl rfl) (hfields _)
          · exact opens_zero _
      · exact opens_zero _
  · exact opens_zero _

theorem opens_parse (fuel : Nat) :
    (forall text, Opens text (valueOpens fuel text)) ∧
      (forall text, Opens text (itemsOpens fuel text)) ∧
      (forall text, Opens text (fieldsOpens fuel text)) := by
  induction fuel with
  | zero =>
      refine ⟨?_, ?_, ?_⟩
      · intro text
        rw [valueOpens]
        exact opens_zero text
      · intro text
        rw [itemsOpens]
        exact opens_zero text
      · intro text
        rw [fieldsOpens]
        exact opens_zero text
  | succ fuel ih =>
      rcases ih with ⟨hvalue, hitems, hfields⟩
      exact ⟨opens_value hitems hfields, opens_items hvalue hitems, opens_fields hvalue hfields⟩

/-- Reading a whole text opens no more containers at once than its bytes let a reader
open. -/
theorem opens_loads (text : Str) : Opens text (loadsOpens text) :=
  opens_skipWs ((opens_parse (text.length + 1)).left (skipWs text))

end Json
end Foundation
end PyChain
