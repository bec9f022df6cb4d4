import Mathlib.Logic.Relation
import PyChain.Foundation.Text

/-!
# Brackets and quotes

JSON text as bytes, with everything but its strings, arrays and objects forgotten:
what may stand between quotes, which byte strings close all that they open, and
what a recursive-descent reader does to its stack of open containers.
-/

namespace PyChain
namespace Foundation
namespace Json

/-!
## Bytes
-/

/-- The bytes that open and close strings, arrays and objects. -/
def structural : List Nat :=
  [34, 91, 93, 123, 125]

/-- No byte opens or closes anything. -/
def Plain (data : Bytes) : Prop :=
  forall b, b ∈ data -> b.toNat ∉ structural

/-- What a reader can find between quotes: a backslash hides the byte after it. -/
inductive Quoted : Bytes -> Prop where
  | empty : Quoted []
  | byte {b : UInt8} {rest : Bytes} :
      b.toNat ≠ 34 -> b.toNat ≠ 92 -> Quoted rest -> Quoted (b :: rest)
  | escape {b : UInt8} {rest : Bytes} : Quoted rest -> Quoted (92 :: b :: rest)

inductive Container where
  | array
  | object
deriving DecidableEq, Repr

namespace Container

def opening : Container -> UInt8
  | array => 91
  | object => 123

def closing : Container -> UInt8
  | array => 93
  | object => 125

end Container

/-- Byte strings that close all that they open, with their nesting: how many containers
are open at once at the deepest place. -/
inductive Balanced : Nat -> Bytes -> Prop where
  | empty : Balanced 0 []
  | byte {n : Nat} {b : UInt8} {rest : Bytes} :
      b.toNat ∉ structural -> Balanced n rest -> Balanced n (b :: rest)
  | string {n : Nat} {body rest : Bytes} :
      Quoted body -> Balanced n rest -> Balanced n (34 :: (body ++ 34 :: rest))
  | container (container : Container) {n m : Nat} {content rest : Bytes} :
      Balanced n content -> Balanced m rest ->
        Balanced (max (n + 1) m)
          (container.opening :: (content ++ container.closing :: rest))

theorem quoted_append {x y : Bytes} (hx : Quoted x) (hy : Quoted y) : Quoted (x ++ y) := by
  induction hx with
  | empty => exact hy
  | byte hquote hslash _ ih => exact Quoted.byte hquote hslash ih
  | escape _ ih => exact Quoted.escape ih

namespace Balanced

theorem plain_append {n : Nat} {x y : Bytes} (hx : Plain x) (hy : Balanced n y) :
    Balanced n (x ++ y) := by
  induction x with
  | nil => exact hy
  | cons b rest ih =>
      apply Balanced.byte (hx b List.mem_cons_self)
      exact ih fun c hc => hx c (List.mem_cons_of_mem b hc)

theorem of_plain {x : Bytes} (h : Plain x) : Balanced 0 x := by
  have happend := plain_append h Balanced.empty
  rw [List.append_nil] at happend
  exact happend

theorem append {n m : Nat} {x y : Bytes} (hx : Balanced n x) (hy : Balanced m y) :
    Balanced (max n m) (x ++ y) := by
  induction hx with
  | empty =>
      rw [Nat.zero_max]
      exact hy
  | byte hb _ ih => exact Balanced.byte hb ih
  | string hbody _ ih =>
      rw [List.cons_append, List.append_assoc, List.cons_append]
      exact Balanced.string hbody ih
  | container container hcontent _ _ ih =>
      rw [List.cons_append, List.append_assoc, List.cons_append, Nat.max_assoc]
      exact Balanced.container container hcontent ih

theorem enclosed (container : Container) {n : Nat} {content : Bytes}
    (h : Balanced n content) :
    Balanced (n + 1) (container.opening :: (content ++ [container.closing])) := by
  have hclosed := Balanced.container container h Balanced.empty
  rw [Nat.max_zero] at hclosed
  exact hclosed

end Balanced

/-!
## Readers
-/

/-- A reader on its way: the containers it has open and the bytes it has not read. -/
structure Descent where
  opened : List Container
  unread : Bytes

namespace Descent

/-- One move of a reader: it passes a byte of a number, a word, a separator or
whitespace, reads a string to its closing quote, opens a container, or closes the
innermost one. -/
inductive Moves : Descent -> Descent -> Prop where
  | pass (opened : List Container) (unread : Bytes) {b : UInt8} :
      b.toNat ∉ structural -> Moves ⟨opened, b :: unread⟩ ⟨opened, unread⟩
  | string (opened : List Container) (unread : Bytes) {body : Bytes} :
      Quoted body -> Moves ⟨opened, 34 :: (body ++ 34 :: unread)⟩ ⟨opened, unread⟩
  | enter (opened : List Container) (unread : Bytes) (container : Container) :
      Moves ⟨opened, container.opening :: unread⟩ ⟨container :: opened, unread⟩
  | leave (opened : List Container) (unread : Bytes) (container : Container) :
      Moves ⟨container :: opened, container.closing :: unread⟩ ⟨opened, unread⟩

def Reaches : Descent -> Descent -> Prop :=
  Relation.ReflTransGen Moves

/-- What holds at the start and is kept by every move holds wherever a reader gets. -/
theorem Reaches.invariant {Inv : Descent -> Prop}
    (hmoves : forall x y, Moves x y -> Inv x -> Inv y) {x y : Descent}
    (h : Reaches x y) (hx : Inv x) : Inv y := by
  induction h with
  | refl => exact hx
  | tail _ hmove ih => exact hmoves _ _ hmove ih

theorem Reaches.trans {x y z : Descent} (hxy : Reaches x y) (hyz : Reaches y z) :
    Reaches x z :=
  Relation.ReflTransGen.trans hxy hyz

theorem Moves.reaches {x y : Descent} (h : Moves x y) : Reaches x y :=
  Relation.ReflTransGen.single h

/-- A reader gets through what is balanced, and is as deep in it as it is nested. -/
theorem reaches_balanced {n : Nat} {data : Bytes} (h : Balanced n data) :
    forall (opened : List Container) (unread : Bytes),
      Reaches ⟨opened, data ++ unread⟩ ⟨opened, unread⟩ ∧
        exists deepest, Reaches ⟨opened, data ++ unread⟩ deepest ∧
          deepest.opened.length = opened.length + n := by
  induction h with
  | empty =>
      intro opened unread
      exact ⟨Relation.ReflTransGen.refl, ⟨opened, unread⟩, Relation.ReflTransGen.refl, rfl⟩
  | @byte n b rest hb _ ih =>
      intro opened unread
      rcases ih opened unread with ⟨hthrough, deepest, hdeepest, hlength⟩
      have hpass := (Moves.pass opened (rest ++ unread) hb).reaches
      exact ⟨hpass.trans hthrough, deepest, hpass.trans hdeepest, hlength⟩
  | @string n body rest hbody _ ih =>
      intro opened unread
      rcases ih opened unread with ⟨hthrough, deepest, hdeepest, hlength⟩
      rw [List.cons_append, List.append_assoc, List.cons_append]
      have hstring := (Moves.string opened (rest ++ unread) hbody).reaches
      exact ⟨hstring.trans hthrough, deepest, hstring.trans hdeepest, hlength⟩
  | @container container n m content rest _ _ ihcontent ihrest =>
      intro opened unread
      rw [List.cons_append, List.append_assoc, List.cons_append]
      have henter := (Moves.enter opened (content ++ container.closing :: (rest ++ unread))
        container).reaches
      rcases ihcontent (container :: opened) (container.closing :: (rest ++ unread)) with
        ⟨hcontent, inner, hinner, hinside⟩
      have hleft := (henter.trans hcontent).trans (Moves.leave opened _ container).reaches
      rcases ihrest opened unread with ⟨hthrough, outer, houter, houtside⟩
      refine ⟨hleft.trans hthrough, ?_⟩
      rw [List.length_cons] at hinside
      rcases Nat.le_total (n + 1) m with hle | hle
      · refine ⟨outer, hleft.trans houter, ?_⟩
        rw [Nat.max_eq_right hle, houtside]
      · refine ⟨inner, henter.trans hinner, ?_⟩
        rw [Nat.max_eq_left hle, hinside]
        omega

end Descent

/-!
## Characters
-/

theorem encodeUtf8_cons (c : Char) (rest : Str) :
    encodeUtf8 (c :: rest) = String.utf8EncodeChar c ++ encodeUtf8 rest :=
  List.flatMap_cons

/-- What holds of a character of ASCII and of every high byte holds of the bytes of a
character. -/
theorem utf8EncodeChar_forall {P : Nat -> Prop} {c : Char} (hc : P c.toNat)
    (hhigh : forall code, 128 ≤ code -> P code) :
    forall b, b ∈ String.utf8EncodeChar c -> P b.toNat := by
  intro b hb
  by_cases hascii : c.toNat < 128
  · rw [utf8EncodeChar_ascii hascii, List.mem_singleton] at hb
    rw [hb, toNat_ofNat_byte (by omega)]
    exact hc
  · exact hhigh _ (utf8EncodeChar_high (not_lt.mp hascii) b hb)

theorem plain_text {text : Str} (h : forall c, c ∈ text -> c.toNat ∉ structural) :
    Plain (encodeUtf8 text) := by
  intro b hb
  rcases List.mem_flatMap.mp hb with ⟨c, hc, hbyte⟩
  refine @utf8EncodeChar_forall (fun code => code ∉ structural) c (h c hc) ?_ b hbyte
  intro code hcode
  simp only [structural, List.mem_cons, List.not_mem_nil, or_false]
  omega

/-- The check of a given text. -/
theorem plain_of_all {text : Str}
    (h : text.all (fun c => c.toNat ∉ structural) = true) : Plain (encodeUtf8 text) := by
  apply plain_text
  intro c hc
  exact of_decide_eq_true (List.all_eq_true.mp h c hc)

theorem quoted_bytes {data : Bytes}
    (h : forall b, b ∈ data -> b.toNat ≠ 34 ∧ b.toNat ≠ 92) : Quoted data := by
  induction data with
  | nil => exact Quoted.empty
  | cons b rest ih =>
      rcases h b List.mem_cons_self with ⟨hquote, hslash⟩
      exact Quoted.byte hquote hslash (ih fun c hc => h c (List.mem_cons_of_mem b hc))

theorem quoted_cons {c : Char} {rest : Str} (hquote : c.toNat ≠ 34) (hslash : c.toNat ≠ 92)
    (hrest : Quoted (encodeUtf8 rest)) : Quoted (encodeUtf8 (c :: rest)) := by
  rw [encodeUtf8_cons]
  apply quoted_append (quoted_bytes ?_) hrest
  apply @utf8EncodeChar_forall (fun code => code ≠ 34 ∧ code ≠ 92) c ⟨hquote, hslash⟩
  intro code hcode
  omega

/-- A backslash and a character of ASCII. -/
theorem quoted_escape {c : Char} {rest : Str} (hc : c.toNat < 128)
    (hrest : Quoted (encodeUtf8 rest)) : Quoted (encodeUtf8 ('\\' :: c :: rest)) := by
  rw [encodeUtf8_cons_ascii (by decide), encodeUtf8_cons_ascii hc]
  exact Quoted.escape hrest

end Json
end Foundation
end PyChain
