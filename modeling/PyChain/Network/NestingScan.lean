import PyChain.Foundation.Json.Descent
import PyChain.Network.Protocol

/-!
# The nesting scan

The scan before the parser sees brackets exactly where a reader does: it passes a
JSON text if and only if the text is not nested too deeply, and on whatever it
passes no reader ever has too many containers open.
-/

namespace PyChain

open Foundation

namespace Network

namespace DepthScan

def outside (depth : Nat) : DepthScan :=
  { depth := depth, inString := false, escaped := false }

def inside (depth : Nat) : DepthScan :=
  { depth := depth, inString := true, escaped := false }

/-!
## One byte
-/

theorem step_plain (depth : Nat) {b : UInt8} (h : b.toNat ∉ Json.structural) :
    (outside depth).step b = .ok (outside depth) := by
  simp only [Json.structural, List.mem_cons, List.not_mem_nil, or_false, not_or] at h
  rcases h with ⟨hquote, hopen, hclose, hopen', hclose'⟩
  unfold step outside
  simp only [Bool.false_eq_true, if_false, hquote, hopen, hopen', hclose, hclose', or_self]

theorem step_quote (depth : Nat) : (outside depth).step 34 = .ok (inside depth) := rfl

theorem step_enter (depth : Nat) (container : Json.Container) :
    (outside depth).step container.opening =
      if depth + 1 ≤ MAX_JSON_DEPTH then .ok (outside (depth + 1))
      else .error (protocolError "JSON nesting exceeds protocol limit") := by
  have hcount : (outside depth).step container.opening =
      if depth + 1 > MAX_JSON_DEPTH then
        .error (protocolError "JSON nesting exceeds protocol limit")
      else .ok (outside (depth + 1)) := by
    cases container with
    | array => rfl
    | object => rfl
  rw [hcount]
  by_cases hdeep : depth + 1 ≤ MAX_JSON_DEPTH
  · rw [if_pos hdeep, if_neg (not_lt.mpr hdeep)]
  · rw [if_neg hdeep, if_pos (not_le.mp hdeep)]

theorem step_leave (depth : Nat) (container : Json.Container) :
    (outside (depth + 1)).step container.closing = .ok (outside depth) := by
  cases container with
  | array => rfl
  | object => rfl

theorem step_inside (depth : Nat) {b : UInt8} (hquote : b.toNat ≠ 34)
    (hslash : b.toNat ≠ 92) : (inside depth).step b = .ok (inside depth) := by
  unfold step inside
  simp only [if_true, Bool.false_eq_true, if_false, hquote, hslash]

/-!
## Strings of bytes
-/

def bytes (scan : DepthScan) (data : Bytes) : Except PyError DepthScan :=
  data.foldlM step scan

theorem bytes_cons {scan next : DepthScan} {b : UInt8} (hstep : scan.step b = .ok next)
    (rest : Bytes) : scan.bytes (b :: rest) = next.bytes rest := by
  unfold bytes
  rw [List.foldlM_cons, hstep]
  rfl

theorem bytes_cons_error {scan : DepthScan} {b : UInt8} {e : PyError}
    (hstep : scan.step b = .error e) (rest : Bytes) : scan.bytes (b :: rest) = .error e := by
  unfold bytes
  rw [List.foldlM_cons, hstep]
  rfl

theorem bytes_quoted {body : Bytes} (h : Json.Quoted body) (depth : Nat) (rest : Bytes) :
    (inside depth).bytes (body ++ 34 :: rest) = (outside depth).bytes rest := by
  induction h with
  | empty => exact bytes_cons rfl rest
  | byte hquote hslash _ ih =>
      rw [List.cons_append, bytes_cons (step_inside depth hquote hslash)]
      exact ih
  | @escape b tail _ ih =>
      have hslash : (inside depth).step 92 =
          .ok { depth := depth, inString := true, escaped := true } := rfl
      have hnext : ({ depth := depth, inString := true, escaped := true } : DepthScan).step b =
          .ok (inside depth) := rfl
      rw [List.cons_append, bytes_cons hslash, List.cons_append, bytes_cons hnext]
      exact ih

theorem bytes_string {body : Bytes} (h : Json.Quoted body) (depth : Nat) (rest : Bytes) :
    (outside depth).bytes (34 :: (body ++ 34 :: rest)) = (outside depth).bytes rest := by
  rw [bytes_cons (step_quote depth), bytes_quoted h]

theorem bytes_balanced {n : Nat} {data : Bytes} (h : Json.Balanced n data) :
    forall (depth : Nat) (rest : Bytes), depth ≤ MAX_JSON_DEPTH ->
      (outside depth).bytes (data ++ rest) =
        if depth + n ≤ MAX_JSON_DEPTH then (outside depth).bytes rest
        else .error (protocolError "JSON nesting exceeds protocol limit") := by
  induction h with
  | empty =>
      intro depth rest hdepth
      rw [Nat.add_zero, if_pos hdepth]
      rfl
  | byte hb _ ih =>
      intro depth rest hdepth
      rw [List.cons_append, bytes_cons (step_plain depth hb)]
      exact ih depth rest hdepth
  | string hbody _ ih =>
      intro depth rest hdepth
      rw [List.cons_append, List.append_assoc, List.cons_append, bytes_string hbody]
      exact ih depth rest hdepth
  | @container container n m content tail _ _ ihcontent ihtail =>
      intro depth rest hdepth
      rw [List.cons_append, List.append_assoc, List.cons_append]
      have henter := step_enter depth container
      by_cases hdeep : depth + 1 ≤ MAX_JSON_DEPTH
      · rw [if_pos hdeep] at henter
        rw [bytes_cons henter, ihcontent (depth + 1) _ hdeep]
        by_cases hcontent : depth + 1 + n ≤ MAX_JSON_DEPTH
        · rw [if_pos hcontent, bytes_cons (step_leave depth container),
            ihtail depth rest hdepth]
          -- what comes after the container decides
          have hboth : depth + max (n + 1) m ≤ MAX_JSON_DEPTH <-> depth + m ≤ MAX_JSON_DEPTH := by
            omega
          simp only [hboth]
        · rw [if_neg hcontent, if_neg (by omega)]
      · rw [if_neg hdeep] at henter
        rw [bytes_cons_error henter, if_neg (by omega)]

/-!
## Readers behind the scan
-/

/-- The scan passes what a reader has not read, from the containers the reader has open. -/
structure Follows (reader : Json.Descent) : Prop where
  shallow : reader.opened.length ≤ MAX_JSON_DEPTH
  passes : exists last, (outside reader.opened.length).bytes reader.unread = .ok last

theorem Follows.moves {x y : Json.Descent} (hmoves : x.Moves y) (h : Follows x) :
    Follows y := by
  rcases h with ⟨hshallow, last, hlast⟩
  cases hmoves with
  | pass opened unread hb =>
      rw [bytes_cons (step_plain _ hb)] at hlast
      exact ⟨hshallow, last, hlast⟩
  | string opened unread hbody =>
      rw [bytes_string hbody] at hlast
      exact ⟨hshallow, last, hlast⟩
  | enter opened unread container =>
      have henter := step_enter opened.length container
      by_cases hdeep : opened.length + 1 ≤ MAX_JSON_DEPTH
      · rw [if_pos hdeep] at henter
        rw [bytes_cons henter] at hlast
        exact ⟨hdeep, last, hlast⟩
      · rw [if_neg hdeep] at henter
        rw [bytes_cons_error henter] at hlast
        cases hlast
  | leave opened unread container =>
      rw [List.length_cons] at hshallow
      have hrest : (outside (opened.length + 1)).bytes (container.closing :: unread) =
          .ok last := hlast
      rw [bytes_cons (step_leave opened.length container)] at hrest
      exact ⟨Nat.le_of_succ_le hshallow, last, hrest⟩

end DepthScan

theorem checkDepth_eq_ok_iff {data : Bytes} :
    checkDepth data = .ok () <->
      exists last, (DepthScan.outside 0).bytes data = .ok last ∧
        last.inString = false ∧ last.depth = 0 := by
  unfold checkDepth
  rw [bind_eq_ok_iff]
  constructor
  · intro h
    rcases h with ⟨last, hlast, hchecked⟩
    exact ⟨last, hlast, require_eq_ok_iff.mp hchecked⟩
  · intro h
    rcases h with ⟨last, hlast, hclosed⟩
    exact ⟨last, hlast, require_eq_ok_iff.mpr hclosed⟩

theorem checkDepth_balanced {n : Nat} {data : Bytes} (h : Json.Balanced n data) :
    checkDepth data = .ok () <-> n ≤ MAX_JSON_DEPTH := by
  have hscan := DepthScan.bytes_balanced h 0 [] (Nat.zero_le _)
  rw [List.append_nil, Nat.zero_add] at hscan
  rw [checkDepth_eq_ok_iff, hscan]
  constructor
  · intro hpassed
    rcases hpassed with ⟨last, hlast, _⟩
    by_contra hdeep
    rw [if_neg hdeep] at hlast
    cases hlast
  · intro hshallow
    rw [if_pos hshallow]
    exact ⟨DepthScan.outside 0, rfl, rfl, rfl⟩

theorem checkDepth_text {n : Nat} {data : Bytes} (h : Json.Grammar.IsText n data) :
    checkDepth data = .ok () <-> n ≤ MAX_JSON_DEPTH := by
  rcases h with ⟨text, helement, rfl⟩
  exact checkDepth_balanced (Json.Grammar.element_balanced helement)

theorem checkDepth_reader {data : Bytes} (h : checkDepth data = .ok ())
    {reader : Json.Descent} (hreaches : Json.Descent.Reaches ⟨[], data⟩ reader) :
    reader.opened.length ≤ MAX_JSON_DEPTH := by
  rcases checkDepth_eq_ok_iff.mp h with ⟨last, hlast, _⟩
  have hstart : DepthScan.Follows ⟨[], data⟩ := ⟨Nat.zero_le _, last, hlast⟩
  exact (hreaches.invariant (fun _ _ hmoves => DepthScan.Follows.moves hmoves)
    hstart).shallow

theorem checkDepth_loads {data : Bytes} {text : Str} (h : checkDepth data = .ok ())
    (hdecode : decodeUtf8 data = some text) : Json.loadsOpens text ≤ MAX_JSON_DEPTH := by
  rcases Json.opens_loads text [] with ⟨deepest, hreaches, hlength⟩
  rw [encodeUtf8_decodeUtf8 data text hdecode] at hreaches
  have hshallow := checkDepth_reader h hreaches
  rw [hlength, List.length_nil, Nat.zero_add] at hshallow
  exact hshallow

/-- The scan agrees with the grammar on every JSON text, and on whatever it accepts no
recursive-descent reader, the repository's parser among them, ever has more than the
allowed number of containers open. -/
theorem checkDepth_exact :
    (forall nesting data, Json.Grammar.IsText nesting data ->
        (checkDepth data = .ok () <-> nesting ≤ MAX_JSON_DEPTH)) ∧
      (forall data, checkDepth data = .ok () ->
        (forall reader, Json.Descent.Reaches ⟨[], data⟩ reader ->
            reader.opened.length ≤ MAX_JSON_DEPTH) ∧
          forall text, decodeUtf8 data = some text ->
            Json.loadsOpens text ≤ MAX_JSON_DEPTH) := by
  constructor
  · intro nesting data htext
    exact checkDepth_text htext
  · intro data hpassed
    exact ⟨fun reader => checkDepth_reader hpassed, fun text => checkDepth_loads hpassed⟩

/-- An array of a string and an empty array: the bracket in the string does not count. -/
theorem checkDepth_exact_sample : checkDepth (encodeUtf8 (str "[\"]\", []]")) = .ok () := by
  have hstring : Json.Grammar.Value 0 (str "\"]\"") :=
    Json.Grammar.Value.string (Json.Grammar.Chars.unescaped (c := ']') (by decide) (by decide)
      (by decide) Json.Grammar.Chars.empty)
  have hblank : Json.Grammar.Blank [' '] := by
    intro c hc
    rw [List.mem_singleton.mp hc]
    rfl
  have hitems := Json.Grammar.Elements.more
    (Json.Grammar.Element.mk Json.Grammar.blank_nil hstring Json.Grammar.blank_nil)
    (Json.Grammar.Elements.single
      (Json.Grammar.Element.mk hblank (Json.Grammar.Value.emptyArray Json.Grammar.blank_nil)
        Json.Grammar.blank_nil))
  have htext := Json.Grammar.Element.mk Json.Grammar.blank_nil
    (Json.Grammar.Value.array hitems) Json.Grammar.blank_nil
  exact (checkDepth_exact.left 2 _ ⟨_, htext, rfl⟩).mpr (by decide)

end Network

end PyChain
