import BuildOrder.Proofs.Distinct
import BuildOrder.Proofs.Text.Line
import BuildOrder.Proofs.Text.Upper
import BuildOrder.Symbols.Extract

/-! Symbols come from the lines of a text, each on its own: which lines there are decides on the
symbols, and how the lines are arranged only on their order, which is that of their first lines. -/
namespace BuildOrder
open Text

/-- Texts with the same lines, in any order and each any number of times. -/
def SameLines (a b : List Char) : Prop :=
  ∀ line, line ∈ lines a ↔ line ∈ lines b

instance (a b : List Char) : Decidable (SameLines a b) :=
  decidable_of_iff ((∀ line ∈ lines a, line ∈ lines b) ∧ ∀ line ∈ lines b, line ∈ lines a)
    ⟨fun h line => ⟨h.1 line, h.2 line⟩,
      fun h => ⟨fun line => (h line).mp, fun line => (h line).mpr⟩⟩

/-- A line whose first word is a keyword in any ASCII case, with its second word. -/
def LeadsWith (keyword : String) (line operand : List Char) : Prop :=
  ∃ first rest, words line = first :: operand :: rest ∧
    eqIgnoringAsciiCase (String.ofList first) keyword = true

section LeadsWith

variable {keyword : String} {line operand : List Char}

theorem leadsWith_iff {first second : List Char} {rest : List (List Char)}
    (hwords : words line = first :: second :: rest) : LeadsWith keyword line operand ↔
      eqIgnoringAsciiCase (String.ofList first) keyword = true ∧ operand = second := by
  constructor
  · rintro ⟨first', rest', hwords', hkeyword⟩
    rw [hwords] at hwords'
    cases hwords'
    exact ⟨hkeyword, rfl⟩
  · rintro ⟨hkeyword, rfl⟩
    exact ⟨first, rest, hwords, hkeyword⟩

theorem not_leadsWith (hwords : ∀ first second rest, words line = first :: second :: rest → False) :
    ¬LeadsWith keyword line operand :=
  fun ⟨first, rest, hline, _⟩ => hwords first operand rest hline

theorem LeadsWith.word (h : LeadsWith keyword line operand) :
    operand ≠ [] ∧ ∀ c ∈ operand, isBlank c = false := by
  obtain ⟨first, rest, hwords, -⟩ := h
  have hmem : operand ∈ words line := by simp [hwords]
  exact of_mem_words hmem

end LeadsWith

section InLineOrder

variable {Contributes : List Char → String → Prop} {texts : List (List Char)} {a b : String}

/-- A line contributes `a` before any line contributes `b`. -/
def FirstBefore (Contributes : List Char → String → Prop) (texts : List (List Char))
    (a b : String) : Prop :=
  ∃ before line after, texts = before ++ line :: after ∧ Contributes line a ∧
    ∀ earlier ∈ before ++ [line], ¬Contributes earlier b

/-- What the lines contribute, each symbol once, in the order of the first lines with them. -/
structure InLineOrder (Contributes : List Char → String → Prop) (texts : List (List Char))
    (symbols : List String) : Prop where
  nodup : symbols.Nodup
  mem_iff : ∀ symbol, symbol ∈ symbols ↔ ∃ line ∈ texts, Contributes line symbol
  pairwise : symbols.Pairwise (FirstBefore Contributes texts)

theorem FirstBefore.append (h : FirstBefore Contributes texts a b) (more : List (List Char)) :
    FirstBefore Contributes (texts ++ more) a b := by
  obtain ⟨before, line, after, rfl, ha, hb⟩ := h
  exact ⟨before, line, after ++ more, by simp, ha, hb⟩

theorem firstBefore_of_not_contributed (ha : ∃ line ∈ texts, Contributes line a)
    (hb : ∀ line ∈ texts, ¬Contributes line b) : FirstBefore Contributes texts a b := by
  obtain ⟨line, hline, hcontributes⟩ := ha
  obtain ⟨before, after, rfl⟩ := List.append_of_mem hline
  refine ⟨before, line, after, rfl, hcontributes, fun earlier hearlier => hb earlier ?_⟩
  rcases List.mem_append.mp hearlier with hearlier | hearlier
  · exact List.mem_append_left _ hearlier
  · exact List.mem_append_right _ (List.mem_singleton.mp hearlier ▸ List.mem_cons_self)

/-- Lines that contribute one symbol at most do so in line order. -/
theorem inLineOrder_eraseDups {found : List Char → List String}
    (hfound : ∀ line symbol, symbol ∈ found line ↔ Contributes line symbol)
    (hone : ∀ line, (found line).length ≤ 1) (texts : List (List Char)) :
    InLineOrder Contributes texts (texts.flatMap found).eraseDups := by
  have hmem : ∀ (texts : List (List Char)) symbol, symbol ∈ (texts.flatMap found).eraseDups ↔
      ∃ line ∈ texts, Contributes line symbol := by
    intro texts symbol
    simp only [List.mem_eraseDups, List.mem_flatMap, hfound]
  refine ⟨nodup_eraseDups _, hmem texts, ?_⟩
  induction texts using List.reverseRecOn with
  | nil => exact .nil
  | append_singleton texts line ih =>
    have hold : (texts.flatMap found).eraseDups.Pairwise
        (FirstBefore Contributes (texts ++ [line])) := ih.imp fun h => h.append [line]
    rw [List.flatMap_append, List.flatMap_singleton]
    match hline : found line, hone line with
    | [], _ => rwa [List.append_nil]
    | [symbol], _ =>
      rw [eraseDups_append_singleton]
      split_ifs with hseen
      · rwa [List.append_nil]
      · -- No line so far contributes the new symbol, so all others come before it.
        refine List.pairwise_append.mpr ⟨hold, List.pairwise_singleton _ _, ?_⟩
        intro a ha b hb
        rw [List.mem_singleton.mp hb]
        refine (firstBefore_of_not_contributed ((hmem texts a).mp ha) ?_).append [line]
        rw [← List.mem_eraseDups, hmem] at hseen
        exact fun earlier hearlier hc => hseen ⟨earlier, hearlier, hc⟩

end InLineOrder

namespace Symbols

/-- Symbols that differ only in their order. -/
structure Rearranged (a b : Symbols) : Prop where
  provides : a.provides.Perm b.provides
  requires : a.requires.Perm b.requires

theorem Rearranged.refl (symbols : Symbols) : Rearranged symbols symbols :=
  ⟨.refl _, .refl _⟩

theorem mem_provides_collect {parts : List Symbols} {symbol : String} :
    symbol ∈ (collect parts).provides ↔ ∃ part ∈ parts, symbol ∈ part.provides := by
  rw [collect, List.mem_eraseDups, List.mem_flatMap]

theorem mem_requires_collect {parts : List Symbols} {symbol : String} :
    symbol ∈ (collect parts).requires ↔ ∃ part ∈ parts, symbol ∈ part.requires := by
  rw [collect, List.mem_eraseDups, List.mem_flatMap]

theorem rearranged_collect {parts parts' : List Symbols}
    (h : ∀ part, part ∈ parts ↔ part ∈ parts') : Rearranged (collect parts) (collect parts') := by
  constructor
  · refine perm_eraseDups fun symbol => ?_
    simp only [List.mem_flatMap, h]
  · refine perm_eraseDups fun symbol => ?_
    simp only [List.mem_flatMap, h]

section OneByOne

/-- The symbols of a part, added one by one to those that are there. -/
def addAll (s part : Symbols) : Symbols :=
  part.requires.foldl addRequired (part.provides.foldl addProvided s)

theorem eraseDups_append_eq_foldl (xs ys : List String) :
    (xs ++ ys).eraseDups = ys.foldl appendNew xs.eraseDups := by
  induction ys using List.reverseRecOn with
  | nil => rw [List.append_nil, List.foldl_nil]
  | append_singleton ys y ih =>
    rw [← List.append_assoc, eraseDups_append_singleton, ih, List.foldl_append, List.foldl_cons,
      List.foldl_nil, appendNew, ← ih]
    simp only [List.mem_eraseDups]
    split <;> simp

theorem foldl_addProvided (symbols : List String) (s : Symbols) :
    symbols.foldl addProvided s = { s with provides := symbols.foldl appendNew s.provides } := by
  induction symbols generalizing s with
  | nil => rfl
  | cons symbol symbols ih => exact ih (s.addProvided symbol)

theorem foldl_addRequired (symbols : List String) (s : Symbols) :
    symbols.foldl addRequired s = { s with requires := symbols.foldl appendNew s.requires } := by
  induction symbols generalizing s with
  | nil => rfl
  | cons symbol symbols ih => exact ih (s.addRequired symbol)

theorem collect_append_singleton (parts : List Symbols) (part : Symbols) :
    collect (parts ++ [part]) = (collect parts).addAll part := by
  simp only [collect, addAll, foldl_addProvided, foldl_addRequired, List.flatMap_append,
    List.flatMap_singleton, eraseDups_append_eq_foldl]

/-- The symbols of a text are those of its lines, added one by one as the lines come. -/
theorem ofText_eq_foldl (dialect : Dialect) (fileName : String) (content : List Char) :
    ofText dialect fileName content =
      (lines content).foldl
        (fun s line => s.addAll (ofLine dialect (upper ((Path.stem? fileName).getD "")) line)) {} := by
  have hcollect : ∀ parts : List Symbols, collect parts = parts.foldl addAll {} := by
    intro parts
    induction parts using List.reverseRecOn with
    | nil => rfl
    | append_singleton parts part ih =>
      rw [collect_append_singleton, ih, List.foldl_append, List.foldl_cons, List.foldl_nil]
  rw [ofText, hcollect, List.foldl_map]

end OneByOne

section LineByLine

variable {dialect : Dialect} {fileName : String} {content : List Char}

theorem provides_ofText : (ofText dialect fileName content).provides =
    ((lines content).flatMap fun line =>
      (ofLine dialect (upper ((Path.stem? fileName).getD "")) line).provides).eraseDups := by
  rw [ofText, collect, List.flatMap_map]

theorem requires_ofText : (ofText dialect fileName content).requires =
    ((lines content).flatMap fun line =>
      (ofLine dialect (upper ((Path.stem? fileName).getD "")) line).requires).eraseDups := by
  simp only [ofText, collect, List.flatMap_map]

/-- A line provides one symbol at most, and requires one at most. -/
theorem length_ofLine_le (dialect : Dialect) (stem : String) (line : List Char) :
    (ofLine dialect stem line).provides.length ≤ 1 ∧
      (ofLine dialect stem line).requires.length ≤ 1 := by
  unfold ofLine
  split
  · cases dialect with
    | modules =>
      simp only [ofStatement]
      split_ifs <;> simp
    | includes =>
      simp only [ofDirective]
      split_ifs <;> simp
  · simp

variable {Contributes : List Char → String → Prop}

theorem inLineOrder_provides (h : ∀ line symbol,
    symbol ∈ (ofLine dialect (upper ((Path.stem? fileName).getD "")) line).provides ↔
      Contributes line symbol) :
    InLineOrder Contributes (lines content) (ofText dialect fileName content).provides := by
  rw [provides_ofText]
  exact inLineOrder_eraseDups h (fun line => (length_ofLine_le dialect _ line).1) _

theorem inLineOrder_requires (h : ∀ line symbol,
    symbol ∈ (ofLine dialect (upper ((Path.stem? fileName).getD "")) line).requires ↔
      Contributes line symbol) :
    InLineOrder Contributes (lines content) (ofText dialect fileName content).requires := by
  rw [requires_ofText]
  exact inLineOrder_eraseDups h (fun line => (length_ofLine_le dialect _ line).2) _

end LineByLine

/-- Texts with the same lines have the same symbols. -/
theorem rearranged_ofText {a b : List Char} (h : SameLines a b) (dialect : Dialect)
    (fileName : String) : Rearranged (ofText dialect fileName a) (ofText dialect fileName b) := by
  apply rearranged_collect
  intro part
  simp only [List.mem_map, h _]

theorem upper_of_mem_ofStatement {keyword operand symbol : String}
    (hs : symbol ∈ (ofStatement keyword operand).provides) : upper symbol = symbol := by
  simp only [ofStatement] at hs
  split_ifs at hs
  case pos => rw [List.mem_singleton.mp hs, upper_upper]
  all_goals cases hs

theorem upper_of_mem_ofDirective {stem keyword operand symbol : String}
    (hs : symbol ∈ (ofDirective stem keyword operand).provides) : upper symbol = symbol := by
  simp only [ofDirective] at hs
  split_ifs at hs
  case pos => rw [List.mem_singleton.mp hs, includeName, upper_upper]
  all_goals cases hs

theorem upper_of_mem_ofLine {dialect : Dialect} {stem symbol : String} {line : List Char}
    (hs : symbol ∈ (ofLine dialect stem line).provides) : upper symbol = symbol := by
  simp only [ofLine] at hs
  split at hs
  · cases dialect with
    | modules => exact upper_of_mem_ofStatement hs
    | includes => exact upper_of_mem_ofDirective hs
  · cases hs

/-- Provided symbols are in upper case already. -/
theorem upper_of_mem_ofText {dialect : Dialect} {fileName symbol : String} {content : List Char}
    (hs : symbol ∈ (ofText dialect fileName content).provides) : upper symbol = symbol := by
  obtain ⟨part, hpart, hs⟩ := mem_provides_collect.mp hs
  obtain ⟨line, -, rfl⟩ := List.mem_map.mp hpart
  exact upper_of_mem_ofLine hs

/-- A file provides no symbol twice, up to case. -/
theorem nodup_upper_ofText (dialect : Dialect) (fileName : String) (content : List Char) :
    ((ofText dialect fileName content).provides.map upper).Nodup := by
  have hself : (ofText dialect fileName content).provides.map upper =
      (ofText dialect fileName content).provides := by
    refine (List.map_congr_left fun symbol hs => ?_).trans (List.map_id _)
    exact upper_of_mem_ofText hs
  rw [hself]
  exact nodup_eraseDups _

end Symbols
end BuildOrder
