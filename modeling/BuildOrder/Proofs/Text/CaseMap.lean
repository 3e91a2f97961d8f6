import BuildOrder.Text.Case

/-! Case mappings that reach their results in one step: no code point that another one is mapped to
is mapped to others itself. The tables are compared range by range, not code point by code point. -/
namespace BuildOrder.Text

theorem toNat_ofNat {n : Nat} (h : n.isValidChar) : (Char.ofNat n).toNat = n := by
  rw [Char.ofNat, dif_pos h]
  rfl

namespace CaseRange

/-- The last code point that the range maps to. -/
def targetLast (r : CaseRange) : Nat :=
  r.target + (r.last - r.first)

/-- Whether the range lies off a code point, by its ends or by its stride. -/
def misses (r : CaseRange) (n : Nat) : Bool :=
  Nat.blt n r.first || Nat.blt r.last n || (Nat.beq r.stride 2 && Nat.beq ((r.first + n) % 2) 1)

/-- Whether the code points that the range maps to lie off those of another range. -/
def targetsMiss (r s : CaseRange) : Bool :=
  Nat.blt r.targetLast s.first || Nat.blt s.last r.target ||
    (Nat.beq s.stride 2 && (Nat.beq r.stride 2 || Nat.beq r.first r.last) &&
      Nat.beq ((r.target + s.first) % 2) 1)

def targetsMissCode (r : CaseRange) (n : Nat) : Bool :=
  Nat.blt n r.target || Nat.blt r.targetLast n ||
    (Nat.beq r.stride 2 && Nat.beq ((r.target + n) % 2) 1)

theorem map?_eq_some_iff {r : CaseRange} {n k : Nat} :
    r.map? n = some k ↔
      (r.first ≤ n ∧ n ≤ r.last ∧ (n - r.first) % r.stride = 0) ∧ r.target + (n - r.first) = k := by
  simp [map?]

theorem map?_eq_none_of_misses {r : CaseRange} {n : Nat} (h : r.misses n = true) :
    r.map? n = none := by
  simp only [misses, Bool.or_eq_true, Bool.and_eq_true, Nat.blt_eq, Nat.beq_eq] at h
  rw [map?, if_neg]
  rintro ⟨hfirst, hlast, hstride⟩
  rcases h with (h | h) | ⟨h, hparity⟩
  · omega
  · omega
  · rw [h] at hstride
    omega

theorem misses_of_targetsMiss {r s : CaseRange} {n k : Nat}
    (h : r.targetsMiss s = true) (hk : r.map? n = some k) : s.misses k = true := by
  obtain ⟨⟨hfirst, hlast, hstride⟩, rfl⟩ := map?_eq_some_iff.mp hk
  simp only [targetsMiss, targetLast, Bool.or_eq_true, Bool.and_eq_true, Nat.blt_eq,
    Nat.beq_eq] at h
  simp only [misses, Bool.or_eq_true, Bool.and_eq_true, Nat.blt_eq, Nat.beq_eq]
  rcases h with (h | h) | ⟨⟨h, hsingle⟩, hparity⟩
  · omega
  · omega
  · refine Or.inr ⟨h, ?_⟩
    rcases hsingle with hsingle | hsingle
    · rw [hsingle] at hstride
      omega
    · omega

theorem ne_of_targetsMissCode {r : CaseRange} {n k code : Nat}
    (h : r.targetsMissCode code = true) (hk : r.map? n = some k) : code ≠ k := by
  obtain ⟨⟨hfirst, hlast, hstride⟩, rfl⟩ := map?_eq_some_iff.mp hk
  simp only [targetsMissCode, targetLast, Bool.or_eq_true, Bool.and_eq_true, Nat.blt_eq,
    Nat.beq_eq] at h
  rcases h with (h | h) | ⟨h, hparity⟩
  · omega
  · omega
  · rw [h] at hstride
    omega

end CaseRange

/-- A case mapping: its ASCII part, which changes the letters from `low` to `high` only, and the
tables of the code points above. -/
structure CaseTable where
  ascii : Char → Char
  low : Nat
  high : Nat
  ranges : List CaseRange
  expansions : List (Nat × List Nat)

namespace CaseTable

variable {t : CaseTable} {n k : Nat} {c d : Char}

def map (t : CaseTable) (n : Nat) : List Nat :=
  mapCode t.ranges t.expansions n

def mapChar (t : CaseTable) (c : Char) : List Char :=
  if c.toNat < 0x80 then [t.ascii c] else (t.map c.toNat).map Char.ofNat

/-- Whether all code points from `first` to `last` are characters, and none an ASCII letter that the
mapping changes. -/
def isSpan (t : CaseTable) (first last : Nat) : Bool :=
  (Nat.blt last 0xD800 || (Nat.blt 0xDFFF first && Nat.blt last 0x110000)) &&
    (Nat.blt last t.low || Nat.blt t.high first)

/-- Whether a code point is mapped to itself, as the tables tell. -/
def isFixed (t : CaseTable) (n : Nat) : Bool :=
  t.isSpan n n && t.expansions.all (fun e => e.1 != n) && t.ranges.all fun r => r.misses n

/-- Whether no other code point is mapped to this one or to a sequence with it. -/
def isNoTarget (t : CaseTable) (n : Nat) : Bool :=
  t.ranges.all (fun r => r.targetsMissCode n) && (t.expansions.flatMap (·.2)).all (· != n)

/-- Whether a character, which is no ASCII letter, is its own image and no part of another's. -/
def isOutside (t : CaseTable) (c : Char) : Bool :=
  !c.isAlpha && t.isFixed c.toNat && t.isNoTarget c.toNat

/-- What a character is mapped to stays as it is. -/
structure IsSettled (t : CaseTable) : Prop where
  ascii_ascii : ∀ n < 0x80, (t.ascii (Char.ofNat n)).toNat < 0x80 ∧
    t.ascii (t.ascii (Char.ofNat n)) = t.ascii (Char.ofNat n)
  ascii_self : ∀ n < 0x80, t.ascii (Char.ofNat n) = Char.ofNat n ∨
    (t.low ≤ n ∧ n ≤ t.high ∧ (t.ascii (Char.ofNat n)).isAlpha = true)
  ranges_miss : (t.ranges.all fun r => t.ranges.all r.targetsMiss) = true
  codes_miss : (t.ranges.all fun r => t.isSpan r.target r.targetLast &&
    t.expansions.all fun e => r.targetsMissCode e.1) = true
  expansions_fixed : ((t.expansions.flatMap (·.2)).eraseDups.all t.isFixed) = true

theorem valid_of_isSpan {first last : Nat} (h : t.isSpan first last = true)
    (hfirst : first ≤ n) (hlast : n ≤ last) : n.isValidChar ∧ (n < t.low ∨ t.high < n) := by
  simp only [isSpan, Bool.and_eq_true, Bool.or_eq_true, Nat.blt_eq] at h
  unfold Nat.isValidChar
  omega

theorem isSpan_mono {first last : Nat} (h : t.isSpan first last = true)
    (hfirst : first ≤ n) (hlast : n ≤ last) : t.isSpan n n = true := by
  simp only [isSpan, Bool.and_eq_true, Bool.or_eq_true, Nat.blt_eq] at h ⊢
  omega

theorem valid_of_isFixed (h : t.isFixed n = true) : n.isValidChar ∧ (n < t.low ∨ t.high < n) := by
  simp only [isFixed, Bool.and_eq_true] at h
  exact valid_of_isSpan h.1.1 (Nat.le_refl n) (Nat.le_refl n)

theorem map_of_isFixed (h : t.isFixed n = true) : t.map n = [n] := by
  simp only [isFixed, Bool.and_eq_true, List.all_eq_true] at h
  obtain ⟨⟨-, hcodes⟩, hranges⟩ := h
  have hlookup : t.expansions.lookup n = none := by
    rw [List.lookup_eq_none_iff]
    intro e he
    have hne : e.1 ≠ n := by simpa using hcodes e he
    simpa using hne.symm
  have hfind : t.ranges.findSome? (·.map? n) = none :=
    List.findSome?_eq_none_iff.mpr fun r hr => CaseRange.map?_eq_none_of_misses (hranges r hr)
  rw [map, mapCode, hlookup, hfind]

theorem mem_codes_of_lookup {codes : List Nat} (hlookup : t.expansions.lookup n = some codes)
    (hk : k ∈ codes) : k ∈ t.expansions.flatMap (·.2) := by
  obtain ⟨before, after, hsplit, -⟩ := List.lookup_eq_some_iff.mp hlookup
  have hentry : (n, codes) ∈ t.expansions := by simp [hsplit]
  exact List.mem_flatMap.mpr ⟨(n, codes), hentry, hk⟩

theorem IsSettled.isFixed_of_map? (ht : t.IsSettled) {r : CaseRange} (hr : r ∈ t.ranges)
    (hk : r.map? n = some k) : t.isFixed k = true := by
  have hcodes := List.all_eq_true.mp ht.codes_miss r hr
  have hranges := List.all_eq_true.mp ht.ranges_miss r hr
  rw [Bool.and_eq_true, List.all_eq_true] at hcodes
  rw [List.all_eq_true] at hranges
  obtain ⟨hspan, hcodes⟩ := hcodes
  have hsingle : t.isSpan k k = true := by
    obtain ⟨⟨hfirst, hlast, -⟩, rfl⟩ := CaseRange.map?_eq_some_iff.mp hk
    exact isSpan_mono hspan (Nat.le_add_right _ _) (by unfold CaseRange.targetLast; omega)
  simp only [isFixed, Bool.and_eq_true, List.all_eq_true]
  refine ⟨⟨hsingle, fun e he => ?_⟩, fun s hs => CaseRange.misses_of_targetsMiss (hranges s hs) hk⟩
  simpa using CaseRange.ne_of_targetsMissCode (hcodes e he) hk

/-- A code point that is mapped at all is mapped to code points that stay as they are. -/
theorem IsSettled.map_cases (ht : t.IsSettled) (n : Nat) :
    t.map n = [n] ∨ ∀ k ∈ t.map n, t.isFixed k = true := by
  rw [map, mapCode]
  cases hlookup : t.expansions.lookup n with
  | some codes =>
    refine Or.inr fun k hk => ?_
    have hall := List.all_eq_true.mp ht.expansions_fixed
    exact hall k (List.mem_eraseDups.mpr (mem_codes_of_lookup hlookup hk))
  | none =>
    cases hfind : t.ranges.findSome? (·.map? n) with
    | none => exact Or.inl rfl
    | some k =>
      obtain ⟨r, hr, hk⟩ := List.exists_of_findSome?_eq_some hfind
      refine Or.inr fun k' hk' => ?_
      rw [List.mem_singleton.mp hk']
      exact ht.isFixed_of_map? hr hk

theorem eq_of_mem_map (hk : t.isNoTarget k = true) (hmem : k ∈ t.map n) : n = k := by
  simp only [isNoTarget, Bool.and_eq_true, List.all_eq_true, bne_iff_ne] at hk
  obtain ⟨hranges, hcodes⟩ := hk
  rw [map, mapCode] at hmem
  cases hlookup : t.expansions.lookup n with
  | some codes =>
    rw [hlookup] at hmem
    exact absurd rfl (hcodes k (mem_codes_of_lookup hlookup hmem))
  | none =>
    rw [hlookup] at hmem
    cases hfind : t.ranges.findSome? (·.map? n) with
    | none =>
      rw [hfind] at hmem
      exact (List.mem_singleton.mp hmem).symm
    | some code =>
      rw [hfind, List.mem_singleton] at hmem
      obtain ⟨r, hr, hcode⟩ := List.exists_of_findSome?_eq_some hfind
      exact absurd hmem (CaseRange.ne_of_targetsMissCode (hranges r hr) hcode)

theorem map_ne_nil (h : (t.expansions.all fun e => !e.2.isEmpty) = true) (n : Nat) :
    t.map n ≠ [] := by
  rw [map, mapCode]
  cases hlookup : t.expansions.lookup n with
  | some codes =>
    obtain ⟨before, after, hsplit, -⟩ := List.lookup_eq_some_iff.mp hlookup
    have hentry := List.all_eq_true.mp h (n, codes) (by simp [hsplit])
    simpa using hentry
  | none => cases t.ranges.findSome? (·.map? n) <;> simp

theorem IsSettled.mapChar_ofNat (ht : t.IsSettled) (h : t.isFixed n = true) :
    t.mapChar (Char.ofNat n) = [Char.ofNat n] := by
  obtain ⟨hvalid, hletter⟩ := valid_of_isFixed h
  rw [mapChar, toNat_ofNat hvalid]
  by_cases hascii : n < 0x80
  · rcases ht.ascii_self n hascii with hself | ⟨hlow, hhigh, -⟩
    · rw [if_pos hascii, hself]
    · omega
  · rw [if_neg hascii, map_of_isFixed h]
    rfl

theorem IsSettled.mapChar_of_mem (ht : t.IsSettled) (hmem : d ∈ t.mapChar c) :
    t.mapChar d = [d] := by
  by_cases hascii : c.toNat < 0x80
  · obtain ⟨hsmall, htwice⟩ := ht.ascii_ascii c.toNat hascii
    rw [Char.ofNat_toNat] at hsmall htwice
    rw [mapChar, if_pos hascii, List.mem_singleton] at hmem
    rw [hmem, mapChar, if_pos hsmall, htwice]
  · have hc : t.mapChar c = (t.map c.toNat).map Char.ofNat := if_neg hascii
    rcases ht.map_cases c.toNat with hself | hfixed
    · have hcc : t.mapChar c = [c] := by rw [hc, hself, List.map_singleton, Char.ofNat_toNat]
      rw [hcc, List.mem_singleton] at hmem
      rw [hmem, hcc]
    · rw [hc] at hmem
      obtain ⟨k, hk, rfl⟩ := List.mem_map.mp hmem
      exact ht.mapChar_ofNat (hfixed k hk)

/-- A character outside the mapping is only in its own image. -/
theorem IsSettled.mem_mapChar_iff (ht : t.IsSettled) (hd : t.isOutside d = true) :
    d ∈ t.mapChar c ↔ c = d := by
  simp only [isOutside, Bool.and_eq_true, Bool.not_eq_true'] at hd
  obtain ⟨⟨halpha, hfixed⟩, hnone⟩ := hd
  constructor
  · intro hmem
    by_cases hascii : c.toNat < 0x80
    · rw [mapChar, if_pos hascii, List.mem_singleton] at hmem
      have hself := ht.ascii_self c.toNat hascii
      rw [Char.ofNat_toNat, ← hmem, halpha] at hself
      simpa [eq_comm] using hself
    · rw [mapChar, if_neg hascii] at hmem
      obtain ⟨k, hk, rfl⟩ := List.mem_map.mp hmem
      rcases ht.map_cases c.toNat with hself | hcodes
      · rw [hself, List.mem_singleton] at hk
        rw [hk, Char.ofNat_toNat]
      · rw [toNat_ofNat (valid_of_isFixed (hcodes k hk)).1] at hnone
        rw [← eq_of_mem_map hnone hk, Char.ofNat_toNat]
  · rintro rfl
    have hself := ht.mapChar_ofNat hfixed
    rw [Char.ofNat_toNat] at hself
    rw [hself]
    exact List.mem_singleton_self c

end CaseTable

end BuildOrder.Text
