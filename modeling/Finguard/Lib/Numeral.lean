import Mathlib
import Finguard.Lib.Text

/-! The texts that are read as whole numbers: decimal digits, between which single underscores may
stand, with a sign in front and white space around them. -/

namespace Text

class DecimalDigits where
  value : Char → Option ℕ
  value_ascii : ∀ c, c.isDigit → value c = some (c.toNat - '0'.toNat)

abbrev DecimalDigits.ascii : DecimalDigits where
  value c := if c.isDigit then some (c.toNat - '0'.toNat) else none
  value_ascii _ h := if_pos h

variable [DecimalDigits]

/-- More digits than this are not read. -/
def maxDigits : ℕ := 4300

def digits? (cs : List Char) : Option (List ℕ) :=
  let groups := cs.splitOnP (· == '_')
  if groups.any List.isEmpty then none else groups.flatten.mapM DecimalDigits.value

def natOf? (cs : List Char) : Option ℕ := do
  let digits ← digits? cs
  if maxDigits < digits.length then none
  else return digits.foldl (fun n digit => 10 * n + digit) 0

def intOf? (s : String) : Option ℤ :=
  match (strip s).toList with
  | '-' :: cs => (natOf? cs).map fun n => -(n : ℤ)
  | '+' :: cs => (natOf? cs).map Nat.cast
  | cs => (natOf? cs).map Nat.cast

omit [DecimalDigits] in
theorem isSpace_of_isDigit {c : Char} (h : c.isDigit) : isSpace c = false := by
  have hrange : 48 ≤ c.toNat ∧ c.toNat ≤ 57 := by
    simpa [Char.isDigit, UInt32.le_iff_toNat_le] using h
  simp only [isSpace, Bool.or_eq_false_iff, Bool.and_eq_false_iff, decide_eq_false_iff_not]
  refine ⟨⟨⟨by omega, by omega⟩, by omega⟩, ?_⟩
  simp only [List.contains_eq_mem, decide_eq_false_iff_not, List.mem_cons, List.not_mem_nil,
    or_false]
  omega

omit [DecimalDigits] in
theorem strip_of_not_isSpace {s : String} (h : ∀ c ∈ s.toList, isSpace c = false) :
    strip s = s := by
  have hfront : s.toList.dropWhile isSpace = s.toList := by
    rw [List.dropWhile_eq_self_iff]
    intro hl
    simp [h _ (List.getElem_mem hl)]
  have hback : s.toList.rdropWhile isSpace = s.toList := by
    rw [List.rdropWhile_eq_self_iff]
    intro hl
    simp [h _ (List.getLast_mem hl)]
  rw [strip, hfront, hback, String.ofList_toList]

theorem digits?_of_isDigit {cs : List Char} (hne : cs ≠ []) (h : ∀ c ∈ cs, c.isDigit) :
    digits? cs = some (cs.map fun c => c.toNat - '0'.toNat) := by
  have hplain : ∀ c ∈ cs, (c == '_') = false := by
    intro c hc
    have hdigit := h c hc
    rw [beq_eq_false_iff_ne]
    rintro rfl
    cases hdigit
  have hmap : ∀ ds : List Char, (∀ c ∈ ds, c.isDigit) →
      ds.mapM DecimalDigits.value = some (ds.map fun c => c.toNat - '0'.toNat) := by
    intro ds hds
    induction ds with
    | nil => rfl
    | cons c ds ih =>
      rw [List.forall_mem_cons] at hds
      simp [List.mapM_cons, DecimalDigits.value_ascii c hds.1, ih hds.2]
  have hempty : [cs].any List.isEmpty = false := by simpa using hne
  simp only [digits?, List.splitOnP_eq_singleton hplain, hempty, Bool.false_eq_true, if_false]
  rw [List.flatten_singleton, hmap cs h]

theorem natOf?_natChars (n : ℕ) :
    natOf? (natChars n) = if maxDigits < (natChars n).length then none else some n := by
  have hne : natChars n ≠ [] := Nat.toDigits_ne_nil
  have hdigits := digits?_of_isDigit hne (fun c hc => isDigit_of_mem_natChars hc)
  have hvalue : ((natChars n).map fun c => c.toNat - '0'.toNat).foldl
      (fun n digit => 10 * n + digit) 0 = n := by
    rw [List.foldl_map, ← Nat.ofDigitChars_eq_foldl]
    exact natOfChars_natChars n
  rw [natOf?, hdigits, Option.bind_eq_bind, Option.bind_some, List.length_map, hvalue]
  rfl

theorem intOf?_natChars (n : ℕ) : intOf? (String.ofList (natChars n)) =
    if maxDigits < (natChars n).length then none else some (n : ℤ) := by
  have hdigit : ∀ c ∈ natChars n, c.isDigit := fun c hc => isDigit_of_mem_natChars hc
  have hstrip : strip (String.ofList (natChars n)) = String.ofList (natChars n) := by
    apply strip_of_not_isSpace
    intro c hc
    rw [String.toList_ofList] at hc
    exact isSpace_of_isDigit (hdigit c hc)
  have hsign : intOf? (String.ofList (natChars n)) = (natOf? (natChars n)).map Nat.cast := by
    rw [intOf?, hstrip, String.toList_ofList]
    split
    · rename_i cs heq
      have hminus := hdigit '-' (by simp [heq])
      cases hminus
    · rename_i cs heq
      have hplus := hdigit '+' (by simp [heq])
      cases hplus
    · rfl
  rw [hsign, natOf?_natChars]
  split <;> rfl

end Text
