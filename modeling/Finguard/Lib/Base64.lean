import Mathlib

/-! Base64, read the lenient way: what is no digit is passed over, and the padding ends the text. -/

namespace Base64

def digit? (c : Char) : Option ℕ :=
  if 'A' ≤ c ∧ c ≤ 'Z' then some (c.toNat - 'A'.toNat)
  else if 'a' ≤ c ∧ c ≤ 'z' then some (c.toNat - 'a'.toNat + 26)
  else if '0' ≤ c ∧ c ≤ '9' then some (c.toNat - '0'.toNat + 52)
  else if c = '+' then some 62
  else if c = '/' then some 63
  else none

/-- `position` counts the digits of a group of four, `left` are the bits that no byte has yet. -/
def decodeFrom : (position left pads : ℕ) → List Char → Option (List UInt8)
  | position, _, _, [] => if position = 0 then some [] else none
  | position, left, pads, c :: cs =>
    if c = '=' then
      if 2 ≤ position then
        if 4 ≤ position + (pads + 1) then some [] else decodeFrom position left (pads + 1) cs
      else decodeFrom position left pads cs
    else
      match digit? c with
      | none => decodeFrom position left pads cs
      | some d =>
        match position with
        | 0 => decodeFrom 1 d 0 cs
        | 1 => (decodeFrom 2 (d % 16) 0 cs).map (UInt8.ofNat (left * 4 + d / 16) :: ·)
        | 2 => (decodeFrom 3 (d % 4) 0 cs).map (UInt8.ofNat (left * 16 + d / 4) :: ·)
        | _ => (decodeFrom 0 0 0 cs).map (UInt8.ofNat (left * 64 + d) :: ·)

def decode? (cs : List Char) : Option (List UInt8) := decodeFrom 0 0 0 cs

/-- The alphabet for addresses. -/
def ofUrlSafe (c : Char) : Char := if c = '-' then '+' else if c = '_' then '/' else c

example : decode? "W10=".toList = some [91, 93] := by decide

/-! Writing. -/

def digit (n : ℕ) : Char :=
  if n < 26 then Char.ofNat ('A'.toNat + n)
  else if n < 52 then Char.ofNat ('a'.toNat + (n - 26))
  else if n < 62 then Char.ofNat ('0'.toNat + (n - 52))
  else if n = 62 then '+'
  else '/'

def encode : List UInt8 → List Char
  | [] => []
  | [a] => [digit (a.toNat / 4), digit (a.toNat % 4 * 16), '=', '=']
  | [a, b] => [digit (a.toNat / 4), digit (a.toNat % 4 * 16 + b.toNat / 16),
      digit (b.toNat % 16 * 4), '=']
  | a :: b :: c :: rest => digit (a.toNat / 4) :: digit (a.toNat % 4 * 16 + b.toNat / 16) ::
      digit (b.toNat % 16 * 4 + c.toNat / 64) :: digit (c.toNat % 64) :: encode rest

def toUrlSafe (c : Char) : Char := if c = '+' then '-' else if c = '/' then '_' else c

example : encode [91, 93] = "W10=".toList := by decide

variable {a b c : UInt8} {n position left pads : ℕ} {cs : List Char}

theorem digit?_digit (hn : n < 64) : digit? (digit n) = some n :=
  (by decide : ∀ n < 64, digit? (digit n) = some n) n hn

theorem digit_ne_pad (hn : n < 64) : digit n ≠ '=' :=
  (by decide : ∀ n < 64, digit n ≠ '=') n hn

/-! A digit is read as the number that it was written for. -/

theorem decodeFrom_zero (hn : n < 64) :
    decodeFrom 0 left pads (digit n :: cs) = decodeFrom 1 n 0 cs := by
  refine (if_neg (digit_ne_pad hn)).trans ?_
  rw [digit?_digit hn]
  rfl

theorem decodeFrom_one (hn : n < 64) : decodeFrom 1 left pads (digit n :: cs) =
    (decodeFrom 2 (n % 16) 0 cs).map (UInt8.ofNat (left * 4 + n / 16) :: ·) := by
  refine (if_neg (digit_ne_pad hn)).trans ?_
  rw [digit?_digit hn]
  rfl

theorem decodeFrom_two (hn : n < 64) : decodeFrom 2 left pads (digit n :: cs) =
    (decodeFrom 3 (n % 4) 0 cs).map (UInt8.ofNat (left * 16 + n / 4) :: ·) := by
  refine (if_neg (digit_ne_pad hn)).trans ?_
  rw [digit?_digit hn]
  rfl

theorem decodeFrom_three (hn : n < 64) : decodeFrom 3 left pads (digit n :: cs) =
    (decodeFrom 0 0 0 cs).map (UInt8.ofNat (left * 64 + n) :: ·) := by
  refine (if_neg (digit_ne_pad hn)).trans ?_
  rw [digit?_digit hn]
  rfl

theorem ofNat_toNat_eq (h : n = a.toNat) : UInt8.ofNat n = a := by
  rw [h, UInt8.ofNat_toNat]

theorem decode?_encode (raw : List UInt8) : decode? (encode raw) = some raw := by
  unfold decode?
  fun_induction encode raw with
  | case1 => rfl
  | case2 a =>
    have ha := a.toNat_lt
    have hfirst : a.toNat / 4 * 4 + a.toNat % 4 * 16 / 16 = a.toNat := by omega
    rw [decodeFrom_zero (by omega), decodeFrom_one (by omega), ofNat_toNat_eq hfirst]
    rfl
  | case3 a b =>
    have ha := a.toNat_lt
    have hb := b.toNat_lt
    have hfirst : a.toNat / 4 * 4 + (a.toNat % 4 * 16 + b.toNat / 16) / 16 = a.toNat := by omega
    have hsecond : (a.toNat % 4 * 16 + b.toNat / 16) % 16 * 16 + b.toNat % 16 * 4 / 4 =
        b.toNat := by omega
    rw [decodeFrom_zero (by omega), decodeFrom_one (by omega), decodeFrom_two (by omega),
      ofNat_toNat_eq hfirst, ofNat_toNat_eq hsecond]
    rfl
  | case4 a b c rest ih =>
    have ha := a.toNat_lt
    have hb := b.toNat_lt
    have hc := c.toNat_lt
    have hfirst : a.toNat / 4 * 4 + (a.toNat % 4 * 16 + b.toNat / 16) / 16 = a.toNat := by omega
    have hsecond : (a.toNat % 4 * 16 + b.toNat / 16) % 16 * 16 +
        (b.toNat % 16 * 4 + c.toNat / 64) / 4 = b.toNat := by omega
    have hthird : (b.toNat % 16 * 4 + c.toNat / 64) % 4 * 64 + c.toNat % 64 = c.toNat := by omega
    rw [decodeFrom_zero (by omega), decodeFrom_one (by omega), decodeFrom_two (by omega),
      decodeFrom_three (by omega), ih, ofNat_toNat_eq hfirst, ofNat_toNat_eq hsecond,
      ofNat_toNat_eq hthird]
    rfl

/-- The text without its padding, whose length tells how much padding there was. -/
theorem encode_eq_append (raw : List UInt8) : ∃ digits k, (∀ c ∈ digits, ∃ n < 64, c = digit n) ∧
    k < 3 ∧ (digits.length + k) % 4 = 0 ∧ encode raw = digits ++ List.replicate k '=' := by
  fun_induction encode raw with
  | case1 => exact ⟨[], 0, by simp⟩
  | case2 a =>
    have ha := a.toNat_lt
    refine ⟨[digit (a.toNat / 4), digit (a.toNat % 4 * 16)], 2, ?_, by omega, by simp, rfl⟩
    simp only [List.forall_mem_cons, List.not_mem_nil, IsEmpty.forall_iff, implies_true, and_true]
    exact ⟨⟨_, by omega, rfl⟩, ⟨_, by omega, rfl⟩⟩
  | case3 a b =>
    have ha := a.toNat_lt
    have hb := b.toNat_lt
    refine ⟨[digit (a.toNat / 4), digit (a.toNat % 4 * 16 + b.toNat / 16),
      digit (b.toNat % 16 * 4)], 1, ?_, by omega, by simp, rfl⟩
    simp only [List.forall_mem_cons, List.not_mem_nil, IsEmpty.forall_iff, implies_true, and_true]
    exact ⟨⟨_, by omega, rfl⟩, ⟨_, by omega, rfl⟩, ⟨_, by omega, rfl⟩⟩
  | case4 a b c rest ih =>
    have ha := a.toNat_lt
    have hb := b.toNat_lt
    have hc := c.toNat_lt
    obtain ⟨digits, k, hdigits, hk, hlength, hrest⟩ := ih
    refine ⟨digit (a.toNat / 4) :: digit (a.toNat % 4 * 16 + b.toNat / 16) ::
      digit (b.toNat % 16 * 4 + c.toNat / 64) :: digit (c.toNat % 64) :: digits, k, ?_, hk, ?_, ?_⟩
    · simp only [List.forall_mem_cons]
      exact ⟨⟨_, by omega, rfl⟩, ⟨_, by omega, rfl⟩, ⟨_, by omega, rfl⟩, ⟨_, by omega, rfl⟩,
        hdigits⟩
    · simp only [List.length_cons]
      omega
    · rw [hrest]
      rfl

/-! The alphabet for addresses. -/

theorem ofUrlSafe_toUrlSafe_digit (hn : n < 64) : ofUrlSafe (toUrlSafe (digit n)) = digit n :=
  (by decide : ∀ n < 64, ofUrlSafe (toUrlSafe (digit n)) = digit n) n hn

theorem toUrlSafe_digit (hn : n < 64) : toUrlSafe (digit n) ≠ '=' ∧ toUrlSafe (digit n) ≠ '.' ∧
    (toUrlSafe (digit n)).toNat < 128 :=
  (by decide : ∀ n < 64, toUrlSafe (digit n) ≠ '=' ∧ toUrlSafe (digit n) ≠ '.' ∧
    (toUrlSafe (digit n)).toNat < 128) n hn

end Base64
