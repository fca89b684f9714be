import Finguard.Lib.JsonTree

/-! The text of a JSON value in ASCII, and that it has one reading. -/

namespace JsonTree
open Text

def unicodeEscape (n : ℕ) : List Char := '\\' :: 'u' :: hexChars 4 n

/-- A character outside of the first plane is written as two. -/
def escape (c : Char) : List Char :=
  if c = '"' then ['\\', '"']
  else if c = '\\' then ['\\', '\\']
  else if c = '\n' then ['\\', 'n']
  else if c = '\r' then ['\\', 'r']
  else if c = '\t' then ['\\', 't']
  else if c = '\x0c' then ['\\', 'f']
  else if c = '\x08' then ['\\', 'b']
  else if 32 ≤ c.toNat ∧ c.toNat < 127 then [c]
  else if c.toNat < 0x10000 then unicodeEscape c.toNat
  else unicodeEscape (0xD800 + (c.toNat - 0x10000) / 0x400) ++
    unicodeEscape (0xDC00 + (c.toNat - 0x10000) % 0x400)

def quoted (s : String) : List Char := '"' :: (s.toList.flatMap escape ++ ['"'])

/-- The parts of an array or an object with their separators. -/
def separated : List (List Char) → List Char
  | [] => []
  | [part] => part
  | part :: parts => part ++ ',' :: ' ' :: separated parts

def fieldChars (key : String) (value : List Char) : List Char := quoted key ++ ':' :: ' ' :: value

def chars {ν : Type} (numberChars : ν → List Char) : JsonTree ν → List Char :=
  fold ⟨"null".toList, fun b => if b then "true".toList else "false".toList, numberChars, quoted,
    fun parts => '[' :: (separated parts ++ [']']),
    fun fields => '\x7b' :: (separated (fields.map fun f => fieldChars f.1 f.2) ++ ['\x7d'])⟩

/-! The reading of an escape. -/

def shorthand (c : Char) : Char :=
  if c = 'n' then '\n' else if c = 'r' then '\r' else if c = 't' then '\t'
  else if c = 'f' then '\x0c' else if c = 'b' then '\x08' else c

def unescape : List Char → Option (Char × List Char)
  | [] => none
  | c :: cs =>
    if c ≠ '\\' then some (c, cs)
    else match cs with
      | [] => none
      | d :: ds =>
        if d ≠ 'u' then some (shorthand d, ds)
        else
          let high := hexValue (ds.take 4)
          let rest := ds.drop 4
          if 0xD800 ≤ high ∧ high < 0xDC00 then
            let low := hexValue ((rest.drop 2).take 4)
            some (Char.ofNat (0x10000 + (high - 0xD800) * 0x400 + (low - 0xDC00)), rest.drop 6)
          else some (Char.ofNat high, rest)

variable {c d : Char} {r s : List Char}

theorem take_hexChars {width n : ℕ} (h : n < 16 ^ width) :
    hexValue ((hexChars width n ++ r).take width) = n ∧
      (hexChars width n ++ r).drop width = r := by
  constructor
  · rw [List.take_left' length_hexChars, hexValue_hexChars h]
  · exact List.drop_left' length_hexChars

theorem unescape_unicodeEscape {n : ℕ} (h : n < 0x10000) (hs : n < 0xD800 ∨ 0xDC00 ≤ n) :
    unescape (unicodeEscape n ++ r) = some (Char.ofNat n, r) := by
  obtain ⟨hvalue, hrest⟩ := @take_hexChars r 4 n h
  have hcond : ¬ (0xD800 ≤ n ∧ n < 0xDC00) := by omega
  simp only [unicodeEscape, List.cons_append, unescape, ne_eq, not_true_eq_false, if_false,
    hvalue, hrest, if_neg hcond]

theorem unescape_surrogates {n : ℕ} (h : n < 0x100000) :
    unescape (unicodeEscape (0xD800 + n / 0x400) ++ unicodeEscape (0xDC00 + n % 0x400) ++ r) =
      some (Char.ofNat (0x10000 + n), r) := by
  have hhigh : 0xD800 + n / 0x400 < 16 ^ 4 := by omega
  have hlow : 0xDC00 + n % 0x400 < 16 ^ 4 := by omega
  obtain ⟨hvalue, hrest⟩ :=
    @take_hexChars (unicodeEscape (0xDC00 + n % 0x400) ++ r) 4 _ hhigh
  obtain ⟨hvalue', hrest'⟩ := @take_hexChars r 4 _ hlow
  have hcond : 0xD800 ≤ 0xD800 + n / 0x400 ∧ 0xD800 + n / 0x400 < 0xDC00 := by omega
  have hsum : 0x10000 + (0xD800 + n / 0x400 - 0xD800) * 0x400 +
      (0xDC00 + n % 0x400 - 0xDC00) = 0x10000 + n := by omega
  have hdrop : (unicodeEscape (0xDC00 + n % 0x400) ++ r).drop 6 = r := by
    rw [show (6 : ℕ) = 4 + 2 from rfl, ← List.drop_drop]
    exact hrest'
  rw [List.append_assoc, unicodeEscape, List.cons_append, List.cons_append]
  simp only [unescape, ne_eq, not_true_eq_false, if_false, hvalue, hrest, if_pos hcond]
  rw [hdrop]
  have hsecond : ((unicodeEscape (0xDC00 + n % 0x400) ++ r).drop 2).take 4 =
      (hexChars 4 (0xDC00 + n % 0x400) ++ r).take 4 := rfl
  rw [hsecond, hvalue', hsum]

theorem unescape_escape (c : Char) (r : List Char) : unescape (escape c ++ r) = some (c, r) := by
  unfold escape
  split_ifs with hquote hback hn hr ht hf hb hplain hplane
  · rw [hquote]; rfl
  · rw [hback]; rfl
  · rw [hn]; rfl
  · rw [hr]; rfl
  · rw [ht]; rfl
  · rw [hf]; rfl
  · rw [hb]; rfl
  · simp [unescape, hback]
  · have hvalid := c.valid
    have hs : c.toNat < 0xD800 ∨ 0xDC00 ≤ c.toNat := by
      rcases hvalid with h | h
      · exact .inl h
      · exact .inr (by have := h.1; simp only [Char.toNat]; omega)
    rw [unescape_unicodeEscape hplane hs, Char.ofNat_toNat]
  · have hvalid := c.valid
    have hlt : c.toNat < 0x110000 := by
      rcases hvalid with h | h
      · simp only [Char.toNat]; omega
      · exact h.2
    rw [unescape_surrogates (by omega), Nat.add_sub_cancel' (by omega), Char.ofNat_toNat]

theorem escape_append_inj (h : escape c ++ r = escape d ++ s) : c = d ∧ r = s := by
  have hread := congrArg unescape h
  rw [unescape_escape, unescape_escape] at hread
  exact Prod.mk.inj (Option.some.inj hread)

theorem escape_append_ne_quote : escape c ++ r ≠ '"' :: s := by
  intro h
  have hread := congrArg unescape h
  rw [unescape_escape] at hread
  have hc : c = '"' := (Prod.mk.inj (Option.some.inj hread)).1
  rw [hc] at h
  cases h

theorem quoted_append_inj {x y : String} (h : quoted x ++ r = quoted y ++ s) :
    x = y ∧ r = s := by
  have body : ∀ a b : List Char, a.flatMap escape ++ '"' :: r = b.flatMap escape ++ '"' :: s →
      a = b ∧ r = s := by
    intro a
    induction a with
    | nil =>
      intro b hb
      cases b with
      | nil => exact ⟨rfl, List.tail_eq_of_cons_eq hb⟩
      | cons d b =>
        rw [List.flatMap_cons, List.append_assoc] at hb
        exact absurd hb.symm escape_append_ne_quote
    | cons c a ih =>
      intro b hb
      cases b with
      | nil =>
        rw [List.flatMap_cons, List.append_assoc] at hb
        exact absurd hb escape_append_ne_quote
      | cons d b =>
        rw [List.flatMap_cons, List.flatMap_cons, List.append_assoc, List.append_assoc] at hb
        obtain ⟨rfl, hrest⟩ := escape_append_inj hb
        obtain ⟨rfl, hrs⟩ := ih b hrest
        exact ⟨rfl, hrs⟩
  rw [quoted, quoted, List.cons_append, List.cons_append, List.append_assoc,
    List.append_assoc] at h
  obtain ⟨hxy, hrs⟩ := body _ _ (List.tail_eq_of_cons_eq h)
  exact ⟨String.toList_inj.mp hxy, hrs⟩

/-! Every value is the only one of its text. -/

/-- What a text begins with: 3 is a number, 7 the end of a value. -/
def kind : List Char → ℕ
  | 'n' :: _ => 0
  | 't' :: _ => 1
  | 'f' :: _ => 2
  | '"' :: _ => 4
  | '[' :: _ => 5
  | '\x7b' :: _ => 6
  | ',' :: _ => 7
  | ']' :: _ => 7
  | '\x7d' :: _ => 7
  | [] => 7
  | _ => 3

def stops (c : Char) : Bool := c == ',' || c == ']' || c == '\x7d'

/-- Texts of numbers that can be told apart, from each other and from what is around them. -/
structure Readable {ν : Type} (numberChars : ν → List Char) : Prop where
  injective : Function.Injective numberChars
  kind_eq : ∀ n r, kind (numberChars n ++ r) = 3
  plain : ∀ n, ∀ c ∈ numberChars n, stops c = false

section
variable {ν : Type} {numberChars : ν → List Char}

@[simp] theorem chars_array (items : List (JsonTree ν)) : (array items).chars numberChars =
    '[' :: (separated (items.map (chars numberChars)) ++ [']']) := fold_array _ _

@[simp] theorem chars_object (fields : List (String × JsonTree ν)) :
    (object fields).chars numberChars = '\x7b' :: (separated
      (fields.map fun f => fieldChars f.1 (f.2.chars numberChars)) ++ ['\x7d']) := by
  refine (fold_object _ _).trans ?_
  dsimp only
  rw [List.map_map]
  rfl

def tag : JsonTree ν → ℕ
  | null => 0
  | bool b => if b then 1 else 2
  | number _ => 3
  | text _ => 4
  | array _ => 5
  | object _ => 6

theorem kind_chars (h : Readable numberChars) (v : JsonTree ν) :
    kind (v.chars numberChars ++ r) = v.tag := by
  cases v with
  | null => rfl
  | bool b => cases b <;> rfl
  | number n => exact h.kind_eq n r
  | text s => rfl
  | array items => rw [chars_array]; rfl
  | object fields => rw [chars_object]; rfl

theorem tag_lt (v : JsonTree ν) : v.tag < 7 := by
  cases v with
  | bool b => cases b <;> simp [tag]
  | _ => simp [tag]

theorem kind_of_stops (h : kind r = 7) : ∀ c ∈ r.head?, stops c = true := by
  intro c hc
  unfold kind at h
  split at h <;> first
    | (rw [← Option.some.inj hc]; rfl)
    | exact absurd hc (Option.not_mem_none _)
    | cases h

theorem separated_cons (part : List Char) (parts : List (List Char)) :
    separated (part :: parts) = part ++ parts.flatMap fun p => ',' :: ' ' :: p := by
  induction parts generalizing part with
  | nil => simp [separated]
  | cons p parts ih =>
    rw [separated, ih, List.flatMap_cons]
    · rfl
    · exact List.cons_ne_nil p parts

section separated
variable {α : Type} {f : α → List Char} {close : Char}

theorem kind_rest (hclose : kind [close] = 7) (l : List α) (r : List Char) :
    kind ((l.map f).flatMap (fun p => ',' :: ' ' :: p) ++ close :: r) = 7 := by
  cases l with
  | nil =>
    have hfirst := kind_of_stops hclose close rfl
    simp only [stops, Bool.or_eq_true, beq_iff_eq] at hfirst
    rcases hfirst with (rfl | rfl) | rfl <;> rfl
  | cons a l => rfl

theorem rest_append_inj (hclose : kind [close] = 7) (hcomma : close ≠ ',') (l : List α)
    (hinj : ∀ a ∈ l, ∀ b r s, kind r = 7 → kind s = 7 → f a ++ r = f b ++ s → a = b ∧ r = s) :
    ∀ m : List α, (l.map f).flatMap (fun p => ',' :: ' ' :: p) ++ close :: r =
      (m.map f).flatMap (fun p => ',' :: ' ' :: p) ++ close :: s → l = m ∧ r = s := by
  induction l with
  | nil =>
    intro m h
    cases m with
    | nil => exact ⟨rfl, List.tail_eq_of_cons_eq h⟩
    | cons b m => exact absurd (List.head_eq_of_cons_eq h) hcomma
  | cons a l ih =>
    intro m h
    cases m with
    | nil => exact absurd (List.head_eq_of_cons_eq h).symm hcomma
    | cons b m =>
      rw [List.map_cons, List.map_cons, List.flatMap_cons, List.flatMap_cons, List.cons_append,
        List.cons_append, List.cons_append, List.cons_append, List.cons_append, List.cons_append,
        List.append_assoc, List.append_assoc] at h
      have htail := List.tail_eq_of_cons_eq (List.tail_eq_of_cons_eq h)
      obtain ⟨rfl, hrest⟩ := hinj a List.mem_cons_self b _ _ (kind_rest hclose l r)
        (kind_rest hclose m s) htail
      obtain ⟨rfl, hrs⟩ := ih (fun a ha => hinj a (List.mem_cons_of_mem _ ha)) m hrest
      exact ⟨rfl, hrs⟩

theorem separated_append_inj (hclose : kind [close] = 7) (hcomma : close ≠ ',') {l m : List α}
    (hinj : ∀ a ∈ l, ∀ b r s, kind r = 7 → kind s = 7 → f a ++ r = f b ++ s → a = b ∧ r = s)
    (hfirst : ∀ a r, (f a ++ r).head? ≠ some close)
    (h : separated (l.map f) ++ close :: r = separated (m.map f) ++ close :: s) :
    l = m ∧ r = s := by
  cases l with
  | nil =>
    cases m with
    | nil => exact ⟨rfl, List.tail_eq_of_cons_eq h⟩
    | cons b m =>
      rw [List.map_cons, separated_cons, List.append_assoc] at h
      exact absurd (congrArg List.head? h).symm (hfirst b _)
  | cons a l =>
    cases m with
    | nil =>
      rw [List.map_cons, separated_cons, List.append_assoc] at h
      exact absurd (congrArg List.head? h) (hfirst a _)
    | cons b m =>
      rw [List.map_cons, List.map_cons, separated_cons, separated_cons, List.append_assoc,
        List.append_assoc] at h
      obtain ⟨rfl, hrest⟩ := hinj a List.mem_cons_self b _ _ (kind_rest hclose l r)
        (kind_rest hclose m s) h
      obtain ⟨rfl, hrs⟩ := rest_append_inj hclose hcomma l
        (fun a ha => hinj a (List.mem_cons_of_mem _ ha)) m hrest
      exact ⟨rfl, hrs⟩

end separated

theorem chars_append_inj (h : Readable numberChars) (v : JsonTree ν) :
    ∀ (w : JsonTree ν) (r s : List Char), kind r = 7 → kind s = 7 →
      v.chars numberChars ++ r = w.chars numberChars ++ s → v = w ∧ r = s := by
  have hbracket : ∀ (v : JsonTree ν) (r : List Char),
      (v.chars numberChars ++ r).head? ≠ some ']' := by
    intro v r hc
    obtain ⟨cs, hcs⟩ := List.head?_eq_some_iff.mp hc
    have hkind := kind_chars (r := r) h v
    rw [hcs] at hkind
    have hlt := tag_lt v
    rw [← hkind] at hlt
    exact absurd hlt (lt_irrefl 7)
  have htag : ∀ {v w : JsonTree ν} {r s : List Char},
      v.chars numberChars ++ r = w.chars numberChars ++ s → v.tag = w.tag := by
    intro v w r s heq
    rw [← kind_chars (r := r) h v, heq, kind_chars h w]
  induction v with
  | null =>
    intro w r s _ _ heq
    have hw := htag heq
    cases w with
    | null => exact ⟨rfl, List.append_cancel_left heq⟩
    | bool b => cases b <;> cases hw
    | _ => cases hw
  | bool b =>
    intro w r s _ _ heq
    have hw := htag heq
    cases w with
    | bool b' =>
      have hb : b = b' := by
        revert hw
        cases b <;> cases b' <;> simp [tag]
      subst hb
      exact ⟨rfl, List.append_cancel_left heq⟩
    | _ => cases b <;> cases hw
  | number n =>
    intro w r s hr hs heq
    have hw := htag heq
    cases w with
    | number n' =>
      have hplain : ∀ n, ∀ c ∈ numberChars n, (!stops c) = true := by
        intro n c hc
        rw [h.plain n c hc]
        rfl
      have hstop : ∀ {r : List Char}, kind r = 7 → ∀ c ∈ r.head?, (!stops c) = false := by
        intro r hr c hc
        rw [kind_of_stops hr c hc]
        rfl
      obtain ⟨hn, hrs⟩ := append_inj_of_run (hplain n) (hplain n') (hstop hr) (hstop hs) heq
      rw [h.injective hn]
      exact ⟨rfl, hrs⟩
    | bool b => cases b <;> cases hw
    | _ => cases hw
  | text x =>
    intro w r s _ _ heq
    have hw := htag heq
    cases w with
    | text y =>
      obtain ⟨rfl, hrs⟩ := quoted_append_inj heq
      exact ⟨rfl, hrs⟩
    | bool b => cases b <;> cases hw
    | _ => cases hw
  | array items ih =>
    intro w r s _ _ heq
    have hw := htag heq
    cases w with
    | array items' =>
      rw [chars_array, chars_array, List.cons_append, List.cons_append, List.append_assoc,
        List.append_assoc] at heq
      obtain ⟨rfl, hrs⟩ := separated_append_inj rfl (by decide) ih hbracket
        (List.tail_eq_of_cons_eq heq)
      exact ⟨rfl, hrs⟩
    | bool b => cases b <;> cases hw
    | _ => cases hw
  | object fields ih =>
    intro w r s _ _ heq
    have hw := htag heq
    cases w with
    | object fields' =>
      rw [chars_object, chars_object, List.cons_append, List.cons_append, List.append_assoc,
        List.append_assoc] at heq
      have hinj : ∀ f ∈ fields, ∀ (g : String × JsonTree ν) (r s : List Char), kind r = 7 →
          kind s = 7 → fieldChars f.1 (f.2.chars numberChars) ++ r =
            fieldChars g.1 (g.2.chars numberChars) ++ s → f = g ∧ r = s := by
        intro f hf g r s hr hs hfg
        rw [fieldChars, fieldChars, List.append_assoc, List.append_assoc] at hfg
        obtain ⟨hkey, hrest⟩ := quoted_append_inj hfg
        have hvalue := List.tail_eq_of_cons_eq (List.tail_eq_of_cons_eq hrest)
        obtain ⟨hv, hrs⟩ := ih f hf g.2 r s hr hs hvalue
        exact ⟨Prod.ext hkey hv, hrs⟩
      obtain ⟨rfl, hrs⟩ := separated_append_inj rfl (by decide) hinj
        (fun f r hc => by cases hc) (List.tail_eq_of_cons_eq heq)
      exact ⟨rfl, hrs⟩
    | bool b => cases b <;> cases hw
    | _ => cases hw

theorem chars_injective (h : Readable numberChars) :
    Function.Injective (chars (ν := ν) numberChars) := by
  intro v w heq
  exact (chars_append_inj h v w [] [] rfl rfl (congrArg (· ++ []) heq)).1

end

end JsonTree
