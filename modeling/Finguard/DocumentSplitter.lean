import Finguard.Lib.Fragments
import Finguard.Lib.Text

/-! The splitter that cuts the authority's documents into chunks before they are embedded. -/

namespace Finguard.Splitter
open Fragments
open Text (isSpace)

def separators : List (List Char) :=
  [['\n', '\n', '\n'], ['\n', '\n'], ['\n'], ['.', ' '], ['?', ' '], ['!', ' '], [' '], []]

structure Sizes where
  chunkSize : ℕ
  chunkOverlap : ℕ

/-- The first separator the text has, with those after it. -/
def firstIn (text : List Char) : List (List Char) → Option (List Char × List (List Char))
  | [] => none
  | sep :: rest => if sep = [] ∨ sep <:+: text then some (sep, rest) else firstIn text rest

def separatorFor (text : List Char) (separators : List (List Char)) :
    List Char × List (List Char) :=
  (firstIn text separators).getD ([], separators)

def splits (separator text : List Char) : List (List Char) :=
  if separator ≠ [] then Fragments.split separator text else text.map fun c => [c]

/-- `overlap_parts` and `overlap_len`, from the last part of the chunk on. -/
def overlapFrom (chunkOverlap margin : ℕ) :
    List (List Char) → List (List Char) → ℕ → List (List Char) × ℕ
  | [], overlapParts, overlapLen => (overlapParts, overlapLen)
  | part :: before, overlapParts, overlapLen =>
    if chunkOverlap < overlapLen + part.length + margin then (overlapParts, overlapLen)
    else overlapFrom chunkOverlap margin before (part :: overlapParts) (overlapLen + part.length)

/-- `current` and `current_len` -/
structure Buffer where
  current : List (List Char)
  currentLen : ℕ

section
variable (sizes : Sizes) (separator : List Char)

def Buffer.flush (b : Buffer) : List (List Char) :=
  if b.current = [] then [] else [separator.intercalate b.current]

/-- What is kept when a fragment that is too large goes by. -/
def Buffer.pass (b : Buffer) : Buffer :=
  if b.current = [] then b
  else
    let overlap := overlapFrom sizes.chunkOverlap 0 b.current.reverse [] 0
    ⟨overlap.1, overlap.2⟩

/-- What is kept when the next fragment is too much. -/
def Buffer.carry (b : Buffer) : Buffer :=
  let overlap := overlapFrom sizes.chunkOverlap separator.length b.current.reverse [] 0
  ⟨overlap.1, (overlap.1.map List.length).sum⟩

def Buffer.push (b : Buffer) (fragment : List Char) : Buffer :=
  ⟨b.current ++ [fragment], b.currentLen + (fragment.length + separator.length)⟩

def Buffer.Full (b : Buffer) (fragment : List Char) : Prop :=
  sizes.chunkSize < b.currentLen + fragment.length + separator.length ∧ b.current ≠ []

instance (b : Buffer) (fragment : List Char) : Decidable (b.Full sizes separator fragment) :=
  inferInstanceAs (Decidable (_ ∧ _))

/-- The loop over the fragments. -/
def pack (recurse : List Char → Option (List (List Char))) :
    Buffer → List (List Char) → Option (List (List Char))
  | b, [] => some (b.flush separator)
  | b, fragment :: rest =>
    if sizes.chunkSize < fragment.length then do
      let sub ← recurse fragment
      let more ← pack recurse (b.pass sizes) rest
      some (b.flush separator ++ (sub ++ more))
    else if b.Full sizes separator fragment then do
      let more ← pack recurse ((b.carry sizes separator).push separator fragment) rest
      some (b.flush separator ++ more)
    else pack recurse (b.push separator fragment) rest

end

/-- Stripped, and without the blank ones. -/
def tidy (chunks : List (List Char)) : List (List Char) :=
  (chunks.map (trim isSpace)).filter (· ≠ [])

/-- `_split_text`, with nothing where the recursion goes deeper than it may. -/
def splitText (sizes : Sizes) : ℕ → List Char → List (List Char) → Option (List (List Char))
  | 0, _, _ => none
  | depth + 1, text, separators =>
    let found := separatorFor text separators
    (pack sizes found.1 (fun fragment => splitText sizes depth fragment found.2) ⟨[], 0⟩
      (splits found.1 text)).map tidy

example : splitText ⟨5, 2⟩ 9 ['a', 'b', ' ', 'c', '\n', 'd'] separators =
    some [['a', 'b', ' ', 'c'], ['d']] := by decide +kernel

/-! What the splitter is for. -/

/-- A text is read from left to right as separators, white space and runs, each of which lies in a
chunk of its own. -/
inductive Covers (separators : List (List Char)) : List Char → List (List Char) → Prop where
  | nil : Covers separators [] []
  | separator {sep text : List Char} {chunks : List (List Char)} (hsep : sep ∈ separators)
      (h : Covers separators text chunks) : Covers separators (sep ++ text) chunks
  | blank {run text : List Char} {chunks : List (List Char)} (hrun : ∀ c ∈ run, isSpace c = true)
      (h : Covers separators text chunks) : Covers separators (run ++ text) chunks
  | run {run text chunk : List Char} {chunks : List (List Char)}
      (hrun : trim isSpace run <:+: chunk) (h : Covers separators text chunks) :
      Covers separators (run ++ text) (chunk :: chunks)
  | again {text chunk : List Char} {chunks : List (List Char)} (h : Covers separators text chunks) :
      Covers separators text (chunk :: chunks)

structure SplitsWell (sizes : Sizes) (text : List Char) (chunks : List (List Char)) : Prop where
  short : ∀ chunk ∈ chunks, chunk.length ≤ sizes.chunkSize
  contiguous : ∀ chunk ∈ chunks, chunk <:+: text
  covers : Covers separators text chunks

def Returns (sizes : Sizes) (text : List Char) (chunks : List (List Char)) : Prop :=
  ∃ needed, ∀ depth ≥ needed, splitText sizes depth text separators = some chunks

/-! Where it fails: in chunks that begin with parts of the chunk before them. -/

/-- How many parts at the front were carried over, and how many of them past a fragment that was too
large. -/
structure Held where
  buffer : Buffer
  kept : ℕ
  stale : ℕ

section
variable (sizes : Sizes) (separator : List Char)

def Held.next (h : Held) (fragment : List Char) : Held :=
  if sizes.chunkSize < fragment.length then
    let b := h.buffer.pass sizes
    ⟨b, b.current.length, b.current.length⟩
  else if h.buffer.Full sizes separator fragment then
    let b := h.buffer.carry sizes separator
    ⟨b.push separator fragment, b.current.length,
      b.current.length - (h.buffer.current.length - h.stale)⟩
  else ⟨h.buffer.push separator fragment, h.kept, h.stale⟩

/-- What is carried over leaves room for the fragment after it, and if a large fragment came between
the two, they stand together somewhere else in the text. -/
structure Held.Fits (whole : List Char) (h : Held) : Prop where
  room : h.kept ≠ 0 →
    (trim isSpace (separator.intercalate h.buffer.current)).length ≤ sizes.chunkSize
  elsewhere : h.stale ≠ 0 → trim isSpace (separator.intercalate h.buffer.current) <:+: whole

instance (whole : List Char) (h : Held) : Decidable (h.Fits sizes separator whole) :=
  decidable_of_iff (_ ∧ _) ⟨fun h => ⟨h.1, h.2⟩, fun h => ⟨h.room, h.elsewhere⟩⟩

def Held.FitsAll (whole : List Char) : Held → List (List Char) → Prop
  | _, [] => True
  | h, fragment :: rest =>
    (fragment.length ≤ sizes.chunkSize →
      (h.next sizes separator fragment).Fits sizes separator whole) ∧
      FitsAll whole (h.next sizes separator fragment) rest

instance (whole : List Char) (h : Held) (fragments : List (List Char)) :
    Decidable (h.FitsAll sizes separator whole fragments) :=
  match fragments with
  | [] => .isTrue trivial
  | fragment :: rest =>
    have := instDecidableFitsAll whole (h.next sizes separator fragment) rest
    inferInstanceAs (Decidable (_ ∧ _))

end

/-- The calls of a run, by their texts and separators. -/
inductive Calls (sizes : Sizes) :
    List Char → List (List Char) → List Char → List (List Char) → Prop where
  | here (text : List Char) (separators : List (List Char)) :
      Calls sizes text separators text separators
  | deeper {text text' fragment : List Char} {separators separators' : List (List Char)}
      (hmem : fragment ∈ splits (separatorFor text separators).1 text)
      (hlarge : sizes.chunkSize < fragment.length)
      (h : Calls sizes fragment (separatorFor text separators).2 text' separators') :
      Calls sizes text separators text' separators'

def OverlapFits (sizes : Sizes) (whole : List Char) (separators : List (List Char)) : Prop :=
  ∀ text separators', Calls sizes whole separators text separators' →
    Held.FitsAll sizes (separatorFor text separators').1 whole ⟨⟨[], 0⟩, 0, 0⟩
      (splits (separatorFor text separators').1 text)

/-! Fragments. -/

section
variable {sizes : Sizes} {text fragment sep : List Char} {seps rest : List (List Char)}

theorem firstIn_eq_some (h : firstIn text seps = some (sep, rest)) :
    sep ∈ seps ∧ (∀ s ∈ rest, s ∈ seps) ∧ rest.length < seps.length := by
  induction seps with
  | nil => exact absurd h.symm (Option.some_ne_none _)
  | cons s seps ih =>
    rw [firstIn] at h
    split_ifs at h with hs
    · obtain ⟨rfl, rfl⟩ := Prod.mk.inj (Option.some.inj h)
      exact ⟨List.mem_cons_self, fun t => List.mem_cons_of_mem s, Nat.lt_succ_self _⟩
    · obtain ⟨hsep, hrest, hlen⟩ := ih h
      exact ⟨List.mem_cons_of_mem s hsep, fun t ht => List.mem_cons_of_mem s (hrest t ht),
        Nat.lt_succ_of_lt hlen⟩

theorem separatorFor_cases (text : List Char) (seps : List (List Char)) :
    (separatorFor text seps).1 = [] ∨ (separatorFor text seps).1 ∈ seps ∧
      (separatorFor text seps).2.length < seps.length := by
  cases h : firstIn text seps with
  | none =>
    refine .inl ?_
    rw [separatorFor, h]
    rfl
  | some found =>
    obtain ⟨hsep, -, hlen⟩ := firstIn_eq_some h
    rw [separatorFor, h]
    exact .inr ⟨hsep, hlen⟩

theorem mem_of_mem_separatorFor (h : sep ∈ (separatorFor text seps).2) : sep ∈ seps := by
  cases hfirst : firstIn text seps with
  | none =>
    rw [separatorFor, hfirst] at h
    exact h
  | some found =>
    rw [separatorFor, hfirst] at h
    exact (firstIn_eq_some hfirst).2.1 sep h

theorem intercalate_splits (sep text : List Char) : sep.intercalate (splits sep text) = text := by
  by_cases hsep : sep = []
  · rw [splits, if_neg (not_not.mpr hsep), hsep]
    exact intercalate_nil_singletons text
  · rw [splits, if_pos hsep]
    exact intercalate_split hsep text

theorem infix_of_mem_splits (h : fragment ∈ splits sep text) : fragment <:+: text := by
  have hone : [fragment] <:+: splits sep text := by
    obtain ⟨u, v, heq⟩ := List.append_of_mem h
    exact ⟨u, v, by simp [heq]⟩
  have hinfix : sep.intercalate [fragment] <:+: sep.intercalate (splits sep text) :=
    infix_intercalate hone
  rwa [List.intercalate_singleton, intercalate_splits] at hinfix

theorem length_of_mem_splits_nil (h : fragment ∈ splits [] text) : fragment.length = 1 := by
  rw [splits, if_neg (not_not.mpr rfl)] at h
  obtain ⟨c, -, rfl⟩ := List.mem_map.mp h
  rfl

theorem length_lt_of_large (hsize : 0 < sizes.chunkSize)
    (hmem : fragment ∈ splits (separatorFor text seps).1 text)
    (hlarge : sizes.chunkSize < fragment.length) :
    (separatorFor text seps).2.length < seps.length := by
  rcases separatorFor_cases text seps with hnil | ⟨-, hlen⟩
  · rw [hnil] at hmem
    have hone := length_of_mem_splits_nil hmem
    omega
  · exact hlen

end

/-! Stripped chunks. -/

section
variable {sizes : Sizes} {chunk whole : List Char} {chunks chunks' : List (List Char)}

theorem tidy_append : tidy (chunks ++ chunks') = tidy chunks ++ tidy chunks' := by
  rw [tidy, List.map_append, List.filter_append]
  rfl

theorem tidy_singleton :
    tidy [chunk] = if trim isSpace chunk = [] then [] else [trim isSpace chunk] := by
  by_cases h : trim isSpace chunk = []
  · rw [if_pos h, tidy, List.map_singleton, h]
    rfl
  · rw [if_neg h, tidy, List.map_singleton, List.filter_singleton]
    simp [h]

theorem mem_tidy : chunk ∈ tidy chunks ↔ ∃ c ∈ chunks, trim isSpace c = chunk ∧ chunk ≠ [] := by
  simp only [tidy, List.mem_filter, List.mem_map, decide_eq_true_eq]
  constructor
  · rintro ⟨⟨c, hc, heq⟩, hne⟩
    exact ⟨c, hc, heq, hne⟩
  · rintro ⟨c, hc, heq, hne⟩
    exact ⟨⟨c, hc, heq⟩, hne⟩

theorem tidy_tidy : tidy (tidy chunks) = tidy chunks := by
  have hmap : (tidy chunks).map (trim isSpace) = tidy chunks := by
    refine (List.map_congr_left fun chunk hchunk => ?_).trans (List.map_id _)
    obtain ⟨c, -, rfl, -⟩ := mem_tidy.mp hchunk
    exact trim_trim
  rw [tidy, hmap]
  exact List.filter_eq_self.mpr fun chunk hchunk =>
    decide_eq_true (mem_tidy.mp hchunk).choose_spec.2.2

/-- Short enough and in the text, without the white space around it. -/
def Fine (sizes : Sizes) (whole chunk : List Char) : Prop :=
  (trim isSpace chunk).length ≤ sizes.chunkSize ∧ trim isSpace chunk <:+: whole

theorem Fine.mono {chunk' : List Char} (h : chunk <:+: chunk') (hfine : Fine sizes whole chunk') :
    Fine sizes whole chunk :=
  ⟨(infix_trim h).length_le.trans hfine.1, (infix_trim h).trans hfine.2⟩

theorem fine_tidy :
    (∀ chunk ∈ tidy chunks, Fine sizes whole chunk) ↔ ∀ chunk ∈ chunks, Fine sizes whole chunk := by
  constructor
  · intro h chunk hchunk
    by_cases hblank : trim isSpace chunk = []
    · rw [Fine, hblank]
      exact ⟨Nat.zero_le _, List.nil_infix⟩
    · have hfine := h _ (mem_tidy.mpr ⟨chunk, hchunk, rfl, hblank⟩)
      rwa [Fine, trim_trim] at hfine
  · intro h chunk hchunk
    obtain ⟨c, hc, rfl, -⟩ := mem_tidy.mp hchunk
    exact (h c hc).mono trim_infix_self

end

/-! One step of the loop. -/

section
variable {sizes : Sizes} {sep fragment : List Char} {rest raw : List (List Char)} {b : Buffer}
  {recurse : List Char → Option (List (List Char))} {h : Held}

theorem pack_cons_cases (hpack : pack sizes sep recurse b (fragment :: rest) = some raw) :
    (sizes.chunkSize < fragment.length ∧ ∃ sub more, recurse fragment = some sub ∧
      pack sizes sep recurse (b.pass sizes) rest = some more ∧
      raw = b.flush sep ++ (sub ++ more)) ∨
    (fragment.length ≤ sizes.chunkSize ∧ b.Full sizes sep fragment ∧ ∃ more,
      pack sizes sep recurse ((b.carry sizes sep).push sep fragment) rest = some more ∧
      raw = b.flush sep ++ more) ∨
    (fragment.length ≤ sizes.chunkSize ∧ ¬ b.Full sizes sep fragment ∧
      pack sizes sep recurse (b.push sep fragment) rest = some raw) := by
  rw [pack] at hpack
  split_ifs at hpack with hlarge hfull
  · obtain ⟨sub, hsub, hpack⟩ := Option.bind_eq_some_iff.mp hpack
    obtain ⟨more, hmore, hpack⟩ := Option.bind_eq_some_iff.mp hpack
    exact .inl ⟨hlarge, sub, more, hsub, hmore, (Option.some.inj hpack).symm⟩
  · obtain ⟨more, hmore, hpack⟩ := Option.bind_eq_some_iff.mp hpack
    exact .inr (.inl ⟨not_lt.mp hlarge, hfull, more, hmore, (Option.some.inj hpack).symm⟩)
  · exact .inr (.inr ⟨not_lt.mp hlarge, hfull, hpack⟩)

theorem Held.next_large (hlarge : sizes.chunkSize < fragment.length) :
    h.next sizes sep fragment = ⟨h.buffer.pass sizes, (h.buffer.pass sizes).current.length,
      (h.buffer.pass sizes).current.length⟩ := if_pos hlarge

theorem Held.next_full (hsmall : fragment.length ≤ sizes.chunkSize)
    (hfull : h.buffer.Full sizes sep fragment) :
    h.next sizes sep fragment = ⟨(h.buffer.carry sizes sep).push sep fragment,
      (h.buffer.carry sizes sep).current.length, (h.buffer.carry sizes sep).current.length -
        (h.buffer.current.length - h.stale)⟩ :=
  (if_neg (not_lt.mpr hsmall)).trans (if_pos hfull)

theorem Held.next_room (hsmall : fragment.length ≤ sizes.chunkSize)
    (hroom : ¬ h.buffer.Full sizes sep fragment) :
    h.next sizes sep fragment = ⟨h.buffer.push sep fragment, h.kept, h.stale⟩ :=
  (if_neg (not_lt.mpr hsmall)).trans (if_neg hroom)

theorem overlapFrom_suffix (limit margin : ℕ) (before parts : List (List Char)) (len : ℕ) :
    (overlapFrom limit margin before parts len).1 <:+ before.reverse ++ parts := by
  induction before generalizing parts len with
  | nil => exact List.suffix_rfl
  | cons part before ih =>
    rw [overlapFrom]
    split_ifs
    · exact List.suffix_append _ _
    · have hrest := ih (part :: parts) (len + part.length)
      rwa [List.reverse_cons, List.append_assoc, List.singleton_append]

theorem overlapFrom_len (limit margin : ℕ) (before parts : List (List Char)) (len : ℕ)
    (hlen : len = (parts.map List.length).sum) :
    (overlapFrom limit margin before parts len).2 =
      ((overlapFrom limit margin before parts len).1.map List.length).sum := by
  induction before generalizing parts len with
  | nil => exact hlen
  | cons part before ih =>
    rw [overlapFrom]
    split_ifs
    · exact hlen
    · refine ih (part :: parts) (len + part.length) ?_
      rw [List.map_cons, List.sum_cons, hlen, Nat.add_comm]

theorem Buffer.pass_suffix : (b.pass sizes).current <:+ b.current := by
  by_cases hnil : b.current = []
  · rw [pass, if_pos hnil]
  · rw [pass, if_neg hnil]
    have hsuffix := overlapFrom_suffix sizes.chunkOverlap 0 b.current.reverse [] 0
    rwa [List.reverse_reverse, List.append_nil] at hsuffix

theorem Buffer.carry_suffix : (b.carry sizes sep).current <:+ b.current := by
  have hsuffix := overlapFrom_suffix sizes.chunkOverlap sep.length b.current.reverse [] 0
  rwa [List.reverse_reverse, List.append_nil] at hsuffix

theorem Buffer.pass_currentLen (hb : b.current = [] → b.currentLen = 0) :
    (b.pass sizes).currentLen = ((b.pass sizes).current.map List.length).sum := by
  by_cases hnil : b.current = []
  · rw [pass, if_pos hnil, hb hnil, hnil]
    rfl
  · rw [pass, if_neg hnil]
    exact overlapFrom_len _ _ _ _ _ rfl

theorem sum_length_add (parts : List (List Char)) (n : ℕ) :
    (parts.map fun part => part.length + n).sum = (parts.map List.length).sum + parts.length * n := by
  rw [List.sum_map_add, List.map_const', List.sum_replicate, smul_eq_mul]

end

/-! The recursion ends. -/

section
variable {sizes : Sizes} {sep text : List Char} {fragments seps chunks raw : List (List Char)}
  {b : Buffer} {recurse recurse' : List Char → Option (List (List Char))} {depth depth' : ℕ}

theorem exists_pack (hrecurse : ∀ fragment ∈ fragments, sizes.chunkSize < fragment.length →
    ∃ sub, recurse fragment = some sub) : ∃ raw, pack sizes sep recurse b fragments = some raw := by
  induction fragments generalizing b with
  | nil => exact ⟨_, rfl⟩
  | cons fragment rest ih =>
    have hrest := fun b => ih (b := b) fun f hf => hrecurse f (List.mem_cons_of_mem _ hf)
    rw [pack]
    split_ifs with hlarge
    · obtain ⟨sub, hsub⟩ := hrecurse fragment List.mem_cons_self hlarge
      obtain ⟨more, hmore⟩ := hrest (b.pass sizes)
      rw [hsub, hmore]
      exact ⟨_, rfl⟩
    · obtain ⟨more, hmore⟩ := hrest ((b.carry sizes sep).push sep fragment)
      rw [hmore]
      exact ⟨_, rfl⟩
    · exact hrest (b.push sep fragment)

theorem exists_splitText (hsize : 0 < sizes.chunkSize) (hdepth : seps.length < depth) :
    ∃ chunks, splitText sizes depth text seps = some chunks := by
  induction depth generalizing text seps with
  | zero => exact absurd hdepth (Nat.not_lt_zero _)
  | succ depth ih =>
    have hpack : ∃ raw, pack sizes (separatorFor text seps).1
        (fun fragment => splitText sizes depth fragment (separatorFor text seps).2) ⟨[], 0⟩
        (splits (separatorFor text seps).1 text) = some raw := by
      refine exists_pack fun fragment hmem hlarge => ih ?_
      have hlen := length_lt_of_large hsize hmem hlarge
      omega
    obtain ⟨raw, hraw⟩ := hpack
    refine ⟨tidy raw, ?_⟩
    rw [splitText, hraw]
    rfl

theorem pack_mono
    (hrecurse : ∀ fragment sub, recurse fragment = some sub → recurse' fragment = some sub)
    (h : pack sizes sep recurse b fragments = some raw) :
    pack sizes sep recurse' b fragments = some raw := by
  induction fragments generalizing b raw with
  | nil => exact h
  | cons fragment rest ih =>
    rcases pack_cons_cases h with ⟨hlarge, sub, more, hsub, hmore, rfl⟩ |
      ⟨hsmall, hfull, more, hmore, rfl⟩ | ⟨hsmall, hroom, hmore⟩
    · rw [pack, if_pos hlarge, hrecurse fragment sub hsub, ih hmore]
      rfl
    · rw [pack, if_neg (not_lt.mpr hsmall), if_pos hfull, ih hmore]
      rfl
    · rw [pack, if_neg (not_lt.mpr hsmall), if_neg hroom, ih hmore]

theorem splitText_eq_some (h : splitText sizes (depth + 1) text seps = some chunks) :
    ∃ raw, pack sizes (separatorFor text seps).1
      (fun fragment => splitText sizes depth fragment (separatorFor text seps).2) ⟨[], 0⟩
      (splits (separatorFor text seps).1 text) = some raw ∧ tidy raw = chunks :=
  Option.map_eq_some_iff.mp h

theorem splitText_mono (hdepth : depth ≤ depth') (h : splitText sizes depth text seps = some chunks) :
    splitText sizes depth' text seps = some chunks := by
  induction depth generalizing depth' text seps chunks with
  | zero => exact absurd h.symm (Option.some_ne_none _)
  | succ depth ih =>
    obtain ⟨raw, hraw, rfl⟩ := splitText_eq_some h
    cases depth' with
    | zero => exact absurd hdepth (Nat.not_succ_le_zero _)
    | succ depth' =>
      have hmore := pack_mono (fun fragment sub hsub => ih (Nat.le_of_succ_le_succ hdepth) hsub) hraw
      rw [splitText, hmore]
      rfl

theorem tidy_splitText (h : splitText sizes depth text seps = some chunks) : tidy chunks = chunks := by
  cases depth with
  | zero => exact absurd h.symm (Option.some_ne_none _)
  | succ depth =>
    obtain ⟨raw, -, rfl⟩ := splitText_eq_some h
    exact tidy_tidy

end

/-! Nothing of the text is lost. -/

section
variable {sizes : Sizes} {sep text text' : List Char}
  {fragments seps seps' chunks chunks' raw old fresh : List (List Char)} {b : Buffer}
  {recurse : List Char → Option (List (List Char))} {depth : ℕ}

theorem Covers.append (h : Covers seps text chunks) (h' : Covers seps text' chunks') :
    Covers seps (text ++ text') (chunks ++ chunks') := by
  induction h with
  | nil => exact h'
  | separator hsep h ih =>
    rw [List.append_assoc]
    exact .separator hsep ih
  | blank hrun h ih =>
    rw [List.append_assoc]
    exact .blank hrun ih
  | run hrun h ih =>
    rw [List.append_assoc]
    exact .run hrun ih
  | again h ih => exact .again ih

theorem Covers.mono (hseps : ∀ s ∈ seps, s ∈ seps') (h : Covers seps text chunks) :
    Covers seps' text chunks := by
  induction h with
  | nil => exact .nil
  | separator hsep h ih => exact .separator (hseps _ hsep) ih
  | blank hrun h ih => exact .blank hrun ih
  | run hrun h ih => exact .run hrun ih
  | again h ih => exact .again ih

theorem Covers.intercalate (hsep : sep = [] ∨ sep ∈ seps)
    (h : Covers seps (sep.intercalate fragments) chunks)
    (h' : Covers seps (sep.intercalate fresh) chunks') :
    Covers seps (sep.intercalate (fragments ++ fresh)) (chunks ++ chunks') := by
  by_cases hfragments : fragments = []
  · rw [hfragments, List.nil_append]
    rw [hfragments] at h
    exact h.append h'
  · by_cases hfresh : fresh = []
    · rw [hfresh] at h' ⊢
      rw [List.append_nil, ← List.append_nil (sep.intercalate fragments)]
      exact h.append h'
    · rw [intercalate_append hfragments hfresh]
      refine h.append ?_
      rcases hsep with rfl | hsep
      · exact h'
      · exact .separator hsep h'

/-- What a chunk ends with lies in it. -/
theorem Covers.flush (hcurrent : b.current = old ++ fresh) :
    Covers seps (sep.intercalate fresh) (tidy (b.flush sep)) := by
  by_cases hnil : b.current = []
  · rw [hnil] at hcurrent
    rw [Buffer.flush, if_pos hnil, (List.append_eq_nil_iff.mp hcurrent.symm).2]
    exact .nil
  · have hrun : trim isSpace (sep.intercalate fresh) <:+: trim isSpace (sep.intercalate b.current) := by
      rw [hcurrent]
      exact infix_trim suffix_intercalate.isInfix
    rw [Buffer.flush, if_neg hnil, tidy_singleton, ← List.append_nil (sep.intercalate fresh)]
    split_ifs with hblank
    · rw [hblank, List.infix_nil] at hrun
      exact .blank (trim_eq_nil.mp hrun) .nil
    · exact .run hrun .nil

theorem covers_pack (old fresh : List (List Char)) (hsep : sep = [] ∨ sep ∈ seps)
    (hrecurse : ∀ fragment sub, recurse fragment = some sub →
      Covers seps fragment sub ∧ tidy sub = sub)
    (hcurrent : b.current = old ++ fresh) (h : pack sizes sep recurse b fragments = some raw) :
    Covers seps (sep.intercalate (fresh ++ fragments)) (tidy raw) := by
  induction fragments generalizing b old fresh raw with
  | nil =>
    obtain rfl := Option.some.inj h
    rw [List.append_nil]
    exact .flush hcurrent
  | cons fragment rest ih =>
    have hflush : Covers seps (sep.intercalate fresh) (tidy (b.flush sep)) := .flush hcurrent
    rcases pack_cons_cases h with ⟨-, sub, more, hsub, hmore, rfl⟩ | ⟨-, -, more, hmore, rfl⟩ |
      ⟨-, -, hmore⟩
    · obtain ⟨hcovers, htidy⟩ := hrecurse fragment sub hsub
      have hrest := ih _ [] (List.append_nil _).symm hmore
      rw [tidy_append, tidy_append, htidy, ← List.singleton_append]
      refine hflush.intercalate hsep (.intercalate hsep ?_ hrest)
      rwa [List.intercalate_singleton]
    · have hrest := ih (b.carry sizes sep).current [fragment] rfl hmore
      rw [tidy_append, ← List.singleton_append]
      exact hflush.intercalate hsep hrest
    · have hpush : (b.push sep fragment).current = old ++ (fresh ++ [fragment]) := by
        rw [Buffer.push, hcurrent, List.append_assoc]
      have hrest := ih old (fresh ++ [fragment]) hpush hmore
      rwa [List.append_assoc] at hrest

theorem covers_splitText (h : splitText sizes depth text seps = some chunks) :
    Covers seps text chunks := by
  induction depth generalizing text seps chunks with
  | zero => exact absurd h.symm (Option.some_ne_none _)
  | succ depth ih =>
    obtain ⟨raw, hraw, rfl⟩ := splitText_eq_some h
    have hsep := (separatorFor_cases text seps).imp_right And.left
    have hcovers := covers_pack [] [] hsep
      (fun fragment sub hsub =>
        ⟨(ih hsub).mono fun s => mem_of_mem_separatorFor, tidy_splitText hsub⟩) rfl hraw
    rwa [List.nil_append, intercalate_splits] at hcovers

end

/-! What the loop holds, as long as what it carries over fits. -/

section
variable {sizes : Sizes} {sep fragment whole : List Char} {all rest parts raw : List (List Char)}
  {b : Buffer} {h : Held} {recurse : List Char → Option (List (List Char))}

variable (sizes sep) in
/-- The parts that were not carried over past a large fragment stand in front of the rest. -/
structure Held.Holds (whole : List Char) (all rest : List (List Char)) (h : Held) : Prop where
  counted : h.buffer.currentLen + h.kept * sep.length =
    (h.buffer.current.map fun part => part.length + sep.length).sum
  near : h.buffer.current.drop h.stale ++ rest <:+ all
  fine : h.buffer.current ≠ [] → Fine sizes whole (sep.intercalate h.buffer.current)

theorem Held.Holds.init : Holds sizes sep whole all all ⟨⟨[], 0⟩, 0, 0⟩ where
  counted := by simp
  near := List.suffix_rfl
  fine h := absurd rfl h

theorem Held.Holds.empty (hh : h.Holds sizes sep whole all rest) (hnil : h.buffer.current = []) :
    h.buffer.currentLen = 0 := by
  have hcounted := hh.counted
  rw [hnil, List.map_nil, List.sum_nil] at hcounted
  omega

theorem fine_of_suffix (hparts : parts <:+ b.current)
    (hfine : b.current ≠ [] → Fine sizes whole (sep.intercalate b.current)) (hne : parts ≠ []) :
    Fine sizes whole (sep.intercalate parts) := by
  have hcurrent : b.current ≠ [] := by
    intro hnil
    rw [hnil] at hparts
    exact hne (List.suffix_nil.mp hparts)
  exact (hfine hcurrent).mono (infix_intercalate hparts.isInfix)

/-- Without parts that were carried over, what is joined is a part of the text. -/
theorem Held.Fits.fine (hfits : h.Fits sizes sep whole) (hall : sep.intercalate all <:+: whole)
    (hnear : h.buffer.current.drop h.stale ++ rest <:+ all)
    (hroom : h.kept = 0 → (sep.intercalate h.buffer.current).length ≤ sizes.chunkSize) :
    Fine sizes whole (sep.intercalate h.buffer.current) := by
  refine ⟨?_, ?_⟩
  · by_cases hkept : h.kept = 0
    · exact trim_infix_self.length_le.trans (hroom hkept)
    · exact hfits.room hkept
  · by_cases hstale : h.stale = 0
    · rw [hstale, List.drop_zero] at hnear
      have hcurrent : h.buffer.current <:+: all := (List.prefix_append _ _).isInfix.trans hnear.isInfix
      exact trim_infix_self.trans ((infix_intercalate hcurrent).trans hall)
    · exact hfits.elsewhere hstale

theorem drop_suffix_drop (stale : ℕ) (hparts : parts <:+ b.current) :
    parts.drop (parts.length - (b.current.length - stale)) <:+ b.current.drop stale := by
  obtain ⟨u, hu⟩ := hparts
  rw [← hu, List.drop_append, List.length_append]
  by_cases hstale : stale ≤ u.length + parts.length
  · have hcount : parts.length - (u.length + parts.length - stale) = stale - u.length := by omega
    rw [hcount]
    exact List.suffix_append _ _
  · have hcount : parts.length - (u.length + parts.length - stale) = parts.length := by omega
    rw [hcount, List.drop_length]
    exact List.nil_suffix

theorem Held.Holds.next_large (hh : h.Holds sizes sep whole all (fragment :: rest))
    (hlarge : sizes.chunkSize < fragment.length) :
    (h.next sizes sep fragment).Holds sizes sep whole all rest := by
  rw [Held.next_large hlarge]
  refine ⟨?_, ?_, ?_⟩
  · rw [sum_length_add, Buffer.pass_currentLen hh.empty]
  · rw [List.drop_length, List.nil_append]
    exact ((List.suffix_cons fragment rest).trans (List.suffix_append _ _)).trans hh.near
  · exact fine_of_suffix Buffer.pass_suffix hh.fine

theorem Held.Holds.next_full (hh : h.Holds sizes sep whole all (fragment :: rest))
    (hall : sep.intercalate all <:+: whole) (hsmall : fragment.length ≤ sizes.chunkSize)
    (hfull : h.buffer.Full sizes sep fragment)
    (hfits : (h.next sizes sep fragment).Fits sizes sep whole) :
    (h.next sizes sep fragment).Holds sizes sep whole all rest := by
  rw [Held.next_full hsmall hfull] at hfits ⊢
  set parts := (h.buffer.carry sizes sep).current with hparts
  have hsuffix : parts <:+ h.buffer.current := Buffer.carry_suffix
  have hnear : (parts ++ [fragment]).drop
      (parts.length - (h.buffer.current.length - h.stale)) ++ rest <:+ all := by
    rw [List.drop_append_of_le_length (Nat.sub_le _ _), List.append_assoc, List.singleton_append]
    obtain ⟨u, hu⟩ := drop_suffix_drop h.stale hsuffix
    refine List.IsSuffix.trans ⟨u, ?_⟩ hh.near
    rw [← hu, List.append_assoc]
  refine ⟨?_, hnear, fun _ => hfits.fine hall hnear ?_⟩
  · have hlen : (h.buffer.carry sizes sep).currentLen = (parts.map List.length).sum := rfl
    simp only [Buffer.push, ← hparts, hlen, List.map_append, List.sum_append, sum_length_add,
      List.map_singleton, List.sum_singleton]
    omega
  · intro hkept
    have hnil : parts = [] := List.length_eq_zero_iff.mp hkept
    simp only [Buffer.push, ← hparts, hnil, List.nil_append, List.intercalate_singleton]
    exact hsmall

theorem Held.Holds.next_room (hh : h.Holds sizes sep whole all (fragment :: rest))
    (hall : sep.intercalate all <:+: whole) (hsmall : fragment.length ≤ sizes.chunkSize)
    (hroom : ¬ h.buffer.Full sizes sep fragment)
    (hfits : (h.next sizes sep fragment).Fits sizes sep whole) :
    (h.next sizes sep fragment).Holds sizes sep whole all rest := by
  rw [Held.next_room hsmall hroom] at hfits ⊢
  have hnear : (h.buffer.current ++ [fragment]).drop h.stale ++ rest <:+ all := by
    by_cases hstale : h.stale ≤ h.buffer.current.length
    · rw [List.drop_append_of_le_length hstale, List.append_assoc]
      exact hh.near
    · have hlen : (h.buffer.current ++ [fragment]).length ≤ h.stale := by
        rw [List.length_append, List.length_singleton]
        omega
      rw [List.drop_eq_nil_of_le hlen, List.nil_append]
      exact ((List.suffix_cons fragment rest).trans (List.suffix_append _ _)).trans hh.near
  refine ⟨?_, hnear, fun _ => hfits.fine hall hnear ?_⟩
  · have hcounted := hh.counted
    simp only [Buffer.push, List.map_append, List.sum_append, List.map_singleton, List.sum_singleton]
    omega
  · intro hkept
    have hcounted := hh.counted
    rw [hkept, Nat.zero_mul, Nat.add_zero] at hcounted
    by_cases hnil : h.buffer.current = []
    · simp only [Buffer.push, hnil, List.nil_append, List.intercalate_singleton]
      exact hsmall
    · have hne : h.buffer.current ++ [fragment] ≠ [] :=
        List.append_ne_nil_of_right_ne_nil _ (List.cons_ne_nil fragment [])
      have hlen : (sep.intercalate (h.buffer.current ++ [fragment])).length + sep.length =
          ((h.buffer.current ++ [fragment]).map fun part => part.length + sep.length).sum :=
        length_intercalate hne
      rw [List.map_append, List.sum_append, ← hcounted, List.map_singleton, List.sum_singleton] at hlen
      have hfree := not_and_or.mp hroom
      have hle := hfree.resolve_right (not_not.mpr hnil)
      simp only [Buffer.push]
      omega

theorem fine_flush (hh : h.Holds sizes sep whole all rest) :
    ∀ chunk ∈ h.buffer.flush sep, Fine sizes whole chunk := by
  intro chunk hchunk
  rw [Buffer.flush] at hchunk
  split_ifs at hchunk with hnil
  · exact absurd hchunk List.not_mem_nil
  · rw [List.mem_singleton.mp hchunk]
    exact hh.fine hnil

theorem fine_pack (hall : sep.intercalate all <:+: whole) (hh : h.Holds sizes sep whole all rest)
    (hfits : h.FitsAll sizes sep whole rest)
    (hrecurse : ∀ fragment ∈ rest, sizes.chunkSize < fragment.length → ∀ sub,
      recurse fragment = some sub → ∀ chunk ∈ sub, Fine sizes whole chunk)
    (hpack : pack sizes sep recurse h.buffer rest = some raw) :
    ∀ chunk ∈ raw, Fine sizes whole chunk := by
  induction rest generalizing h raw with
  | nil =>
    obtain rfl := Option.some.inj hpack
    exact fine_flush hh
  | cons fragment rest ih =>
    obtain ⟨hhere, hrest⟩ := hfits
    have hrecurse' := fun f hf => hrecurse f (List.mem_cons_of_mem fragment hf)
    rcases pack_cons_cases hpack with ⟨hlarge, sub, more, hsub, hmore, rfl⟩ |
      ⟨hsmall, hfull, more, hmore, rfl⟩ | ⟨hsmall, hroom, hmore⟩
    · have hnext := hh.next_large hlarge
      rw [Held.next_large hlarge] at hnext hrest
      refine List.forall_mem_append.mpr ⟨fine_flush hh, List.forall_mem_append.mpr ⟨?_, ?_⟩⟩
      · exact hrecurse fragment List.mem_cons_self hlarge sub hsub
      · exact ih hnext hrest hrecurse' hmore
    · have hnext := hh.next_full hall hsmall hfull (hhere hsmall)
      rw [Held.next_full hsmall hfull] at hnext hrest
      exact List.forall_mem_append.mpr ⟨fine_flush hh, ih hnext hrest hrecurse' hmore⟩
    · have hnext := hh.next_room hall hsmall hroom (hhere hsmall)
      rw [Held.next_room hsmall hroom] at hnext hrest
      exact ih hnext hrest hrecurse' hmore

theorem fine_splitText {depth : ℕ} {text : List Char} {seps chunks : List (List Char)}
    (htext : text <:+: whole)
    (hfits : ∀ text' seps', Calls sizes text seps text' seps' →
      Held.FitsAll sizes (separatorFor text' seps').1 whole ⟨⟨[], 0⟩, 0, 0⟩
        (splits (separatorFor text' seps').1 text'))
    (h : splitText sizes depth text seps = some chunks) :
    ∀ chunk ∈ chunks, Fine sizes whole chunk := by
  induction depth generalizing text seps chunks with
  | zero => exact absurd h.symm (Option.some_ne_none _)
  | succ depth ih =>
    obtain ⟨raw, hraw, rfl⟩ := splitText_eq_some h
    refine fine_tidy.mpr (fine_pack ?_ .init (hfits text seps (.here text seps)) ?_ hraw)
    · rwa [intercalate_splits]
    · intro fragment hmem hlarge sub hsub
      exact ih ((infix_of_mem_splits hmem).trans htext)
        (fun text' seps' hcalls => hfits text' seps' (.deeper hmem hlarge hcalls)) hsub

/-! Every joined chunk is seen in what is returned. -/

theorem exists_prefix_of_pack (hb : b.current ≠ [])
    (hpack : pack sizes sep recurse b rest = some raw) :
    ∃ chunk ∈ raw, sep.intercalate b.current <+: chunk := by
  have hflush : sep.intercalate b.current ∈ b.flush sep := by
    rw [Buffer.flush, if_neg hb]
    exact List.mem_singleton_self _
  induction rest generalizing b raw with
  | nil =>
    obtain rfl := Option.some.inj hpack
    exact ⟨_, hflush, List.prefix_rfl⟩
  | cons fragment rest ih =>
    rcases pack_cons_cases hpack with ⟨-, sub, more, -, -, rfl⟩ | ⟨-, -, more, -, rfl⟩ | ⟨-, -, hmore⟩
    · exact ⟨_, List.mem_append_left _ hflush, List.prefix_rfl⟩
    · exact ⟨_, List.mem_append_left _ hflush, List.prefix_rfl⟩
    · have hpush : (b.push sep fragment).current ≠ [] := by simp [Buffer.push]
      obtain ⟨chunk, hchunk, hprefix⟩ := ih hpush hmore (by
        rw [Buffer.flush, if_neg hpush]
        exact List.mem_singleton_self _)
      exact ⟨chunk, hchunk, prefix_intercalate.trans hprefix⟩

theorem fits_of_pack {kept stale : ℕ} (hb : b.current ≠ [])
    (hpack : pack sizes sep recurse b rest = some raw) (hfine : ∀ chunk ∈ raw, Fine sizes whole chunk) :
    Held.Fits sizes sep whole ⟨b, kept, stale⟩ := by
  obtain ⟨chunk, hchunk, hprefix⟩ := exists_prefix_of_pack hb hpack
  obtain ⟨hlength, hinfix⟩ := (hfine chunk hchunk).mono hprefix.isInfix
  exact ⟨fun _ => hlength, fun _ => hinfix⟩

theorem fitsAll_of_pack (hpack : pack sizes sep recurse h.buffer rest = some raw)
    (hfine : ∀ chunk ∈ raw, Fine sizes whole chunk) : h.FitsAll sizes sep whole rest := by
  induction rest generalizing h raw with
  | nil => trivial
  | cons fragment rest ih =>
    have hpush : ∀ b : Buffer, (b.push sep fragment).current ≠ [] := fun b => by simp [Buffer.push]
    rw [Held.FitsAll]
    rcases pack_cons_cases hpack with ⟨hlarge, sub, more, hsub, hmore, rfl⟩ |
      ⟨hsmall, hfull, more, hmore, rfl⟩ | ⟨hsmall, hroom, hmore⟩
    · have hfine' := (List.forall_mem_append.mp (List.forall_mem_append.mp hfine).2).2
      rw [Held.next_large hlarge]
      exact ⟨fun hsmall => absurd hlarge (not_lt.mpr hsmall), ih hmore hfine'⟩
    · have hfine' := (List.forall_mem_append.mp hfine).2
      rw [Held.next_full hsmall hfull]
      exact ⟨fun _ => fits_of_pack (hpush _) hmore hfine', ih hmore hfine'⟩
    · rw [Held.next_room hsmall hroom]
      exact ⟨fun _ => fits_of_pack (hpush _) hmore hfine, ih hmore hfine⟩

theorem exists_sub_of_pack {fragment : List Char} (hmem : fragment ∈ rest)
    (hlarge : sizes.chunkSize < fragment.length)
    (hpack : pack sizes sep recurse b rest = some raw) :
    ∃ sub, recurse fragment = some sub ∧ ∀ chunk ∈ sub, chunk ∈ raw := by
  induction rest generalizing b raw with
  | nil => exact absurd hmem List.not_mem_nil
  | cons f rest ih =>
    have hrest : f.length ≤ sizes.chunkSize → fragment ∈ rest := by
      intro hsmall
      rcases List.mem_cons.mp hmem with rfl | hmem
      · omega
      · exact hmem
    rcases pack_cons_cases hpack with ⟨-, sub, more, hsub, hmore, rfl⟩ |
      ⟨hsmall, -, more, hmore, rfl⟩ | ⟨hsmall, -, hmore⟩
    · rcases List.mem_cons.mp hmem with rfl | hmem
      · refine ⟨sub, hsub, fun chunk hchunk => ?_⟩
        exact List.mem_append_right _ (List.mem_append_left _ hchunk)
      · obtain ⟨sub', hsub', hsubset⟩ := ih hmem hmore
        refine ⟨sub', hsub', fun chunk hchunk => ?_⟩
        exact List.mem_append_right _ (List.mem_append_right _ (hsubset chunk hchunk))
    · obtain ⟨sub, hsub, hsubset⟩ := ih (hrest hsmall) hmore
      exact ⟨sub, hsub, fun chunk hchunk => List.mem_append_right _ (hsubset chunk hchunk)⟩
    · exact ih (hrest hsmall) hmore

theorem fitsAll_of_calls {depth : ℕ} {text text' : List Char} {seps seps' chunks : List (List Char)}
    (hcalls : Calls sizes text seps text' seps')
    (h : splitText sizes depth text seps = some chunks)
    (hfine : ∀ chunk ∈ chunks, Fine sizes whole chunk) :
    Held.FitsAll sizes (separatorFor text' seps').1 whole ⟨⟨[], 0⟩, 0, 0⟩
      (splits (separatorFor text' seps').1 text') := by
  induction hcalls generalizing depth chunks with
  | here text seps =>
    cases depth with
    | zero => exact absurd h.symm (Option.some_ne_none _)
    | succ depth =>
      obtain ⟨raw, hraw, rfl⟩ := splitText_eq_some h
      exact fitsAll_of_pack (h := ⟨⟨[], 0⟩, 0, 0⟩) hraw (fine_tidy.mp hfine)
  | deeper hmem hlarge hcalls ih =>
    cases depth with
    | zero => exact absurd h.symm (Option.some_ne_none _)
    | succ depth =>
      obtain ⟨raw, hraw, rfl⟩ := splitText_eq_some h
      obtain ⟨sub, hsub, hsubset⟩ := exists_sub_of_pack hmem hlarge hraw
      exact ih hsub fun chunk hchunk => fine_tidy.mp hfine chunk (hsubset chunk hchunk)

/-- Whatever is carried over, the splitter comes to an end, and nothing is lost. -/
theorem exists_returns (hsize : 0 < sizes.chunkSize) (text : List Char) :
    ∃ chunks, Returns sizes text chunks ∧ Covers separators text chunks := by
  have hsplit : ∃ chunks, splitText sizes (separators.length + 1) text separators = some chunks :=
    exists_splitText hsize (Nat.lt_succ_self _)
  obtain ⟨chunks, hchunks⟩ := hsplit
  exact ⟨chunks, ⟨_, fun depth hdepth => splitText_mono hdepth hchunks⟩, covers_splitText hchunks⟩

end

def mixed : List Char := ['a', ' ', 'b', 'c', 'd', 'e', 'f', ' ', 'g', ' ', 'h', 'i', 'j']

end Finguard.Splitter
