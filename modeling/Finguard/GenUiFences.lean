import Finguard.Lib.Fragments
import Finguard.Lib.Pattern
import Finguard.PythonValues

/-! Payloads of the user interface in the fences of a message's text. -/

namespace Finguard.GenUi
open Pattern Text

/-- `json.loads` of a text, with nothing where it raises. A backtick stands in a string only, and a
string has no line break. -/
class JsonLoads where
  loads : String → Option PyValue
  loads_empty : loads "" = none
  quoted : ∀ {s u v}, (loads s).isSome → s.toList = u ++ '`' :: v →
    (∃ u₁ u₂, u = u₁ ++ '"' :: u₂ ∧ '\n' ∉ u₂) ∧ ∃ v₁ v₂, v = v₁ ++ '"' :: v₂ ∧ '\n' ∉ v₁

structure GenUIPayload where
  componentId : String
  props : PyFields
  fallbackText : String

/-- `GenUIPayload(**data)` -/
def genUIPayload? : PyValue → Option GenUIPayload
  | .object data =>
    match data.lookup "component_id", data.lookup "props", data.lookup "fallback_text" with
    | some (.text componentId), some (.object props), some (.text fallbackText) =>
      if componentId ≠ "" ∧ fallbackText ≠ "" ∧ componentId = strip componentId then
        some ⟨componentId, props, fallbackText⟩
      else none
    | _, _, _ => none
  | _ => none

def ticks : List Char := ['`', '`', '`']

def word : List Char := ['g', 'e', 'n', 'u', 'i']

def opening : List Char := ticks ++ word

def closing : List Char := '\n' :: ticks

/-- What comes before the first closing, and what comes after it. -/
def toClosing : List Char → Option (List Char × List Char) :=
  lazyAny fun body => literal closing fun rest => some (body, rest)

/-- White space, a line break, the body and the closing. -/
def afterOpening : List Char → Option (List Char × List Char) :=
  greedy isSpace (literal ['\n'] toClosing)

def genUiBlockRe : List Char → Option (List Char × List Char) := literal opening afterOpening

/-! White space around a text. -/

section
variable {s t u v l m r : List Char} {c : Char}

theorem strip_ofList (cs : List Char) :
    strip (String.ofList cs) = String.ofList (Fragments.trim isSpace cs) := by
  rw [strip, String.toList_ofList]
  rfl

theorem strip_append_left (hs : ∀ c ∈ s, isSpace c = true) :
    strip (String.ofList (s ++ t)) = strip (String.ofList t) := by
  have htrim := Fragments.trim_append (m := t) hs (List.forall_mem_nil _)
  rw [List.append_nil] at htrim
  rw [strip_ofList, strip_ofList, htrim]

theorem exists_strip (body : List Char) : ∃ u v, body = u ++ (strip (String.ofList body)).toList ++ v ∧
    (∀ c ∈ u, isSpace c = true) ∧ ∀ c ∈ v, isSpace c = true := by
  rw [strip_ofList, String.toList_ofList]
  exact Fragments.exists_trim body

theorem isSpace_backtick : isSpace '`' = false := by decide

theorem split_of_not_mem_left (h : l ++ m = u ++ c :: v) (hc : c ∉ l) :
    ∃ u', u = l ++ u' ∧ m = u' ++ c :: v := by
  rcases List.append_eq_append_iff.mp h with ⟨u', hu, hm⟩ | ⟨k, hl, hk⟩
  · exact ⟨u', hu, hm⟩
  · cases k with
    | nil => exact ⟨[], by simpa using hl.symm, hk.symm⟩
    | cons d k =>
      obtain ⟨rfl, -⟩ := List.cons.inj hk
      exact absurd (hl ▸ List.mem_append_right u List.mem_cons_self) hc

theorem split_of_not_mem_right (h : m ++ r = u ++ c :: v) (hc : c ∉ r) :
    ∃ v', v = v' ++ r ∧ m = u ++ c :: v' := by
  rcases List.append_eq_append_iff.mp h with ⟨k, hu, hr⟩ | ⟨k, hm, hk⟩
  · exact absurd (hr ▸ List.mem_append_right k List.mem_cons_self) hc
  · cases k with
    | nil =>
      rw [List.nil_append] at hk
      exact absurd (hk ▸ List.mem_cons_self) hc
    | cons d k =>
      obtain ⟨rfl, hv⟩ := List.cons.inj hk
      exact ⟨k, hv, hm⟩

end

/-! The pattern. -/

/-- No line but the first begins with a backtick. -/
def Inside (body : List Char) : Prop := body.IsChain fun a b => a = '\n' → b ≠ '`'

section
variable {s t body rest lead : List Char} {c : Char} {found : List Char × List Char}

theorem inside_of_not_mem (h : '`' ∉ s) : Inside s := by
  refine List.isChain_iff_forall_rel_of_append_cons_cons.mpr fun a b l₁ l₂ hs _ hb => ?_
  rw [hs, hb] at h
  exact h (by simp)

theorem toClosing_append (h : Inside body) :
    toClosing (body ++ (closing ++ rest)) = some (body, rest) := by
  refine lazyAny_append_some (fun t u hsplit hu => literal_of_not fun hclosing => ?_) literal_append
  obtain ⟨a, u, rfl⟩ := List.exists_cons_of_ne_nil hu
  have hclosing' : ['\n', '`', '`', '`'] <+: a :: (u ++ (closing ++ rest)) := hclosing
  obtain ⟨ha, hnext⟩ := List.cons_prefix_cons.mp hclosing'
  cases u with
  | nil => exact absurd (List.cons_prefix_cons.mp hnext).1 (by decide)
  | cons b u =>
    have hb := (List.cons_prefix_cons.mp hnext).1
    exact List.isChain_iff_forall_rel_of_append_cons_cons.mp h hsplit ha.symm hb.symm

theorem toClosing_eq_none (h : Inside s) : toClosing s = none := by
  refine lazyAny_eq_none fun t u hsplit => literal_of_not fun hclosing => ?_
  obtain ⟨r, hr⟩ := hclosing
  have hs : s = t ++ '\n' :: '`' :: ('`' :: '`' :: r) := by
    rw [hsplit, ← hr]
    rfl
  exact List.isChain_iff_forall_rel_of_append_cons_cons.mp h hs rfl rfl

theorem afterOpening_eq_none (hs : '\n' ∉ s) (hc : isSpace c = false) :
    afterOpening (s ++ c :: rest) = none := by
  have hne : ∀ {d : Char} {l : List Char}, d ≠ '\n' → literal ['\n'] toClosing (d :: l) = none := by
    intro d l hd
    refine literal_of_not fun hprefix => ?_
    exact hd (List.cons_prefix_cons.mp hprefix).1.symm
  refine greedy_append_none (fun t u hsplit hu => ?_) ?_
  · obtain ⟨d, u, rfl⟩ := List.exists_cons_of_ne_nil hu
    refine hne fun hd => hs ?_
    rw [hsplit, hd]
    exact List.mem_append_right t List.mem_cons_self
  · rw [greedy_of_not hc]
    refine hne fun heq => ?_
    rw [heq] at hc
    exact absurd hc (by decide)

/-- The body begins after a line break in white space if none of those after it will do. -/
theorem afterOpening_line (hlead : ∀ c ∈ lead, isSpace c = true)
    (hlater : afterOpening s = none) (hfound : toClosing s = some found) :
    afterOpening (lead ++ '\n' :: s) = some found := by
  refine greedy_append_some hlead ?_
  have hhere : literal ['\n'] toClosing ('\n' :: s) = some found := by
    rw [← hfound]
    exact literal_append
  have hspace : isSpace '\n' = true := by decide
  have hlater' : greedy isSpace (literal ['\n'] toClosing) s = none := hlater
  rw [greedy, if_pos hspace, hlater', hhere]
  rfl

theorem exists_last_line (h : '\n' ∈ lead) : ∃ l₁ l₂, lead = l₁ ++ '\n' :: l₂ ∧ '\n' ∉ l₂ := by
  obtain ⟨r₁, r₂, hr, hnot⟩ := List.eq_append_cons_of_mem (List.mem_reverse.mpr h)
  refine ⟨r₂.reverse, r₁.reverse, ?_, fun hmem => hnot (List.mem_reverse.mp hmem)⟩
  rw [← List.reverse_reverse lead, hr]
  simp

theorem afterOpening_of_lead (rest : List Char) (hlead : ∀ c ∈ lead, isSpace c = true) (hline : '\n' ∈ lead)
    (hc : isSpace c = false) (hinside : Inside (lead ++ c :: body)) :
    ∃ blank, (∀ c ∈ blank, isSpace c = true) ∧
      afterOpening (lead ++ c :: (body ++ (closing ++ rest))) =
        some (blank ++ c :: body, rest) := by
  obtain ⟨l₁, l₂, rfl, hl₂⟩ := exists_last_line hline
  refine ⟨l₂, fun c hc => hlead c (by simp [hc]), ?_⟩
  have hbody : Inside (l₂ ++ c :: body) := by
    rw [List.append_assoc] at hinside
    exact (List.IsChain.right_of_append hinside).tail
  have hfound : toClosing (l₂ ++ c :: (body ++ (closing ++ rest))) =
      some (l₂ ++ c :: body, rest) := by
    have happend : l₂ ++ c :: (body ++ (closing ++ rest)) =
        l₂ ++ c :: body ++ (closing ++ rest) := by simp
    rw [happend, toClosing_append hbody]
  rw [List.append_assoc, List.cons_append]
  exact afterOpening_line (fun c hc => hlead c (by simp [hc])) (afterOpening_eq_none hl₂ hc) hfound

theorem prefix_of_not_mem (h : s <+: t ++ c :: rest) (hc : c ∉ s) : s <+: t := by
  obtain ⟨r, hr⟩ := h
  obtain ⟨u, hu, -⟩ := split_of_not_mem_left hr hc
  exact ⟨u, hu.symm⟩

end

section
variable [JsonLoads]

/-- The payload that is read from the body of a fence. -/
def readPayload? (body : List Char) : Option GenUIPayload :=
  (JsonLoads.loads (strip (String.ofList body))).bind genUIPayload?

/-- What the replacement leaves in the text. -/
def shown : Piece Char (List Char) → List Char
  | .char c => [c]
  | .hit text body => if (readPayload? body).isSome then [] else text

def payloadOf : Piece Char (List Char) → Option GenUIPayload
  | .char _ => none
  | .hit _ body => readPayload? body

def parseGenUiBlocks (text : String) : String × List GenUIPayload :=
  let found := pieces genUiBlockRe text.toList
  (strip (String.ofList (found.flatMap shown)), found.filterMap payloadOf)

/-! What is read from a body. -/

variable {body s t rest : List Char} {payload : GenUIPayload} {c : Char}

theorem readPayload?_append_left (hs : ∀ c ∈ s, isSpace c = true) :
    readPayload? (s ++ t) = readPayload? t := by
  rw [readPayload?, strip_append_left hs, readPayload?]

theorem readPayload?_blank (hbody : ∀ c ∈ body, isSpace c = true) : readPayload? body = none := by
  have hempty : strip (String.ofList body) = "" := by
    refine strip_eq_empty.mpr ?_
    rw [String.toList_ofList]
    exact hbody
  rw [readPayload?, hempty, JsonLoads.loads_empty]
  rfl

/-- Every backtick in the body of a payload stands between quotation marks on its line. -/
theorem quoted_of_readPayload? {u v : List Char} (hbody : readPayload? body = some payload)
    (hsplit : body = u ++ '`' :: v) : (∃ u₁ u₂, u = u₁ ++ '"' :: u₂ ∧ '\n' ∉ u₂) ∧
      ∃ v₁ v₂, v = v₁ ++ '"' :: v₂ ∧ '\n' ∉ v₁ := by
  obtain ⟨l, r, hstrip, hl, hr⟩ := exists_strip body
  have hloads : (JsonLoads.loads (strip (String.ofList body))).isSome := by
    rw [readPayload?] at hbody
    cases hvalue : JsonLoads.loads (strip (String.ofList body)) with
    | none =>
      rw [hvalue] at hbody
      cases hbody
    | some value => rfl
  -- the backtick is neither in the white space before the text nor in that after it
  have hnl : '`' ∉ l := fun hmem => absurd (hl _ hmem) (by simp [isSpace_backtick])
  have hnr : '`' ∉ r := fun hmem => absurd (hr _ hmem) (by simp [isSpace_backtick])
  rw [hstrip, List.append_assoc] at hsplit
  obtain ⟨u', hu, hrest⟩ := split_of_not_mem_left hsplit hnl
  obtain ⟨v', hv, hmiddle⟩ := split_of_not_mem_right hrest hnr
  obtain ⟨⟨u₁, u₂, hu₁, hu₂⟩, v₁, v₂, hv₁, hv₂⟩ := JsonLoads.quoted hloads hmiddle
  refine ⟨⟨l ++ u₁, u₂, ?_, hu₂⟩, v₁, v₂ ++ r, ?_, hv₂⟩
  · rw [hu, hu₁, List.append_assoc]
  · rw [hv, hv₁, List.append_assoc, List.cons_append]

/-! Fences. -/

/-- White space and a line break come before the content. It has no backtick unless it is the JSON of
a payload. -/
structure Fence where
  pad : List Char
  content : List Char
  pad_blank : ∀ c ∈ pad, isSpace c = true
  sound : '`' ∈ content → (readPayload? content).isSome

def Fence.inside (f : Fence) : List Char := f.pad ++ '\n' :: f.content

def Fence.text (f : Fence) : List Char := opening ++ (f.inside ++ closing)

def Fence.payload? (f : Fence) : Option GenUIPayload := readPayload? f.content

def Fence.blank (f : Fence) : Bool := f.content.all isSpace

variable {f : Fence} {u v : List Char}

theorem Fence.quoted (h : f.content = u ++ '`' :: v) :
    (∃ u₁ u₂, u = u₁ ++ '"' :: u₂ ∧ '\n' ∉ u₂) ∧ ∃ v₁ v₂, v = v₁ ++ '"' :: v₂ ∧ '\n' ∉ v₁ := by
  have hmem : '`' ∈ f.content := by simp [h]
  obtain ⟨payload, hpayload⟩ := Option.isSome_iff_exists.mp (f.sound hmem)
  exact quoted_of_readPayload? hpayload h

theorem Fence.line_mem (f : Fence) : '\n' ∈ f.inside := by simp [Fence.inside]

theorem Fence.pad_ne (f : Fence) : '`' ∉ f.pad := fun h =>
  absurd (f.pad_blank _ h) (by simp [isSpace_backtick])

theorem Fence.inside_inside (f : Fence) : Inside f.inside := by
  refine List.isChain_iff_forall_rel_of_append_cons_cons.mpr fun a b l₁ l₂ hsplit ha hb => ?_
  have hpad : '`' ∉ f.pad ++ ['\n'] := by simp [f.pad_ne]
  have hsplit' : (f.pad ++ ['\n']) ++ f.content = (l₁ ++ ['\n']) ++ '`' :: l₂ := by
    rw [Fence.inside, ha, hb] at hsplit
    simpa using hsplit
  obtain ⟨u, hu, hcontent⟩ := split_of_not_mem_left hsplit' hpad
  obtain ⟨⟨u₁, u₂, rfl, hu₂⟩, -⟩ := Fence.quoted hcontent
  -- the line break would be the last character of a line that begins with a quotation mark
  rcases List.eq_nil_or_concat u₂ with rfl | ⟨u₃, d, rfl⟩
  · have hu' : l₁ ++ ['\n'] = (f.pad ++ ['\n'] ++ u₁) ++ ['"'] := by
      rw [hu]
      simp
    exact absurd (List.append_inj' hu' rfl).2 (by decide)
  · have hu' : l₁ ++ ['\n'] = (f.pad ++ ['\n'] ++ (u₁ ++ '"' :: u₃)) ++ [d] := by
      rw [hu]
      simp
    have hd : '\n' = d := (List.cons.inj (List.append_inj' hu' rfl).2).1
    exact hu₂ (by simp [← hd])

/-- A fence with something in it is found as it stands. -/
theorem Fence.found (rest : List Char) (hblank : f.blank = false) : ∃ body,
    genUiBlockRe (f.text ++ rest) = some (body, rest) ∧ readPayload? body = f.payload? := by
  obtain ⟨x, hx, hspace⟩ : ∃ x ∈ f.content, isSpace x = false := by
    simpa [Fence.blank] using hblank
  cases hrest : f.content.dropWhile isSpace with
  | nil =>
    have hall := List.dropWhile_eq_nil_iff.mp hrest x hx
    rw [hspace] at hall
    cases hall
  | cons c cs =>
    have hc : isSpace c = false := by
      have hfirst := List.head_dropWhile_not isSpace (by rw [hrest]; exact List.cons_ne_nil c cs)
      simpa [hrest] using hfirst
    have hcontent : f.content.takeWhile isSpace ++ c :: cs = f.content := by
      rw [← hrest]
      exact List.takeWhile_append_dropWhile
    have hlead : ∀ d ∈ f.pad ++ '\n' :: f.content.takeWhile isSpace, isSpace d = true := by
      intro d hd
      rcases List.mem_append.mp hd with hd | hd
      · exact f.pad_blank d hd
      · rcases List.mem_cons.mp hd with rfl | hd
        · decide
        · exact List.mem_takeWhile_imp hd
    have hinside : f.pad ++ '\n' :: f.content.takeWhile isSpace ++ c :: cs = f.inside := by
      rw [List.append_assoc, List.cons_append, hcontent]
      rfl
    obtain ⟨blank, hblanks, hfound⟩ := afterOpening_of_lead rest hlead (by simp) hc
      (hinside ▸ f.inside_inside)
    refine ⟨blank ++ c :: cs, ?_, ?_⟩
    · have htext : f.text ++ rest = opening ++ (f.pad ++ '\n' :: f.content.takeWhile isSpace ++
          c :: (cs ++ (closing ++ rest))) := by
        rw [Fence.text, ← hinside]
        simp
      rw [htext]
      exact literal_append.trans hfound
    · have htake : ∀ d ∈ f.content.takeWhile isSpace, isSpace d = true :=
        fun d => List.mem_takeWhile_imp
      rw [Fence.payload?, readPayload?_append_left hblanks, ← hcontent,
        readPayload?_append_left htake]

theorem Fence.lead_blank (hblank : f.blank = true) : ∀ c ∈ f.inside, isSpace c = true := by
  intro c hc
  rcases List.mem_append.mp hc with hc | hc
  · exact f.pad_blank c hc
  · rcases List.mem_cons.mp hc with rfl | hc
    · decide
    · exact List.all_eq_true.mp hblank c hc

theorem Fence.payload?_blank (hblank : f.blank = true) : f.payload? = none :=
  readPayload?_blank (List.all_eq_true.mp hblank)

theorem Fence.found_next (hblank : f.blank = true) {found : List Char × List Char}
    (hnext : toClosing (ticks ++ rest) = some found) :
    genUiBlockRe (f.text ++ rest) = some found := by
  have htext : f.text ++ rest = opening ++ (f.inside ++ '\n' :: (ticks ++ rest)) := by
    rw [Fence.text, List.append_assoc, List.append_assoc]
    rfl
  have hlater : afterOpening (ticks ++ rest) = none :=
    afterOpening_eq_none (List.not_mem_nil) isSpace_backtick
  rw [htext]
  exact literal_append.trans (afterOpening_line (Fence.lead_blank hblank) hlater hnext)

theorem Fence.found_last (hblank : f.blank = true) (hnext : toClosing (ticks ++ rest) = none) :
    ∃ body, genUiBlockRe (f.text ++ rest) = some (body, rest) ∧ readPayload? body = none := by
  obtain ⟨l₁, l₂, hinside, hl₂⟩ := exists_last_line f.line_mem
  have hspaces := Fence.lead_blank hblank
  rw [hinside] at hspaces
  have hblank₂ : ∀ c ∈ l₂, isSpace c = true := fun c hc => hspaces c (by simp [hc])
  have htext : f.text ++ rest = opening ++ (l₁ ++ '\n' :: (l₂ ++ (closing ++ rest))) := by
    rw [Fence.text, hinside]
    simp
  have hclosed : afterOpening (closing ++ rest) = none := by
    have hspace : isSpace '\n' = true := by decide
    have hlater : afterOpening (ticks ++ rest) = none :=
      afterOpening_eq_none (List.not_mem_nil) isSpace_backtick
    have hlater' : greedy isSpace (literal ['\n'] toClosing) (ticks ++ rest) = none := hlater
    have hhere : literal ['\n'] toClosing ('\n' :: (ticks ++ rest)) = none := by
      rw [← hnext]
      exact literal_append
    have hsplit : closing ++ rest = '\n' :: (ticks ++ rest) := rfl
    rw [hsplit, afterOpening, greedy, if_pos hspace, hlater', hhere]
    rfl
  have hlater : afterOpening (l₂ ++ (closing ++ rest)) = none := by
    refine greedy_append_none (fun t u hsplit hu => literal_of_not fun hprefix => hl₂ ?_) hclosed
    obtain ⟨d, u, rfl⟩ := List.exists_cons_of_ne_nil hu
    have hd : '\n' = d := (List.cons_prefix_cons.mp hprefix).1
    rw [hsplit, hd]
    exact List.mem_append_right t List.mem_cons_self
  have hinside₂ : Inside l₂ :=
    inside_of_not_mem fun hmem => absurd (hblank₂ _ hmem) (by simp [isSpace_backtick])
  refine ⟨l₂, ?_, readPayload?_blank hblank₂⟩
  rw [htext]
  exact literal_append.trans (afterOpening_line (fun c hc => hspaces c (by simp [hc])) hlater
    (toClosing_append hinside₂))

/-! Texts made of segments. -/

inductive Segment where
  | plain (s : List Char) (h : '`' ∉ s)
  | fence (f : Fence)

def Segment.text : Segment → List Char
  | plain s _ => s
  | fence f => f.text

def Segment.payload? : Segment → Option GenUIPayload
  | plain _ _ => none
  | fence f => f.payload?

/-- What is to be left of a segment. -/
def Segment.kept (segment : Segment) : List Char :=
  if segment.payload?.isSome then [] else segment.text

def joined (segments : List Segment) : List Char := segments.flatMap Segment.text

/-- The text and the payloads that are found in segments. A blank fence takes the fence after it. -/
def readFrom : (taken : Bool) → List Segment → List Char × List GenUIPayload
  | _, [] => ([], [])
  | taken, .plain s _ :: segments =>
    let found := readFrom taken segments
    (s ++ found.1, found.2)
  | true, .fence f :: segments =>
    let found := readFrom false segments
    (f.text ++ found.1, found.2)
  | false, .fence f :: segments =>
    let found := readFrom f.blank segments
    ((Segment.fence f).kept ++ found.1, f.payload?.toList ++ found.2)

/-- What is found in a text. -/
def Yields (cs : List Char) (found : List Char × List GenUIPayload) : Prop :=
  ∃ ps, Walks genUiBlockRe cs ps ∧ ps.flatMap shown = found.1 ∧ ps.filterMap payloadOf = found.2

variable {segments : List Segment} {cs : List Char} {found : List Char × List GenUIPayload}

theorem Yields.nil : Yields [] ([], []) := ⟨[], .nil, rfl, rfl⟩

theorem Yields.skips (hs : ∀ t u, s = t ++ u → u ≠ [] → genUiBlockRe (u ++ rest) = none)
    (h : Yields rest found) : Yields (s ++ rest) (s ++ found.1, found.2) := by
  obtain ⟨ps, hwalks, hshown, hpayloads⟩ := h
  have hchars : (s.map (.char : Char → Piece Char (List Char))).flatMap shown = s ∧
      (s.map (.char : Char → Piece Char (List Char))).filterMap payloadOf = [] := by
    constructor
    · rw [List.flatMap_map]
      exact List.flatMap_singleton' s
    · rw [List.filterMap_map, List.filterMap_eq_nil_iff]
      exact fun _ _ => rfl
  refine ⟨_, hwalks.skips hs, ?_, ?_⟩
  · rw [List.flatMap_append, hchars.1, hshown]
  · rw [List.filterMap_append, hchars.2, hpayloads]
    rfl

theorem Yields.hit {text : List Char} (hne : text ≠ [])
    (hm : genUiBlockRe (text ++ rest) = some (body, rest)) (h : Yields rest found) :
    Yields (text ++ rest) ((if (readPayload? body).isSome then [] else text) ++ found.1,
      (readPayload? body).toList ++ found.2) := by
  obtain ⟨ps, hwalks, hshown, hpayloads⟩ := h
  refine ⟨_, .hit hne hm hwalks, ?_, ?_⟩
  · rw [List.flatMap_cons, hshown]
    rfl
  · rw [← hpayloads]
    cases hpayload : readPayload? body with
    | none => rw [List.filterMap_cons_none (by exact hpayload)]; rfl
    | some payload => rw [List.filterMap_cons_some (by exact hpayload)]; rfl

theorem parseGenUiBlocks_of_yields (h : Yields cs found) :
    parseGenUiBlocks (String.ofList cs) = (strip (String.ofList found.1), found.2) := by
  obtain ⟨ps, hwalks, hshown, hpayloads⟩ := h
  rw [parseGenUiBlocks, String.toList_ofList, hwalks.pieces_eq, hshown, hpayloads]

omit [JsonLoads] in
theorem genUiBlockRe_of_ne (hc : c ≠ '`') : genUiBlockRe (c :: rest) = none := by
  refine literal_of_not fun hprefix => hc ?_
  have hopening : ['`', '`', '`', 'g', 'e', 'n', 'u', 'i'] <+: c :: rest := hprefix
  exact (List.cons_prefix_cons.mp hopening).1.symm

theorem Yields.plain (hs : '`' ∉ s) (h : Yields rest found) :
    Yields (s ++ rest) (s ++ found.1, found.2) := by
  refine h.skips fun t u hsplit hu => ?_
  obtain ⟨c, u, rfl⟩ := List.exists_cons_of_ne_nil hu
  refine genUiBlockRe_of_ne fun hc => hs ?_
  rw [hsplit, hc]
  exact List.mem_append_right t List.mem_cons_self

theorem readPayload?_backtick : readPayload? ('`' :: body) = none := by
  cases hpayload : readPayload? ('`' :: body) with
  | none => rfl
  | some payload =>
    obtain ⟨⟨u₁, u₂, hu, -⟩, -⟩ := quoted_of_readPayload? hpayload (List.nil_append _).symm
    cases u₁ <;> cases hu

omit [JsonLoads] in
theorem inside_ticks_append (h : Inside s) : Inside (ticks ++ s) := by
  have hcons : ∀ {l : List Char}, Inside l → Inside ('`' :: l) := by
    intro l hl
    exact List.IsChain.cons hl fun y _ hnewline => absurd hnewline (by decide)
  exact hcons (hcons (hcons h))

theorem Fence.inside_opening (f : Fence) : Inside (opening ++ f.inside) := by
  refine List.IsChain.append (inside_ticks_append (inside_of_not_mem (by decide))) f.inside_inside ?_
  intro x hx y _ hnewline
  rw [hnewline] at hx
  exact absurd hx (by decide)

theorem ticks_of_joined (h : joined segments = '`' :: cs) : ticks <+: joined segments := by
  induction segments with
  | nil => cases h
  | cons segment segments ih =>
    cases segment with
    | plain s hs =>
      cases s with
      | nil => exact ih h
      | cons c s =>
        have hc : c = '`' := (List.cons.inj h).1
        exact absurd (hc ▸ List.mem_cons_self) hs
    | fence f => exact ⟨word ++ (f.inside ++ closing) ++ joined segments, rfl⟩

theorem Yields.taken (hword : ¬ word <+: joined segments) (h : Yields (joined segments) found) :
    Yields (word ++ (f.inside ++ closing) ++ joined segments)
      (word ++ (f.inside ++ closing) ++ found.1, found.2) := by
  have hticks : Yields (ticks ++ joined segments) (ticks ++ found.1, found.2) := by
    refine h.skips fun t u hsplit hu => literal_of_not fun hprefix => ?_
    have hshort : ∀ {l : List Char}, ('`' :: 'g' :: l) <+: joined segments → False := by
      rintro l ⟨r, hr⟩
      obtain ⟨r', hr'⟩ := ticks_of_joined hr.symm
      rw [← hr] at hr'
      exact absurd (List.cons.inj (List.cons.inj hr').2).1 (by decide)
    have hlonger : ∀ {l : List Char}, ('`' :: '`' :: 'g' :: l) <+: joined segments → False := by
      rintro l ⟨r, hr⟩
      obtain ⟨r', hr'⟩ := ticks_of_joined hr.symm
      rw [← hr] at hr'
      exact absurd (List.cons.inj (List.cons.inj (List.cons.inj hr').2).2).1 (by decide)
    have hlength := congrArg List.length hsplit
    match u, hu with
    | [a], _ =>
      have ha : opening <+: a :: joined segments := hprefix
      exact hlonger (List.cons_prefix_cons.mp ha).2
    | [a, b], _ =>
      have ha : opening <+: a :: b :: joined segments := hprefix
      exact hshort (List.cons_prefix_cons.mp (List.cons_prefix_cons.mp ha).2).2
    | [a, b, c], _ =>
      have ha : opening <+: a :: b :: c :: joined segments := hprefix
      have hrest := (List.cons_prefix_cons.mp (List.cons_prefix_cons.mp ha).2).2
      exact hword (List.cons_prefix_cons.mp hrest).2
    | a :: b :: c :: d :: u, _ =>
      simp only [ticks, List.length_cons, List.length_append, List.length_nil] at hlength
      omega
  have hall : Yields (word ++ (f.pad ++ '\n' :: f.content) ++ ['\n'] ++ (ticks ++ joined segments))
      (word ++ (f.pad ++ '\n' :: f.content) ++ ['\n'] ++ (ticks ++ found.1), found.2) := by
    refine hticks.skips fun t u hsplit hu => ?_
    obtain ⟨c, u, rfl⟩ := List.exists_cons_of_ne_nil hu
    by_cases hc : c = '`'
    · -- the backtick stands in a string of the content, which ends on its line
      have hleft : '`' ∉ word ++ (f.pad ++ ['\n']) := by simp [word, f.pad_ne]
      have hright : '`' ∉ ['\n'] := by decide
      have hsplit' : word ++ (f.pad ++ ['\n']) ++ (f.content ++ ['\n']) = t ++ '`' :: u := by
        rw [← hc, ← hsplit]
        simp
      obtain ⟨t', -, hcontent⟩ := split_of_not_mem_left hsplit' hleft
      obtain ⟨u', hu', hcontent'⟩ := split_of_not_mem_right hcontent hright
      obtain ⟨-, v₁, v₂, hv, hline⟩ := Fence.quoted hcontent'
      have hrest : c :: u ++ (ticks ++ joined segments) =
          ('`' :: v₁) ++ '"' :: (v₂ ++ ['\n'] ++ (ticks ++ joined segments)) := by
        rw [hc, hu', hv]
        simp
      rw [hrest]
      by_cases hprefix : opening <+: '`' :: v₁
      · obtain ⟨v, hv'⟩ := hprefix
        have hv₁ : v₁ = ['`', '`', 'g', 'e', 'n', 'u', 'i'] ++ v := (List.cons.inj hv'.symm).2
        rw [← hv', List.append_assoc, genUiBlockRe, literal_append]
        refine afterOpening_eq_none (fun hmem => hline ?_) (by decide)
        rw [hv₁]
        exact List.mem_append_right _ hmem
      · exact literal_of_not fun h => hprefix (prefix_of_not_mem h (by decide))
    · exact genUiBlockRe_of_ne hc
  have hclosing : closing = ['\n'] ++ ticks := rfl
  have happend : ∀ l : List Char, word ++ (f.inside ++ closing) ++ l =
      word ++ (f.pad ++ '\n' :: f.content) ++ ['\n'] ++ (ticks ++ l) := by
    intro l
    rw [Fence.inside, hclosing]
    simp
  rw [happend, happend]
  exact hall

/-- A fence that is taken is not followed by the word that would make its closing an opening. -/
def Calm : (taken : Bool) → List Segment → Prop
  | _, [] => True
  | taken, .plain _ _ :: segments => Calm taken segments
  | true, .fence _ :: segments => ¬ word <+: joined segments ∧ Calm false segments
  | false, .fence f :: segments => Calm f.blank segments

/-- No fence with a payload is taken by a blank one. -/
def Untaken : (taken : Bool) → List Segment → Prop
  | _, [] => True
  | taken, .plain _ _ :: segments => Untaken taken segments
  | true, .fence f :: segments => f.payload? = none ∧ Untaken false segments
  | false, .fence f :: segments => Untaken f.blank segments

theorem exists_next (segments : List Segment) :
    (∃ s, '`' ∉ s ∧ joined segments = s ∧ readFrom true segments = (s, [])) ∨
      ∃ (s : List Char) (f : Fence) (later : List Segment), '`' ∉ s ∧
        joined segments = s ++ (f.text ++ joined later) ∧
        readFrom true segments =
          (s ++ (f.text ++ (readFrom false later).1), (readFrom false later).2) ∧
        later.length < segments.length ∧
        (Calm true segments → ¬ word <+: joined later ∧ Calm false later) := by
  induction segments with
  | nil => exact .inl ⟨[], List.not_mem_nil, rfl, rfl⟩
  | cons segment segments ih =>
    cases segment with
    | fence f =>
      exact .inr ⟨[], f, segments, List.not_mem_nil, rfl, rfl, Nat.lt_succ_self _, fun h => h⟩
    | plain s hs =>
      rcases ih with ⟨t, ht, hjoined, hread⟩ | ⟨t, f, later, ht, hjoined, hread, hlength, hcalm⟩
      · refine .inl ⟨s ++ t, by simp [hs, ht], ?_, ?_⟩
        · rw [← hjoined]
          rfl
        · rw [readFrom, hread]
      · refine .inr ⟨s ++ t, f, later, by simp [hs, ht], ?_, ?_, Nat.lt_succ_of_lt hlength, hcalm⟩
        · rw [List.append_assoc, ← hjoined]
          rfl
        · rw [readFrom, hread, List.append_assoc]

/-- A blank fence, the text after it and the fence after that. -/
theorem Yields.next {g : Fence} (hblank : f.blank = true) (hs : '`' ∉ s)
    (hword : ¬ word <+: joined segments) (h : Yields (joined segments) found) :
    Yields (f.text ++ (s ++ (g.text ++ joined segments)))
      (f.text ++ (s ++ (g.text ++ found.1)), found.2) := by
  have hne : ∀ l : List Char, f.text ++ l ≠ [] := fun _ => List.cons_ne_nil _ _
  have hgtext : g.text = ticks ++ (word ++ (g.inside ++ closing)) := rfl
  by_cases hlast : s.getLast? = some '\n'
  · -- the opening of the second fence is taken for the closing of the first
    obtain ⟨s', rfl⟩ := List.getLast?_eq_some_iff.mp hlast
    have hs' : '`' ∉ s' := fun hmem => hs (List.mem_append_left _ hmem)
    have hnext : toClosing (ticks ++ (s' ++ ['\n'] ++ (g.text ++ joined segments))) =
        some (ticks ++ s', word ++ (g.inside ++ closing) ++ joined segments) := by
      have hsplit : ticks ++ (s' ++ ['\n'] ++ (g.text ++ joined segments)) =
          ticks ++ s' ++ (closing ++ (word ++ (g.inside ++ closing) ++ joined segments)) := by
        have hclosing : closing = '\n' :: ticks := rfl
        rw [hgtext, hclosing]
        simp
      rw [hsplit]
      exact toClosing_append (inside_ticks_append (inside_of_not_mem hs'))
    have hfound := Fence.found_next hblank hnext
    have htext : ∀ l : List Char, f.text ++ (s' ++ ['\n'] ++ (g.text ++ l)) =
        f.text ++ (s' ++ ['\n'] ++ ticks) ++ (word ++ (g.inside ++ closing) ++ l) := by
      intro l
      rw [hgtext]
      simp
    rw [htext] at hfound ⊢
    have hhit := Yields.hit (hne _) hfound (h.taken hword)
    have hnone : readPayload? (ticks ++ s') = none := readPayload?_backtick
    rw [hnone] at hhit
    rw [htext]
    exact hhit
  · have hinside : Inside (ticks ++ (s ++ (opening ++ g.inside))) := by
      refine inside_ticks_append (List.IsChain.append (inside_of_not_mem hs) g.inside_opening ?_)
      intro x hx y _ hnewline
      exact absurd (hnewline ▸ hx) hlast
    have hnext : toClosing (ticks ++ (s ++ (g.text ++ joined segments))) =
        some (ticks ++ (s ++ (opening ++ g.inside)), joined segments) := by
      have hsplit : ticks ++ (s ++ (g.text ++ joined segments)) =
          ticks ++ (s ++ (opening ++ g.inside)) ++ (closing ++ joined segments) := by
        rw [Fence.text]
        simp
      rw [hsplit]
      exact toClosing_append hinside
    have hfound := Fence.found_next hblank hnext
    have htext : ∀ l : List Char, f.text ++ (s ++ (g.text ++ l)) = f.text ++ (s ++ g.text) ++ l := by
      simp
    rw [htext] at hfound ⊢
    have hhit := Yields.hit (hne _) hfound h
    have hnone : readPayload? (ticks ++ (s ++ (opening ++ g.inside))) = none :=
      readPayload?_backtick
    rw [hnone] at hhit
    rw [htext]
    exact hhit

theorem yields_readFrom (hcalm : Calm false segments) :
    Yields (joined segments) (readFrom false segments) := by
  induction hn : segments.length using Nat.strong_induction_on generalizing segments with
  | _ n ih =>
    cases segments with
    | nil => exact Yields.nil
    | cons segment segments =>
      have hshort : segments.length < n := by
        rw [← hn]
        exact Nat.lt_succ_self _
      cases segment with
      | plain s hs =>
        have hcalm' : Calm false segments := hcalm
        exact (ih _ hshort hcalm' rfl).plain hs
      | fence f =>
        have hne : f.text ≠ [] := List.cons_ne_nil _ _
        cases hblank : f.blank with
        | false =>
          obtain ⟨body, hfound, hpayload⟩ := Fence.found (joined segments) hblank
          have hcalm' : Calm false segments := hblank ▸ hcalm
          have hhit := Yields.hit hne hfound (ih _ hshort hcalm' rfl)
          rw [hpayload] at hhit
          rw [readFrom, hblank]
          exact hhit
        | true =>
          have hcalm' : Calm true segments := hblank ▸ hcalm
          have hnone := Fence.payload?_blank hblank
          have hread : readFrom false (.fence f :: segments) =
              (f.text ++ (readFrom true segments).1, (readFrom true segments).2) := by
            rw [readFrom, hblank]
            simp [Segment.kept, Segment.payload?, hnone, Segment.text]
          rw [hread]
          rcases exists_next segments with ⟨s, hs, hjoined, hrest⟩ |
            ⟨s, g, later, hs, hjoined, hrest, hlength, hlater⟩
          · rw [hrest]
            have hnext : toClosing (ticks ++ s) = none :=
              toClosing_eq_none (inside_ticks_append (inside_of_not_mem hs))
            obtain ⟨body, hfound, hpayload⟩ := Fence.found_last hblank hnext
            have hplain : Yields (s ++ []) (s ++ [], []) := Yields.nil.plain hs
            rw [List.append_nil] at hplain
            have hhit := Yields.hit hne hfound hplain
            rw [hpayload, ← hjoined] at hhit
            rw [hjoined] at hhit
            have htext : joined (.fence f :: segments) = f.text ++ s := by
              rw [← hjoined]
              rfl
            rw [htext]
            exact hhit
          · rw [hrest]
            obtain ⟨hword, hcalm''⟩ := hlater hcalm'
            have htext : joined (.fence f :: segments) =
                f.text ++ (s ++ (g.text ++ joined later)) := by
              rw [← hjoined]
              rfl
            rw [htext]
            exact (ih _ (hlength.trans hshort) hcalm'' rfl).next hblank hs hword

/-! Exactly the payloads. -/

theorem filterMap_payload (segments : List Segment) :
    (Segment.fence f :: segments).filterMap Segment.payload? =
      f.payload?.toList ++ segments.filterMap Segment.payload? := by
  cases hpayload : f.payload? with
  | none =>
    have hsegment : (Segment.fence f).payload? = none := hpayload
    rw [List.filterMap_cons_none hsegment]
    rfl
  | some payload =>
    have hsegment : (Segment.fence f).payload? = some payload := hpayload
    rw [List.filterMap_cons_some hsegment]
    rfl

theorem readFrom_of_untaken {taken : Bool} (h : Untaken taken segments) :
    readFrom taken segments =
      (segments.flatMap Segment.kept, segments.filterMap Segment.payload?) := by
  induction segments generalizing taken with
  | nil => cases taken <;> rfl
  | cons segment segments ih =>
    cases segment with
    | plain s hs =>
      have hrest : Untaken taken segments := by cases taken <;> exact h
      rw [readFrom, ih hrest]
      rfl
    | fence f =>
      cases taken with
      | true =>
        have hkept : (Segment.fence f).kept = f.text := by
          simp [Segment.kept, Segment.payload?, h.1, Segment.text]
        rw [readFrom, ih h.2, filterMap_payload, h.1, List.flatMap_cons, hkept]
        rfl
      | false =>
        rw [readFrom, ih h, filterMap_payload]
        rfl

theorem length_readFrom_le (taken : Bool) (segments : List Segment) :
    (readFrom taken segments).2.length ≤ (segments.filterMap Segment.payload?).length ∧
      ((readFrom taken segments).2.length = (segments.filterMap Segment.payload?).length →
        Untaken taken segments) := by
  induction segments generalizing taken with
  | nil => cases taken <;> exact ⟨le_rfl, fun _ => trivial⟩
  | cons segment segments ih =>
    cases segment with
    | plain s hs =>
      have hplain : (Segment.plain s hs).payload? = none := rfl
      rw [readFrom, List.filterMap_cons_none hplain]
      cases taken <;> exact ih _
    | fence f =>
      rw [filterMap_payload, List.length_append]
      cases taken with
      | true =>
        obtain ⟨hle, heq⟩ := ih false
        rw [readFrom]
        refine ⟨by dsimp only; omega, fun h => ⟨?_, heq ?_⟩⟩
        · have hnone : f.payload?.toList.length = 0 := by dsimp only at h; omega
          cases hpayload : f.payload? with
          | none => rfl
          | some payload =>
            rw [hpayload] at hnone
            cases hnone
        · dsimp only at h
          omega
      | false =>
        obtain ⟨hle, heq⟩ := ih f.blank
        rw [readFrom]
        dsimp only
        rw [List.length_append]
        exact ⟨by omega, fun h => heq (by omega)⟩

/-- The payloads in order, and the text without their fences. -/
def ReadsPayloads (segments : List Segment) : Prop :=
  parseGenUiBlocks (String.ofList (joined segments)) =
    (strip (String.ofList (segments.flatMap Segment.kept)), segments.filterMap Segment.payload?)

end

/-- Where nothing is made an opening that was none, exactly the payloads are read if and only if no
blank fence takes one of them. -/
theorem readsPayloads_iff [JsonLoads] {segments : List Segment} (hcalm : Calm false segments) :
    ReadsPayloads segments ↔ Untaken false segments := by
  have hparse := parseGenUiBlocks_of_yields (yields_readFrom hcalm)
  constructor
  · intro h
    refine (length_readFrom_le false segments).2 ?_
    have hpayloads := congrArg Prod.snd (hparse.symm.trans h)
    exact congrArg List.length hpayloads
  · intro h
    rw [readFrom_of_untaken h] at hparse
    exact hparse

/-! An invoice, and an empty fence. -/

def invoiceText : String :=
  "\x7b\"component_id\":\"InvoiceCard\",\"props\":\x7b\x7d,\"fallback_text\":\"Invoice\"\x7d"

def invoiceValue : PyValue := .object [("component_id", .text "InvoiceCard"), ("props", .object []),
  ("fallback_text", .text "Invoice")]

abbrev JsonLoads.invoice : JsonLoads where
  loads s := if s = invoiceText then some invoiceValue else none
  loads_empty := rfl
  quoted := by
    intro s u v hloads hsplit
    have hs : s = invoiceText := by
      by_contra hne
      rw [if_neg hne] at hloads
      cases hloads
    have hnone : '`' ∉ s.toList := by
      rw [hs]
      decide
    exact absurd (hsplit ▸ List.mem_append_right u List.mem_cons_self) hnone

theorem readPayload?_invoice :
    letI := JsonLoads.invoice
    readPayload? invoiceText.toList = some ⟨"InvoiceCard", [], "Invoice"⟩ := by
  let := JsonLoads.invoice
  have hstrip : strip (String.ofList invoiceText.toList) = invoiceText := rfl
  have hid : "InvoiceCard" = strip "InvoiceCard" := rfl
  have hloads : JsonLoads.loads invoiceText = some invoiceValue := if_pos rfl
  have hchecks : "InvoiceCard" ≠ "" ∧ "Invoice" ≠ "" ∧ "InvoiceCard" = strip "InvoiceCard" :=
    ⟨by decide, by decide, hid⟩
  have hvalue : genUIPayload? invoiceValue =
      if "InvoiceCard" ≠ "" ∧ "Invoice" ≠ "" ∧ "InvoiceCard" = strip "InvoiceCard" then
        some ⟨"InvoiceCard", [], "Invoice"⟩
      else none := rfl
  rw [readPayload?, hstrip, hloads, Option.bind_some, hvalue, if_pos hchecks]

def invoiceFence : @Fence JsonLoads.invoice :=
  letI := JsonLoads.invoice
  { pad := []
    content := invoiceText.toList
    pad_blank := nofun
    sound := fun _ => by rw [readPayload?_invoice]; rfl }

def emptyFence : @Fence JsonLoads.invoice :=
  letI := JsonLoads.invoice
  { pad := []
    content := []
    pad_blank := nofun
    sound := nofun }

theorem invoice_before_empty :
    letI := JsonLoads.invoice
    ReadsPayloads [.fence invoiceFence, .fence emptyFence] := by
  let := JsonLoads.invoice
  have hblank : invoiceFence.blank = false := rfl
  have hcalm : Calm false [.fence invoiceFence, .fence emptyFence] := by
    rw [Calm, hblank]
    trivial
  refine (readsPayloads_iff hcalm).mpr ?_
  rw [Untaken, hblank]
  trivial

/-- The empty fence takes the invoice. -/
theorem empty_before_invoice :
    letI := JsonLoads.invoice
    ¬ ReadsPayloads [.fence emptyFence, .plain ['\n'] (by decide), .fence invoiceFence] := by
  let := JsonLoads.invoice
  have hempty : emptyFence.blank = true := rfl
  have hcalm : Calm false
      [.fence emptyFence, .plain ['\n'] (by decide), .fence invoiceFence] := by
    rw [Calm, hempty]
    exact ⟨by decide, trivial⟩
  intro h
  have hparse := parseGenUiBlocks_of_yields (yields_readFrom hcalm)
  have hpayloads := congrArg Prod.snd (hparse.symm.trans h)
  have hinvoice : invoiceFence.payload? = some ⟨"InvoiceCard", [], "Invoice"⟩ := readPayload?_invoice
  have hread : (readFrom false
      [.fence emptyFence, .plain ['\n'] (by decide), .fence invoiceFence]).2 = [] := by
    rw [readFrom, hempty, Fence.payload?_blank hempty]
    rfl
  rw [hread, filterMap_payload, Fence.payload?_blank hempty] at hpayloads
  have hlast : [Segment.plain ['\n'] (by decide), .fence invoiceFence].filterMap
      Segment.payload? = [⟨"InvoiceCard", [], "Invoice"⟩] := by
    rw [List.filterMap_cons_none rfl, filterMap_payload, hinvoice]
    rfl
  rw [hlast] at hpayloads
  cases hpayloads

end Finguard.GenUi
