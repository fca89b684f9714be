import Mathlib

/-! A table that is read page by page, the highest keys first, while rows are added to it. -/

namespace Paging

variable {α κ : Type} [LinearOrder κ] (key : α → κ)

/-- An order in which the rows may be listed. Rows with one key come in any order. -/
structure Listing (rows listed : List α) : Prop where
  perm : listed.Perm rows
  sorted : listed.Pairwise fun a b => key b ≤ key a

/-- What a query with a limit and an offset may return. -/
def Page (rows : List α) (limit offset : ℕ) (page : List α) : Prop :=
  ∃ listed, Listing key rows listed ∧ page = (listed.drop offset).take limit

def rank (x : α) (rows : List α) : ℕ := rows.countP fun a => key x < key a

/-- No other row has the key of this one. -/
def Alone (x : α) (rows : List α) : Prop := rows.countP (fun a => key a = key x) ≤ 1

/-- The pages that a reader is shown who asks for one after the other. Between two questions rows
may be added, and in front of those that were read as well. -/
inductive Browse (limit : ℕ) : ℕ → List α → List α → List (List α) → Prop
  | last {offset : ℕ} {rows page : List α} (hpage : Page key rows limit offset page) :
    Browse limit offset rows rows [page]
  | next {offset : ℕ} {rows later final page : List α} {pages : List (List α)}
    (hpage : Page key rows limit offset page) (hadded : rows.Subperm later)
    (hrest : Browse limit (offset + limit) later final pages) :
    Browse limit offset rows final (page :: pages)

variable {key} {rows later listed page : List α} {limit offset : ℕ} {x : α}

theorem rank_mono (h : rows.Subperm later) : rank key x rows ≤ rank key x later := by
  obtain ⟨between, hperm, hsub⟩ := h
  rw [rank, rank, ← hperm.countP_eq]
  exact hsub.countP_le

theorem Alone.of_later (h : Alone key x later) (hadded : rows.Subperm later) :
    Alone key x rows := by
  obtain ⟨between, hperm, hsub⟩ := hadded
  rw [Alone, ← hperm.countP_eq]
  exact hsub.countP_le.trans h

/-- A row alone with its key comes right after the rows above it, in every listing. -/
theorem Listing.split (h : Listing key rows listed) (hx : x ∈ rows) (halone : Alone key x rows) :
    ∃ above below, listed = above ++ x :: below ∧ above.length = rank key x rows := by
  obtain ⟨above, below, rfl⟩ := List.append_of_mem (h.perm.mem_iff.mpr hx)
  refine ⟨above, below, rfl, ?_⟩
  obtain ⟨-, hbelow, hcross⟩ := List.pairwise_append.mp h.sorted
  have hone : (above ++ x :: below).countP (fun a => key a = key x) ≤ 1 := by
    rw [h.perm.countP_eq]
    exact halone
  have hothers : above.countP (fun a => key a = key x) = 0 := by
    rw [List.countP_append, List.countP_cons_of_pos (by simp)] at hone
    omega
  have habove : above.countP (fun a => key x < key a) = above.length := by
    rw [List.countP_eq_length]
    intro a ha
    have hle := hcross a ha x List.mem_cons_self
    have hne : key a ≠ key x := by simpa using List.countP_eq_zero.mp hothers a ha
    simpa using lt_of_le_of_ne hle hne.symm
  have hnone : (x :: below).countP (fun a => key x < key a) = 0 := by
    rw [List.countP_eq_zero]
    intro a ha
    rcases List.mem_cons.mp ha with rfl | ha
    · simp
    · simpa using (List.pairwise_cons.mp hbelow).1 a ha
  rw [rank, ← h.perm.countP_eq, List.countP_append, habove, hnone]
  rfl

theorem Page.mem (h : Page key rows limit offset page) (hx : x ∈ rows)
    (halone : Alone key x rows) (hlow : offset ≤ rank key x rows)
    (hhigh : rank key x rows < offset + limit) : x ∈ page := by
  obtain ⟨listed, hlisting, rfl⟩ := h
  obtain ⟨above, below, rfl, hlength⟩ := hlisting.split hx halone
  rw [List.drop_append_of_le_length (by omega), List.take_append, List.length_drop]
  refine List.mem_append_right _ ?_
  obtain ⟨n, hn⟩ : ∃ n, limit - (above.length - offset) = n + 1 := by
    exact ⟨limit - (above.length - offset) - 1, by omega⟩
  rw [hn, List.take_succ_cons]
  exact List.mem_cons_self

theorem rank_lt_length (hx : x ∈ rows) : rank key x rows < rows.length := by
  refine lt_of_le_of_ne List.countP_le_length fun h => ?_
  have hall := List.countP_eq_length.mp h x hx
  simp at hall

theorem Page.length (h : Page key rows limit offset page) :
    page.length = min limit (rows.length - offset) := by
  obtain ⟨listed, hlisting, rfl⟩ := h
  rw [List.length_take, List.length_drop, hlisting.perm.length_eq]

theorem Page.subset (h : Page key rows limit offset page) : page ⊆ rows := by
  obtain ⟨listed, hlisting, rfl⟩ := h
  exact fun a ha => hlisting.perm.mem_iff.mp (List.mem_of_mem_drop (List.mem_of_mem_take ha))

/-- A page that is not full is the last one. -/
theorem Page.reaches_of_short (h : Page key rows limit offset page) (hshort : page.length < limit) :
    rows.length ≤ offset + limit := by
  rw [h.length] at hshort
  omega

section
variable {final : List α} {pages : List (List α)}

theorem Browse.grows (h : Browse key limit offset rows final pages) : rows.Subperm final := by
  induction h with
  | last _ => exact List.Subperm.refl _
  | next _ hadded _ ih => exact hadded.trans ih

/-- Rows that are added push those below them to later pages, never to earlier ones: when the pages
reach the end of the table, a row that was there at the start has been shown. -/
theorem Browse.shows (h : Browse key limit offset rows final pages) (hx : x ∈ rows)
    (halone : Alone key x final) (hlow : offset ≤ rank key x rows)
    (hend : final.length ≤ offset + limit * pages.length) : ∃ page ∈ pages, x ∈ page := by
  induction h with
  | last hpage =>
    have hrank : rank key x _ < _ := rank_lt_length hx
    rw [List.length_singleton, mul_one] at hend
    exact ⟨_, List.mem_singleton_self _, hpage.mem hx halone hlow (by omega)⟩
  | @next offset rows later final page pages hpage hadded hrest ih =>
    by_cases hhere : rank key x rows < offset + limit
    · have hbefore : Alone key x rows := (halone.of_later hrest.grows).of_later hadded
      exact ⟨page, List.mem_cons_self, hpage.mem hx hbefore hlow hhere⟩
    · have hpushed : rank key x rows ≤ rank key x later := rank_mono hadded
      rw [List.length_cons, Nat.mul_succ] at hend
      obtain ⟨other, hother, hshown⟩ :=
        ih (hadded.subset hx) halone (by omega) (by omega)
      exact ⟨other, List.mem_cons_of_mem _ hother, hshown⟩

theorem Browse.genuine (h : Browse key limit offset rows final pages) :
    ∀ page ∈ pages, page ⊆ final := by
  induction h with
  | last hpage =>
    intro page hmem
    rw [List.mem_singleton.mp hmem]
    exact hpage.subset
  | next hpage hadded hrest ih =>
    intro other hother
    rcases List.mem_cons.mp hother with rfl | hother
    · exact fun a ha => hrest.grows.subset (hadded.subset (hpage.subset ha))
    · exact ih other hother

end

end Paging
